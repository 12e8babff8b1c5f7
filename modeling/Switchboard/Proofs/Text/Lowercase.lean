import Switchboard.Text.Blank
import Mathlib.Data.List.DropRight

/-!
# Trimmed texts and lower case

What is left of a text once white space is cut off both ends, and what a text is in lower case by the
case mappings of Unicode. Beyond the basic alphabet there is one letter only whose lower case is a basic
one, the sign for kelvin. So a text without a "k" that consists of basic characters is the lower case of
another text just if it is so by the basic alphabet alone (`lowers_iff`).
-/

namespace Switchboard.Text

/-! ## White space at the ends -/

/-- The text without the white space at both ends. -/
def trim (text : String) : String :=
  .ofList ((text.toList.dropWhile isWhiteSpace).rdropWhile isWhiteSpace)

theorem trim_eq_empty_iff {text : String} : trim text = "" ↔ isBlank text = true := by
  rw [trim, String.ofList_eq_empty_iff, List.rdropWhile_eq_nil_iff, isBlank, List.all_eq_true]
  refine ⟨fun rest => ?_, fun blank c mem => blank c ((List.dropWhile_suffix _).mem mem)⟩
  -- What is left begins with a character that is not white space, if it begins at all.
  rw [← List.dropWhile_eq_nil_iff]
  by_contra left
  have visible := List.head_dropWhile_not isWhiteSpace left
  rw [rest _ (List.head_mem left)] at visible
  cases visible

/-! ## Lower case -/

/-- Letters at one distance from each other, and the lower case of the first. That of the others is as far
from them. -/
structure CaseRun where
  first : Nat
  last : Nat
  step : Nat
  lower : Nat
  deriving DecidableEq, Repr

def CaseRun.Covers (run : CaseRun) (code : Nat) : Prop :=
  run.first ≤ code ∧ code ≤ run.last ∧ (code - run.first) % run.step = 0

instance (run : CaseRun) (code : Nat) : Decidable (run.Covers code) :=
  inferInstanceAs (Decidable (_ ∧ _ ∧ _))

/-- The letters whose lower case is another letter, by code point, as of Unicode 17. -/
def caseRuns : List CaseRun := [
    ⟨65, 90, 1, 97⟩, ⟨192, 214, 1, 224⟩, ⟨216, 222, 1, 248⟩, ⟨256, 302, 2, 257⟩, ⟨306, 310, 2, 307⟩,
    ⟨313, 327, 2, 314⟩, ⟨330, 374, 2, 331⟩, ⟨376, 376, 1, 255⟩, ⟨377, 381, 2, 378⟩,
    ⟨385, 385, 1, 595⟩, ⟨386, 388, 2, 387⟩, ⟨390, 390, 1, 596⟩, ⟨391, 391, 1, 392⟩,
    ⟨393, 394, 1, 598⟩, ⟨395, 395, 1, 396⟩, ⟨398, 398, 1, 477⟩, ⟨399, 399, 1, 601⟩,
    ⟨400, 400, 1, 603⟩, ⟨401, 401, 1, 402⟩, ⟨403, 403, 1, 608⟩, ⟨404, 404, 1, 611⟩,
    ⟨406, 406, 1, 617⟩, ⟨407, 407, 1, 616⟩, ⟨408, 408, 1, 409⟩, ⟨412, 412, 1, 623⟩,
    ⟨413, 413, 1, 626⟩, ⟨415, 415, 1, 629⟩, ⟨416, 420, 2, 417⟩, ⟨422, 422, 1, 640⟩,
    ⟨423, 423, 1, 424⟩, ⟨425, 425, 1, 643⟩, ⟨428, 428, 1, 429⟩, ⟨430, 430, 1, 648⟩,
    ⟨431, 431, 1, 432⟩, ⟨433, 434, 1, 650⟩, ⟨435, 437, 2, 436⟩, ⟨439, 439, 1, 658⟩,
    ⟨440, 440, 1, 441⟩, ⟨444, 444, 1, 445⟩, ⟨452, 452, 1, 454⟩, ⟨453, 453, 1, 454⟩,
    ⟨455, 455, 1, 457⟩, ⟨456, 456, 1, 457⟩, ⟨458, 458, 1, 460⟩, ⟨459, 475, 2, 460⟩,
    ⟨478, 494, 2, 479⟩, ⟨497, 497, 1, 499⟩, ⟨498, 500, 2, 499⟩, ⟨502, 502, 1, 405⟩,
    ⟨503, 503, 1, 447⟩, ⟨504, 542, 2, 505⟩, ⟨544, 544, 1, 414⟩, ⟨546, 562, 2, 547⟩,
    ⟨570, 570, 1, 11365⟩, ⟨571, 571, 1, 572⟩, ⟨573, 573, 1, 410⟩, ⟨574, 574, 1, 11366⟩,
    ⟨577, 577, 1, 578⟩, ⟨579, 579, 1, 384⟩, ⟨580, 580, 1, 649⟩, ⟨581, 581, 1, 652⟩,
    ⟨582, 590, 2, 583⟩, ⟨880, 882, 2, 881⟩, ⟨886, 886, 1, 887⟩, ⟨895, 895, 1, 1011⟩,
    ⟨902, 902, 1, 940⟩, ⟨904, 906, 1, 941⟩, ⟨908, 908, 1, 972⟩, ⟨910, 911, 1, 973⟩,
    ⟨913, 929, 1, 945⟩, ⟨931, 939, 1, 963⟩, ⟨975, 975, 1, 983⟩, ⟨984, 1006, 2, 985⟩,
    ⟨1012, 1012, 1, 952⟩, ⟨1015, 1015, 1, 1016⟩, ⟨1017, 1017, 1, 1010⟩, ⟨1018, 1018, 1, 1019⟩,
    ⟨1021, 1023, 1, 891⟩, ⟨1024, 1039, 1, 1104⟩, ⟨1040, 1071, 1, 1072⟩, ⟨1120, 1152, 2, 1121⟩,
    ⟨1162, 1214, 2, 1163⟩, ⟨1216, 1216, 1, 1231⟩, ⟨1217, 1229, 2, 1218⟩, ⟨1232, 1326, 2, 1233⟩,
    ⟨1329, 1366, 1, 1377⟩, ⟨4256, 4293, 1, 11520⟩, ⟨4295, 4295, 1, 11559⟩, ⟨4301, 4301, 1, 11565⟩,
    ⟨5024, 5103, 1, 43888⟩, ⟨5104, 5109, 1, 5112⟩, ⟨7305, 7305, 1, 7306⟩, ⟨7312, 7354, 1, 4304⟩,
    ⟨7357, 7359, 1, 4349⟩, ⟨7680, 7828, 2, 7681⟩, ⟨7838, 7838, 1, 223⟩, ⟨7840, 7934, 2, 7841⟩,
    ⟨7944, 7951, 1, 7936⟩, ⟨7960, 7965, 1, 7952⟩, ⟨7976, 7983, 1, 7968⟩, ⟨7992, 7999, 1, 7984⟩,
    ⟨8008, 8013, 1, 8000⟩, ⟨8025, 8031, 2, 8017⟩, ⟨8040, 8047, 1, 8032⟩, ⟨8072, 8079, 1, 8064⟩,
    ⟨8088, 8095, 1, 8080⟩, ⟨8104, 8111, 1, 8096⟩, ⟨8120, 8121, 1, 8112⟩, ⟨8122, 8123, 1, 8048⟩,
    ⟨8124, 8124, 1, 8115⟩, ⟨8136, 8139, 1, 8050⟩, ⟨8140, 8140, 1, 8131⟩, ⟨8152, 8153, 1, 8144⟩,
    ⟨8154, 8155, 1, 8054⟩, ⟨8168, 8169, 1, 8160⟩, ⟨8170, 8171, 1, 8058⟩, ⟨8172, 8172, 1, 8165⟩,
    ⟨8184, 8185, 1, 8056⟩, ⟨8186, 8187, 1, 8060⟩, ⟨8188, 8188, 1, 8179⟩, ⟨8486, 8486, 1, 969⟩,
    ⟨8490, 8490, 1, 107⟩, ⟨8491, 8491, 1, 229⟩, ⟨8498, 8498, 1, 8526⟩, ⟨8544, 8559, 1, 8560⟩,
    ⟨8579, 8579, 1, 8580⟩, ⟨9398, 9423, 1, 9424⟩, ⟨11264, 11311, 1, 11312⟩,
    ⟨11360, 11360, 1, 11361⟩, ⟨11362, 11362, 1, 619⟩, ⟨11363, 11363, 1, 7549⟩,
    ⟨11364, 11364, 1, 637⟩, ⟨11367, 11371, 2, 11368⟩, ⟨11373, 11373, 1, 593⟩,
    ⟨11374, 11374, 1, 625⟩, ⟨11375, 11375, 1, 592⟩, ⟨11376, 11376, 1, 594⟩,
    ⟨11378, 11378, 1, 11379⟩, ⟨11381, 11381, 1, 11382⟩, ⟨11390, 11391, 1, 575⟩,
    ⟨11392, 11490, 2, 11393⟩, ⟨11499, 11501, 2, 11500⟩, ⟨11506, 11506, 1, 11507⟩,
    ⟨42560, 42604, 2, 42561⟩, ⟨42624, 42650, 2, 42625⟩, ⟨42786, 42798, 2, 42787⟩,
    ⟨42802, 42862, 2, 42803⟩, ⟨42873, 42875, 2, 42874⟩, ⟨42877, 42877, 1, 7545⟩,
    ⟨42878, 42886, 2, 42879⟩, ⟨42891, 42891, 1, 42892⟩, ⟨42893, 42893, 1, 613⟩,
    ⟨42896, 42898, 2, 42897⟩, ⟨42902, 42920, 2, 42903⟩, ⟨42922, 42922, 1, 614⟩,
    ⟨42923, 42923, 1, 604⟩, ⟨42924, 42924, 1, 609⟩, ⟨42925, 42925, 1, 620⟩, ⟨42926, 42926, 1, 618⟩,
    ⟨42928, 42928, 1, 670⟩, ⟨42929, 42929, 1, 647⟩, ⟨42930, 42930, 1, 669⟩,
    ⟨42931, 42931, 1, 43859⟩, ⟨42932, 42946, 2, 42933⟩, ⟨42948, 42948, 1, 42900⟩,
    ⟨42949, 42949, 1, 642⟩, ⟨42950, 42950, 1, 7566⟩, ⟨42951, 42953, 2, 42952⟩,
    ⟨42955, 42955, 1, 612⟩, ⟨42956, 42970, 2, 42957⟩, ⟨42972, 42972, 1, 411⟩,
    ⟨42997, 42997, 1, 42998⟩, ⟨65313, 65338, 1, 65345⟩, ⟨66560, 66599, 1, 66600⟩,
    ⟨66736, 66771, 1, 66776⟩, ⟨66928, 66938, 1, 66967⟩, ⟨66940, 66954, 1, 66979⟩,
    ⟨66956, 66962, 1, 66995⟩, ⟨66964, 66965, 1, 67003⟩, ⟨68736, 68786, 1, 68800⟩,
    ⟨68944, 68965, 1, 68976⟩, ⟨71840, 71871, 1, 71872⟩, ⟨93760, 93791, 1, 93792⟩,
    ⟨93856, 93880, 1, 93883⟩, ⟨125184, 125217, 1, 125218⟩]

/-- The lower case by the runs; what is in none of them stays. -/
def lowerCode (code : Nat) : Nat :=
  match caseRuns.find? (·.Covers code) with
  | some run => run.lower + (code - run.first)
  | none => code

/-- What stands for a character in lower case. -/
inductive LowersTo : Char → List Char → Prop
  /-- A capital i with a dot keeps the dot, as a mark of its own. -/
  | dotted : LowersTo '\u0130' ['i', '\u0307']
  /-- At the end of a word, sigma has another form. -/
  | final : LowersTo '\u03A3' ['\u03C2']
  | single {c d : Char} (undotted : c ≠ '\u0130') (lower : d.toNat = lowerCode c.toNat) :
      LowersTo c [d]

/-- The second text is the first one in lower case. Where a word ends is left open: both forms of sigma
count. -/
inductive Lowers : List Char → List Char → Prop
  | nil : Lowers [] []
  | cons {c : Char} {cs lower lowered : List Char} (first : LowersTo c lower)
      (rest : Lowers cs lowered) : Lowers (c :: cs) (lower ++ lowered)

/-- Beyond the basic alphabet only the sign for kelvin has a basic letter for its lower case. -/
theorem caseRuns_cases : ∀ run ∈ caseRuns,
    run = ⟨65, 90, 1, 97⟩ ∨ 128 ≤ run.first ∧ (run = ⟨8490, 8490, 1, 107⟩ ∨ 128 ≤ run.lower) := by
  decide +kernel

theorem toNat_toLower (c : Char) :
    c.toLower.toNat = if 65 ≤ c.toNat ∧ c.toNat ≤ 90 then c.toNat + 32 else c.toNat := by
  have capital : (c.val ≥ 'A'.val ∧ c.val ≤ 'Z'.val) ↔ 65 ≤ c.toNat ∧ c.toNat ≤ 90 :=
    and_congr UInt32.le_iff_toNat_le UInt32.le_iff_toNat_le
  unfold Char.toLower
  split
  · next found =>
    have within := capital.mp found
    rw [if_pos within]
    change (c.val + 32).toNat = c.val.toNat + 32
    rw [UInt32.toNat_add, Nat.mod_eq_of_lt (by change c.toNat + 32 < _; omega)]
    rfl
  · next other => rw [if_neg (mt capital.mpr other)]

theorem lowerCode_cases (code : Nat) :
    (65 ≤ code ∧ code ≤ 90) ∧ lowerCode code = code + 32 ∨
      ¬ (65 ≤ code ∧ code ≤ 90) ∧ lowerCode code = code ∨
      code = 8490 ∧ lowerCode code = 107 ∨ 128 ≤ code ∧ 128 ≤ lowerCode code := by
  unfold lowerCode
  cases found : caseRuns.find? (·.Covers code) with
  | none =>
    have none := List.find?_eq_none.mp found ⟨65, 90, 1, 97⟩ (.head _)
    simp only [CaseRun.Covers, Nat.mod_one, and_true, decide_eq_true_eq] at none
    exact .inr (.inl ⟨none, rfl⟩)
  | some run =>
    obtain ⟨from_first, to_last, -⟩ : run.Covers code := by simpa using List.find?_some found
    obtain rfl | ⟨beyond, rfl | far⟩ := caseRuns_cases run (List.mem_of_find?_eq_some found)
    · dsimp only at from_first to_last ⊢
      omega
    · dsimp only at from_first to_last ⊢
      omega
    · dsimp only
      omega

/-- Every character has a lower case. -/
theorem exists_lowersTo (c : Char) : ∃ lower, LowersTo c lower := by
  by_cases dotted : c = '\u0130'
  · rw [dotted]
    exact ⟨_, .dotted⟩
  have within : ∀ run ∈ caseRuns, run.lower + (run.last - run.first) < 0xD800 ∨
      0xDFFF < run.lower ∧ run.lower + (run.last - run.first) < 0x110000 := by
    decide +kernel
  have valid : (lowerCode c.toNat).isValidChar := by
    unfold lowerCode
    cases found : caseRuns.find? (·.Covers c.toNat) with
    | none => exact c.valid
    | some run =>
      obtain ⟨from_first, to_last, -⟩ : run.Covers c.toNat := by simpa using List.find?_some found
      have within := within run (List.mem_of_find?_eq_some found)
      dsimp only [Nat.isValidChar]
      omega
  exact ⟨[Char.ofNatAux _ valid], .single dotted rfl⟩

theorem exists_lowers (text : List Char) : ∃ lowered, Lowers text lowered := by
  induction text with
  | nil => exact ⟨[], .nil⟩
  | cons c cs ih =>
    obtain ⟨lower, first⟩ := exists_lowersTo c
    obtain ⟨lowered, rest⟩ := ih
    exact ⟨lower ++ lowered, .cons first rest⟩

/-- A character is plain if it is a basic one and no small k. -/
def IsPlain (c : Char) : Prop :=
  c.toNat < 128 ∧ c ≠ 'k'

theorem lowersTo_iff {c d : Char} (plain : IsPlain d) : LowersTo c [d] ↔ c.toLower = d := by
  obtain ⟨basic, other⟩ := plain
  have other : d.toNat ≠ 107 := fun same => other (Char.toNat_inj.mp same)
  have lower := toNat_toLower c
  have cases := lowerCode_cases c.toNat
  rw [← Char.toNat_inj]
  constructor
  · intro lowers
    cases lowers with
    | final => exact absurd basic (by decide)
    | single undotted single =>
      split at lower <;> omega
  · intro same
    refine .single ?_ ?_
    · rintro rfl
      exact absurd (same ▸ basic) (by decide)
    · split at lower <;> omega

/-- Only a single character can stand for one if all are plain. -/
theorem LowersTo.eq_singleton {c : Char} {lower : List Char} (lowers : LowersTo c lower)
    (plain : ∀ d ∈ lower, IsPlain d) : lower = [c.toLower] := by
  cases lowers with
  | dotted => exact absurd (plain _ (.tail _ (.head _))).1 (by decide)
  | final => exact absurd (plain _ (.head _)).1 (by decide)
  | single undotted lower =>
    have same := (lowersTo_iff (plain _ (.head _))).mp (.single undotted lower)
    rw [same]

/-- A plain text is the lower case of those texts of which it is the lower case by the basic alphabet. -/
theorem lowers_iff {text lowered : List Char} (plain : ∀ d ∈ lowered, IsPlain d) :
    Lowers text lowered ↔ text.map Char.toLower = lowered := by
  constructor
  · intro lowers
    induction lowers with
    | nil => rfl
    | @cons c cs lower lowered first rest ih =>
      rw [List.forall_mem_append] at plain
      rw [first.eq_singleton plain.1, List.map_cons, ih plain.2]
      rfl
  · rintro rfl
    induction text with
    | nil => exact .nil
    | cons c cs ih =>
      rw [List.map_cons, List.forall_mem_cons] at plain
      exact .cons ((lowersTo_iff plain.1).mpr rfl) (ih plain.2)

end Switchboard.Text
