import Switchboard.Json.Reader
import Switchboard.Proofs.Json.Grammar

/-!
# Tokens are read back

A reader takes a written token if it reads it, places and all, and leaves whatever follows it
(`Reader.Reads`). What follows is part of the statement, because a reader looks at the character ahead
before it goes on; a number, for one, is only over when no digit follows (`Delimits`). A reader that
looks for what is ahead passes over white space first (`SkipsSpace`).

A text is written character by character, each in one of its spellings, and is read by rounds that take
one character each (`Spelled.reads_round`, `Rounds.reads`).
-/

namespace Switchboard.Json

variable {α β σ : Type}

/-- The reader takes what is written as a value and leaves the rest. -/
def Reader.Reads (r : Reader α) (written : List Char) (a : α) (rest : List Char) : Prop :=
  ∀ place, r ⟨written ++ rest, place⟩ = .ok a ⟨rest, written.foldl Place.after place⟩

/-- No number goes on with what follows. -/
def Delimits (rest : List Char) : Prop :=
  ∀ c ∈ rest.head?, !c.isDigit ∧ c ≠ '.' ∧ !Reader.isExponentLetter c

theorem delimits_nil : Delimits [] := by
  simp [Delimits]

theorem delimits_cons {c : Char} (rest : List Char)
    (ends : !c.isDigit ∧ c ≠ '.' ∧ !Reader.isExponentLetter c) : Delimits (c :: rest) := by
  rintro _ ⟨⟩
  exact ends

theorem Delimits.ahead {rest : List Char} (delimited : Delimits rest) :
    ¬ rest.head?.any Char.isDigit ∧ rest.head? ≠ some '.' ∧
      ¬ rest.head?.any Reader.isExponentLetter := by
  cases rest with
  | nil => simp
  | cons c rest => simpa using delimited c rfl

namespace Reader

namespace Reads

variable {rest : List Char}

theorem pure (a : α) : (Pure.pure a : Reader α).Reads [] a rest :=
  fun _ => rfl

theorem bind {r : Reader α} {written more : List Char} {a : α}
    (first : r.Reads written a (more ++ rest)) {f : α → Reader β} {b : β}
    (second : (f a).Reads more b rest) : (r >>= f).Reads (written ++ more) b rest := by
  intro place
  change EStateM.bind r f _ = _
  rw [EStateM.bind, List.append_assoc, first, List.foldl_append]
  exact second _

/-- The next reader takes nothing. -/
theorem bind_nil {r : Reader α} {written : List Char} {a : α} (first : r.Reads written a rest)
    {f : α → Reader β} {b : β} (second : (f a).Reads [] b rest) :
    (r >>= f).Reads written b rest := by
  have both : (r >>= f).Reads (written ++ []) b rest := first.bind second
  rwa [List.append_nil] at both

/-- The first reader takes nothing. -/
theorem nil_bind {r : Reader α} {written : List Char} {a : α}
    (first : r.Reads [] a (written ++ rest)) {f : α → Reader β} {b : β}
    (second : (f a).Reads written b rest) : (r >>= f).Reads written b rest :=
  first.bind second

/-- Something is made of the value. -/
theorem map {r : Reader α} {written : List Char} {a : α} (reads : r.Reads written a rest)
    (f : α → β) : Reads (do Pure.pure (f (← r))) written (f a) rest :=
  reads.bind_nil (.pure (f a))

end Reads

/-! ## Single characters -/

theorem reads_peek (text : List Char) : peek.Reads [] text.head? text :=
  fun _ => rfl

theorem reads_skip (c : Char) (rest : List Char) : skip.Reads [c] () rest :=
  fun _ => rfl

theorem reads_takeWhile {p : Char → Bool} {written rest : List Char} (all : ∀ c ∈ written, p c)
    (ends : ∀ c ∈ rest.head?, ¬ p c) : (takeWhile p).Reads written written rest := by
  have stops : rest.takeWhile p = [] ∧ rest.dropWhile p = rest := by
    cases rest with
    | nil => exact ⟨rfl, rfl⟩
    | cons c rest =>
      exact ⟨List.takeWhile_cons_of_neg (ends c rfl), List.dropWhile_cons_of_neg (ends c rfl)⟩
  intro place
  simp only [takeWhile, Cursor.dropWhile, List.takeWhile_append_of_pos all,
    List.dropWhile_append_of_pos all, stops, List.append_nil]

/-- There is no white space to pass over. -/
theorem reads_nextPeek {text : List Char} {c : Char} (ahead : text.head? = some c)
    (visible : ¬ isSpace c) : nextPeek.Reads [] (some c) text := by
  have space : space.Reads [] () text := by
    refine (reads_takeWhile (by simp) ?_).map fun _ => ()
    rw [ahead]
    rintro _ ⟨⟩
    exact visible
  exact space.nil_bind (ahead ▸ reads_peek text)

theorem reads_valueAhead {text : List Char} {c : Char} (ahead : text.head? = some c)
    (visible : ¬ isSpace c) : valueAhead.Reads [] c text :=
  (reads_nextPeek ahead visible).nil_bind (fun _ => rfl)

/-! ## White space -/

/-- The reader begins by passing over white space. -/
def SkipsSpace (r : Reader α) : Prop :=
  ∀ ⦃c⦄, isSpace c → ∀ rest place, r ⟨c :: rest, place⟩ = r ⟨rest, place.after c⟩

theorem skipsSpace_nextPeek : SkipsSpace nextPeek := by
  intro c isSpace rest place
  have passed : Cursor.dropWhile Reader.isSpace ⟨c :: rest, place⟩ =
      Cursor.dropWhile Reader.isSpace ⟨rest, place.after c⟩ := by
    simp only [Cursor.dropWhile, List.takeWhile_cons_of_pos isSpace, List.dropWhile_cons_of_pos isSpace,
      List.foldl_cons]
  change EStateM.Result.ok _ (Cursor.dropWhile Reader.isSpace ⟨c :: rest, place⟩) = _
  rw [passed]
  rfl

theorem SkipsSpace.bind {r : Reader α} (skips : SkipsSpace r) (f : α → Reader β) :
    SkipsSpace (r >>= f) := by
  intro c isSpace rest place
  change EStateM.bind r f _ = EStateM.bind r f _
  rw [EStateM.bind, EStateM.bind, skips isSpace]

theorem skipsSpace_valueAhead : SkipsSpace valueAhead :=
  skipsSpace_nextPeek.bind _

theorem SkipsSpace.reads {r : Reader α} (skips : SkipsSpace r) {space written rest : List Char} {a : α}
    (blank : Blank space) (reads : r.Reads written a rest) : r.Reads (space ++ written) a rest := by
  induction space with
  | nil => exact reads
  | cons c space ih =>
    obtain ⟨isSpace, others⟩ := List.forall_mem_cons.mp blank
    intro place
    exact (skips isSpace _ _).trans (ih others _)

/-! ## Loops -/

/-- Rounds of a loop that take a text, from a state to the result. -/
inductive Rounds (round : σ → Reader (Round σ α)) (rest : List Char) : σ → List Char → α → Prop
  | done {s : σ} {written : List Char} {a : α} (last : (round s).Reads written (.done a) rest) :
      Rounds round rest s written a
  | again {s t : σ} {written more : List Char} {a : α}
      (first : (round s).Reads written (.again t) (more ++ rest)) (moves : written ≠ [])
      (others : Rounds round rest t more a) : Rounds round rest s (written ++ more) a

/-- There are enough rounds for a text that is no longer than what is left. -/
theorem Rounds.reads_go {round : σ → Reader (Round σ α)} {rest : List Char} {s : σ}
    {written : List Char} {a : α} (rounds : Rounds round rest s written a) {left : List Char}
    (enough : written.length ≤ left.length) : (iterate.go round left s).Reads written a rest := by
  induction rounds generalizing left with
  | done last => cases left <;> exact last.bind_nil (.pure _)
  | @again s t written more a first moves others ih =>
    have longer : 0 < written.length := List.length_pos_iff.mpr moves
    rw [List.length_append] at enough
    cases left with
    | nil =>
      rw [List.length_nil] at enough
      omega
    | cons c left =>
      rw [List.length_cons] at enough
      exact first.bind (ih (by omega))

theorem Rounds.reads {round : σ → Reader (Round σ α)} {rest : List Char} {s : σ}
    {written : List Char} {a : α} (rounds : Rounds round rest s written a) :
    (iterate round s).Reads written a rest :=
  fun place => rounds.reads_go (by simp) place

end Reader

/-! ## Texts -/

section

open Reader

/-- A character takes one byte at least. -/
theorem length_le_bytes (chars : List Char) : chars.length ≤ Utf8.length chars := by
  induction chars with
  | nil => exact Nat.le_refl 0
  | cons c chars ih =>
    have one : 0 < (String.utf8EncodeChar c).length := by
      rw [String.length_utf8EncodeChar]
      exact c.utf8Size_pos
    unfold Utf8.length at ih ⊢
    rw [List.flatMap_cons, List.length_append, List.length_cons]
    omega

theorem Hex.reads {digits : List Char} {n : Nat} (hex : Hex digits n) (rest : List Char) :
    hexUnit.Reads digits n rest := by
  have enough : ¬ Utf8.length digits < 4 := by
    have bytes := length_le_bytes digits
    have four := hex.four
    omega
  have taken : (digits ++ rest).take 4 = digits := List.take_left' hex.four
  have left : (digits ++ rest).drop 4 = rest := List.drop_left' hex.four
  intro place
  simp only [hexUnit, taken, left, enough, hex.value, if_false]

/-- The number of a character is none that only half a character has. -/
theorem toNat_not_half (c : Char) : c.toNat < 0xD800 ∨ 0xDFFF < c.toNat := by
  rcases c.valid with low | ⟨high, -⟩
  · exact .inl low
  · exact .inr high

theorem Hex.reads_unit {digits : List Char} {c : Char} (hex : Hex digits c.toNat) (rest : List Char) :
    unicodeEscape.Reads digits c rest := by
  refine (hex.reads rest).bind_nil ?_
  have whole := toNat_not_half c
  have low : ¬ (0xDC00 ≤ c.toNat ∧ c.toNat ≤ 0xDFFF) := by omega
  have high : ¬ (0xD800 ≤ c.toNat ∧ c.toNat ≤ 0xDBFF) := by omega
  simp only [Bool.and_eq_true, decide_eq_true_eq, low, high, if_false, Char.ofNat_toNat]
  exact .pure c

theorem reads_expectInEscape (c : Char) (rest : List Char) :
    (expectInEscape c).Reads [c] () rest := by
  refine (reads_peek _).nil_bind ?_
  simp only [List.cons_append, List.head?_cons, if_true]
  exact reads_skip c rest

theorem Hex.reads_pair {high low : List Char} {upper lower : Nat} {c : Char}
    (first : Hex high (0xD800 + upper)) (second : Hex low (0xDC00 + lower)) (upperFits : upper < 0x400)
    (lowerFits : lower < 0x400) (code : c.toNat = upper * 0x400 + lower + 0x10000) (rest : List Char) :
    unicodeEscape.Reads (high ++ '\\' :: 'u' :: low) c rest := by
  refine (first.reads _).bind ?_
  have notLow : ¬ (0xDC00 ≤ 0xD800 + upper ∧ 0xD800 + upper ≤ 0xDFFF) := by omega
  have isHigh : 0xD800 ≤ 0xD800 + upper ∧ 0xD800 + upper ≤ 0xDBFF := by omega
  have isLow : ¬ (0xDC00 + lower < 0xDC00 ∨ 0xDFFF < 0xDC00 + lower) := by omega
  simp only [Bool.and_eq_true, decide_eq_true_eq, notLow, isHigh, if_false, and_self, if_true]
  refine (reads_expectInEscape '\\' _).bind ((reads_expectInEscape 'u' _).bind ?_)
  refine (second.reads rest).bind_nil ?_
  simp only [Bool.or_eq_true, decide_eq_true_eq, isLow, if_false, Nat.add_sub_cancel_left, ← code,
    Char.ofNat_toNat]
  exact .pure c

theorem reads_escaped_letter {letter c : Char} (meant : escapedChar? letter = some c)
    (rest : List Char) : escaped.Reads [letter] c rest := by
  have other : letter ≠ 'u' := by
    rintro rfl
    cases meant
  refine (reads_peek _).nil_bind ?_
  simp only [List.cons_append, List.head?_cons, meant]
  exact (reads_skip letter rest).bind_nil (.pure c)

theorem reads_escaped_unicode {written : List Char} {c : Char} {rest : List Char}
    (reads : unicodeEscape.Reads written c rest) : escaped.Reads ('u' :: written) c rest :=
  (reads_peek _).nil_bind ((reads_skip 'u' _).bind reads)

theorem reads_round_escaped {written : List Char} {c : Char} {rest : List Char}
    (reads : escaped.Reads written c rest) (read : List Char) :
    (quotedRound read).Reads ('\\' :: written) (.again (c :: read)) rest :=
  (reads_peek _).nil_bind ((reads_skip '\\' _).bind (reads.bind_nil (.pure _)))

/-- A round reads a character in any of its spellings. -/
theorem Spelled.reads_round {c : Char} {written : List Char} (spelled : Spelled c written)
    (read rest : List Char) : (quotedRound read).Reads written (.again (c :: read)) rest := by
  cases spelled with
  | plain quote slash printable =>
    refine (reads_peek _).nil_bind ?_
    simp only [List.cons_append, List.head?_cons, printable]
    exact (reads_skip c rest).bind_nil (.pure _)
  | letter meant => exact reads_round_escaped (reads_escaped_letter meant rest) read
  | unit hex => exact reads_round_escaped (reads_escaped_unicode (hex.reads_unit rest)) read
  | pair first second upperFits lowerFits code =>
    have reads := first.reads_pair second upperFits lowerFits code rest
    exact reads_round_escaped (reads_escaped_unicode reads) read

theorem Spelled.ne_nil {c : Char} {written : List Char} (spelled : Spelled c written) :
    written ≠ [] := by
  cases spelled <;> exact List.cons_ne_nil _ _

theorem Spelling.rounds {chars written : List Char} (spelling : Spelling chars written)
    (read rest : List Char) :
    Rounds quotedRound rest read written (String.ofList (read.reverse ++ chars)) := by
  induction spelling generalizing read with
  | quote =>
    rw [List.append_nil]
    exact .done fun _ => rfl
  | @cons c chars written more first _ ih =>
    have others := ih (c :: read)
    rw [List.reverse_cons, List.append_assoc, List.singleton_append] at others
    exact .again (first.reads_round read _) first.ne_nil others

/-- A text is read from its quotes, however its characters are spelled. -/
theorem Quoted.reads {s : String} {written : List Char} (quoted : Quoted s written)
    (rest : List Char) : Reader.quoted.Reads written s rest := by
  obtain ⟨spelling⟩ := quoted
  have rounds := spelling.rounds [] rest
  rw [List.reverse_nil, List.nil_append, String.ofList_toList] at rounds
  exact (reads_skip '"' _).bind rounds.reads

/-- A control character is written by its number, in two digits behind two zeros. -/
theorem hex_control {n : Nat} (control : n < 0x20) :
    Hex ['0', '0', Nat.digitChar (n / 16), Nat.digitChar (n % 16)] n := by
  have spelled : ∀ n < 0x20,
      hexUnit? ['0', '0', Nat.digitChar (n / 16), Nat.digitChar (n % 16)] = some n := by
    decide
  exact ⟨rfl, spelled n control⟩

/-- A character of a text is written in one of three ways: by a letter of its own behind a backslash, by
its number, or as it is. -/
theorem spelled_escape (c : Char) : Spelled c (escape c) := by
  by_cases short : c ∈ ['"', '\\', '\x08', '\x0c', '\n', '\r', '\t']
  case pos =>
    simp only [List.mem_cons, List.not_mem_nil, or_false] at short
    rcases short with rfl | rfl | rfl | rfl | rfl | rfl | rfl
    all_goals exact .letter rfl
  case neg =>
    simp only [List.mem_cons, List.not_mem_nil, or_false, not_or] at short
    by_cases control : c.toNat < 0x20
    case pos =>
      have byNumber : escape c =
          ['\\', 'u', '0', '0', Nat.digitChar (c.toNat / 16), Nat.digitChar (c.toNat % 16)] := by
        simp [escape, short, control]
      rw [byNumber]
      exact .unit (hex_control control)
    case neg =>
      have plain : escape c = [c] := by simp [escape, short, control]
      rw [plain]
      exact .plain short.1 short.2.1 (by simpa [isControl] using control)

theorem spelling_escape (chars : List Char) : Spelling chars (chars.flatMap escape ++ ['"']) := by
  induction chars with
  | nil => exact .quote
  | cons c chars ih =>
    rw [List.flatMap_cons, List.append_assoc]
    exact .cons (spelled_escape c) ih

/-- What is written of a text is a spelling of it, whatever its characters. -/
theorem quoted_quoteChars (s : String) : Quoted s (quoteChars s) :=
  .intro (spelling_escape s.toList)

end

namespace Reader

/-! ## Numbers -/

theorem head_toDigits (n : Nat) (rest : List Char) :
    ∃ c, (Nat.toDigits 10 n ++ rest).head? = some c ∧ c.isDigit := by
  have some : Nat.toDigits 10 n ≠ [] := Nat.toDigits_ne_nil
  obtain ⟨c, more, digits⟩ := List.exists_cons_of_ne_nil some
  have mem : c ∈ Nat.toDigits 10 n := digits ▸ List.mem_cons_self ..
  exact ⟨c, by rw [digits]; rfl, Nat.isDigit_of_mem_toDigits (by decide) (by decide) mem⟩

/-- No number begins with white space. -/
theorem visible_of_numeric {c : Char} (numeric : c = '-' || c.isDigit) : ¬ isSpace c := by
  intro space
  simp only [isSpace, Bool.or_eq_true, decide_eq_true_eq] at space
  rcases space with ((rfl | rfl) | rfl) | rfl <;> cases numeric

/-- A number begins with its sign or with a digit. -/
theorem head_intChars (n : Int) (rest : List Char) :
    ∃ c, (intChars n ++ rest).head? = some c ∧ (c = '-' || c.isDigit) := by
  unfold intChars
  split
  case isTrue negative => exact ⟨'-', rfl, by decide⟩
  case isFalse natural =>
    obtain ⟨c, ahead, digit⟩ := head_toDigits n.natAbs rest
    exact ⟨c, ahead, by simp [digit]⟩

/-- The digits of a number other than zero do not begin with a zero. -/
theorem toDigits_eq_cons {n : Nat} (positive : 0 < n) :
    ∃ c more, Nat.toDigits 10 n = c :: more ∧ c ≠ '0' := by
  induction n using Nat.strongRecOn with
  | ind n ih =>
    rw [Nat.toDigits_eq_if (by decide)]
    split
    · have nonzero : Nat.digitChar n ≠ '0' := mt Nat.digitChar_eq_zero.mp (by omega)
      exact ⟨_, [], rfl, nonzero⟩
    · obtain ⟨c, more, digits, nonzero⟩ := ih (n / 10) (by omega) (by omega)
      exact ⟨c, _, by rw [digits, List.cons_append], nonzero⟩

theorem le_ofDigitChars (digits : List Char) (value : Nat) :
    value ≤ Nat.ofDigitChars 10 digits value := by
  rw [Nat.ofDigitChars_eq_ofDigitChars_zero]
  have positive : 0 < 10 ^ digits.length := Nat.pow_pos (by decide)
  have scaled := Nat.le_mul_of_pos_left value positive
  omega

theorem absorb_eq {digits : List Char} {value : Nat}
    (fits : Nat.ofDigitChars 10 digits value < 0x10000000000000000) :
    absorb value digits = (Nat.ofDigitChars 10 digits value, 0) := by
  induction digits generalizing value with
  | nil => rfl
  | cons d more ih =>
    rw [Nat.ofDigitChars_cons, Nat.mul_comm 10] at fits ⊢
    have next := Nat.lt_of_le_of_lt (le_ofDigitChars more _) fits
    rw [absorb, digitValue, if_pos next]
    exact ih fits

theorem whole_toDigits {n : Nat} (fits : n < 0x10000000000000000) :
    Significand.whole (Nat.toDigits 10 n) = { value := n } := by
  have value : Nat.ofDigitChars 10 (Nat.toDigits 10 n) 0 = n := Nat.ofDigitChars_ten_toDigits
  rw [Significand.whole, absorb_eq (by rwa [value]), value]
  rfl

theorem number?_natural (n : Nat) :
    ({ value := n } : Significand).number? false = some (.integer n) :=
  rfl

theorem number?_negative {n : Nat} (positive : 0 < n) (low : n ≤ 0x8000000000000000) :
    ({ value := n } : Significand).number? true = some (.integer (-n)) := by
  simp [Significand.number?, Significand.isCut, positive, low]

section

variable {rest : List Char} (delimited : Delimits rest)
include delimited

theorem reads_afterWhole {negative : Bool} {s : Significand} {number : Number}
    (known : s.number? negative = some number) :
    (afterWhole negative s).Reads [] number rest := by
  obtain ⟨-, point, letter⟩ := delimited.ahead
  refine (reads_peek rest).nil_bind ?_
  simp only [point, if_false]
  refine (reads_peek rest).nil_bind ?_
  rw [if_neg letter, if_pos trivial, known]
  exact .pure number

theorem reads_unsignedNumber {n : Nat} (fits : n < 0x10000000000000000) {negative : Bool}
    {number : Number} (known : ({ value := n } : Significand).number? negative = some number) :
    (unsignedNumber negative).Reads (Nat.toDigits 10 n) number rest := by
  have behind := reads_afterWhole delimited known
  rcases Nat.eq_zero_or_pos n with rfl | positive
  · have zero : Nat.toDigits 10 0 = ['0'] := rfl
    rw [zero]
    refine (reads_peek _).nil_bind ((reads_skip '0' rest).bind_nil ((reads_peek rest).nil_bind ?_))
    rw [if_neg delimited.ahead.1]
    exact behind
  · obtain ⟨c, more, digits, nonzero⟩ := toDigits_eq_cons positive
    have all : ∀ c ∈ Nat.toDigits 10 n, c.isDigit := fun c =>
      Nat.isDigit_of_mem_toDigits (by decide) (by decide)
    have digit : c.isDigit := all c (by rw [digits]; exact List.mem_cons_self ..)
    have taken : (takeWhile Char.isDigit).Reads (Nat.toDigits 10 n) (Nat.toDigits 10 n) rest :=
      reads_takeWhile all fun c head => by simpa using (delimited c head).1
    have spelled := taken.bind_nil (f := fun digits => afterWhole negative (.whole digits))
      (whole_toDigits fits ▸ behind)
    rw [digits] at spelled ⊢
    refine (reads_peek _).nil_bind ?_
    simp only [List.cons_append, List.head?_cons, digit, Bool.not_true, Bool.false_eq_true, if_false]
    exact spelled

theorem reads_number {n : Int} (low : -0x8000000000000000 ≤ n) (high : n < 0x10000000000000000) :
    number.Reads (intChars n) (.integer n) rest := by
  unfold intChars
  split
  case isTrue negative =>
    have known := number?_negative (n := n.natAbs) (by omega) (by omega)
    have same : -(n.natAbs : Int) = n := by omega
    rw [same] at known
    exact (reads_peek _).nil_bind ((reads_skip '-' _).bind
      (reads_unsignedNumber delimited (by omega) known))
  case isFalse natural =>
    have known := number?_natural n.natAbs
    have same : (n.natAbs : Int) = n := by omega
    rw [same] at known
    have unsigned : (Nat.toDigits 10 n.natAbs ++ rest).head? ≠ some '-' := by
      obtain ⟨c, ahead, digit⟩ := head_toDigits n.natAbs rest
      rw [ahead]
      rintro ⟨⟩
      cases digit
    refine (reads_peek _).nil_bind ?_
    rw [if_neg unsigned]
    exact reads_unsignedNumber delimited (by omega) known

end

end Reader

end Switchboard.Json
