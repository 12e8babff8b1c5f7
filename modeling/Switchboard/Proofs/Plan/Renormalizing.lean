import Mathlib.Logic.Function.Iterate
import Switchboard.Proofs.Plan.Delivery

/-!
# Normalizing a plan again

A record is normalized before it is sent, and it still has the runs to be skipped that were added to its
repetitions. A scheduler that normalizes what it has read adds them once more, and so does everyone after
it, until the repetitions are the largest number (`Info.Normal.iterate_adding`). Nothing else changes, and
nothing at all in a plan that runs once or skips nothing (`PlanRequest.info_renormalized`).
-/

namespace Switchboard.Plan

namespace Info

/-- Runs to be skipped are added to the repetitions. -/
def AddsSkips (p : Info) : Prop :=
  p.kind.isRepeating ∧ 0 < p.skips

/-- The record is as the scheduler's rules leave it. -/
structure Normal (p : Info) : Prop where
  weekday : p.kind = .week → p.value ≠ 7
  single : ¬ p.kind.isRepeating → p.repeats = 1 ∧ p.skips = 0

theorem toInt_addUpTo (a : Int32) {b : Int32} (positive : 0 < b) :
    (addUpTo a b).toInt = min (a.toInt + b.toInt) 0x7FFFFFFF := by
  have low := a.le_toInt
  have more : (0 : Int32).toInt < b.toInt := Int32.lt_iff_toInt_lt.mp positive
  rw [Int32.toInt_zero] at more
  apply Int32.toInt_ofInt_of_le <;> omega

theorem normal_normalized (p : Info) : p.normalized.Normal := by
  unfold normalized
  constructor
  · intro week
    by_cases sunday : p.value = 7 <;> grind [Kind.isRepeating]
  · intro single
    split at single <;> grind

section

variable {p : Info}

theorem repeats_normalized (adds : p.AddsSkips) : p.normalized.repeats = addUpTo p.repeats p.skips := by
  obtain ⟨repeating, skips⟩ := adds
  simp [normalized, repeating, skips]

theorem kind_normalized : p.normalized.kind = p.kind := by
  unfold normalized
  dsimp only
  split <;> rfl

theorem skips_normalized (repeating : p.kind.isRepeating) : p.normalized.skips = p.skips := by
  simp [normalized, repeating]

/-- Normalizing changes neither whether runs are added nor, if they are, how many. -/
theorem addsSkips_normalized : p.normalized.AddsSkips ↔ p.AddsSkips := by
  unfold AddsSkips
  rw [kind_normalized]
  refine and_congr_right fun repeating => ?_
  rw [skips_normalized repeating]

namespace Normal

theorem normalized_eq_self (normal : p.Normal) (adds : ¬ p.AddsSkips) : p.normalized = p := by
  obtain ⟨weekday, single⟩ := normal
  unfold AddsSkips at adds
  unfold normalized
  cases p
  grind

theorem normalized_adding (normal : p.Normal) (adds : p.AddsSkips) :
    p.normalized = { p with repeats := addUpTo p.repeats p.skips } := by
  obtain ⟨weekday, single⟩ := normal
  obtain ⟨repeating, skips⟩ := adds
  unfold normalized
  cases p
  grind

/-- Of a record that is normal, normalizing goes on adding the runs to be skipped. -/
theorem iterate_adding (normal : p.Normal) (adds : p.AddsSkips) (n : Nat) :
    ∃ repeats : Int32, normalized^[n] p = { p with repeats } ∧
      repeats.toInt = min (p.repeats.toInt + n * p.skips.toInt) 0x7FFFFFFF := by
  induction n with
  | zero =>
    have high := p.repeats.toInt_lt
    refine ⟨p.repeats, rfl, ?_⟩
    omega
  | succ n ih =>
    obtain ⟨repeats, same, sum⟩ := ih
    have normal' : ({ p with repeats } : Info).Normal := by
      refine ⟨normal.weekday, ?_⟩
      intro single
      exact absurd adds.1 single
    refine ⟨addUpTo repeats p.skips, ?_, ?_⟩
    · rw [Function.iterate_succ_apply', same]
      exact normal'.normalized_adding adds
    · have more : (0 : Int32).toInt < p.skips.toInt := Int32.lt_iff_toInt_lt.mp adds.2
      rw [Int32.toInt_zero] at more
      rw [toInt_addUpTo _ adds.2, sum, Int.natCast_succ, Int.add_mul, Int.one_mul]
      omega

/-- The runs to be skipped make no difference to the largest number only. -/
theorem normalized_eq_self_iff (normal : p.Normal) :
    p.normalized = p ↔ ¬ p.AddsSkips ∨ p.repeats = Int32.maxValue := by
  by_cases adds : p.AddsSkips
  case neg =>
    have same := normal.normalized_eq_self adds
    simp [adds, same]
  case pos =>
    have more : (0 : Int32).toInt < p.skips.toInt := Int32.lt_iff_toInt_lt.mp adds.2
    have sum := toInt_addUpTo p.repeats adds.2
    have unchanged : p.normalized = p ↔ addUpTo p.repeats p.skips = p.repeats := by
      rw [normal.normalized_adding adds]
      cases p
      simp
    rw [Int32.toInt_zero] at more
    rw [unchanged, ← Int32.toInt_inj, sum, ← Int32.toInt_inj, Int32.toInt_maxValue]
    have high := p.repeats.toInt_lt
    simp only [adds, not_true_eq_false, false_or]
    omega

end Normal

end

end Info

namespace PlanRequest

/-- A scheduler reads the record as it was sent. However often it is normalized from there on, a plan that
runs once or skips nothing stays as it is; to the repetitions of any other plan the runs to be skipped are
added each time, after the one time before it was sent, up to the largest number. So a plan is the same
after it was normalized again just if it adds nothing or has the largest number of repetitions. -/
theorem info_renormalized (r : PlanRequest) (config : Config) (fits : r.info.Packable) :
    ∃ decoded info, Wire.decodeRequest (r.message config) = .ok decoded ∧
      (decoded.get? .plan).map Info.unpack = some (.ok info) ∧ info = r.info ∧
      (info.normalized = r.info ↔
        ¬ (r.kind.isRepeating ∧ 0 < r.skips) ∨ info.repeats = Int32.maxValue) ∧
      (¬ (r.kind.isRepeating ∧ 0 < r.skips) → ∀ n, Info.normalized^[n] info = r.info) ∧
      (r.kind.isRepeating → 0 < r.skips → ∀ n, ∃ repeats : Int32,
        Info.normalized^[n] info = { r.info with repeats } ∧
          repeats.toInt = min (r.repeats.toInt + (n + 1) * r.skips.toInt) 0x7FFFFFFF) := by
  obtain ⟨decoded, read, announces⟩ := decodeRequest_message r config
  have normal : r.info.Normal := Info.normal_normalized _
  have adds : r.info.AddsSkips ↔ r.kind.isRepeating ∧ 0 < r.skips := Info.addsSkips_normalized
  refine ⟨decoded, r.info, read, announces.record fits, rfl, ?_, ?_, ?_⟩
  · rw [normal.normalized_eq_self_iff, adds]
  · intro single n
    exact Function.iterate_fixed (normal.normalized_eq_self (mt adds.mp single)) n
  · intro repeating skips n
    have adds : r.info.AddsSkips := adds.mpr ⟨repeating, skips⟩
    obtain ⟨repeats, same, sum⟩ := normal.iterate_adding adds n
    have once : r.info.repeats.toInt = min (r.repeats.toInt + r.skips.toInt) 0x7FFFFFFF := by
      rw [info, Info.repeats_normalized ⟨repeating, skips⟩]
      exact Info.toInt_addUpTo r.repeats skips
    have kept : r.info.skips = r.skips := Info.skips_normalized repeating
    have more : (0 : Int32).toInt < r.skips.toInt := Int32.lt_iff_toInt_lt.mp skips
    rw [Int32.toInt_zero] at more
    have gain : 0 ≤ n * r.skips.toInt := Int.mul_nonneg (Int.natCast_nonneg n) (Int.le_of_lt more)
    refine ⟨repeats, same, ?_⟩
    rw [sum, once, kept, Int.add_mul, Int.one_mul]
    omega

/-- Ten runs, of which two are to be skipped. -/
def skipping : PlanRequest where
  station := "orders"
  stationKind := .api
  command := "sync"
  kind := .minute
  value := 5
  repeats := 10
  skips := 2

theorem packable_skipping : skipping.info.Packable := by
  intro text given
  cases given

/-- The ten runs are twelve when the plan is sent, and fourteen when it was normalized again. -/
theorem info_renormalized_skipping :
    skipping.info.Packable ∧ skipping.info.repeats = 12 ∧ ∃ decoded info,
      Wire.decodeRequest (skipping.message {}) = .ok decoded ∧
      (decoded.get? .plan).map Info.unpack = some (.ok info) ∧ info.normalized.repeats.toInt = 14 := by
  obtain ⟨decoded, info, read, unpacked, -, -, -, adding⟩ :=
    info_renormalized skipping {} packable_skipping
  obtain ⟨repeats, again, sum⟩ := adding rfl (by decide) 1
  have again : info.normalized = { skipping.info with repeats } := again
  refine ⟨packable_skipping, by decide, decoded, info, read, unpacked, ?_⟩
  rw [again, sum]
  decide

/-- A plan that skips runs is not the same once it was normalized again. -/
theorem info_changes_again :
    ∃ decoded info, Wire.decodeRequest (skipping.message {}) = .ok decoded ∧
      (decoded.get? .plan).map Info.unpack = some (.ok info) ∧ info = skipping.info ∧
      info.normalized ≠ skipping.info := by
  obtain ⟨decoded, read, announces⟩ := decodeRequest_message skipping {}
  refine ⟨decoded, skipping.info, read, announces.record packable_skipping, rfl, ?_⟩
  decide

end PlanRequest

end Switchboard.Plan
