import Switchboard.Config

/-!
# The timeout applied

A timeout is kept as milliseconds in 64 bits. A span that takes more than that is reduced modulo 2^64
(`span_withCallTimeout`), so it is applied as requested if it fits or happens to be reduced to the longest
timeout there is, and just then no shorter span gives a longer timeout (`timeout_withCallTimeout`).
-/

namespace Switchboard

namespace Duration

/-- The nanoseconds make up less than a second. -/
def Proper (d : Duration) : Prop :=
  d.nanoseconds.toNat < 1000000000

instance : DecidablePred Proper :=
  fun d => inferInstanceAs (Decidable (d.nanoseconds.toNat < 1000000000))

/-- The whole span in nanoseconds. -/
def span (d : Duration) : Nat :=
  d.seconds.toNat * 1000000000 + d.nanoseconds.toNat

/-- The longest span that a timeout can be. -/
def longest : Duration :=
  ofMilliseconds 18446744073709551615

/-- The span without the part of a millisecond that it ends with. -/
def floor (d : Duration) : Duration where
  seconds := d.seconds
  nanoseconds := d.nanoseconds / 1000000 * 1000000

/-- The timeout that a span asks for: its whole milliseconds, if they are not too many. -/
def asTimeout (d : Duration) : Duration :=
  if d.milliseconds < UInt64.size then d.floor else longest

theorem eq_of_span {d e : Duration} (hd : d.Proper) (he : e.Proper) (same : d.span = e.span) :
    d = e := by
  unfold Proper at hd he
  unfold span at same
  obtain ⟨ds, dn⟩ := d
  obtain ⟨es, en⟩ := e
  have seconds : ds.toNat = es.toNat := by dsimp only at *; omega
  have nanoseconds : dn.toNat = en.toNat := by dsimp only at *; omega
  rw [UInt64.toNat_inj.mp seconds, UInt32.toNat_inj.mp nanoseconds]

theorem milliseconds_eq (d : Duration) : d.milliseconds = d.span / 1000000 := by
  unfold milliseconds span
  omega

theorem nanoseconds_ofMilliseconds (ms : UInt64) :
    (ofMilliseconds ms).nanoseconds.toNat = ms.toNat % 1000 * 1000000 := by
  simp only [ofMilliseconds, UInt32.toNat_mul, UInt64.toNat_toUInt32, UInt64.toNat_mod,
    UInt64.reduceToNat, UInt32.reduceToNat]
  omega

theorem proper_ofMilliseconds (ms : UInt64) : (ofMilliseconds ms).Proper := by
  unfold Proper
  rw [nanoseconds_ofMilliseconds]
  omega

@[simp] theorem span_ofMilliseconds (ms : UInt64) :
    (ofMilliseconds ms).span = ms.toNat * 1000000 := by
  have seconds : (ofMilliseconds ms).seconds.toNat = ms.toNat / 1000 := by
    simp [ofMilliseconds]
  rw [span, nanoseconds_ofMilliseconds, seconds]
  omega

@[simp] theorem span_longest : longest.span = (UInt64.size - 1) * 1000000 :=
  span_ofMilliseconds _

theorem nanoseconds_floor (d : Duration) :
    d.floor.nanoseconds.toNat = d.nanoseconds.toNat / 1000000 * 1000000 := by
  have bound := d.nanoseconds.toNat_lt
  simp only [floor, UInt32.toNat_mul, UInt32.toNat_div, UInt32.reduceToNat]
  omega

theorem Proper.floor {d : Duration} (proper : d.Proper) : d.floor.Proper := by
  unfold Proper at *
  rw [nanoseconds_floor]
  omega

theorem seconds_floor (d : Duration) : d.floor.seconds = d.seconds := by
  rw [floor]

theorem span_floor (d : Duration) : d.floor.span = d.milliseconds * 1000000 := by
  rw [span, nanoseconds_floor, seconds_floor, milliseconds]
  omega

theorem Proper.asTimeout {d : Duration} (proper : d.Proper) : d.asTimeout.Proper := by
  unfold Duration.asTimeout
  split
  · exact proper.floor
  · exact proper_ofMilliseconds _

theorem span_asTimeout (d : Duration) :
    d.asTimeout.span = min d.milliseconds (UInt64.size - 1) * 1000000 := by
  unfold asTimeout
  split
  · rw [span_floor]
    omega
  · rw [span_longest]
    omega

end Duration

namespace Config

theorem span_withCallTimeout (c : Config) (d : Duration) :
    (c.withCallTimeout d).timeout.span = d.milliseconds % UInt64.size * 1000000 := by
  rw [timeout, Duration.span_ofMilliseconds, withCallTimeout, UInt64.toNat_ofNat']

/-- A timeout that is set is applied with its milliseconds modulo 2^64. So it is the one that was asked
for, rounded down to whole milliseconds and the longest one at most, just if the span asked for has fewer
than 2^64 milliseconds or so many that they are reduced to the longest timeout; and in just the same cases
no shorter span is applied as a longer timeout. -/
theorem timeout_withCallTimeout {d : Duration} (proper : d.Proper) (c : Config) :
    let exact := d.milliseconds < UInt64.size ∨ d.milliseconds % UInt64.size = UInt64.size - 1
    (c.withCallTimeout d).timeout.Proper ∧
      (c.withCallTimeout d).timeout.span = d.milliseconds % UInt64.size * 1000000 ∧
      ((c.withCallTimeout d).timeout = d.asTimeout ↔ exact) ∧
      ((∀ e : Duration, e.Proper → e.span ≤ d.span →
        (c.withCallTimeout e).timeout.span ≤ (c.withCallTimeout d).timeout.span) ↔ exact) := by
  intro exact
  have applied := c.span_withCallTimeout d
  refine ⟨Duration.proper_ofMilliseconds _, applied, ?_, ?_⟩
  · have spans : (c.withCallTimeout d).timeout = d.asTimeout ↔
        (c.withCallTimeout d).timeout.span = d.asTimeout.span :=
      ⟨congrArg _, Duration.eq_of_span (Duration.proper_ofMilliseconds _) proper.asTimeout⟩
    rw [spans, applied, d.span_asTimeout]
    unfold exact UInt64.size
    omega
  · constructor
    · intro monotone
      by_cases fits : d.milliseconds < UInt64.size
      · exact .inl fits
      · -- The longest timeout is a shorter span than this one, and is applied as it is.
        have shorter : Duration.longest.span ≤ d.span := by
          have count := d.milliseconds_eq
          rw [Duration.span_longest]
          omega
        have above := monotone .longest (Duration.proper_ofMilliseconds _) shorter
        rw [applied, span_withCallTimeout, Duration.milliseconds_eq .longest,
          Duration.span_longest] at above
        unfold UInt64.size at above fits
        exact .inr (by unfold UInt64.size; omega)
    · intro fits e _ shorter
      have fewer : e.milliseconds ≤ d.milliseconds := by
        rw [e.milliseconds_eq, d.milliseconds_eq]
        exact Nat.div_le_div_right shorter
      rw [applied, span_withCallTimeout]
      unfold exact UInt64.size at fits
      unfold UInt64.size
      omega

/-- The last nanosecond before 2^64 milliseconds is cut off to the longest timeout. -/
theorem timeout_withCallTimeout_longest :
    let d : Duration := ⟨18446744073709551, 615999999⟩
    d.Proper ∧ d.milliseconds = UInt64.size - 1 ∧ (withCallTimeout {} d).timeout = .longest ∧
      ∀ e : Duration, e.Proper → e.span ≤ d.span →
        (withCallTimeout {} e).timeout.span ≤ (withCallTimeout {} d).timeout.span := by
  intro d
  have proper : d.Proper := by decide
  have count : d.milliseconds = UInt64.size - 1 := by decide
  have applied : (withCallTimeout {} d).timeout = .longest := by decide
  obtain ⟨-, -, -, monotone⟩ := timeout_withCallTimeout proper {}
  have fits : d.milliseconds < UInt64.size := by decide
  exact ⟨proper, count, applied, monotone.mpr (.inl fits)⟩

/-- A span of 2^64 milliseconds, which is more than the longest timeout, is applied as no time at all, and
the configuration is refused then. The span shorter by a millisecond is applied as the longest timeout. -/
theorem timeout_withCallTimeout_wrapped :
    let d : Duration := ⟨18446744073709551, 616000000⟩
    let e : Duration := ⟨18446744073709551, 615000000⟩
    d.Proper ∧ (withCallTimeout {} d).timeout = ⟨0, 0⟩ ∧ d.asTimeout = .longest ∧
      (withCallTimeout {} d).check = .error (.notPositive "call_timeout_ms") ∧
      e.Proper ∧ e.span < d.span ∧ (withCallTimeout {} e).timeout = .longest :=
  ⟨by decide, by decide, by decide, rfl, by decide, by decide, by decide⟩

end Config

end Switchboard
