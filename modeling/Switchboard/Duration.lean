/-!
# Spans of time

A span counts seconds, in 64 bits, and nanoseconds. An instant is a span after or before the start
of the calendar.
-/

namespace Switchboard

structure Duration where
  seconds : UInt64
  nanoseconds : UInt32
  deriving DecidableEq, Repr

/-- Whole milliseconds, rounded down. -/
def Duration.milliseconds (d : Duration) : Nat :=
  d.seconds.toNat * 1000 + d.nanoseconds.toNat / 1000000

/-- So many milliseconds. -/
def Duration.ofMilliseconds (ms : UInt64) : Duration where
  seconds := ms / 1000
  nanoseconds := (ms % 1000).toUInt32 * 1000000

inductive Instant where
  | after (span : Duration)
  | before (span : Duration)
  deriving DecidableEq, Repr

/-- The seconds since the start of the calendar; none for what lies before it. -/
def Instant.seconds : Instant → Int64
  | .after span => span.seconds.toInt64
  | .before _ => 0

end Switchboard
