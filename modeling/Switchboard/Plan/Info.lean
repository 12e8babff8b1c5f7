import Switchboard.Duration
import Switchboard.Fault
import Switchboard.Json.Reader
import Switchboard.MsgPack.Reader
import Switchboard.MsgPack.Writer

/-!
# Plan records

A plan says when a command is to run and how often. The record travels packed, as a map from field
names to values; people may write it as JSON. `Info.normalized` applies the scheduler's rules before
it is sent.
-/

namespace Switchboard.Plan

/-- What the time value of a plan means, from single runs to the longest period. -/
inductive Kind where
  | none | time | second | minute | hour | day | week | month
  deriving DecidableEq, Repr

namespace Kind

def all : List Kind := [.none, .time, .second, .minute, .hour, .day, .week, .month]

/-- The name in a record. -/
def key : Kind → String
  | .none => "none"
  | .time => "time"
  | .second => "second"
  | .minute => "minute"
  | .hour => "hour"
  | .day => "day"
  | .week => "week"
  | .month => "month"

def ofKey? (key : String) : Option Kind :=
  all.find? (·.key = key)

def isRepeating : Kind → Bool
  | .none | .time => false
  | _ => true

@[simp] theorem ofKey?_key (kind : Kind) : ofKey? kind.key = some kind := by
  cases kind <;> decide

end Kind

structure Info where
  kind : Kind
  value : Int32
  repeats : Int32
  description : Option String
  noSkip : Bool
  /-- Seconds since the start of the calendar; zero when no time is set. -/
  time : Int64
  skips : Int32
  deriving DecidableEq, Repr

namespace Info

/-- Addition that stops at the largest number. -/
def addUpTo (a b : Int32) : Int32 :=
  Int32.ofInt (min (a.toInt + b.toInt) 0x7FFFFFFF)

/-- The scheduler's rules: Sunday as seventh weekday is day zero, a single run has no repetitions and
skips nothing, and runs to be skipped are added to the repetitions. -/
def normalized (p : Info) : Info :=
  let value := if p.kind = .week && p.value = 7 then 0 else p.value
  if p.kind.isRepeating then
    { p with value, repeats := if 0 < p.skips then addUpTo p.repeats p.skips else p.repeats }
  else { p with value, repeats := 1, skips := 0 }

/-- The packed record. -/
def pack (p : Info) : Bytes :=
  MsgPack.packMap
    [("plan_type", MsgPack.packText p.kind.key),
      ("plan_value", MsgPack.packInt p.value.toInt),
      ("plan_repeat", MsgPack.packInt p.repeats.toInt),
      ("description", p.description.elim MsgPack.packNil MsgPack.packText),
      ("no_skip", MsgPack.packBool p.noSkip),
      ("plan_time", MsgPack.packInt p.time.toInt),
      ("skip_set", MsgPack.packInt p.skips.toInt)]

def members (p : Info) : Json.Members :=
  [("plan_type", .text p.kind.key),
    ("plan_value", .integer p.value.toInt),
    ("plan_repeat", .integer p.repeats.toInt),
    ("description", p.description.elim .null .text),
    ("no_skip", .bool p.noSkip),
    ("plan_time", .integer p.time.toInt),
    ("skip_set", .integer p.skips.toInt)]

def render (p : Info) : String :=
  (Json.Value.object p.members).render

/-- The fields read so far. -/
structure Draft where
  kind : Option Kind := none
  value : Option Int32 := none
  repeats : Option Int32 := none
  description : Option (Option String) := none
  noSkip : Option Bool := none
  time : Option Int64 := none
  skips : Option Int32 := none
  deriving DecidableEq, Repr

/-- Only the description may be missing. -/
def Draft.finish (d : Draft) : Except String Info := do
  let given {α : Type} (name : String) (field : Option α) : Except String α :=
    field.elim (.error name) .ok
  pure {
    kind := ← given "plan_type" d.kind
    value := ← given "plan_value" d.value
    repeats := ← given "plan_repeat" d.repeats
    description := d.description.getD none
    noSkip := ← given "no_skip" d.noSkip
    time := ← given "plan_time" d.time
    skips := ← given "skip_set" d.skips }

section

open Shape

variable {m : Type → Type} [Source m]

def readInt32 : m Int32 := do
  pure (Int32.ofInt (← Source.integer (.signed 32)))

def readInt64 : m Int64 := do
  pure (Int64.ofInt (← Source.integer (.signed 64)))

def record : Record m Draft Info where
  name := "PlanInfo"
  blank := {}
  fields :=
    [{ name := "plan_type", isGiven := (·.kind.isSome)
       read := fun d => do
         let key ← Source.choice "PlanType" (Kind.all.map Kind.key)
         pure { d with kind := Kind.ofKey? key } },
     { name := "plan_value", isGiven := (·.value.isSome)
       read := fun d => do pure { d with value := some (← readInt32) } },
     { name := "plan_repeat", isGiven := (·.repeats.isSome)
       read := fun d => do pure { d with repeats := some (← readInt32) } },
     { name := "description", isGiven := (·.description.isSome)
       read := fun d => do pure { d with description := some (← Source.optional Source.text) } },
     { name := "no_skip", isGiven := (·.noSkip.isSome)
       read := fun d => do pure { d with noSkip := some (← Source.bool) } },
     { name := "plan_time", isGiven := (·.time.isSome)
       read := fun d => do pure { d with time := some (← readInt64) } },
     { name := "skip_set", isGiven := (·.skips.isSome)
       read := fun d => do pure { d with skips := some (← readInt32) } }]
  finish := Draft.finish

end

def unpack (bytes : Bytes) : Except Fault Info :=
  (MsgPack.decode (MsgPack.Reader.record record) bytes).mapError .unpack

def parse (text : String) : Except Fault Info :=
  (Json.decode (Json.Reader.record record) text).mapError .json

end Info

end Switchboard.Plan
