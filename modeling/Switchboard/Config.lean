import Switchboard.Duration
import Switchboard.Fault
import Switchboard.Json.Reader

/-!
# Configuration

A configuration is read as an overlay: what the text does not set keeps its default. A configuration
that would make every call fail is refused.
-/

namespace Switchboard

structure Config where
  /-- The name of this node. -/
  stationName : String := "stationwire"
  serviceKey : String := ""
  routeName : String := ""
  /-- How long connecting and each receive may take, in milliseconds. -/
  callTimeout : UInt64 := 30000
  /-- The most sockets of a station, leased and idle together. -/
  socketCap : UInt64 := 64
  frameLimit : UInt32 := 16777216
  deriving DecidableEq, Repr

namespace Config

/-- Set the timeout to a span's milliseconds, modulo 2^64. -/
def withCallTimeout (c : Config) (span : Duration) : Config :=
  { c with callTimeout := UInt64.ofNat span.milliseconds }

/-- The timeout as a span of time. -/
def timeout (c : Config) : Duration :=
  .ofMilliseconds c.callTimeout

def check (c : Config) : Except ConfigFlaw Unit :=
  if c.callTimeout = 0 then .error (.notPositive "call_timeout_ms")
  else if c.socketCap = 0 then .error (.notPositive "max_sockets_per_station")
  else if c.frameLimit = 0 then .error (.notPositive "max_frame_size")
  else .ok ()

def members (c : Config) : Json.Members :=
  [("station_name", .text c.stationName),
    ("service_key", .text c.serviceKey),
    ("route_name", .text c.routeName),
    ("call_timeout_ms", .integer c.callTimeout.toNat),
    ("max_sockets_per_station", .integer c.socketCap.toNat),
    ("max_frame_size", .integer c.frameLimit.toNat)]

def render (c : Config) : String :=
  (Json.Value.object c.members).render

/-- The settings that a text gives. -/
structure Overlay where
  stationName : Option String := none
  serviceKey : Option String := none
  routeName : Option String := none
  callTimeout : Option UInt64 := none
  socketCap : Option UInt64 := none
  frameLimit : Option UInt32 := none
  deriving DecidableEq, Repr

def Overlay.over (o : Overlay) (c : Config) : Config where
  stationName := o.stationName.getD c.stationName
  serviceKey := o.serviceKey.getD c.serviceKey
  routeName := o.routeName.getD c.routeName
  callTimeout := o.callTimeout.getD c.callTimeout
  socketCap := o.socketCap.getD c.socketCap
  frameLimit := o.frameLimit.getD c.frameLimit

open Shape in
def record {m : Type → Type} [Source m] : Record m Overlay Config where
  name := "ClientConfig"
  blank := {}
  fields :=
    [{ name := "station_name", mayLack := true, isGiven := (·.stationName.isSome)
       read := fun o => do pure { o with stationName := some (← Source.text) } },
     { name := "service_key", mayLack := true, isGiven := (·.serviceKey.isSome)
       read := fun o => do pure { o with serviceKey := some (← Source.text) } },
     { name := "route_name", mayLack := true, isGiven := (·.routeName.isSome)
       read := fun o => do pure { o with routeName := some (← Source.text) } },
     { name := "call_timeout_ms", mayLack := true, isGiven := (·.callTimeout.isSome)
       read := fun o => do
         let n ← Source.integer (.unsigned 64)
         pure { o with callTimeout := some (UInt64.ofNat n.toNat) } },
     { name := "max_sockets_per_station", mayLack := true, isGiven := (·.socketCap.isSome)
       read := fun o => do
         let n ← Source.integer .size
         pure { o with socketCap := some (UInt64.ofNat n.toNat) } },
     { name := "max_frame_size", mayLack := true, isGiven := (·.frameLimit.isSome)
       read := fun o => do
         let n ← Source.integer (.unsigned 32)
         pure { o with frameLimit := some (UInt32.ofNat n.toNat) } }]
  finish o := .ok (o.over {})

/-- Read a configuration and check it. -/
def parse (text : String) : Except Fault Config := do
  let c ← (Json.decode (Json.Reader.record record) text).mapError .json
  c.check.mapError .config
  pure c

/-- Read the configuration in a file, given the file's bytes if there is such a file. -/
def load (file : Option Bytes) : Except Fault Config :=
  match file with
  | none => .error (.io "No such file or directory (os error 2)")
  | some bytes =>
    match Utf8.decode bytes with
    | .ok text => parse text
    | .error _ => .error (.io "stream did not contain valid UTF-8")

end Config

end Switchboard
