import Switchboard.Hash.SipHash
import Switchboard.Text.Utf8

/-!
# Directory

Where stations are to be found. A station may be served at several endpoints; what a line is asked for
prefers one of them by its affinity, the same one as long as the directory does not change.
-/

namespace Switchboard.Pool

abbrev Directory := List (String × List String)

namespace Directory

/-- Name the endpoints of a station in place of those known before. -/
def insert (d : Directory) (station : String) (endpoints : List String) : Directory :=
  match d with
  | [] => [(station, endpoints)]
  | (s, es) :: rest =>
    if s = station then (station, endpoints) :: rest else (s, es) :: insert rest station endpoints

def erase (d : Directory) (station : String) : Directory :=
  d.filter (·.1 ≠ station)

def get? (d : Directory) (station : String) : Option (List String) :=
  d.lookup station

/-- The endpoints that serve a station, if there are any. -/
def resolve (d : Directory) (station : String) : Option (List String) :=
  (d.get? station).filter (!·.isEmpty)

end Directory

/-- The hash of an affinity: of its bytes and one more that ends them. -/
def affinityHash (affinity : String) : UInt64 :=
  SipHash.hash 0 0 (Utf8.encode affinity ++ [0xFF])

/-- Which of some endpoints an affinity prefers. -/
def affinityIndex (affinity : String) (count : Nat) : Nat :=
  if count ≤ 1 then 0 else (affinityHash affinity).toNat % count

end Switchboard.Pool
