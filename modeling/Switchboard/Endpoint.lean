import Switchboard.Fault

/-!
# Endpoints

An endpoint is the address of a station: a host and a port, or a path or a name on this machine. What
can be seen to be wrong with an address is refused before anything is dialled.
-/

namespace Switchboard

inductive Endpoint where
  | tcp (host : String) (port : UInt16)
  | ipc (path : String)
  /-- A name on this machine that is no path. -/
  | abstractName (name : String)
  deriving DecidableEq, Repr

namespace Endpoint

/-- A port number: digits, after a plus sign if there is one. -/
def port? (text : List Char) : Option UInt16 :=
  let digits := if text.head? = some '+' then text.tail else text
  if digits.isEmpty || !digits.all Char.isDigit then none
  else
    let n := digits.foldl (fun n d => n * 10 + (d.toNat - 48)) 0
    if n < 0x10000 then some (UInt16.ofNat n) else none

/-- The host and the port of an address, which the last colon separates. -/
def ofTcp (address : List Char) : Except Fault Endpoint :=
  let port := (address.reverse.takeWhile (· ≠ ':')).reverse
  if port.length = address.length then .error (.io "invalid socket address")
  else
    match port? port with
    | none => .error (.io "invalid port value")
    | some n =>
      let host := address.take (address.length - port.length - 1)
      if host.contains '\x00' then .error (.io "file name contained an unexpected NUL byte")
      else .ok (.tcp (String.ofList host) n)

/-- The room for the bytes of a path and the zero after them. -/
def pathRoom : Nat := 108

/-- A path, or a name that a zero character marks as no path. -/
def ofIpc (path : List Char) : Except Fault Endpoint :=
  if path.head? = some '\x00' then
    if pathRoom < Utf8.length path then
      .error (.io "abstract socket name must be shorter than SUN_LEN")
    else .ok (.abstractName (String.ofList path.tail))
  else if path.contains '\x00' then .error (.io "paths must not contain interior null bytes")
  else if pathRoom ≤ Utf8.length path then
    .error (.io "path must be shorter than SUN_LEN")
  else .ok (.ipc (String.ofList path))

def parse (text : String) : Except Fault Endpoint :=
  let chars := text.toList
  if "tcp://".toList.isPrefixOf chars then ofTcp (chars.drop 6)
  else if "ipc://".toList.isPrefixOf chars then ofIpc (chars.drop 6)
  else .error (.endpoint text)

/-- Whether a host is written as an address or is this machine, so that no name has to be looked up. -/
def isAddress (host : List Char) : Bool :=
  host = "localhost".toList || isDotted host ||
    match host with
    | '[' :: rest => rest.getLast? = some ']' && isColoned rest.dropLast
    | _ => isColoned host
where
  isDotted (host : List Char) : Bool :=
    let parts := host.splitOn '.'
    parts.length = 4 && parts.all fun part =>
      part.length ≤ 3 && (port? part).any (· < 256) && part.all Char.isDigit
  isColoned (host : List Char) : Bool :=
    2 ≤ host.count ':' && host.all fun c => isHexDigit c || c = ':' || c = '.'
  isHexDigit (c : Char) : Bool :=
    c.isDigit || ('a' ≤ c.toLower && c.toLower ≤ 'f')

/-- Whether a path leads nowhere but to a directory that is always there: up, or where it starts. -/
def isDirectory (path : List Char) : Bool :=
  (path.splitOn '/').all fun part => part = [] || part = ['.'] || part = ['.', '.']

/-- What dialling says when nobody is there and no network either. -/
def absent : Endpoint → Fault
  | .tcp host _ =>
    if isAddress host.toList then .io "Network is unreachable (os error 101)"
    else .io "failed to lookup address information: Temporary failure in name resolution"
  | .abstractName _ => .io "Connection refused (os error 111)"
  | .ipc path =>
    if path = "" then .io "Invalid argument (os error 22)"
    else if isDirectory path.toList then .io "Connection refused (os error 111)"
    else .io "No such file or directory (os error 2)"

end Endpoint

end Switchboard
