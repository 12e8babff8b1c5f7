/-!
# Tags and groups

A message opens with a preamble that names its group and lists one tag for each value frame. Both
are single bytes; `ofByte?` inverts `byte`.
-/

namespace Switchboard.Wire

/-- What a value frame holds. -/
inductive Tag where
  | end | globalId | callId | station | plan | argument | textContent | context | command
  | requestId | pubTitle | requester | responser | serviceKey | jsonValue | status | binaryValue
  deriving DecidableEq, Repr

namespace Tag

def all : List Tag :=
  [.end, .globalId, .callId, .station, .plan, .argument, .textContent, .context, .command,
    .requestId, .pubTitle, .requester, .responser, .serviceKey, .jsonValue, .status, .binaryValue]

def symbol : Tag → Char
  | .end => 'E'
  | .globalId => 'G'
  | .callId => 'C'
  | .station => 'S'
  | .plan => 'P'
  | .argument => '%'
  | .textContent => 'T'
  | .context => '#'
  | .command => '$'
  | .requestId => 'R'
  | .pubTitle => '*'
  | .requester => '>'
  | .responser => '<'
  | .serviceKey => '&'
  | .jsonValue => 'J'
  | .status => '!'
  | .binaryValue => 'B'

def byte (tag : Tag) : UInt8 :=
  UInt8.ofNat tag.symbol.toNat

def ofByte? (b : UInt8) : Option Tag :=
  all.find? (·.byte = b)

def name : Tag → String
  | .end => "End"
  | .globalId => "GlobalId"
  | .callId => "CallId"
  | .station => "Station"
  | .plan => "Plan"
  | .argument => "Argument"
  | .textContent => "TextContent"
  | .context => "Context"
  | .command => "Command"
  | .requestId => "RequestId"
  | .pubTitle => "PubTitle"
  | .requester => "Requester"
  | .responser => "Responser"
  | .serviceKey => "ServiceKey"
  | .jsonValue => "JsonValue"
  | .status => "Status"
  | .binaryValue => "BinaryValue"

@[simp] theorem ofByte?_byte (tag : Tag) : ofByte? tag.byte = some tag := by
  cases tag <;> decide

theorem byte_injective {s t : Tag} (h : s.byte = t.byte) : s = t := by
  have := congrArg ofByte? h
  simpa using this

theorem byte_of_ofByte? {b : UInt8} {tag : Tag} (h : ofByte? b = some tag) : tag.byte = b := by
  simpa using List.find?_some h

end Tag

/-- The kind of a request, the second byte of its preamble. -/
inductive Group where
  | general | planCall | planPublish | planCommand
  deriving DecidableEq, Repr

namespace Group

def all : List Group := [.general, .planCall, .planPublish, .planCommand]

def byte : Group → UInt8
  | .general => 1
  | .planCall => 2
  | .planPublish => 3
  | .planCommand => 4

def ofByte? (b : UInt8) : Option Group :=
  all.find? (·.byte = b)

def name : Group → String
  | .general => "General"
  | .planCall => "PlanCall"
  | .planPublish => "PlanPublish"
  | .planCommand => "PlanCommand"

@[simp] theorem ofByte?_byte (group : Group) : ofByte? group.byte = some group := by
  cases group <;> decide

theorem byte_of_ofByte? {b : UInt8} {group : Group} (h : ofByte? b = some group) :
    group.byte = b := by
  simpa using List.find?_some h

end Group

/-- The byte that closes the list of tags in a preamble. -/
def endByte : UInt8 := Tag.end.byte

/-- The most value frames a message may carry. -/
def maxSlots : Nat := 250

end Switchboard.Wire
