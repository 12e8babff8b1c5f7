import Switchboard.Config
import Switchboard.Proofs.Json.Passing

/-!
# A configuration is read as an overlay

An object sets parts of a configuration if each of its members is one of them, as it is written, or no part
of a configuration at all (`Config.Sets`). Member by member the draft grows by the part that the member sets
(`Sets.fills`), so that in the end the object has put just these parts over the default (`Sets.decode`).
What is read is checked as a whole, defaults included (`parse_overlay`).
-/

namespace Switchboard.Config

open Json (Valid IsObject Document blank_nil quoted_quoteChars isObject_chars document_self)
open Json.Reader (Enters Fills takes_text takes_integer takes_skipValue)
open Shape (IntKind)

variable {c : Config} {seen : List String} {members : List (String × List Char)}

/-- The names of the parts. -/
def names : List String :=
  (Config.members {}).map Prod.fst

/-- The parts of a configuration that have one of the given names. -/
def given (c : Config) (keys : List String) : Overlay where
  stationName := if "station_name" ∈ keys then some c.stationName else none
  serviceKey := if "service_key" ∈ keys then some c.serviceKey else none
  routeName := if "route_name" ∈ keys then some c.routeName else none
  callTimeout := if "call_timeout_ms" ∈ keys then some c.callTimeout else none
  socketCap := if "max_sockets_per_station" ∈ keys then some c.socketCap else none
  frameLimit := if "max_frame_size" ∈ keys then some c.frameLimit else none

/-- The default with the parts of a configuration that have one of the given names. -/
def overlaid (c : Config) (keys : List String) : Config :=
  (c.given keys).over {}

/-- Members that set parts of a configuration, each of them once, and others that are no parts. -/
structure Sets (c : Config) (members : List (String × List Char)) : Prop where
  each : ∀ key written, (key, written) ∈ members →
    (∃ v, (key, v) ∈ c.members ∧ written = v.chars) ∨ (key ∉ names ∧ Valid .value written)
  once : ((members.map Prod.fst).filter (· ∈ names)).Nodup

/-! ## Reading -/

/-- The record of a configuration, as it is read from JSON. -/
abbrev jsonRecord : Shape.Record Json.Reader Overlay Config :=
  record

theorem field?_eq_none {key : String} (foreign : key ∉ names) : jsonRecord.field? key = none := by
  have same : jsonRecord.fields.map (·.name) = names := rfl
  refine List.find?_eq_none.mpr fun field mem => ?_
  have known : field.name ∈ names := same ▸ List.mem_map_of_mem mem
  rw [decide_eq_true_eq]
  rintro rfl
  exact foreign known

theorem given_append_foreign {key : String} (foreign : key ∉ names) :
    c.given (seen ++ [key]) = c.given seen := by
  simp only [names, Config.members, List.map_cons, List.map_nil, List.mem_cons, List.not_mem_nil,
    or_false, not_or] at foreign
  obtain ⟨_, _, _, _, _, _⟩ := foreign
  simp [given, *, eq_comm]

theorem contains_unsigned {bits : Nat} (word : BitVec bits) :
    (IntKind.unsigned bits).contains word.toNat := by
  have fits := word.isLt
  simp only [IntKind.contains, IntKind.unsigned, Nat.one_shiftLeft, Bool.and_eq_true, decide_eq_true_eq]
  omega

theorem takes_natural {kind : IntKind} {n : Nat} (contained : kind.contains n)
    (fits : n < 0x10000000000000000) : (Json.Reader.integer kind).Takes (Json.intChars n) n :=
  takes_integer contained (by omega) (by omega)

theorem enters_of_takes {key : String} {written : List Char} {next : Overlay}
    {field : Shape.Field Json.Reader Overlay} (known : jsonRecord.field? key = some field)
    (new : ¬ field.isGiven (c.given seen)) (takes : (field.read (c.given seen)).Takes written next)
    (grown : next = c.given (seen ++ [key])) :
    Enters jsonRecord (c.given seen) key written (c.given (seen ++ [key])) :=
  grown ▸ .field known new takes

/-- A part is read into a draft that lacks it. -/
theorem enters_part {key : String} {v : Json.Value} (mem : (key, v) ∈ c.members) (new : key ∉ seen) :
    Enters jsonRecord (c.given seen) key v.chars (c.given (seen ++ [key])) := by
  have text (s : String) := takes_text .text (quoted_quoteChars s)
  have wide (n : UInt64) := takes_natural (contains_unsigned n.toBitVec) n.toNat_lt
  have size (n : UInt64) : IntKind.size.contains n.toNat := contains_unsigned n.toBitVec
  have narrow (n : UInt32) : n.toNat < 0x10000000000000000 := Nat.lt_trans n.toNat_lt (by decide)
  simp only [Config.members, List.mem_cons, List.not_mem_nil, or_false, Prod.mk.injEq] at mem
  rcases mem with ⟨rfl, rfl⟩ | ⟨rfl, rfl⟩ | ⟨rfl, rfl⟩ | ⟨rfl, rfl⟩ | ⟨rfl, rfl⟩ | ⟨rfl, rfl⟩
  · exact enters_of_takes rfl (by simp [given, new]) ((text _).map _) (by simp [given])
  · exact enters_of_takes rfl (by simp [given, new]) ((text _).map _) (by simp [given])
  · exact enters_of_takes rfl (by simp [given, new]) ((text _).map _) (by simp [given])
  · exact enters_of_takes rfl (by simp [given, new]) ((wide _).map _) (by simp [given])
  · have takes := takes_natural (size c.socketCap) c.socketCap.toNat_lt
    exact enters_of_takes rfl (by simp [given, new]) (takes.map _) (by simp [given])
  · have takes := takes_natural (contains_unsigned c.frameLimit.toBitVec) (narrow c.frameLimit)
    exact enters_of_takes rfl (by simp [given, new]) (takes.map _) (by simp [given])

/-- A member that is no part is passed over. -/
theorem enters_foreign {key : String} {written : List Char} (foreign : key ∉ names)
    (valid : Valid .value written) :
    Enters jsonRecord (c.given seen) key written (c.given (seen ++ [key])) := by
  rw [given_append_foreign foreign]
  exact .foreign (field?_eq_none foreign) (takes_skipValue valid)

theorem name_of_mem {key : String} {v : Json.Value} (mem : (key, v) ∈ c.members) : key ∈ names := by
  have same : c.members.map Prod.fst = names := rfl
  exact same ▸ List.mem_map_of_mem mem

theorem Sets.tail {key : String} {written : List Char} (sets : c.Sets ((key, written) :: members)) :
    c.Sets members where
  each other text mem := sets.each other text (.tail _ mem)
  once := by
    have once := sets.once
    rw [List.map_cons, List.filter_cons] at once
    split at once
    · exact once.of_cons
    · exact once

/-- A part that was set is not set again. -/
theorem Sets.not_again {key : String} {written : List Char}
    (sets : c.Sets ((key, written) :: members)) (known : key ∈ names) : key ∉ members.map Prod.fst := by
  have once := sets.once
  simp only [List.map_cons, List.filter_cons, known, decide_true, if_true, List.nodup_cons] at once
  intro again
  exact once.1 (List.mem_filter.mpr ⟨again, decide_eq_true known⟩)

/-- Each member adds the part that it sets, as long as no part was set before. -/
theorem Sets.fills (sets : c.Sets members)
    (fresh : ∀ key ∈ names, key ∈ seen → key ∉ members.map Prod.fst) :
    Fills jsonRecord (c.given seen) members (c.given (seen ++ members.map Prod.fst)) := by
  induction members generalizing seen with
  | nil =>
    rw [List.map_nil, List.append_nil]
    exact .nil _
  | cons member members ih =>
    obtain ⟨key, written⟩ := member
    have later : ∀ other ∈ names, other ∈ seen ++ [key] → other ∉ members.map Prod.fst := by
      intro other known old
      rcases List.mem_append.mp old with old | same
      · exact fun again => fresh other known old (.tail _ again)
      · obtain rfl := List.mem_singleton.mp same
        exact sets.not_again known
    have others := ih sets.tail later
    rw [List.append_assoc, List.singleton_append] at others
    refine .cons ?_ others
    rcases sets.each key written (.head _) with ⟨v, mem, rfl⟩ | ⟨foreign, valid⟩
    · refine enters_part mem fun old => ?_
      exact fresh key (name_of_mem mem) old (.head _)
    · exact enters_foreign foreign valid

/-- What is read is the default with the parts that the object sets put over it. -/
theorem Sets.decode (sets : c.Sets members) {object : List Char} (isObject : IsObject members object)
    {text : String} (document : Document object text.toList) :
    Json.decode (Json.Reader.record record) text = .ok (c.overlaid (members.map Prod.fst)) := by
  have fills : Fills jsonRecord (c.given []) members (c.given ([] ++ members.map Prod.fst)) :=
    sets.fills (by simp)
  exact (Fills.takes fills rfl isObject).decode document

theorem keys_written (c : Config) : c.members.written.map Prod.fst = names := by
  rfl

/-- A configuration that is written sets all of its parts. -/
theorem sets_members (c : Config) : c.Sets c.members.written where
  each key written mem := by
    obtain ⟨⟨name, v⟩, part, same⟩ := List.mem_map.mp mem
    obtain ⟨rfl, rfl⟩ := Prod.mk.inj same
    exact .inl ⟨v, part, rfl⟩
  once := by
    rw [keys_written]
    decide

theorem overlaid_names (c : Config) : c.overlaid names = c := by
  rfl

theorem decode_render (c : Config) : Json.decode (Json.Reader.record record) c.render = .ok c := by
  have document : Document (Json.Value.object c.members).chars c.render.toList := by
    rw [render, Json.Value.render, String.toList_ofList]
    exact document_self _
  have read := c.sets_members.decode (isObject_chars c.members) document
  rw [keys_written, overlaid_names] at read
  exact read

/-! ## Checking -/

theorem parse_eq {text : String} (read : Json.decode (Json.Reader.record record) text = .ok c) :
    parse text = (c.check.mapError Fault.config).map fun _ => c := by
  unfold parse
  rw [read]
  rfl

theorem check_of_parse {text : String} (parsed : parse text = .ok c) : c.check = .ok () := by
  cases read : Json.decode (Json.Reader.record record) text with
  | error flaw =>
    unfold parse at parsed
    rw [read] at parsed
    cases parsed
  | ok c' =>
    rw [parse_eq read] at parsed
    cases checked : c'.check with
    | error flaw =>
      rw [checked] at parsed
      cases parsed
    | ok done =>
      rw [checked] at parsed
      cases parsed
      exact checked

/-- A configuration is overlaid: an object that contains some parts of a configuration, as they are
written, each once at most and in any order, among members that are no parts and have any values, is read as
the default with just these parts put over it, if the timeout, the most sockets and the longest frame are
not zero then; otherwise the first of them that is zero is named. In particular a valid configuration is
read back from what is written of it, and whatever is read is valid. -/
theorem parse_overlay (sets : c.Sets members) {object : List Char} (isObject : IsObject members object)
    {text : String} (document : Document object text.toList) :
    let merged := c.overlaid (members.map Prod.fst)
    (merged.callTimeout ≠ 0 → merged.socketCap ≠ 0 → merged.frameLimit ≠ 0 → parse text = .ok merged) ∧
    (merged.callTimeout = 0 → parse text = .error (.config (.notPositive "call_timeout_ms"))) ∧
    (merged.callTimeout ≠ 0 → merged.socketCap = 0 →
      parse text = .error (.config (.notPositive "max_sockets_per_station"))) ∧
    (merged.callTimeout ≠ 0 → merged.socketCap ≠ 0 → merged.frameLimit = 0 →
      parse text = .error (.config (.notPositive "max_frame_size"))) ∧
    (∀ valid : Config, valid.check = .ok () → parse valid.render = .ok valid) ∧
    ∀ (text : String) (read : Config), parse text = .ok read → read.check = .ok () := by
  intro merged
  have parsed := parse_eq (sets.decode isObject document)
  refine ⟨?_, ?_, ?_, ?_, ?_, ?_⟩
  · intro timeout cap limit
    rw [parsed, check, if_neg timeout, if_neg cap, if_neg limit]
    rfl
  · intro timeout
    rw [parsed, check, if_pos timeout]
    rfl
  · intro timeout cap
    rw [parsed, check, if_neg timeout, if_pos cap]
    rfl
  · intro timeout cap limit
    rw [parsed, check, if_neg timeout, if_neg cap, if_pos limit]
    rfl
  · intro valid checked
    rw [parse_eq (decode_render valid), checked]
    rfl
  · exact fun text read => check_of_parse

/-- One part is set, by a key that is not spelled as usual, next to a list that is none. -/
theorem parse_overlay_key :
    let c : Config := { serviceKey := "k1", callTimeout := 0 }
    let members := [("x", ['[', ' ', '\x7b', '\x7d', ']']), ("service_key", Json.quoteChars "k1")]
    let text := "\x7b\"x\" :[ \x7b\x7d],\n\"\\u0073ervice_key\":\"k1\"\x7d "
    c.Sets members ∧ parse text = .ok { serviceKey := "k1" } := by
  intro c members text
  have space : Json.Blank [' '] := by decide
  have line : Json.Blank ['\n'] := by decide
  have braces : Valid .value ['\x7b', '\x7d'] := @Valid.container .object [] (.done blank_nil)
  have item : Valid (.inside .list true) [' ', '\x7b', '\x7d'] :=
    @Valid.item .list true [' '] [] _ [] (.intro space blank_nil) blank_nil braces (.done blank_nil)
  have list : Valid .value ['[', ' ', '\x7b', '\x7d', ']'] := @Valid.container .list _ item
  have sets : c.Sets members := by
    constructor
    · intro key written mem
      simp only [members, List.mem_cons, List.not_mem_nil, or_false, Prod.mk.injEq] at mem
      rcases mem with ⟨rfl, rfl⟩ | ⟨rfl, rfl⟩
      · exact .inr ⟨by decide, list⟩
      · exact .inl ⟨.text "k1", by simp [c, Config.members], rfl⟩
    · decide
  have spelling : Json.Spelling "service_key".toList _ :=
    .cons (.unit ⟨rfl, rfl⟩ : Json.Spelled 's' ['\\', 'u', '0', '0', '7', '3'])
      (Json.spelling_escape "ervice_key".toList)
  obtain ⟨object, isObject, same⟩ :
      ∃ object, IsObject members object ∧ text.toList = [] ++ (object ++ [' ']) := by
    have other : Json.Labels (Json.Quoted "x") true _ :=
      .intro (.intro blank_nil blank_nil) (quoted_quoteChars "x") space
    have part : Json.Labels (Json.Quoted "service_key") false _ :=
      .intro (.intro blank_nil line) (.intro spelling) blank_nil
    have inside : Json.Inside true members _ :=
      .member other blank_nil (.member part blank_nil (.done blank_nil))
    exact ⟨_, .intro inside, by decide⟩
  have document : Document object text.toList := same ▸ .intro blank_nil space
  obtain ⟨valid, -⟩ := parse_overlay sets isObject document
  exact ⟨sets, valid (by decide) (by decide) (by decide)⟩

end Switchboard.Config
