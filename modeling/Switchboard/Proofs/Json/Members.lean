import Switchboard.Proofs.Json.Record

/-!
# Members are read from objects

The members of an object are read one by one, in their order and with all their keys, as far as a reader
takes their values (`reads_members`); the value of the object holds them in the order of their keys
(`takes_object`).
-/

namespace Switchboard.Json.Reader

variable {α : Type}

/-- A round of reading the members of an object. -/
def memberRound (value : Reader α) (read : List (String × α)) :
    Reader (Round (List (String × α)) (List (String × α))) := do
  if ← nextMember read.isEmpty then
    let key ← quoted
    colon
    let a ← value
    pure (.again ((key, a) :: read))
  else pure (.done read.reverse)

theorem members_eq (value : Reader α) : members value = iterate (memberRound value) [] :=
  rfl

variable {r : Reader Value}

theorem reads_memberRound {v : Value} (takes : r.Takes v.chars v) (read : Members) {key : String}
    {lead space rest : List Char} (labels : Labels (Quoted key) read.isEmpty lead) (blank : Blank space)
    (delimited : Delimits rest) :
    (memberRound r read).Reads (lead ++ (space ++ v.chars)) (.again ((key, v) :: read)) rest := by
  refine reads_member labels fun gap blankGap => ?_
  exact (reads_colon blankGap _).bind ((takes blank delimited).bind_nil (.pure _))

theorem rounds_members {held : Members} (takes : ∀ member ∈ held, r.Takes member.2.chars member.2)
    (read : Members) {inner : List Char} (inside : Inside read.isEmpty held.written inner)
    (rest : List Char) :
    Rounds (memberRound r) ('\x7d' :: rest) read inner (read.reverse ++ held) := by
  induction held generalizing read inner with
  | nil =>
    obtain ⟨blank⟩ := inside
    rw [List.append_nil]
    exact .done ((reads_nextMember_end _ blank rest).bind_nil (.pure _))
  | cons member held ih =>
    obtain ⟨key, v⟩ := member
    obtain ⟨first, others⟩ := List.forall_mem_cons.mp takes
    obtain _ | ⟨labels, blank, inside⟩ := inside
    have round := reads_memberRound first read labels blank (inside.delimits rest)
    have rounds := ih others ((key, v) :: read) inside
    rw [List.reverse_cons, List.append_assoc, List.singleton_append] at rounds
    exact .again round (labels.append_ne_nil _) rounds

/-- The members of an object are read in their order, none of them left out. -/
theorem reads_members {held : Members} (takes : ∀ member ∈ held, r.Takes member.2.chars member.2)
    {object : List Char} (isObject : IsObject held.written object) (rest : List Char) :
    (objectOf (members r)).Reads object held rest := by
  obtain ⟨inside⟩ := isObject
  rw [members_eq]
  exact reads_objectOf (rounds_members takes [] inside rest).reads

/-! ## Values -/

theorem Reads.fmap {β : Type} {reader : Reader α} {written rest : List Char} {a : α}
    (reads : reader.Reads written a rest) (f : α → β) : (f <$> reader).Reads written (f a) rest := by
  intro place
  change EStateM.map f reader _ = _
  rw [EStateM.map, reads]

theorem takes_textValue {depth : Nat} {s : String} {written : List Char} (isText : Quoted s written) :
    (valueWithin depth).Takes written (.text s) := by
  unfold valueWithin
  refine (skipsSpace_valueAhead.bind _).takes fun rest _ => ?_
  have reads := isText.reads rest
  obtain ⟨-⟩ := isText
  refine (reads_valueAhead (c := '"') rfl (by decide)).nil_bind ?_
  exact reads.fmap Value.text

theorem takes_object {depth : Nat} {held : Members}
    (takes : ∀ member ∈ held, (valueWithin depth).Takes member.2.chars member.2) {object : List Char}
    (isObject : IsObject held.written object) :
    (valueWithin (depth + 1)).Takes object (.object (Members.ofList held)) := by
  unfold valueWithin
  refine (skipsSpace_valueAhead.bind _).takes fun rest _ => ?_
  have reads := reads_members takes isObject rest
  obtain ⟨-⟩ := isObject
  refine (reads_valueAhead (c := '\x7b') rfl (by decide)).nil_bind ?_
  exact reads.map fun all => Value.object (Members.ofList all)

/-- An object of texts is read as it was written, member by member and as a value. -/
theorem decode_texts {held : Members} (texts : ∀ member ∈ held, ∃ s, member.2 = .text s) :
    decode (objectOf (members value)) (Value.object held).render = .ok held ∧
      decode value (Value.object held).render = .ok (.object (Members.ofList held)) := by
  have takes (depth : Nat) : ∀ member ∈ held, (valueWithin depth).Takes member.2.chars member.2 := by
    intro member mem
    obtain ⟨s, same⟩ := texts member mem
    rw [same]
    exact takes_textValue (quoted_quoteChars s)
  constructor
  · have reads := reads_members (takes maxDepth) (isObject_chars held) []
    exact decode_of_reads reads blank_nil (by rw [Value.render, String.toList_ofList, List.append_nil])
  · exact (takes_object (takes 126) (isObject_chars held)).decode_render

end Switchboard.Json.Reader
