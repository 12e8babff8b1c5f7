import Switchboard.Json.Datum
import Switchboard.Proofs.Json.Tokens

/-!
# Records are read from objects

A reader takes a text if it reads it behind white space and wherever no number could go on behind it
(`Reader.Takes`), as it is in an object, where white space, a comma or the closing bracket follows. A
record is read from an object by one round for each member, which reads the member into the draft or passes
over it (`Enters`); when the members lead to a draft of the record (`Fills`), the record is read however the
object is laid out (`Fills.takes`). One layout is that in which objects are written (`isObject_chars`).

Nothing stands in the way of writing a record (`encode_record`).
-/

namespace Switchboard.Json

open Shape (IntKind Record Wanted)

variable {α δ : Type}

theorem Datum.memberValues_record (members : Members) :
    memberValues (members.map fun (name, v) => (.value (.text name), .value v)) = .ok members := by
  induction members with
  | nil => rfl
  | cons member members ih =>
    rw [List.map_cons, memberValues, ih]
    rfl

/-- Nothing stands in the way of writing a record. -/
theorem encode_record (members : Members) :
    encode (.record members) = .ok (Value.object members).render := by
  rw [encode, Datum.record, Datum.toValue, Datum.memberValues_record]
  rfl

/-! ## Layouts of objects -/

/-- The members with the texts of their values. -/
def Members.written (members : Members) : List (String × List Char) :=
  members.map fun (key, v) => (key, v.chars)

/-- The members from one on, which is the first of all or not. -/
def joined (first : Bool) : Members → List Char
  | [] => []
  | (key, v) :: members => comma first ++ (quoteChars key ++ ':' :: v.chars) ++ joined false members

theorem memberChars_eq (members : Members) : Value.memberChars members = joined true members := by
  induction members with
  | nil => rfl
  | cons member members ih =>
    cases members with
    | nil => simp [Value.memberChars, joined, comma]
    | cons next members => simp [Value.memberChars, ih, joined, comma]

theorem inside_joined (first : Bool) (members : Members) :
    Inside first members.written (joined first members) := by
  induction members generalizing first with
  | nil => exact .done blank_nil
  | cons member members ih =>
    obtain ⟨key, v⟩ := member
    have separates : Separates first ([] ++ (comma first ++ [])) := .intro blank_nil blank_nil
    have labels := Labels.intro separates (quoted_quoteChars key) blank_nil
    have inside : Inside first (Members.written ((key, v) :: members)) _ :=
      .member labels blank_nil (ih false)
    simpa [joined] using inside

/-- Objects are written without white space. -/
theorem isObject_chars (members : Members) : IsObject members.written (Value.object members).chars := by
  rw [Value.chars, memberChars_eq]
  exact .intro (inside_joined true members)

/-- Where white space or a separator follows, a number is over. -/
theorem delimits_blank {space rest : List Char} (blank : Blank space) (delimited : Delimits rest) :
    Delimits (space ++ rest) := by
  cases space with
  | nil => exact delimited
  | cons c space =>
    have isSpace := blank c (.head _)
    simp only [Reader.isSpace, Bool.or_eq_true, decide_eq_true_eq] at isSpace
    rcases isSpace with ((rfl | rfl) | rfl) | rfl
    all_goals exact delimits_cons _ (by decide)

theorem Separates.delimits {lead : List Char} (separates : Separates false lead) (rest : List Char) :
    Delimits (lead ++ rest) := by
  obtain ⟨before, -⟩ := separates
  rw [List.append_assoc]
  exact delimits_blank before (delimits_cons _ (by decide))

theorem Labels.append_ne_nil {IsKey : List Char → Prop} {first : Bool} {lead : List Char}
    (labels : Labels IsKey first lead) (text : List Char) : lead ++ text ≠ [] := by
  obtain ⟨-, -, -⟩ := labels
  simp

theorem Labels.delimits {IsKey : List Char → Prop} {lead : List Char} (labels : Labels IsKey false lead)
    (rest : List Char) : Delimits (lead ++ rest) := by
  obtain ⟨separates, -, -⟩ := labels
  rw [List.append_assoc]
  exact separates.delimits _

theorem Inside.delimits {members : List (String × List Char)} {inner : List Char}
    (inside : Inside false members inner) (rest : List Char) :
    Delimits (inner ++ '\x7d' :: rest) := by
  cases inside with
  | done blank => exact delimits_blank blank (delimits_cons _ (by decide))
  | member labels blank others =>
    rw [List.append_assoc, List.append_assoc]
    exact labels.delimits _

namespace Reader

/-- The reader takes a text behind white space and wherever it is delimited. -/
def Takes (r : Reader α) (written : List Char) (a : α) : Prop :=
  ∀ ⦃space rest⦄, Blank space → Delimits rest → r.Reads (space ++ written) a rest

/-- A reader that passes over white space need only be seen to take a text at once. -/
theorem SkipsSpace.takes {r : Reader α} (skips : SkipsSpace r) {written : List Char} {a : α}
    (reads : ∀ ⦃rest⦄, Delimits rest → r.Reads written a rest) : r.Takes written a :=
  fun _ _ blank delimited => skips.reads blank (reads delimited)

theorem Takes.at_once {r : Reader α} {written : List Char} {a : α} (takes : r.Takes written a)
    {rest : List Char} (delimited : Delimits rest) : r.Reads written a rest :=
  takes blank_nil delimited

theorem Takes.map {r : Reader α} {written : List Char} {a : α} (takes : r.Takes written a)
    {β : Type} (f : α → β) : Takes (do pure (f (← r))) written (f a) :=
  fun _ _ blank delimited => (takes blank delimited).map f

theorem reads_finished {space : List Char} (blank : Blank space) : finished.Reads space () [] := by
  have ended : finished.Reads [] () [] := fun _ => rfl
  have skipped := SkipsSpace.reads (skipsSpace_nextPeek.bind _) blank ended
  rwa [List.append_nil] at skipped

/-- What is read up to white space is read from a whole text. -/
theorem decode_of_reads {r : Reader α} {written space : List Char} {a : α} {text : String}
    (reads : r.Reads written a space) (blank : Blank space) (whole : text.toList = written ++ space) :
    Json.decode r text = .ok a := by
  rw [← List.append_nil space] at reads
  have all : Reads (do let a ← r; finished; pure a) (written ++ space) a [] :=
    reads.bind ((reads_finished blank).bind_nil (.pure a))
  have read := all ⟨1, 0⟩
  rw [List.append_nil, ← whole] at read
  rw [Json.decode, Cursor.ofString]
  simp only [read]

/-- A value is read from a whole text, with white space around it. -/
theorem Takes.decode {r : Reader α} {written : List Char} {a : α} (takes : r.Takes written a)
    {text : String} (document : Document written text.toList) : Json.decode r text = .ok a := by
  generalize whole : text.toList = chars at document
  obtain @⟨before, after, space, more⟩ := document
  have delimited := delimits_blank more delimits_nil
  rw [List.append_nil] at delimited
  rw [← List.append_assoc] at whole
  exact decode_of_reads (takes space delimited) more whole

theorem Takes.decode_render {r : Reader α} {v : Value} {a : α} (takes : r.Takes v.chars a) :
    Json.decode r v.render = .ok a := by
  refine takes.decode ?_
  rw [Value.render, String.toList_ofList]
  exact document_self v.chars

theorem takes_text (wanted : Wanted) {s : String} {written : List Char} (isText : Quoted s written) :
    (text wanted).Takes written s := by
  refine (skipsSpace_valueAhead.bind _).takes fun rest _ => ?_
  have reads := isText.reads rest
  obtain ⟨-⟩ := isText
  refine (reads_valueAhead (c := '"') rfl (by decide)).nil_bind ?_
  rw [if_pos rfl]
  exact reads

theorem takes_integer {kind : IntKind} {n : Int} (contained : kind.contains n)
    (low : -0x8000000000000000 ≤ n) (high : n < 0x10000000000000000) :
    (integer kind).Takes (intChars n) n := by
  refine (skipsSpace_valueAhead.bind _).takes fun rest delimited => ?_
  obtain ⟨c, ahead, numeric⟩ := head_intChars n rest
  refine (reads_valueAhead ahead (visible_of_numeric numeric)).nil_bind ?_
  rw [if_pos numeric]
  refine (reads_number delimited low high).bind_nil ?_
  simp only [contained]
  exact .pure n

/-- What does not look like a missing value is read as it is. -/
theorem takes_optional {r : Reader α} {c : Char} {more : List Char} {a : α}
    (takes : r.Takes (c :: more) a) (visible : ¬ isSpace c) (given : c ≠ 'n') :
    (optional r).Takes (c :: more) (some a) := by
  refine (skipsSpace_nextPeek.bind _).takes fun rest delimited => ?_
  refine (reads_nextPeek (c := c) rfl visible).nil_bind ?_
  rw [if_neg (mt Option.some.inj given)]
  exact (takes.at_once delimited).map some

/-! ## Objects -/

theorem reads_nextMember {first : Bool} {lead : List Char} (separates : Separates first lead)
    (rest : List Char) : (nextMember first).Reads lead true ('"' :: rest) := by
  obtain @⟨before, after, space, more⟩ := separates
  refine SkipsSpace.reads (skipsSpace_nextPeek.bind _) space ?_
  cases first with
  | true =>
    have key : (nextMember true).Reads [] true ('"' :: rest) := fun _ => rfl
    have skipped := SkipsSpace.reads (skipsSpace_nextPeek.bind _) more key
    rwa [List.append_nil] at skipped
  | false =>
    have key : Reads (do
        let ahead ← nextPeek
        if ahead = some '\x7d' then failAhead .trailingComma
        nextMember.key ahead) [] true ('"' :: rest) := fun _ => rfl
    have skipped := SkipsSpace.reads (skipsSpace_nextPeek.bind _) more key
    rw [List.append_nil] at skipped
    refine (reads_nextPeek (c := ',') rfl (by decide)).nil_bind ?_
    exact (reads_skip ',' _).bind skipped

theorem reads_nextMember_end (first : Bool) {space : List Char} (blank : Blank space)
    (rest : List Char) : (nextMember first).Reads space false ('\x7d' :: rest) := by
  have ended : (nextMember first).Reads [] false ('\x7d' :: rest) := fun _ => rfl
  have skipped := SkipsSpace.reads (skipsSpace_nextPeek.bind _) blank ended
  rwa [List.append_nil] at skipped

theorem reads_colon {space : List Char} (blank : Blank space) (rest : List Char) :
    colon.Reads (space ++ [':']) () rest := by
  have ahead : colon.Reads [':'] () rest := fun _ => rfl
  exact SkipsSpace.reads (skipsSpace_nextPeek.bind _) blank ahead

theorem reads_objectOf {body : Reader α} {written rest : List Char} {a : α}
    (reads : body.Reads written a ('\x7d' :: rest)) :
    (objectOf body).Reads ('\x7b' :: (written ++ ['\x7d'])) a rest := by
  have enclosed : (enclosed body endObject).Reads (written ++ ['\x7d']) a rest := by
    intro place
    have inner := reads place
    rw [List.append_assoc, List.singleton_append, List.foldl_append, enclosed, inner]
    rfl
  exact (reads_skip '\x7b' _).bind enclosed

/-- The key of a member is read, and what follows it makes of the rest what it will. -/
theorem reads_member {β : Type} {key : String} {first : Bool} {lead text rest : List Char} {b : β}
    (labels : Labels (Quoted key) first lead) {f : String → Reader β} {ends : Reader β}
    (behind : ∀ ⦃gap⦄, Blank gap → (f key).Reads ((gap ++ [':']) ++ text) b rest) :
    Reads (do if ← nextMember first then f (← quoted) else ends) (lead ++ text) b rest := by
  obtain ⟨separates, isKey, gap⟩ := labels
  have reads := isKey.reads
  obtain ⟨-⟩ := isKey
  rw [List.append_assoc, List.append_assoc]
  refine (reads_nextMember separates _).bind ?_
  rw [if_pos rfl]
  exact (reads _).bind (behind gap)

section

variable {r : Record Reader δ α}

/-- A member of an object leads from a draft to another. -/
inductive Enters (r : Record Reader δ α) (draft : δ) (key : String) (written : List Char) : δ → Prop
  | field {field : Shape.Field Reader δ} {next : δ} (known : r.field? key = some field)
      (new : ¬ field.isGiven draft) (takes : (field.read draft).Takes written next) :
      Enters r draft key written next
  /-- A member that is no field is passed over. -/
  | foreign (unknown : r.field? key = none) (passed : skipValue.Takes written ()) :
      Enters r draft key written draft

theorem Enters.reads_round {draft next : δ} {key : String} {written : List Char}
    (enters : Enters r draft key written next) {first : Bool} {lead space rest : List Char}
    (labels : Labels (Quoted key) first lead) (blank : Blank space) (delimited : Delimits rest) :
    (fieldRound r (first, draft)).Reads (lead ++ (space ++ written)) (.again (false, next)) rest := by
  refine reads_member labels fun gap blankGap => ?_
  cases enters with
  | field known new takes =>
    simp only [known, new]
    exact (reads_colon blankGap _).bind ((takes blank delimited).bind_nil (.pure _))
  | foreign unknown passed =>
    simp only [unknown]
    exact (reads_colon blankGap _).bind ((passed blank delimited).bind_nil (.pure _))

/-- Members lead from a draft to another. -/
inductive Fills (r : Record Reader δ α) : δ → List (String × List Char) → δ → Prop
  | nil (draft : δ) : Fills r draft [] draft
  | cons {draft next last : δ} {key : String} {written : List Char}
      {members : List (String × List Char)} (first : Enters r draft key written next)
      (others : Fills r next members last) : Fills r draft ((key, written) :: members) last

theorem Fills.rounds {draft last : δ} {members : List (String × List Char)}
    (fills : Fills r draft members last) {first : Bool} {inner : List Char}
    (inside : Inside first members inner) (rest : List Char) :
    Rounds (fieldRound r) ('\x7d' :: rest) (first, draft) inner last := by
  induction fills generalizing first inner with
  | nil draft =>
    obtain ⟨blank⟩ := inside
    exact .done ((reads_nextMember_end first blank rest).bind_nil (.pure _))
  | cons enters _ ih =>
    obtain _ | ⟨labels, blank, others⟩ := inside
    have round := enters.reads_round labels blank (others.delimits rest)
    exact .again round (labels.append_ne_nil _) (ih others)

/-- A record is read from an object in any layout. -/
theorem Fills.takes {members : List (String × List Char)} {draft : δ}
    (fills : Fills r r.blank members draft) {a : α} (finished : r.finish draft = .ok a)
    {written : List Char} (isObject : IsObject members written) : (record r).Takes written a := by
  refine (skipsSpace_valueAhead.bind _).takes fun rest _ => ?_
  obtain ⟨inside⟩ := isObject
  refine (reads_valueAhead (c := '\x7b') rfl (by decide)).nil_bind ?_
  refine reads_objectOf ((fills.rounds inside rest).reads.bind_nil ?_)
  rw [record.finish, finished]
  exact .pure a

end

end Reader

end Switchboard.Json
