import Switchboard.Proofs.MsgPack.Skipping
import Switchboard.Proofs.Plan.Record

/-!
# Plan records among other entries

A record is read by the names of its entries: their order does not matter, and between them there may be
entries that no field asks for, with any values. The reader passes over these, so that it matters only how
deep they are nested (`Info.unpack_entries`). The description may be left out, and nothing else.
-/

namespace Switchboard

namespace MsgPack.Reader

open Shape (Record Schema)

variable {α δ : Type}

section

variable {r : Record Reader δ α} {key : String}
  (unknown : r.field? key = none)
include unknown

theorem reads_fieldOf_unknown : (fieldOf r (.text (Utf8.encode key))).Reads [] none := by
  have none : r.fields.find? (Utf8.encode ·.name = Utf8.encode key) = none := by
    rw [← unknown, Record.field?]
    simp only [Utf8.encode_injective.eq_iff]
  rw [fieldOf, none]
  exact .pure _

variable (short : (Utf8.encode key).length < 0x100000000) (draft : δ) {value : Value}
  (whole : value.Fits)
include short whole

/-- A member that no field asks for leaves the draft as it was. -/
theorem reads_unknown_member (shallow : value.height ≤ maxDepth - 1) :
    (member r draft).Reads (packText key ++ value.pack) draft := by
  refine (item_reads_text short).bind ((reads_fieldOf_unknown unknown).nil_bind ?_)
  exact (whole.reads_skip shallow).bind_nil (.pure draft)

theorem unknown_member_fails (deep : maxDepth - 1 < value.height) :
    (member r draft).Fails (packText key ++ value.pack) .nestedTooDeep := by
  refine (item_reads_text short).bind_fails ?_
  exact (reads_fieldOf_unknown unknown).bind_fails ((whole.fails_skip deep).bind_nil _)

end

section

variable {r : Schema δ α} {entries : List (String × Bytes)} {draft : δ}

/-- The bytes of an entry of a map. -/
def spellEntry (entry : String × Bytes) : Bytes :=
  packText entry.1 ++ entry.2

/-- Nothing is read from a map with a bad member. -/
theorem record_fails_of_member {before after : List (String × Bytes)} {entry : String × Bytes}
    (few : (before ++ entry :: after).length < 0x100000000)
    (members : Rounds (member r) (r (m := Reader)).blank (before.map spellEntry) draft)
    {flaw : Flaw} (fails : (member r draft).Fails (spellEntry entry) flaw) :
    (record r).Fails (packMap (before ++ entry :: after)) flaw := by
  obtain ⟨m, heads⟩ := heads_mapHead few
  have failed := members.fails fails (after.map spellEntry)
  rw [← List.map_cons, ← List.map_append, List.length_map, ← List.flatMap_def,
    ← fieldMembers_eq] at failed
  exact heads.item.bind_fails (failed.bind_nil _)

/-- Nothing is read from a map with too few members. -/
theorem record_fails_of_missing (few : entries.length < 0x100000000)
    (members : Rounds (member r) (r (m := Reader)).blank (entries.map spellEntry) draft)
    {name : String} (missing : (r (m := Reader)).finish draft = .error name) :
    (record r).Fails (packMap entries) (.shape (.missingField name)) := by
  obtain ⟨m, heads⟩ := heads_mapHead few
  have filled := members.reads
  rw [List.length_map, ← List.flatMap_def, ← fieldMembers_eq] at filled
  refine heads.item.bind_fails (filled.bind_fails_nil ?_)
  rw [record.finish, missing]
  exact .fail _

end

end MsgPack.Reader

namespace Plan.Info

open MsgPack (packText packMap)
open MsgPack.Reader (Rounds Fails member)

namespace Part

theorem isIn_put_self (p : Info) (d : Draft) (part : Part) : part.isIn (part.put p d) = true := by
  cases part <;> rfl

theorem isIn_foldl_put (p : Info) (parts : List Part) (d : Draft) (part : Part) :
    part.isIn (parts.foldl (put p) d) = (decide (part ∈ parts) || part.isIn d) := by
  induction parts generalizing d with
  | nil => simp
  | cons other rest ih =>
    rw [List.foldl_cons, ih]
    by_cases same : part = other
    · simp [same, isIn_put_self]
    · simp [same, isIn_put_of_ne p d same]

/-- Each field of a draft is there if the part for it was put. -/
theorem foldl_put (p : Info) (parts : List Part) (d : Draft) :
    parts.foldl (put p) d =
      { kind := if .kind ∈ parts then some p.kind else d.kind
        value := if .value ∈ parts then some p.value else d.value
        repeats := if .repeats ∈ parts then some p.repeats else d.repeats
        description := if .description ∈ parts then some p.description else d.description
        noSkip := if .noSkip ∈ parts then some p.noSkip else d.noSkip
        time := if .time ∈ parts then some p.time else d.time
        skips := if .skips ∈ parts then some p.skips else d.skips } := by
  induction parts generalizing d with
  | nil => rfl
  | cons part rest ih =>
    rw [List.foldl_cons, ih]
    cases part <;> simp [put]

end Part

/-- A draft that lacks a part other than the description is not finished. -/
theorem finish_eq_error {d : Draft} {part : Part} (needed : part ≠ .description)
    (missing : part.isIn d = false) :
    ∃ first, first ≠ .description ∧ Part.isIn d first = false ∧ d.finish = .error first.name :=
  match d with
  | { kind := none, .. } => ⟨.kind, nofun, rfl, rfl⟩
  | { kind := some _, value := none, .. } => ⟨.value, nofun, rfl, rfl⟩
  | { kind := some _, value := some _, repeats := none, .. } => ⟨.repeats, nofun, rfl, rfl⟩
  | { kind := some _, value := some _, repeats := some _, noSkip := none, .. } =>
    ⟨.noSkip, nofun, rfl, rfl⟩
  | { kind := some _, value := some _, repeats := some _, noSkip := some _, time := none, .. } =>
    ⟨.time, nofun, rfl, rfl⟩
  | { kind := some _, value := some _, repeats := some _, noSkip := some _, time := some _,
      skips := none, .. } => ⟨.skips, nofun, rfl, rfl⟩
  | { kind := some _, value := some _, repeats := some _, noSkip := some _, time := some _,
      skips := some _, .. } => by
    cases part <;> first | exact absurd rfl needed | cases missing

/-- A draft that is made of all parts, but perhaps the description, is finished. -/
theorem finish_foldl_put (p : Info) {parts : List Part}
    (complete : ∀ part, part ≠ .description → part ∈ parts) :
    (parts.foldl (Part.put p) {}).finish =
      .ok { p with description := if .description ∈ parts then p.description else none } := by
  rw [Part.foldl_put]
  simp only [complete .kind nofun, complete .value nofun, complete .repeats nofun,
    complete .noSkip nofun, complete .time nofun, complete .skips nofun, if_true]
  split <;> rfl

theorem unpack_of_fails {packed : Bytes} {flaw : MsgPack.Flaw}
    (fails : Fails (MsgPack.Reader.record record) packed flaw) (tail : Bytes) :
    unpack (packed ++ tail) = .error (.unpack flaw) := by
  rw [unpack, fails.decode tail]
  rfl

/-- An entry of a packed map: a part of the record, or something else under another name. -/
inductive Entry where
  | field (part : Part)
  | other (key : String) (value : MsgPack.Value)

namespace Entry

def packed (p : Info) : Entry → String × Bytes
  | field part => (part.name, part.packed p)
  | other key value => (key, value.pack)

/-- How deep containers are nested in something else. -/
def height : Entry → Nat
  | field _ => 0
  | other _ value => value.height

/-- Something else has the name of no field, and is short enough to be packed. -/
def Fits : Entry → Prop
  | field _ => True
  | other key value =>
    (∀ part : Part, key ≠ part.name) ∧ (Utf8.encode key).length < 0x100000000 ∧ value.Fits

/-- The parts of the record that there are entries for. -/
def parts (entries : List Entry) : List Part :=
  entries.filterMap fun
    | field part => some part
    | other .. => none

@[simp] theorem parts_nil : parts [] = [] := rfl

@[simp] theorem parts_field (part : Part) (entries : List Entry) :
    parts (.field part :: entries) = part :: parts entries := rfl

@[simp] theorem parts_other (key : String) (value : MsgPack.Value) (entries : List Entry) :
    parts (.other key value :: entries) = parts entries := rfl

theorem parts_append (before after : List Entry) :
    parts (before ++ after) = parts before ++ parts after :=
  List.filterMap_append

end Entry

theorem field?_eq_none {key : String} (other : ∀ part : Part, key ≠ part.name) :
    (record (m := MsgPack.Reader)).field? key = none := by
  have unlike := fun part => (other part).symm
  simpa [Shape.Record.field?, record] using ⟨unlike .kind, unlike .value, unlike .repeats,
    unlike .description, unlike .noSkip, unlike .time, unlike .skips⟩

section

variable {p : Info} (fits : p.Packable) {entries : List Entry} (each : ∀ e ∈ entries, e.Fits)
  (once : (Entry.parts entries).Nodup)
include fits each once

/-- Entries are read one after another, in any order, and only the parts of the record count. -/
theorem rounds_entries (shallow : ∀ e ∈ entries, e.height ≤ 1022) {d : Draft}
    (new : ∀ part ∈ Entry.parts entries, part.isIn d = false) :
    Rounds (member record) d ((entries.map (Entry.packed p)).map MsgPack.Reader.spellEntry)
      ((Entry.parts entries).foldl (Part.put p) d) := by
  induction entries generalizing d with
  | nil => exact .nil d
  | cons e rest ih =>
    obtain ⟨fit, fitting⟩ := List.forall_mem_cons.mp each
    obtain ⟨low, lower⟩ := List.forall_mem_cons.mp shallow
    cases e with
    | field part =>
      rw [Entry.parts_field] at once new ⊢
      obtain ⟨first, others⟩ := List.nodup_cons.mp once
      exact .cons (reads_part fits (new part (List.mem_cons_self ..)))
        (ih fitting others lower (Part.isIn_put_of_notMem p first new))
    | other key value =>
      obtain ⟨foreign, short, whole⟩ := fit
      exact .cons (MsgPack.Reader.reads_unknown_member (field?_eq_none foreign) short d whole low)
        (ih fitting once lower new)

theorem rounds_all (shallow : ∀ e ∈ entries, e.height ≤ 1022) : Rounds (member record) {}
    ((entries.map (Entry.packed p)).map MsgPack.Reader.spellEntry)
    ((Entry.parts entries).foldl (Part.put p) {}) :=
  rounds_entries fits each once shallow fun part _ => by cases part <;> rfl

variable (few : entries.length < 0x100000000) (tail : Bytes)
include few

theorem unpack_complete (shallow : ∀ e ∈ entries, e.height ≤ 1022)
    (complete : ∀ part, part ≠ .description → part ∈ Entry.parts entries) :
    unpack (packMap (entries.map (Entry.packed p)) ++ tail) =
      .ok { p with description :=
        if .description ∈ Entry.parts entries then p.description else none } := by
  have rounds := rounds_all fits each once shallow
  have count : (entries.map (Entry.packed p)).length < 0x100000000 := by rwa [List.length_map]
  exact unpack_of_reads (MsgPack.Reader.reads_record count rounds (finish_foldl_put p complete)) tail

theorem unpack_missing (shallow : ∀ e ∈ entries, e.height ≤ 1022) {part : Part}
    (needed : part ≠ .description) (absent : part ∉ Entry.parts entries) :
    ∃ missing, missing ≠ .description ∧ missing ∉ Entry.parts entries ∧
      unpack (packMap (entries.map (Entry.packed p)) ++ tail) =
        .error (.unpack (.shape (.missingField missing.name))) := by
  have rounds := rounds_all fits each once shallow
  have count : (entries.map (Entry.packed p)).length < 0x100000000 := by rwa [List.length_map]
  have isIn (part : Part) : part.isIn ((Entry.parts entries).foldl (Part.put p) {}) =
      decide (part ∈ Entry.parts entries) := by
    rw [Part.isIn_foldl_put]
    cases part <;> exact Bool.or_false _
  obtain ⟨missing, needed, lacking, unfinished⟩ :=
    finish_eq_error needed ((isIn part).trans (decide_eq_false absent))
  refine ⟨missing, needed, of_decide_eq_false ((isIn missing).symm.trans lacking), ?_⟩
  exact unpack_of_fails (MsgPack.Reader.record_fails_of_missing count rounds unfinished) tail

theorem unpack_deep (deep : ∃ e ∈ entries, 1022 < e.height) :
    unpack (packMap (entries.map (Entry.packed p)) ++ tail) = .error (.unpack .nestedTooDeep) := by
  obtain ⟨before, e, after, rfl, deep, shallow⟩ := exists_first deep
  -- Up to the first value that is too deep all goes well.
  rw [Entry.parts_append, List.nodup_append] at once
  have rounds := rounds_all fits (fun e mem => each e (List.mem_append_left _ mem)) once.1
    fun e mem => Nat.not_lt.mp (shallow e mem)
  cases e with
  | field part => cases deep
  | other key value =>
    obtain ⟨foreign, short, whole⟩ := each (.other key value) (by simp)
    have fails := MsgPack.Reader.unknown_member_fails (field?_eq_none foreign) short
      ((Entry.parts before).foldl (Part.put p) {}) whole deep
    have count : ((before ++ .other key value :: after).map (Entry.packed p)).length < 0x100000000 := by
      rwa [List.length_map]
    rw [List.map_append, List.map_cons] at count ⊢
    exact unpack_of_fails (MsgPack.Reader.record_fails_of_member count rounds fails) tail

end

/-- A record is read from a map that has an entry for each of its parts, in any order and with anything
else between them; without an entry for the description it has none, and without one for another part it
is refused. But nothing is read from a map with a value that is nested too deep. -/
theorem unpack_entries {p : Info} (fits : p.Packable) {entries : List Entry}
    (few : entries.length < 0x100000000) (each : ∀ e ∈ entries, e.Fits)
    (once : (Entry.parts entries).Nodup) (tail : Bytes) :
    let parts := Entry.parts entries
    let packed := packMap (entries.map (Entry.packed p)) ++ tail
    ((∀ e ∈ entries, e.height ≤ 1022) →
      (parts.Perm Part.all → unpack packed = .ok p) ∧
      (parts.Perm (Part.all.erase .description) →
        unpack packed = .ok { p with description := none }) ∧
      ∀ part, part ≠ .description → part ∉ parts → ∃ missing, missing ≠ .description ∧
        missing ∉ parts ∧
        unpack packed = .error (.unpack (.shape (.missingField missing.name)))) ∧
    ((∃ e ∈ entries, 1022 < e.height) → unpack packed = .error (.unpack .nestedTooDeep)) := by
  intro parts packed
  refine ⟨fun shallow => ⟨fun all => ?_, fun most => ?_, fun part needed absent => ?_⟩, fun deep => ?_⟩
  · have here (part : Part) : part ∈ parts := all.mem_iff.mpr (by cases part <;> decide)
    have read := unpack_complete fits each once few tail shallow fun part _ => here part
    rwa [if_pos (here .description)] at read
  · have here (part : Part) : part ∈ parts ↔ part ≠ .description := by
      rw [most.mem_iff]
      cases part <;> decide
    have read := unpack_complete fits each once few tail shallow fun part => (here part).mpr
    rwa [if_neg fun given => (here .description).mp given rfl] at read
  · exact unpack_missing fits each once few tail shallow needed absent
  · exact unpack_deep fits each once few tail deep

/-- The parts of a record in another order, with a name twice among them that is no field's. One of its
values is a map with a list for a key and a wrapped value, the other is a byte that no value begins with. -/
theorem unpack_entries_shuffled :
    let p : Info := ⟨.week, -0x80000000, -33, some "é\x00", true, -0x8000000000000000, 0x80⟩
    let strange : MsgPack.Value :=
      .map [(.list [.nothing, .integer (-1)], .wrapped 5 [1, 2, 3])]
    let entries : List Entry := [.field .skips, .other "notes" strange, .field .time, .field .kind,
      .field .noSkip, .other "notes" (.bytes [0xC1]), .field .value, .field .description,
      .field .repeats]
    p.Packable ∧ entries.length < 0x100000000 ∧ (∀ e ∈ entries, e.Fits) ∧
      (Entry.parts entries).Nodup ∧ (∀ e ∈ entries, e.height ≤ 1022) ∧
      (Entry.parts entries).Perm Part.all ∧
      unpack (packMap (entries.map (Entry.packed p)) ++ [0xC1]) = .ok p := by
  intro p strange entries
  have fits : p.Packable := by
    intro text given
    obtain rfl := Option.some.inj given
    decide
  have few : entries.length < 0x100000000 := by decide
  have foreign (part : Part) : "notes" ≠ part.name := by cases part <;> decide
  have short : (Utf8.encode "notes").length < 0x100000000 := by decide
  have key : (MsgPack.Value.list [.nothing, .integer (-1)]).Fits := by
    refine .list (by decide) fun item mem => ?_
    simp only [List.mem_cons, List.not_mem_nil, or_false] at mem
    obtain rfl | rfl := mem
    · exact .nothing
    · exact .integer (by decide) (by decide)
  have whole : strange.Fits := by
    refine .map (by decide) (fun entry mem => ?_) fun entry mem => ?_
    · obtain rfl := List.mem_singleton.mp mem
      exact key
    · obtain rfl := List.mem_singleton.mp mem
      exact .wrapped (by decide)
  have each : ∀ e ∈ entries, e.Fits := by
    simp only [entries, List.forall_mem_cons]
    exact ⟨trivial, ⟨foreign, short, whole⟩, trivial, trivial, trivial,
      ⟨foreign, short, .bytes (by decide)⟩, trivial, trivial, trivial, nofun⟩
  have once : (Entry.parts entries).Nodup := by decide
  have shallow : ∀ e ∈ entries, e.height ≤ 1022 := by decide
  have all : (Entry.parts entries).Perm Part.all := by decide
  obtain ⟨read, -⟩ := unpack_entries fits few each once [0xC1]
  exact ⟨fits, few, each, once, shallow, all, (read shallow).1 all⟩

/-- As many lists in a list as given, one in the other. -/
def Entry.lists : Nat → MsgPack.Value
  | 0 => .list []
  | n + 1 => .list [lists n]

theorem Entry.height_lists (n : Nat) : (lists n).height = n + 1 := by
  induction n with
  | zero => rfl
  | succ n ih => simp [lists, MsgPack.Value.height, MsgPack.Value.heightOfItems, ih]

theorem Entry.fits_lists (n : Nat) : (lists n).Fits := by
  induction n with
  | zero => exact .list (by decide) nofun
  | succ n ih =>
    refine .list (show 1 < 0x100000000 by decide) fun item mem => ?_
    obtain rfl := List.mem_singleton.mp mem
    exact ih

/-- The parts of a record in their usual order, and then a value of lists only, 1023 of them. -/
theorem deep_entry_refused :
    let p : Info := ⟨.day, 1, 7, some "nightly", false, 0, 0⟩
    let entries := Part.all.map Entry.field ++ [.other "notes" (Entry.lists 1022)]
    p.Packable ∧ entries.length < 0x100000000 ∧ (∀ e ∈ entries, e.Fits) ∧
      Entry.parts entries = Part.all ∧
      unpack (packMap (entries.map (Entry.packed p))) = .error (.unpack .nestedTooDeep) ∧
      unpack (packMap (entries.map (Entry.packed p))) ≠ .ok p := by
  intro p entries
  have fits : p.Packable := by
    intro text given
    obtain rfl := Option.some.inj given
    decide
  have few : entries.length < 0x100000000 := by decide
  have foreign (part : Part) : "notes" ≠ part.name := by cases part <;> decide
  have each : ∀ e ∈ entries, e.Fits := by
    intro e mem
    obtain known | new := List.mem_append.mp mem
    · obtain ⟨part, -, rfl⟩ := List.mem_map.mp known
      trivial
    · obtain rfl := List.mem_singleton.mp new
      exact ⟨foreign, by decide, Entry.fits_lists 1022⟩
  have all : Entry.parts entries = Part.all := rfl
  have deep : ∃ e ∈ entries, 1022 < e.height :=
    ⟨_, List.mem_append_right _ (.head _), by
      rw [Entry.height, Entry.height_lists]
      decide⟩
  have refused := unpack_deep fits each (all ▸ by decide) few [] deep
  rw [List.append_nil] at refused
  refine ⟨fits, few, each, all, refused, ?_⟩
  rw [refused]
  nofun

end Plan.Info

end Switchboard
