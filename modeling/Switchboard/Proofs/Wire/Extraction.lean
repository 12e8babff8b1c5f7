import Mathlib.Data.List.Chain
import Switchboard.Proofs.Wire.Conservation

/-!
# Extraction ends

A push is a loop of extractions, and an extraction is a loop of steps. Here both are written with a bound
on their rounds, and none is the result if the bound is reached. It is not if it is high enough
(`extract_ends`, `extractAll_ends`), and then a push does what the loops do (`push_ends`).

A step need not take any bytes: the body of an empty frame has none. But two steps in a row take a header,
since a body is followed by a header. `rank` counts the headers that there is room for, twice, and the body
that is awaited.
-/

namespace Switchboard.Wire

theorem Backlog.size_eq_of_append {b rest : Backlog} {front : Bytes}
    (bytes : b.toBytes = front ++ rest.toBytes) : b.size = front.length + rest.size := by
  rw [← length_toBytes, bytes, List.length_append, length_toBytes]

namespace Buffer

/-- Extract one message in at most so many rounds: the message, or none if there are not bytes enough,
or the flaw of a header; and the buffer that is left. -/
def extract : Nat → Buffer → Option (Except Flaw (Option Message) × Buffer)
  | 0, _ => none
  | rounds + 1, b =>
    match b.step with
    | .wait => some (.ok none, b)
    | .refuse flaw => some (.error flaw, b)
    | .take next none => extract rounds next
    | .take next (some message) => some (.ok (some message), next)

/-- What is extracted until an extraction gives no message. -/
structure Extracted where
  /-- The messages, each with the buffer that its extraction has left. -/
  messages : List (Message × Buffer)
  flaw : Option Flaw
  rest : Buffer

/-- Extract messages by at most so many calls, of at most so many rounds each. -/
def extractAll (rounds : Nat) : Nat → Buffer → Option Extracted
  | 0, _ => none
  | calls + 1, b =>
    match extract rounds b with
    | none => none
    | some (.ok none, rest) => some ⟨[], none, rest⟩
    | some (.error flaw, rest) => some ⟨[], some flaw, rest⟩
    | some (.ok (some message), next) =>
      (extractAll rounds calls next).map fun later =>
        { later with messages := (message, next) :: later.messages }

/-- A bound on the steps that a buffer can take. -/
def rank (b : Buffer) : Nat :=
  2 * (b.pending.size / headerSize) + if b.opened.isSome then 1 else 0

variable {b next : Buffer}

theorem rank_le (b : Buffer) : b.rank ≤ 2 * (b.pending.size / headerSize) + 1 := by
  unfold rank
  split <;> omega

namespace Taken

variable {message : Option Message}

theorem size_le (taken : Taken b next message) : next.pending.size ≤ b.pending.size := by
  have shorter {front : Bytes} {pending : Backlog}
      (bytes : b.pending.toBytes = front ++ pending.toBytes) : pending.size ≤ b.pending.size := by
    rw [Backlog.size_eq_of_append bytes]
    exact Nat.le_add_left ..
  cases taken with
  | header more size pending closed bytes fits => exact shorter bytes
  | frame frame pending opened bytes => exact shorter bytes
  | message last pending opened bytes => exact shorter bytes

theorem rank_lt (taken : Taken b next message) : next.rank < b.rank := by
  have fewer : next.pending.size / headerSize ≤ b.pending.size / headerSize :=
    Nat.div_le_div_right taken.size_le
  cases taken with
  | header more size pending closed bytes fits =>
    have size := Backlog.size_eq_of_append bytes
    rw [length_frameHeader] at size
    simp only [rank, closed, size, headerSize, Option.isSome, if_true, Bool.false_eq_true, if_false]
    omega
  | frame frame pending opened bytes =>
    simp only [rank, opened, Option.isSome, if_true, Bool.false_eq_true, if_false] at fewer ⊢
    omega
  | message last pending opened bytes =>
    simp only [rank, opened, Option.isSome, if_true, Bool.false_eq_true, if_false] at fewer ⊢
    omega

end Taken

/-- An extraction ends within one round more than the buffer can take steps. -/
theorem extract_ends {rounds : Nat} (enough : b.rank < rounds) :
    ∃ ending left, extract rounds b = some (ending, left) := by
  induction rounds generalizing b with
  | zero => exact absurd enough (Nat.not_lt_zero _)
  | succ rounds ih =>
    unfold extract
    split
    · exact ⟨_, _, rfl⟩
    · exact ⟨_, _, rfl⟩
    · next step => exact ih (Nat.lt_of_lt_of_le (taken_of_step step).rank_lt (Nat.le_of_lt_succ enough))
    · exact ⟨_, _, rfl⟩

/-- The buffer has no part of a message but the bytes that it has not looked at. -/
structure Between (b : Buffer) : Prop where
  closed : b.opened = none
  empty : b.held = []

theorem Between.unfinished_eq (between : b.Between) : b.unfinished = b.pending.toBytes := by
  simp [unfinished, between.closed, between.empty, layoutOpen]

/-- What a step takes for a message. -/
theorem Taken.message_between {m : Message} (taken : Taken b next (some m)) : m ≠ [] ∧ next.Between := by
  cases taken with
  | message last pending opened bytes => exact ⟨List.concat_ne_nil _ _, rfl, rfl⟩

/-- An extraction takes a message off what is unfinished, and leaves the buffer between two messages. -/
theorem extract_message {rounds : Nat} {m : Message}
    (extracted : extract rounds b = some (.ok (some m), next)) :
    m ≠ [] ∧ next.Between ∧ b.unfinished = m.layout ++ next.unfinished ∧
      next.pending.size ≤ b.pending.size := by
  induction rounds generalizing b with
  | zero => cases extracted
  | succ rounds ih =>
    unfold extract at extracted
    split at extracted
    · cases extracted
    · cases extracted
    · next step =>
      have taken := taken_of_step step
      obtain ⟨some, between, bytes, fewer⟩ := ih extracted
      refine ⟨some, between, ?_, Nat.le_trans fewer taken.size_le⟩
      rw [taken.unfinished_eq, bytes]
      rfl
    · next step =>
      cases extracted
      have taken := taken_of_step step
      obtain ⟨some, between⟩ := taken.message_between
      exact ⟨some, between, by simpa using taken.unfinished_eq, taken.size_le⟩

/-- From one message to the next a header is taken at least. -/
theorem Between.extract_message {rounds : Nat} {m : Message} (between : b.Between)
    (extracted : extract rounds b = some (.ok (some m), next)) :
    b.pending.toBytes = m.layout ++ next.pending.toBytes ∧
      next.pending.size + headerSize ≤ b.pending.size := by
  obtain ⟨some, left, bytes, -⟩ := Buffer.extract_message extracted
  rw [between.unfinished_eq, left.unfinished_eq] at bytes
  refine ⟨bytes, ?_⟩
  obtain ⟨frame, frames, rfl⟩ := List.exists_cons_of_ne_nil some
  have size := Backlog.size_eq_of_append bytes
  simp only [layout_cons, List.length_append, length_frameHeader] at size
  omega

/-- How draining goes on from the end of an extraction. -/
def conclude : Except Flaw (Option Message) → Buffer → Drained
  | .ok none, left => ⟨[], none, left⟩
  | .error flaw, left => ⟨[], some flaw, left⟩
  | .ok (some message), left =>
    let d := drain left
    { d with messages := message :: d.messages }

/-- Draining begins with an extraction. -/
theorem extract_drain {rounds : Nat} {ending : Except Flaw (Option Message)}
    (extracted : extract rounds b = some (ending, next)) : drain b = conclude ending next := by
  induction rounds generalizing b with
  | zero => cases extracted
  | succ rounds ih =>
    unfold extract at extracted
    split at extracted
    · next step =>
      cases extracted
      exact drain_of_wait step
    · next step =>
      cases extracted
      exact drain_of_refuse step
    · next step =>
      rw [drain_of_take step, ← ih extracted]
      rfl
    · next step =>
      cases extracted
      exact drain_of_take step

section Loop

variable {rounds calls : Nat}

/-- One extraction, and those after it if it gives a message. -/
theorem extractAll_ends_of_later (room : b.rank < rounds)
    (later : ∀ m left, extract rounds b = some (.ok (some m), left) →
      ∃ all, extractAll rounds calls left = some all) :
    ∃ all, extractAll rounds (calls + 1) b = some all := by
  obtain ⟨ending, left, extracted⟩ := extract_ends room
  match ending with
  | .ok none => exact ⟨_, by rw [extractAll, extracted]⟩
  | .error flaw => exact ⟨_, by rw [extractAll, extracted]⟩
  | .ok (some m) =>
    obtain ⟨all, ended⟩ := later m left extracted
    exact ⟨_, by rw [extractAll, extracted]; exact congrArg (Option.map _) ended⟩

/-- From between two messages on there are no more messages than there is room for headers. -/
theorem Between.extractAll_ends (between : b.Between)
    (room : 2 * (b.pending.size / headerSize) + 1 < rounds)
    (enough : b.pending.size / headerSize < calls) : ∃ all, extractAll rounds calls b = some all := by
  induction calls generalizing b with
  | zero => exact absurd enough (Nat.not_lt_zero _)
  | succ calls ih =>
    refine extractAll_ends_of_later (Nat.lt_of_le_of_lt b.rank_le room) fun m left extracted => ?_
    obtain ⟨-, left_between, -, -⟩ := Buffer.extract_message extracted
    obtain ⟨-, header⟩ := between.extract_message extracted
    have fewer : left.pending.size / headerSize + 1 ≤ b.pending.size / headerSize := by
      simp only [headerSize] at header ⊢
      omega
    exact ih left_between (by omega) (by omega)

/-- The first message may have been begun, and then its extraction need not take any bytes. -/
theorem extractAll_ends (b : Buffer) :
    let headers := b.pending.size / headerSize
    ∃ all, extractAll (2 * headers + 2) (headers + 2) b = some all := by
  intro headers
  refine extractAll_ends_of_later (Nat.lt_succ_of_le b.rank_le) fun m left extracted => ?_
  obtain ⟨-, between, -, size⟩ := Buffer.extract_message extracted
  have fewer : left.pending.size / headerSize ≤ headers := Nat.div_le_div_right size
  exact between.extractAll_ends (by omega) (by omega)

/-- The loops give what draining gives. -/
theorem extractAll_drain {all : Extracted} (ended : extractAll rounds calls b = some all) :
    drain b = ⟨all.messages.map Prod.fst, all.flaw, all.rest⟩ := by
  induction calls generalizing b all with
  | zero => cases ended
  | succ calls ih =>
    unfold extractAll at ended
    split at ended
    · cases ended
    · next extracted =>
      cases ended
      exact extract_drain extracted
    · next extracted =>
      cases ended
      exact extract_drain extracted
    · next extracted =>
      obtain ⟨rest, later, rfl⟩ := Option.map_eq_some_iff.mp ended
      rw [extract_drain extracted, conclude, ih later]
      rfl

/-- The later of two extractions takes the bytes of its message, which are a header at least. -/
def Follows (earlier later : Message × Buffer) : Prop :=
  earlier.2.pending.toBytes = later.1.layout ++ later.2.pending.toBytes ∧
    later.2.length + headerSize ≤ earlier.2.length

/-- So does the first, from between two messages. -/
theorem extractAll_follows {all : Extracted} (ended : extractAll rounds calls b = some all) :
    all.messages.IsChain Follows ∧
      (b.Between → ∀ first ∈ all.messages.head?, Follows ([], b) first) := by
  induction calls generalizing b all with
  | zero => cases ended
  | succ calls ih =>
    unfold extractAll at ended
    split at ended
    · cases ended
    · cases ended
      exact ⟨.nil, nofun⟩
    · cases ended
      exact ⟨.nil, nofun⟩
    · next extracted =>
      obtain ⟨rest, later, rfl⟩ := Option.map_eq_some_iff.mp ended
      obtain ⟨chain, head⟩ := ih later
      obtain ⟨-, between, -, -⟩ := Buffer.extract_message extracted
      refine ⟨List.isChain_cons.mpr ⟨head between, chain⟩, fun between first mem => ?_⟩
      obtain rfl := Option.mem_some.mp mem
      exact between.extract_message extracted

end Loop

theorem size_add (b : Buffer) (data : Bytes) :
    (b.pending.add data).size = b.length + data.length := by
  rw [← Backlog.length_toBytes, Backlog.toBytes_add, List.length_append, Backlog.length_toBytes,
    length]

/-- Every extraction ends, from whatever state, and so does every push. With `headers` for the number of
headers that there is room for in the bytes, an extraction takes no more than `2 * headers + 2` rounds and a
push no more than `headers + 2` extractions. Each message that is extracted behind another one takes its
bytes off the buffer, which are a header at least. -/
theorem push_ends (b : Buffer) (data : Bytes) :
    (∀ c : Buffer, ∃ ending left,
      extract (2 * (c.length / headerSize) + 2) c = some (ending, left)) ∧
      ∃ all : Extracted,
        let headers := (b.length + data.length) / headerSize
        extractAll (2 * headers + 2) (headers + 2) { b with pending := b.pending.add data } =
            some all ∧
          b.push data =
            (all.flaw.elim (.ok (all.messages.map Prod.fst)) .error, all.rest) ∧
          all.messages.IsChain Follows := by
  refine ⟨fun c => extract_ends (Nat.lt_succ_of_le c.rank_le), ?_⟩
  obtain ⟨all, ends⟩ := extractAll_ends { b with pending := b.pending.add data }
  rw [size_add] at ends
  obtain ⟨chain, -⟩ := extractAll_follows ends
  refine ⟨all, ends, ?_, chain⟩
  rw [push, extractAll_drain ends]
  cases all.flaw <;> rfl

/-- In the middle of an empty frame, and with one more behind it, all the rounds are needed. -/
example :
    let b : Buffer := { pending := .ofBytes [1, 0, 0, 0, 0], opened := some (true, 0) }
    b.length = 5 ∧ (extract 3 b).isNone ∧ (extract 4 b).isSome := by
  decide

end Buffer

end Switchboard.Wire
