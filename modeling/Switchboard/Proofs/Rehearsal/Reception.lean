import Switchboard.Proofs.Rehearsal.Stages
import Switchboard.Proofs.Wire.Cutting

/-!
# Receiving until nothing more can be received

A line whose peer sends a stream in pieces and then closes it is received from until a receive fails.
`Exhausts` says what that gives. The fault depends on the stream alone, not on the pieces: it is the
stream's first bad header, or its end (`receive_until_fault`). The messages depend on the pieces if there
is a bad header, since the read that completes it takes with it the messages that it completes
(`exhausts_bad_header`). Pieces that are too long to be written out are scripted as stretches, which are
received in the same way (`Line.exhausts_items`).
-/

namespace Switchboard.Rehearsal

open Wire

namespace Line

/-- What is read of a piece, read by read. -/
def portions (piece : Bytes) : List Bytes :=
  if piece = [] then [] else piece.take readBufferSize :: portions (piece.drop readBufferSize)
termination_by piece.length
decreasing_by
  have : 0 < piece.length := List.length_pos_iff.mpr ‹_›
  simp only [List.length_drop, readBufferSize]
  omega

@[simp] theorem portions_nil : portions [] = [] := by
  rw [portions]
  rfl

theorem portions_of_ne_nil {piece : Bytes} (some : piece ≠ []) :
    portions piece = piece.take readBufferSize :: portions (piece.drop readBufferSize) := by
  rw [portions, if_neg some]

/-- The reads of a piece bring all of it. -/
@[simp] theorem flatten_portions (piece : Bytes) : (portions piece).flatten = piece := by
  induction piece using portions.induct with
  | case1 => simp
  | case2 piece some ih =>
    rw [portions_of_ne_nil some, List.flatten_cons, ih, List.take_append_drop]

theorem flatten_flatMap_portions (pieces : List Bytes) :
    (pieces.flatMap portions).flatten = pieces.flatten := by
  induction pieces with
  | nil => rfl
  | cons piece pieces ih => simp [ih]

/-- One read is enough for a piece that is not larger than the read buffer. -/
theorem portions_eq_singleton {piece : Bytes} (some : piece ≠ [])
    (fits : piece.length ≤ readBufferSize) : portions piece = [piece] := by
  rw [portions_of_ne_nil some, List.take_of_length_le fits, List.drop_eq_nil_of_le fits, portions_nil]

/-- Received from again and again, the line gives these messages and then this fault. -/
inductive Exhausts (p : Patience) : Line → Nat → List Message → Fault → Prop
  | fault {l next : Line} {now later : Nat} {f : Fault}
      (failed : l.receive p now = (.done (.error f), next, later)) : Exhausts p l now [] f
  | message {l next : Line} {now later : Nat} {m : Message} {messages : List Message} {f : Fault}
      (received : l.receive p now = (.done (.ok m), next, later))
      (rest : Exhausts p next later messages f) : Exhausts p l now (m :: messages) f

/-- There is one way only to receive from a line. -/
theorem Exhausts.unique {p : Patience} {l : Line} {now : Nat} {messages messages' : List Message}
    {f f' : Fault} (h : Exhausts p l now messages f) (h' : Exhausts p l now messages' f') :
    messages = messages' ∧ f = f' := by
  induction h generalizing messages' with
  | fault failed =>
    cases h' with
    | fault failed' =>
      cases failed.symm.trans failed'
      exact ⟨rfl, rfl⟩
    | message received' _ => cases failed.symm.trans received'
  | message received _ ih =>
    cases h' with
    | fault failed' => cases received.symm.trans failed'
    | message received' rest' =>
      cases received.symm.trans received'
      obtain ⟨rfl, rfl⟩ := ih rest'
      exact ⟨rfl, rfl⟩

theorem receive_of_more (p : Patience) {l next : Line} {now : Nat} (h : l.look now = .more next) :
    l.receive p now = next.receive p now := by
  rw [receive]
  split <;> simp_all

theorem receive_of_fault (p : Patience) {l next : Line} {now : Nat} {f : Fault}
    (h : l.look now = .fault f next) : l.receive p now = (.done (.error f), next, now) := by
  rw [receive]
  split <;> simp_all

theorem Exhausts.of_more {p : Patience} {l next : Line} {now : Nat} {messages : List Message}
    {f : Fault} (looked : l.look now = .more next) (h : Exhausts p next now messages f) :
    Exhausts p l now messages f := by
  have same := receive_of_more p looked
  cases h with
  | fault failed => exact .fault (same.trans failed)
  | message received rest => exact .message (same.trans received) rest

/-- Messages that are ready are received first. -/
theorem Exhausts.of_ready {p : Patience} {l : Line} {now : Nat} {messages : List Message} {f : Fault}
    (ready : List Message) (h : Exhausts p { l with ready := [] } now messages f) :
    Exhausts p { l with ready } now (ready ++ messages) f := by
  induction ready with
  | nil => exact h
  | cons m ready ih => exact .message (receive_of_ready p now rfl) ih

/-- A stream that comes in pieces and ends is received as the buffer delivers it. -/
theorem exhausts_deliver (p : Patience) (now : Nat) {l : Line} (pieces : List Bytes)
    (idle : l.ready = []) (arrived : l.due = none)
    (script : l.reads = pieces.map .bytes ++ [.eof]) :
    let delivered := l.buffer.deliver (portions l.piece ++ pieces.flatMap portions)
    Exhausts p l now delivered.1 (delivered.2.elim .closed .frame) := by
  -- on the rounds that `receive` has left, as it does one for each read and one for each piece; `ready`
  -- stays out of it by `of_ready`
  induction size : l.measure using Nat.strongRecOn generalizing l pieces with
  | ind size ih =>
  subst size
  by_cases empty : l.piece = []
  · cases pieces with
    | nil =>
      have looked : l.look now = .fault .closed l := by simp [look, idle, empty, arrived, script]
      simpa [empty, Buffer.deliver] using Exhausts.fault (receive_of_fault p looked)
    | cons piece pieces =>
      have looked : l.look now =
          .more { l with reads := pieces.map .bytes ++ [.eof], piece } := by
        simp [look, idle, empty, arrived, script]
      have rest := ih _ (measure_more looked)
        (l := { l with reads := pieces.map .bytes ++ [.eof], piece }) pieces idle arrived rfl rfl
      simpa [empty] using rest.of_more looked
  · have looked : l.look now = l.take := by simp [look, idle, empty]
    rcases pushed : l.buffer.push (l.piece.take readBufferSize) with ⟨result, buffer⟩
    cases result with
    | error flaw =>
      have taken : l.take = .fault (.frame flaw)
          { l with piece := l.piece.drop readBufferSize, buffer } := by simp [take, pushed]
      have failed := Exhausts.fault (receive_of_fault p (looked.trans taken))
      simpa [portions_of_ne_nil empty, Buffer.deliver, pushed] using failed
    | ok messages =>
      let after := { l with piece := l.piece.drop readBufferSize, buffer, ready := [] }
      have taken : l.take = .more { after with ready := messages } := by simp [take, pushed, after]
      have rest := ih _ (measure_more (looked.trans taken)) (l := after) pieces rfl arrived script
        rfl
      have later := Exhausts.of_more (looked.trans taken) (rest.of_ready (l := after) messages)
      simpa [portions_of_ne_nil empty, Buffer.deliver, pushed] using later

/-- `exhausts_deliver` for a new connection. -/
theorem exhausts_pieces (p : Patience) (limit number now : Nat) (writes : List WriteRule)
    (pieces : List Bytes) :
    let delivered := Buffer.deliver { limit } (pieces.flatMap portions)
    Exhausts p (Script.line { reads := pieces.map .bytes ++ [.eof], writes } number limit) now
      delivered.1 (delivered.2.elim .closed .frame) := by
  have received := exhausts_deliver p now pieces
    (l := Script.line { reads := pieces.map .bytes ++ [.eof], writes } number limit) rfl rfl rfl
  rwa [Script.line, portions_nil, List.nil_append] at received

/-- The peer of a connection sends a stream in some pieces and then closes it. Received from until a
receive fails, the connection gives the messages of the first `n` reads, which are all the reads that
come before a bad header is complete. Then it fails: with the stream's flaw if it has one, and else
because the connection is closed. -/
theorem receive_until_fault (p : Patience) (limit number now : Nat) (writes : List WriteRule)
    (pieces : List Bytes) :
    let line := Script.line { reads := pieces.map .bytes ++ [.eof], writes } number limit
    let reads := pieces.flatMap portions
    ∃ n ≤ reads.length,
      (∀ messages f, Exhausts p line now messages f ↔
        messages = (cut limit (reads.take n).flatten).1 ∧
          f = (cut limit pieces.flatten).2.elim .closed .frame) ∧
      ∀ k ≤ reads.length, k ≤ n ↔ (cut limit (reads.take k).flatten).2 = none := by
  intro line reads
  obtain ⟨n, bound, delivered, exactly⟩ := Buffer.deliver_eq_cut limit reads
  have stream : reads.flatten = pieces.flatten := flatten_flatMap_portions pieces
  have received : Exhausts p line now (Buffer.deliver { limit } reads).1 _ :=
    exhausts_pieces p limit number now writes pieces
  rw [delivered, stream] at received
  refine ⟨n, bound, fun messages f => ⟨fun other => other.unique received, ?_⟩, exactly⟩
  rintro ⟨rfl, rfl⟩
  exact received

/-- A peer sends messages, then a bad header, and closes. If that comes in one read, none of the
messages is received; if the header comes in a read of its own, all of them are. -/
theorem exhausts_bad_header (p : Patience) (number now : Nat) (writes : List WriteRule) {limit : Nat}
    {messages : List Message} {flag : UInt8} {length : Bytes} {flaw : Flaw}
    (ok : Admissible limit messages) (some : messages ≠ []) (width : length.length = 4)
    (bad : Buffer.readHeader limit flag length = .error flaw)
    (fits : (layouts messages ++ flag :: length).length ≤ readBufferSize) :
    let line (pieces : List Bytes) :=
      Script.line { reads := pieces.map .bytes ++ [.eof], writes } number limit
    Exhausts p (line [layouts messages ++ flag :: length]) now [] (.frame flaw) ∧
      Exhausts p (line [layouts messages, flag :: length]) now messages (.frame flaw) := by
  have sizes := fits
  rw [List.length_append] at sizes
  have together := exhausts_pieces p limit number now writes [layouts messages ++ flag :: length]
  have apart := exhausts_pieces p limit number now writes [layouts messages, flag :: length]
  rw [List.flatMap_singleton, portions_eq_singleton (by simp) fits,
    Buffer.deliver_bad_header_together ok width bad] at together
  rw [List.flatMap_cons, List.flatMap_singleton,
    portions_eq_singleton (layouts_ne_nil ok.filled some) (by omega),
    portions_eq_singleton (by simp) (by omega), List.singleton_append,
    Buffer.deliver_bad_header_apart ok width bad] at apart
  exact ⟨together, apart⟩

/-- A message and a bad header behind it, in one read and in two. -/
theorem exhausts_message_and_bad_header :
    let line (pieces : List Bytes) : Line :=
      Script.line { reads := pieces.map .bytes ++ [.eof] } 0 16
    ([[0, 0, 0, 0, 1, 7, 2, 0, 0, 0, 0]] : List Bytes).flatten =
        [[0, 0, 0, 0, 1, 7], [2, 0, 0, 0, 0]].flatten ∧
      Exhausts {} (line [[0, 0, 0, 0, 1, 7, 2, 0, 0, 0, 0]]) 0 [] (.frame (.frameFlag 2)) ∧
      Exhausts {} (line [[0, 0, 0, 0, 1, 7], [2, 0, 0, 0, 0]]) 0 [[[7]]] (.frame (.frameFlag 2)) :=
  ⟨rfl, @exhausts_bad_header {} 0 0 [] 16 [[[7]]] 2 [0, 0, 0, 0] (.frameFlag 2)
    ⟨by decide, by decide, by decide⟩ (by decide) rfl rfl (by decide)⟩

end Line

end Switchboard.Rehearsal
