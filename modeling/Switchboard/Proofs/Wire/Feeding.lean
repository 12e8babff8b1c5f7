import Switchboard.Proofs.Wire.Boundaries

/-!
# Malformed streams

A buffer is fed with chunks and cleared now and then; `Fed` says which bytes it was fed with since it
was fresh. How it goes on depends on these bytes alone and not on the chunks they came in, nor on the
pushes that have failed (`Fed.drain_more`). So a push fails just if there is a bad header among the
bytes, with what is wrong with the first one (`Fed.push_eq_error`), and so does every push after it.
-/

namespace Switchboard.Wire.Buffer

variable {limit : Nat} {stream : Bytes} {b b' : Buffer}

/-- The buffer comes about from a fresh one by pushes, failed ones among them, and by clearing; with the
bytes that were pushed since it was cleared last. -/
inductive Fed (limit : Nat) : Bytes → Buffer → Prop
  | fresh : Fed limit [] { limit }
  | push {stream : Bytes} {b : Buffer} (fed : Fed limit stream b) (chunk : Bytes) :
      Fed limit (stream ++ chunk) (b.push chunk).2
  | clear {stream : Bytes} {b : Buffer} (fed : Fed limit stream b) : Fed limit [] b.clear

/-- The buffer after some more pushes. -/
def pushes (b : Buffer) (chunks : List Bytes) : Buffer :=
  chunks.foldl (fun b chunk => (b.push chunk).2) b

/-- What is seen of a buffer while chunks are pushed: what each push returns, and the length and the
emptiness after it. -/
def sights (b : Buffer) : List Bytes → List (Except Flaw (List Message) × Nat × Bool)
  | [] => []
  | chunk :: chunks =>
    let (result, next) := b.push chunk
    (result, next.length, next.isEmpty) :: next.sights chunks

theorem push_rest (b : Buffer) (chunk : Bytes) :
    (b.push chunk).2 = (drain { b with pending := b.pending.add chunk }).rest := by
  unfold push
  dsimp only
  split <;> rfl

theorem limit_push (b : Buffer) (chunk : Bytes) : (b.push chunk).2.limit = b.limit := by
  rw [push_rest, limit_drain]

/-- To a drained buffer it is all the same whether it was drained before the last bytes came. -/
theorem drain_more (b : Buffer) (later : Bytes) :
    (drain (b.more later)).flaw = (drain ((drain b).rest.more later)).flaw ∧
      (drain (b.more later)).rest = (drain ((drain b).rest.more later)).rest := by
  induction b using drain.induct with
  | case1 b wait => simp [drain_of_wait wait]
  | case2 b flaw refuse => simp [drain_of_refuse refuse]
  | case3 b next message take ih =>
    rw [drain_of_take take, drain_of_take (step_more_of_take later take)]
    exact ih

theorem yield_congr (same : b.step = b'.step) : b.yield = b'.yield := by
  cases step : b'.step with
  | wait => rw [yield_of_wait step, yield_of_wait (same.trans step)]
  | refuse flaw => rw [yield_of_refuse step, yield_of_refuse (same.trans step)]
  | take next message => rw [yield_of_take step, yield_of_take (same.trans step)]

theorem push_eq_error {chunk : Bytes} {flaw : Flaw} :
    (b.push chunk).1 = .error flaw ↔ (b.more chunk).yield.2 = some flaw := by
  let added : Buffer := { b with pending := b.pending.add chunk }
  have same : (b.more chunk).yield = added.yield :=
    yield_congr (step_congr (b := added) (Backlog.toBytes_add ..).symm)
  rw [same]
  change _ ↔ (drain added).flaw = some flaw
  unfold push
  dsimp only
  split <;> simp [added, *]

namespace Fed

theorem limit_eq (fed : Fed limit stream b) : b.limit = limit := by
  induction fed with
  | fresh => rfl
  | push fed chunk ih => rw [limit_push, ih]
  | clear fed ih => exact ih

/-- A buffer goes on as if all the bytes were pushed at once. -/
theorem drain_more (fed : Fed limit stream b) (later : Bytes) :
    let whole := drain { limit, pending := .ofBytes (stream ++ later) }
    (drain (b.more later)).flaw = whole.flaw ∧ (drain (b.more later)).rest = whole.rest := by
  induction fed generalizing later with
  | fresh => exact ⟨rfl, rfl⟩
  | @push stream b fed chunk ih =>
    obtain ⟨flaw, rest⟩ := Buffer.drain_more { b with pending := b.pending.add chunk } later
    rw [more_add] at flaw rest
    rw [push_rest, ← flaw, ← rest, List.append_assoc]
    exact ih (chunk ++ later)
  | clear fed ih =>
    rw [Buffer.clear, fed.limit_eq]
    exact ⟨rfl, rfl⟩

/-- A push fails with what is wrong with the first bad header. -/
theorem push_eq_error (fed : Fed limit stream b) {chunk : Bytes} {flaw : Flaw} :
    (b.push chunk).1 = .error flaw ↔ FirstBad limit (stream ++ chunk) flaw := by
  rw [Buffer.push_eq_error, yield, (fed.drain_more chunk).1]
  exact flaw_eq_some_iff (b := { limit, pending := .ofBytes (stream ++ chunk) }) rfl

theorem pushes (fed : Fed limit stream b) (chunks : List Bytes) :
    Fed limit (stream ++ chunks.flatten) (b.pushes chunks) := by
  induction chunks generalizing stream b with
  | nil => simpa [Buffer.pushes] using fed
  | cons chunk chunks ih =>
    rw [List.flatten_cons, ← List.append_assoc]
    exact ih (fed.push chunk)

/-- Malformed input is caught as soon as it is there, and it stays caught. However a buffer was pushed
and cleared, its next push fails just if there is a bad header among the bytes pushed since, where a
frame begins: one whose flag is neither zero nor one or whose frame is beyond the limit. The first such
header is reported, its flag first, by this push and by all later ones. And when the buffer is cleared
it does whatever a fresh one does. -/
theorem refuses_malformed {limit : UInt32} (fed : Fed limit.toNat stream b) (chunk : Bytes) :
    ((∃ flaw, (b.push chunk).1 = .error flaw) ↔
      ∃ pos flag size, Boundary (stream ++ chunk) pos ∧ HeaderAt (stream ++ chunk) pos flag size ∧
        ((flag ≠ 0 ∧ flag ≠ 1) ∨ limit.toNat < size)) ∧
      (∀ flaw, (b.push chunk).1 = .error flaw →
        FirstBad limit.toNat (stream ++ chunk) flaw ∧
          ∀ chunks last, (((b.push chunk).2.pushes chunks).push last).1 = .error flaw) ∧
      b.clear.length = length { limit := limit.toNat } ∧
      b.clear.isEmpty = isEmpty { limit := limit.toNat } ∧
      ∀ chunks, b.clear.sights chunks = sights { limit := limit.toNat } chunks := by
  refine ⟨?_, fun flaw failed => ⟨fed.push_eq_error.mp failed, fun chunks last => ?_⟩, rfl, rfl,
    fun chunks => ?_⟩
  · simp only [fed.push_eq_error, exists_firstBad_iff]
  · rw [((fed.push chunk).pushes chunks).push_eq_error, List.append_assoc]
    exact (fed.push_eq_error.mp failed).append _
  · rw [Buffer.clear, fed.limit_eq]

/-- Behind a message a header comes in two chunks, with an unknown flag and a frame beyond the limit. -/
theorem refuses_unknown_flag :
    let b : Buffer := { limit := (4 : UInt32).toNat, pending := .ofBytes [2, 0, 0] }
    Fed (4 : UInt32).toNat [0, 0, 0, 0, 1, 7, 2, 0, 0] b ∧
      (b.push [0, 9]).1 = .error (.frameFlag 2) ∧
      ∀ chunks last, (((b.push [0, 9]).2.pushes chunks).push last).1 = .error (.frameFlag 2) := by
  intro b
  let first : Bytes := [0, 0, 0, 0, 1, 7, 2, 0, 0]
  have begun : Buffer.push { limit := (4 : UInt32).toNat } first = (.ok [[[7]]], b) := by
    unfold first b
    cbv
  have fed : Fed (4 : UInt32).toNat first (Buffer.push { limit := (4 : UInt32).toNat } first).2 :=
    .push .fresh first
  rw [begun] at fed
  have failed : (b.push [0, 9]).1 = .error (.frameFlag 2) := by
    unfold b
    cbv
  obtain ⟨-, caught, -⟩ := refuses_malformed fed [0, 9]
  exact ⟨fed, failed, (caught _ failed).2⟩

end Fed

end Switchboard.Wire.Buffer
