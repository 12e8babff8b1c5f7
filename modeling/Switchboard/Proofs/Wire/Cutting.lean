import Switchboard.Proofs.Wire.Conservation

/-!
# What a stream is cut into

`cut` is what a buffer makes of a stream that it is given at once: the messages in front of the first
bad header, and what is wrong with that header. A buffer that is given the stream in pieces finds the
same flaw in it, and delivers the same messages up to the push that brings the bad header. That push
delivers nothing, so the messages that it would have completed are lost (`deliver_eq_cut`).

Both follow from what a step does once there are more bytes: it is the same step, unless the buffer was
waiting for them (`step_more_of_take`, `step_more_of_refuse`).
-/

namespace Switchboard.Wire

/-- What is taken depends on the bytes there are and not on the pieces they have come in. -/
theorem Backlog.take?_eq (b : Backlog) (n : Nat) :
    b.take? n = if b.toBytes.length < n then none
      else some (b.toBytes.take n, ofBytes (b.toBytes.drop n)) := by
  rw [length_toBytes]
  unfold take?
  split
  · rfl
  · simp [ofBytes]

namespace Buffer

theorem step_congr {b : Buffer} {pending : Backlog} (same : pending.toBytes = b.pending.toBytes) :
    ({ b with pending } : Buffer).step = b.step := by
  simp only [step, Backlog.take?_eq, same]

/-- At a boundary a buffer that has all of the header reads it. -/
theorem step_of_header {b : Buffer} {flag : UInt8} {length part : Bytes} (closed : b.opened = none)
    (width : length.length = 4) (bytes : b.pending.toBytes = flag :: (length ++ part)) :
    b.step = match readHeader b.limit flag length with
      | .error flaw => .refuse flaw
      | .ok header => .take { b with pending := .ofBytes part, opened := some header } none := by
  have taken : b.pending.take? headerSize = some (flag :: length, .ofBytes part) := by
    simp [Backlog.take?_eq, bytes, headerSize, ← width]
  cases read : readHeader b.limit flag length <;> simp only [step, closed, taken, read]

/-- The buffer with more bytes behind those that it has not looked at yet. -/
def more (b : Buffer) (bytes : Bytes) : Buffer :=
  { b with pending := .ofBytes (b.pending.toBytes ++ bytes) }

@[simp] theorem more_limit (b : Buffer) (bytes : Bytes) : (b.more bytes).limit = b.limit := rfl

@[simp] theorem more_opened (b : Buffer) (bytes : Bytes) : (b.more bytes).opened = b.opened := rfl

theorem more_add (b : Buffer) (bytes later : Bytes) :
    ({ b with pending := b.pending.add bytes } : Buffer).more later = b.more (bytes ++ later) := by
  simp only [more, Backlog.toBytes_add, List.append_assoc]

theorem step_more_nil (b : Buffer) : (b.more []).step = b.step :=
  step_congr (List.append_nil _)

theorem take?_more {b : Buffer} {n : Nat} {taken : Bytes} {rest : Backlog} (later : Bytes)
    (h : b.pending.take? n = some (taken, rest)) :
    (b.more later).pending.take? n = some (taken, .ofBytes (rest.toBytes ++ later)) := by
  obtain ⟨size, bytes, -⟩ := Backlog.take?_eq_some h
  simp [Backlog.take?_eq, more, bytes, ← size]

/-- What a buffer takes it takes as well when there are more bytes behind. -/
theorem step_more_of_take {b next : Buffer} {message : Option Message} (later : Bytes)
    (h : b.step = .take next message) : (b.more later).step = .take (next.more later) message := by
  unfold step at h ⊢
  rw [more_opened]
  split at h
  · split at h
    · cases h
    · cases h
    · next taken =>
      rw [take?_more later taken]
      split at h <;> cases h
      simp only [more_limit, *]
      rfl
  · split at h
    · cases h
    · next taken =>
      rw [take?_more later taken]
      split at h <;> cases h <;> simp only [*] <;> rfl

/-- What a buffer refuses it refuses whatever is behind. -/
theorem step_more_of_refuse {b : Buffer} {flaw : Flaw} (later : Bytes)
    (h : b.step = .refuse flaw) : (b.more later).step = .refuse flaw := by
  unfold step at h ⊢
  rw [more_opened]
  split at h
  · split at h
    · cases h
    · cases h
    · next taken =>
      rw [take?_more later taken]
      split at h <;> cases h
      simp only [more_limit, *]
  · split at h
    · cases h
    · split at h <;> cases h

/-- The messages that a buffer can cut out, and what is wrong with the header it then comes to. -/
def yield (b : Buffer) : List Message × Option Flaw :=
  ((drain b).messages, (drain b).flaw)

theorem yield_of_wait {b : Buffer} (h : b.step = .wait) : b.yield = ([], none) := by
  rw [yield, drain_of_wait h]

theorem yield_of_refuse {b : Buffer} {flaw : Flaw} (h : b.step = .refuse flaw) :
    b.yield = ([], some flaw) := by
  rw [yield, drain_of_refuse h]

theorem yield_of_take {b next : Buffer} {message : Option Message} (h : b.step = .take next message) :
    b.yield = (message.toList ++ next.yield.1, next.yield.2) := by
  rw [yield, drain_of_take h, yield]

/-- A buffer that was drained goes on from where it stopped. -/
theorem yield_more {b : Buffer} (later : Bytes) (sound : (drain b).flaw = none) :
    (b.more later).yield =
      ((drain b).messages ++ ((drain b).rest.more later).yield.1,
        ((drain b).rest.more later).yield.2) := by
  induction b using drain.induct with
  | case1 b wait => simp [drain_of_wait wait]
  | case2 b flaw refuse => simp [drain_of_refuse refuse] at sound
  | case3 b next message take ih =>
    rw [drain_of_take take] at sound ⊢
    rw [yield_of_take (step_more_of_take later take), ih sound, List.append_assoc]

/-- Nothing is cut out behind a bad header. -/
theorem yield_more_of_flaw {b : Buffer} (later : Bytes) (bad : (drain b).flaw ≠ none) :
    (b.more later).yield = b.yield := by
  induction b using drain.induct with
  | case1 b wait => simp [drain_of_wait wait] at bad
  | case2 b flaw refuse =>
    rw [yield_of_refuse refuse, yield_of_refuse (step_more_of_refuse later refuse)]
  | case3 b next message take ih =>
    rw [drain_of_take take] at bad
    rw [yield_of_take take, yield_of_take (step_more_of_take later take), ih bad]

theorem step_rest {b : Buffer} (sound : (drain b).flaw = none) : (drain b).rest.step = .wait := by
  induction b using drain.induct with
  | case1 b wait => rwa [drain_of_wait wait]
  | case2 b flaw refuse => simp [drain_of_refuse refuse] at sound
  | case3 b next message take ih =>
    rw [drain_of_take take] at sound ⊢
    exact ih sound

theorem step_rest_of_flaw {b : Buffer} {flaw : Flaw} (bad : (drain b).flaw = some flaw) :
    (drain b).rest.step = .refuse flaw := by
  induction b using drain.induct with
  | case1 b wait => simp [drain_of_wait wait] at bad
  | case2 b found refuse =>
    rw [drain_of_refuse refuse] at bad ⊢
    exact Option.some.inj bad ▸ refuse
  | case3 b next message take ih =>
    rw [drain_of_take take] at bad ⊢
    exact ih bad

/-- What the pushes of some chunks deliver until one of them fails, and the flaw it fails with. -/
def deliver (b : Buffer) : List Bytes → List Message × Option Flaw
  | [] => ([], none)
  | chunk :: chunks =>
    match b.push chunk with
    | (.error flaw, _) => ([], some flaw)
    | (.ok messages, next) =>
      let (later, flaw) := next.deliver chunks
      (messages ++ later, flaw)

theorem deliver_of_sound {b : Buffer} {chunk : Bytes} (chunks : List Bytes)
    (sound : (drain { b with pending := b.pending.add chunk }).flaw = none) :
    let d := drain { b with pending := b.pending.add chunk }
    b.deliver (chunk :: chunks) =
      (d.messages ++ (d.rest.deliver chunks).1, (d.rest.deliver chunks).2) := by
  simp only [deliver, push, sound]

theorem deliver_of_flaw {b : Buffer} {chunk : Bytes} {flaw : Flaw} (chunks : List Bytes)
    (bad : (drain { b with pending := b.pending.add chunk }).flaw = some flaw) :
    b.deliver (chunk :: chunks) = ([], some flaw) := by
  simp only [deliver, push, bad]

/-- However a stream is pushed, its flaw is found; and the messages delivered are those of the first
`n` chunks, which are all the chunks that come before a bad header is complete. -/
theorem deliver_eq_yield {b : Buffer} (idle : b.step = .wait) (chunks : List Bytes) :
    ∃ n ≤ chunks.length,
      b.deliver chunks =
        ((b.more (chunks.take n).flatten).yield.1, (b.more chunks.flatten).yield.2) ∧
      ∀ k ≤ chunks.length, k ≤ n ↔ (b.more (chunks.take k).flatten).yield.2 = none := by
  have start {b : Buffer} (idle : b.step = .wait) : (b.more []).yield = ([], none) :=
    yield_of_wait ((step_more_nil b).trans idle)
  induction chunks generalizing b with
  | nil =>
    refine ⟨0, Nat.le_refl 0, ?_, fun k hk => ?_⟩
    · simp [deliver, start idle]
    · simp [start idle, Nat.le_zero.mp hk]
  | cons chunk chunks ih =>
    cases flaw : (drain { b with pending := b.pending.add chunk }).flaw with
    | some bad =>
      -- Nothing that follows makes the header good again.
      have stuck (later : Bytes) : (b.more (chunk ++ later)).yield.2 = some bad := by
        rw [← more_add, yield_more_of_flaw later (by simp [flaw]), yield, flaw]
      refine ⟨0, Nat.zero_le _, ?_, fun k hk => ?_⟩
      · rw [deliver_of_flaw chunks flaw, List.flatten_cons, stuck]
        simp [start idle]
      · cases k with
        | zero => simp [start idle]
        | succ k => simp [stuck]
    | none =>
      have onward (later : Bytes) := more_add b chunk later ▸ yield_more later flaw
      obtain ⟨n, bound, delivered, exactly⟩ := ih (step_rest flaw)
      refine ⟨n + 1, Nat.succ_le_succ bound, ?_, fun k hk => ?_⟩
      · rw [deliver_of_sound chunks flaw, delivered, List.take_succ_cons, List.flatten_cons,
          List.flatten_cons, onward, onward]
      · cases k with
        | zero => simp [start idle]
        | succ k =>
          rw [List.take_succ_cons, List.flatten_cons, onward, Nat.succ_le_succ_iff]
          exact exactly k (Nat.le_of_succ_le_succ hk)

end Buffer

/-- What a stream is cut into under a limit: the messages in front of the first bad header, and what is
wrong with it. -/
def cut (limit : Nat) (bytes : Bytes) : List Message × Option Flaw :=
  Buffer.yield { limit, pending := .ofBytes bytes }

@[simp] theorem cut_nil (limit : Nat) : cut limit [] = ([], none) :=
  Buffer.yield_of_wait rfl

namespace Buffer

/-- `deliver_eq_yield` for a stream from its beginning on. -/
theorem deliver_eq_cut (limit : Nat) (chunks : List Bytes) :
    ∃ n ≤ chunks.length,
      deliver { limit } chunks = ((cut limit (chunks.take n).flatten).1, (cut limit chunks.flatten).2) ∧
      ∀ k ≤ chunks.length, k ≤ n ↔ (cut limit (chunks.take k).flatten).2 = none :=
  deliver_eq_yield (b := { limit }) rfl chunks

end Buffer

theorem layouts_ne_nil {messages : List Message} (filled : ∀ m ∈ messages, m ≠ [])
    (some : messages ≠ []) : layouts messages ≠ [] := by
  obtain ⟨m, rest, rfl⟩ := List.exists_cons_of_ne_nil some
  rw [layouts_cons]
  exact List.append_ne_nil_of_left_ne_nil (layout_ne_nil (filled m (.head _))) _

/-- A buffer that gets messages and nothing else delivers them and is left with nothing. -/
theorem Buffer.drain_layouts {limit : Nat} {messages : List Message} (ok : Admissible limit messages) :
    let d := drain { limit, pending := .ofBytes (layouts messages) }
    d.flaw = none ∧ d.rest.limit = limit ∧ d.messages = messages ∧ d.rest.Awaits [] [] := by
  let b : Buffer := { limit, pending := .ofBytes (layouts messages) }
  have awaits : b.Awaits [] messages := awaits_of_layouts rfl rfl ok.filled (List.append_nil _)
  obtain ⟨sound, same, rest, split, spent, none_late⟩ := drain_awaits ok awaits
  have all : rest = [] := by
    cases rest with
    | nil => rfl
    | cons m rest => exact absurd (none_late 0 (Nat.zero_lt_succ _)) (Nat.not_lt_zero _)
  rw [all, List.append_nil] at split
  exact ⟨sound, same, split.symm, all ▸ spent⟩

/-- Messages at the front of a stream are cut out of it, and then what follows them. -/
theorem cut_layouts {limit : Nat} {messages : List Message} (ok : Admissible limit messages)
    (later : Bytes) :
    cut limit (layouts messages ++ later) =
      (messages ++ (cut limit later).1, (cut limit later).2) := by
  let b : Buffer := { limit, pending := .ofBytes (layouts messages) }
  obtain ⟨sound, same, split, closed, empty, bytes⟩ := Buffer.drain_layouts ok
  have anew : (Buffer.drain b).rest.more later = { limit, pending := .ofBytes later } := by
    rw [List.append_nil] at bytes
    simp only [b, Buffer.more, closed, empty, bytes, same, List.nil_append]
  have onward := Buffer.yield_more later sound
  rw [anew, split] at onward
  exact onward

/-- Behind messages a bad header is found, and nothing behind it counts. -/
theorem cut_of_bad_header {limit : Nat} {messages : List Message} {flag : UInt8} {length : Bytes}
    {flaw : Flaw} (ok : Admissible limit messages) (width : length.length = 4)
    (bad : Buffer.readHeader limit flag length = .error flaw) (later : Bytes) :
    cut limit (layouts messages ++ (flag :: length ++ later)) = (messages, some flaw) := by
  have refuse : ({ limit, pending := .ofBytes (flag :: length ++ later) } : Buffer).step =
      .refuse flaw := by
    rw [Buffer.step_of_header rfl width rfl, bad]
  rw [cut_layouts ok, cut, Buffer.yield_of_refuse refuse, List.append_nil]

namespace Buffer

section BadHeader

variable {limit : Nat} {messages : List Message} {flag : UInt8} {length : Bytes} {flaw : Flaw}

/-- A push that brings messages and a bad header behind them delivers none of them. -/
theorem deliver_bad_header_together (ok : Admissible limit messages) (width : length.length = 4)
    (bad : readHeader limit flag length = .error flaw) :
    deliver { limit } [layouts messages ++ flag :: length] = ([], some flaw) := by
  have found : cut limit (layouts messages ++ flag :: length) = (messages, some flaw) := by
    simpa using cut_of_bad_header ok width bad []
  exact deliver_of_flaw [] (congrArg Prod.snd found)

/-- If the bad header comes with a push of its own, all the messages before it are delivered. -/
theorem deliver_bad_header_apart (ok : Admissible limit messages) (width : length.length = 4)
    (bad : readHeader limit flag length = .error flaw) :
    deliver { limit } [layouts messages, flag :: length] = (messages, some flaw) := by
  have found : cut limit (layouts messages ++ flag :: length) = (messages, some flaw) := by
    simpa using cut_of_bad_header ok width bad []
  have before : cut limit (layouts messages) = (messages, none) := by
    simpa using cut_layouts ok []
  obtain ⟨n, bound, delivered, exactly⟩ := deliver_eq_cut limit [layouts messages, flag :: length]
  have first : 1 ≤ n := (exactly 1 (by simp)).mpr (by simp [before])
  have last : ¬ 2 ≤ n := fun h => by simpa [found] using (exactly 2 (Nat.le_refl 2)).mp h
  obtain rfl : n = 1 := by omega
  simpa [found, before] using delivered

end BadHeader

end Buffer

end Switchboard.Wire
