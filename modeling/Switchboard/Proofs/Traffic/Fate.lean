import Switchboard.Proofs.Call.Course
import Switchboard.Proofs.Plan.Course
import Switchboard.Proofs.Pool.Accounting
import Switchboard.Proofs.Traffic.Attempts

/-!
# What becomes of a leased socket

The marks on a lease tell what has happened on it: `Sound` is kept by every move of an attempt. So when
an attempt is over its socket goes back to the idle ones just if all went well to the end, and is closed
otherwise. Nothing that an attempt has taken of the pool outlives it.
-/

namespace Switchboard.Traffic

open Pool Event

variable {σ α : Type}

/-- Whatever a task does, it does nothing to a line, or takes one of the courses. -/
theorem Task.course {t : Task σ} {events : List (Event (Call.Note σ) t.State)} {result : t.Result}
    (run : Dialogue.Runs t.dialogue events result) :
    deeds events = [] ∨
      ∃ (errand : Errand) (replies : _) (failure : _),
        errand.Course (deeds events) replies failure := by
  cases t with
  | call e ctx =>
    obtain ⟨-, replies, failure, course, -, -⟩ := Call.Engine.call_course run
    exact .inr ⟨_, replies, failure, course⟩
  | submit config r =>
    obtain ⟨refusal, -, rfl, -⟩ | ⟨-, replies, failure, course, -⟩ := Plan.submit_course run
    · exact .inl rfl
    · exact .inr ⟨_, replies, failure, course⟩

namespace Attempt

/-- The marks of an attempt's lease, if it has one, tell what has happened on the line. -/
structure Sound (a : Attempt σ α) : Prop where
  led : a.task.dialogue.Leads a.events a.rest
  leased : Deed.HasLine (deeds a.events) ↔ ∃ l, a.hold = .lease l
  marked : ∀ l, a.hold = .lease l → (l.unhealthy = true ↔ .discard ∈ deeds a.events)
  flying : ∀ l, a.hold = .lease l → l.inFlight = true →
    (∃ request, Nonempty (a.Asks request)) ∨ ∃ deed ∈ deeds a.events, deed.failure?.isSome = true

theorem sound_start (task : Task σ) : (start task : Attempt σ α).Sound where
  led := .here _
  leased := by simp [start, Deed.HasLine]
  marked l held := by cases held
  flying l held := by cases held

namespace Sound

variable {a : Attempt σ α}

/-- Whatever comes next is part of a course. -/
theorem course_of_asks (sound : a.Sound) {request : Request} (asks : a.Asks request) :
    ∃ (errand : Errand) (replies : _) (failure : _) (answer : request.Answer) (later : List Deed),
      errand.Course (deeds a.events ++ .ask request answer :: later) replies failure := by
  obtain ⟨later, result, run⟩ := a.rest.exists_runs
  have whole := sound.led.trans run
  rw [asks.waits] at run
  obtain ⟨answer, later, rfl, -⟩ := Dialogue.runs_ask.mp run
  rcases Task.course whole with nothing | ⟨errand, replies, failure, course⟩
  · simp at nothing
  · exact ⟨errand, replies, failure, answer, deeds later, by simpa using course⟩

/-- A line is asked for before anything else. -/
theorem deeds_of_open (sound : a.Sound) {station affinity : String} {limit : Nat}
    (asks : a.Asks (.open station affinity limit)) : deeds a.events = [] := by
  obtain ⟨errand, replies, failure, opened, later, course⟩ := sound.course_of_asks asks
  exact course.open_first rfl

/-- Nothing is sent without a lease. -/
theorem leased_of_send (sound : a.Sound) {message : Wire.Message} (asks : a.Asks (.send message)) :
    ∃ l, a.hold = .lease l := by
  obtain ⟨errand, replies, failure, fault?, later, course⟩ := sound.course_of_asks asks
  obtain ⟨endpoint, mem⟩ := course.line_before_send rfl
  exact sound.leased.mp ⟨_, mem, trivial⟩

/-- Nothing is received without a lease. -/
theorem leased_of_receive (sound : a.Sound) {limit : Nat} (asks : a.Asks (.receive limit)) :
    ∃ l, a.hold = .lease l := by
  obtain ⟨errand, replies, failure, received, later, course⟩ := sound.course_of_asks asks
  obtain ⟨before, after, split⟩ := List.append_of_mem (course.send_before_receive rfl)
  rw [split, List.append_assoc, List.cons_append] at course
  obtain ⟨endpoint, mem⟩ := course.line_before_send rfl
  have opened : errand.opening (.line endpoint) ∈ deeds a.events := by
    rw [split]
    exact List.mem_append_left _ mem
  exact sound.leased.mp ⟨_, opened, trivial⟩

theorem led_answer (sound : a.Sound) {request : Request} (asks : a.Asks request)
    (answer : request.Answer) :
    a.task.dialogue.Leads (a.events ++ [.asked asks.state request answer]) (asks.next answer) := by
  have led := sound.led
  rw [asks.waits] at led
  exact led.trans (.ask asks.state request answer (.here _))

theorem note (sound : a.Sound) {entry : Call.Note σ}
    {next : Dialogue (Call.Note σ) a.task.State a.task.Result} (h : a.rest = .note entry next) :
    (a.advance (.noted entry) next a.hold).Sound where
  led := by
    have led := sound.led
    rw [h] at led
    exact led.trans (.note entry (.here next))
  leased := by simpa [advance] using sound.leased
  marked l held := by simpa [advance] using sound.marked l held
  flying l held flying := by
    rcases sound.flying l held flying with ⟨request, ⟨asks⟩⟩ | failed
    · rw [asks.waits] at h
      cases h
    · simpa [advance] using Or.inr failed

theorem discard (sound : a.Sound) {next : Dialogue (Call.Note σ) a.task.State a.task.Result}
    (h : a.rest = .discard next) : (a.advance .discarded next (discarded a.hold)).Sound where
  led := by
    have led := sound.led
    rw [h] at led
    exact led.trans (.discard (.here next))
  leased := by
    have same : (∃ l, discarded a.hold = .lease l) ↔ ∃ l, a.hold = .lease l := by
      cases a.hold with
      | lease l => exact ⟨fun _ => ⟨l, rfl⟩, fun _ => ⟨_, rfl⟩⟩
      | nothing | inquiry directory station affinity | dial station endpoint => rfl
    simpa [advance, same, Deed.IsLine] using sound.leased
  marked l held := by
    have marked : l.unhealthy = true := by
      change discarded a.hold = .lease l at held
      cases before : a.hold <;> rw [before] at held <;> cases held
      rfl
    simp [advance, marked]
  flying l held flying := by
    obtain ⟨l', leased, inFlight⟩ : ∃ l', a.hold = .lease l' ∧ l'.inFlight = l.inFlight := by
      change discarded a.hold = .lease l at held
      cases before : a.hold <;> rw [before] at held <;> cases held
      exact ⟨_, rfl, rfl⟩
    rcases sound.flying l' leased (inFlight ▸ flying) with ⟨request, ⟨asks⟩⟩ | ⟨deed, mem, failed⟩
    · rw [asks.waits] at h
      cases h
    · exact .inr ⟨deed, by simp [advance, mem], failed⟩

/-- As long as nothing is leased, it does not matter what is held. -/
theorem rehold (sound : a.Sound) {hold : Hold α} (before : ∀ l, a.hold ≠ .lease l)
    (after : ∀ l, hold ≠ .lease l) : { a with hold }.Sound where
  led := sound.led
  leased := by
    have unleased : ¬ Deed.HasLine (deeds a.events) := fun line => by
      obtain ⟨l, held⟩ := sound.leased.mp line
      exact before l held
    exact ⟨fun line => absurd line unleased, fun ⟨l, held⟩ => absurd held (after l)⟩
  marked l held := absurd held (after l)
  flying l held := absurd held (after l)

theorem answer_unopened (sound : a.Sound) {station affinity : String} {limit : Nat}
    (asks : a.Asks (.open station affinity limit)) {opened : Opened}
    (failed : opened = .unavailable ∨ opened = .late) : (asks.answer opened .nothing).Sound where
  led := sound.led_answer asks opened
  leased := by
    rcases failed with rfl | rfl <;>
      simp [Asks.answer, advance, sound.deeds_of_open asks, Deed.IsLine]
  marked := nofun
  flying := nofun

/-- A line that was just got has no marks. -/
theorem answer_line (sound : a.Sound) {station affinity : String} {limit : Nat}
    (asks : a.Asks (.open station affinity limit)) (endpoint : String) {l : Lease α}
    (fit : l.isUnfit = false) : (asks.answer (.line endpoint) (.lease l)).Sound where
  led := sound.led_answer asks (.line endpoint)
  leased := by simp [Asks.answer, advance, sound.deeds_of_open asks, Deed.IsLine]
  marked l' held := by
    obtain rfl := Hold.lease.inj held
    simp_all [Asks.answer, advance, sound.deeds_of_open asks, Lease.isUnfit]
  flying l' held flying := by
    obtain rfl := Hold.lease.inj held
    simp [Lease.isUnfit, flying] at fit

theorem begun (sound : a.Sound) {request : Request} (asks : a.Asks request) {l : Lease α}
    (leased : a.hold = .lease l) (socket : α) :
    { a with hold := .lease { l with socket, inFlight := true } }.Sound where
  led := sound.led
  leased := ⟨fun _ => ⟨_, rfl⟩, fun _ => sound.leased.mpr ⟨l, leased⟩⟩
  marked l' held := by
    obtain rfl := Hold.lease.inj held
    exact sound.marked l leased
  flying l' held flying := .inl ⟨request, ⟨asks.state, asks.next, asks.waits⟩⟩

/-- A send or a receive leaves a mark if it fails. -/
theorem answer (sound : a.Sound) {request : Request} (asks : a.Asks request)
    (answer : request.Answer) {l : Lease α} (leased : a.hold = .lease l) (socket : α)
    (inFlight : Bool)
    (failed : inFlight = true → (Deed.ask request answer).failure?.isSome = true) :
    (asks.answer answer (.lease { l with socket, inFlight })).Sound where
  led := sound.led_answer asks answer
  leased := by
    have line := sound.leased.mpr ⟨l, leased⟩
    refine ⟨fun _ => ⟨_, rfl⟩, fun _ => ?_⟩
    simp [Asks.answer, advance, line]
  marked l' held := by
    obtain rfl := Hold.lease.inj held
    simpa [Asks.answer, advance] using sound.marked l leased
  flying l' held flying := by
    obtain rfl := Hold.lease.inj held
    exact .inr ⟨.ask request answer, by simp [Asks.answer, advance], failed flying⟩

/-- Every move keeps the marks true. -/
theorem move (sound : a.Sound) {d : Directory} {p p' : Pool α} {a' : Attempt σ α}
    (move : Move d p a p' a') : a'.Sound := by
  cases move with
  | note h => exact sound.note h
  | discard h => exact sound.discard h
  | inquire asks empty => exact sound.rehold (by simp [empty]) (by simp)
  | unserved asks inquiry nobody => exact sound.answer_unopened asks (.inl rfl)
  | refused asks inquiry admitted grant => exact sound.answer_unopened asks (.inl rfl)
  | reused asks inquiry admitted grant => exact sound.answer_line asks _ rfl
  | dialled asks inquiry admitted grant => exact sound.rehold (by simp [inquiry]) (by simp)
  | connected socket asks dial => exact sound.answer_line asks _ rfl
  | unconnected opened asks dial failed => exact sound.answer_unopened asks failed
  | begun socket asks leased => exact sound.begun asks leased socket
  | sent socket fault? asks leased sending =>
    exact sound.answer asks fault? leased socket _ (by simp [Deed.failure?])
  | received socket received asks leased receiving =>
    refine sound.answer asks received leased socket _ ?_
    cases received <;> simp [Deed.failure?, Received.failure?]

end Sound

/-- The attempt ran to its end, its message was sent, and every receive brought a reply. -/
def Succeeded (a : Attempt σ α) : Prop :=
  a.IsFinished ∧ Deed.AllWell (deeds a.events)

theorem not_isFinished_of_asks {a : Attempt σ α} {request : Request} (asks : a.Asks request) :
    ¬ a.IsFinished := by
  rintro ⟨result, ended⟩
  rw [asks.waits] at ended
  cases ended

/-- A finished attempt has left its lease fit just if all went well. -/
theorem Sound.fit_iff {a : Attempt σ α} (sound : a.Sound) (finished : a.IsFinished) {l : Lease α}
    (leased : a.hold = .lease l) : l.isUnfit = false ↔ Deed.AllWell (deeds a.events) := by
  have line := sound.leased.mpr ⟨l, leased⟩
  obtain ⟨result, ended⟩ := finished
  have run := sound.led
  rw [ended] at run
  rcases Task.course run with nothing | ⟨errand, replies, failure, course⟩
  · simp [Deed.HasLine, nothing] at line
  have marked := (sound.marked l leased).trans (course.discard_mem_iff line)
  rw [course.allWell_iff]
  constructor
  · intro fit
    cases failure with
    | none => rfl
    | some outcome => simp [Lease.isUnfit, marked.mpr rfl] at fit
  · rintro rfl
    have healthy : l.unhealthy = false := by simpa using marked
    have landed : l.inFlight = false := by
      refine Bool.eq_false_iff.mpr fun flying => ?_
      rcases sound.flying l leased flying with ⟨request, ⟨asks⟩⟩ | ⟨deed, mem, failed⟩
      · exact not_isFinished_of_asks asks ⟨result, ended⟩
      · cases course.failure_of_mem mem failed
    simp [Lease.isUnfit, healthy, landed]

/-- When an attempt is over, its lease is fit for another one just if it has succeeded. -/
theorem Sound.succeeded_iff {a : Attempt σ α} (sound : a.Sound) (atEnd : a.IsOver) {l : Lease α}
    (leased : a.hold = .lease l) : a.Succeeded ↔ l.isUnfit = false := by
  rcases atEnd with finished | ⟨station, endpoint, dial⟩ | ⟨l', request, leased', flying, ⟨asks⟩⟩
  · rw [sound.fit_iff finished leased]
    exact ⟨And.right, fun well => ⟨finished, well⟩⟩
  · rw [dial] at leased
    cases leased
  · rw [leased'] at leased
    obtain rfl := Hold.lease.inj leased
    refine ⟨fun ⟨finished, _⟩ => absurd finished (not_isFinished_of_asks asks), fun fit => ?_⟩
    simp [Lease.isUnfit, flying] at fit

end Attempt

/-- In traffic that can come about every attempt's marks are true. -/
theorem Reachable.sound {cap : Nat} {t : Traffic σ α} (reachable : Reachable cap t) :
    ∀ a ∈ t.attempts, a.Sound := by
  induction reachable with
  | refl => simp
  | tail _ step ih =>
    cases step with
    | redirect _ d => exact ih
    | arrive task =>
      intro a mem
      rcases Multiset.mem_cons.mp mem with rfl | mem
      · exact Attempt.sound_start _
      · exact ih a mem
    | move others move =>
      intro a mem
      rcases Multiset.mem_cons.mp mem with rfl | mem
      · exact (ih _ (Multiset.mem_cons_self ..)).move move
      · exact ih a (Multiset.mem_cons_of_mem mem)
    | leave a ends =>
      obtain ⟨d, p, others, -⟩ := ends
      exact fun a mem => ih a (Multiset.mem_cons_of_mem mem)

/-- What becomes of all that an attempt has taken of the pool. -/
structure Fate (a : Attempt σ α) (before after : Pool α) : Prop where
  /-- It holds a lease just if it has got a line. -/
  leased : Deed.HasLine (deeds a.events) ↔ ∃ l, a.hold = .lease l
  /-- Its socket is idle again just if it has succeeded. -/
  returned : ∀ l, a.hold = .lease l →
    ((∃ i ∈ (after.sockets l.station).idle, i.id = l.id) ↔ a.Succeeded)
  /-- Otherwise the socket is closed and its slot free. -/
  closed : ∀ l, a.hold = .lease l → ¬ a.Succeeded →
    (before.release l).2 = some l.socket ∧ l.id ∉ after.idleIds ∧
      after.liveCount l.station + 1 = before.liveCount l.station
  /-- A slot reserved for a connection is free. -/
  freed : ∀ station endpoint, a.hold = .dial station endpoint →
    after.liveCount station + 1 = before.liveCount station

theorem liveCount_freeSlot {p : Pool α} {station : String} (live : 0 < p.liveCount station) :
    (p.freeSlot station).liveCount station + 1 = p.liveCount station := by
  rw [freeSlot, liveCount_update_self]
  exact Nat.sub_add_cancel live

theorem Ends.fate {t t' : Traffic σ α} {a : Attempt σ α} (accounted : t.usage.Accounted)
    (sound : a.Sound) (ends : Ends a t t') : Fate a t.pool t'.pool := by
  obtain ⟨d, p, others, atEnd⟩ := ends
  have held : a.hold ∈ (usage ⟨d, p, a ::ₘ others⟩).holds := by simp [usage]
  refine ⟨sound.leased, fun l leased => ?_, fun l leased unsuccessful => ?_,
    fun station endpoint dial => ?_⟩
  · rw [leased] at held ⊢
    rw [sound.succeeded_iff atEnd leased]
    constructor
    · rintro ⟨i, idle, same⟩
      refine Bool.eq_false_iff.mpr fun unfit => accounted.not_mem_idleIds held ?_
      rw [Hold.drop_unfit p unfit, freeSlot, sockets_update_self] at idle
      exact same ▸ id_mem_idleIds idle
    · intro fit
      rw [Hold.drop_fit p fit, sockets_update_self]
      exact ⟨l.toIdle, List.mem_append_right _ (.head _), rfl⟩
  · rw [leased] at held ⊢
    have unfit : l.isUnfit = true := by
      simpa using mt (sound.succeeded_iff atEnd leased).mpr unsuccessful
    have live : 0 < p.liveCount l.station :=
      accounted.live_pos held (.inl (by simp [Hold.isLease]))
    rw [Hold.drop_unfit p unfit]
    refine ⟨by simp [release, unfit], fun idle => ?_, liveCount_freeSlot live⟩
    refine accounted.not_mem_idleIds held ?_
    rwa [← List.count_pos_iff, count_idleIds_freeSlot, List.count_pos_iff] at idle
  · rw [dial] at held ⊢
    exact liveCount_freeSlot (accounted.live_pos held (.inr (by simp [Hold.isDial])))

/-- Traffic that starts with an empty pool leaves nothing behind. -/
theorem fate_of_reachable {cap : Nat} {t : Traffic σ α} (reachable : Reachable cap t) :
    (∀ a t', Ends a t t' → Fate a t.pool t'.pool) ∧
    (∀ a ∈ t.attempts, ∀ p' a', Move t.directory t.pool a p' a' →
      ∀ station endpoint, a.hold = .dial station endpoint → a'.hold = .nothing →
        p'.liveCount station + 1 = t.pool.liveCount station) ∧
    (t.attempts = 0 → ∀ station, t.pool.liveCount station = t.pool.idleCount station) := by
  obtain ⟨accounted, -⟩ := reachable.usage.accounted
  refine ⟨fun a t' ends => ?_, fun a mem p' a' move station endpoint dial lost => ?_,
    fun none station => ?_⟩
  · have mem : a ∈ t.attempts := by
      obtain ⟨d, p, others, -⟩ := ends
      exact Multiset.mem_cons_self ..
    exact ends.fate accounted (reachable.sound a mem)
  · have held : a.hold ∈ t.usage.holds := Multiset.mem_map_of_mem _ mem
    rw [dial] at held
    rcases move.hold with ⟨-, same⟩ | moved
    · rw [dial, lost] at same
      cases same
    · rw [dial, lost] at moved
      cases moved
      exact liveCount_freeSlot (accounted.live_pos held (.inr (by simp [Hold.isDial])))
  · have live := accounted.live station
    simpa [usage, none, Usage.leased, Usage.dialled] using live

/-- A call that is answered at once leaves its socket to the next one. -/
theorem fate_of_call :
    ∃ (t t' : Traffic Unit Unit) (a : Attempt Unit Unit), Reachable 1 t ∧ Ends a t t' ∧
      a.Succeeded ∧ ∃ i ∈ (t'.pool.sockets "orders").idle, i.id = 1 := by
  let directory : Directory := [("orders", ["10.0.0.1:9000"])]
  let task : Task Unit :=
    .call ⟨{}, []⟩ { station := "orders", command := "get", requestId := "1" }
  have arrived : Reachable 1 (⟨directory, { cap := 1 }, {.start task}⟩ : Traffic Unit Unit) :=
    .tail (.tail .refl (.redirect _ directory)) (.arrive _ task)
  have looked := arrived.tail (.move 0 (.inquire ⟨_, _, rfl⟩ rfl))
  have dialling := looked.tail (.move 0 (.dialled ⟨_, _, rfl⟩ rfl rfl rfl))
  have leased := dialling.tail (.move 0 (.connected () ⟨_, _, rfl⟩ rfl))
  have sending := leased.tail (.move 0 (.begun () ⟨_, _, rfl⟩ rfl))
  have sent := sending.tail (.move 0 (.sent () none ⟨_, _, rfl⟩ rfl rfl))
  have receiving := sent.tail (.move 0 (.begun () ⟨_, _, rfl⟩ rfl))
  have received := receiving.tail
    (.move 0 (.received () (.message [[0, 0x01, Wire.endByte]]) ⟨_, _, rfl⟩ rfl rfl))
  have back {d : Directory} {p : Pool Unit} {a : Attempt Unit Unit} {l : Lease Unit}
      (reachable : Reachable 1 ⟨d, p, a ::ₘ 0⟩) (leased : a.hold = .lease l)
      (succeeded : a.Succeeded) :
      a.Succeeded ∧ ∃ i ∈ ((a.hold.drop p).sockets l.station).idle, i.id = l.id := by
    have fate := (fate_of_reachable reachable).1 a _ (.ended d p 0 (.inl succeeded.1))
    exact ⟨succeeded, (fate.returned l leased).mpr succeeded⟩
  refine ⟨_, _, _, received, .ended _ _ 0 (.inl ⟨_, rfl⟩), back received rfl ?_⟩
  refine ⟨⟨_, rfl⟩, ⟨_, List.mem_cons_of_mem _ List.mem_cons_self⟩, fun reply mem => ?_⟩
  obtain rfl := List.mem_singleton.mp mem
  rfl

end Switchboard.Traffic
