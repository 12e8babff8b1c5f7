import Switchboard.Proofs.Rehearsal.Remains
import Switchboard.Proofs.Traffic.Resolution

/-!
# The clock of a rehearsal

A rehearsal that is not given up takes the time that its dialogue waits: each request is answered as
some reaction of the peer would have it (`serve_reacts`), so the rehearsal is one of the passes through
its dialogue (`converseOn_passes`). What `Traffic.pass_resolves` says of a pass holds of the rehearsal
(`converse_resolves`).
-/

namespace Switchboard.Rehearsal

open Pool Dialogue Event

variable {σ τ α β γ : Type}

/-- Begun at that moment, the stage comes to an answer at a moment such that `Q` holds of both. -/
def Takes (now : Nat) (m : Stage σ β) (Q : β → Nat → Prop) : Prop :=
  ∀ w, w.now = now → Q (m.run w).1 (m.run w).2.now

section Rules

variable {now : Nat} {Q : β → Nat → Prop}

theorem Takes.bind {m : Stage σ γ} {f : γ → Stage σ β} {R : γ → Nat → Prop} (first : Takes now m R)
    (next : ∀ c later, R c later → Takes later (f c) Q) : Takes now (m >>= f) Q :=
  fun w moment => next _ _ (first w moment) _ rfl

theorem Takes.mono {m : Stage σ β} {R : β → Nat → Prop} (takes : Takes now m R)
    (imp : ∀ b later, R b later → Q b later) : Takes now m Q :=
  fun w moment => imp _ _ (takes w moment)

theorem takes_pure {b : β} (h : Q b now) : Takes now (pure b : Stage σ β) Q := by
  rintro w rfl
  exact h

theorem takes_get {f : World σ → Stage σ β} (next : ∀ w, w.now = now → Takes now (f w) Q) :
    Takes now (get >>= f) Q :=
  fun w moment => next w moment w moment

theorem takes_set {w' : World σ} {f : PUnit → Stage σ β} (next : Takes w'.now (f ⟨⟩) Q) :
    Takes now (set w' >>= f) Q :=
  fun _ _ => next w' rfl

theorem takes_modifyGet {f : World σ → β × World σ}
    (h : ∀ w, w.now = now → Q (f w).1 (f w).2.now) : Takes now (modifyGet f : Stage σ β) Q :=
  h

/-- The stage takes no time. -/
def Instant (m : Stage σ β) : Prop :=
  ∀ now, Takes now m fun _ later => later = now

theorem Instant.takes {m : Stage σ γ} {f : γ → Stage σ β} (instant : Instant m)
    (next : ∀ c, Takes now (f c) Q) : Takes now (m >>= f) Q :=
  (instant now).bind fun c _ same => same ▸ next c

theorem instant_pure (b : β) : Instant (pure b : Stage σ β) :=
  fun _ => takes_pure rfl

theorem Instant.bind {m : Stage σ β} {f : β → Stage σ γ} (first : Instant m)
    (next : ∀ b, Instant (f b)) : Instant (m >>= f) :=
  fun now => first.takes fun b => next b now

theorem instant_enter (entry : Entry σ) : Instant (enter entry) :=
  fun _ _ moment => moment

theorem instant_forM {δ : Type} (l : List δ) {f : δ → Stage σ PUnit} (each : ∀ e, Instant (f e)) :
    Instant (l.forM f) := by
  induction l with
  | nil => exact instant_pure _
  | cons e rest ih => exact (each e).bind fun _ => ih

end Rules

theorem instant_release (l : Lease Line) : Instant (release l : Stage σ Unit) := by
  refine fun now => takes_get fun w moment => ?_
  subst moment
  rcases w.pool.release l with ⟨pool, _ | line⟩
  · exact takes_set (instant_pure _ _)
  · exact takes_set (instant_enter _ _)

theorem instant_forM_release (held : Option (Lease Line)) :
    Instant (held.forM release : Stage σ PUnit) := by
  cases held with
  | none => exact instant_pure _
  | some l => exact instant_release l

/-- Something that is waited for up to a limit comes in time or else is late, and is not given up. -/
def InTime (now limit : Nat) : Wait β → Nat → Prop
  | .done _, later => now ≤ later ∧ later ≤ now + limit
  | .late, later => later = now + limit
  | .abandoned, _ => False

/-- What is waited for from some moment on, up to a limit that runs since an earlier one. -/
theorem await_inTime {start limit now later : Nat} {ready : Option Nat} {wait : Wait Unit}
    (begun : start ≤ now) (early : now ≤ start + limit)
    (waited : Patience.await ⟨some (start + limit), none⟩ now ready = (wait, later)) :
    InTime start limit wait later := by
  cases ready with
  | none =>
    cases waited
    simp only [InTime]
    omega
  | some ready =>
    simp only [Patience.await, Patience.await.bound] at waited
    split at waited <;> (cases waited; simp only [InTime]; omega)

theorem receive_inTime {start limit now later : Nat} {l next : Line}
    {result : Wait (Except Fault Wire.Message)} (begun : start ≤ now) (early : now ≤ start + limit)
    (received : l.receive ⟨some (start + limit), none⟩ now = (result, next, later)) :
    InTime start limit result later := by
  fun_induction l.receive ⟨some (start + limit), none⟩ now with
  | case1 l now next' looked ih => exact ih begun early received
  | case2 l now due next' looked now' waited ih =>
    have inTime := await_inTime begun early waited
    exact ih inTime.1 inTime.2 received
  | case3 l now due next' looked now' waited | case4 l now due next' looked now' waited
  | case5 l now looked now' waited =>
    cases received
    exact await_inTime begun early waited
  | case6 l now looked wait now' notLate waited =>
    exact absurd (congrArg Prod.fst waited).symm notLate
  | case7 l now message next' looked | case8 l now fault next' looked =>
    cases received
    exact ⟨begun, early⟩

section Limit

variable {now limit : Nat}

theorem takes_done (b : β) :
    Takes now (pure (.done b) : Stage σ (Wait β)) (InTime now limit) :=
  takes_pure ⟨Nat.le_refl _, Nat.le_add_right _ _⟩

theorem await_takes (ms : Option Nat) :
    Takes now (await ⟨some (now + limit), none⟩ ms : Stage σ (Wait Unit)) (InTime now limit) := by
  refine takes_modifyGet fun w moment => ?_
  subst moment
  exact await_inTime (Nat.le_refl _) (Nat.le_add_right _ _) rfl

theorem connect_takes (endpoint : String) :
    Takes now (connect ⟨some (now + limit), none⟩ endpoint : Stage σ (Wait (Except Fault Line)))
      (InTime now limit) := by
  refine (instant_enter _).takes fun _ => takes_get fun w moment => takes_set ?_
  subst moment
  dsimp only
  split
  · exact takes_done _
  · exact takes_done _
  · exact takes_done _
  · exact takes_done _
  · refine (await_takes none).bind fun wait later inTime => ?_
    cases wait <;> exact takes_pure inTime
  · refine (await_takes _).bind fun wait later inTime => ?_
    cases wait <;> exact takes_pure inTime

theorem lease_takes (station affinity : String) :
    Takes now (lease ⟨some (now + limit), none⟩ station affinity :
      Stage σ (Wait (Option (Lease Line)))) (InTime now limit) := by
  refine takes_get fun w moment => ?_
  cases w.pool.admission w.directory station affinity with
  | none => exact takes_done _
  | some a =>
    refine takes_set ?_
    subst moment
    refine (instant_forM _ fun _ => instant_enter _).takes fun _ => ?_
    cases a.grant with
    | reuse i => exact takes_done _
    | refuse => exact (instant_enter _).takes fun _ => takes_done _
    | connect =>
      have freed : Instant (modify fun w => { w with pool := w.pool.freeSlot station } :
          Stage σ PUnit) := fun _ => takes_modifyGet fun _ => id
      refine (connect_takes a.preferred).bind fun answer later inTime => ?_
      cases answer with
      | done connected =>
        cases connected with
        | ok line =>
          refine takes_modifyGet fun w moment => ?_
          subst moment
          exact inTime
        | error fault =>
          exact freed.takes fun _ => (instant_enter _).takes fun _ => takes_pure inTime
      | late => exact freed.takes fun _ => takes_pure inTime
      | abandoned => exact inTime.elim

theorem receive_takes (l : Lease Line) :
    Takes now (receive ⟨some (now + limit), none⟩ l :
      Stage σ (Wait (Except Fault Wire.Message) × Lease Line))
      fun answer later => InTime now limit answer.1 later := by
  refine takes_get fun w moment => ?_
  subst moment
  rcases received : l.socket.receive ⟨some (w.now + limit), none⟩ w.now with ⟨result, line, later⟩
  have inTime := receive_inTime (Nat.le_refl _) (Nat.le_add_right _ _) received
  exact takes_set (takes_pure inTime)

end Limit

/-- A send is over at once, or is stuck. -/
theorem send_now (l : Line) (message : Wire.Message) (now : Nat) :
    (l.send {} message now).now = now := by
  unfold Line.send
  rcases (l.writes.headD .ok).apply message.layout with ⟨written, taken, used⟩
  cases written <;> rfl

theorem send_takes (now : Nat) (l : Lease Line) (message : Wire.Message) :
    Takes now (send {} l message : Stage σ (Wait (Option Fault) × Lease Line))
      fun _ later => later = now := by
  refine takes_get fun w moment => takes_set ?_
  subst moment
  have same := send_now l.socket message w.now
  dsimp only
  split
  · exact (instant_enter _).takes fun _ => takes_pure same
  · exact takes_pure same

/-- The answer to a request, if there is one, and the moment it comes at are those of a reaction. A send
takes no time. -/
def Reacts (now : Nat) (request : Request) (answer? : Option request.Answer) (later : Nat) : Prop :=
  ∃ reaction ms, request.await reaction = answer?.map (ms, ·) ∧ later = now + ms ∧
    ((∃ message, request = .send message) → ms = 0)

theorem reacts_of_inTime {now limit later : Nat} {request : Request} {answer late : request.Answer}
    (bounded : request.bound? = some (limit, late)) (begun : now ≤ later)
    (inTime : later ≤ now + limit) : Reacts now request (some answer) later := by
  have soon : later - now ≤ limit := by omega
  refine ⟨.after (later - now) answer, later - now, ?_, by omega, ?_⟩
  · simp only [Request.await, bounded, if_pos soon, Option.map_some]
  · rintro ⟨message, rfl⟩
    cases bounded

theorem reacts_of_late {now limit : Nat} {request : Request} {late : request.Answer}
    (bounded : request.bound? = some (limit, late)) :
    Reacts now request (some late) (now + limit) := by
  refine ⟨.never, limit, bounded, rfl, ?_⟩
  rintro ⟨message, rfl⟩
  cases bounded

/-- Every request is answered as some reaction would have it. -/
theorem serve_reacts (now : Nat) (held : Option (Lease Line)) (request : Request) :
    Takes now (serve none held request :
      Stage σ (Option request.Answer × Option (Lease Line)))
      fun answer later => Reacts now request answer.1 later := by
  cases request with
  | «open» station affinity limit =>
    refine (instant_forM_release held).takes fun _ => takes_get fun w moment => ?_
    subst moment
    refine (lease_takes station affinity).bind fun answer later inTime => ?_
    cases answer with
    | done lease? =>
      cases lease? with
      | none => exact takes_pure (reacts_of_inTime rfl inTime.1 inTime.2)
      | some l => exact takes_pure (reacts_of_inTime rfl inTime.1 inTime.2)
    | late =>
      cases inTime
      exact takes_pure (reacts_of_late rfl)
    | abandoned => exact inTime.elim
  | send message =>
    cases held with
    | none => exact takes_pure ⟨.after 0 (some .closed), 0, rfl, rfl, fun _ => rfl⟩
    | some l =>
      refine (send_takes now l message).bind fun answer later same => ?_
      subst same
      rcases answer with ⟨(fault? | _ | _), l⟩
      · exact takes_pure ⟨.after 0 fault?, 0, rfl, rfl, fun _ => rfl⟩
      · exact takes_pure ⟨.never, 0, rfl, rfl, fun _ => rfl⟩
      · exact takes_pure ⟨.never, 0, rfl, rfl, fun _ => rfl⟩
  | receive limit =>
    cases held with
    | none => exact takes_pure ⟨.after 0 (.fault .closed), 0, rfl, rfl, fun _ => rfl⟩
    | some l =>
      refine takes_get fun w moment => ?_
      subst moment
      refine (receive_takes l).bind fun answer later inTime => ?_
      rcases answer with ⟨((fault | message) | _ | _), l⟩
      · exact takes_pure (reacts_of_inTime rfl inTime.1 inTime.2)
      · exact takes_pure (reacts_of_inTime rfl inTime.1 inTime.2)
      · cases inTime
        exact takes_pure (reacts_of_late rfl)
      · exact inTime.elim

/-- How a rehearsal ends that is never given up: what waits forever counts as abandoned. -/
def ending : Standing τ α → Ended τ α
  | .ended result => .finished result
  | .waiting state _ => .abandoned state

/-- What a rehearsal that is never given up does is a pass through its dialogue, in the time that this
takes. Its sends take no time. -/
theorem converseOn_passes (d : Dialogue (Call.Note σ) τ α) (held : Option (Lease Line)) (now : Nat) :
    Takes now (converseOn none held d) fun ended later =>
      ∃ timed standing, Passes d timed standing ∧ ended = ending standing ∧
        later = now + elapsed timed ∧ sending timed = 0 := by
  induction d generalizing held now with
  | finish result =>
    refine (instant_forM_release held).takes fun _ => takes_pure ?_
    exact ⟨[], .ended result, .finish result, rfl, rfl, rfl⟩
  | note entry next ih =>
    refine (instant_enter _).takes fun _ => (ih held now).mono ?_
    rintro ended later ⟨timed, standing, passes, ended_eq, moment, quick⟩
    exact ⟨_, standing, .note entry passes, ended_eq, by simpa using moment,
      by simpa using quick⟩
  | discard next ih =>
    refine (ih _ now).mono ?_
    rintro ended later ⟨timed, standing, passes, ended_eq, moment, quick⟩
    exact ⟨_, standing, .discard passes, ended_eq, by simpa using moment,
      by simpa using quick⟩
  | ask state request next ih =>
    rw [converseOn]
    refine (serve_reacts now held request).bind ?_
    rintro ⟨answer?, held⟩ later ⟨reaction, ms, awaited, rfl, sent⟩
    cases answer? with
    | none =>
      -- only a send is waited for without a limit, and it is given up the moment it is stuck
      obtain rfl := sent (Request.await_eq_none awaited).1
      refine (instant_forM_release held).takes fun _ => takes_pure ?_
      exact ⟨[], .waiting state request, .wait state next reaction awaited, rfl, rfl, rfl⟩
    | some answer =>
      refine (ih answer held _).mono ?_
      rintro ended later ⟨timed, standing, passes, ended_eq, moment, quick⟩
      refine ⟨_, standing, .ask state reaction awaited passes, ended_eq, ?_, ?_⟩
      · rw [elapsed_cons]
        omega
      · rw [sending_cons, quick]
        cases request with
        | «open» station affinity limit | receive limit => rfl
        | send message => exact sent ⟨message, rfl⟩

/-- In any world, with any pool and any scripts, a task that is never given up comes to its result within
its limits, or it waits for its send forever. -/
theorem converse_resolves (task : Traffic.Task σ) (w : World σ) :
    let run := (converse none task.dialogue).run w
    (∃ result, run.1 = .finished result ∧
        run.2.now ≤ w.now + task.waits * task.limit) ∨
      ∃ state, run.1 = .abandoned state ∧ run.2.now ≤ w.now + task.limit := by
  intro run
  obtain ⟨timed, standing, passes, ended, moment, quick⟩ :=
    converseOn_passes task.dialogue none w.now w rfl
  have moment : run.2.now = w.now + elapsed timed := moment
  obtain ⟨result, rfl, bound⟩ | ⟨state, message, rfl, bound⟩ := Traffic.ended_or_sending passes
  · exact .inl ⟨result, ended, by omega⟩
  · exact .inr ⟨state, ended, by omega⟩

/-- The result of a rehearsal, if it came to one. -/
def Ended.result? : Ended τ α → Option α
  | .finished result => some result
  | .abandoned _ => none

/-- A world in which a station never takes what is sent to it. -/
def deaf : World Unit where
  frameLimit := 100
  directory := [("orders", ["10.0.0.1:9000"])]
  pool := { cap := 1 }
  scripts := [{ writes := [.stall] }]

/-- A call to such a station never comes to a result, nor does it if it is given up after hours; and a
plan that is submitted does not either. -/
theorem converse_deaf :
    let plan : Traffic.Task Unit :=
      .submit {} { station := "orders", stationKind := .api, command := "get" }
    ((converse none (order "1").dialogue).run deaf).1.result?.isNone ∧
      ((converse (some 10000000) (order "1").dialogue).run deaf).1.result?.isNone ∧
      ((converse none plan.dialogue).run deaf).1.result?.isNone := by
  decide +kernel

end Switchboard.Rehearsal
