import Switchboard.Proofs.Dialogue.Course

/-!
# How long a dialogue takes

The network may answer a request after any time, or never. A request for a line or for a message is
waited for up to its limit, and then it counts as late; a send has no limit. `Passes` says what a
dialogue then comes to: its result, or a request that it waits for forever, which can only be a send
(`Passes.leads_to_send`). All that is not a send takes no longer than its limits in all
(`Passes.elapsed_le`).
-/

namespace Switchboard

/-- What becomes of a request: it is answered after some milliseconds, or never. -/
inductive Reaction (request : Request) where
  | never
  | after (ms : Nat) (answer : request.Answer)

namespace Request

/-- How long a request is waited for, and what it counts as answered with then. -/
def bound? : (request : Request) → Option (Nat × request.Answer)
  | .open _ _ limit => some (limit, .late)
  | .receive limit => some (limit, .late)
  | .send _ => none

/-- When a request is answered, and with what; nothing if it is waited for forever. An answer that
comes just at the limit has come in time. -/
def await (request : Request) : Reaction request → Option (Nat × request.Answer)
  | .never => request.bound?
  | .after ms answer =>
    match request.bound? with
    | none => some (ms, answer)
    | some (limit, late) => if ms ≤ limit then some (ms, answer) else some (limit, late)

variable {request : Request} {reaction : Reaction request}

/-- Nothing but a send is waited for forever. -/
theorem await_eq_none (h : request.await reaction = none) :
    (∃ message, request = .send message) ∧ reaction = .never := by
  cases reaction with
  | never =>
    cases request with
    | «open» station affinity limit | receive limit => simp [await, bound?] at h
    | send message => exact ⟨⟨message, rfl⟩, rfl⟩
  | after ms answer =>
    simp only [await] at h
    split at h
    · cases h
    · split at h <;> cases h

theorem await_le {limit ms : Nat} {late answer : request.Answer}
    (bounded : request.bound? = some (limit, late))
    (h : request.await reaction = some (ms, answer)) : ms ≤ limit := by
  cases reaction with
  | never =>
    obtain ⟨rfl, -⟩ := Prod.mk.inj (Option.some.inj (bounded.symm.trans h))
    exact Nat.le_refl limit
  | after later reply =>
    simp only [await, bounded] at h
    split at h
    · next early =>
      cases h
      exact early
    · cases h
      exact Nat.le_refl limit

theorem bound?_eq_none (h : request.bound? = none) : ∃ message, request = .send message := by
  cases request with
  | «open» station affinity limit | receive limit => cases h
  | send message => exact ⟨message, rfl⟩

end Request

namespace Deed

/-- The limit up to which a deed was waited for. -/
def limit? : Deed → Option Nat
  | .ask request _ => request.bound?.map Prod.fst
  | .discard => none

/-- All the limits up to which the deeds were waited for, together. -/
def patience : List Deed → Nat
  | [] => 0
  | deed :: deeds => deed.limit?.getD 0 + patience deeds

@[simp] theorem patience_nil : patience [] = 0 := rfl

@[simp] theorem patience_discard (deeds : List Deed) :
    patience (.discard :: deeds) = patience deeds :=
  Nat.zero_add _

end Deed

namespace Errand

variable (a : Errand) (deeds : List Deed)

@[simp] theorem patience_opening (opened : Opened) :
    Deed.patience (a.opening opened :: deeds) = a.limit + Deed.patience deeds := rfl

@[simp] theorem patience_sending (fault? : Option Fault) :
    Deed.patience (a.sending fault? :: deeds) = Deed.patience deeds :=
  Nat.zero_add _

@[simp] theorem patience_receiving (received : Received) :
    Deed.patience (a.receiving received :: deeds) = a.limit + Deed.patience deeds := rfl

end Errand

namespace Errand.Course

variable {a : Errand} {deeds : List Deed} {replies : List Wire.Decoded} {failure : Option Outcome}

/-- A line and every receive are waited for, each up to the limit of the errand. -/
theorem patience_eq (course : a.Course deeds replies failure) :
    Deed.patience deeds = (1 + (Deed.receipts deeds).length) * a.limit := by
  cases course with
  | unopened opened h | unsent endpoint fault =>
    change _ = 1 * a.limit
    simp
  | unanswered endpoint h | answered endpoint h last =>
    change _ = 2 * a.limit
    simp only [Errand.patience_opening, Errand.patience_sending, Errand.patience_receiving,
      Deed.patience_discard, Deed.patience_nil]
    omega
  | cutShort endpoint h more g | concluded endpoint h more g =>
    change _ = 3 * a.limit
    simp only [Errand.patience_opening, Errand.patience_sending, Errand.patience_receiving,
      Deed.patience_discard, Deed.patience_nil]
    omega

/-- If no reply announces another one, there is one receive at most. -/
theorem receipts_le_one (course : a.Course deeds replies failure)
    (single : ∀ reply, ¬ a.goesOn reply) : (Deed.receipts deeds).length ≤ 1 := by
  cases course with
  | unopened opened h | unsent endpoint fault => exact Nat.zero_le 1
  | unanswered endpoint h | answered endpoint h last => exact Nat.le_refl 1
  | cutShort endpoint h more g | concluded endpoint h more g => exact absurd more (single _)

/-- Asking for a line is all that is done before the message is sent. -/
theorem before_send (course : a.Course deeds replies failure) {before after : List Deed}
    {message : Wire.Message} {fault? : Option Fault}
    (split : deeds = before ++ .ask (.send message) fault? :: after) :
    ∃ opened, before = [a.opening opened] := by
  rcases before with _ | ⟨first, _ | ⟨second, before⟩⟩
  · cases course <;> cases split
  · cases course <;> cases split <;> exact ⟨_, rfl⟩
  · have late : .ask (.send message) fault? ∈ deeds.tail.tail := by
      rw [split]
      simp
    cases course <;> simp [receiving] at late

end Errand.Course

namespace Event

variable {ν τ : Type}

/-- How long the events were waited for in all. -/
def elapsed : List (Event ν τ × Nat) → Nat
  | [] => 0
  | event :: timed => event.2 + elapsed timed

@[simp] theorem elapsed_cons (event : Event ν τ × Nat) (timed : List (Event ν τ × Nat)) :
    elapsed (event :: timed) = event.2 + elapsed timed := rfl

/-- How long a send was waited for. -/
def sendTime : Event ν τ × Nat → Nat
  | (.asked _ (.send _) _, ms) => ms
  | _ => 0

@[simp] theorem sendTime_noted (entry : ν) (ms : Nat) :
    sendTime ((.noted entry : Event ν τ), ms) = 0 := rfl

@[simp] theorem sendTime_discarded (ms : Nat) :
    sendTime ((.discarded : Event ν τ), ms) = 0 := rfl

/-- How long the sends among some events were waited for. -/
def sending : List (Event ν τ × Nat) → Nat
  | [] => 0
  | event :: timed => sendTime event + sending timed

@[simp] theorem sending_cons (event : Event ν τ × Nat) (timed : List (Event ν τ × Nat)) :
    sending (event :: timed) = sendTime event + sending timed := rfl

/-- Sends that were not made have taken no time. -/
theorem sending_eq_zero {timed : List (Event ν τ × Nat)}
    (unsent : Deed.sends (deeds (timed.map Prod.fst)) = []) : sending timed = 0 := by
  induction timed with
  | nil => rfl
  | cons event timed ih =>
    obtain ⟨event, ms⟩ := event
    cases event with
    | noted entry | discarded => simpa using ih unsent
    | asked state request answer =>
      cases request with
      | «open» station affinity limit | receive limit => simpa [sendTime] using ih unsent
      | send message => cases unsent

end Event

namespace Dialogue

variable {ν τ α : Type}

/-- What a dialogue comes to: it is over, or it waits for something that never comes. -/
inductive Standing (τ α : Type) where
  | ended (result : α)
  | waiting (state : τ) (request : Request)

/-- What may happen in a dialogue, each with how long it is waited for, and what it comes to. -/
inductive Passes : Dialogue ν τ α → List (Event ν τ × Nat) → Standing τ α → Prop
  | finish (result : α) : Passes (.finish result) [] (.ended result)
  | note (entry : ν) {next : Dialogue ν τ α} {timed : List (Event ν τ × Nat)}
      {standing : Standing τ α} (rest : Passes next timed standing) :
      Passes (.note entry next) ((.noted entry, 0) :: timed) standing
  | discard {next : Dialogue ν τ α} {timed : List (Event ν τ × Nat)} {standing : Standing τ α}
      (rest : Passes next timed standing) :
      Passes (.discard next) ((.discarded, 0) :: timed) standing
  | ask (state : τ) {request : Request} {next : request.Answer → Dialogue ν τ α}
      (reaction : Reaction request) {ms : Nat} {answer : request.Answer}
      (answered : request.await reaction = some (ms, answer)) {timed : List (Event ν τ × Nat)}
      {standing : Standing τ α} (rest : Passes (next answer) timed standing) :
      Passes (.ask state request next) ((.asked state request answer, ms) :: timed) standing
  | wait (state : τ) {request : Request} (next : request.Answer → Dialogue ν τ α)
      (reaction : Reaction request) (unanswered : request.await reaction = none) :
      Passes (.ask state request next) [] (.waiting state request)

/-- Pass through a dialogue with a peer that reacts to all that has happened. -/
def pass (react : List (Event ν τ × Nat) → (request : Request) → Reaction request) :
    List (Event ν τ × Nat) → Dialogue ν τ α → List (Event ν τ × Nat) × Standing τ α
  | _, .finish result => ([], .ended result)
  | past, .note entry next =>
    let (timed, standing) := pass react (past ++ [(.noted entry, 0)]) next
    ((.noted entry, 0) :: timed, standing)
  | past, .discard next =>
    let (timed, standing) := pass react (past ++ [(.discarded, 0)]) next
    ((.discarded, 0) :: timed, standing)
  | past, .ask state request next =>
    match request.await (react past request) with
    | none => ([], .waiting state request)
    | some (ms, answer) =>
      let event := (.asked state request answer, ms)
      let (timed, standing) := pass react (past ++ [event]) (next answer)
      (event :: timed, standing)

variable {react : List (Event ν τ × Nat) → (request : Request) → Reaction request}

/-- However the peer reacts, the dialogue passes. -/
theorem passes_pass (past : List (Event ν τ × Nat)) (d : Dialogue ν τ α) :
    Passes d (pass react past d).1 (pass react past d).2 := by
  induction d generalizing past with
  | finish result => exact .finish result
  | note entry next ih => exact .note entry (ih _)
  | discard next ih => exact .discard (ih _)
  | ask state request next ih =>
    unfold pass
    split
    · next unanswered => exact .wait state next _ unanswered
    · next answered => exact .ask state _ answered (ih _ _)

/-- What a dialogue waits for forever, the peer does not react to. -/
theorem await_of_waiting (past : List (Event ν τ × Nat)) {timed : List (Event ν τ × Nat)}
    {d : Dialogue ν τ α} {state : τ} {request : Request}
    (h : pass react past d = (timed, .waiting state request)) :
    request.await (react (past ++ timed) request) = none := by
  induction d generalizing past timed with
  | finish result => cases h
  | note entry next ih =>
    obtain ⟨rfl, waiting⟩ := Prod.mk.inj h
    simpa using ih _ (Prod.ext rfl waiting)
  | discard next ih =>
    obtain ⟨rfl, waiting⟩ := Prod.mk.inj h
    simpa using ih _ (Prod.ext rfl waiting)
  | ask state request next ih =>
    unfold pass at h
    split at h
    · next unanswered =>
      cases h
      simpa using unanswered
    · next answered =>
      obtain ⟨rfl, waiting⟩ := Prod.mk.inj h
      simpa using ih _ _ (Prod.ext rfl waiting)

namespace Passes

variable {d : Dialogue ν τ α} {timed : List (Event ν τ × Nat)}

theorem runs {result : α} (passes : Passes d timed (.ended result)) :
    Runs d (timed.map Prod.fst) result := by
  generalize standing : Standing.ended result = stands at passes
  induction passes with
  | finish result => cases standing; exact .here _
  | note entry rest ih => exact .note entry (ih standing)
  | discard rest ih => exact .discard (ih standing)
  | ask state reaction answered rest ih => exact .ask state _ _ (ih standing)
  | wait state next reaction unanswered => cases standing

/-- A dialogue waits forever for nothing but a send. -/
theorem leads_to_send {state : τ} {request : Request}
    (passes : Passes d timed (.waiting state request)) :
    ∃ message next, request = .send message ∧
      Leads d (timed.map Prod.fst) (.ask state (.send message) next) := by
  generalize standing : Standing.waiting state request = stands at passes
  induction passes with
  | finish result => cases standing
  | note entry rest ih =>
    obtain ⟨message, next, same, leads⟩ := ih standing
    exact ⟨message, next, same, .note entry leads⟩
  | discard rest ih =>
    obtain ⟨message, next, same, leads⟩ := ih standing
    exact ⟨message, next, same, .discard leads⟩
  | ask state reaction answered rest ih =>
    obtain ⟨message, next, same, leads⟩ := ih standing
    exact ⟨message, next, same, .ask _ _ _ leads⟩
  | wait state next reaction unanswered =>
    cases standing
    obtain ⟨⟨message, rfl⟩, -⟩ := Request.await_eq_none unanswered
    exact ⟨message, next, rfl, .here _⟩

open Event

/-- Apart from sends a dialogue takes no longer than the limits of what it waits for. -/
theorem elapsed_le {standing : Standing τ α} (passes : Passes d timed standing) :
    elapsed timed ≤ Deed.patience (deeds (timed.map Prod.fst)) + sending timed := by
  induction passes with
  | finish result | wait state next reaction unanswered => exact Nat.zero_le _
  | note entry rest ih | discard rest ih => simpa using ih
  | @ask state request next reaction ms answer answered timed standing rest ih =>
    rw [elapsed_cons, sending_cons, List.map_cons, deeds_asked, Deed.patience]
    cases bounded : request.bound? with
    | none =>
      obtain ⟨message, rfl⟩ := Request.bound?_eq_none bounded
      simp only [sendTime]
      omega
    | some bound =>
      have early := Request.await_le bounded answered
      have limit : Deed.limit? (.ask request answer) = some bound.1 := by
        simp only [Deed.limit?, bounded, Option.map_some]
      rw [limit, Option.getD_some]
      omega

end Passes

end Dialogue

end Switchboard
