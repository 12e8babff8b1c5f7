import Switchboard.Outcome
import Switchboard.Proofs.Dialogue.Runs

/-!
# The course of an attempt

An attempt at a station gets a line, sends one message and waits for a reply, or for two where the
first one says so. The first of these steps that fails ends the attempt, and if there is a line by then
it is discarded. `Course` lists the ways this can go, each with the replies that came and the failure.
-/

namespace Switchboard

/-- What not getting a line makes of an attempt. -/
def Opened.failure? : Opened → Option Outcome
  | .line _ => none
  | .unavailable => some (.local .notReady)
  | .late => some (.remote .timedOut)

theorem Opened.failure?_ne_unset (opened : Opened) : opened.failure? ≠ some .unset := by
  cases opened <;> simp [failure?]

namespace Received

/-- The reply that a receive has brought: a message in time that can be decoded. -/
def reply? : Received → Option Wire.Decoded
  | .message m => (Wire.decodeReply m).toOption
  | .fault _ | .late => none

/-- What a receive without a reply makes of an attempt. -/
def failure? : Received → Option Outcome
  | .message m =>
    match Wire.decodeReply m with
    | .ok _ => none
    | .error _ => some (.local .localException)
  | .fault _ => some (.local .recvError)
  | .late => some (.remote .timedOut)

theorem reply?_message {m : Wire.Message} {reply : Wire.Decoded}
    (decoded : Wire.decodeReply m = .ok reply) : (message m).reply? = some reply := by
  simp [reply?, decoded, Except.toOption]

theorem message_of_reply? {r : Received} {reply : Wire.Decoded} (h : r.reply? = some reply) :
    ∃ m, r = .message m ∧ Wire.decodeReply m = .ok reply := by
  cases r with
  | message m =>
    refine ⟨m, rfl, ?_⟩
    cases decoded : Wire.decodeReply m with
    | ok other => rw [← Option.some.inj ((reply?_message decoded).symm.trans h)]
    | error flaw => simp [reply?, decoded, Except.toOption] at h
  | fault fault | late => cases h

theorem failure?_message {m : Wire.Message} {flaw : Wire.Flaw}
    (refused : Wire.decodeReply m = .error flaw) :
    (message m).failure? = some (.local .localException) := by
  simp only [failure?, refused]

/-- A receive fails unless it brings a reply. -/
theorem failure?_eq_none {r : Received} {reply : Wire.Decoded} (h : r.reply? = some reply) :
    r.failure? = none := by
  cases r with
  | message m =>
    simp only [failure?, reply?] at h ⊢
    cases decoded : Wire.decodeReply m with
    | ok reply => rfl
    | error flaw => simp [decoded, Except.toOption] at h
  | fault fault => cases h
  | late => cases h

theorem failure?_ne_unset (r : Received) : r.failure? ≠ some .unset := by
  cases r with
  | message m =>
    simp only [failure?]
    cases Wire.decodeReply m <;> simp
  | fault fault => simp [failure?]
  | late => simp [failure?]

theorem reply?_eq_none {r : Received} {outcome : Outcome} (h : r.failure? = some outcome) :
    r.reply? = none := by
  cases read : r.reply? with
  | none => rfl
  | some reply => rw [failure?_eq_none read] at h; cases h

end Received

namespace Deed

/-- What a step that fails makes of an attempt; nothing if it succeeds. -/
def failure? : Deed → Option Outcome
  | .ask (.open ..) opened => opened.failure?
  | .ask (.send _) fault => fault.map fun _ => .local .sendError
  | .ask (.receive _) received => received.failure?
  | .discard => none

/-- What the steps that fail make of an attempt. -/
def failures (deeds : List Deed) : List Outcome :=
  deeds.filterMap failure?

@[simp] theorem failures_nil : failures [] = [] := rfl

@[simp] theorem failures_cons (deed : Deed) (deeds : List Deed) :
    failures (deed :: deeds) = deed.failure?.toList ++ failures deeds := by
  simp only [failures, List.filterMap_cons]
  cases deed.failure? <;> rfl

@[simp] theorem failure?_discard : discard.failure? = none := rfl

/-- The messages that were sent, and how that went. -/
def sends (deeds : List Deed) : List (Wire.Message × Option Fault) :=
  deeds.filterMap fun
    | .ask (.send m) fault => some (m, fault)
    | _ => none

/-- What was received, and what waiting for it came to. -/
def receipts (deeds : List Deed) : List Received :=
  deeds.filterMap fun
    | .ask (.receive _) received => some received
    | _ => none

/-- The deed has got a line. -/
def IsLine : Deed → Prop
  | .ask (.open ..) (.line _) => True
  | _ => False

/-- There is a line. -/
def HasLine (deeds : List Deed) : Prop :=
  ∃ deed ∈ deeds, deed.IsLine

@[simp] theorem hasLine_append (first later : List Deed) :
    HasLine (first ++ later) ↔ HasLine first ∨ HasLine later := by
  simp [HasLine, or_and_right, exists_or]

@[simp] theorem hasLine_singleton (deed : Deed) : HasLine [deed] ↔ deed.IsLine := by
  simp [HasLine]

/-- A message was sent, and every receive has brought a reply. -/
def AllWell (deeds : List Deed) : Prop :=
  (∃ message, ask (.send message) none ∈ deeds) ∧
    ∀ received ∈ receipts deeds, received.reply?.isSome

end Deed

/-- What an attempt sets out to do. -/
structure Errand where
  station : String
  affinity : String
  /-- How long getting a line and each receive may take. -/
  limit : Nat
  message : Wire.Message
  /-- Whether a second reply is waited for after this first one. -/
  goesOn : Wire.Decoded → Prop

namespace Errand

def opening (a : Errand) (opened : Opened) : Deed :=
  .ask (.open a.station a.affinity a.limit) opened

def sending (a : Errand) (fault : Option Fault) : Deed :=
  .ask (.send a.message) fault

def receiving (a : Errand) (received : Received) : Deed :=
  .ask (.receive a.limit) received

@[simp] theorem failure?_line (a : Errand) (endpoint : String) :
    (a.opening (.line endpoint)).failure? = none := rfl

@[simp] theorem failure?_sending_none (a : Errand) : (a.sending none).failure? = none := rfl

@[simp] theorem failure?_receiving (a : Errand) (received : Received) :
    (a.receiving received).failure? = received.failure? := rfl

/-- The ways an attempt can go: what was done, the replies, and the failure if there was one. -/
inductive Course (a : Errand) : List Deed → List Wire.Decoded → Option Outcome → Prop
  | unopened (opened : Opened) {failure : Outcome} (h : opened.failure? = some failure) :
      Course a [a.opening opened] [] (some failure)
  | unsent (endpoint : String) (fault : Fault) :
      Course a [a.opening (.line endpoint), a.sending (some fault), .discard] []
        (some (.local .sendError))
  | unanswered (endpoint : String) {received : Received} {failure : Outcome}
      (h : received.failure? = some failure) :
      Course a [a.opening (.line endpoint), a.sending none, a.receiving received, .discard] []
        (some failure)
  | answered (endpoint : String) {received : Received} {reply : Wire.Decoded}
      (h : received.reply? = some reply) (last : ¬ a.goesOn reply) :
      Course a [a.opening (.line endpoint), a.sending none, a.receiving received] [reply] none
  | cutShort (endpoint : String) {first second : Received} {ack : Wire.Decoded} {failure : Outcome}
      (h : first.reply? = some ack) (more : a.goesOn ack) (g : second.failure? = some failure) :
      Course a [a.opening (.line endpoint), a.sending none, a.receiving first, a.receiving second,
        .discard] [ack] (some failure)
  | concluded (endpoint : String) {first second : Received} {ack reply : Wire.Decoded}
      (h : first.reply? = some ack) (more : a.goesOn ack) (g : second.reply? = some reply) :
      Course a [a.opening (.line endpoint), a.sending none, a.receiving first, a.receiving second]
        [ack, reply] none

variable {a : Errand} {deeds : List Deed} {replies : List Wire.Decoded} {failure : Option Outcome}

namespace Course

/-- A message is sent once at most. -/
theorem sends_le_one (course : a.Course deeds replies failure) : (Deed.sends deeds).length ≤ 1 := by
  cases course with
  | unopened opened h => exact Nat.zero_le 1
  | unsent endpoint fault | unanswered endpoint h | answered endpoint h last
  | cutShort endpoint h more g | concluded endpoint h more g => exact Nat.le_refl 1

/-- The message is sent if a line was got, and only then. -/
theorem sends_eq (course : a.Course deeds replies failure) {opened : Opened} {rest : List Deed}
    (begins : deeds = a.opening opened :: rest) :
    (∀ endpoint, opened = .line endpoint → ∃ fault, Deed.sends deeds = [(a.message, fault)]) ∧
      ((∀ endpoint, opened ≠ .line endpoint) → Deed.sends deeds = []) := by
  cases course with
  | unopened other h =>
    obtain ⟨same, -⟩ := List.cons.inj begins
    obtain rfl : other = opened := by simpa [opening] using same
    refine ⟨fun endpoint line => ?_, fun _ => rfl⟩
    rw [line] at h
    cases h
  | unsent endpoint fault | unanswered endpoint h | answered endpoint h last
  | cutShort endpoint h more g | concluded endpoint h more g =>
    obtain ⟨same, -⟩ := List.cons.inj begins
    obtain rfl : .line endpoint = opened := by simpa [opening] using same
    exact ⟨fun _ _ => ⟨_, rfl⟩, fun none => absurd rfl (none endpoint)⟩

/-- No other message is sent. -/
theorem message_eq (course : a.Course deeds replies failure) {message : Wire.Message}
    {fault? : Option Fault} (mem : .ask (.send message) fault? ∈ deeds) : message = a.message := by
  cases course with
  | unopened opened h => simp [opening] at mem
  | unsent endpoint fault | unanswered endpoint h | answered endpoint h last
  | cutShort endpoint h more g | concluded endpoint h more g =>
    simp only [opening, sending, receiving, List.mem_cons, Deed.ask.injEq, reduceCtorEq, false_and,
      List.not_mem_nil, or_false, false_or, Request.send.injEq] at mem
    exact mem.1

/-- Nothing is sent before there is a line. -/
theorem line_before_send (course : a.Course deeds replies failure) {before after : List Deed}
    {message : Wire.Message} {fault? : Option Fault}
    (split : deeds = before ++ .ask (.send message) fault? :: after) :
    ∃ endpoint, a.opening (.line endpoint) ∈ before := by
  cases before with
  | nil => cases course <;> cases split
  | cons first before =>
    cases course with
    | unopened opened h => simp at split
    | unsent endpoint fault | unanswered endpoint h | answered endpoint h last
    | cutShort endpoint h more g | concluded endpoint h more g =>
      obtain ⟨rfl, -⟩ := List.cons.inj split
      exact ⟨endpoint, .head _⟩

/-- Nothing is received before the message was sent. -/
theorem send_before_receive (course : a.Course deeds replies failure) {before after : List Deed}
    {limit : Nat} {received : Received}
    (split : deeds = before ++ .ask (.receive limit) received :: after) :
    a.sending none ∈ before := by
  rcases before with _ | ⟨first, _ | ⟨second, before⟩⟩
  · cases course <;> cases split
  · cases course <;> cases split
  · cases course with
    | unopened opened h => cases split
    | unsent endpoint fault => rcases before with _ | ⟨_, _⟩ <;> simp at split
    | unanswered endpoint h | answered endpoint h last | cutShort endpoint h more g
    | concluded endpoint h more g =>
      simp only [List.cons_append, List.cons.injEq] at split
      obtain ⟨rfl, rfl, -⟩ := split
      exact .tail _ (.head _)

/-- There are two receives at most. -/
theorem receipts_le_two (course : a.Course deeds replies failure) :
    (Deed.receipts deeds).length ≤ 2 := by
  cases course with
  | unopened opened h | unsent endpoint fault => exact Nat.zero_le 2
  | unanswered endpoint h | answered endpoint h last => exact Nat.le_succ 1
  | cutShort endpoint h more g | concluded endpoint h more g => exact Nat.le_refl 2

/-- A second receive follows exactly the first replies that announce it. -/
theorem receipts_eq_two_iff (course : a.Course deeds replies failure) :
    (Deed.receipts deeds).length = 2 ↔
      ∃ first reply, (Deed.receipts deeds).head? = some first ∧ first.reply? = some reply ∧
        a.goesOn reply := by
  cases course with
  | unopened opened h | unsent endpoint fault =>
    refine ⟨nofun, ?_⟩
    rintro ⟨_, _, head, _⟩
    cases head
  | @unanswered endpoint received outcome h =>
    refine ⟨nofun, ?_⟩
    rintro ⟨_, reply, head, read, _⟩
    cases head
    rw [Received.failure?_eq_none read] at h
    cases h
  | @answered endpoint received reply h last =>
    refine ⟨nofun, ?_⟩
    rintro ⟨_, reply', head, read, more⟩
    cases head
    rw [h] at read
    cases read
    exact absurd more last
  | cutShort endpoint h more g | concluded endpoint h more g =>
    exact ⟨fun _ => ⟨_, _, rfl, h, more⟩, fun _ => rfl⟩

/-- One step fails, or none does. -/
theorem failures_eq (course : a.Course deeds replies failure) :
    Deed.failures deeds = failure.toList := by
  cases course with
  | @unopened opened outcome h =>
    have failed : (a.opening opened).failure? = some outcome := h
    simp [failed]
  | unsent endpoint fault => rfl
  | unanswered endpoint h => simp [h]
  | answered endpoint h last => simp [Received.failure?_eq_none h]
  | cutShort endpoint h more g => simp [Received.failure?_eq_none h, g]
  | concluded endpoint h more g =>
    simp [Received.failure?_eq_none h, Received.failure?_eq_none g]

theorem failure_ne_unset (course : a.Course deeds replies failure) : failure ≠ some .unset := by
  cases course with
  | @unopened opened outcome h => exact h ▸ opened.failure?_ne_unset
  | unsent endpoint fault => simp
  | @unanswered endpoint received outcome h => exact h ▸ received.failure?_ne_unset
  | @cutShort endpoint first second ack outcome h more g => exact g ▸ second.failure?_ne_unset
  | answered endpoint h last | concluded endpoint h more g => exact Option.some_ne_none _ ∘ Eq.symm

/-- Without a failure the last receive has brought the last reply, and otherwise none. -/
theorem last_receipt (course : a.Course deeds replies failure) :
    (failure = none ∧ ∃ reply, replies.getLast? = some reply ∧
      (Deed.receipts deeds).getLast?.bind Received.reply? = some reply) ∨
    ((∃ outcome, failure = some outcome) ∧
      (Deed.receipts deeds).getLast?.bind Received.reply? = none) := by
  cases course with
  | unopened opened h => exact .inr ⟨⟨_, rfl⟩, rfl⟩
  | unsent endpoint fault => exact .inr ⟨⟨_, rfl⟩, rfl⟩
  | unanswered endpoint h => exact .inr ⟨⟨_, rfl⟩, Received.reply?_eq_none h⟩
  | answered endpoint h last => exact .inl ⟨rfl, _, rfl, h⟩
  | cutShort endpoint h more g => exact .inr ⟨⟨_, rfl⟩, Received.reply?_eq_none g⟩
  | concluded endpoint h more g => exact .inl ⟨rfl, _, rfl, g⟩

/-- A line is asked for at the very first. -/
theorem open_first (course : a.Course deeds replies failure) {before after : List Deed}
    {station affinity : String} {limit : Nat} {opened : Opened}
    (split : deeds = before ++ .ask (.open station affinity limit) opened :: after) :
    before = [] := by
  cases before with
  | nil => rfl
  | cons first before =>
    have later : .ask (.open station affinity limit) opened ∈ deeds.tail := by
      rw [split]
      simp
    cases course <;> simp [sending, receiving] at later

/-- A failure is a step that failed. -/
theorem failure_of_mem (course : a.Course deeds replies failure) {deed : Deed}
    (mem : deed ∈ deeds) (failed : deed.failure?.isSome) : failure.isSome := by
  obtain ⟨outcome, failed⟩ := Option.isSome_iff_exists.mp failed
  have found : outcome ∈ Deed.failures deeds := List.mem_filterMap.mpr ⟨deed, mem, failed⟩
  rw [course.failures_eq] at found
  exact Option.isSome_of_eq_some (Option.mem_toList.mp found)

/-- A line is discarded if something fails on it. -/
theorem discard_mem_iff (course : a.Course deeds replies failure) (line : Deed.HasLine deeds) :
    .discard ∈ deeds ↔ failure.isSome := by
  cases course with
  | unopened opened h =>
    have line := (Deed.hasLine_singleton _).mp line
    cases opened with
    | line endpoint => cases h
    | unavailable | late => cases line
  | unsent endpoint fault | unanswered endpoint h | cutShort endpoint h more g => simp
  | answered endpoint h last | concluded endpoint h more g =>
    simp [opening, sending, receiving]

/-- All is well just if nothing fails. -/
theorem allWell_iff (course : a.Course deeds replies failure) :
    Deed.AllWell deeds ↔ failure = none := by
  cases course with
  | unopened opened h => simp [Deed.AllWell, opening]
  | unsent endpoint fault => simp [Deed.AllWell, opening, sending]
  | @unanswered endpoint received outcome h =>
    refine ⟨fun ⟨_, read⟩ => ?_, nofun⟩
    have read := read received (.head _)
    simp [Received.reply?_eq_none h] at read
  | @answered endpoint received reply h last =>
    refine ⟨fun _ => rfl, fun _ => ⟨⟨a.message, .tail _ (.head _)⟩, ?_⟩⟩
    intro other mem
    obtain rfl := List.mem_singleton.mp mem
    exact Option.isSome_of_eq_some h
  | @cutShort endpoint first second ack outcome h more g =>
    refine ⟨fun ⟨_, read⟩ => ?_, nofun⟩
    have read := read second (.tail _ (.head _))
    simp [Received.reply?_eq_none g] at read
  | @concluded endpoint first second ack reply h more g =>
    refine ⟨fun _ => rfl, fun _ => ⟨⟨a.message, .tail _ (.head _)⟩, ?_⟩⟩
    intro other mem
    rcases List.mem_cons.mp mem with rfl | mem
    · exact Option.isSome_of_eq_some h
    · obtain rfl := List.mem_singleton.mp mem
      exact Option.isSome_of_eq_some g

end Course

end Errand

end Switchboard
