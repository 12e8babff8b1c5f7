import Switchboard.Dialogue

/-!
# Runs of a dialogue

A dialogue says what is done for every answer; a run is what happened for the answers that came.
`Leads d events e` says that `d` has come to `e` after `events`, and `Runs d events a` that it came to
an end with the result `a`. The runs of a composed dialogue are those of its parts one after the other
(`runs_bind`), and for every way of answering there is a run (`runs_play`), and only one
(`play_eq_iff`).
-/

namespace Switchboard

/-- What happens in the course of a dialogue that notes `ν` and is in a state `τ` at each request. -/
inductive Event (ν τ : Type) where
  | noted (entry : ν)
  | discarded
  | asked (state : τ) (request : Request) (answer : request.Answer)

/-- What a dialogue does to its line: it asks and is answered, or discards the line. -/
inductive Deed where
  | ask (request : Request) (answer : request.Answer)
  | discard

/-- A deed as what happens in a dialogue that has no state. -/
def Deed.event {ν : Type} : Deed → Event ν Unit
  | .ask request answer => .asked () request answer
  | .discard => .discarded

namespace Event

variable {ν τ : Type}

def deed? : Event ν τ → Option Deed
  | .noted _ => none
  | .discarded => some .discard
  | .asked _ request answer => some (.ask request answer)

/-- The deeds among some events, in order. -/
def deeds (events : List (Event ν τ)) : List Deed :=
  events.filterMap deed?

@[simp] theorem deeds_nil : deeds ([] : List (Event ν τ)) = [] := rfl

@[simp] theorem deeds_noted (entry : ν) (events : List (Event ν τ)) :
    deeds (.noted entry :: events) = deeds events := rfl

@[simp] theorem deeds_discarded (events : List (Event ν τ)) :
    deeds (.discarded :: events) = .discard :: deeds events := rfl

@[simp] theorem deeds_asked (state : τ) (request : Request) (answer : request.Answer)
    (events : List (Event ν τ)) :
    deeds (.asked state request answer :: events) = .ask request answer :: deeds events := rfl

@[simp] theorem deeds_append (first later : List (Event ν τ)) :
    deeds (first ++ later) = deeds first ++ deeds later :=
  List.filterMap_append

/-- Notes are no deeds. -/
@[simp] theorem deeds_map_noted (entries : List ν) :
    deeds (entries.map .noted : List (Event ν τ)) = [] := by
  induction entries with
  | nil => rfl
  | cons entry entries ih => simpa using ih

end Event

namespace Dialogue

variable {ν τ α β : Type}

/-- The dialogue comes to another one in the course of some events. -/
inductive Leads : Dialogue ν τ α → List (Event ν τ) → Dialogue ν τ α → Prop
  | here (d : Dialogue ν τ α) : Leads d [] d
  | note (entry : ν) {next last : Dialogue ν τ α} {events : List (Event ν τ)} :
      Leads next events last → Leads (.note entry next) (.noted entry :: events) last
  | discard {next last : Dialogue ν τ α} {events : List (Event ν τ)} :
      Leads next events last → Leads (.discard next) (.discarded :: events) last
  | ask (state : τ) (request : Request) (answer : request.Answer)
      {next : request.Answer → Dialogue ν τ α} {last : Dialogue ν τ α}
      {events : List (Event ν τ)} :
      Leads (next answer) events last →
      Leads (.ask state request next) (.asked state request answer :: events) last

/-- The dialogue comes to its end with a result. -/
def Runs (d : Dialogue ν τ α) (events : List (Event ν τ)) (result : α) : Prop :=
  Leads d events (.finish result)

theorem Leads.trans {d e f : Dialogue ν τ α} {first later : List (Event ν τ)}
    (h : Leads d first e) (g : Leads e later f) : Leads d (first ++ later) f := by
  induction h with
  | here => exact g
  | note entry _ ih => exact .note entry (ih g)
  | discard _ ih => exact .discard (ih g)
  | ask state request answer _ ih => exact .ask state request answer (ih g)

@[simp] theorem runs_finish {a b : α} {events : List (Event ν τ)} :
    Runs (.finish a) events b ↔ events = [] ∧ b = a := by
  constructor
  · intro h; cases h; exact ⟨rfl, rfl⟩
  · rintro ⟨rfl, rfl⟩; exact .here _

@[simp] theorem runs_note {entry : ν} {next : Dialogue ν τ α} {events : List (Event ν τ)} {b : α} :
    Runs (.note entry next) events b ↔
      ∃ later, events = .noted entry :: later ∧ Runs next later b := by
  constructor
  · intro h; cases h with | note _ h => exact ⟨_, rfl, h⟩
  · rintro ⟨later, rfl, h⟩; exact .note entry h

@[simp] theorem runs_discard {next : Dialogue ν τ α} {events : List (Event ν τ)} {b : α} :
    Runs (.discard next) events b ↔ ∃ later, events = .discarded :: later ∧ Runs next later b := by
  constructor
  · intro h; cases h with | discard h => exact ⟨_, rfl, h⟩
  · rintro ⟨later, rfl, h⟩; exact .discard h

@[simp] theorem runs_ask {state : τ} {request : Request} {next : request.Answer → Dialogue ν τ α}
    {events : List (Event ν τ)} {b : α} :
    Runs (.ask state request next) events b ↔
      ∃ answer later, events = .asked state request answer :: later ∧
        Runs (next answer) later b := by
  constructor
  · intro h; cases h with | ask _ _ answer h => exact ⟨answer, _, rfl, h⟩
  · rintro ⟨answer, later, rfl, h⟩; exact .ask state request answer h

/-- A composed dialogue runs as its parts do, one after the other. -/
theorem runs_bind {d : Dialogue ν τ α} {f : α → Dialogue ν τ β} {events : List (Event ν τ)}
    {b : β} :
    Runs (d.bind f) events b ↔
      ∃ first a later, events = first ++ later ∧ Runs d first a ∧ Runs (f a) later b := by
  induction d generalizing events with
  | finish a =>
    simp only [Dialogue.bind, runs_finish]
    constructor
    · intro h; exact ⟨[], a, events, rfl, ⟨rfl, rfl⟩, h⟩
    · rintro ⟨_, _, later, rfl, ⟨rfl, rfl⟩, h⟩; exact h
  | note entry next ih =>
    simp only [Dialogue.bind, runs_note, ih]
    constructor
    · rintro ⟨_, rfl, first, a, later, rfl, h, g⟩
      exact ⟨_, a, later, rfl, ⟨first, rfl, h⟩, g⟩
    · rintro ⟨_, a, later, rfl, ⟨first, rfl, h⟩, g⟩
      exact ⟨_, rfl, first, a, later, rfl, h, g⟩
  | discard next ih =>
    simp only [Dialogue.bind, runs_discard, ih]
    constructor
    · rintro ⟨_, rfl, first, a, later, rfl, h, g⟩
      exact ⟨_, a, later, rfl, ⟨first, rfl, h⟩, g⟩
    · rintro ⟨_, a, later, rfl, ⟨first, rfl, h⟩, g⟩
      exact ⟨_, rfl, first, a, later, rfl, h, g⟩
  | ask state request next ih =>
    simp only [Dialogue.bind, runs_ask, ih]
    constructor
    · rintro ⟨answer, _, rfl, first, a, later, rfl, h, g⟩
      exact ⟨_, a, later, rfl, ⟨answer, first, rfl, h⟩, g⟩
    · rintro ⟨_, a, later, rfl, ⟨answer, first, rfl, h⟩, g⟩
      exact ⟨answer, _, rfl, first, a, later, rfl, h, g⟩

@[simp] theorem bind_eq (d : Dialogue ν τ α) (f : α → Dialogue ν τ β) : d >>= f = d.bind f := rfl

@[simp] theorem pure_eq (a : α) : (pure a : Dialogue ν τ α) = .finish a := rfl

@[simp] theorem finish_bind (a : α) (f : α → Dialogue ν τ β) :
    (.finish a : Dialogue ν τ α).bind f = f a := rfl

@[simp] theorem tell_bind (entry : ν) (f : Unit → Dialogue ν τ β) :
    (tell entry).bind f = .note entry (f ()) := rfl

@[simp] theorem discardLine_bind (f : Unit → Dialogue ν τ β) :
    discardLine.bind f = .discard (f ()) := rfl

@[simp] theorem openLine_bind (state : τ) (station affinity : String) (limit : Nat)
    (f : Opened → Dialogue ν τ β) :
    (openLine state station affinity limit).bind f =
      .ask state (.open station affinity limit) f := rfl

@[simp] theorem send_bind (state : τ) (message : Wire.Message)
    (f : Option Fault → Dialogue ν τ β) :
    (send state message).bind f = .ask state (.send message) f := rfl

@[simp] theorem receive_bind (state : τ) (limit : Nat) (f : Received → Dialogue ν τ β) :
    (receive state limit).bind f = .ask state (.receive limit) f := rfl

@[simp] theorem runs_tellAll {entries : List ν} {events : List (Event ν τ)} {b : Unit} :
    Runs (tellAll entries) events b ↔ events = entries.map .noted := by
  induction entries generalizing events with
  | nil => simp [tellAll, List.forM]
  | cons entry entries ih =>
    have cons : (tellAll (entry :: entries) : Dialogue ν τ Unit) =
        (tell entry).bind fun _ => tellAll entries := rfl
    simp [cons, ih]

/-- Hold a dialogue with a peer whose answers may depend on all that has happened. -/
def play (respond : List (Event ν τ) → (request : Request) → request.Answer) :
    List (Event ν τ) → Dialogue ν τ α → List (Event ν τ) × α
  | _, .finish a => ([], a)
  | past, .note entry next =>
    let (events, a) := play respond (past ++ [.noted entry]) next
    (.noted entry :: events, a)
  | past, .discard next =>
    let (events, a) := play respond (past ++ [.discarded]) next
    (.discarded :: events, a)
  | past, .ask state request next =>
    let answer := respond past request
    let (events, a) := play respond (past ++ [.asked state request answer]) (next answer)
    (.asked state request answer :: events, a)

/-- Every answer among some events is the one that the peer gives to what has happened before it. -/
def Answered (respond : List (Event ν τ) → (request : Request) → request.Answer) :
    List (Event ν τ) → List (Event ν τ) → Prop
  | _, [] => True
  | past, .noted entry :: later => Answered respond (past ++ [.noted entry]) later
  | past, .discarded :: later => Answered respond (past ++ [.discarded]) later
  | past, .asked state request answer :: later =>
    respond past request = answer ∧ Answered respond (past ++ [.asked state request answer]) later

/-- What is played is the one run with the peer's answers. -/
theorem play_eq_iff {respond : List (Event ν τ) → (request : Request) → request.Answer}
    {past : List (Event ν τ)} {d : Dialogue ν τ α} {events : List (Event ν τ)} {a : α} :
    play respond past d = (events, a) ↔ Runs d events a ∧ Answered respond past events := by
  induction d generalizing past events with
  | finish b =>
    simp only [play, runs_finish, Prod.mk.injEq]
    constructor
    · rintro ⟨rfl, rfl⟩; exact ⟨⟨rfl, rfl⟩, trivial⟩
    · rintro ⟨⟨rfl, rfl⟩, -⟩; exact ⟨rfl, rfl⟩
  | note entry next ih =>
    simp only [play, runs_note, Prod.mk.injEq]
    constructor
    · rintro ⟨rfl, rfl⟩
      obtain ⟨run, answered⟩ := ih.mp rfl
      exact ⟨⟨_, rfl, run⟩, answered⟩
    · rintro ⟨⟨later, rfl, run⟩, answered⟩
      simp [ih.mpr ⟨run, answered⟩]
  | discard next ih =>
    simp only [play, runs_discard, Prod.mk.injEq]
    constructor
    · rintro ⟨rfl, rfl⟩
      obtain ⟨run, answered⟩ := ih.mp rfl
      exact ⟨⟨_, rfl, run⟩, answered⟩
    · rintro ⟨⟨later, rfl, run⟩, answered⟩
      simp [ih.mpr ⟨run, answered⟩]
  | ask state request next ih =>
    simp only [play, runs_ask, Prod.mk.injEq]
    constructor
    · rintro ⟨rfl, rfl⟩
      obtain ⟨run, answered⟩ := (ih _).mp rfl
      exact ⟨⟨_, _, rfl, run⟩, rfl, answered⟩
    · rintro ⟨⟨answer, later, rfl, run⟩, rfl, answered⟩
      simp [(ih _).mpr ⟨run, answered⟩]

/-- Whatever is answered, a dialogue that is played runs to its end. -/
theorem runs_play (respond : List (Event ν τ) → (request : Request) → request.Answer)
    (past : List (Event ν τ)) (d : Dialogue ν τ α) :
    Runs d (play respond past d).1 (play respond past d).2 :=
  (play_eq_iff.mp rfl).1

theorem exists_answer (request : Request) : Nonempty request.Answer := by
  cases request with
  | «open» station affinity limit => exact ⟨.unavailable⟩
  | send message => exact ⟨none⟩
  | receive limit => exact ⟨.late⟩

/-- Every dialogue can come to an end. -/
theorem exists_runs (d : Dialogue ν τ α) : ∃ events result, Runs d events result := by
  induction d with
  | finish a => exact ⟨[], a, .here _⟩
  | note entry next ih =>
    obtain ⟨events, result, run⟩ := ih
    exact ⟨_, result, .note entry run⟩
  | discard next ih =>
    obtain ⟨events, result, run⟩ := ih
    exact ⟨_, result, .discard run⟩
  | ask state request next ih =>
    obtain ⟨answer⟩ := exists_answer request
    obtain ⟨events, result, run⟩ := ih answer
    exact ⟨_, result, .ask state request answer run⟩

/-- A dialogue that comes to ask something can be brought to an end with any answer, and its run shows
what was asked. -/
theorem exists_runs_of_leads {d : Dialogue ν τ α} {events : List (Event ν τ)} {state : τ}
    {request : Request} {next : request.Answer → Dialogue ν τ α}
    (asks : Leads d events (.ask state request next)) (answer : request.Answer) :
    ∃ events result, Runs d events result ∧ Deed.ask request answer ∈ Event.deeds events := by
  obtain ⟨later, result, rest⟩ := exists_runs (next answer)
  refine ⟨_, result, asks.trans (.ask state request answer rest), ?_⟩
  rw [Event.deeds_append, Event.deeds_asked]
  exact List.mem_append_right _ (.head _)

end Dialogue

end Switchboard
