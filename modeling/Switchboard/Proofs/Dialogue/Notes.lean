import Switchboard.Proofs.Dialogue.Runs

/-!
# What a dialogue can write down

`Always P d` says that every event in the course of `d` is one of `P`, whatever is answered; it is read
off the dialogue, and `Always.of_leads` brings it to what has happened. `mute` leaves notes out of a
dialogue. A peer that sees only what is done to the line does not notice the difference (`play_mute`).
-/

namespace Switchboard

variable {ν τ α β : Type}

namespace Event

/-- The event is not a note, or a note that is kept. -/
def isKept (keep : ν → Bool) : Event ν τ → Bool
  | .noted entry => keep entry
  | _ => true

variable {keep : ν → Bool}

@[simp] theorem isKept_noted (entry : ν) : isKept keep (.noted entry : Event ν τ) = keep entry := rfl

@[simp] theorem isKept_discarded : isKept keep (.discarded : Event ν τ) = true := rfl

@[simp] theorem isKept_asked (state : τ) (request : Request) (answer : request.Answer) :
    isKept keep (.asked state request answer : Event ν τ) = true := rfl

end Event

namespace Dialogue

/-- Whatever is answered, every event in the course of the dialogue is one of those. -/
def Always (P : Event ν τ → Prop) : Dialogue ν τ α → Prop
  | .finish _ => True
  | .note entry next => P (.noted entry) ∧ next.Always P
  | .discard next => P .discarded ∧ next.Always P
  | .ask state request next => ∀ answer, P (.asked state request answer) ∧ (next answer).Always P

section Always

variable {P Q : Event ν τ → Prop}

theorem Always.bind {d : Dialogue ν τ α} {f : α → Dialogue ν τ β} (first : d.Always P)
    (next : ∀ a, (f a).Always P) : (d.bind f).Always P := by
  induction d with
  | finish a => exact next a
  | note entry d ih => exact ⟨first.1, ih first.2⟩
  | discard d ih => exact ⟨first.1, ih first.2⟩
  | ask state request d ih => exact fun answer => ⟨(first answer).1, ih answer (first answer).2⟩

theorem Always.mono {d : Dialogue ν τ α} (always : d.Always P) (imp : ∀ event, P event → Q event) :
    d.Always Q := by
  induction d with
  | finish a => trivial
  | note entry d ih => exact ⟨imp _ always.1, ih always.2⟩
  | discard d ih => exact ⟨imp _ always.1, ih always.2⟩
  | ask state request d ih =>
    exact fun answer => ⟨imp _ (always answer).1, ih answer (always answer).2⟩

theorem Always.of_leads {d e : Dialogue ν τ α} {events : List (Event ν τ)} (always : d.Always P)
    (leads : d.Leads events e) : (∀ event ∈ events, P event) ∧ e.Always P := by
  induction leads with
  | here d => exact ⟨fun _ mem => absurd mem List.not_mem_nil, always⟩
  | note entry _ ih =>
    obtain ⟨later, rest⟩ := ih always.2
    exact ⟨List.forall_mem_cons.mpr ⟨always.1, later⟩, rest⟩
  | discard _ ih =>
    obtain ⟨later, rest⟩ := ih always.2
    exact ⟨List.forall_mem_cons.mpr ⟨always.1, later⟩, rest⟩
  | ask state request answer _ ih =>
    obtain ⟨later, rest⟩ := ih (always answer).2
    exact ⟨List.forall_mem_cons.mpr ⟨(always answer).1, later⟩, rest⟩

theorem always_tellAll {entries : List ν} (each : ∀ entry ∈ entries, P (.noted entry)) :
    (tellAll entries : Dialogue ν τ Unit).Always P := by
  induction entries with
  | nil => trivial
  | cons entry entries ih =>
    obtain ⟨first, rest⟩ := List.forall_mem_cons.mp each
    exact ⟨first, ih rest⟩

end Always

/-- The dialogue without the notes that are not kept. -/
def mute (keep : ν → Bool) : Dialogue ν τ α → Dialogue ν τ α
  | .finish a => .finish a
  | .note entry next => if keep entry then .note entry (next.mute keep) else next.mute keep
  | .discard next => .discard (next.mute keep)
  | .ask state request next => .ask state request fun answer => (next answer).mute keep

section Mute

variable {keep : ν → Bool}

theorem mute_bind (d : Dialogue ν τ α) (f : α → Dialogue ν τ β) :
    (d.bind f).mute keep = (d.mute keep).bind fun a => (f a).mute keep := by
  induction d with
  | finish a => rfl
  | note entry d ih =>
    simp only [Dialogue.bind, mute, ih]
    split <;> rfl
  | discard d ih => simp only [Dialogue.bind, mute, ih]
  | ask state request d ih => simp only [Dialogue.bind, mute, ih]

theorem mute_tellAll (entries : List ν) :
    (tellAll entries : Dialogue ν τ Unit).mute keep = tellAll (entries.filter keep) := by
  induction entries with
  | nil => rfl
  | cons entry entries ih =>
    have cons (rest : List ν) : (tellAll (entry :: rest) : Dialogue ν τ Unit) =
        .note entry (tellAll rest) := rfl
    rw [cons, mute, ih, List.filter_cons]
    split <;> rfl

theorem mute_mute (d : Dialogue ν τ α) : (d.mute keep).mute keep = d.mute keep := by
  induction d with
  | finish a => rfl
  | note entry d ih =>
    rw [mute]
    split
    · next kept => rw [mute, if_pos kept, ih]
    · exact ih
  | discard d ih => rw [mute, mute, ih]
  | ask state request d ih => simp only [mute, ih]

/-- A dialogue whose notes are all kept stays as it is. -/
theorem mute_eq_self {d : Dialogue ν τ α} (kept : d.Always fun event => event.isKept keep) :
    d.mute keep = d := by
  induction d with
  | finish a => rfl
  | note entry d ih =>
    have first : keep entry = true := kept.1
    rw [mute, if_pos first, ih kept.2]
  | discard d ih => rw [mute, ih kept.2]
  | ask state request d ih =>
    obtain ⟨answer⟩ := exists_answer request
    rw [mute, funext fun answer => ih answer (kept answer).2]

/-- A peer that goes by what is done to the line answers a muted dialogue as it answers the dialogue
itself: they have the same result, and in their course the same happens but for the notes left out. -/
theorem play_mute (respond : List Deed → (request : Request) → request.Answer)
    (d : Dialogue ν τ α) {past past' : List (Event ν τ)}
    (same : Event.deeds past' = Event.deeds past) :
    play (fun events => respond (Event.deeds events)) past' (d.mute keep) =
      ((play (fun events => respond (Event.deeds events)) past d).1.filter (Event.isKept keep),
        (play (fun events => respond (Event.deeds events)) past d).2) := by
  induction d generalizing past past' with
  | finish a => rfl
  | note entry d ih =>
    rw [mute]
    split
    · next kept =>
      have same : Event.deeds (past' ++ [.noted entry]) = Event.deeds (past ++ [.noted entry]) := by
        simp [same]
      simp [play, ih same, kept]
    · next dropped =>
      have same : Event.deeds past' = Event.deeds (past ++ [.noted entry]) := by simp [same]
      simp [play, ih same, dropped]
  | discard d ih =>
    have same : Event.deeds (past' ++ [.discarded]) = Event.deeds (past ++ [.discarded]) := by
      simp [same]
    simp [mute, play, ih same, List.filter_cons]
  | ask state request d ih =>
    -- The answer goes by the deeds so far, which are the same for both.
    have later (answer : request.Answer) :
        Event.deeds (past' ++ [.asked state request answer]) =
          Event.deeds (past ++ [.asked state request answer]) := by
      simp [same]
    simp [mute, play, same, ih _ (later _), List.filter_cons]

end Mute

end Dialogue

end Switchboard
