import Switchboard.Proofs.Plan.Delivery
import Switchboard.Proofs.Text.Lowercase
import Switchboard.Rehearsal.World

/-!
# Plans that get no further than the gate

A plan without a station or a command is refused, and so is one that its kind of station does not take.
This is settled before anything else is done: a refused plan leaves the world as it was, and for any other
plan a line is asked for, once (`submit_gate`). Commands to plain stations are compared in lower case, and
white space around them counts.
-/

namespace Switchboard

/-- The stations of which a line was asked for, and what came of it. -/
def Deed.opens (deeds : List Deed) : List (String × Opened) :=
  deeds.filterMap fun
    | .ask (.open station ..) opened => some (station, opened)
    | _ => none

/-- An attempt asks for a line at its beginning, and does not ask again. -/
theorem Errand.Course.opens_eq {a : Errand} {deeds rest : List Deed} {replies : List Wire.Decoded}
    {failure : Option Outcome} {opened : Opened} (course : a.Course deeds replies failure)
    (begins : deeds = a.opening opened :: rest) : Deed.opens deeds = [(a.station, opened)] := by
  obtain ⟨other, once⟩ : ∃ other, Deed.opens deeds = [(a.station, other)] := by
    cases course <;> exact ⟨_, rfl⟩
  obtain ⟨same, -⟩ := List.cons.inj ((congrArg Deed.opens begins).symm.trans once)
  rw [once, same]

namespace Plan

open Dialogue Event

variable {σ : Type}

/-- The commands that every station understands consist of plain characters. -/
theorem plain_stationCommands {command : String} (mem : command ∈ stationCommands) :
    ∀ c ∈ command.toList, Text.IsPlain c := by
  have plain : stationCommands.all (·.toList.all fun c => c.toNat < 128 && c ≠ 'k') := by decide
  intro c inside
  simpa [Text.IsPlain] using List.all_eq_true.mp (List.all_eq_true.mp plain command mem) c inside

/-- Only basic letters become those of a station command. -/
theorem lowerCommand_mem_iff {command : String} :
    lowerCommand command ∈ stationCommands ↔
      ∃ lowered ∈ stationCommands, Text.Lowers command.toList lowered.toList := by
  have lowers {lowered : String} (mem : lowered ∈ stationCommands) :
      Text.Lowers command.toList lowered.toList ↔ lowerCommand command = lowered := by
    rw [Text.lowers_iff (plain_stationCommands mem), lowerCommand, ← String.toList_inj,
      String.toList_map]
  constructor
  · intro mem
    exact ⟨_, mem, (lowers mem).mpr rfl⟩
  · rintro ⟨lowered, mem, lower⟩
    rwa [(lowers mem).mp lower]

namespace PlanRequest

/-- The plan is refused: something is missing, or its station does not take it. A plain station takes a
command if its lower case is that of a station command. -/
def Gated (r : PlanRequest) : Prop :=
  Text.trim r.station = "" ∨ Text.trim r.command = "" ∨ r.stationKind = .system ∨
    r.stationKind = .plain ∧
      ¬ ∃ lowered ∈ stationCommands, Text.Lowers r.command.toList lowered.toList

theorem gated_iff {r : PlanRequest} : r.Gated ↔ ¬ r.Submittable := by
  rw [Gated, Text.trim_eq_empty_iff, Text.trim_eq_empty_iff, ← lowerCommand_mem_iff]
  constructor
  · rintro (station | command | kind | ⟨kind, refused⟩) submittable
    · simp [submittable.station] at station
    · simp [submittable.command] at command
    · exact submittable.kind kind
    · exact refused (submittable.plain kind)
  · intro refused
    by_contra accepted
    simp only [not_or, not_and, not_not, Bool.not_eq_true] at accepted
    obtain ⟨station, command, kind, plain⟩ := accepted
    exact refused ⟨station, command, kind, plain⟩

end PlanRequest

/-- The world takes no notice of a plan that is refused, not even if it is given up at once. -/
theorem converse_of_refusal (config : Config) {r : PlanRequest} {refusal : Refusal}
    (refused : r.refusal? = some refusal) (abandon : Option Nat) (w : Rehearsal.World σ) :
    (Rehearsal.converse abandon (submit config r)).run w =
      (.finished (.failure .argumentError refusal.message config.stationName), w) := by
  simp only [submit, refused]
  rfl

/-- Whatever is answered: submitting a plan does nothing and ends with an argument error of this node just
if the plan is gated, and then the world stays as it was. Otherwise a line to the station is asked for,
once, and one message is sent at most. -/
theorem submit_gate (config : Config) (r : PlanRequest)
    (respond : List (Event (Call.Note σ) Unit) → (request : Request) → request.Answer) :
    let (events, envelope) := play respond [] (submit config r)
    ((events = [] ∧ ∃ refusal : Refusal,
        envelope = .failure .argumentError refusal.message config.stationName) ↔ r.Gated) ∧
    (r.Gated → ∀ (abandon : Option Nat) (w : Rehearsal.World σ),
      (Rehearsal.converse abandon (submit config r)).run w = (.finished envelope, w)) ∧
    (¬ r.Gated →
      Deed.opens (deeds events) =
        [(r.station, respond [] (.open r.station r.sentCommand config.callTimeout.toNat))] ∧
      (Deed.sends (deeds events)).length ≤ 1) := by
  have run := runs_play respond [] (submit config r)
  have opens (accepted : r.refusal? = none) := submit_opens accepted config respond
  generalize play respond [] (submit config r) = played at run opens ⊢
  obtain ⟨events, envelope⟩ := played
  rw [PlanRequest.gated_iff, ← PlanRequest.refusal?_eq_none]
  obtain ⟨refusal, refused, rfl, rfl⟩ | ⟨accepted, replies, failure, course, -⟩ := submit_course run
  · have shut : r.refusal? ≠ none := by simp [refused]
    exact ⟨iff_of_true ⟨rfl, refusal, rfl⟩ shut, fun _ => converse_of_refusal config refused,
      fun accepted => absurd shut accepted⟩
  · obtain ⟨rest, begins⟩ := opens accepted
    have idle : ¬ events = [] := by
      rintro rfl
      cases begins
    exact ⟨iff_of_false (fun nothing => idle nothing.1) (not_not.mpr accepted),
      fun shut => absurd accepted shut,
      fun _ => ⟨course.opens_eq begins, course.sends_le_one⟩⟩

end Plan

end Switchboard
