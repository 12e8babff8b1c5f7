import Switchboard.Proofs.Plan.Record
import Switchboard.Proofs.Plan.Verdict
import Switchboard.Proofs.Wire.RoundTrip

/-!
# What a scheduler reads of a plan

Each kind of station is asked in a group of its own, whose descriptor has the slots that such a plan
fills: the record, and some texts after it (`PlanRequest.texts`). A station that publishes takes the
command for a title and the argument for its text. Whatever the slots are, the scheduler reads each text
where it was put, and the record as it was (`submit_announces`).
-/

namespace Switchboard.Plan

open Dialogue Event Wire

variable {σ : Type}

/-- The group in which a kind of station is asked. -/
def StationKind.group : StationKind → Group
  | .api | .vote => .planCall
  | .notify => .planPublish
  | .plain | .system => .planCommand

namespace PlanRequest

/-- The texts that follow the record, each under the tag of its slot. -/
def texts (r : PlanRequest) (config : Config) : List (Tag × Option String) :=
  match r.stationKind with
  | .api | .vote =>
    [(.context, r.context), (.command, some r.command), (.argument, r.argument),
      (.serviceKey, some config.serviceKey)]
  | .notify =>
    [(.context, r.context), (.pubTitle, some r.command), (.textContent, r.argument),
      (.serviceKey, some config.serviceKey)]
  | .plain =>
    [(.command, some (lowerCommand r.command)), (.argument, r.argument),
      (.serviceKey, some config.serviceKey)]
  | .system =>
    [(.command, some r.command), (.argument, r.argument), (.serviceKey, some config.serviceKey)]

/-- What stands in the slots, each under its tag. -/
def entries (r : PlanRequest) (config : Config) : List (Tag × Option Bytes) :=
  (.plan, some r.info.pack) :: (r.texts config).map fun (tag, text) => (tag, text.map Utf8.encode)

theorem slots_eq (r : PlanRequest) (config : Config) :
    (Descriptor.ofGroup r.stationKind.group).slots = (r.entries config).map Prod.fst := by
  unfold entries texts
  cases r.stationKind <;> rfl

theorem message_eq_fill (r : PlanRequest) (config : Config) :
    r.message config =
      (Descriptor.ofGroup r.stationKind.group).fill ((r.entries config).map Prod.snd) := by
  unfold message entries texts sentCommand
  cases r.stationKind <;> rfl

end PlanRequest

/-- The message says what the plan and the configuration say. -/
structure Announces (m : Decoded) (r : PlanRequest) (config : Config) : Prop where
  group : m.group? = some r.stationKind.group
  plan : m.get? .plan = some r.info.pack
  /-- The record is in the form of MessagePack, which has no texts longer than that. -/
  record : r.info.Packable → (m.get? .plan).map Info.unpack = some (.ok r.info)
  frame : ∀ tag text, (tag, text) ∈ r.texts config →
    m.get? tag = some ((text.map Utf8.encode).getD [])
  otherwise : ∀ tag, tag ≠ .plan → tag ∉ (r.texts config).map Prod.fst → m.get? tag = none
  extras : m.extras = []

/-- A plan is read as it was made. -/
theorem decodeRequest_message (r : PlanRequest) (config : Config) :
    ∃ decoded, decodeRequest (r.message config) = .ok decoded ∧ Announces decoded r config := by
  have proper := Descriptor.proper_ofGroup r.stationKind.group
  have slots := r.slots_eq config
  have count : ((r.entries config).map Prod.snd).length =
      (Descriptor.ofGroup r.stationKind.group).slots.length := by
    rw [slots, List.length_map, List.length_map]
  obtain ⟨decoded, read, carries⟩ := decodeGoverned_fill proper count
  rw [← decodeRequest_fill _ count, ← r.message_eq_fill config] at read
  have inSlot {tag : Tag} {value : Option Bytes} (mem : (tag, value) ∈ r.entries config) :
      decoded.get? tag = some (value.getD []) := by
    refine carries.get?_of_mem proper.distinct ?_
    rw [slots, ← List.zip_of_prod rfl rfl]
    exact mem
  have plan : decoded.get? .plan = some r.info.pack := inSlot (List.mem_cons_self ..)
  refine ⟨decoded, read, ?_⟩
  exact {
    group := carries.group.trans (congrArg some (Descriptor.group_ofGroup _))
    plan
    record := fun fits => by
      have unpacked := Info.unpack_of_reads (Info.reads_pack fits) []
      rw [List.append_nil] at unpacked
      rw [plan, Option.map_some, unpacked]
    frame := fun tag text mem =>
      inSlot (List.mem_cons_of_mem _ (List.mem_map.mpr ⟨(tag, text), mem, rfl⟩))
    otherwise := fun tag other absent => carries.otherwise tag (by
      rw [slots]
      simpa [PlanRequest.entries, other, Function.comp_def] using absent)
    extras := carries.extras }

/-- A plan that is not refused asks for a line first. -/
theorem submit_opens {r : PlanRequest} (accepted : r.refusal? = none) (config : Config)
    (respond : List (Event (Call.Note σ) Unit) → (request : Request) → request.Answer) :
    ∃ rest, deeds (play respond [] (submit config r)).1 = (r.errand config).opening
      (respond [] (.open r.station r.sentCommand config.callTimeout.toNat)) :: rest := by
  unfold submit
  simp only [accepted, bind_eq, openLine_bind]
  exact ⟨_, rfl⟩

/-- For every plan that its kind of station takes there is one message, from which a scheduler reads just
what the plan says. The record it unpacks as it was, as long as the description is a text of MessagePack,
which is one of fewer than 2^32 bytes. Submitting the plan sends this message, once, if there is a line to
the station, and otherwise nothing. -/
theorem submit_announces {r : PlanRequest} (accepted : r.Submittable) (config : Config) :
    ∃ message decoded, decodeRequest message = .ok decoded ∧ Announces decoded r config ∧
      ∀ respond : List (Event (Call.Note σ) Unit) → (request : Request) → request.Answer,
        let opened := respond [] (.open r.station r.sentCommand config.callTimeout.toNat)
        let sends := Deed.sends (deeds (play respond [] (submit config r)).1)
        (∀ endpoint, opened = .line endpoint → ∃ fault, sends = [(message, fault)]) ∧
          ((∀ endpoint, opened ≠ .line endpoint) → sends = []) := by
  have notRefused := PlanRequest.refusal?_eq_none.mpr accepted
  obtain ⟨decoded, read, announces⟩ := decodeRequest_message r config
  refine ⟨r.message config, decoded, read, announces, fun respond => ?_⟩
  obtain ⟨refusal, refused, -⟩ | ⟨-, replies, failure, course, -⟩ :=
    submit_course (runs_play respond [] (submit config r))
  · rw [notRefused] at refused
    cases refused
  · obtain ⟨rest, begins⟩ := submit_opens notRefused config respond
    exact course.sends_eq begins

/-- A plain station is told to pause on the seventh day of each week, which is the first one. The context
has no slot, and no reply comes. -/
theorem submit_announces_pause :
    let r : PlanRequest :=
      { station := "orders", stationKind := .plain, command := "Pause", context := some "ward"
        kind := .week, value := 7, description := some "é" }
    let respond : List (Event (Call.Note Unit) Unit) → (request : Request) → request.Answer
      | _, .open .. => Opened.line "10.0.0.1:9000"
      | _, .send _ => (none : Option Fault)
      | _, .receive _ => Received.late
    r.Submittable ∧ ∃ message decoded, decodeRequest message = .ok decoded ∧
      decoded.group? = some .planCommand ∧
      (decoded.get? .plan).map Info.unpack = some (.ok { r.info with value := 0 }) ∧
      decoded.get? .command = some (Utf8.encode "pause") ∧ decoded.get? .argument = some [] ∧
      decoded.get? .context = none ∧
      ∃ fault, Deed.sends (deeds (play respond [] (submit {} r)).1) = [(message, fault)] := by
  intro r respond
  have lowered : lowerCommand "Pause" = "pause" := by
    rw [lowerCommand, ← String.toList_inj, String.toList_map]
    decide
  have accepted : r.Submittable := {
    station := by decide
    command := by decide
    kind := by decide
    plain := fun _ => by
      rw [lowered]
      decide }
  have fits : r.info.Packable := by
    intro text given
    obtain rfl := Option.some.inj given
    decide
  have named : (.command, some "pause") ∈ r.texts {} := lowered ▸ List.mem_cons_self ..
  obtain ⟨message, decoded, read, announces, sent⟩ := submit_announces (σ := Unit) accepted {}
  exact ⟨accepted, message, decoded, read, announces.group, announces.record fits,
    announces.frame .command (some "pause") named,
    announces.frame .argument none (.tail _ (.head _)),
    announces.otherwise .context (by decide) (by decide), (sent respond).1 "10.0.0.1:9000" rfl⟩

end Switchboard.Plan
