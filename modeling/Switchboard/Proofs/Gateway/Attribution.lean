import Switchboard.Proofs.Call.Records
import Switchboard.Proofs.Gateway.Answer
import Switchboard.Proofs.Text.Lowercase

/-!
# Whom the gateway names

A request is a call with a context of its own: what happens to it is what happens to the call
(`events_dispatch`), and the gateway looks at the context that the call leaves (`runs_dispatch`). As long as no node has replied the gateway names itself; from then on the last reply
says who is named, whatever fails after it (`dispatch_origin`).
-/

namespace Switchboard

open Dialogue Event

namespace Gateway

variable {σ : Type} {engine : Call.Engine σ} {requestId : String} {r : Inbound}

/-- There is no station or no command in the request. -/
def Inbound.IsBlank (r : Inbound) : Prop :=
  Text.trim r.station = "" ∨ Text.trim r.command = ""

theorem Inbound.isBlank_iff : r.IsBlank ↔ (Text.isBlank r.station || Text.isBlank r.command) = true := by
  rw [IsBlank, Text.trim_eq_empty_iff, Text.trim_eq_empty_iff, Bool.or_eq_true]

/-- The members of the context of a request that has none. -/
def defaultMembers (requestId : String) (token : Option String) : Json.Members :=
  ("requestId", .text requestId) :: (token.map fun t => ("bearer", Json.Value.text t)).toList

theorem defaultContext_eq (requestId : String) (token : Option String) :
    defaultContext requestId token = .ok (Json.Value.object (defaultMembers requestId token)).render := by
  have written := Json.encode_record (defaultMembers requestId token)
  unfold defaultContext
  unfold defaultMembers at written ⊢
  rw [written]
  rfl

/-- Every request has a context, its own or one made for it. -/
theorem exists_contextText (r : Inbound) (requestId : String) :
    ∃ context, r.contextText requestId = .ok context := by
  unfold Inbound.contextText
  cases r.context with
  | none => exact ⟨_, defaultContext_eq requestId r.token⟩
  | some context => exact ⟨context, rfl⟩

/-- The envelope of a call, with the gateway in the place of a node that has not replied. -/
def attributed (told : Envelope) (final : Call.Context) : Envelope :=
  if final.lastReply.isNone then { told with origin } else told

theorem dispatch_of_blank (blank : r.IsBlank) :
    dispatch engine requestId r =
      .finish (.failure .argumentError "station and command are required" origin) := by
  unfold dispatch
  rw [if_pos (Inbound.isBlank_iff.mp blank)]
  rfl

theorem dispatch_eq (filled : ¬ r.IsBlank) {context : String}
    (has : r.contextText requestId = .ok context) :
    dispatch engine requestId r =
      (engine.call (r.call requestId context)).bind fun (told, final) =>
        .finish (attributed told final) := by
  unfold dispatch
  rw [if_neg (mt Inbound.isBlank_iff.mpr filled)]
  simp only [has]
  unfold attributed
  congr
  funext (told, final)
  dsimp only
  split <;> rfl

theorem runs_dispatch (filled : ¬ r.IsBlank) {context : String}
    (has : r.contextText requestId = .ok context)
    {events : List (Event (Call.Note σ) Call.Context)} {envelope : Envelope} :
    Runs (dispatch engine requestId r) events envelope ↔
      ∃ told final, Runs (engine.call (r.call requestId context)) events (told, final) ∧
        envelope = attributed told final := by
  rw [dispatch_eq filled has, runs_bind]
  constructor
  · rintro ⟨first, ⟨told, final⟩, later, rfl, run, ends⟩
    obtain ⟨rfl, same⟩ := runs_finish.mp ends
    rw [List.append_nil]
    exact ⟨told, final, run, same⟩
  · rintro ⟨told, final, run, same⟩
    refine ⟨events, (told, final), [], ?_, run, ?_⟩
    · rw [List.append_nil]
    · exact runs_finish.mpr ⟨rfl, same⟩

/-- What happens to a request is what happens to its call. -/
theorem events_dispatch (filled : ¬ r.IsBlank) {context : String}
    (has : r.contextText requestId = .ok context)
    (respond : List (Event (Call.Note σ) Call.Context) → (request : Request) → request.Answer) :
    (play respond [] (dispatch engine requestId r)).1 =
      (play respond [] (engine.call (r.call requestId context))).1 := by
  obtain ⟨run, answered⟩ := play_eq_iff.mp (Prod.eta (play respond [] (dispatch engine requestId r)))
  obtain ⟨told, final, called, -⟩ := (runs_dispatch filled has).mp run
  rw [play_eq_iff.mpr ⟨called, answered⟩]

/-- Once a node has replied, the last reply names the origin. -/
theorem origin_attributed {told : Envelope} {final : Call.Context} {context : String}
    {events : List (Event (Call.Note σ) Call.Context)}
    (run : Runs (engine.call (r.call requestId context)) events (told, final)) :
    (attributed told final).origin =
      Envelope.originOf origin (Deed.replies (deeds events)).getLast? := by
  have named := congrArg Envelope.origin (Call.Engine.call_report run)
  have last := Call.Engine.call_lastReply_eq run
  have silent : (r.call requestId context).lastReply = none := rfl
  rw [silent, Option.or_none] at named last
  rw [Envelope.origin_report] at named
  unfold attributed
  rw [last]
  cases replied : (Deed.replies (deeds events)).getLast? with
  | none => rfl
  | some reply =>
    rw [replied] at named
    exact named

/-- The last of some receipts that brings a reply brings the last reply. -/
theorem getLast?_replies {before after : List Received} {received : Received} {reply : Wire.Decoded}
    (brings : received.reply? = some reply) (others : ∀ later ∈ after, later.reply? = none) :
    ((before ++ received :: after).filterMap Received.reply?).getLast? = some reply := by
  rw [List.filterMap_append, List.filterMap_cons_some brings, List.filterMap_eq_nil_iff.mpr others]
  exact List.getLast?_concat

/-- Whatever is answered to a request: if it has no station or no command, nothing is done and the gateway
names itself. For any other request what happens is what happens to its call. As long as no reply was
decoded in the course of it, the gateway names itself too. Otherwise it names the node that the last
reply decoded names in its last responder frame, and the remote default if there is no such frame or it is
empty. -/
theorem dispatch_origin (engine : Call.Engine σ) (requestId : String) (r : Inbound)
    (respond : List (Event (Call.Note σ) Call.Context) → (request : Request) → request.Answer) :
    let (events, envelope) := play respond [] (dispatch engine requestId r)
    let receipts := Deed.receipts (deeds events)
    (r.IsBlank → events = [] ∧ envelope.origin = origin) ∧
    (¬ r.IsBlank → ∃ context, r.contextText requestId = .ok context ∧
      events = (play respond [] (engine.call (r.call requestId context))).1) ∧
    ((∀ received ∈ receipts, received.reply? = none) → envelope.origin = origin) ∧
    ∀ before m after reply, receipts = before ++ .message m :: after →
      Wire.decodeReply m = .ok reply → (∀ received ∈ after, received.reply? = none) →
      (∀ name, m.Says .responser name → envelope.origin = name) ∧
      ((∀ name, ¬ m.Says .responser name) → envelope.origin = Envelope.remoteOrigin) := by
  by_cases blank : r.IsBlank
  case pos =>
    rw [dispatch_of_blank blank]
    refine ⟨fun _ => ⟨rfl, rfl⟩, absurd blank, fun _ => rfl, ?_⟩
    intro before m after reply split
    cases before <;> cases split
  case neg =>
    obtain ⟨context, has⟩ := exists_contextText r requestId
    have run := runs_play respond [] (dispatch engine requestId r)
    have called : (play respond [] (dispatch engine requestId r)).1 = _ :=
      events_dispatch blank has respond
    generalize play respond [] (dispatch engine requestId r) = played at run called ⊢
    obtain ⟨events, envelope⟩ := played
    obtain ⟨told, final, run, rfl⟩ := (runs_dispatch blank has).mp run
    have named := origin_attributed run
    unfold Deed.replies at named
    refine ⟨fun empty => absurd empty blank, fun _ => ⟨context, has, called⟩, ?_, ?_⟩
    · intro unread
      rw [List.filterMap_eq_nil_iff.mpr unread] at named
      exact named
    · intro before m after reply split decoded others
      rw [split, getLast?_replies (Received.reply?_message decoded) others] at named
      constructor
      · intro name stated
        have text := (Wire.text?_eq_some_iff_says decoded (by decide)).mpr stated
        rw [named, Envelope.originOf, text]
        rfl
      · intro silent
        have text : reply.text? .responser = none := by
          refine Option.eq_none_iff_forall_ne_some.mpr ?_
          intro worded found
          exact silent worded ((Wire.text?_eq_some_iff_says decoded (by decide)).mp found)
        rw [named, Envelope.originOf, text]
        rfl

/-- A call that fails after it was accepted is still told of in the name of the node that accepted it. -/
theorem dispatch_origin_accepted :
    let engine : Call.Engine Unit := ⟨{ stationName := "web" }, []⟩
    let r : Inbound := { station := "orders", command := "get" }
    let m : Wire.Message :=
      [[1, 0x03, Wire.Tag.responser.byte, Wire.endByte], Utf8.encode "orders-2"]
    let (events, envelope) :=
      play (Call.Engine.answering (.message m) .late) [] (dispatch engine "1" r)
    ¬ r.IsBlank ∧ Deed.receipts (deeds events) = [.message m, .late] ∧ envelope.origin = "orders-2" := by
  intro engine r m
  have filled : ¬ r.IsBlank := by
    rw [Inbound.isBlank_iff]
    decide
  have receipts : Deed.receipts (deeds (play (Call.Engine.answering (.message m) .late) []
      (dispatch engine "1" r)).1) = [.message m, .late] := by
    decide
  obtain ⟨-, -, -, named⟩ := dispatch_origin engine "1" r (Call.Engine.answering (.message m) .late)
  obtain ⟨named, -⟩ := named [] m [.late] _ receipts rfl (by decide)
  exact ⟨filled, receipts,
    named "orders-2" ((Wire.text?_eq_some_iff_says rfl (by decide)).mp (by decide))⟩

end Gateway

end Switchboard
