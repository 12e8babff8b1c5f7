import Switchboard.Proofs.Call.Request
import Switchboard.Proofs.Gateway.Attribution
import Switchboard.Proofs.Json.Members

/-!
# The context that the gateway makes

A request without a context gets one of two texts, the id of the request and the token. Handlers that leave
the context alone leave it as it was made (`briefed_context`), so that it is what is sent (`message_of_dispatch`),
and however the token is worded, the peer reads these two texts from it and nothing else
(`dispatch_context`).
-/

namespace Switchboard

open Dialogue Event

namespace Call

variable {σ : Type}

/-- No handler changes the context of a request, whatever else it sets. -/
def Registry.KeepsContext (handlers : Registry σ) : Prop :=
  ∀ h ∈ handlers, ∀ state ctx, (h.before state ctx).result.context = ctx.outgoing.context

theorem Chain.before_keepsContext {chain : Chain σ}
    (keeps : Registry.KeepsContext (chain.map (·.handler))) (ctx : Context) :
    (chain.before ctx).2.1.outgoing.context = ctx.outgoing.context := by
  induction chain generalizing ctx with
  | nil => rfl
  | cons l rest ih =>
    obtain ⟨mine, others⟩ := List.forall_mem_cons.mp keeps
    exact (ih others _).trans (mine l.state ctx)

namespace Engine

variable {e : Engine σ}

theorem links_handlers_subset (e : Engine σ) (ctx : Context) :
    (e.links ctx).1.map (·.handler) ⊆ e.handlers := by
  unfold links
  split
  · exact List.nil_subset _
  · rw [Registry.instantiate_handlers]
    exact List.filter_subset_self _

theorem briefed_context (keeps : Registry.KeepsContext e.handlers) (ctx : Context) :
    (e.briefed ctx).outgoing.context = ctx.outgoing.context :=
  Chain.before_keepsContext (fun h mem => keeps h (e.links_handlers_subset ctx mem)) ctx

end Engine

end Call

namespace Gateway

variable {σ : Type} {engine : Call.Engine σ} {requestId : String} {r : Inbound}

/-- What is sent for a request is the request of its call. -/
theorem message_of_dispatch {events : List (Event (Call.Note σ) Call.Context)} {state : Call.Context}
    {message : Wire.Message} {next : Option Fault → Call.Attempt σ Envelope}
    (sends : Leads (dispatch engine requestId r) events (.ask state (.send message) next))
    {context : String} (has : r.contextText requestId = .ok context) :
    message = (engine.briefed (r.call requestId context)).request engine.config := by
  obtain ⟨events, envelope, run, mem⟩ := exists_runs_of_leads sends none
  by_cases blank : r.IsBlank
  case pos =>
    rw [dispatch_of_blank blank] at run
    obtain ⟨rfl, -⟩ := runs_finish.mp run
    cases mem
  case neg =>
    obtain ⟨told, final, run, -⟩ := (runs_dispatch blank has).mp run
    exact Call.Engine.message_of_runs run mem

theorem defaultMembers_texts (requestId : String) (token : Option String) :
    ∀ member ∈ defaultMembers requestId token, ∃ s, member.2 = .text s := by
  intro member mem
  unfold defaultMembers at mem
  cases token with
  | none =>
    obtain rfl := List.mem_singleton.mp mem
    exact ⟨requestId, rfl⟩
  | some token =>
    rcases List.mem_cons.mp mem with rfl | mem
    · exact ⟨requestId, rfl⟩
    · obtain rfl := List.mem_singleton.mp mem
      exact ⟨token, rfl⟩

/-- In the order of their keys the token comes first. -/
theorem ofList_defaultMembers (requestId : String) (token : Option String) :
    Json.Members.ofList (defaultMembers requestId token) =
      (token.map fun t => ("bearer", Json.Value.text t)).toList ++ [("requestId", .text requestId)] := by
  unfold Json.Members.ofList defaultMembers
  cases token with
  | none =>
    rw [Option.map_none, Option.toList_none, List.mergeSort_singleton]
    rfl
  | some token =>
    have sorted (id bearer : Json.Value) :
        [("requestId", id), ("bearer", bearer)].mergeSort (fun a b => a.1 ≤ b.1) =
          [("bearer", bearer), ("requestId", id)] := by
      simp [List.mergeSort, List.MergeSort.Internal.splitInTwo]
    rw [Option.map_some, Option.toList_some, sorted]
    rfl

theorem length_requestId (n : Nat) : (Call.requestId n).length = 32 := by
  simp [Call.requestId, Bytes.hex, Bytes.hexByte]

theorem requestId_ne_empty (n : Nat) : Call.requestId n ≠ "" := by
  intro empty
  have length := length_requestId n
  rw [empty] at length
  cases length

theorem render_ne_empty (held : Json.Members) : (Json.Value.object held).render ≠ "" := by
  intro empty
  have chars := congrArg String.toList empty
  rw [Json.Value.render, String.toList_ofList] at chars
  cases chars

/-- Whatever is sent for a request without a context, if no handler changes the context: the peer reads from
the message a context that is the text of an object, whose members are the id of the request, which the
message also names by itself, and the token, just if there is one. No other member is in it, and none is
there twice, however the token is worded. -/
theorem dispatch_context (keeps : Call.Registry.KeepsContext engine.handlers) (bare : r.context = none)
    (n : Nat) {events : List (Event (Call.Note σ) Call.Context)} {state : Call.Context}
    {message : Wire.Message} {next : Option Fault → Call.Attempt σ Envelope}
    (sends : Leads (dispatch engine (Call.requestId n) r) events (.ask state (.send message) next)) :
    ∃ decoded text, Wire.decodeRequest message = .ok decoded ∧
      decoded.text? .requestId = some (Call.requestId n) ∧ decoded.text? .context = some text ∧
      Json.decode (.objectOf (.members .value)) text = .ok (defaultMembers (Call.requestId n) r.token) ∧
      Json.decode .value text = .ok (.object ((r.token.map fun t => ("bearer", .text t)).toList ++
        [("requestId", .text (Call.requestId n))])) := by
  let text := (Json.Value.object (defaultMembers (Call.requestId n) r.token)).render
  have has : r.contextText (Call.requestId n) = .ok text := by
    unfold Inbound.contextText
    rw [bare]
    exact defaultContext_eq (Call.requestId n) r.token
  obtain rfl := message_of_dispatch sends has
  let ctx := r.call (Call.requestId n) text
  obtain ⟨decoded, read, conveys⟩ := Call.decodeRequest_request (engine.briefed ctx) engine.config
  obtain ⟨outgoing, briefed⟩ := engine.briefed_eq ctx
  have named : (engine.briefed ctx).requestId = Call.requestId n := by
    rw [briefed]
    rfl
  have kept : (engine.briefed ctx).outgoing.context = some text :=
    Call.Engine.briefed_context keeps ctx
  have id := conveys.text .requestId (some (engine.briefed ctx).requestId) (.tail _ (.head _))
  have context := conveys.text .context (engine.briefed ctx).outgoing.context
    (.tail _ (.tail _ (.head _)))
  rw [named] at id
  rw [kept] at context
  obtain ⟨members, value⟩ := Json.Reader.decode_texts (defaultMembers_texts (Call.requestId n) r.token)
  rw [ofList_defaultMembers] at value
  refine ⟨decoded, text, read, ?_, ?_, members, value⟩
  · simpa [Option.filter, requestId_ne_empty] using id
  · simpa [Option.filter, text, render_ne_empty] using context

/-- A token that looks like the end of its own text and another id is a token all the same, and a handler
that marks the argument does no harm to it. -/
theorem dispatch_context_hostile :
    let engine : Call.Engine Unit := ⟨{}, [Call.Engine.marking]⟩
    let token := "\",\"requestId\":\"2\"\x7d\x00\x7b"
    let r : Inbound := { station := "orders", command := "get", token := some token }
    ∃ events state message next,
      Leads (dispatch engine (Call.requestId 7) r) events (.ask state (.send message) next) ∧
      ∃ decoded text, Wire.decodeRequest message = .ok decoded ∧
        decoded.text? .context = some text ∧
        Json.decode .value text = .ok (.object [("bearer", .text token),
          ("requestId", .text (Call.requestId 7))]) := by
  intro engine token r
  have keeps : Call.Registry.KeepsContext engine.handlers := by
    intro h mem state ctx
    obtain rfl := List.mem_singleton.mp mem
    rfl
  have filled : ¬ r.IsBlank := mt Inbound.isBlank_iff.mp (by decide)
  have has : r.contextText (Call.requestId 7) = .ok _ := defaultContext_eq (Call.requestId 7) r.token
  obtain ⟨events, state, message, next, sends⟩ : ∃ events state message next,
      Leads (dispatch engine (Call.requestId 7) r) events (.ask state (.send message) next) := by
    rw [dispatch_eq filled has]
    exact ⟨_, _, _, _, .note _ (.note _ (.ask _ _ (Opened.line "10.0.0.1:9000") (.here _)))⟩
  obtain ⟨decoded, text, read, -, context, -, value⟩ := dispatch_context keeps rfl 7 sends
  exact ⟨events, state, message, next, sends, decoded, text, read, context, value⟩

end Gateway

end Switchboard
