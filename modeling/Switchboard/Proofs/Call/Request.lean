import Switchboard.Proofs.Call.Course
import Switchboard.Proofs.Text.Utf8
import Switchboard.Proofs.Wire.RoundTrip
import Switchboard.Proofs.Wire.Streaming

/-!
# What the peer reads of a request

A call sends what its caller and the first hooks have set. The peer gets it back from the bytes of the
request, cut in whatever way: every text stands under the tag of its slot (`Context.texts`), and an
empty or an absent one is no text.
-/

namespace Switchboard

namespace Wire.Decoded

/-- A frame that is not empty is read as text. -/
theorem text?_eq {m : Decoded} {tag : Tag} {frame : Bytes} (found : m.get? tag = some frame) :
    m.text? tag = if frame = [] then none else some (Utf8.lossy frame) := by
  cases frame <;> simp [text?, found]

/-- The frame of a text is read as the text, unless it is empty. -/
theorem text?_of_encode {m : Decoded} {tag : Tag} {text : Option String}
    (found : m.get? tag = some ((text.map Utf8.encode).getD [])) :
    m.text? tag = text.filter (· ≠ "") := by
  rw [text?_eq found]
  cases text with
  | none => rfl
  | some text => by_cases empty : text = "" <;> simp [Utf8.encode_eq_nil, Option.filter, empty]

end Wire.Decoded

namespace Call

open Dialogue Event Wire

variable {σ : Type}

/-- The texts of a request, each under the tag of its slot. -/
def Context.texts (ctx : Context) (config : Config) : List (Tag × Option String) :=
  [(.command, some ctx.command),
    (.requestId, some ctx.requestId),
    (.context, ctx.outgoing.context),
    (.argument, ctx.outgoing.argument),
    (.textContent, ctx.outgoing.extended),
    (.requester, some config.stationName),
    (.responser, some config.routeName),
    (.callId, ctx.outgoing.caller),
    (.serviceKey, some config.serviceKey)]

/-- The slots of a request hold the title, as it is, and the texts. -/
theorem Context.zip_values (ctx : Context) (config : Config) :
    Descriptor.generalCall.slots.zip (ctx.values config) =
      (.pubTitle, ctx.title) :: (ctx.texts config).map fun (tag, text) =>
        (tag, text.map Utf8.encode) :=
  rfl

/-- The message says what the context and the configuration say. -/
structure Conveys (m : Decoded) (ctx : Context) (config : Config) : Prop where
  group : m.group? = some .general
  title : m.get? .pubTitle = some (ctx.title.getD [])
  titleText : m.text? .pubTitle = (ctx.title.filter (· ≠ [])).map Utf8.lossy
  frame : ∀ tag text, (tag, text) ∈ ctx.texts config →
    m.get? tag = some ((text.map Utf8.encode).getD [])
  /-- A text is read just if it is there and not empty. -/
  text : ∀ tag text, (tag, text) ∈ ctx.texts config → m.text? tag = text.filter (· ≠ "")
  otherwise : ∀ tag ∉ Descriptor.generalCall.slots, m.get? tag = none
  extras : m.extras = []

/-- A request is read as it was made. -/
theorem decodeRequest_request (ctx : Context) (config : Config) :
    ∃ decoded, decodeRequest (ctx.request config) = .ok decoded ∧ Conveys decoded ctx config := by
  have proper := Descriptor.proper_ofGroup .general
  obtain ⟨decoded, read, carries⟩ : ∃ decoded,
      decodeGoverned .generalCall (ctx.request config) = .ok decoded ∧
        decoded.Carries .generalCall (ctx.values config) :=
    decodeGoverned_fill proper rfl
  have zip := ctx.zip_values config
  have frame (tag : Tag) (text : Option String) (mem : (tag, text) ∈ ctx.texts config) :
      decoded.get? tag = some ((text.map Utf8.encode).getD []) := by
    refine carries.get?_of_mem proper.distinct (zip ▸ List.mem_cons_of_mem _ ?_)
    exact List.mem_map.mpr ⟨(tag, text), mem, rfl⟩
  have title : decoded.get? .pubTitle = some (ctx.title.getD []) :=
    carries.get?_of_mem proper.distinct (zip ▸ List.mem_cons_self)
  refine ⟨decoded, (decodeRequest_fill .general rfl).trans read, ?_⟩
  exact {
    group := carries.group
    title
    titleText := by
      rw [Decoded.text?_eq title]
      cases ctx.title with
      | none => rfl
      | some raw => by_cases empty : raw = [] <;> simp [Option.filter, empty]
    frame
    text := fun tag text mem => Decoded.text?_of_encode (frame tag text mem)
    otherwise := carries.otherwise
    extras := carries.extras }

namespace Engine

/-- What a call sends in its course is the request made after the first hooks have run. -/
theorem message_of_runs {e : Engine σ} {ctx final : Context} {envelope : Envelope} {message : Message}
    {fault? : Option Fault} {events : List (Event (Note σ) Context)}
    (run : Runs (e.call ctx) events (envelope, final))
    (mem : .ask (.send message) fault? ∈ deeds events) :
    message = (e.briefed ctx).request e.config := by
  obtain ⟨-, replies, failure, course, -⟩ := call_course run
  exact course.message_eq mem

/-- What a call comes to send is that request too. -/
theorem message_of_call {e : Engine σ} {ctx state : Context} {message : Message}
    {events : List (Event (Note σ) Context)}
    {next : Option Fault → Attempt σ (Envelope × Context)}
    (sends : Leads (e.call ctx) events (.ask state (.send message) next)) :
    message = (e.briefed ctx).request e.config := by
  obtain ⟨events, ⟨envelope, final⟩, run, mem⟩ := exists_runs_of_leads sends none
  exact message_of_runs run mem

theorem request_ne_nil (ctx : Context) (config : Config) : ctx.request config ≠ [] :=
  List.cons_ne_nil _ _

/-- Whatever handlers there are and however their first hooks end, whatever message a call comes to
send: if its frames are within the limit of the peer, then the bytes of the message, cut into chunks in
any way, give the peer this one message, and it is read as a request that says what the context says
once the first hooks have run. -/
theorem call_conveys (e : Engine σ) (ctx : Context) {state : Context} {message : Message}
    {events : List (Event (Note σ) Context)}
    {next : Option Fault → Attempt σ (Envelope × Context)}
    (sends : Leads (e.call ctx) events (.ask state (.send message) next))
    (limit : UInt32) (fits : ∀ frame ∈ message, frame.length ≤ limit.toNat)
    (chunks : List Bytes) (cut : chunks.flatten = message.layout) :
    ∃ deliveries last decoded,
      Buffer.pushAll { limit := limit.toNat } chunks = .ok (deliveries, last) ∧
      deliveries.flatten = [message] ∧
      decodeRequest message = .ok decoded ∧ Conveys decoded (e.briefed ctx) e.config := by
  obtain rfl := message_of_call sends
  obtain ⟨decoded, read, conveys⟩ := decodeRequest_request (e.briefed ctx) e.config
  have admissible : Admissible limit.toNat [(e.briefed ctx).request e.config] :=
    ⟨limit.toNat_lt_size, by simp [request_ne_nil], by simpa using fits⟩
  have stream : chunks.flatten = layouts [(e.briefed ctx).request e.config] := by simp [cut]
  obtain ⟨deliveries, last, pushes, delivered, -⟩ := Buffer.pushAll_delivers admissible stream
  exact ⟨deliveries, last, decoded, pushes, delivered, read, conveys⟩

/-- A handler whose first hook marks the argument, names a caller, and then panics. -/
def marking : Handler Unit where
  name := "marking"
  create := .ok ()
  before _ ctx :=
    { state := ()
      result := { ctx.outgoing with
        argument := ctx.outgoing.argument.map (· ++ "!"), caller := some "é" }
      mishap := some (.panic ⟨none⟩) }
  after _ _ := ⟨(), (), none⟩

/-- What a hook has set before it panicked is read, in a request whose bytes come in two pieces. -/
theorem call_conveys_marked :
    let e : Engine Unit := ⟨{}, [marking]⟩
    let ctx : Context :=
      { station := "orders", command := "get", requestId := "1", title := some [7, 0]
        outgoing := { argument := some "cup" } }
    let message := (e.briefed ctx).request e.config
    ∃ decoded, decodeRequest message = .ok decoded ∧ decoded.get? .pubTitle = some [7, 0] ∧
      decoded.text? .argument = some "cup!" ∧ decoded.text? .callId = some "é" ∧
      decoded.text? .context = none := by
  intro e ctx message
  let bytes := message.layout
  have sends : Leads (e.call ctx) _ (.ask _ (.send message) _) :=
    .note _ (.note _ (.ask _ _ (Opened.line "10.0.0.1:9000") (.here _)))
  obtain ⟨-, -, decoded, -, -, read, conveys⟩ :=
    call_conveys e ctx sends 13 (by decide) [bytes.take 20, bytes.drop 20] (by simp [bytes])
  have text := conveys.text
  exact ⟨decoded, read, conveys.title, text .argument (some "cup!") (by decide),
    text .callId (some "é") (by decide), text .context none (by decide)⟩

end Engine

end Call

end Switchboard
