import Switchboard.Proofs.Call.Report

/-!
# What a typed call returns

A typed call reads the payload of a success, and reads null if there is none. A success that only says how
far the call got has no payload, and so it is a value of every type that has a null (`callTyped_ok_iff`).
-/

namespace Switchboard.Call

open Dialogue Event

variable {σ α : Type}

/-- What a typed call returns for an envelope. -/
def reading (reader : Json.Reader α) (envelope : Envelope) : Except Envelope α :=
  if envelope.isSuccess then
    match Json.decode reader (envelope.payload.getD "null") with
    | .ok a => .ok a
    | .error flaw =>
      let text := "result payload did not decode: " ++ (Fault.json flaw).message
      .error (.failure .localException text envelope.origin)
  else .error envelope

theorem reading_eq_ok {reader : Json.Reader α} {envelope : Envelope} {a : α} :
    reading reader envelope = .ok a ↔
      envelope.code = .success ∧ Json.decode reader (envelope.payload.getD "null") = .ok a := by
  unfold reading
  split
  · next success =>
    have success : envelope.code = .success := of_decide_eq_true success
    split
    · next decoded => simp [success, decoded]
    · next decoded => simp [decoded]
  · next failed =>
    have failed : envelope.code ≠ .success := fun success => failed (decide_eq_true success)
    simp [failed]

/-- What is returned instead of a value is no success. -/
theorem code_of_reading_eq_error {reader : Json.Reader α} {envelope refused : Envelope}
    (h : reading reader envelope = .error refused) : refused.code ≠ .success := by
  unfold reading at h
  split at h
  · split at h
    · cases h
    · cases h
      simp [Envelope.failure]
  · next failed =>
    cases h
    exact fun success => failed (decide_eq_true success)

/-- The reply as a value: what its text says if the call is done, and null if it has only got so far. -/
def Yields (reader : Json.Reader α) (reply : Wire.Decoded) (a : α) : Prop :=
  reply.marker = 0x01 ∧ Json.decode reader ((reply.text? .jsonValue).getD "null") = .ok a ∨
    (0x02 ≤ reply.marker ∧ reply.marker ≤ 0x0A) ∧ Json.decode reader "null" = .ok a

theorem reading_eq_ok_iff_yields {reader : Json.Reader α} {envelope : Envelope}
    {reply : Wire.Decoded} (tells : envelope.Tells reply) {a : α} :
    reading reader envelope = .ok a ↔ Yields reader reply a := by
  rw [reading_eq_ok, tells.success, Outcome.first_ten, or_and_right]
  refine or_congr (and_congr_right fun done => ?_) (and_congr_right fun ⟨low, high⟩ => ?_)
  · rw [tells.payload done]
  · rw [(tells.state low high).2]
    rfl

namespace Engine

variable {e : Engine σ} {requestId station command : String} {argument : Except Json.Flaw String}
  {events : List (Event (Note σ) Context)}

theorem callTyped_eq (e : Engine σ) (reader : Json.Reader α) (requestId station command : String)
    (argument : Except Json.Flaw String) :
    e.callTyped reader requestId station command argument =
      (e.callJson requestId station command argument).bind fun envelope =>
        .finish (reading reader envelope) := by
  unfold callTyped
  rw [bind_eq]
  congr
  funext envelope
  unfold reading
  cases envelope.isSuccess with
  | false => rfl
  | true =>
    cases Json.decode reader (envelope.payload.getD "null") <;> rfl

/-- A call with an argument written as JSON has failed, or has an envelope that tells of the reply that
it received last. -/
theorem callJson_ending {envelope : Envelope}
    (run : Runs (e.callJson requestId station command argument) events envelope) :
    (∃ reply, Deed.result? (deeds events) = some reply ∧ envelope.Tells reply) ∨
    (Deed.result? (deeds events) = none ∧ envelope.code ≠ .success) := by
  unfold callJson at run
  cases argument with
  | error flaw =>
    simp only [notice, bind_eq, tell_bind, pure_eq, runs_note, runs_finish] at run
    obtain ⟨_, rfl, rfl, rfl⟩ := run
    exact .inr ⟨rfl, by simp [Envelope.failure]⟩
  | ok text =>
    simp only [bind_eq, pure_eq, runs_bind, runs_finish] at run
    obtain ⟨events, ⟨envelope, final⟩, _, rfl, run, rfl, rfl⟩ := run
    rw [List.append_nil]
    cases call_ending ⟨rfl, rfl⟩ run with
    | completed course result phase outcome tells => exact .inl ⟨_, result, tells⟩
    | failed course unread phase code => exact .inr ⟨unread, code⟩

/-- Whatever is answered to a typed call, it returns a value just if its last receive has brought a reply
that yields one, and what it returns instead is no success. -/
theorem callTyped_ok_iff (e : Engine σ) (reader : Json.Reader α)
    (requestId station command : String) (argument : Except Json.Flaw String)
    (respond : List (Event (Note σ) Context) → (request : Request) → request.Answer) :
    let (events, returned) :=
      play respond [] (e.callTyped reader requestId station command argument)
    (∀ a, returned = .ok a ↔
      ∃ reply, Deed.result? (deeds events) = some reply ∧ Yields reader reply a) ∧
    ∀ envelope, returned = .error envelope → envelope.code ≠ .success := by
  rw [callTyped_eq]
  have run := runs_play respond []
    ((e.callJson requestId station command argument).bind fun envelope =>
      .finish (reading reader envelope))
  generalize play respond [] _ = played at run ⊢
  obtain ⟨events, returned⟩ := played
  simp only [runs_bind, runs_finish] at run
  obtain ⟨events, envelope, _, rfl, run, rfl, rfl⟩ := run
  refine ⟨fun a => ?_, fun _ => code_of_reading_eq_error⟩
  rw [List.append_nil]
  obtain ⟨reply, result, tells⟩ | ⟨unread, failed⟩ := callJson_ending run
  · simp [reading_eq_ok_iff_yields tells, result]
  · simp [reading_eq_ok, failed, unread]

/-- A call that was only queued has a value if there is a null of its type. -/
theorem callTyped_of_queued :
    let reader := Json.Reader.optional (Json.Reader.integer (.signed 64))
    let (events, returned) :=
      play (Desk.saying 0x02) [] (Desk.plainEngine.callTyped reader "1" "orders" "get" (.ok "null"))
    (Deed.result? (deeds events)).map (·.marker) = some 0x02 ∧ returned = .ok none :=
  ⟨rfl, rfl⟩

end Engine

end Switchboard.Call
