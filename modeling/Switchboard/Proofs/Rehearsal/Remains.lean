import Switchboard.Proofs.Pool.Ownership
import Switchboard.Proofs.Rehearsal.Conversation

/-!
# What an attempt leaves on its line

A reply does not say which message it answers: an attempt takes the messages on its line as they come,
and a line on which all went well goes back to the pool with whatever else was read. So the next
attempt may find a reply that was meant for an earlier one. `Yields` says what receiving does to a line,
`Books` keeps track of the line of an attempt from where it comes from, and `converse_leaves` says what
is on it when it goes back.
-/

namespace Switchboard.Rehearsal

open Pool Traffic Wire

variable {σ : Type}

namespace Line

/-- What becomes of a line while some receives on it are answered. -/
structure Yields (before : Line) (receipts : List Received) (after : Line) : Prop where
  /-- As long as they bring messages, the books are in order. -/
  account : ∀ messages : List Message, receipts = messages.map .message →
    ∃ read delivered, Account before read delivered messages after
  /-- The first one brings the first message that was ready. -/
  first : ∀ m ∈ before.ready.head?, ∀ r ∈ receipts.head?, r = .message m

theorem Yields.refl (l : Line) : Yields l [] l where
  account messages none := by
    obtain rfl := List.map_eq_nil_iff.mp none.symm
    exact ⟨[], [], .refl l⟩
  first _ _ r head := by cases head

theorem Yields.send {before l : Line} {receipts : List Received}
    (yields : Yields before receipts l) (p : Patience) (m : Message) (now : Nat) :
    Yields before receipts (l.send p m now).line where
  account messages same := by
    obtain ⟨read, delivered, account⟩ := yields.account messages same
    have account := account.trans (account_send p l m now)
    simp only [List.append_nil] at account
    exact ⟨read, delivered, account⟩
  first := yields.first

/-- As long as nothing was received, what was ready is ready. -/
theorem Yields.ready_of_nil {before l : Line} (yields : Yields before [] l) {m : Message}
    (first : before.ready.head? = some m) : ∃ rest, l.ready = m :: rest := by
  obtain ⟨read, delivered, account⟩ := yields.account [] rfl
  obtain ⟨rest, ready⟩ := List.head?_eq_some_iff.mp first
  have queue := account.queue
  rw [ready] at queue
  exact ⟨rest ++ delivered, queue.symm⟩

theorem Yields.receive {before l after : Line} {receipts : List Received}
    (yields : Yields before receipts l) {p : Patience} {now later : Nat}
    {wait : Wait (Except Fault Message)} (came : l.receive p now = (wait, after, later))
    {received : Received} (same : ∀ m, received = .message m ↔ wait = .done (.ok m)) :
    Yields before (receipts ++ [received]) after where
  account messages all := by
    obtain ⟨sofar, last, rfl, rfl, brought⟩ := List.map_eq_append_iff.mp all.symm
    obtain ⟨m, rfl, message⟩ := List.map_eq_singleton_iff.mp brought
    obtain rfl := (same m).mp message.symm
    obtain ⟨read, delivered, account⟩ := yields.account sofar rfl
    obtain ⟨read', delivered', one⟩ := account_receive came
    exact ⟨_, _, account.trans one⟩
  first m first r head := by
    cases receipts with
    | cons r' others => exact yields.first m first r head
    | nil =>
      obtain ⟨rest, ready⟩ := yields.ready_of_nil first
      obtain rfl : received = r := Option.some.inj head
      rw [receive_of_ready p now ready] at came
      exact (same m).mpr (Prod.mk.inj came).1.symm

end Line

/-- The line that an attempt on a pool uses under some identity: one that was idle, or a new one. -/
inductive Origin (s : Setting) (p : Pool Line) : Identity → Line → Prop
  | idle {station : String} {i : Idle Line} (mem : i ∈ (p.sockets station).idle) :
      Origin s p (i.identity station) i.socket
  | opened (station endpoint : String) {line : Line} (made : s.lines line) :
      Origin s p ⟨p.nextId, station, endpoint⟩ line

/-- Every idle socket was idle before. -/
def NoneAdded (p₀ p : Pool Line) : Prop :=
  ∀ station, (p.sockets station).idle ⊆ (p₀.sockets station).idle

theorem NoneAdded.freeSlot {p₀ p : Pool Line} (none : NoneAdded p₀ p) (station : String) :
    NoneAdded p₀ (p.freeSlot station) := by
  intro name
  rw [Pool.freeSlot, sockets_update]
  split
  · next same => exact same ▸ none station
  · exact none name

/-- What is known of the line of an attempt after some deeds. -/
structure Books (s : Setting) (p₀ p : Pool Line) (held : Option (Lease Line))
    (deeds : List Deed) : Prop where
  /-- Before the first deed the pool is as the attempt has found it. -/
  untouched : deeds = [] → p = p₀
  idle : NoneAdded p₀ p
  /-- The line that is held comes from somewhere, and was only sent and received on since. -/
  line : ∀ l, held = some l →
    ∃ before, Origin s p₀ l.identity before ∧ before.Yields (Deed.receipts deeds) l.socket

theorem Books.start (s : Setting) (p : Pool Line) : Books s p p none [] where
  untouched _ := rfl
  idle _ := List.Subset.refl _
  line := nofun

/-- A line that is discarded is no other line. -/
theorem Books.discard {s : Setting} {p₀ p : Pool Line} {held : Option (Lease Line)}
    {deeds : List Deed} (books : Books s p₀ p held deeds) :
    Books s p₀ p (held.map ({ · with unhealthy := true })) (deeds ++ [.discard]) where
  untouched := by simp
  idle := books.idle
  line l leased := by
    obtain ⟨l, same, rfl⟩ := Option.map_eq_some_iff.mp leased
    obtain ⟨before, origin, yields⟩ := books.line l same
    exact ⟨before, origin, by simpa [Deed.receipts] using yields⟩

/-- Serving a request keeps the books. An attempt that is given up does not leave its line. -/
def Booked (s : Setting) (p₀ : Pool Line) (deeds : List Deed) (request : Request) :
    Option request.Answer × Option (Lease Line) → Pool Line → Prop
  | (some answer, held), p => Books s p₀ p held (deeds ++ [.ask request answer])
  | (none, held), p => NoneAdded p₀ p ∧ ∀ l, held = some l → l.isUnfit = true

section Serving

variable {s : Setting} {p₀ p : Pool Line} {deeds : List Deed} {l : Lease Line}

/-- A send or a receive was answered. -/
theorem Books.answered (books : Books s p₀ p (some l) deeds) (socket : Line) (inFlight : Bool)
    (request : Request) (answer : request.Answer)
    (yields : ∀ before : Line, before.Yields (Deed.receipts deeds) l.socket →
      before.Yields (Deed.receipts (deeds ++ [.ask request answer])) socket) :
    Booked s p₀ deeds request (some answer, some { l with socket, inFlight }) p where
  untouched := by simp
  idle := books.idle
  line l' leased := by
    obtain rfl := Option.some.inj leased
    obtain ⟨before, origin, sofar⟩ := books.line l rfl
    exact ⟨before, origin, yields before sofar⟩

/-- An attempt was given up in the middle of a send or a receive. -/
theorem Books.abandoned (books : Books s p₀ p (some l) deeds) (socket : Line)
    (request : Request) :
    Booked s p₀ deeds request (none, some { l with socket, inFlight := true }) p := by
  refine ⟨books.idle, ?_⟩
  rintro l' ⟨⟩
  exact Bool.or_true _

theorem serve_open_booked (giveUp : Option Nat) (station affinity : String) (limit : Nat)
    (s : Setting) (p : Pool Line) :
    Ensures s p (serve (σ := σ) giveUp none (.open station affinity limit))
      (Booked s p [] (.open station affinity limit)) := by
  have unserved {p' : Pool Line} (idle : NoneAdded p p') (opened : Opened) :
      Booked s p [] (.open station affinity limit) (some opened, none) p' := ⟨nofun, idle, nofun⟩
  refine (calm_pure _).ensures fun _ => ensures_get fun w _ _ => ?_
  refine (lease_obtained _ station affinity s p).bind fun wait p' obtained => ?_
  cases obtained with
  | unserved nobody => exact ensures_pure (unserved (fun _ => List.Subset.refl _) _)
  | refused admitted grant =>
    obtain ⟨idle, -, -⟩ := admission_idle admitted
    exact ensures_pure (unserved idle _)
  | reused admitted grant =>
    obtain ⟨idle, -, handed⟩ := admission_idle admitted
    refine ensures_pure ⟨nofun, idle, ?_⟩
    rintro l ⟨⟩
    exact ⟨_, .idle (handed _ grant), .refl _⟩
  | @connected a admitted grant line made =>
    obtain ⟨idle, number, -⟩ := admission_idle admitted
    refine ensures_pure ⟨nofun, idle, ?_⟩
    rintro l ⟨⟩
    refine ⟨line, ?_, .refl _⟩
    have origin := Origin.opened (p := p) station a.preferred made
    rw [← number] at origin
    exact origin
  | unconnected admitted grant nothing =>
    obtain ⟨idle, -, -⟩ := admission_idle admitted
    have idle := NoneAdded.freeSlot idle station
    rcases nothing with rfl | rfl | rfl
    · exact ensures_pure (unserved idle _)
    · exact ensures_pure (unserved idle _)
    · exact ensures_pure ⟨idle, nofun⟩

theorem serve_send_booked (books : Books s p₀ p (some l) deeds) (giveUp : Option Nat)
    (message : Message) :
    Ensures s p (serve (σ := σ) giveUp (some l) (.send message))
      (Booked s p₀ deeds (.send message)) := by
  refine (send_ensures _ l message s p).bind fun (result, l') p' used => ?_
  obtain ⟨rfl, ⟨socket, inFlight, same, landed⟩, now, sent⟩ := used
  obtain rfl : l' = { l with socket, inFlight } := same
  obtain rfl : socket = _ := sent
  cases result with
  | done fault? =>
    refine ensures_pure (books.answered _ inFlight (.send message) fault? ?_)
    intro before yields
    simpa [Deed.receipts] using yields.send _ message now
  | late | abandoned =>
    obtain rfl : inFlight = true := by simpa using landed
    exact ensures_pure (books.abandoned _ _)

theorem serve_receive_booked (books : Books s p₀ p (some l) deeds) (giveUp : Option Nat)
    (limit : Nat) :
    Ensures s p (serve (σ := σ) giveUp (some l) (.receive limit))
      (Booked s p₀ deeds (.receive limit)) := by
  refine ensures_get fun w _ _ => ?_
  refine (receive_ensures _ l s p).bind fun (result, l') p' used => ?_
  obtain ⟨rfl, ⟨socket, inFlight, same, landed⟩, now, later, came⟩ := used
  obtain rfl : l' = { l with socket, inFlight } := same
  have booked (received : Received) (same : ∀ m, received = .message m ↔ result = .done (.ok m)) :
      Booked s p₀ deeds (.receive limit)
        (some received, some { l with socket, inFlight }) p' := by
    apply books.answered
    intro before yields
    simpa [Deed.receipts] using yields.receive came same
  rcases result with (fault | message) | _ | _
  · exact ensures_pure (booked (.fault fault) (by simp))
  · exact ensures_pure (booked (.message message) (by simp))
  · exact ensures_pure (booked .late (by simp))
  · obtain rfl : inFlight = true := by simpa using landed
    exact ensures_pure (books.abandoned _ _)

theorem serve_booked {held : Option (Lease Line)} (books : Books s p₀ p held deeds)
    {request : Request} (unopened : ∀ station affinity limit,
      request = .open station affinity limit → held = none ∧ deeds = [])
    (giveUp : Option Nat) :
    Ensures s p (serve (σ := σ) giveUp held request) (Booked s p₀ deeds request) := by
  cases request with
  | «open» station affinity limit =>
    obtain ⟨rfl, rfl⟩ := unopened station affinity limit rfl
    obtain rfl := books.untouched rfl
    exact serve_open_booked giveUp station affinity limit s p
  | send message =>
    cases held with
    | none => exact ensures_pure ⟨by simp, books.idle, nofun⟩
    | some l => exact serve_send_booked books giveUp message
  | receive limit =>
    cases held with
    | none => exact ensures_pure ⟨by simp, books.idle, nofun⟩
    | some l => exact serve_receive_booked books giveUp limit

end Serving

/-- The dialogue has come to that end in the course of some events. -/
def Ended.Follows {ν τ α : Type} (d : Dialogue ν τ α) (events : List (Event ν τ)) :
    Ended τ α → Prop
  | .finished result => d.Runs events result
  | .abandoned state => ∃ request next, d.Leads events (.ask state request next)

/-- What an attempt leaves in a pool after its deeds: it had no line, or it gives up its line, which
is idle then if all went well. -/
def Leaves (s : Setting) (p₀ : Pool Line) (deeds : List Deed) (p : Pool Line) : Prop :=
  (¬ Deed.HasLine deeds ∧ NoneAdded p₀ p) ∨
    ∃ identity before after, Origin s p₀ identity before ∧
      before.Yields (Deed.receipts deeds) after ∧
      ∀ station, ∀ i ∈ (p.sockets station).idle, i ∈ (p₀.sockets station).idle ∨
        (Deed.AllWell deeds ∧ i.identity station = identity ∧ i.socket = after)

/-- What is idle once a hold is given up was idle before, or is the socket of a fit lease. -/
theorem mem_idle_drop {p₀ p : Pool Line} (none : NoneAdded p₀ p) {held : Option (Lease Line)}
    {station : String} {i : Idle Line}
    (mem : i ∈ (((holding held).drop p).sockets station).idle) :
    i ∈ (p₀.sockets station).idle ∨ ∃ l, held = some l ∧ l.isUnfit = false ∧
      i.identity station = l.identity ∧ i.socket = l.socket := by
  cases held with
  | none => exact .inl (none station mem)
  | some l =>
    rw [holding] at mem
    cases fit : l.isUnfit with
    | true =>
      rw [Hold.drop_unfit p fit] at mem
      exact .inl (none.freeSlot l.station station mem)
    | false =>
      rw [Hold.drop_fit p fit, sockets_update] at mem
      split at mem
      · next same =>
        subst same
        rcases List.mem_append.mp mem with kept | given
        · exact .inl (none _ kept)
        · obtain rfl := List.mem_singleton.mp given
          exact .inr ⟨l, rfl, fit, rfl, rfl⟩
      · exact .inl (none _ mem)

/-- An attempt leaves what its books say, whether it holds a line or not. -/
theorem Books.leaves {s : Setting} {p₀ p p' : Pool Line} {a : Attempt σ Line} (sound : a.Sound)
    {held : Option (Lease Line)} (same : a.hold = holding held)
    (books : Books s p₀ p held (Event.deeds a.events))
    (idle : ∀ station, ∀ i ∈ (p'.sockets station).idle, i ∈ (p₀.sockets station).idle ∨
      ∃ l, held = some l ∧ Deed.AllWell (Event.deeds a.events) ∧
        i.identity station = l.identity ∧ i.socket = l.socket) :
    Leaves s p₀ (Event.deeds a.events) p' := by
  cases held with
  | none =>
    have unleased : ¬ Deed.HasLine (Event.deeds a.events) := by
      simpa [same, holding] using sound.leased
    refine .inl ⟨unleased, ?_⟩
    intro station i mem
    rcases idle station i mem with old | ⟨l, leased, -⟩
    · exact old
    · cases leased
  | some l =>
    obtain ⟨before, origin, yields⟩ := books.line l rfl
    refine .inr ⟨l.identity, before, l.socket, origin, yields, ?_⟩
    intro station i mem
    refine (idle station i mem).imp_right ?_
    rintro ⟨l, ⟨⟩, own⟩
    exact own

/-- By induction on what is left to do: every request that is served keeps the books, and at the end
they tell what is left. -/
theorem converseOn_leaves (giveUp : Option Nat) (s : Setting) {a : Attempt σ Line}
    (sound : a.Sound) {held : Option (Lease Line)} (same : a.hold = holding held)
    {p₀ p : Pool Line} (books : Books s p₀ p held (Event.deeds a.events)) :
    Ensures s p (converseOn giveUp held a.rest) fun ended p' =>
      ∃ events, ended.Follows a.task.dialogue events ∧ Leaves s p₀ (Event.deeds events) p' := by
  obtain ⟨task, rest, hold, events⟩ := a
  obtain rfl : hold = holding held := same
  induction rest generalizing held events p with
  | finish result =>
    refine (forM_release_ensures held s p).bind fun _ p' left => ensures_pure ?_
    refine ⟨events, sound.led, books.leaves sound rfl ?_⟩
    intro station i mem
    rw [left] at mem
    refine (mem_idle_drop books.idle mem).imp_right ?_
    rintro ⟨l, rfl, fit, own⟩
    exact ⟨l, rfl, (sound.fit_iff ⟨result, rfl⟩ rfl).mp fit, own⟩
  | note entry next ih =>
    refine (calm_enter _).ensures fun _ => ?_
    exact ih _ (sound.note rfl) (by simpa using books)
  | discard next ih =>
    have sound := sound.discard rfl
    dsimp only at sound
    rw [discarded_holding] at sound
    exact ih _ sound (by simpa using books.discard)
  | ask state request next ih =>
    let asks : Attempt.Asks ⟨task, .ask state request next, holding held, events⟩ request :=
      ⟨state, next, rfl⟩
    have unopened (station affinity : String) (limit : Nat)
        (opens : request = .open station affinity limit) :
        held = none ∧ Event.deeds events = [] := by
      subst opens
      exact ⟨held_eq_none_of_open sound asks rfl, sound.deeds_of_open asks⟩
    rw [converseOn]
    refine ((serve_ensures sound asks rfl giveUp s p).and
      (serve_booked books unopened giveUp)).bind fun answer p₁ both => ?_
    obtain ⟨answer?, held'⟩ := answer
    obtain ⟨served, booked⟩ := both
    cases answer? with
    | some answer =>
      have booked : Books s p₀ p₁ held'
          (Event.deeds (events ++ [.asked state request answer])) := by
        rw [Event.deeds_append]
        exact booked
      exact ih answer _ (Goes.sound served sound) booked
    | none =>
      obtain ⟨idle, unfit⟩ := booked
      refine (forM_release_ensures held' s p₁).bind fun _ p' released => ensures_pure ?_
      refine ⟨events, ⟨request, next, sound.led⟩, books.leaves sound rfl ?_⟩
      intro station i mem
      rw [released] at mem
      rcases mem_idle_drop idle mem with old | ⟨l, given, fit, -⟩
      · exact .inl old
      · rw [unfit l given] at fit
        cases fit

/-- Where all is well, receiving has brought nothing but messages. -/
theorem exists_messages_of_allWell {deeds : List Deed} (well : Deed.AllWell deeds) :
    ∃ messages : List Message, Deed.receipts deeds = messages.map .message := by
  have replies := well.2
  generalize Deed.receipts deeds = receipts at replies
  induction receipts with
  | nil => exact ⟨[], rfl⟩
  | cons received receipts ih =>
    obtain ⟨messages, rfl⟩ := ih fun r mem => replies r (.tail _ mem)
    have replied := replies received (.head _)
    cases received with
    | message m => exact ⟨m :: messages, rfl⟩
    | fault fault | late => cases replied

/-- What is on a line that goes back to the idle ones, in whatever pieces its bytes came. What was left
on it before and the bytes that the attempt has read, cut into messages, are what the attempt has
received followed by what is left on it now. So nothing is left just if all those messages were
received and the bytes end with the last of them. The first message that was left before is the first
one the attempt receives; if nothing was left, as on a new line, all that it receives it has read
itself. -/
theorem converse_leaves (abandon : Option Nat) (task : Traffic.Task σ) (w : World σ) :
    let run := (converse abandon task.dialogue).run w
    ∃ events, run.1.Follows task.dialogue events ∧
      ((¬ Deed.HasLine (Event.deeds events) ∧
          ∀ station, (run.2.pool.sockets station).idle ⊆ (w.pool.sockets station).idle) ∨
        ∃ identity before, Origin w.setting w.pool identity before ∧
          (∀ m ∈ before.ready.head?, ∀ r ∈ (Deed.receipts (Event.deeds events)).head?,
            r = .message m) ∧
          ∀ station, ∀ i ∈ (run.2.pool.sockets station).idle, i ∈ (w.pool.sockets station).idle ∨
            ∃ messages read delivered, i.identity station = identity ∧
              Deed.receipts (Event.deeds events) = messages.map .message ∧
              before.Account read delivered messages i.socket ∧
              (i.socket.IsClear ↔ before.ready ++ delivered = messages ∧
                before.buffer.unfinished ++ read = layouts delivered) ∧
              (before.IsClear ∨ w.Makes before → ∃ rest, read = layouts messages ++ rest)) := by
  intro run
  obtain ⟨-, events, follows, leaves⟩ := converseOn_leaves (abandon.map (w.now + ·)) w.setting
    (Attempt.sound_start task) rfl (Books.start w.setting w.pool) w w.in_setting rfl
  refine ⟨events, follows, leaves.imp id ?_⟩
  rintro ⟨identity, before, after, origin, yields, idle⟩
  refine ⟨identity, before, origin, yields.first, fun station i mem => ?_⟩
  refine (idle station i mem).imp_right ?_
  rintro ⟨well, own, rfl⟩
  obtain ⟨messages, received⟩ := exists_messages_of_allWell well
  obtain ⟨read, delivered, account⟩ := yields.account messages received
  refine ⟨messages, read, delivered, own, received, account, account.isClear_iff, ?_⟩
  intro fresh
  have clear : before.IsClear := fresh.elim id World.Makes.isClear
  exact ⟨_, account.received_of_isClear clear⟩

/-- The outcome of a call that was not given up. -/
def Ended.outcome? {τ : Type} : Ended τ (Envelope × Call.Context) → Option Outcome
  | .finished (_, ctx) => some ctx.outcome
  | .abandoned _ => none

/-- A world in which a station sends two replies at once, and nothing more. -/
def talkative : World Unit where
  frameLimit := 100
  directory := [("orders", ["10.0.0.1:9000"])]
  pool := { cap := 1 }
  scripts := [{ reads := [.bytes (layouts [[[0, 0x01, endByte]], [[0, 0x81, endByte]]])] }]

def order (requestId : String) : Traffic.Task Unit :=
  .call ⟨{}, []⟩ { station := "orders", command := "get", requestId }

/-- The second reply is left on the line of the first call, and the next call takes it for its own. -/
theorem converse_leaves_reply :
    let first := (converse none (order "1").dialogue).run talkative
    let second := (converse none (order "2").dialogue).run first.2
    first.1.outcome? = some .ok ∧
      (∃ i ∈ (first.2.pool.sockets "orders").idle,
        i.socket.ready = [[[0, 0x81, endByte]]] ∧ ¬ i.socket.IsClear ∧ i.socket.stream = []) ∧
      second.1.outcome? = some (.remote .error) := by
  decide +kernel

end Switchboard.Rehearsal
