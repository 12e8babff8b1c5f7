import Switchboard.Proofs.Rehearsal.Stages
import Switchboard.Proofs.Traffic.Fate

/-!
# Rehearsals are traffic

A rehearsal runs one attempt at a time, and gives it up at a moment of its clock. Whatever its scripts
are, what it does to the pool is what traffic may do: `converse_traffic` follows a whole rehearsal step
by step.
-/

namespace Switchboard.Rehearsal

open Pool Traffic Relation

variable {σ : Type}

/-- What an attempt holds whose line is leased, or that has none yet. -/
def holding : Option (Lease Line) → Hold Line
  | none => .nothing
  | some l => .lease l

theorem discarded_holding (held : Option (Lease Line)) :
    discarded (holding held) = holding (held.map ({ · with unhealthy := true })) := by
  cases held <;> rfl

/-- An attempt moves on by itself. -/
def Goes (d : Directory) : Pool Line × Attempt σ Line → Pool Line × Attempt σ Line → Prop :=
  ReflTransGen fun x y => Move d x.1 x.2 y.1 y.2

theorem Goes.move {d : Directory} {x : Pool Line × Attempt σ Line} {p p' : Pool Line}
    {a a' : Attempt σ Line} (goes : Goes d x (p, a)) (move : Move d p a p' a') :
    Goes d x (p', a') :=
  goes.tail move

theorem Goes.step {d : Directory} {x y : Pool Line × Attempt σ Line} (goes : Goes d x y)
    (others : Multiset (Attempt σ Line)) :
    ReflTransGen Step ⟨d, x.1, x.2 ::ₘ others⟩ ⟨d, y.1, y.2 ::ₘ others⟩ := by
  induction goes with
  | refl => exact .refl
  | tail _ move ih => exact ih.tail (.move others move)

theorem Goes.sound {d : Directory} {x y : Pool Line × Attempt σ Line} (goes : Goes d x y)
    (sound : x.2.Sound) : y.2.Sound := by
  induction goes with
  | refl => exact sound
  | tail _ move ih => exact ih.move move

section Serving

variable {a : Attempt σ Line} {s : Setting} {p : Pool Line}

/-- It does not matter to a request what is held. -/
def rehold {request : Request} (asks : a.Asks request) (hold : Hold Line) :
    { a with hold }.Asks request :=
  ⟨asks.state, asks.next, asks.waits⟩

/-- What becomes of an attempt whose request was served: it goes on with the answer, or it is given up
where it may be. -/
def Served (d : Directory) (p : Pool Line) {request : Request} (asks : a.Asks request) :
    Option request.Answer × Option (Lease Line) → Pool Line → Prop
  | (some answer, held), p' => Goes d (p, a) (p', asks.answer answer (holding held))
  | (none, held), p' => ∃ p₁ a₁, Goes d (p, a) (p₁, a₁) ∧ a₁.IsSuspended ∧
      a₁.hold.drop p₁ = (holding held).drop p'

theorem serve_open {station affinity : String} {limit : Nat}
    (asks : a.Asks (.open station affinity limit)) (empty : a.hold = .nothing)
    (giveUp : Option Nat) :
    Ensures s p (serve (σ := σ) giveUp none (.open station affinity limit))
      (Served s.directory p asks) := by
  refine (calm_pure _).ensures fun _ => ensures_get fun w _ _ => ?_
  refine (lease_obtained _ station affinity s p).bind fun wait p' obtained => ?_
  have inquired : Goes s.directory (p, a)
      (p, { a with hold := .inquiry s.directory station affinity }) :=
    .single (.inquire asks empty)
  cases obtained with
  | unserved nobody =>
    exact ensures_pure (inquired.move (.unserved (rehold asks _) rfl nobody))
  | refused admitted grant =>
    exact ensures_pure (inquired.move (.refused (rehold asks _) rfl admitted grant))
  | reused admitted grant =>
    exact ensures_pure (inquired.move (.reused (rehold asks _) rfl admitted grant))
  | @connected _ admitted grant line made =>
    have dialled := inquired.move (.dialled (rehold asks _) rfl admitted grant)
    exact ensures_pure (dialled.move (.connected line (rehold asks _) rfl))
  | unconnected admitted grant nothing =>
    have dialled := inquired.move (.dialled (rehold asks _) rfl admitted grant)
    rcases nothing with rfl | rfl | rfl
    · exact ensures_pure (dialled.move (.unconnected _ (rehold asks _) rfl (.inl rfl)))
    · exact ensures_pure (dialled.move (.unconnected _ (rehold asks _) rfl (.inr rfl)))
    · exact ensures_pure ⟨_, _, dialled, .inl ⟨_, _, rfl⟩, rfl⟩

theorem serve_send {message : Wire.Message} (asks : a.Asks (.send message)) {l : Lease Line}
    (leased : a.hold = .lease l) (giveUp : Option Nat) :
    Ensures s p (serve (σ := σ) giveUp (some l) (.send message)) (Served s.directory p asks) := by
  refine (send_ensures _ l message s p).bind fun (result, l') p' used => ?_
  obtain ⟨rfl, ⟨socket, inFlight, same, landed⟩, -⟩ := used
  obtain rfl : l' = { l with socket, inFlight } := same
  have begun : Goes s.directory (p', a)
      (p', { a with hold := .lease { l with socket, inFlight := true } }) :=
    .single (.begun socket asks leased)
  cases result with
  | done fault? =>
    obtain rfl : inFlight = fault?.isSome := by
      cases fault? <;> simpa using landed
    exact ensures_pure (begun.move
      (.sent (l := { l with socket, inFlight := true }) socket fault? (rehold asks _) rfl rfl))
  | late | abandoned =>
    obtain rfl : inFlight = true := by simpa using landed
    exact ensures_pure ⟨_, _, begun, .inr ⟨_, _, rfl, rfl, ⟨rehold asks _⟩⟩, rfl⟩

theorem serve_receive {limit : Nat} (asks : a.Asks (.receive limit)) {l : Lease Line}
    (leased : a.hold = .lease l) (giveUp : Option Nat) :
    Ensures s p (serve (σ := σ) giveUp (some l) (.receive limit)) (Served s.directory p asks) := by
  refine ensures_get fun w _ _ => ?_
  refine (receive_ensures _ l s p).bind fun (result, l') p' used => ?_
  obtain ⟨rfl, ⟨socket, inFlight, same, landed⟩, -⟩ := used
  obtain rfl : l' = { l with socket, inFlight } := same
  have begun : Goes s.directory (p', a)
      (p', { a with hold := .lease { l with socket, inFlight := true } }) :=
    .single (.begun socket asks leased)
  have received (received : Received) := begun.move
    (.received (l := { l with socket, inFlight := true }) socket received (rehold asks _) rfl rfl)
  rcases result with (fault | message) | _ | _
  · obtain rfl : inFlight = true := by simpa using landed
    exact ensures_pure (received (.fault fault))
  · obtain rfl : inFlight = false := by simpa using landed
    exact ensures_pure (received (.message message))
  · obtain rfl : inFlight = true := by simpa using landed
    exact ensures_pure (received .late)
  · obtain rfl : inFlight = true := by simpa using landed
    exact ensures_pure ⟨_, _, begun, .inr ⟨_, _, rfl, rfl, ⟨rehold asks _⟩⟩, rfl⟩

end Serving

/-- The attempt moves on by itself to where it may end, and leaves that pool when it does. -/
def Departs (d : Directory) (p : Pool Line) (a : Attempt σ Line) (p' : Pool Line) : Prop :=
  ∃ p₁ a₁, Goes d (p, a) (p₁, a₁) ∧ a₁.IsOver ∧ a₁.hold.drop p₁ = p'

theorem Departs.of_goes {d : Directory} {p p₁ p' : Pool Line} {a a₁ : Attempt σ Line}
    (goes : Goes d (p, a) (p₁, a₁)) (departs : Departs d p₁ a₁ p') : Departs d p a p' := by
  obtain ⟨p₂, a₂, goes', atEnd, left⟩ := departs
  exact ⟨p₂, a₂, goes.trans goes', atEnd, left⟩

theorem Departs.steps {d : Directory} {p p' : Pool Line} {a : Attempt σ Line}
    (departs : Departs d p a p') (others : Multiset (Attempt σ Line)) :
    ReflTransGen Step ⟨d, p, a ::ₘ others⟩ ⟨d, p', others⟩ := by
  obtain ⟨p₁, a₁, goes, atEnd, rfl⟩ := departs
  exact (goes.step others).tail (.leave a₁ (.ended d p₁ others atEnd))

theorem forM_release_ensures (held : Option (Lease Line)) (s : Setting) (p : Pool Line) :
    Ensures s p (held.forM release : Stage σ PUnit) fun _ p' => p' = (holding held).drop p := by
  cases held with
  | none => exact calm_pure _ _ _
  | some l => exact release_ensures l s p

/-- A line is opened while none is held. -/
theorem held_eq_none_of_open {a : Attempt σ Line} (sound : a.Sound) {station affinity : String}
    {limit : Nat} (asks : a.Asks (.open station affinity limit)) {held : Option (Lease Line)}
    (same : a.hold = holding held) : held = none := by
  cases held with
  | none => rfl
  | some l =>
    have line := sound.leased.mpr ⟨l, same⟩
    simp [sound.deeds_of_open asks, Deed.HasLine] at line

theorem serve_ensures {a : Attempt σ Line} (sound : a.Sound) {request : Request}
    (asks : a.Asks request) {held : Option (Lease Line)} (same : a.hold = holding held)
    (giveUp : Option Nat) (s : Setting) (p : Pool Line) :
    Ensures s p (serve (σ := σ) giveUp held request) (Served s.directory p asks) := by
  cases request with
  | «open» station affinity limit =>
    obtain rfl := held_eq_none_of_open sound asks same
    exact serve_open asks same giveUp
  | send message =>
    obtain ⟨l, leased⟩ := sound.leased_of_send asks
    cases held with
    | none => cases leased.symm.trans same
    | some l => exact serve_send asks same giveUp
  | receive limit =>
    obtain ⟨l, leased⟩ := sound.leased_of_receive asks
    cases held with
    | none => cases leased.symm.trans same
    | some l => exact serve_receive asks same giveUp

theorem converseOn_departs (giveUp : Option Nat) (s : Setting) {a : Attempt σ Line}
    (sound : a.Sound) {held : Option (Lease Line)} (same : a.hold = holding held)
    (p : Pool Line) :
    Ensures s p (converseOn giveUp held a.rest) fun _ p' => Departs s.directory p a p' := by
  obtain ⟨task, rest, hold, events⟩ := a
  obtain rfl : hold = holding held := same
  induction rest generalizing held events p with
  | finish result =>
    refine (forM_release_ensures held s p).bind fun _ p' left => ensures_pure ?_
    exact ⟨p, _, .refl, .inl ⟨result, rfl⟩, left.symm⟩
  | note entry next ih =>
    refine (calm_enter _).ensures fun _ => ?_
    refine (ih p _ (sound.note rfl)).mono fun _ p' departs => ?_
    exact departs.of_goes (.single (.note rfl))
  | discard next ih =>
    have sound := sound.discard rfl
    dsimp only at sound
    rw [discarded_holding] at sound
    refine (ih p _ sound).mono fun _ p' departs => ?_
    exact departs.of_goes (.single (discarded_holding held ▸ .discard rfl))
  | ask state request next ih =>
    rw [converseOn]
    refine (serve_ensures sound ⟨state, next, rfl⟩ rfl giveUp s p).bind
      fun (answer?, held') p₁ served => ?_
    cases answer? with
    | some answer =>
      refine (ih answer p₁ _ (Goes.sound served sound)).mono fun _ p' departs => ?_
      exact departs.of_goes served
    | none =>
      obtain ⟨p₂, a₂, goes, suspended, left⟩ := served
      refine (forM_release_ensures held' s p₁).bind fun _ p' released => ensures_pure ?_
      exact ⟨p₂, a₂, goes, .inr suspended, left.trans released.symm⟩

/-- Running a task is a client that sets out on it, and at last leaves. -/
theorem converse_traffic (abandon : Option Nat) (task : Traffic.Task σ) (s : Setting)
    (p : Pool Line) :
    Ensures s p (converse abandon task.dialogue) fun _ p' => ∀ others : Multiset (Attempt σ Line),
      ReflTransGen Step ⟨s.directory, p, others⟩ ⟨s.directory, p', others⟩ := by
  refine ensures_get fun w _ _ => ?_
  have sound : (Attempt.start task : Attempt σ Line).Sound := Attempt.sound_start task
  refine (converseOn_departs _ s sound rfl p).mono fun _ p' departs others => ?_
  have arrived : Step ⟨s.directory, p, others⟩ ⟨s.directory, p, .start task ::ₘ others⟩ :=
    .arrive _ task
  exact .head arrived (departs.steps others)

/-- Run tasks one after the other, each to its end or until it is given up. -/
def converseAll (tasks : List (Option Nat × Traffic.Task σ)) : Stage σ PUnit :=
  tasks.forM fun (abandon, task) => do
    let _ ← converse abandon task.dialogue

theorem converseAll_reachable (cap : Nat) (tasks : List (Option Nat × Traffic.Task σ))
    (s : Setting) (p : Pool Line)
    (reachable : Traffic.Reachable cap (⟨s.directory, p, 0⟩ : Traffic σ Line)) :
    Ensures s p (converseAll tasks) fun _ p' =>
      Traffic.Reachable cap (⟨s.directory, p', 0⟩ : Traffic σ Line) := by
  induction tasks generalizing p with
  | nil =>
    exact ensures_pure (Q := fun _ p' => Traffic.Reachable cap ⟨s.directory, p', 0⟩) reachable
  | cons first rest ih =>
    obtain ⟨abandon, task⟩ := first
    have run : Ensures s p (do let _ ← converse abandon task.dialogue : Stage σ PUnit)
        fun _ p' => Traffic.Reachable cap (⟨s.directory, p', 0⟩ : Traffic σ Line) :=
      (converse_traffic abandon task s p).bind fun _ p' steps =>
        ensures_pure (reachable.trans (steps 0))
    exact run.bind fun _ p' reached => ih p' reached

/-- After any rehearsal that starts with an empty pool, every live socket is idle. -/
theorem live_eq_idle_of_converseAll (cap : Nat) (tasks : List (Option Nat × Traffic.Task σ))
    (s : Setting) :
    Ensures s { cap } (converseAll tasks) fun _ p' =>
      ∀ station, p'.liveCount station = p'.idleCount station ∧ p'.liveCount station ≤ cap := by
  have start : Traffic.Reachable cap (⟨s.directory, { cap }, 0⟩ : Traffic σ Line) :=
    .single (.redirect { pool := { cap } } s.directory)
  refine (converseAll_reachable cap tasks s { cap } start).mono fun _ p' reachable station => ?_
  obtain ⟨accounted, same⟩ := reachable.usage.accounted
  have live := accounted.live station
  have within := accounted.within station
  rw [same] at within
  exact ⟨by simpa [usage, Usage.leased, Usage.dialled] using live, within⟩

end Switchboard.Rehearsal
