import Switchboard.Proofs.Pool.Hashing
import Switchboard.Proofs.Pool.Independence

/-!
# How a pool decides

A request is answered on the sockets that are left when the stale ones are gone: with an idle socket to
the preferred endpoint, else with a slot, else with any idle socket, else with a refusal
(`Sockets.answers_grant`). Since the live sockets are the idle ones and those that clients hold, a pool
refuses just if clients hold as many as its cap allows (`Usage.decision_of_reachable`).
-/

namespace Switchboard.Pool

variable {α : Type} {hash : String → UInt64}

namespace Sockets

/-- None of the idle sockets is connected to an endpoint. -/
def NoneTo (s : Sockets α) (endpoint : String) : Prop :=
  ∀ i ∈ s.idle, i.endpoint ≠ endpoint

theorem lastTo?_eq_none {s : Sockets α} {endpoint : String} :
    s.lastTo? endpoint = none ↔ s.NoneTo endpoint := by
  simp [lastTo?, NoneTo, List.findIdx?_eq_none_iff]

theorem lastTo?_eq_some {s : Sockets α} {endpoint : String} {k : Nat}
    (h : s.lastTo? endpoint = some k) : ∃ i, s.idle[k]? = some i ∧ i.endpoint = endpoint := by
  obtain ⟨j, found, rfl⟩ := Option.map_eq_some_iff.mp h
  obtain ⟨inside, here, -⟩ := List.findIdx?_eq_some_iff_getElem.mp found
  rw [List.getElem_reverse] at here
  exact ⟨_, List.getElem?_eq_getElem _, of_decide_eq_true here⟩

/-- What decides how a request is answered. -/
inductive Answers (cap : Nat) (s : Sockets α) (preferred : String) : Grant α → Prop
  | preferred {i : Idle α} (mem : i ∈ s.idle) (here : i.endpoint = preferred) :
      Answers cap s preferred (.reuse i)
  | connect (none : s.NoneTo preferred) (room : s.live < cap) : Answers cap s preferred .connect
  | other {i : Idle α} (none : s.NoneTo preferred) (full : cap ≤ s.live) (mem : i ∈ s.idle) :
      Answers cap s preferred (.reuse i)
  | refuse (none : s.NoneTo preferred) (full : cap ≤ s.live) (empty : s.idle = []) :
      Answers cap s preferred .refuse

theorem answers_grant (s : Sockets α) (cap : Nat) (preferred : String) :
    Answers cap s preferred (s.grant cap preferred).1 := by
  unfold grant
  split
  · next k socket found =>
    obtain ⟨j, last, at_j⟩ := Option.bind_eq_some_iff.mp found
    obtain ⟨socket', at_k, same⟩ := Option.map_eq_some_iff.mp at_j
    obtain ⟨rfl, rfl⟩ := Prod.mk.inj same
    obtain ⟨i, at_i, here⟩ := lastTo?_eq_some last
    obtain rfl := Option.some.inj (at_k.symm.trans at_i)
    exact .preferred (List.mem_of_getElem? at_k) here
  · next missing =>
    have none : s.NoneTo preferred := by
      rw [← lastTo?_eq_none]
      by_contra some
      obtain ⟨k, last⟩ := Option.ne_none_iff_exists'.mp some
      obtain ⟨i, at_k, -⟩ := lastTo?_eq_some last
      simp [last, at_k] at missing
    by_cases room : s.live < cap
    · rw [if_pos room]
      exact .connect none room
    · rw [if_neg room]
      have full := Nat.le_of_not_lt room
      split
      · next socket last => exact .other none full (List.mem_of_getLast? last)
      · next last => exact .refuse none full (List.getLast?_eq_none_iff.mp last)

/-- What the answer says about the slots that are taken by clients. -/
theorem Answers.decided {cap taken : Nat} {s : Sockets α} {preferred : String} {g : Grant α}
    (answers : Answers cap s preferred g) (live : s.live = s.idle.length + taken)
    (within : s.live ≤ cap) :
    (∀ i, g = .reuse i → i ∈ s.idle ∧
      (i.endpoint = preferred ∨ s.idle.length + taken = cap ∧ s.NoneTo preferred)) ∧
      (g = .connect ↔ s.NoneTo preferred ∧ s.idle.length + taken < cap) ∧
      (g = .refuse ↔ taken = cap) := by
  cases answers with
  | preferred mem here =>
    have some := List.length_pos_of_mem mem
    refine ⟨?_, ⟨nofun, fun h => absurd here (h.1 _ mem)⟩, ⟨nofun, by omega⟩⟩
    rintro i ⟨⟩
    exact ⟨mem, .inl here⟩
  | connect none room =>
    exact ⟨nofun, ⟨fun _ => ⟨none, by omega⟩, fun _ => rfl⟩, ⟨nofun, by omega⟩⟩
  | other none full mem =>
    have some := List.length_pos_of_mem mem
    refine ⟨?_, ⟨nofun, by omega⟩, ⟨nofun, by omega⟩⟩
    rintro i ⟨⟩
    exact ⟨mem, .inr ⟨by omega, none⟩⟩
  | refuse none full empty =>
    rw [empty, List.length_nil] at live
    exact ⟨nofun, ⟨nofun, by omega⟩, ⟨fun _ => by omega, fun _ => rfl⟩⟩

/-- A slot that is freed again leaves the sockets as they were. -/
theorem Granted.freeSlot_eq {cap : Nat} {s next : Sockets α}
    (granted : Granted cap s .connect next) : next.freeSlot = s := by
  cases granted
  rfl

theorem mem_prune {s : Sockets α} {endpoints : List String} {i : Idle α} :
    i ∈ (s.prune endpoints).idle ↔ i ∈ s.idle ∧ i.endpoint ∈ endpoints := by
  simp [prune]

/-- An endpoint that is among those known loses none of its sockets. -/
theorem noneTo_prune {s : Sockets α} {endpoints : List String} {endpoint : String}
    (known : endpoint ∈ endpoints) : (s.prune endpoints).NoneTo endpoint ↔ s.NoneTo endpoint := by
  simp only [NoneTo, mem_prune]
  grind

end Sockets

/-- A socket that a request leads to: the idle one that is handed out, or a new one once it is
connected. -/
inductive Admission.Gives (a : Admission α) (station : String) : Lease α → Prop
  | reused {i : Idle α} (h : a.grant = .reuse i) : Gives a station (.ofIdle station i)
  | connected (h : a.grant = .connect) (later : Pool α) (socket : α) :
      Gives a station (later.connected station a.preferred socket).2

/-! ## Steps elsewhere -/

/-- What a client does that holds something of another station changes nothing at a station. -/
theorem Hold.MoveBy.sockets_elsewhere {d : Directory} {p p' : Pool α} {hold hold' : Hold α}
    (move : hold.MoveBy hash d p p' hold') {name station : String} (there : hold.isAt name)
    (other : station ≠ name) : p'.sockets station = p.sockets station := by
  cases move with
  | unanswered => rfl
  | @admitted directory name' affinity a h =>
    obtain ⟨_, h⟩ := exists_admission h
    obtain ⟨endpoints, next, -, -, -, -, pool⟩ := admission_eq_some h
    obtain rfl : name' = name := of_decide_eq_true there
    rw [pool, sockets_update_of_ne p other]
  | other h unasked =>
    cases h with
    | inquire | connected | used => rfl
    | unserved | admitted => exact absurd rfl (unasked _ _ _)
    | dropped => exact Hold.sockets_drop_elsewhere p there other

namespace Usage

/-- The clients take any steps but those of a client that holds something of a station. -/
def Elsewhere (hash : String → UInt64) (station : String) : Usage α → Usage α → Prop :=
  Relation.ReflTransGen fun u u' =>
    ∃ mover name, StepBy hash mover u u' ∧ mover.isAt name ∧ station ≠ name

theorem Elsewhere.sockets_eq {station : String} {u u' : Usage α}
    (steps : Elsewhere hash station u u') : u'.pool.sockets station = u.pool.sockets station := by
  induction steps with
  | refl => rfl
  | tail _ step ih =>
    obtain ⟨mover, name, step, there, other⟩ := step
    cases step with
    | redirect | join | leave => exact ih
    | move rest h => exact (h.sockets_elsewhere there other).trans ih

/-- However its clients go about it and however affinities are hashed, a pool that was empty at first
answers a request for a station that is served like this. What the client gets is a socket to an
endpoint that serves the station, and to the one that its affinity prefers unless the slots are all
taken and no idle socket is connected there. A slot is granted just if no idle socket is connected there
and a slot is free; and if nothing else happens at the station until it is given up again, the sockets
are those that were left when the stale ones were gone. The request is refused just if the sockets that
are leased or being connected are as many as the cap allows, and then nothing is connected.

For the hash of the pool, `reachableBy_affinityHash` says which usages these are. -/
theorem decision_of_reachable {cap : Nat} {u : Usage α} (reachable : ReachableBy hash cap u)
    {d : Directory} {station : String} {endpoints : List String}
    (resolved : d.resolve station = some endpoints) (affinity : String) :
    ∃ a, u.pool.admissionBy hash d station affinity = some a ∧
      (hash = affinityHash → u.pool.admission d station affinity = some a) ∧
      let s := u.pool.sockets station
      let kept := (s.prune endpoints).idle.length
      let taken := u.leased station + u.dialled station
      endpoints[indexBy hash affinity endpoints.length]? = some a.preferred ∧
      (∀ l, a.Gives station l → l.endpoint ∈ endpoints ∧
        (l.endpoint = a.preferred ∨ kept + taken = cap ∧ s.NoneTo a.preferred)) ∧
      (a.grant = .connect ↔ s.NoneTo a.preferred ∧ kept + taken < cap) ∧
      (a.grant = .connect → ∀ d' others u', Elsewhere hash station ⟨d', a.pool, others⟩ u' →
        ((Hold.dial station a.preferred).drop u'.pool).sockets station = s.prune endpoints) ∧
      (a.grant = .refuse ↔ taken = cap) ∧
      (a.grant = .refuse → a.hold station = .nothing) := by
  obtain ⟨accounted, rfl⟩ := reachable.accounted
  obtain ⟨preferred, chosen, admitted⟩ := u.pool.admissionBy_of_resolve hash resolved affinity
  have known := List.mem_of_getElem? chosen
  let s := (u.pool.sockets station).prune endpoints
  have live := Sockets.live_prune (accounted.live station) endpoints
  have within : s.live ≤ u.pool.cap := Nat.le_trans (Nat.sub_le ..) (accounted.within station)
  have answers := s.answers_grant u.pool.cap preferred
  have granted := s.granted_grant u.pool.cap preferred
  obtain ⟨reuse, connect, refuse⟩ := answers.decided live within
  rw [Sockets.noneTo_prune known] at reuse connect
  let a : Admission α := { u.pool.request station endpoints preferred with preferred }
  refine ⟨a, admitted, ?_, chosen, ?_, connect, ?_, refuse, ?_⟩
  · rintro rfl
    rw [admission_eq]
    exact admitted
  · rintro l (⟨h⟩ | ⟨h, later, socket⟩)
    · obtain ⟨mem, slots⟩ := reuse _ h
      exact ⟨(Sockets.mem_prune.mp mem).2, slots⟩
    · exact ⟨known, .inl rfl⟩
  · intro slot d' others u' steps
    have next : a.pool.sockets station = (s.grant u.pool.cap preferred).2 :=
      sockets_update_self ..
    have reserved : a.grant = (s.grant u.pool.cap preferred).1 := rfl
    rw [← reserved, slot] at granted
    rw [Hold.drop_dial, freeSlot, sockets_update_self, steps.sockets_eq, next]
    exact granted.freeSlot_eq
  · intro refused
    simp only [Admission.hold, refused]

/-- The one slot is taken by an idle socket, and it is to the endpoint that is not preferred. -/
theorem decision_of_full :
    let hash := fun affinity : String => if affinity = "" then (0 : UInt64) else 1
    let d : Directory := [("orders", ["10.0.0.1:9000", "10.0.0.2:9000"])]
    let i : Idle Unit := ⟨1, "10.0.0.1:9000", ()⟩
    let u : Usage Unit :=
      { directory := d
        pool := { cap := 1, nextId := 2, stations := [("orders", { idle := [i], live := 1 })] }
        holds := {.nothing} }
    ReachableBy hash 1 u ∧ ∃ a, u.pool.admissionBy hash d "orders" "r1" = some a ∧
      a.grant = .reuse i ∧ a.preferred = "10.0.0.2:9000" ∧
      (u.pool.sockets "orders").NoneTo a.preferred := by
  intro hash d i u
  have admitted : ({ cap := 1 } : Pool Unit).admissionBy hash d "orders" "" =
      some ⟨⟨.connect, [], { cap := 1, stations := [("orders", { live := 1 })] }⟩,
        "10.0.0.1:9000"⟩ := rfl
  have looked : ReachableBy hash 1
      (⟨d, { cap := 1 }, {.inquiry d "orders" ""}⟩ : Usage Unit) :=
    .tail (.tail (.tail .refl ⟨_, .redirect _ d⟩) ⟨_, .join _⟩)
      ⟨_, .move 0 (.other (.inquire "orders" "") nofun)⟩
  have dialling := looked.tail ⟨_, .move 0 (.admitted admitted)⟩
  have leasing := dialling.tail
    ⟨_, .move 0 (.other (.connected "orders" "10.0.0.1:9000" ()) nofun)⟩
  have reachable : ReachableBy hash 1 u := leasing.tail ⟨_, .move 0 (.other (.dropped _) nofun)⟩
  have answered : u.pool.admissionBy hash d "orders" "r1" =
      some ⟨⟨.reuse i, [], { u.pool with stations := [("orders", { live := 1 })] }⟩,
        "10.0.0.2:9000"⟩ := rfl
  obtain ⟨a, admitted', -, -, gives, -⟩ := decision_of_reachable reachable
    (resolve_singleton "orders" (List.cons_ne_nil _ _)) "r1"
  obtain rfl := Option.some.inj (answered.symm.trans admitted')
  obtain ⟨-, there | ⟨-, none⟩⟩ := gives _ (.reused rfl)
  · exact absurd there (by decide)
  · exact ⟨reachable, _, answered, rfl, rfl, none⟩

end Usage

end Switchboard.Pool
