import Mathlib.Data.Multiset.Bind
import Switchboard.Proofs.Pool.Usage

/-!
# Every socket has one owner

A socket keeps its number, its station and its endpoint from the moment it is opened. It is idle in one
place or leased by one client, and once it is closed it is nowhere any more. All of this follows from
what one move does to the sockets that there are: it opens one under the next number, or closes some, or
hands them around (`Hold.Move.sockets`).
-/

namespace Switchboard

namespace Pool

variable {α : Type}

/-- What a socket keeps as long as it is open. -/
structure Identity where
  id : Nat
  station : String
  endpoint : String
  deriving DecidableEq, Repr

def Idle.identity (i : Idle α) (station : String) : Identity where
  id := i.id
  station
  endpoint := i.endpoint

def Lease.identity (l : Lease α) : Identity where
  id := l.id
  station := l.station
  endpoint := l.endpoint

@[simp] theorem Lease.identity_toIdle (l : Lease α) :
    l.toIdle.identity l.station = l.identity := rfl

/-- Who the idle sockets of a station are. -/
def Sockets.identities (s : Sockets α) (station : String) : Multiset Identity :=
  s.idle.map (·.identity station)

/-- Who the sockets are that lie idle in a pool. -/
def idleSockets (p : Pool α) : Multiset Identity :=
  p.stations.flatMap fun entry => entry.2.idle.map (·.identity entry.1)

theorem idleSockets_update (p : Pool α) (station : String) (f : Sockets α → Sockets α) :
    (p.update station f).idleSockets + (p.sockets station).identities station =
      p.idleSockets + (f (p.sockets station)).identities station :=
  Multiset.coe_eq_coe.mpr <|
    flatMap_setSockets (fun entry => entry.2.idle.map (·.identity entry.1)) p.stations station
      (f (p.sockets station)) rfl

theorem idleSockets_freeSlot (p : Pool α) (station : String) :
    (p.freeSlot station).idleSockets = p.idleSockets :=
  add_right_cancel (idleSockets_update p station Sockets.freeSlot)

/-- A lease that ends well leaves its socket to the idle ones. -/
theorem idleSockets_giveBack (p : Pool α) (l : Lease α) :
    (p.update l.station (·.giveBack l.toIdle)).idleSockets = l.identity ::ₘ p.idleSockets := by
  have exchanged := idleSockets_update p l.station (·.giveBack l.toIdle)
  have given : ((p.sockets l.station).giveBack l.toIdle).identities l.station =
      l.identity ::ₘ (p.sockets l.station).identities l.station := by
    simp [Sockets.identities, Sockets.giveBack, ← Multiset.coe_add, add_comm]
  rw [given, Multiset.add_cons, ← Multiset.cons_add] at exchanged
  exact add_right_cancel exchanged

/-- The socket that an answer hands out. -/
def Grant.sockets (station : String) : Grant α → Multiset Identity
  | .reuse i => {i.identity station}
  | .connect | .refuse => 0

theorem Sockets.Granted.identities {cap : Nat} {s next : Sockets α} {g : Grant α}
    (granted : Granted cap s g next) (station : String) :
    next.identities station + g.sockets station = s.identities station := by
  cases granted with
  | @reuse i next idle live =>
    have same := Multiset.coe_eq_coe.mpr (idle.map (·.identity station))
    rw [List.map_cons, ← Multiset.cons_coe] at same
    rw [Grant.sockets, add_comm, Multiset.singleton_add]
    exact same
  | connect room => exact add_zero _
  | refuse full exhausted => exact add_zero _

/-- The idle sockets of a station are those that stay and those that are given up. -/
theorem Sockets.identities_prune (s : Sockets α) (endpoints : List String) (station : String) :
    (s.prune endpoints).identities station + ↑((s.stale endpoints).map (·.identity station)) =
      s.identities station := by
  have same := (s.prune_append_stale_perm endpoints).map (·.identity station)
  rw [List.map_append] at same
  exact Multiset.coe_eq_coe.mpr same

/-- Asking a pool for a socket hands out one at most and closes the stale ones. -/
theorem admission_sockets {p : Pool α} {d : Directory} {station affinity : String}
    {a : Admission α} (h : p.admission d station affinity = some a) :
    a.pool.idleSockets + a.grant.sockets station + ↑(a.stale.map (·.identity station)) =
      p.idleSockets := by
  obtain ⟨endpoints, next, -, -, stale, granted, pool⟩ := admission_eq_some h
  have exchanged := idleSockets_update p station fun _ => next
  have kept := granted.identities station
  have pruned := (p.sockets station).identities_prune endpoints station
  rw [pool, stale]
  refine add_right_cancel (b := (p.sockets station).identities station) ?_
  calc
    (p.update station fun _ => next).idleSockets + a.grant.sockets station +
          ↑(((p.sockets station).stale endpoints).map (·.identity station)) +
        (p.sockets station).identities station
      = (p.update station fun _ => next).idleSockets + (p.sockets station).identities station +
          (a.grant.sockets station +
            ↑(((p.sockets station).stale endpoints).map (·.identity station))) := by ac_rfl
    _ = p.idleSockets + (next.identities station + a.grant.sockets station +
            ↑(((p.sockets station).stale endpoints).map (·.identity station))) := by
        rw [exchanged]
        ac_rfl
    _ = p.idleSockets + (p.sockets station).identities station := by rw [kept, pruned]

namespace Hold

/-- The socket that a client has leased, if it has one. -/
def sockets : Hold α → Multiset Identity
  | lease l => {l.identity}
  | nothing | inquiry .. | dial .. => 0

@[simp] theorem sockets_lease (l : Lease α) : (lease l).sockets = {l.identity} := rfl

@[simp] theorem sockets_inquiry (directory : Directory) (name affinity : String) :
    (inquiry directory name affinity : Hold α).sockets = 0 := rfl

@[simp] theorem sockets_dial (name endpoint : String) :
    (dial name endpoint : Hold α).sockets = 0 := rfl

@[simp] theorem sockets_nothing : (nothing : Hold α).sockets = 0 := rfl

theorem sockets_admission (a : Admission α) (station : String) :
    (a.hold station).sockets = a.grant.sockets station := by
  unfold Admission.hold
  cases a.grant <;> rfl

theorem nextId_drop (p : Pool α) (hold : Hold α) : (hold.drop p).nextId = p.nextId := by
  cases hold with
  | nothing | inquiry directory name affinity | dial name endpoint => rfl
  | lease l =>
    rw [drop_lease, release]
    split <;> rfl

/-- A socket that is given up is idle, or closed if it is unfit. -/
theorem idleSockets_drop (p : Pool α) (hold : Hold α) :
    (hold.drop p).idleSockets ≤ p.idleSockets + hold.sockets := by
  cases hold with
  | nothing => exact le_of_eq (add_zero _).symm
  | inquiry directory name affinity => exact le_of_eq (add_zero _).symm
  | dial name endpoint =>
    rw [drop_dial, idleSockets_freeSlot]
    exact Multiset.le_add_right ..
  | lease l =>
    cases fit : l.isUnfit with
    | true =>
      rw [drop_unfit p fit, idleSockets_freeSlot]
      exact Multiset.le_add_right ..
    | false =>
      rw [drop_fit p fit, idleSockets_giveBack, sockets_lease, add_comm,
        Multiset.singleton_add]

/-- All that a move can do to the sockets in a pool and in a client's hands: none appears, or one is
opened under the next number. -/
theorem Move.sockets {d : Directory} {p p' : Pool α} {hold hold' : Hold α}
    (move : hold.Move d p p' hold') :
    (p'.nextId = p.nextId ∧
      p'.idleSockets + hold'.sockets ≤ p.idleSockets + hold.sockets) ∨
    ∃ i : Identity, i.id = p.nextId ∧ p'.nextId = p.nextId + 1 ∧
      p'.idleSockets + hold'.sockets = i ::ₘ (p.idleSockets + hold.sockets) := by
  cases move with
  | inquire name affinity => exact .inl ⟨rfl, le_rfl⟩
  | unserved h => exact .inl ⟨rfl, le_rfl⟩
  | @admitted directory name affinity a h =>
    have handed := admission_sockets h
    obtain ⟨endpoints, next, -, -, -, -, pool⟩ := admission_eq_some h
    refine .inl ⟨pool ▸ rfl, ?_⟩
    rw [sockets_admission, ← handed, add_assoc, add_assoc]
    exact add_le_add_right (Multiset.le_add_right ..) _
  | connected name endpoint socket =>
    refine .inr ⟨⟨p.nextId, name, endpoint⟩, rfl, rfl, ?_⟩
    have leased : (lease (p.connected name endpoint socket).2).sockets =
        {⟨p.nextId, name, endpoint⟩} := rfl
    rw [leased, sockets_dial, add_zero, add_comm, Multiset.singleton_add]
    rfl
  | used l socket unhealthy inFlight => exact .inl ⟨rfl, le_rfl⟩
  | dropped => exact .inl ⟨nextId_drop p hold, by simpa using idleSockets_drop p hold⟩

end Hold

namespace Usage

/-- Who the sockets are that lie idle or are leased. -/
def sockets (u : Usage α) : Multiset Identity :=
  u.pool.idleSockets + u.holds.bind Hold.sockets

theorem sockets_cons (d : Directory) (p : Pool α) (hold : Hold α) (rest : Multiset (Hold α)) :
    (⟨d, p, hold ::ₘ rest⟩ : Usage α).sockets =
      p.idleSockets + hold.sockets + rest.bind Hold.sockets := by
  rw [sockets, Multiset.cons_bind, add_assoc]

/-- All that a step can do to the sockets there are. -/
theorem Step.sockets {u u' : Usage α} (step : Step u u') :
    (u'.pool.nextId = u.pool.nextId ∧ u'.sockets ≤ u.sockets) ∨
    ∃ i : Identity, i.id = u.pool.nextId ∧ u'.pool.nextId = u.pool.nextId + 1 ∧
      u'.sockets = i ::ₘ u.sockets := by
  cases step with
  | redirect directory => exact .inl ⟨rfl, le_rfl⟩
  | join => exact .inl ⟨rfl, by simp [Usage.sockets]⟩
  | leave d p rest => exact .inl ⟨rfl, by simp [Usage.sockets]⟩
  | move rest move =>
    rw [sockets_cons, sockets_cons]
    rcases move.sockets with ⟨next, fewer⟩ | ⟨i, number, next, opened⟩
    · exact .inl ⟨next, add_le_add_left fewer _⟩
    · exact .inr ⟨i, number, next, by rw [opened, Multiset.cons_add]⟩

/-- No two sockets have one number, and the next number is free. -/
structure Distinct (u : Usage α) : Prop where
  once : (u.sockets.map Identity.id).Nodup
  below : ∀ i ∈ u.sockets, i.id < u.pool.nextId

theorem Distinct.step {u u' : Usage α} (distinct : u.Distinct) (step : Step u u') :
    u'.Distinct := by
  rcases step.sockets with ⟨next, fewer⟩ | ⟨i, number, next, opened⟩
  · refine ⟨Multiset.nodup_of_le (Multiset.map_le_map fewer) distinct.once, fun i mem => ?_⟩
    rw [next]
    exact distinct.below i (Multiset.mem_of_le fewer mem)
  · refine ⟨?_, fun j mem => ?_⟩
    · rw [opened, Multiset.map_cons, Multiset.nodup_cons]
      refine ⟨fun mem => ?_, distinct.once⟩
      obtain ⟨j, mem, same⟩ := Multiset.mem_map.mp mem
      exact absurd (distinct.below j mem) (by omega)
    · rw [opened] at mem
      rcases Multiset.mem_cons.mp mem with rfl | mem
      · omega
      · exact Nat.lt_of_lt_of_le (distinct.below j mem) (by omega)

theorem Reachable.distinct {cap : Nat} {u : Usage α} (reachable : Reachable cap u) :
    u.Distinct := by
  induction reachable with
  | refl => exact ⟨Multiset.nodup_zero, fun i mem => absurd mem (Multiset.notMem_zero i)⟩
  | tail _ step ih => exact ih.step step

/-- The number is given out, and no socket has it but with the property. -/
structure Settled (u : Usage α) (n : Nat) (P : Identity → Prop) : Prop where
  issued : n < u.pool.nextId
  only : ∀ j ∈ u.sockets, j.id = n → P j

theorem Settled.step {u u' : Usage α} {n : Nat} {P : Identity → Prop} (settled : u.Settled n P)
    (step : Step u u') : u'.Settled n P := by
  obtain ⟨issued, only⟩ := settled
  rcases step.sockets with ⟨next, fewer⟩ | ⟨i, number, next, opened⟩
  · exact ⟨next ▸ issued, fun j mem => only j (Multiset.mem_of_le fewer mem)⟩
  · refine ⟨by omega, fun j mem same => ?_⟩
    rw [opened] at mem
    rcases Multiset.mem_cons.mp mem with rfl | mem
    · omega
    · exact only j mem same

/-- What is settled of a number stays so, since no number is given out twice. -/
theorem Settled.run {u u' : Usage α} {n : Nat} {P : Identity → Prop} (settled : u.Settled n P)
    (steps : Relation.ReflTransGen Step u u') : u'.Settled n P := by
  induction steps with
  | refl => exact settled
  | tail _ step ih => exact ih.step step

/-- A client has connected, and a socket is opened. -/
inductive Opens : Usage α → Usage α → Identity → Prop
  | connected (d : Directory) (p : Pool α) (rest : Multiset (Hold α))
      (station endpoint : String) (socket : α) :
      Opens ⟨d, p, .dial station endpoint ::ₘ rest⟩
        ⟨d, (p.connected station endpoint socket).1,
          .lease (p.connected station endpoint socket).2 ::ₘ rest⟩
        ⟨p.nextId, station, endpoint⟩

theorem Opens.step {u u' : Usage α} {i : Identity} (opens : Opens u u' i) : Step u u' := by
  obtain ⟨d, p, rest, station, endpoint, socket⟩ := opens
  exact .move rest (.connected station endpoint socket)

theorem Opens.settled {u u' : Usage α} {i : Identity} (opens : Opens u u' i)
    (distinct : u.Distinct) : u'.Settled i.id (· = i) := by
  obtain ⟨d, p, rest, station, endpoint, socket⟩ := opens
  refine ⟨Nat.lt_succ_self _, fun j mem same => ?_⟩
  have before := distinct.below j
  rw [sockets_cons] at mem before
  simp only [Multiset.mem_add] at mem before
  rcases mem with (idle | leased) | held
  · exact absurd (before (.inl (.inl idle))) (Nat.not_lt.mpr same.ge)
  · exact Multiset.mem_singleton.mp leased
  · exact absurd (before (.inr held)) (Nat.not_lt.mpr same.ge)

/-- A socket is closed: it is unfit when its lease ends, or a client asks for the station and the
endpoint of the socket is no longer one of those that serve it. -/
inductive Closes : Usage α → Usage α → Identity → Prop
  | unfit (d : Directory) (p : Pool α) (rest : Multiset (Hold α)) {l : Lease α}
      (unfit : l.isUnfit = true) :
      Closes ⟨d, p, .lease l ::ₘ rest⟩ ⟨d, (Hold.lease l).drop p, .nothing ::ₘ rest⟩ l.identity
  | stale (d : Directory) (p : Pool α) (rest : Multiset (Hold α)) {known : Directory}
      {station affinity : String} {a : Admission α} {i : Idle α}
      (admitted : p.admission known station affinity = some a) (mem : i ∈ a.stale) :
      Closes ⟨d, p, .inquiry known station affinity ::ₘ rest⟩
        ⟨d, a.pool, a.hold station ::ₘ rest⟩ (i.identity station)

theorem Closes.step {u u' : Usage α} {i : Identity} (closes : Closes u u' i) : Step u u' := by
  cases closes with
  | unfit d p rest unfit => exact .move rest (.dropped _)
  | stale d p rest admitted mem => exact .move rest (.admitted admitted)

theorem Closes.sockets {u u' : Usage α} {i : Identity} (closes : Closes u u' i) :
    i ::ₘ u'.sockets ≤ u.sockets := by
  cases closes with
  | @unfit d p rest l unfit =>
    rw [sockets_cons, sockets_cons, Hold.drop_unfit p unfit, idleSockets_freeSlot,
      Hold.sockets_lease, Hold.sockets_nothing, add_zero, ← Multiset.cons_add,
      ← Multiset.singleton_add, add_comm p.idleSockets]
  | @stale d p rest known station affinity a i admitted mem =>
    have handed := admission_sockets admitted
    have closed : {i.identity station} ≤
        (↑(a.stale.map (·.identity station)) : Multiset Identity) :=
      Multiset.singleton_le.mpr (Multiset.mem_coe.mpr (List.mem_map_of_mem mem))
    rw [sockets_cons, sockets_cons, Hold.sockets_admission, ← handed, Hold.sockets_inquiry,
      add_zero, ← Multiset.cons_add, ← Multiset.singleton_add, add_comm {i.identity station}]
    exact add_le_add_left (add_le_add_right closed _) _

theorem Closes.settled {u u' : Usage α} {i : Identity} (closes : Closes u u' i)
    (distinct : u.Distinct) : u'.Settled i.id fun _ => False := by
  have fewer := closes.sockets
  have issued := distinct.below i (Multiset.mem_of_le fewer (Multiset.mem_cons_self ..))
  have once := Multiset.nodup_of_le (Multiset.map_le_map fewer) distinct.once
  rw [Multiset.map_cons, Multiset.nodup_cons] at once
  refine ⟨?_, fun j mem same => once.1 (same ▸ Multiset.mem_map_of_mem _ mem)⟩
  rcases closes.step.sockets with ⟨next, -⟩ | ⟨-, -, next, -⟩ <;> omega

/-- However its clients go about it, a pool that was empty at first has every socket in one place at
most: idle at one station or leased by one client. Once a socket is opened, whatever has its number is
idle or leased at its station and connected to its endpoint; and once it is closed, nothing has its
number any more. This is as far as the numbers go (`Pool.nextId`). -/
theorem exclusive_of_reachable {cap : Nat} {u : Usage α} (reachable : Reachable cap u) :
    (u.sockets.map Identity.id).Nodup ∧
    (∀ u₁ i, Opens u u₁ i → ∀ u₂, Relation.ReflTransGen Step u₁ u₂ →
      ∀ j ∈ u₂.sockets, j.id = i.id → j = i) ∧
    (∀ u₁ i, Closes u u₁ i → ∀ u₂, Relation.ReflTransGen Step u₁ u₂ →
      ∀ j ∈ u₂.sockets, j.id ≠ i.id) := by
  have distinct := reachable.distinct
  refine ⟨distinct.once, fun u₁ i opens u₂ steps => ?_, fun u₁ i closes u₂ steps => ?_⟩
  · exact ((opens.settled distinct).run steps).only
  · exact ((closes.settled distinct).run steps).only

/-- A socket that is found wanting in its first lease is that of its station up to then, and gone
afterwards. -/
theorem exclusive_of_unhealthy_lease :
    ∃ u u₁ u₂ u₃ : Usage Unit, Reachable 1 u ∧ Opens u u₁ ⟨1, "orders", "10.0.0.1:9000"⟩ ∧
      Relation.ReflTransGen Step u₁ u₂ ∧ Closes u₂ u₃ ⟨1, "orders", "10.0.0.1:9000"⟩ ∧
      (∀ j ∈ u₂.sockets, j.id = 1 → j = ⟨1, "orders", "10.0.0.1:9000"⟩) ∧
      ∀ u, Relation.ReflTransGen Step u₃ u → ∀ j ∈ u.sockets, j.id ≠ 1 := by
  let directory : Directory := [("orders", ["10.0.0.1:9000"])]
  have looked : Reachable 1
      (⟨directory, { cap := 1 }, {.inquiry directory "orders" ""}⟩ : Usage Unit) :=
    .tail (.tail (.tail .refl (.redirect _ directory)) (.join _)) (.move 0 (.inquire "orders" ""))
  have admitted : ({ cap := 1 } : Pool Unit).admission directory "orders" "" =
      some ⟨⟨.connect, [], { cap := 1, stations := [("orders", { live := 1 })] }⟩,
        "10.0.0.1:9000"⟩ := rfl
  have dialling := looked.tail (.move 0 (.admitted admitted))
  have opens := Opens.connected directory
    ({ cap := 1, stations := [("orders", { live := 1 })] } : Pool Unit) 0 "orders"
    "10.0.0.1:9000" ()
  have found := Relation.ReflTransGen.single (Step.move 0 (.used (d := directory)
    (p := { cap := 1, nextId := 2, stations := [("orders", { live := 1 })] })
    ⟨"orders", 1, "10.0.0.1:9000", (), false, false⟩ () true false))
  have closes := Closes.unfit directory
    ({ cap := 1, nextId := 2, stations := [("orders", { live := 1 })] } : Pool Unit) 0
    (l := ⟨"orders", 1, "10.0.0.1:9000", (), true, false⟩) rfl
  have leased := (dialling.tail opens.step).trans found
  exact ⟨_, _, _, _, dialling, opens, found, closes,
    (exclusive_of_reachable dialling).2.1 _ _ opens _ found,
    (exclusive_of_reachable leased).2.2 _ _ closes⟩

end Usage

end Pool

end Switchboard
