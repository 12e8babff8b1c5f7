import Switchboard.Proofs.Pool.Usage

/-!
# Every slot and every socket is accounted for

The number of live sockets that a pool keeps for a station is that of the idle ones and of those that
clients hold, leased or being connected, and it stays within the cap. Every socket is in one place.
Both are proved for a single move first, whatever the other clients hold.
-/

namespace Switchboard

namespace Pool

variable {α : Type}

/-- The slots that an answer takes from the idle sockets or adds to the live ones. -/
def Grant.slots : Grant α → Nat
  | .reuse _ | .connect => 1
  | .refuse => 0

namespace Sockets

variable {s next : Sockets α} {k : Nat}

/-- Stale sockets leave the idle and the live ones alike. -/
theorem live_prune (balanced : s.live = s.idle.length + k) (endpoints : List String) :
    (s.prune endpoints).live = (s.prune endpoints).idle.length + k := by
  have parts := s.prune_add_stale endpoints
  have live : (s.prune endpoints).live = s.live - (s.stale endpoints).length := rfl
  omega

/-- An answer moves as many slots as it says. -/
theorem Granted.live_eq {cap : Nat} {g : Grant α} (granted : Granted cap s g next)
    (balanced : s.live = s.idle.length + k) : next.live = next.idle.length + k + g.slots := by
  cases granted with
  | reuse idle live =>
    have length := idle.length_eq
    rw [List.length_cons] at length
    simp only [Grant.slots]
    omega
  | connect room =>
    simp only [Grant.slots]
    omega
  | refuse full exhausted => exact balanced

theorem Granted.live_le {cap : Nat} {g : Grant α} (granted : Granted cap s g next)
    (within : s.live ≤ cap) : next.live ≤ cap := by
  cases granted with
  | reuse idle live => exact live ▸ within
  | connect room => exact room
  | refuse full exhausted => exact within

end Sockets

namespace Hold

/-- The slots of a station that a client holds. -/
def slots (hold : Hold α) (station : String) : Nat :=
  (hold.isLease station).toNat + (hold.isDial station).toNat

@[simp] theorem slots_nothing (station : String) :
    (nothing : Hold α).slots station = 0 := rfl

@[simp] theorem slots_inquiry (directory : Directory) (name affinity station : String) :
    (inquiry directory name affinity : Hold α).slots station = 0 := rfl

@[simp] theorem slots_dial (name endpoint station : String) :
    (dial name endpoint : Hold α).slots station = if name = station then 1 else 0 := by
  by_cases same : name = station <;> simp [slots, isLease, isDial, same]

@[simp] theorem slots_lease (l : Lease α) (station : String) :
    (lease l).slots station = if l.station = station then 1 else 0 := by
  by_cases same : l.station = station <;> simp [slots, isLease, isDial, same]

theorem slots_admission (a : Admission α) (station : String) :
    (a.hold station).slots station = a.grant.slots := by
  unfold Admission.hold
  cases a.grant <;> simp [Grant.slots, Lease.ofIdle]

theorem slots_admission_of_ne (a : Admission α) {station name : String} (other : name ≠ station) :
    (a.hold station).slots name = 0 := by
  unfold Admission.hold
  cases a.grant <;> simp [Lease.ofIdle, other.symm]

/-- A slot that is freed was live before. -/
theorem live_freeSlot {p : Pool α} {name station : String} {k : Nat}
    (balanced : p.liveCount station = p.idleCount station + k + if name = station then 1 else 0) :
    (p.freeSlot name).liveCount station = (p.freeSlot name).idleCount station + k := by
  by_cases here : name = station
  · subst here
    simp only [if_true, liveCount, idleCount] at balanced
    simp only [freeSlot, liveCount_update_self, idleCount_update_self, Sockets.freeSlot]
    omega
  · rw [if_neg here] at balanced
    rw [freeSlot, liveCount_update_of_ne _ (Ne.symm here), idleCount_update_of_ne _ (Ne.symm here)]
    exact balanced

/-- What is given up is no longer live, or it is idle. -/
theorem live_drop {p : Pool α} {hold : Hold α} {station : String} {k : Nat}
    (balanced : p.liveCount station = p.idleCount station + k + hold.slots station) :
    (hold.drop p).liveCount station = (hold.drop p).idleCount station + k := by
  cases hold with
  | nothing => exact balanced
  | inquiry directory name affinity => exact balanced
  | dial name endpoint =>
    rw [slots_dial] at balanced
    exact live_freeSlot balanced
  | lease l =>
    rw [slots_lease] at balanced
    cases fit : l.isUnfit with
    | true =>
      rw [drop_unfit p fit]
      exact live_freeSlot balanced
    | false =>
      rw [drop_fit p fit]
      by_cases here : l.station = station
      · subst here
        simp only [if_true, liveCount, idleCount] at balanced
        simp only [liveCount_update_self, idleCount_update_self, Sockets.giveBack,
          List.length_append, List.length_singleton]
        omega
      · rw [if_neg here] at balanced
        rw [liveCount_update_of_ne _ (Ne.symm here), idleCount_update_of_ne _ (Ne.symm here)]
        exact balanced

theorem liveCount_freeSlot_le (p : Pool α) (name station : String) :
    (p.freeSlot name).liveCount station ≤ p.liveCount station := by
  by_cases here : station = name
  · subst here
    simp only [freeSlot, liveCount_update_self, Sockets.freeSlot]
    exact Nat.sub_le ..
  · exact Nat.le_of_eq (liveCount_update_of_ne _ here _)

theorem liveCount_drop_le (p : Pool α) (hold : Hold α) (station : String) :
    (hold.drop p).liveCount station ≤ p.liveCount station := by
  cases hold with
  | nothing => exact Nat.le_refl _
  | inquiry directory name affinity => exact Nat.le_refl _
  | dial name endpoint => exact liveCount_freeSlot_le p name station
  | lease l =>
    cases fit : l.isUnfit with
    | true =>
      rw [drop_unfit p fit]
      exact liveCount_freeSlot_le p l.station station
    | false =>
      rw [drop_fit p fit]
      by_cases here : station = l.station
      · subst here
        simp [liveCount, Sockets.giveBack]
      · exact Nat.le_of_eq (liveCount_update_of_ne _ here _)

/-- A move keeps the balance of the live sockets, whatever the others hold. -/
theorem Move.live_eq {d : Directory} {p p' : Pool α} {hold hold' : Hold α}
    (move : hold.Move d p p' hold') {station : String} {k : Nat}
    (balanced : p.liveCount station = p.idleCount station + k + hold.slots station) :
    p'.liveCount station = p'.idleCount station + k + hold'.slots station := by
  cases move with
  | inquire name affinity => exact balanced
  | unserved h => exact balanced
  | @admitted directory name affinity a h =>
    obtain ⟨endpoints, next, -, -, -, granted, pool⟩ := admission_eq_some h
    rw [pool]
    by_cases here : station = name
    · subst here
      rw [slots_admission, liveCount_update_self, idleCount_update_self]
      exact granted.live_eq (Sockets.live_prune balanced endpoints)
    · rw [slots_admission_of_ne a here, liveCount_update_of_ne _ here,
        idleCount_update_of_ne _ here]
      exact balanced
  | connected name endpoint socket =>
    rw [slots_dial] at balanced
    rw [slots_lease]
    exact balanced
  | used l socket unhealthy inFlight =>
    rw [slots_lease] at balanced ⊢
    exact balanced
  | dropped => exact live_drop balanced

theorem cap_drop (p : Pool α) (hold : Hold α) : (hold.drop p).cap = p.cap := by
  cases hold with
  | nothing | inquiry directory name affinity | dial name endpoint => rfl
  | lease l =>
    rw [drop_lease, release]
    split <;> rfl

/-- A move keeps within the cap. -/
theorem Move.live_le {d : Directory} {p p' : Pool α} {hold hold' : Hold α}
    (move : hold.Move d p p' hold') (within : ∀ station, p.liveCount station ≤ p.cap) :
    p'.cap = p.cap ∧ ∀ station, p'.liveCount station ≤ p.cap := by
  cases move with
  | inquire name affinity => exact ⟨rfl, within⟩
  | unserved h => exact ⟨rfl, within⟩
  | @admitted directory name affinity a h =>
    obtain ⟨endpoints, next, -, -, -, granted, pool⟩ := admission_eq_some h
    rw [pool]
    refine ⟨rfl, fun station => ?_⟩
    by_cases here : station = name
    · subst here
      rw [liveCount_update_self]
      exact granted.live_le (Nat.le_trans (Nat.sub_le ..) (within station))
    · rw [liveCount_update_of_ne _ here]
      exact within station
  | connected name endpoint socket => exact ⟨rfl, within⟩
  | used l socket unhealthy inFlight => exact ⟨rfl, within⟩
  | dropped =>
    exact ⟨cap_drop p hold, fun station => Nat.le_trans (liveCount_drop_le p hold station)
      (within station)⟩

end Hold

/-! ## Sockets -/

/-- How often a socket may be about: once if its number was given out. -/
def issued (p : Pool α) (n : Nat) : Nat :=
  if n < p.nextId then 1 else 0

theorem count_idleIds_update (p : Pool α) (station : String) (f : Sockets α → Sockets α) (n : Nat) :
    (p.update station f).idleIds.count n + (p.sockets station).ids.count n =
      p.idleIds.count n + (f (p.sockets station)).ids.count n := by
  have exchanged := (idleIds_update p station f).count_eq n
  rwa [List.count_append, List.count_append] at exchanged

theorem count_idleIds_freeSlot (p : Pool α) (station : String) (n : Nat) :
    (p.freeSlot station).idleIds.count n = p.idleIds.count n :=
  Nat.add_right_cancel (count_idleIds_update p station Sockets.freeSlot n)

/-- Whether an answer hands out the socket with a number. -/
def Grant.tally (n : Nat) : Grant α → Nat
  | .reuse i => if i.id = n then 1 else 0
  | .connect | .refuse => 0

theorem Sockets.count_prune_le (s : Sockets α) (endpoints : List String) (n : Nat) :
    (s.prune endpoints).ids.count n ≤ s.ids.count n :=
  (List.filter_sublist.map Idle.id).count_le n

theorem Sockets.ids_giveBack (s : Sockets α) (i : Idle α) : (s.giveBack i).ids = s.ids ++ [i.id] :=
  List.map_append

/-- A socket that is handed out is no longer idle. -/
theorem Sockets.Granted.count_ids {cap : Nat} {s next : Sockets α} {g : Grant α}
    (granted : Granted cap s g next) (n : Nat) :
    next.ids.count n + g.tally n = s.ids.count n := by
  cases granted with
  | @reuse i next idle live =>
    have counts := (idle.map Idle.id).count_eq n
    rw [List.map_cons, List.count_cons] at counts
    simpa [ids, Grant.tally] using counts
  | connect room => rfl
  | refuse full exhausted => rfl

namespace Hold

/-- Whether the hold is the socket with a number, as a number. -/
def tally (hold : Hold α) (n : Nat) : Nat :=
  (hold.isOf n).toNat

@[simp] theorem tally_lease (l : Lease α) (n : Nat) :
    (lease l).tally n = if l.id = n then 1 else 0 := by
  by_cases same : l.id = n <;> simp [tally, isOf, same]

theorem tally_admission (a : Admission α) (station : String) (n : Nat) :
    (a.hold station).tally n = a.grant.tally n := by
  unfold Admission.hold
  cases a.grant with
  | reuse i => exact tally_lease _ n
  | connect => rfl
  | refuse => rfl

/-- What is given up is idle or gone. -/
theorem tally_drop (p : Pool α) (hold : Hold α) (n : Nat) :
    (hold.drop p).nextId = p.nextId ∧
      (hold.drop p).idleIds.count n ≤ p.idleIds.count n + hold.tally n := by
  cases hold with
  | nothing | inquiry directory name affinity => exact ⟨rfl, Nat.le_add_right ..⟩
  | dial name endpoint => exact ⟨rfl, Nat.le_of_eq (count_idleIds_freeSlot p name n)⟩
  | lease l =>
    cases fit : l.isUnfit with
    | true =>
      rw [drop_unfit p fit]
      exact ⟨rfl, (count_idleIds_freeSlot p l.station n).symm ▸ Nat.le_add_right ..⟩
    | false =>
      rw [drop_fit p fit, tally_lease]
      refine ⟨rfl, ?_⟩
      have exchanged := count_idleIds_update p l.station (·.giveBack l.toIdle) n
      have number : l.toIdle.id = l.id := rfl
      rw [Sockets.ids_giveBack, List.count_append, List.count_singleton] at exchanged
      simp only [number, beq_iff_eq] at exchanged
      omega

/-- A move leaves every socket in one place at most, whatever the others hold. -/
theorem Move.tally_le {d : Directory} {p p' : Pool α} {hold hold' : Hold α}
    (move : hold.Move d p p' hold') {n k : Nat}
    (owned : p.idleIds.count n + k + hold.tally n ≤ p.issued n) :
    p'.idleIds.count n + k + hold'.tally n ≤ p'.issued n := by
  cases move with
  | inquire name affinity => exact owned
  | unserved h => exact owned
  | @admitted directory name affinity a h =>
    obtain ⟨endpoints, next, -, -, -, granted, pool⟩ := admission_eq_some h
    have pruned := (p.sockets name).count_prune_le endpoints n
    have granted := granted.count_ids n
    have exchanged := count_idleIds_update p name (fun _ => next) n
    rw [pool, tally_admission]
    change _ ≤ p.issued n
    omega
  | connected name endpoint socket =>
    have unowned : tally (dial name endpoint : Hold α) n = 0 := rfl
    rw [unowned] at owned
    rw [tally_lease]
    change p.idleIds.count n + k + (if p.nextId = n then 1 else 0) ≤
      if n < p.nextId + 1 then 1 else 0
    unfold issued at owned
    split at owned <;> split <;> split <;> omega
  | used l socket unhealthy inFlight =>
    rw [tally_lease] at owned ⊢
    exact owned
  | dropped =>
    obtain ⟨next, dropped⟩ := tally_drop p hold n
    change _ + k + 0 ≤ if n < (hold.drop p).nextId then 1 else 0
    rw [next]
    change _ ≤ p.issued n
    omega

end Hold

/-! ## Usages -/

namespace Usage

/-- The clients that hold the socket with a number. -/
def holders (u : Usage α) (n : Nat) : Nat :=
  u.holds.countP fun hold => hold.isOf n

/-- All slots and all sockets are accounted for. -/
structure Accounted (u : Usage α) : Prop where
  live : ∀ station, u.pool.liveCount station =
    u.pool.idleCount station + (u.leased station + u.dialled station)
  within : ∀ station, u.pool.liveCount station ≤ u.pool.cap
  owned : ∀ n, u.pool.idleIds.count n + u.holders n ≤ u.pool.issued n

variable {d : Directory} {p : Pool α} {hold : Hold α} {rest : Multiset (Hold α)}

theorem slots_cons (station : String) :
    (⟨d, p, hold ::ₘ rest⟩ : Usage α).leased station + dialled ⟨d, p, hold ::ₘ rest⟩ station =
      (⟨d, p, rest⟩ : Usage α).leased station + dialled ⟨d, p, rest⟩ station +
        hold.slots station := by
  simp only [leased, dialled, Multiset.countP_cons, Hold.slots]
  cases hold.isLease station <;> cases hold.isDial station <;> simp <;> omega

theorem holders_cons (n : Nat) :
    (⟨d, p, hold ::ₘ rest⟩ : Usage α).holders n = holders ⟨d, p, rest⟩ n + hold.tally n := by
  simp only [holders, Multiset.countP_cons, Hold.tally]
  cases hold.isOf n <;> simp

theorem Accounted.step {u u' : Usage α} (accounted : u.Accounted) (step : Step u u') :
    u'.Accounted ∧ u'.pool.cap = u.pool.cap := by
  obtain ⟨live, within, owned⟩ := accounted
  cases step with
  | redirect directory => exact ⟨⟨live, within, owned⟩, rfl⟩
  | join =>
    refine ⟨⟨fun station => ?_, within, fun n => ?_⟩, rfl⟩
    · rw [slots_cons]
      exact live station
    · rw [holders_cons]
      exact owned n
  | leave d p rest =>
    refine ⟨⟨fun station => ?_, within, fun n => ?_⟩, rfl⟩
    · have before := live station
      rwa [slots_cons] at before
    · have before := owned n
      rwa [holders_cons] at before
  | @move d p p' hold hold' rest move =>
    obtain ⟨cap, within'⟩ := move.live_le within
    refine ⟨⟨fun station => ?_, fun station => cap ▸ within' station, fun n => ?_⟩, cap⟩
    · have before := live station
      rw [slots_cons, ← Nat.add_assoc] at before
      rw [slots_cons, ← Nat.add_assoc]
      exact move.live_eq before
    · have before := owned n
      rw [holders_cons, ← Nat.add_assoc] at before
      rw [holders_cons, ← Nat.add_assoc]
      exact move.tally_le before

theorem Reachable.accounted {cap : Nat} {u : Usage α} (reachable : Reachable cap u) :
    u.Accounted ∧ u.pool.cap = cap := by
  induction reachable with
  | refl => exact ⟨⟨fun _ => rfl, fun _ => Nat.zero_le _, fun _ => Nat.zero_le _⟩, rfl⟩
  | tail _ step ih =>
    obtain ⟨accounted, cap⟩ := ih
    obtain ⟨accounted', same⟩ := accounted.step step
    exact ⟨accounted', same.trans cap⟩

/-- Whoever has a slot to free is counted as live. -/
theorem Accounted.live_pos {u : Usage α} (accounted : u.Accounted) {hold : Hold α}
    (mem : hold ∈ u.holds) {station : String}
    (has : hold.isLease station ∨ hold.isDial station) : 0 < u.pool.liveCount station := by
  have live := accounted.live station
  rcases has with lease | dial
  · have leased : 0 < u.leased station := Multiset.countP_pos.mpr ⟨hold, mem, lease⟩
    omega
  · have dialled : 0 < u.dialled station := Multiset.countP_pos.mpr ⟨hold, mem, dial⟩
    omega

/-- A leased socket is not idle anywhere. -/
theorem Accounted.not_mem_idleIds {u : Usage α} (accounted : u.Accounted) {l : Lease α}
    (mem : .lease l ∈ u.holds) : l.id ∉ u.pool.idleIds := by
  intro idle
  have owned := accounted.owned l.id
  have held : 0 < u.holders l.id :=
    Multiset.countP_pos.mpr ⟨_, mem, by simp [Hold.isOf]⟩
  have counted := List.count_pos_iff.mpr idle
  have issued : u.pool.issued l.id ≤ 1 := by
    unfold issued
    split <;> decide
  omega

/-- However its clients go about it, a pool that was empty at first counts as live, for every station,
the idle sockets, the leased ones and those being connected, and never more than its cap. So giving up
stale sockets takes away no more than there is, and whoever frees a slot has one. -/
theorem live_eq_of_reachable {cap : Nat} {u : Usage α} (reachable : Reachable cap u)
    (station : String) :
    u.pool.liveCount station =
        u.pool.idleCount station + (u.leased station + u.dialled station) ∧
      u.pool.liveCount station ≤ cap ∧
      (∀ endpoints,
        ((u.pool.sockets station).stale endpoints).length ≤ u.pool.liveCount station) ∧
      ∀ hold ∈ u.holds, hold.isLease station ∨ hold.isDial station →
        0 < u.pool.liveCount station := by
  obtain ⟨accounted, cap⟩ := reachable.accounted
  have live := accounted.live station
  refine ⟨live, cap ▸ accounted.within station, fun endpoints => ?_,
    fun _ mem => accounted.live_pos mem⟩
  have stale : ((u.pool.sockets station).stale endpoints).length ≤ u.pool.idleCount station :=
    List.length_filter_le ..
  omega

/-- A client has connected to a station, so that a pool with a cap of one is full. -/
theorem live_eq_of_connected :
    let u : Usage Unit :=
      { directory := [("orders", ["10.0.0.1:9000"])]
        pool := { cap := 1, nextId := 2, stations := [("orders", { live := 1 })] }
        holds := {.lease ⟨"orders", 1, "10.0.0.1:9000", (), false, false⟩} }
    Reachable 1 u ∧ u.pool.liveCount "orders" =
        u.pool.idleCount "orders" + (u.leased "orders" + u.dialled "orders") ∧
      u.pool.liveCount "orders" ≤ 1 := by
  intro u
  have admitted : ({ cap := 1 } : Pool Unit).admission u.directory "orders" "" =
      some ⟨⟨.connect, [], { cap := 1, stations := [("orders", { live := 1 })] }⟩,
        "10.0.0.1:9000"⟩ := rfl
  have looked : Reachable 1
      (⟨u.directory, { cap := 1 }, {.inquiry u.directory "orders" ""}⟩ : Usage Unit) :=
    .tail (.tail (.tail .refl (.redirect _ u.directory)) (.join _)) (.move 0 (.inquire "orders" ""))
  have dialling := looked.tail (.move 0 (.admitted admitted))
  have leasing : Reachable 1 u := dialling.tail (.move 0 (.connected "orders" "10.0.0.1:9000" ()))
  have counted := live_eq_of_reachable leasing "orders"
  exact ⟨leasing, counted.1, counted.2.1⟩
end Usage

end Pool

end Switchboard
