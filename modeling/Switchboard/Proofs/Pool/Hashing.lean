import Mathlib.Data.List.Rotate
import Switchboard.Proofs.Pool.Accounting

/-!
# Any hash

Which endpoint an affinity prefers is a matter of its hash. `admissionBy` and `Usage.StepBy` leave the
hash open; with the pool's own hash they are what a pool and its clients do (`reachableBy_affinityHash`).
With another hash a client gets the answer that it would get if the directory listed the endpoints in
another order (`exists_admission`), so all slots and sockets are accounted for as before.
-/

namespace Switchboard.Pool

variable {α : Type} {hash : String → UInt64}

/-- Which of some endpoints an affinity prefers if it is hashed like this. -/
def indexBy (hash : String → UInt64) (affinity : String) (count : Nat) : Nat :=
  if count ≤ 1 then 0 else (hash affinity).toNat % count

theorem indexBy_lt (hash : String → UInt64) (affinity : String) {count : Nat} (some : 0 < count) :
    indexBy hash affinity count < count := by
  unfold indexBy
  split
  · exact some
  · exact Nat.mod_lt _ some

/-- What the pool does at once for an attempt if affinities are hashed like this. -/
def admissionBy (p : Pool α) (hash : String → UInt64) (d : Directory) (station affinity : String) :
    Option (Admission α) := do
  let endpoints ← d.resolve station
  let preferred ← endpoints[indexBy hash affinity endpoints.length]?
  return { p.request station endpoints preferred with preferred }

theorem admission_eq (p : Pool α) : p.admission = p.admissionBy affinityHash := rfl

theorem admissionBy_eq_some {p : Pool α} {d : Directory} {station affinity : String}
    {a : Admission α} : p.admissionBy hash d station affinity = some a ↔
      ∃ endpoints preferred, d.resolve station = some endpoints ∧
        endpoints[indexBy hash affinity endpoints.length]? = some preferred ∧
        { p.request station endpoints preferred with preferred } = a := by
  simp [admissionBy, Option.bind_eq_some_iff]

/-- A pool answers if the station is served. -/
theorem admissionBy_of_resolve (p : Pool α) (hash : String → UInt64) {d : Directory}
    {station : String} {endpoints : List String} (resolved : d.resolve station = some endpoints)
    (affinity : String) :
    ∃ preferred, endpoints[indexBy hash affinity endpoints.length]? = some preferred ∧
      p.admissionBy hash d station affinity =
        some { p.request station endpoints preferred with preferred } := by
  have some : endpoints ≠ [] := by
    have filled := (Option.filter_eq_some_iff.mp resolved).2
    simpa using filled
  have chosen := List.getElem?_eq_getElem
    (indexBy_lt hash affinity (List.length_pos_iff.mpr some))
  exact ⟨_, chosen, admissionBy_eq_some.mpr ⟨endpoints, _, resolved, chosen, rfl⟩⟩

/-- To the idle sockets the order of the endpoints is all the same. -/
theorem request_congr (p : Pool α) (station : String) {endpoints order : List String}
    (same : ∀ e, e ∈ order ↔ e ∈ endpoints) (preferred : String) :
    p.request station order preferred = p.request station endpoints preferred := by
  have contains (e : String) : order.contains e = endpoints.contains e := by
    simp [same]
  simp only [request, Sockets.prune, Sockets.stale, contains]

/-- Endpoints in an order in which a given one is preferred. -/
theorem exists_order {endpoints : List String} {preferred : String} (mem : preferred ∈ endpoints)
    (affinity : String) : ∃ order : List String, (∀ e, e ∈ order ↔ e ∈ endpoints) ∧
      order[affinityIndex affinity order.length]? = some preferred := by
  obtain ⟨j, inside, rfl⟩ := List.getElem_of_mem mem
  let k := affinityIndex affinity endpoints.length
  have within : k < endpoints.length :=
    indexBy_lt affinityHash affinity (Nat.zero_lt_of_lt inside)
  refine ⟨endpoints.rotate (endpoints.length - k + j), fun e => List.mem_rotate, ?_⟩
  have back : (k + (endpoints.length - k + j)) % endpoints.length = j := by
    rw [← Nat.add_assoc, Nat.add_sub_cancel' within.le, Nat.add_mod_left, Nat.mod_eq_of_lt inside]
  rw [List.length_rotate, List.getElem?_rotate within, back, List.getElem?_eq_getElem inside]

theorem resolve_singleton (station : String) {endpoints : List String} (some : endpoints ≠ []) :
    Directory.resolve [(station, endpoints)] station = .some endpoints := by
  simp [Directory.resolve, Directory.get?, Option.filter, some]

/-- Whatever the hash, the answer is one that the pool gives in some directory. -/
theorem exists_admission {p : Pool α} {d : Directory} {station affinity : String} {a : Admission α}
    (h : p.admissionBy hash d station affinity = some a) :
    ∃ d' : Directory, p.admission d' station affinity = some a := by
  obtain ⟨endpoints, preferred, -, chosen, rfl⟩ := admissionBy_eq_some.mp h
  obtain ⟨order, same, first⟩ := exists_order (List.mem_of_getElem? chosen) affinity
  have some : order ≠ [] := by
    rintro rfl
    cases first
  refine ⟨[(station, order)], admissionBy_eq_some.mpr ⟨order, preferred, ?_, first, ?_⟩⟩
  · exact resolve_singleton station some
  · rw [request_congr p station same]

/-! ## Clients -/

/-- What a client can do if affinities are hashed like this. -/
inductive Hold.MoveBy (hash : String → UInt64) (d : Directory) (p : Pool α) :
    Hold α → Pool α → Hold α → Prop
  | admitted {directory : Directory} {station affinity : String} {a : Admission α}
      (h : p.admissionBy hash directory station affinity = some a) :
      MoveBy hash d p (.inquiry directory station affinity) a.pool (a.hold station)
  /-- The station is not served, or the client does not ask. -/
  | unanswered (directory : Directory) (station affinity : String) :
      MoveBy hash d p (.inquiry directory station affinity) p .nothing
  | other {p' : Pool α} {hold hold' : Hold α} (h : hold.Move d p p' hold')
      (unasked : ∀ directory station affinity, hold ≠ .inquiry directory station affinity) :
      MoveBy hash d p hold p' hold'

theorem Hold.moveBy_affinityHash {d : Directory} {p p' : Pool α} {hold hold' : Hold α} :
    hold.MoveBy affinityHash d p p' hold' ↔ hold.Move d p p' hold' := by
  constructor
  · intro move
    cases move with
    | admitted h => exact .admitted h
    | unanswered directory station affinity => exact .dropped _
    | other h unasked => exact h
  · intro move
    cases hold with
    | inquiry directory station affinity =>
      cases move with
      | unserved h => exact .unanswered ..
      | admitted h => exact .admitted h
      | dropped => exact .unanswered ..
    | nothing => exact .other move nofun
    | dial station endpoint => exact .other move nofun
    | lease l => exact .other move nofun

namespace Usage

/-- A step if affinities are hashed like this, and what the client held that has moved. -/
inductive StepBy (hash : String → UInt64) : Hold α → Usage α → Usage α → Prop
  | redirect (u : Usage α) (directory : Directory) : StepBy hash .nothing u { u with directory }
  | join (u : Usage α) : StepBy hash .nothing u { u with holds := .nothing ::ₘ u.holds }
  | leave (d : Directory) (p : Pool α) (rest : Multiset (Hold α)) :
      StepBy hash .nothing ⟨d, p, .nothing ::ₘ rest⟩ ⟨d, p, rest⟩
  | move {d : Directory} {p p' : Pool α} {hold hold' : Hold α} (rest : Multiset (Hold α))
      (h : hold.MoveBy hash d p p' hold') :
      StepBy hash hold ⟨d, p, hold ::ₘ rest⟩ ⟨d, p', hold' ::ₘ rest⟩

/-- The usage comes about from an empty pool if affinities are hashed like this. -/
def ReachableBy (hash : String → UInt64) (cap : Nat) (u : Usage α) : Prop :=
  Relation.ReflTransGen (fun u u' => ∃ mover, StepBy hash mover u u') { pool := { cap } } u

theorem stepBy_affinityHash {u u' : Usage α} :
    (∃ mover, StepBy affinityHash mover u u') ↔ Step u u' := by
  constructor
  · rintro ⟨mover, step⟩
    cases step with
    | redirect _ directory => exact .redirect u directory
    | join => exact .join u
    | leave d p rest => exact .leave d p rest
    | move rest h => exact .move rest (Hold.moveBy_affinityHash.mp h)
  · intro step
    cases step with
    | redirect _ directory => exact ⟨_, .redirect u directory⟩
    | join => exact ⟨_, .join u⟩
    | leave d p rest => exact ⟨_, .leave d p rest⟩
    | move rest h => exact ⟨_, .move rest (Hold.moveBy_affinityHash.mpr h)⟩

/-- With the hash of the pool these are the usages that there are. -/
theorem reachableBy_affinityHash {cap : Nat} {u : Usage α} :
    ReachableBy affinityHash cap u ↔ Reachable cap u := by
  simp only [ReachableBy, stepBy_affinityHash]
  exact Iff.rfl

variable {d : Directory} {p : Pool α} {rest : Multiset (Hold α)}

/-- It does not matter what a client was told by the directory. -/
theorem Accounted.told {directory : Directory} {station affinity : String}
    (accounted : (⟨d, p, .inquiry directory station affinity ::ₘ rest⟩ : Usage α).Accounted)
    (directory' : Directory) :
    (⟨d, p, .inquiry directory' station affinity ::ₘ rest⟩ : Usage α).Accounted := by
  obtain ⟨live, within, owned⟩ := accounted
  refine ⟨fun name => ?_, within, fun n => ?_⟩
  · have before := live name
    rw [slots_cons] at before ⊢
    exact before
  · have before := owned n
    rw [holders_cons] at before ⊢
    exact before

theorem Accounted.stepBy {u u' : Usage α} {mover : Hold α} (accounted : u.Accounted)
    (step : StepBy hash mover u u') : u'.Accounted ∧ u'.pool.cap = u.pool.cap := by
  cases step with
  | redirect _ directory => exact accounted.step (.redirect u directory)
  | join => exact accounted.step (.join u)
  | leave d p rest => exact accounted.step (.leave d p rest)
  | move rest h =>
    cases h with
    | admitted h =>
      obtain ⟨directory, h⟩ := exists_admission h
      exact (accounted.told directory).step (.move rest (.admitted h))
    | unanswered directory station affinity => exact accounted.step (.move rest (.dropped _))
    | other h unasked => exact accounted.step (.move rest h)

/-- Whatever the hash, all slots and all sockets are accounted for. -/
theorem ReachableBy.accounted {cap : Nat} {u : Usage α} (reachable : ReachableBy hash cap u) :
    u.Accounted ∧ u.pool.cap = cap := by
  induction reachable with
  | refl => exact (Reachable.accounted .refl)
  | tail _ step ih =>
    obtain ⟨accounted, cap⟩ := ih
    obtain ⟨mover, step⟩ := step
    obtain ⟨accounted', same⟩ := accounted.stepBy step
    exact ⟨accounted', same.trans cap⟩

end Usage

end Switchboard.Pool
