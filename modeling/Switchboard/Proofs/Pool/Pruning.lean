import Switchboard.Proofs.Pool.Hashing
import Switchboard.Proofs.Pool.Ownership

/-!
# Sockets whose endpoint has left

A request closes the idle sockets of its station that are connected to none of the endpoints that the
directory has answered, and they never come back. But where the directory answers no endpoint there is
no request, and all idle sockets stay (`Usage.attempt_closes_stale`): they are used again when the
station comes back.
-/

namespace Switchboard.Pool

variable {α : Type}

/-- The pool as an attempt leaves it before anything is connected. -/
def attempted (p : Pool α) (d : Directory) (station affinity : String) : Pool α :=
  (p.admission d station affinity).elim p (·.pool)

theorem admission_of_resolve (p : Pool α) {d : Directory} {station : String}
    {endpoints : List String} (resolved : d.resolve station = some endpoints) (affinity : String) :
    ∃ a, p.admission d station affinity = some a := by
  obtain ⟨preferred, -, answered⟩ := p.admissionBy_of_resolve affinityHash resolved affinity
  exact ⟨_, answered⟩

theorem admission_eq_none {p : Pool α} {d : Directory} {station affinity : String} :
    p.admission d station affinity = none ↔ d.resolve station = none := by
  constructor
  · intro unanswered
    by_contra served
    obtain ⟨endpoints, resolved⟩ := Option.ne_none_iff_exists'.mp served
    obtain ⟨a, answered⟩ := p.admission_of_resolve resolved affinity
    cases unanswered.symm.trans answered
  · intro unserved
    simp [admission, unserved]

/-- The idle sockets that a request leaves are to endpoints that serve the station. -/
theorem endpoint_of_admission {p : Pool α} {d : Directory} {station affinity : String}
    {a : Admission α} {endpoints : List String} (h : p.admission d station affinity = some a)
    (resolved : d.resolve station = some endpoints) :
    a.stale = (p.sockets station).stale endpoints ∧
      ∀ i ∈ (a.pool.sockets station).idle, i.endpoint ∈ endpoints := by
  obtain ⟨endpoints', next, resolved', -, stale, granted, pool⟩ := admission_eq_some h
  obtain rfl := Option.some.inj (resolved'.symm.trans resolved)
  refine ⟨stale, fun i mem => ?_⟩
  rw [pool, sockets_update_self] at mem
  simpa using (List.mem_filter.mp (granted.idle_subset.1 mem)).2

namespace Usage

/-- What an attempt leaves idle at its station. All of it is connected to endpoints that the directory
has answered just if it has answered some or nothing was idle before. If it has, every socket to another
endpoint is closed and nobody ever has it again; if it has not, the pool stays as it is. -/
theorem attempt_closes_stale {cap : Nat} {d known : Directory} {p : Pool α}
    {rest : Multiset (Hold α)} {station affinity : String}
    (reachable : Reachable cap ⟨d, p, .inquiry known station affinity ::ₘ rest⟩) :
    let idle := (p.sockets station).idle
    let left := ((p.attempted known station affinity).sockets station).idle
    ((∀ i ∈ left, ∃ endpoints, known.resolve station = some endpoints ∧ i.endpoint ∈ endpoints) ↔
        known.resolve station ≠ none ∨ idle = []) ∧
      (known.resolve station = none → p.attempted known station affinity = p) ∧
      ∀ endpoints, known.resolve station = some endpoints →
        ∃ a, p.admission known station affinity = some a ∧
          ∀ i ∈ idle, i.endpoint ∉ endpoints → i ∈ a.stale ∧
            ∀ u, Relation.ReflTransGen Step ⟨d, a.pool, a.hold station ::ₘ rest⟩ u →
              ∀ j ∈ u.sockets, j.id ≠ i.id := by
  intro idle left
  have untouched (unserved : known.resolve station = none) :
      p.attempted known station affinity = p := by
    rw [attempted, admission_eq_none.mpr unserved]
    rfl
  refine ⟨?_, untouched, fun endpoints resolved => ?_⟩
  · cases resolved : known.resolve station with
    | none =>
      have same : left = idle := by simp only [left, idle, untouched resolved]
      simp [same, List.eq_nil_iff_forall_not_mem]
    | some endpoints =>
      obtain ⟨a, answered⟩ := p.admission_of_resolve resolved affinity
      obtain ⟨-, served⟩ := endpoint_of_admission answered resolved
      simpa [left, attempted, answered] using served
  · obtain ⟨a, answered⟩ := p.admission_of_resolve resolved affinity
    refine ⟨a, answered, fun i mem gone => ?_⟩
    have stale : i ∈ a.stale := by
      rw [(endpoint_of_admission answered resolved).1]
      simpa [Sockets.stale, gone] using mem
    have closed := (Closes.stale d p rest answered stale).settled reachable.distinct
    exact ⟨stale, fun u steps j mem same => (closed.run steps).only j mem same⟩

/-- A client has connected to the only endpoint of a station and given the socket back; whatever becomes
of the directory, it can look the station up again. -/
theorem reachable_idle (known : Directory) (affinity : String) :
    Reachable 1
      (⟨known, { cap := 1, nextId := 2, stations := [("orders", ⟨[⟨1, "10.0.0.1:9000", ()⟩], 1⟩)] },
        {.inquiry known "orders" affinity}⟩ : Usage Unit) := by
  let d : Directory := [("orders", ["10.0.0.1:9000"])]
  have admitted : ({ cap := 1 } : Pool Unit).admission d "orders" "" =
      some ⟨⟨.connect, [], { cap := 1, stations := [("orders", { live := 1 })] }⟩,
        "10.0.0.1:9000"⟩ := rfl
  have looked : Reachable 1 (⟨d, { cap := 1 }, {.inquiry d "orders" ""}⟩ : Usage Unit) :=
    .tail (.tail (.tail .refl (.redirect _ d)) (.join _)) (.move 0 (.inquire "orders" ""))
  have dialling := looked.tail (.move 0 (.admitted admitted))
  have leasing := dialling.tail (.move 0 (.connected "orders" "10.0.0.1:9000" ()))
  have idle := leasing.tail (.move 0 (.dropped _))
  exact (idle.tail (.redirect _ known)).tail (.move 0 (.inquire "orders" affinity))

/-- The station has moved to another endpoint. -/
theorem attempt_closes_moved :
    let known : Directory := [("orders", ["10.0.0.2:9000"])]
    let p : Pool Unit :=
      { cap := 1, nextId := 2, stations := [("orders", ⟨[⟨1, "10.0.0.1:9000", ()⟩], 1⟩)] }
    Reachable 1 ⟨known, p, {.inquiry known "orders" "r2"}⟩ ∧
      ∃ a, p.admission known "orders" "r2" = some a ∧ ⟨1, "10.0.0.1:9000", ()⟩ ∈ a.stale ∧
        ∀ u, Relation.ReflTransGen Step ⟨known, a.pool, {a.hold "orders"}⟩ u →
          ∀ j ∈ u.sockets, j.id ≠ 1 := by
  intro known p
  have reachable := reachable_idle known "r2"
  obtain ⟨-, -, closes⟩ := attempt_closes_stale reachable
  obtain ⟨a, answered, closed⟩ := closes _ (resolve_singleton "orders" (List.cons_ne_nil _ _))
  obtain ⟨stale, gone⟩ := closed ⟨1, "10.0.0.1:9000", ()⟩ (List.mem_singleton_self _) (by decide)
  exact ⟨reachable, a, answered, stale, gone⟩

/-- The station has left the directory; an attempt leaves its socket idle, and when the station comes
back the next attempt uses it. -/
theorem attempt_keeps_idle :
    let d : Directory := [("orders", ["10.0.0.1:9000"])]
    let known := d.erase "orders"
    let i : Idle Unit := ⟨1, "10.0.0.1:9000", ()⟩
    let p : Pool Unit := { cap := 1, nextId := 2, stations := [("orders", ⟨[i], 1⟩)] }
    Reachable 1 ⟨known, p, {.inquiry known "orders" "r2"}⟩ ∧ known.resolve "orders" = none ∧
      ((p.attempted known "orders" "r2").sockets "orders").idle = [i] ∧
      ∃ a, (p.attempted known "orders" "r2").admission d "orders" "r3" = some a ∧
        a.grant = .reuse i := by
  intro d known i p
  exact ⟨reachable_idle known "r2", rfl, rfl, _, rfl, rfl⟩

end Usage

end Switchboard.Pool
