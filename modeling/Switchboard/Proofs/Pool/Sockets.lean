import Mathlib.Data.List.Perm.Basic
import Switchboard.Pool.Admission

/-!
# What the operations of a pool do

Every operation works on the sockets of one station. A lemma for each says what becomes of the idle
sockets, up to their order, and of the number of live ones.
-/

namespace Switchboard

namespace Pool

open scoped List

variable {α : Type}

theorem swapErase_concat {β : Type} (front : List β) (last : β) (i : Nat) :
    swapErase (front ++ [last]) i = front.set i last := by
  have same (k : Nat) : [last].set k last = [last] := by cases k <;> rfl
  simp only [swapErase, List.getLast?_concat, List.set_append]
  split
  · exact List.dropLast_concat
  · next past =>
    rw [same, List.dropLast_concat, List.set_eq_of_length_le (Nat.le_of_not_lt past)]

/-- An element and what is left when it was swapped out are the whole list. -/
theorem swapErase_perm {β : Type} {l : List β} {i : Nat} {x : β} (h : l[i]? = some x) :
    x :: swapErase l i ~ l := by
  rcases List.eq_nil_or_concat l with rfl | ⟨front, last, rfl⟩
  · cases h
  rw [List.concat_eq_append] at h ⊢
  rw [swapErase_concat]
  by_cases inside : i < front.length
  · rw [List.getElem?_append_left inside] at h
    obtain ⟨_, rfl⟩ := List.getElem?_eq_some_iff.mp h
    calc
      front[i] :: front.set i last
        ~ front[i] :: last :: front.eraseIdx i := .cons _ (List.set_perm_cons_eraseIdx inside last)
      _ ~ last :: front[i] :: front.eraseIdx i := .swap ..
      _ ~ last :: front := .cons _ (List.getElem_cons_eraseIdx_perm inside)
      _ ~ front ++ [last] := (List.perm_append_singleton last front).symm
  · rw [List.getElem?_append_right (Nat.le_of_not_lt inside)] at h
    obtain rfl := List.mem_singleton.mp (List.mem_of_getElem? h)
    rw [List.set_eq_of_length_le (Nat.le_of_not_lt inside)]
    exact (List.perm_append_singleton _ front).symm

namespace Sockets

/-- The idle sockets are those that stay and those that are stale. -/
theorem prune_append_stale_perm (s : Sockets α) (endpoints : List String) :
    (s.prune endpoints).idle ++ s.stale endpoints ~ s.idle :=
  List.filter_append_perm _ s.idle

theorem prune_add_stale (s : Sockets α) (endpoints : List String) :
    (s.prune endpoints).idle.length + (s.stale endpoints).length = s.idle.length := by
  rw [← List.length_append, (s.prune_append_stale_perm endpoints).length_eq]

/-- What each answer to a request does to the sockets. -/
inductive Granted (cap : Nat) (s : Sockets α) : Grant α → Sockets α → Prop
  | reuse {i : Idle α} {next : Sockets α} (idle : i :: next.idle ~ s.idle)
      (live : next.live = s.live) : Granted cap s (.reuse i) next
  | connect (room : s.live < cap) : Granted cap s .connect { s with live := s.live + 1 }
  | refuse (full : cap ≤ s.live) (exhausted : s.idle = []) : Granted cap s .refuse s

theorem granted_grant (s : Sockets α) (cap : Nat) (preferred : String) :
    Granted cap s (s.grant cap preferred).1 (s.grant cap preferred).2 := by
  unfold grant
  split
  · next i socket found =>
    obtain ⟨j, -, at_j⟩ := Option.bind_eq_some_iff.mp found
    obtain ⟨socket', at_i, same⟩ := Option.map_eq_some_iff.mp at_j
    obtain ⟨rfl, rfl⟩ := Prod.mk.inj same
    exact .reuse (swapErase_perm at_i) rfl
  · by_cases room : s.live < cap
    · rw [if_pos room]
      exact .connect room
    · rw [if_neg room]
      split
      · next socket last =>
        refine .reuse ?_ rfl
        have split := List.dropLast_append_getLast? socket last
        exact (List.perm_append_singleton socket s.idle.dropLast).symm.trans (.of_eq split)
      · next last =>
        exact .refuse (Nat.le_of_not_lt room) (List.getLast?_eq_none_iff.mp last)

/-- Nothing becomes idle by an answer, and what is handed out was idle. -/
theorem Granted.idle_subset {cap : Nat} {s next : Sockets α} {g : Grant α}
    (granted : Granted cap s g next) :
    next.idle ⊆ s.idle ∧ ∀ i, g = .reuse i → i ∈ s.idle := by
  cases granted with
  | reuse idle live =>
    have subset := idle.subset
    refine ⟨fun i mem => subset (.tail _ mem), ?_⟩
    rintro i ⟨⟩
    exact subset (.head _)
  | connect room => exact ⟨List.Subset.refl _, nofun⟩
  | refuse full exhausted => exact ⟨List.Subset.refl _, nofun⟩

/-- The numbers of the idle sockets. -/
def ids (s : Sockets α) : List Nat :=
  s.idle.map Idle.id

end Sockets

theorem lookup_setSockets (stations : List (String × Sockets α)) (station name : String)
    (s : Sockets α) :
    (setSockets stations station s).lookup name =
      if name = station then some s else stations.lookup name := by
  induction stations with
  | nil => by_cases same : name = station <;> simp [setSockets, same]
  | cons entry rest ih =>
    obtain ⟨key, old⟩ := entry
    by_cases here : key = station
    · subst here
      by_cases same : name = key
      · simp [setSockets, same]
      · simp [setSockets, List.lookup_cons, beq_false_of_ne same, same]
    · by_cases first : name = key
      · subst first
        simp [setSockets, here]
      · simp [setSockets, here, List.lookup_cons, beq_false_of_ne first, ih]

/-- An update concerns one station. -/
theorem sockets_update (p : Pool α) (station name : String) (f : Sockets α → Sockets α) :
    (p.update station f).sockets name =
      if name = station then f (p.sockets station) else p.sockets name := by
  simp only [sockets, update, lookup_setSockets]
  split <;> rfl

@[simp] theorem sockets_update_self (p : Pool α) (station : String)
    (f : Sockets α → Sockets α) : (p.update station f).sockets station = f (p.sockets station) := by
  simp [sockets_update]

theorem sockets_update_of_ne (p : Pool α) {station name : String} (other : name ≠ station)
    (f : Sockets α → Sockets α) : (p.update station f).sockets name = p.sockets name := by
  simp [sockets_update, other]

@[simp] theorem liveCount_update_self (p : Pool α) (station : String)
    (f : Sockets α → Sockets α) :
    (p.update station f).liveCount station = (f (p.sockets station)).live := by
  simp [liveCount]

@[simp] theorem idleCount_update_self (p : Pool α) (station : String)
    (f : Sockets α → Sockets α) :
    (p.update station f).idleCount station = (f (p.sockets station)).idle.length := by
  simp [idleCount]

theorem liveCount_update_of_ne (p : Pool α) {station name : String} (other : name ≠ station)
    (f : Sockets α → Sockets α) : (p.update station f).liveCount name = p.liveCount name := by
  simp [liveCount, sockets_update_of_ne p other]

theorem idleCount_update_of_ne (p : Pool α) {station name : String} (other : name ≠ station)
    (f : Sockets α → Sockets α) : (p.update station f).idleCount name = p.idleCount name := by
  simp [idleCount, sockets_update_of_ne p other]

/-- The numbers of all idle sockets. -/
def idleIds (p : Pool α) : List Nat :=
  p.stations.flatMap fun entry => entry.2.ids

/-- Whatever is listed of each station's sockets, setting those of one station exchanges its part. -/
theorem flatMap_setSockets {β : Type} (list : String × Sockets α → List β)
    (stations : List (String × Sockets α)) (station : String) (s : Sockets α)
    (empty : list (station, {}) = []) :
    (setSockets stations station s).flatMap list ++
        list (station, (stations.lookup station).getD {}) ~
      stations.flatMap list ++ list (station, s) := by
  induction stations with
  | nil => simp [setSockets, empty]
  | cons entry rest ih =>
    obtain ⟨key, old⟩ := entry
    by_cases here : key = station
    · subst here
      simp only [setSockets, if_true, List.flatMap_cons, List.lookup_cons_self, Option.getD_some]
      calc
        list (key, s) ++ rest.flatMap list ++ list (key, old)
          ~ list (key, old) ++ (list (key, s) ++ rest.flatMap list) := List.perm_append_comm
        _ ~ list (key, old) ++ (rest.flatMap list ++ list (key, s)) :=
          .append_left _ List.perm_append_comm
        _ = list (key, old) ++ rest.flatMap list ++ list (key, s) :=
          (List.append_assoc ..).symm
    · have other : (station == key) = false := by simpa using Ne.symm here
      simp only [setSockets, here, if_false, List.flatMap_cons, List.lookup_cons, other,
        List.append_assoc]
      exact .append_left _ ih

/-- An update exchanges the idle sockets of its station. -/
theorem idleIds_update (p : Pool α) (station : String) (f : Sockets α → Sockets α) :
    (p.update station f).idleIds ++ (p.sockets station).ids ~
      p.idleIds ++ (f (p.sockets station)).ids :=
  flatMap_setSockets (·.2.ids) p.stations station (f (p.sockets station)) rfl

theorem id_mem_idleIds {p : Pool α} {station : String} {i : Idle α}
    (mem : i ∈ (p.sockets station).idle) : i.id ∈ p.idleIds := by
  unfold sockets at mem
  cases found : p.stations.lookup station with
  | none => simp [found] at mem
  | some s =>
    obtain ⟨front, rest, split, -⟩ := List.lookup_eq_some_iff.mp found
    rw [found, Option.getD_some] at mem
    refine List.mem_flatMap.mpr ⟨(station, s), ?_, List.mem_map_of_mem mem⟩
    simp [split]

/-- What an admission does: the stale sockets of the station go, and the others answer. -/
theorem admission_eq_some {p : Pool α} {d : Directory} {station affinity : String}
    {a : Admission α} (h : p.admission d station affinity = some a) :
    ∃ endpoints next, d.resolve station = some endpoints ∧ a.preferred ∈ endpoints ∧
      a.stale = (p.sockets station).stale endpoints ∧
      Sockets.Granted p.cap ((p.sockets station).prune endpoints) a.grant next ∧
      a.pool = p.update station fun _ => next := by
  simp only [admission, Option.pure_def, Option.bind_eq_bind, Option.bind_eq_some_iff,
    Option.some.injEq] at h
  obtain ⟨endpoints, resolved, preferred, chosen, rfl⟩ := h
  exact ⟨endpoints, _, resolved, List.mem_of_getElem? chosen, rfl, Sockets.granted_grant .., rfl⟩

/-- An admission hands out what was idle, if anything, and no more is idle afterwards. -/
theorem admission_idle {p : Pool α} {d : Directory} {station affinity : String}
    {a : Admission α} (h : p.admission d station affinity = some a) :
    (∀ name, (a.pool.sockets name).idle ⊆ (p.sockets name).idle) ∧
      a.pool.nextId = p.nextId ∧ ∀ i, a.grant = .reuse i → i ∈ (p.sockets station).idle := by
  obtain ⟨endpoints, next, -, -, -, granted, pool⟩ := admission_eq_some h
  obtain ⟨kept, handed⟩ := granted.idle_subset
  have pruned : ((p.sockets station).prune endpoints).idle ⊆ (p.sockets station).idle :=
    List.filter_sublist.subset
  refine ⟨?_, pool ▸ rfl, fun i grant => pruned (handed i grant)⟩
  intro name
  rw [pool, sockets_update]
  split
  · next same => exact same ▸ fun i mem => pruned (kept mem)
  · exact List.Subset.refl _

end Pool

end Switchboard
