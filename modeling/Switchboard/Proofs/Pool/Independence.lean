import Switchboard.Proofs.Pool.Accounting
import Switchboard.Proofs.Pool.Board

/-!
# Stations do not influence each other

The stations of a board share a directory, a pool and the numbers of sockets. What a station has of these
is its share, with the numbers left out. A turn at a station depends on the share of that station only
(`Board.Isolates.take?`) and a turn at another one leaves it as it is (`Board.share_of_take?`), so
leaving the turns at all other stations out of a run changes nothing at a station (`Board.run_alone`).
-/

namespace Switchboard.Pool

variable {α : Type}

/-! ## Numbers do not matter -/

def Idle.unnumbered (i : Idle α) : Idle α :=
  { i with id := 0 }

def Grant.unnumbered : Grant α → Grant α
  | .reuse i => .reuse i.unnumbered
  | .connect => .connect
  | .refuse => .refuse

theorem swapErase_map {β γ : Type} (f : β → γ) (l : List β) (i : Nat) :
    swapErase (l.map f) i = (swapErase l i).map f := by
  unfold swapErase
  cases last : l.getLast? <;> simp [last, List.map_set, List.map_dropLast]

namespace Sockets

def unnumbered (s : Sockets α) : Sockets α :=
  { s with idle := s.idle.map Idle.unnumbered }

@[simp] theorem live_unnumbered (s : Sockets α) : s.unnumbered.live = s.live := rfl

@[simp] theorem length_idle_unnumbered (s : Sockets α) :
    s.unnumbered.idle.length = s.idle.length :=
  List.length_map ..

theorem prune_unnumbered (s : Sockets α) (endpoints : List String) :
    s.unnumbered.prune endpoints = (s.prune endpoints).unnumbered := by
  simp only [prune, stale, unnumbered, List.filter_map, List.length_map]
  rfl

theorem lastTo?_unnumbered (s : Sockets α) (endpoint : String) :
    s.unnumbered.lastTo? endpoint = s.lastTo? endpoint := by
  simp only [lastTo?, unnumbered, ← List.map_reverse, List.findIdx?_map, List.length_map]
  rfl

/-- The answer to a request is the same whatever numbers the sockets have. -/
theorem grant_unnumbered (s : Sockets α) (cap : Nat) (preferred : String) :
    s.unnumbered.grant cap preferred =
      ((s.grant cap preferred).1.unnumbered, (s.grant cap preferred).2.unnumbered) := by
  have chosen : ((s.unnumbered.lastTo? preferred).bind fun i =>
      (s.unnumbered.idle[i]?).map (i, ·)) =
      ((s.lastTo? preferred).bind fun i => (s.idle[i]?).map (i, ·)).map
        fun (i, socket) => (i, socket.unnumbered) := by
    rw [lastTo?_unnumbered]
    cases s.lastTo? preferred <;> simp [unnumbered, Function.comp_def]
  unfold grant
  rw [chosen]
  cases (s.lastTo? preferred).bind fun i => (s.idle[i]?).map (i, ·) with
  | some found => simp [Grant.unnumbered, unnumbered, swapErase_map]
  | none =>
    by_cases room : s.live < cap
    · simp [room, Grant.unnumbered, unnumbered]
    · cases last : s.idle.getLast? <;>
        simp [room, last, Grant.unnumbered, unnumbered, List.map_dropLast]

theorem unnumbered_freeSlot (s : Sockets α) : s.freeSlot.unnumbered = s.unnumbered.freeSlot := rfl

theorem unnumbered_giveBack (s : Sockets α) (i : Idle α) :
    (s.giveBack i).unnumbered = s.unnumbered.giveBack i.unnumbered := by
  simp [giveBack, unnumbered]

end Sockets

theorem Grant.decision_unnumbered (g : Grant α) (preferred : String) :
    g.unnumbered.decision preferred = g.decision preferred := by
  cases g <;> rfl

/-! ## What a station answers -/

namespace Directory

theorem resolve_insert (d : Directory) (station name : String) (endpoints : List String) :
    (d.insert station endpoints).resolve name =
      if name = station then (some endpoints).filter (!·.isEmpty) else d.resolve name := by
  unfold resolve get?
  fun_induction insert d station endpoints <;> grind

theorem resolve_erase (d : Directory) (station name : String) :
    (d.erase station).resolve name = if name = station then none else d.resolve name := by
  unfold resolve get? erase
  induction d with
  | nil => simp
  | cons entry rest ih => grind

end Directory

/-! ## Shares -/

/-- What a hold is at a station, without numbers. -/
inductive Stake (α : Type) where
  | nothing
  | inquiry (endpoints : Option (List String)) (affinity : String)
  | dial (endpoint : String)
  | lease (endpoint : String) (socket : α) (unhealthy inFlight : Bool)

def Hold.stake (station : String) : Hold α → Stake α
  | nothing => .nothing
  | inquiry directory name affinity =>
    if name = station then .inquiry (directory.resolve station) affinity else .nothing
  | dial name endpoint => if name = station then .dial endpoint else .nothing
  | lease l =>
    if l.station = station then .lease l.endpoint l.socket l.unhealthy l.inFlight else .nothing

/-- All there is of a station on a board, without numbers. -/
structure Share (α : Type) where
  endpoints : Option (List String)
  cap : Nat
  sockets : Sockets α
  stakes : Nat → Stake α

def Board.share (b : Board α) (station : String) : Share α where
  endpoints := b.directory.resolve station
  cap := b.pool.cap
  sockets := (b.pool.sockets station).unnumbered
  stakes client := (b.hold client).stake station

/-- Holds that differ in numbers only, and in what other stations have of a directory. -/
inductive Hold.Alike (station : String) : Hold α → Hold α → Prop
  | nothing : Alike station .nothing .nothing
  | inquiry {d d' : Directory} (affinity : String) (h : d.resolve station = d'.resolve station) :
      Alike station (.inquiry d station affinity) (.inquiry d' station affinity)
  | dial (endpoint : String) : Alike station (.dial station endpoint) (.dial station endpoint)
  | lease (l : Lease α) (n : Nat) (h : l.station = station) :
      Alike station (.lease l) (.lease { l with id := n })

namespace Hold

theorem alike_of_stake_eq {station : String} {hold hold' : Hold α} (here : hold.isAt station)
    (here' : hold'.isAt station) (same : hold.stake station = hold'.stake station) :
    hold.Alike station hold' := by
  cases hold <;> cases hold' <;> simp only [isAt, decide_eq_true_eq] at here here' <;>
    simp only [stake, here, here', if_true, reduceCtorEq, Stake.inquiry.injEq, Stake.dial.injEq,
      Stake.lease.injEq] at same
  case nothing.nothing => exact .nothing
  case inquiry.inquiry =>
    obtain ⟨resolved, rfl⟩ := same
    subst here here'
    exact .inquiry _ resolved
  case dial.dial =>
    subst here here' same
    exact .dial _
  case lease.lease l l' =>
    have numbered : l' = { l with id := l'.id } := by
      cases l
      cases l'
      simp_all
    rw [numbered]
    exact .lease l l'.id here

variable {station : String} {hold hold' : Hold α}

theorem Alike.stake_eq (alike : hold.Alike station hold') :
    hold.stake station = hold'.stake station := by
  cases alike <;> simp_all [stake]

theorem Alike.isAt (alike : hold.Alike station hold') : hold'.isAt station := by
  cases alike <;> simp_all [Hold.isAt]

end Hold

/-- Pools that differ in numbers only, as far as a station is concerned. -/
structure Agree (station : String) (p q : Pool α) : Prop where
  cap : p.cap = q.cap
  sockets : (p.sockets station).unnumbered = (q.sockets station).unnumbered

/-- Effects that differ in numbers only, as far as a station is concerned. -/
structure Effect.Alike (station : String) (e e' : Effect α) : Prop where
  decision : e.decision = e'.decision
  pool : Agree station e.pool e'.pool
  hold : e.hold.Alike station e'.hold

namespace Agree

variable {station : String} {p q : Pool α}

theorem update (agree : Agree station p q) {f g : Sockets α → Sockets α}
    (same : (f (p.sockets station)).unnumbered = (g (q.sockets station)).unnumbered) :
    Agree station (p.update station f) (q.update station g) := by
  refine ⟨agree.cap, ?_⟩
  simpa using same

theorem freeSlot (agree : Agree station p q) :
    Agree station (p.freeSlot station) (q.freeSlot station) := by
  apply agree.update
  rw [Sockets.unnumbered_freeSlot, Sockets.unnumbered_freeSlot, agree.sockets]

theorem release (agree : Agree station p q) {l : Lease α} (here : l.station = station) (n : Nat) :
    Agree station (p.release l).1 (q.release { l with id := n }).1 := by
  subst here
  have fit : Lease.isUnfit { l with id := n } = l.isUnfit := rfl
  unfold Pool.release
  rw [fit]
  split
  · exact agree.freeSlot
  · dsimp only
    apply agree.update
    rw [Sockets.unnumbered_giveBack, Sockets.unnumbered_giveBack, agree.sockets]
    rfl

theorem hold_alike {a a' : Admission α} (granted : a.grant.unnumbered = a'.grant.unnumbered)
    (preferred : a.preferred = a'.preferred) (station : String) :
    (a.hold station).Alike station (a'.hold station) := by
  unfold Admission.hold
  cases grant : a.grant <;> cases grant' : a'.grant <;>
    simp only [grant, grant', Grant.unnumbered, reduceCtorEq, Grant.reuse.injEq] at granted
  case reuse.reuse i i' =>
    have numbered : Lease.ofIdle station i' = { Lease.ofIdle station i with id := i'.id } := by
      cases i
      cases i'
      simp_all [Idle.unnumbered, Lease.ofIdle]
    dsimp only
    rw [numbered]
    exact .lease _ i'.id rfl
  case connect.connect =>
    rw [preferred]
    exact .dial _
  case refuse.refuse => exact .nothing

/-- A request is decided by what a station has, and numbers play no part in it. -/
theorem admission (agree : Agree station p q) {d d' : Directory}
    (resolved : d.resolve station = d'.resolve station) (affinity : String) :
    (p.admission d station affinity = none ∧ q.admission d' station affinity = none) ∨
    ∃ a a', p.admission d station affinity = some a ∧ q.admission d' station affinity = some a' ∧
      a.grant.unnumbered = a'.grant.unnumbered ∧ a.preferred = a'.preferred ∧
      Agree station a.pool a'.pool := by
  unfold Pool.admission
  rw [← resolved]
  cases d.resolve station with
  | none => exact .inl ⟨rfl, rfl⟩
  | some endpoints =>
    cases chosen : endpoints[affinityIndex affinity endpoints.length]? with
    | none => exact .inl (by simp [chosen])
    | some preferred =>
      have answers : ((p.sockets station).prune endpoints).unnumbered.grant p.cap preferred =
          ((q.sockets station).prune endpoints).unnumbered.grant q.cap preferred := by
        rw [← Sockets.prune_unnumbered, ← Sockets.prune_unnumbered, agree.sockets, agree.cap]
      rw [Sockets.grant_unnumbered, Sockets.grant_unnumbered, Prod.mk.injEq] at answers
      obtain ⟨granted, left⟩ := answers
      have pools : Agree station (p.request station endpoints preferred).pool
          (q.request station endpoints preferred).pool :=
        agree.update (f := fun _ => _) (g := fun _ => _) left
      exact .inr ⟨⟨p.request station endpoints preferred, preferred⟩,
        ⟨q.request station endpoints preferred, preferred⟩, by simp [chosen], by simp [chosen],
        granted, rfl, pools⟩

end Agree

/-- What an act comes to at a station depends on what there is of that station only. -/
theorem Act.effect?_alike {act : Act α} {station : String} {p q : Pool α}
    (agree : Agree station p q) {d d' : Directory} (resolved : d.resolve station = d'.resolve station)
    {hold hold' : Hold α} (alike : hold.Alike station hold') {e : Effect α}
    (done : act.effect? d p station hold = some e) :
    ∃ e', act.effect? d' q station hold' = some e' ∧ e.Alike station e' := by
  cases Act.does_iff.mpr done with
  | inquire affinity =>
    cases alike
    exact ⟨_, rfl, rfl, agree, .inquiry affinity resolved⟩
  | ask directory name affinity =>
    cases alike with
    | inquiry affinity same =>
      refine ⟨_, rfl, ?_⟩
      obtain ⟨refused, refused'⟩ | ⟨a, a', granted, granted', grant, preferred, pool⟩ :=
        agree.admission same affinity
      · rw [refused, refused']
        exact ⟨rfl, agree, .nothing⟩
      · rw [granted, granted']
        refine ⟨congrArg some ?_, pool, Agree.hold_alike grant preferred _⟩
        have decided := congrArg (Grant.decision a.preferred) grant
        rw [Grant.decision_unnumbered, Grant.decision_unnumbered] at decided
        rw [decided, preferred]
  | connected name endpoint socket =>
    cases alike
    exact ⟨_, rfl, rfl, ⟨agree.cap, agree.sockets⟩, .lease _ _ rfl⟩
  | use l socket unhealthy inFlight =>
    cases alike with
    | lease l n here =>
      exact ⟨_, rfl, rfl, agree, .lease { l with socket, unhealthy, inFlight } n here⟩
  | drop =>
    refine ⟨_, Act.does_iff.mp (.drop hold'), rfl, ?_, .nothing⟩
    cases alike with
    | nothing | inquiry affinity same => exact agree
    | dial endpoint => exact agree.freeSlot
    | lease l n here => exact agree.release here n

theorem Hold.stake_elsewhere {hold : Hold α} {name station : String} (there : hold.isAt name)
    (other : station ≠ name) : hold.stake station = .nothing := by
  cases hold <;> grind [isAt, stake]

theorem Hold.sockets_drop_elsewhere (p : Pool α) {hold : Hold α} {name station : String}
    (there : hold.isAt name) (other : station ≠ name) :
    (hold.drop p).sockets station = p.sockets station := by
  cases hold with
  | nothing | inquiry directory name affinity => rfl
  | dial at_ endpoint =>
    obtain rfl : at_ = name := by simpa [isAt] using there
    exact sockets_update_of_ne p other _
  | lease l =>
    obtain rfl : l.station = name := by simpa [isAt] using there
    rw [drop_lease, release]
    split
    · exact sockets_update_of_ne p other _
    · exact sockets_update_of_ne p other _

/-- An act at one station leaves the sockets of every other one as they are. -/
theorem Act.effect?_elsewhere {act : Act α} {d : Directory} {p : Pool α} {name station : String}
    {hold : Hold α} (there : hold.isAt name) (other : station ≠ name) {e : Effect α}
    (done : act.effect? d p name hold = some e) :
    e.pool.cap = p.cap ∧ e.pool.sockets station = p.sockets station ∧ e.hold.isAt name := by
  cases Act.does_iff.mpr done with
  | inquire affinity => exact ⟨rfl, rfl, by simp [Hold.isAt]⟩
  | ask directory at_ affinity =>
    obtain rfl : at_ = name := by simpa [Hold.isAt] using there
    cases admitted : p.admission directory at_ affinity with
    | none => exact ⟨rfl, rfl, rfl⟩
    | some a =>
      obtain ⟨endpoints, next, -, -, -, -, pool⟩ := admission_eq_some admitted
      simp only [Effect.asked, pool]
      refine ⟨rfl, sockets_update_of_ne p other _, ?_⟩
      unfold Admission.hold
      cases a.grant <;> simp [Hold.isAt, Lease.ofIdle]
  | connected at_ endpoint socket => exact ⟨rfl, rfl, there⟩
  | use l socket unhealthy inFlight => exact ⟨rfl, rfl, there⟩
  | drop => exact ⟨Hold.cap_drop p hold, Hold.sockets_drop_elsewhere p there other, rfl⟩

namespace Board

theorem share_eq {b alone : Board α} {station : String}
    (resolved : b.directory.resolve station = alone.directory.resolve station)
    (agree : Agree station b.pool alone.pool)
    (stakes : ∀ client, (b.hold client).stake station = (alone.hold client).stake station) :
    b.share station = alone.share station := by
  simp only [share, resolved, agree.cap, agree.sockets, stakes]

/-- The share of one station is the same on two boards, and on the second no client holds anything of
another station. -/
structure Isolates (station : String) (b alone : Board α) : Prop where
  share : b.share station = alone.share station
  here : ∀ client, (alone.hold client).isAt station

theorem Isolates.agree {station : String} {b alone : Board α} (isolates : Isolates station b alone) :
    Agree station b.pool alone.pool :=
  ⟨congrArg Share.cap isolates.share, congrArg Share.sockets isolates.share⟩

theorem Isolates.resolve {station : String} {b alone : Board α}
    (isolates : Isolates station b alone) :
    b.directory.resolve station = alone.directory.resolve station :=
  congrArg Share.endpoints isolates.share

theorem opened_isolates (cap : Nat) (directory : Directory) (station : String) :
    Isolates station (opened cap directory : Board α) (opened cap directory) :=
  ⟨rfl, fun _ => rfl⟩

/-- A turn at another station leaves the share of a station as it is. -/
theorem share_of_take? {b next : Board α} {turn : Turn α} {decision : Option (Decision α)}
    (taken : b.take? turn = some (decision, next)) {station : String}
    (other : station ≠ turn.station) : next.share station = b.share station := by
  cases turn with
  | insert name endpoints =>
    obtain ⟨-, rfl⟩ := Prod.mk.inj (Option.some.inj taken)
    exact share_eq ((Directory.resolve_insert ..).trans (if_neg other)) ⟨rfl, rfl⟩ fun _ => rfl
  | erase name =>
    obtain ⟨-, rfl⟩ := Prod.mk.inj (Option.some.inj taken)
    exact share_eq ((Directory.resolve_erase ..).trans (if_neg other)) ⟨rfl, rfl⟩ fun _ => rfl
  | act name client act =>
    simp only [take?] at taken
    split at taken
    · next here =>
      obtain ⟨e, done, same⟩ := Option.map_eq_some_iff.mp taken
      obtain ⟨-, rfl⟩ := Prod.mk.inj same
      obtain ⟨cap, sockets, there⟩ := act.effect?_elsewhere here other done
      refine share_eq rfl ⟨cap, congrArg Sockets.unnumbered sockets⟩ fun c => ?_
      dsimp only
      by_cases acts : c = client
      · subst acts
        rw [Function.update_self, Hold.stake_elsewhere there other,
          Hold.stake_elsewhere here other]
      · rw [Function.update_of_ne acts]
    · cases taken

/-- A turn at a station comes to the same on both boards. -/
theorem Isolates.take? {b alone next : Board α} {turn : Turn α}
    (isolates : Isolates turn.station b alone) {decision : Option (Decision α)}
    (taken : b.take? turn = some (decision, next)) :
    ∃ next', alone.take? turn = some (decision, next') ∧ Isolates turn.station next next' := by
  have stakes (client : Nat) := congrFun (congrArg Share.stakes isolates.share) client
  cases turn with
  | insert name endpoints =>
    obtain ⟨rfl, rfl⟩ := Prod.mk.inj (Option.some.inj taken)
    refine ⟨_, rfl, share_eq ?_ isolates.agree stakes, isolates.here⟩
    rw [Directory.resolve_insert, Directory.resolve_insert, Turn.station, if_pos rfl, if_pos rfl]
  | erase name =>
    obtain ⟨rfl, rfl⟩ := Prod.mk.inj (Option.some.inj taken)
    refine ⟨_, rfl, share_eq ?_ isolates.agree stakes, isolates.here⟩
    rw [Directory.resolve_erase, Directory.resolve_erase, Turn.station, if_pos rfl, if_pos rfl]
  | act name client act =>
    simp only [Turn.station] at isolates ⊢
    have alsoHere : (alone.hold client).isAt name := isolates.here client
    simp only [Board.take?, alsoHere, if_true] at taken ⊢
    split at taken
    · next here =>
      obtain ⟨e, done, same⟩ := Option.map_eq_some_iff.mp taken
      obtain ⟨rfl, rfl⟩ := Prod.mk.inj same
      have alike := Hold.alike_of_stake_eq here alsoHere (stakes client)
      obtain ⟨e', done', decision, pool, hold⟩ :=
        Act.effect?_alike isolates.agree isolates.resolve alike done
      refine ⟨{ alone with pool := e'.pool, hold := Function.update alone.hold client e'.hold },
        by rw [done', decision]; rfl, share_eq isolates.resolve pool fun c => ?_, fun c => ?_⟩
      · dsimp only
        by_cases acts : c = client
        · subst acts
          rw [Function.update_self, Function.update_self]
          exact hold.stake_eq
        · rw [Function.update_of_ne acts, Function.update_of_ne acts]
          exact stakes c
      · dsimp only
        by_cases acts : c = client
        · subst acts
          rw [Function.update_self]
          exact hold.isAt
        · rw [Function.update_of_ne acts]
          exact isolates.here c
    · cases taken

end Board

/-- What shows of a turn at a station: what was decided, how many sockets are idle and live afterwards,
and all there is of the station then, but for the numbers. -/
structure Sight (α : Type) where
  turn : Turn α
  decision : Option (Decision α)
  idle : Nat
  live : Nat
  share : Share α

def Entry.sight (station : String) (entry : Entry α) : Sight α where
  turn := entry.turn
  decision := entry.decision
  idle := entry.board.pool.idleCount station
  live := entry.board.pool.liveCount station
  share := entry.board.share station

namespace Board

theorem Isolates.sight_eq {station : String} {b alone : Board α}
    (isolates : Isolates station b alone) (turn : Turn α) (decision : Option (Decision α)) :
    Entry.sight station ⟨turn, decision, b⟩ = Entry.sight station ⟨turn, decision, alone⟩ := by
  have sockets := isolates.agree.sockets
  have idle := congrArg (fun s : Sockets α => s.idle.length) sockets
  have live := congrArg Sockets.live sockets
  simp only [Sockets.length_idle_unnumbered, Sockets.live_unnumbered] at idle live
  simp only [Entry.sight, idleCount, liveCount, idle, live, isolates.share]

/-- From boards on which the share of a station is the same, all turns show the same at that station as
the turns at the station do alone. -/
theorem Isolates.run {station : String} {turns : List (Turn α)} {b alone : Board α}
    (isolates : Isolates station b alone) {entries : List (Entry α)}
    (ran : b.run turns = some entries) :
    ∃ own, alone.run (turns.filter (·.station = station)) = some own ∧
      own.map (·.sight station) =
        (entries.filter (·.turn.station = station)).map (·.sight station) := by
  -- A turn elsewhere is taken on the first board only, and the boards are as alike after it as before.
  induction turns generalizing b alone entries with
  | nil =>
    obtain rfl := Option.some.inj ran
    exact ⟨[], rfl, rfl⟩
  | cons turn rest ih =>
    simp only [Board.run, Option.bind_eq_bind, Option.bind_eq_some_iff, Option.pure_def,
      Option.some.injEq] at ran
    obtain ⟨⟨decision, next⟩, taken, later, ran, rfl⟩ := ran
    by_cases own : turn.station = station
    · subst own
      obtain ⟨next', taken', isolates'⟩ := isolates.take? taken
      obtain ⟨entries', ran', same⟩ := ih isolates' ran
      refine ⟨⟨turn, decision, next'⟩ :: entries', ?_, ?_⟩
      · simp [Board.run, taken', ran']
      · simp [same, isolates'.sight_eq turn decision]
    · have untouched := share_of_take? taken (Ne.symm own)
      obtain ⟨entries', ran', same⟩ := ih ⟨untouched.trans isolates.share, isolates.here⟩ ran
      exact ⟨entries', by simp [own, ran'], by simp [own, same]⟩

/-- However the turns at some stations are interleaved, those at one of them can be taken without the
others, and then each shows the same: the same decision, as many idle and as many live sockets, and the
same sockets, idle and leased, in all but their numbers. -/
theorem run_alone {cap : Nat} {directory : Directory} {turns : List (Turn α)}
    {entries : List (Entry α)}
    (ran : (opened cap directory : Board α).run turns = some entries) (station : String) :
    ∃ own, (opened cap directory).run (turns.filter (·.station = station)) = some own ∧
      own.map (·.sight station) =
        (entries.filter (·.turn.station = station)).map (·.sight station) :=
  (opened_isolates cap directory station).run ran

/-- The numbers of the idle sockets of a station at the end of a run. -/
def idleNumbers (station : String) (entries : List (Entry α)) : Option (List Nat) :=
  entries.getLast?.map fun entry => (entry.board.pool.sockets station).idle.map Idle.id

/-- Two clients connect at once, one at each of two stations. The socket of the second one is the first
socket of its station, though not of the pool. -/
theorem run_alone_at_once :
    let directory : Directory :=
      [("orders", ["10.0.0.1:9000"]), ("billing", ["10.0.0.1:9001"])]
    let turns : List (Turn Unit) :=
      [.act "orders" 0 (.inquire ""), .act "billing" 1 (.inquire "eu"), .act "orders" 0 .ask,
        .act "billing" 1 .ask, .act "orders" 0 (.connected ()), .erase "orders",
        .act "billing" 1 (.connected ()), .act "billing" 2 (.inquire ""), .act "billing" 2 .ask,
        .act "billing" 1 .drop]
    ∃ entries own, (opened 1 directory).run turns = some entries ∧
      (opened 1 directory).run (turns.filter (·.station = "billing")) = some own ∧
      own.map (·.sight "billing") =
        (entries.filter (·.turn.station = "billing")).map (·.sight "billing") ∧
      idleNumbers "billing" entries = some [2] ∧ idleNumbers "billing" own = some [1] := by
  intro directory turns
  have numbers : ((opened 1 directory).run turns).map (idleNumbers "billing") = some (some [2]) := by
    dsimp only [directory, turns]
    decide +kernel
  have ownNumbers : ((opened 1 directory).run (turns.filter (·.station = "billing"))).map
      (idleNumbers "billing") = some (some [1]) := by
    dsimp only [directory, turns]
    decide +kernel
  obtain ⟨entries, ran, second⟩ := Option.map_eq_some_iff.mp numbers
  obtain ⟨own, ranAlone, first⟩ := Option.map_eq_some_iff.mp ownNumbers
  obtain ⟨own', ranAlone', same⟩ := run_alone ran "billing"
  obtain rfl := Option.some.inj (ranAlone.symm.trans ranAlone')
  exact ⟨entries, own, ran, ranAlone, same, second, first⟩

end Board

end Switchboard.Pool
