import Switchboard.Proofs.Call.Mishaps
import Switchboard.Rehearsal.World

/-!
# Handlers that go wrong, seen from the network

What a rehearsal does never depends on its journal. So it may be held a second time, with some entries
left out, and everything else comes out the same: `Alike` relates two such stages, and a dialogue and
the muted dialogue are alike (`converseOn_alike`).
-/

namespace Switchboard.Rehearsal

open Pool Dialogue Event

variable {σ τ α β γ : Type}

/-- The entry does not tell of a handler that has gone wrong. -/
def Entry.isKept : Entry σ → Bool
  | .note entry => entry.isKept
  | .dialled _ | .closed _ | .wrote .. => true

/-- The world without what its journal tells of handlers that went wrong. -/
def World.hushed (w : World σ) : World σ :=
  { w with journal := w.journal.filter Entry.isKept }

/-- What the first stage does in a world, the second does in the hushed one. -/
def Alike (m m' : Stage σ β) : Prop :=
  ∀ w, (m'.run w.hushed).1 = (m.run w).1 ∧ (m'.run w.hushed).2 = (m.run w).2.hushed

section Rules

theorem alike_pure (b : β) : Alike (pure b : Stage σ β) (pure b) :=
  fun _ => ⟨rfl, rfl⟩

theorem Alike.bind {m m' : Stage σ γ} {f f' : γ → Stage σ β} (first : Alike m m')
    (next : ∀ c, Alike (f c) (f' c)) : Alike (m >>= f) (m' >>= f') := by
  intro w
  obtain ⟨answer, world⟩ := first w
  change ((f' (m'.run w.hushed).1).run (m'.run w.hushed).2).1 = _ ∧
    ((f' (m'.run w.hushed).1).run (m'.run w.hushed).2).2 = _
  rw [answer, world]
  exact next _ _

theorem alike_get {f f' : World σ → Stage σ β} (next : ∀ w, Alike (f w) (f' w.hushed)) :
    Alike (get >>= f) (get >>= f') :=
  fun w => next w w

theorem alike_set {f f' : PUnit → Stage σ β} (w : World σ) (next : Alike (f ⟨⟩) (f' ⟨⟩)) :
    Alike (set w >>= f) (set w.hushed >>= f') :=
  fun _ => next w

theorem alike_modifyGet {f : World σ → β × World σ}
    (h : ∀ w, f w.hushed = ((f w).1, (f w).2.hushed)) :
    Alike (modifyGet f : Stage σ β) (modifyGet f) :=
  fun w => Prod.mk.inj (h w)

theorem alike_enter {entry : Entry σ} (kept : entry.isKept = true) :
    Alike (enter entry) (enter entry) :=
  alike_modifyGet fun w => by
    simp only [World.hushed, List.filter_cons_of_pos kept]

/-- An entry that tells of a handler that went wrong makes no difference. -/
theorem Alike.of_enter {entry : Entry σ} (dropped : entry.isKept = false) {m m' : Stage σ β}
    (alike : Alike m m') : Alike (enter entry >>= fun _ => m) m' := by
  intro w
  have same : w.hushed = World.hushed { w with journal := entry :: w.journal } := by
    simp only [World.hushed, List.filter_cons_of_neg (dropped ▸ Bool.false_ne_true)]
  rw [same]
  exact alike _

theorem alike_forM {δ : Type} (l : List δ) {f : δ → Stage σ PUnit} (each : ∀ e, Alike (f e) (f e)) :
    Alike (l.forM f) (l.forM f) := by
  induction l with
  | nil => exact alike_pure _
  | cons e rest ih => exact (each e).bind fun _ => ih

end Rules

theorem await_alike (p : Patience) (ms : Option Nat) :
    Alike (await p ms : Stage σ (Wait Unit)) (await p ms) :=
  alike_modifyGet fun _ => rfl

theorem connect_alike (p : Patience) (endpoint : String) :
    Alike (connect p endpoint : Stage σ (Wait (Except Fault Line))) (connect p endpoint) := by
  refine (alike_enter rfl).bind fun _ => alike_get fun w => ?_
  refine alike_set { w with scripts := w.scripts.tail, tried := w.tried + 1 } ?_
  dsimp only [World.hushed]
  split
  · exact alike_pure _
  · exact alike_pure _
  · exact alike_pure _
  · exact alike_pure _
  · refine (await_alike p none).bind fun wait => ?_
    cases wait <;> exact alike_pure _
  · refine (await_alike p _).bind fun wait => ?_
    cases wait <;> exact alike_pure _

theorem lease_alike (p : Patience) (station affinity : String) :
    Alike (lease p station affinity : Stage σ (Wait (Option (Lease Line))))
      (lease p station affinity) := by
  refine alike_get fun w => ?_
  dsimp only [World.hushed]
  cases w.pool.admission w.directory station affinity with
  | none => exact alike_pure _
  | some a =>
    refine alike_set { w with pool := a.pool } ?_
    refine (alike_forM _ fun i => alike_enter rfl).bind fun _ => ?_
    cases a.grant with
    | reuse i => exact alike_pure _
    | refuse => exact (alike_enter rfl).bind fun _ => alike_pure _
    | connect =>
      have freed : Alike (modify fun w => { w with pool := w.pool.freeSlot station } : Stage σ PUnit)
          (modify fun w => { w with pool := w.pool.freeSlot station }) :=
        alike_modifyGet fun w => rfl
      refine (connect_alike _ _).bind fun answer => ?_
      cases answer with
      | done connected =>
        cases connected with
        | ok line => exact alike_modifyGet fun w => rfl
        | error fault => exact freed.bind fun _ => (alike_enter rfl).bind fun _ => alike_pure _
      | late => exact freed.bind fun _ => alike_pure _
      | abandoned => exact freed.bind fun _ => alike_pure _

theorem release_alike (l : Lease Line) : Alike (release l : Stage σ Unit) (release l) := by
  refine alike_get fun w => ?_
  dsimp only [World.hushed]
  rcases w.pool.release l with ⟨pool, _ | line⟩
  · exact alike_set { w with pool } (alike_pure _)
  · exact alike_set { w with pool } (alike_enter rfl)

theorem forM_release_alike (held : Option (Lease Line)) :
    Alike (held.forM release : Stage σ PUnit) (held.forM release) := by
  cases held with
  | none => exact alike_pure _
  | some l => exact release_alike l

theorem send_alike (p : Patience) (l : Lease Line) (message : Wire.Message) :
    Alike (send p l message : Stage σ (Wait (Option Fault) × Lease Line)) (send p l message) := by
  refine alike_get fun w => ?_
  dsimp only [World.hushed]
  generalize l.socket.send p message w.now = sent
  refine alike_set { w with now := sent.now } ?_
  cases sent.taken with
  | none => exact alike_pure _
  | some bytes => exact (alike_enter rfl).bind fun _ => alike_pure _

theorem receive_alike (p : Patience) (l : Lease Line) :
    Alike (receive p l : Stage σ (Wait (Except Fault Wire.Message) × Lease Line)) (receive p l) := by
  refine alike_get fun w => ?_
  dsimp only [World.hushed]
  rcases l.socket.receive p w.now with ⟨result, line, now⟩
  exact alike_set { w with now } (alike_pure _)

theorem serve_alike (giveUp : Option Nat) (held : Option (Lease Line)) (request : Request) :
    Alike (serve giveUp held request : Stage σ (Option request.Answer × Option (Lease Line)))
      (serve giveUp held request) := by
  cases request with
  | «open» station affinity limit =>
    refine (forM_release_alike held).bind fun _ => alike_get fun w => ?_
    refine (lease_alike _ _ _).bind fun answer => ?_
    rcases answer with (_ | l) | _ | _ <;> exact alike_pure _
  | send message =>
    cases held with
    | none => exact alike_pure _
    | some l =>
      refine (send_alike _ _ _).bind fun ⟨result, l⟩ => ?_
      cases result <;> exact alike_pure _
  | receive limit =>
    cases held with
    | none => exact alike_pure _
    | some l =>
      refine alike_get fun w => (receive_alike _ _).bind fun ⟨result, l⟩ => ?_
      rcases result with (_ | _) | _ | _ <;> exact alike_pure _

/-- A dialogue goes as it goes when it is muted. -/
theorem converseOn_alike (giveUp : Option Nat) (held : Option (Lease Line))
    (d : Dialogue (Call.Note σ) τ α) :
    Alike (converseOn giveUp held d) (converseOn giveUp held (d.mute Call.Note.isKept)) := by
  induction d generalizing held with
  | finish result => exact (forM_release_alike held).bind fun _ => alike_pure _
  | note entry next ih =>
    cases kept : entry.isKept with
    | true =>
      have shown : (Entry.note entry).isKept = true := kept
      rw [mute, if_pos kept]
      exact (alike_enter shown).bind fun _ => ih held
    | false =>
      -- Only one of the two writes it down, and hushing the world takes it out again.
      have hidden : (Entry.note entry).isKept = false := kept
      rw [mute, if_neg (kept ▸ Bool.false_ne_true)]
      exact .of_enter hidden (ih held)
  | discard next ih => exact ih _
  | ask state request next ih =>
    rw [mute, converseOn, converseOn]
    refine (serve_alike giveUp held request).bind fun served => ?_
    obtain ⟨_ | answer, held⟩ := served
    · exact (forM_release_alike held).bind fun _ => alike_pure _
    · exact ih answer held

theorem converse_alike (abandon : Option Nat) (d : Dialogue (Call.Note σ) τ α) :
    Alike (converse abandon d) (converse abandon (d.mute Call.Note.isKept)) :=
  alike_get fun _ => converseOn_alike _ _ _

/-- Begun in one world, a dialogue and the muted dialogue end alike, and leave worlds that differ in
what their journals tell of handlers that went wrong. -/
theorem converse_mute (abandon : Option Nat) (d : Dialogue (Call.Note σ) τ α) (w : World σ) :
    ((converse abandon (d.mute Call.Note.isKept)).run w).1 = ((converse abandon d).run w).1 ∧
      ((converse abandon (d.mute Call.Note.isKept)).run w).2.hushed =
        ((converse abandon d).run w).2.hushed := by
  obtain ⟨ended, world⟩ := converse_alike abandon d w
  obtain ⟨ended', world'⟩ := converse_alike abandon (d.mute Call.Note.isKept) w
  rw [mute_mute] at ended' world'
  exact ⟨ended'.symm.trans ended, world'.symm.trans world⟩

/-- Handlers that go wrong change nothing about a call. Whatever is answered, the call with the tamed
handlers takes the same course to the same envelope and context, but for what is told of them. And
whatever is in the pool and in the scripts of the network, given up or not, it ends alike and leaves the
same world, but for what the journal tells of them. -/
theorem call_tamed (e : Call.Engine σ) (ctx : Call.Context) :
    (∀ respond : List Deed → (request : Request) → request.Answer,
      let answer (events : List (Event (Call.Note σ) Call.Context)) := respond (deeds events)
      let (events, result) := play answer [] (e.call ctx)
      play answer [] (e.tamed.call ctx) = (events.filter (isKept Call.Note.isKept), result)) ∧
    ∀ (abandon : Option Nat) (w : World σ),
      let (ended, after) := (converse abandon (e.call ctx)).run w
      let (ended', after') := (converse abandon (e.tamed.call ctx)).run w
      ended' = ended ∧ after'.hushed = after.hushed := by
  rw [← e.call_mute]
  exact ⟨fun respond => play_mute respond _ rfl, fun abandon w => converse_mute abandon _ w⟩

end Switchboard.Rehearsal
