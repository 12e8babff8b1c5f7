import Switchboard.Proofs.Rehearsal.Reading
import Switchboard.Rehearsal.World

/-!
# What the stages of a rehearsal do to the pool

Only getting a socket and giving it up change the pool of a world. Nothing changes its directory, and
the lines that are made are those that its scripts were going to make. A lease that is used is left with
the line that sending or receiving on its own line has left.
-/

namespace Switchboard.Rehearsal

open Pool

variable {σ β γ : Type}

/-- The line that a script makes of a connection. -/
def Script.line (script : Script) (number limit : Nat) : Line where
  number
  reads := script.reads
  writes := script.writes
  buffer := { limit }

/-- The lines that the scripts of a world are going to make. -/
inductive World.Makes (w : World σ) : Line → Prop
  | script (k : Nat) {script : Script} (h : w.scripts[k]? = some script) :
      Makes w (script.line (w.tried + k) w.frameLimit)

/-- A line starts clear. -/
theorem World.Makes.isClear {w : World σ} {line : Line} (makes : w.Makes line) : line.IsClear := by
  cases makes
  exact ⟨rfl, rfl, rfl, rfl⟩

/-- What stays as it is in the course of a rehearsal. -/
structure Setting where
  directory : Directory
  /-- The lines that may be made. -/
  lines : Line → Prop

structure World.In (w : World σ) (s : Setting) : Prop where
  directory : w.directory = s.directory
  lines : ∀ line, w.Makes line → s.lines line

/-- The setting of a world. -/
def World.setting (w : World σ) : Setting where
  directory := w.directory
  lines := w.Makes

theorem World.in_setting (w : World σ) : w.In w.setting :=
  ⟨rfl, fun _ => id⟩

/-- A world that goes on with the same directory and the same scripts is in the same setting. -/
theorem World.In.congr {w w' : World σ} {s : Setting} (setting : w.In s)
    (directory : w'.directory = w.directory) (scripts : w'.scripts = w.scripts)
    (tried : w'.tried = w.tried) (limit : w'.frameLimit = w.frameLimit) : w'.In s where
  directory := directory.trans setting.directory
  lines := by
    rintro line ⟨k, h⟩
    rw [tried, limit]
    exact setting.lines _ (.script k (scripts ▸ h))

/-- The first script is used up, the others follow it. -/
theorem World.In.tail {w : World σ} {s : Setting} (setting : w.In s) :
    ({ w with scripts := w.scripts.tail, tried := w.tried + 1 } : World σ).In s where
  directory := setting.directory
  lines := by
    rintro line ⟨k, h⟩
    have later := World.Makes.script (w := w) (k + 1) (List.getElem?_tail ▸ h)
    rw [show w.tried + 1 + k = w.tried + (k + 1) by omega]
    exact setting.lines _ later

/-- In a world of that setting and with that pool, the stage keeps the setting, and `Q` holds of its
answer and of the pool it leaves. -/
def Ensures (s : Setting) (p : Pool Line) (m : Stage σ β) (Q : β → Pool Line → Prop) : Prop :=
  ∀ w, w.In s → w.pool = p → (m.run w).2.In s ∧ Q (m.run w).1 (m.run w).2.pool

section Rules

variable {s : Setting} {p : Pool Line} {Q : β → Pool Line → Prop}

theorem Ensures.bind {m : Stage σ γ} {f : γ → Stage σ β} {R : γ → Pool Line → Prop}
    (first : Ensures s p m R) (next : ∀ c p', R c p' → Ensures s p' (f c) Q) :
    Ensures s p (m >>= f) Q := by
  intro w setting pool
  obtain ⟨setting, result⟩ := first w setting pool
  exact next _ _ result _ setting rfl

theorem Ensures.mono {m : Stage σ β} {R : β → Pool Line → Prop} (ensures : Ensures s p m R)
    (imp : ∀ b p', R b p' → Q b p') : Ensures s p m Q := by
  intro w setting pool
  obtain ⟨setting, result⟩ := ensures w setting pool
  exact ⟨setting, imp _ _ result⟩

theorem Ensures.and {m : Stage σ β} {R : β → Pool Line → Prop} (ensures : Ensures s p m Q)
    (also : Ensures s p m R) : Ensures s p m fun b p' => Q b p' ∧ R b p' := by
  intro w setting pool
  obtain ⟨kept, result⟩ := ensures w setting pool
  exact ⟨kept, result, (also w setting pool).2⟩

theorem ensures_pure {b : β} (h : Q b p) : Ensures s p (pure b : Stage σ β) Q := by
  rintro w setting rfl
  exact ⟨setting, h⟩

theorem ensures_get {f : World σ → Stage σ β}
    (next : ∀ w, w.In s → w.pool = p → Ensures s p (f w) Q) : Ensures s p (get >>= f) Q :=
  fun w setting pool => next w setting pool w setting pool

theorem ensures_set {w' : World σ} {f : PUnit → Stage σ β} (setting : w'.In s)
    (next : Ensures s w'.pool (f ⟨⟩) Q) : Ensures s p (set w' >>= f) Q :=
  fun _ _ _ => next w' setting rfl

theorem ensures_modifyGet {f : World σ → β × World σ}
    (h : ∀ w, w.In s → w.pool = p → (f w).2.In s ∧ Q (f w).1 (f w).2.pool) :
    Ensures s p (modifyGet f : Stage σ β) Q :=
  h

end Rules

/-- The stage leaves the pool alone. -/
def Calm (m : Stage σ β) : Prop :=
  ∀ s p, Ensures s p m fun _ p' => p' = p

theorem Calm.ensures {m : Stage σ γ} {f : γ → Stage σ β} {s : Setting} {p : Pool Line}
    {Q : β → Pool Line → Prop} (calm : Calm m) (next : ∀ c, Ensures s p (f c) Q) :
    Ensures s p (m >>= f) Q :=
  (calm s p).bind fun c _ same => same ▸ next c

theorem calm_pure (b : β) : Calm (pure b : Stage σ β) :=
  fun _ _ => ensures_pure rfl

theorem Calm.bind {m : Stage σ β} {f : β → Stage σ γ} (first : Calm m) (next : ∀ b, Calm (f b)) :
    Calm (m >>= f) :=
  fun s p => first.ensures fun b => next b s p

theorem calm_enter (entry : Entry σ) : Calm (enter entry) :=
  fun _ _ _ setting pool => ⟨setting.congr rfl rfl rfl rfl, pool⟩

theorem calm_await (p : Patience) (ms : Option Nat) : Calm (await p ms : Stage σ (Wait Unit)) :=
  fun _ _ _ setting pool => ⟨setting.congr rfl rfl rfl rfl, pool⟩

theorem calm_forM {δ : Type} (l : List δ) {f : δ → Stage σ PUnit} (each : ∀ e, Calm (f e)) :
    Calm (l.forM f) := by
  induction l with
  | nil => exact calm_pure _
  | cons e rest ih => exact (each e).bind fun _ => ih

/-- A connection that is made has the line that its script makes. -/
theorem connect_ensures (p : Patience) (endpoint : String) (s : Setting) (pool : Pool Line) :
    Ensures s pool (connect p endpoint : Stage σ (Wait (Except Fault Line)))
      fun answer pool' => pool' = pool ∧ ∀ line, answer = .done (.ok line) → s.lines line := by
  refine (calm_enter _).ensures fun _ => ensures_get fun w setting same => ?_
  refine ensures_set setting.tail ?_
  rw [same]
  cases scripts : w.scripts with
  | nil => exact ensures_pure ⟨rfl, nofun⟩
  | cons script rest =>
    have makes : s.lines (script.line w.tried w.frameLimit) :=
      setting.lines _ (.script 0 (by simp [scripts]))
    have made : Ensures s pool
        (pure (.done (.ok (script.line w.tried w.frameLimit))) : Stage σ (Wait (Except Fault Line)))
        fun answer pool' => pool' = pool ∧ ∀ line, answer = .done (.ok line) → s.lines line :=
      ensures_pure ⟨rfl, by rintro line ⟨⟩; exact makes⟩
    dsimp only [List.headD_cons]
    split
    · exact made
    · exact ensures_pure ⟨rfl, nofun⟩
    · exact ensures_pure ⟨rfl, nofun⟩
    · exact ensures_pure ⟨rfl, nofun⟩
    · refine (calm_await p _).ensures fun wait => ?_
      cases wait with
      | done => exact made
      | late | abandoned => exact ensures_pure ⟨rfl, nofun⟩
    · refine (calm_await p _).ensures fun wait => ?_
      cases wait with
      | done => exact made
      | late | abandoned => exact ensures_pure ⟨rfl, nofun⟩

/-- The ways in which getting a socket can go, each with what becomes of the pool. -/
inductive Obtained (s : Setting) (p : Pool Line) (station affinity : String) :
    Wait (Option (Lease Line)) → Pool Line → Prop
  | unserved (h : p.admission s.directory station affinity = none) :
      Obtained s p station affinity (.done none) p
  | refused {a : Admission Line} (h : p.admission s.directory station affinity = some a)
      (grant : a.grant = .refuse) : Obtained s p station affinity (.done none) a.pool
  | reused {a : Admission Line} {i : Idle Line}
      (h : p.admission s.directory station affinity = some a) (grant : a.grant = .reuse i) :
      Obtained s p station affinity (.done (some (.ofIdle station i))) a.pool
  | connected {a : Admission Line} (h : p.admission s.directory station affinity = some a)
      (grant : a.grant = .connect) {line : Line} (made : s.lines line) :
      Obtained s p station affinity
        (.done (some (a.pool.connected station a.preferred line).2))
        (a.pool.connected station a.preferred line).1
  | unconnected {a : Admission Line} (h : p.admission s.directory station affinity = some a)
      (grant : a.grant = .connect) {wait : Wait (Option (Lease Line))}
      (nothing : wait = .done none ∨ wait = .late ∨ wait = .abandoned) :
      Obtained s p station affinity wait (a.pool.freeSlot station)

theorem lease_obtained (patience : Patience) (station affinity : String) (s : Setting)
    (p : Pool Line) :
    Ensures s p (lease patience station affinity : Stage σ (Wait (Option (Lease Line))))
      (Obtained s p station affinity) := by
  refine ensures_get fun w setting pool => ?_
  rw [setting.directory, pool]
  cases admitted : p.admission s.directory station affinity with
  | none => exact ensures_pure (.unserved admitted)
  | some a =>
    have kept := setting.directory.symm
    refine ensures_set (setting.congr kept rfl rfl rfl) ?_
    refine (calm_forM _ fun _ => calm_enter _).ensures fun _ => ?_
    cases grant : a.grant with
    | reuse i => exact ensures_pure (.reused admitted grant)
    | refuse => exact (calm_enter _).ensures fun _ => ensures_pure (.refused admitted grant)
    | connect =>
      have freed : Ensures s a.pool
          (modify fun w => { w with pool := w.pool.freeSlot station } : Stage σ PUnit)
          fun _ p' => p' = a.pool.freeSlot station :=
        ensures_modifyGet fun w setting pool => ⟨setting.congr rfl rfl rfl rfl, pool ▸ rfl⟩
      refine (connect_ensures _ _ _ _).bind fun answer _ ⟨same, made⟩ => ?_
      subst same
      cases answer with
      | done connected =>
        cases connected with
        | ok line =>
          exact ensures_modifyGet fun w setting pool =>
            ⟨setting.congr rfl rfl rfl rfl, pool ▸ .connected admitted grant (made line rfl)⟩
        | error fault =>
          refine freed.bind fun _ _ same => (calm_enter _).ensures fun _ => ?_
          exact ensures_pure (same ▸ .unconnected admitted grant (.inl rfl))
      | late =>
        refine freed.bind fun _ _ same => ?_
        exact ensures_pure (same ▸ .unconnected admitted grant (.inr (.inl rfl)))
      | abandoned =>
        refine freed.bind fun _ _ same => ?_
        exact ensures_pure (same ▸ .unconnected admitted grant (.inr (.inr rfl)))

theorem release_ensures (l : Lease Line) (s : Setting) (p : Pool Line) :
    Ensures s p (release l : Stage σ Unit) fun _ p' => p' = (p.release l).1 := by
  refine ensures_get fun w setting pool => ?_
  rw [pool]
  rcases p.release l with ⟨p', _ | line⟩
  · exact ensures_set (setting.congr rfl rfl rfl rfl) (calm_pure _ _ _)
  · exact ensures_set (setting.congr rfl rfl rfl rfl) (calm_enter _ _ _)

/-- The lease after something was done on it: it is in flight unless that has succeeded. -/
def Used (l l' : Lease Line) (succeeded : Prop) : Prop :=
  ∃ socket inFlight, l' = { l with socket, inFlight } ∧ (inFlight = false ↔ succeeded)

theorem send_ensures (patience : Patience) (l : Lease Line) (message : Wire.Message)
    (s : Setting) (p : Pool Line) :
    Ensures s p (send patience l message : Stage σ (Wait (Option Fault) × Lease Line))
      fun answer p' => p' = p ∧ Used l answer.2 (answer.1 = .done none) ∧
        ∃ now, answer.2.socket = (l.socket.send patience message now).line := by
  refine ensures_get fun w setting pool => ensures_set (setting.congr rfl rfl rfl rfl) ?_
  rw [pool]
  have sent : ∃ now, (l.socket.send patience message w.now).line =
      (l.socket.send patience message now).line := ⟨_, rfl⟩
  generalize l.socket.send patience message w.now = answer at sent
  obtain ⟨result, taken, line, now⟩ := answer
  cases taken with
  | none =>
    refine ensures_pure ⟨rfl, ⟨line, _, rfl, ?_⟩, sent⟩
    rcases result with (_ | fault) | _ | _ <;> simp
  | some bytes =>
    refine (calm_enter _).ensures fun _ => ensures_pure ⟨rfl, ⟨line, _, rfl, ?_⟩, sent⟩
    rcases result with (_ | fault) | _ | _ <;> simp

theorem receive_ensures (patience : Patience) (l : Lease Line) (s : Setting) (p : Pool Line) :
    Ensures s p (receive patience l : Stage σ (Wait (Except Fault Wire.Message) × Lease Line))
      fun answer p' => p' = p ∧ Used l answer.2 (∃ message, answer.1 = .done (.ok message)) ∧
        ∃ now later, l.socket.receive patience now = (answer.1, answer.2.socket, later) := by
  refine ensures_get fun w setting pool => ?_
  rcases received : l.socket.receive patience w.now with ⟨result, line, now⟩
  refine ensures_set (setting.congr rfl rfl rfl rfl) ?_
  refine ensures_pure ⟨pool, ⟨line, _, rfl, ?_⟩, _, _, received⟩
  rcases result with (fault | message) | _ | _ <;> simp

end Switchboard.Rehearsal
