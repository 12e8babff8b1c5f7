/-!
# Waiting

A rehearsal has a clock of its own, in milliseconds, that moves only when something is waited for.
What is waited for may come too late: after the limit set for it, or after the moment at which the
whole attempt is given up. What is ready by then, even at that very moment, has come in time, and a
limit comes before giving up.
-/

namespace Switchboard.Rehearsal

/-- The moments up to which something is waited for. -/
structure Patience where
  limit : Option Nat := none
  giveUp : Option Nat := none
  deriving DecidableEq, Repr

/-- How waiting ended. -/
inductive Wait (α : Type) where
  | done (a : α)
  | late
  | abandoned
  deriving DecidableEq, Repr

namespace Patience

/-- Wait for something that is ready at a moment, or never; also gives the moment waiting ends. What
never comes is waited for until it is given up, if ever. -/
def await (p : Patience) (now : Nat) (ready : Option Nat) : Wait Unit × Nat :=
  match bound p, ready with
  | none, some t => (.done (), max now t)
  | none, none => (.abandoned, now)
  | some (t, wait), some r => if r ≤ max now t then (.done (), max now r) else (wait, max now t)
  | some (t, wait), none => (wait, max now t)
where
  /-- The first moment to stop waiting, and what stopping there means. -/
  bound (p : Patience) : Option (Nat × Wait Unit) :=
    match p.limit, p.giveUp with
    | none, none => none
    | some l, none => some (l, .late)
    | none, some g => some (g, .abandoned)
    | some l, some g => some (if l ≤ g then (l, .late) else (g, .abandoned))

end Patience

end Switchboard.Rehearsal
