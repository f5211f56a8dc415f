import ClientRoster.Intake

/-!
# `ClientRoster.Notice.Queue` — notices waiting for a listener

A queue holds a fixed number of notices. A notice that finds it full, or finds that nobody listens any more, is
lost; the intake does not wait.

## Contents
- `NoticeQueue`, `offer`, `drain`, `hangUp`.
- `NoticeQueue.create`: the queue that settings ask for, and when there is none.
- `NoticeQueue.follow`: what a listener gets of a run.
-/

namespace ClientRoster

/-- Notices that wait for a listener. -/
structure NoticeQueue where
  capacity : Nat
  waiting : List Notice := []
  /-- Does anybody listen? -/
  heard : Bool := true
  deriving DecidableEq, Repr

/-- Why there is no queue. -/
inductive QueueError
  /-- The settings are refused. -/
  | refused (failure : Failure)
  /-- The settings pass, but no queue can be so large; the program is aborted. -/
  | tooLarge (capacity : Nat)
  deriving DecidableEq, Repr

namespace NoticeQueue

/-- The largest number of notices that a queue can be made for. -/
def maxCapacity : Nat := Nat.pow 2 61 - 1

/-- The queue that settings ask for. -/
def create (s : Settings) : Except QueueError NoticeQueue :=
  match s.check with
  | .error failure => .error (.refused failure)
  | .ok () => if s.capacity ≤ maxCapacity then .ok { capacity := s.capacity } else .error (.tooLarge s.capacity)

/-- Offers a notice. -/
def offer (q : NoticeQueue) (n : Notice) : NoticeQueue :=
  if q.heard && q.waiting.length < q.capacity then { q with waiting := q.waiting ++ [n] } else q

/-- Offers notices one after the other. -/
def offerAll (q : NoticeQueue) (notices : List Notice) : NoticeQueue := notices.foldl offer q

/-- The listener takes all that waits. -/
def drain (q : NoticeQueue) : List Notice × NoticeQueue := (q.waiting, { q with waiting := [] })

/-- The listener leaves, and what waits is lost. -/
def hangUp (q : NoticeQueue) : NoticeQueue := { q with waiting := [], heard := false }

/-- What a listener gets who looks at the end of each phase, and takes what waits there if `taking` says so. -/
def follow (q : NoticeQueue) (taking : Bool) : List Phase → List (List Notice × Roster) × NoticeQueue
  | [] => ([], q)
  | phase :: rest =>
    let q := q.offerAll phase.notices
    let (taken, q) := if taking then q.drain else ([], q)
    let (more, q) := follow q taking rest
    ((taken, phase.roster) :: more, q)

/-- What a listener gets of a run: after each phase of it, and in any case at its end. -/
def followRun (q : NoticeQueue) (taking : Bool) (run : Run) : List (List Notice × Roster) × NoticeQueue :=
  let (seen, q) := q.follow taking run.waiting
  let (final, q) := q.follow true [run.closing]
  (seen ++ final, q)

/-- What a listener gets who looks only at the end of a run. -/
def followEnd (q : NoticeQueue) (run : Run) : List (List Notice × Roster) × NoticeQueue :=
  q.follow true [run.asPhase]

end NoticeQueue

end ClientRoster
