import ClientRoster.Daemon.Log
import ClientRoster.Intake

/-!
# `ClientRoster.Daemon.Report` — notices in the log

The daemon tells by what name a client goes after each hint about it, which hints were rejected, and which sources
were cleared. Everything else is for those who look for faults.
-/

namespace ClientRoster.Daemon

/-- The name that a client goes by, in words. -/
def resolutionText (r : Roster) (addr : Address) : String :=
  let winner := r.resolve? addr
  "Client " ++ addr.text ++ " resolves to " ++ Text.quoted ((winner.map Prod.snd).getD "") ++ " via "
    ++ Source.nameOf (winner.map Prod.fst)

/-- The log record about a notice, written when the roster is this one. -/
def report (r : Roster) : Notice → LogRecord
  | .applied addr (some _) => info (resolutionText r addr)
  | .rejected addr failure => ⟨.warn, "Rejected hint for " ++ addr.text ++ ": " ++ failure.message⟩
  | .cleared source removed =>
    info ("Cleared " ++ source.name ++ ", removed " ++ toString removed ++ " client(s)")
  | other => ⟨.debug, "Engine event: " ++ other.shown⟩

/-- The log records about some steps, one for each that is announced. -/
def reports (steps : List Step) : List LogRecord :=
  steps.filterMap fun step => step.notice.map (report step.roster)

end ClientRoster.Daemon
