import ClientRoster.Daemon

/-!
# `ClientRoster.Main` — the command line

Reads the variables of the environment and the standard input, and writes the log to the standard error. All that
it writes comes from a `Session`.
-/

namespace ClientRoster.Main

open Daemon

/-- Writes log records. -/
def writeLog (records : List LogRecord) : IO Unit := do
  let err ← IO.getStderr
  for record in records do
    err.putStrLn (record.level.label ++ " clientinfod: " ++ record.message)

/-- The variables that the daemon knows, as far as they are present. -/
def readEnvironment : IO Environment := do
  let names := sourceVariables.map Prod.fst ++ [capacityVariable, levelVariable]
  let found ← names.filterMapM fun name => do
    let value ← IO.getEnv name
    return value.map fun text => (name, text.toUTF8.toList)
  return found

/-- Feeds the session until the input ends. -/
partial def feed (input : IO.FS.Stream) (session : Session) : IO Session := do
  let chunk ← try (some <$> input.read 65536) catch _ => pure none
  match chunk with
  | none => feed input session
  | some data =>
    if data.isEmpty then return session
    else
      let (records, session) := session.receive (.bytes data.toList)
      writeLog records
      feed input session

/-- Runs a session on the standard input. -/
def attend (session : Session) : IO Unit := do
  writeLog (session.shown [invitation])
  let (opening, session) := session.start
  writeLog opening
  let session ← feed (← IO.getStdin) session
  let (closing, session) := session.finish
  writeLog closing
  writeLog (session.shown [farewell session.roster])

/-- The whole program. -/
def runProgram : IO UInt32 := do
  match configure (← readEnvironment) with
  | .error e =>
    (← IO.getStderr).putStrLn e.complaint
    return ExitCode.badEnvironment.number.toUInt32
  | .ok (options, level) =>
    let session : Session := { level := level, policy := options.sources }
    writeLog (session.shown (greeting options.sources))
    match NoticeQueue.create options.settings with
    | .error e =>
      writeLog (session.shown (refusal e).2)
      return (refusal e).1.number.toUInt32
    | .ok _ =>
      attend session
      return ExitCode.clean.number.toUInt32

end ClientRoster.Main

/-- The program: it ends with the exit code of the daemon. -/
def main : IO UInt32 := ClientRoster.Main.runProgram
