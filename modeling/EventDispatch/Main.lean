import EventDispatch.Api.Console
import EventDispatch.Config.Options
import Std.Time.DateTime.Timestamp

/-!
# The program

Loads the configuration, starts a service that rehearses every event, and obeys the lines of standard
input until they end or the loop has. Responses go to standard output, the journal goes to standard
error.
-/

namespace EventDispatch.Program

/-- The bytes of a file, if it can be read. -/
def readBytes? (path : String) : IO (Option ByteArray) := do
  try
    return some (← IO.FS.readBinFile path)
  catch _ =>
    return none

/-- The time of day. -/
def timeOfDay : IO Instant := do
  let now ← Std.Time.Timestamp.now
  return (Instant.ofNanos? now.toNanosecondsSinceUnixEpoch.val).getD .epoch

/-- Writes the journal down. -/
def flush (s : Service) : IO Service := do
  let (traces, s) := s.takeJournal
  for trace in traces do
    IO.eprintln trace.text
  return s

/-- Obeys one line after the other; `last` is when the service was left. -/
partial def converse (o : Options) (last : Nat) (s : Service) : IO Unit := do
  let line ← (← IO.getStdin).getLine
  if line.isEmpty then return
  match Command.ofLine? line.trimAscii.toString.toList with
  | none =>
    IO.eprintln "expected METHOD TARGET [BODY], reload or stop"
    converse o last s
  | some command =>
    let clock ← IO.monoMsNow
    let (response, s) := s.obey (clock - last) (← readBytes? o.config) o.listen command
    if let some response := response then
      IO.println response.text
    let s ← flush s
    if s.isRunning then converse o clock s

/-- Starts the service of a configuration and obeys. -/
def run (o : Options) (c : Config) : IO UInt32 := do
  let registry := Registry.empty.registerClient .dryRun
  match Service.build? registry c.settings .unhindered .always (← timeOfDay) with
  | none =>
    IO.eprintln "the settings are not supported"
    return 1
  | some s =>
    let s ← flush ((s.setPaused c.paused).startReloading.start.settle)
    converse o (← IO.monoMsNow) s
    return 0

end EventDispatch.Program

/-- Runs the service of the command line. -/
def main (words : List String) : IO UInt32 := do
  match EventDispatch.Options.ofWords words with
  | .error e =>
    IO.eprintln e.message
    return 2
  | .ok o =>
    match EventDispatch.Config.load (← EventDispatch.Program.readBytes? o.config) o.listen with
    | .error e =>
      IO.eprintln e.message
      return 1
    | .ok c => EventDispatch.Program.run o c
