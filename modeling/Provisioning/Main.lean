/-
# `Provisioning.Main` — the command

The command is rehearsed on a snapshot of this machine: it goes through every
stage, asks what it would ask, and prints what it would print, and the machine
stays as it is.  What decides anything is `CommandLine.perform`; here the
texts of the machine are read, a question is put, and the outputs are written.

The operator's answer is needed only if there is a question.  So the command is
performed once on an empty keyboard, and when that shows a question, again on
the line that the operator types.
-/
import Provisioning.CommandLine.Perform
import Provisioning.Host.Snapshot

namespace Provisioning

/-- A text of the machine, empty when it cannot be read. -/
def readText (path : String) : IO String := do
  try IO.FS.readFile path
  catch _ => return ""

/-- The variables of the environment that the command looks at, as far as they are set. -/
def readEnvironment : IO (List (String × String)) := do
  let names := ["SUDO_USER", "LOGNAME", "USER", "LNAME", "USERNAME"]
  let values ← names.mapM fun name => do
    let value ← IO.getEnv name
    return value.map fun v => (name, v)
  return values.filterMap id

/-- A snapshot of this machine. -/
def readSnapshot : IO Snapshot := do
  return {
    userDatabase := ← readText "/etc/passwd"
    mountTable := ← readText "/proc/mounts"
    processStatus := ← readText "/proc/self/status"
    environment := ← readEnvironment }

namespace CommandLine

/-- The command was to ask: the first performance put a question on the output. -/
def Performance.asks (p : Performance) : Bool := !p.host.journal.prompts.isEmpty

/-- The status of the process after a performance. -/
def Performance.status (p : Performance) : UInt32 :=
  match p.ending with
  | .returned n => n.toUInt32
  | .exited n => n.toUInt32
  | .escaped _ => 1

/-- What is said of a failure that nothing handled. -/
def Performance.lastWords (p : Performance) : String :=
  match p.ending with
  | .escaped e => e.message ++ "\n"
  | _ => ""

/-- Perform on the line that the operator types after the question. -/
def performAsking (args : List String) (host : Host) (silent : Performance) : IO Performance := do
  let stdin ← IO.getStdin
  let stdout ← IO.getStdout
  stdout.putStr silent.output
  stdout.flush
  let line ← stdin.getLine
  let p := perform {} args none (askOnTerminal (.text line)) host
  return { p with output := String.ofList (p.output.toList.drop silent.output.length) }

/-- Rehearse the command. -/
def rehearse (args : List String) : IO UInt32 := do
  let snapshot ← readSnapshot
  let host := snapshot.host
  let silent := perform {} args none (askOnTerminal (.text "")) host
  let p ← if silent.asks then performAsking args host silent else pure silent
  IO.print p.output
  IO.eprint (p.errorOutput ++ p.lastWords)
  return p.status

end CommandLine

end Provisioning

/-- The command. -/
def main (args : List String) : IO UInt32 := Provisioning.CommandLine.rehearse args
