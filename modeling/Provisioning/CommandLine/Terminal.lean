/-
# `Provisioning.CommandLine.Terminal` — asking on the terminal

The operator is asked with the prompt and ` [y/N] `, and one line is read.
`y` and `yes` mean yes, in any case and with blanks around them; every other
line means no, and so do the end of the input and an interrupt.  A prompt that
cannot be printed, or an input that cannot be read, is a failure.
-/
import Provisioning.Orchestrator
import Provisioning.Text.Blank

namespace Provisioning.CommandLine

/-- What the operator types when asked. -/
inductive Keyboard where
  | text (s : String)
  | interrupt
  /-- Something that is no text, or nothing any more, with what is said of that. -/
  | garbled (message : String)
  /-- The system cannot read it. -/
  | broken (e : SystemError)
  deriving DecidableEq

/-- The first line typed, without its end; none when nothing is typed. -/
def Keyboard.read : Keyboard → Except Fault (Option String)
  | .interrupt => .ok none
  | .text s => .ok (if s = "" then none else some (String.ofList (s.toList.takeWhile (· ≠ '\n'))))
  | .garbled message => .error (.badValue message)
  | .broken e => .error (.system e)

/-- The line means yes. -/
def meansYes (line : String) : Bool := ["y", "yes"].contains (Text.lower (Text.trim line))

/-- Ask on the terminal. -/
def askOnTerminal (keyboard : Keyboard) : Confirmation := fun prompt => do
  Run.print (prompt ++ " [y/N] ")
  match ← Run.ofExcept keyboard.read with
  | none =>
    Run.note (.printedError "\n")
    return false
  | some line => return meansYes line

end Provisioning.CommandLine
