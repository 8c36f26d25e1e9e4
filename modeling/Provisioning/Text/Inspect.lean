/-
# `Provisioning.Text.Inspect` — values in messages

The text of a value where a reader wants to see what it is: truth values and
absence by their names, lists in brackets, a record as its name with its
fields between parentheses.  Texts inside a value are quoted by
`Provisioning.Text.Quoted`.
-/
import Provisioning.Text.Quoted

namespace Provisioning.Text

/-- A truth value. -/
def inspectBool (b : Bool) : String := if b then "True" else "False"

/-- A value that may be absent. -/
def inspectOption {α : Type} (inspect : α → String) : Option α → String
  | none => "None"
  | some a => inspect a

/-- A list of values. -/
def inspectList {α : Type} (inspect : α → String) (xs : List α) : String :=
  "[" ++ ", ".intercalate (xs.map inspect) ++ "]"

/-- A record: its name and its fields, already shown. -/
def inspectRecord (name : String) (fields : List (String × String)) : String :=
  name ++ "(" ++ ", ".intercalate (fields.map fun f => f.1 ++ "=" ++ f.2) ++ ")"

end Provisioning.Text
