/-
# `Provisioning.Detail` — machine-readable values

The values that accompany an error and that a record is dumped to: truth
values, numbers, texts, lists, and objects with named fields.
-/
import Provisioning.Number

namespace Provisioning

/-- A machine-readable value. -/
inductive Detail where
  | null
  | bool (b : Bool)
  | number (n : Number)
  | text (s : String)
  | list (items : List Detail)
  | object (fields : List (String × Detail))
  deriving Inhabited

namespace Detail

/-- A whole number. -/
def int (n : Int) : Detail := .number (.whole n)

/-- Texts in a list. -/
def texts (ss : List String) : Detail := .list (ss.map .text)

/-- A text that may be absent. -/
def optional : Option String → Detail
  | none => .null
  | some s => .text s

end Detail

end Provisioning
