/-
# `Provisioning.Fault.Misuse` — a value used as one of another sort

A record that takes values unchecked, and a sequence that holds values of any
sort, may hold one that cannot be used as it is meant to be.  `Misuse` says
how the use failed, and names the sort of the value.
-/
namespace Provisioning

/-- How the use of a value failed. -/
inductive Misuse where
  /-- A value of the named type lacks what is asked of it. -/
  | lacks (type wanted : String)
  /-- A value of the named type cannot be gone through. -/
  | notIterable (type : String)
  /-- What is to be joined is no sequence. -/
  | notJoinable
  /-- The item at an index of what is to be joined is of the named type, and no text. -/
  | notText (index : Nat) (type : String)
  /-- A value of the named type cannot be in a set. -/
  | notHashable (type : String)
  /-- A value of the named type is no path. -/
  | notPath (type : String)
  deriving DecidableEq, Repr

/-- What is said of a misuse. -/
def Misuse.message : Misuse → String
  | .lacks type wanted => "'" ++ type ++ "' object has no attribute '" ++ wanted ++ "'"
  | .notIterable type => "'" ++ type ++ "' object is not iterable"
  | .notJoinable => "can only join an iterable"
  | .notText index type =>
    "sequence item " ++ toString index ++ ": expected str instance, " ++ type ++ " found"
  | .notHashable type => "unhashable type: '" ++ type ++ "'"
  | .notPath type => "expected str, bytes or os.PathLike object, not " ++ type

end Provisioning
