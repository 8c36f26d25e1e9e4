/-
# `Provisioning.Fault.Issue` — what is wrong with a record's fields

A record is checked field by field, and every field that is wrong gives an
issue: what is wrong, and where.  `IssueKind.tag` is the machine's name for
what is wrong and `IssueKind.message` the reader's.
-/
namespace Provisioning

/-- What is wrong with a field. -/
inductive IssueKind where
  | missing
  | stringType
  /-- The text is empty where it may not be. -/
  | stringEmpty
  | boolType
  /-- The value is of a kind that can say yes or no, and says neither. -/
  | boolParsing
  | intType
  | atLeast (bound : Int)
  | atMost (bound : Int)
  | listType
  | frozenSetType
  | instanceOf (type : String)
  /-- None of the named values, which are given as they are listed in the message. -/
  | choice (values : String)
  | modelType (model : String)
  /-- The text is refused for the reason given. -/
  | value (reason : String)
  /-- The record may not be changed. -/
  | frozen
  deriving DecidableEq, Repr

namespace IssueKind

/-- The machine's name for what is wrong. -/
def tag : IssueKind → String
  | .missing => "missing"
  | .stringType => "string_type"
  | .stringEmpty => "string_too_short"
  | .boolType => "bool_type"
  | .boolParsing => "bool_parsing"
  | .intType => "int_type"
  | .atLeast _ => "greater_than_equal"
  | .atMost _ => "less_than_equal"
  | .listType => "list_type"
  | .frozenSetType => "frozen_set_type"
  | .instanceOf _ => "is_instance_of"
  | .choice _ => "enum"
  | .modelType _ => "model_type"
  | .value _ => "value_error"
  | .frozen => "frozen_instance"

/-- What is said of it. -/
def message : IssueKind → String
  | .missing => "Field required"
  | .stringType => "Input should be a valid string"
  | .stringEmpty => "String should have at least 1 character"
  | .boolType => "Input should be a valid boolean"
  | .boolParsing => "Input should be a valid boolean, unable to interpret input"
  | .intType => "Input should be a valid integer"
  | .atLeast n => "Input should be greater than or equal to " ++ toString n
  | .atMost n => "Input should be less than or equal to " ++ toString n
  | .listType => "Input should be a valid list"
  | .frozenSetType => "Input should be a valid frozenset"
  | .instanceOf t => "Input should be an instance of " ++ t
  | .choice vs => "Input should be " ++ vs
  | .modelType m => "Input should be a valid dictionary or instance of " ++ m
  | .value reason => "Value error, " ++ reason
  | .frozen => "Instance is frozen"

end IssueKind

/-- A step on the way to the value that is wrong. -/
inductive Place where
  | field (name : String)
  | item (index : Nat)
  deriving DecidableEq, Repr

/-- Something wrong, and where. -/
structure Issue where
  kind : IssueKind
  place : List Place
  deriving DecidableEq, Repr

namespace Issue

/-- Something wrong with a whole field. -/
def inField (name : String) (kind : IssueKind) : Issue := ⟨kind, [.field name]⟩

/-- The issue as seen from the record that holds the value in a field. -/
def within (name : String) (i : Issue) : Issue := ⟨i.kind, .field name :: i.place⟩

end Issue

end Provisioning
