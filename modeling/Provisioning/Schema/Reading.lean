/-
# `Provisioning.Schema.Reading` — checking values field by field

A reading of a value is good, or bad with every issue found, or broken by a
failure that no issue describes.  Readings of several fields are put together
so that all issues are kept, in the order of the fields; a broken reading
breaks the whole.

There are two ways to read.  The strict way takes a value only as what it is.
The lax way also takes the usual spellings of yes and no, any sequence for a
list, and the name of a member for the member.  Neither ever makes a text out
of a value that is none.
-/
import Provisioning.Privilege.Set
import Provisioning.Schema.Datum

namespace Provisioning.Schema

/-- The outcome of checking a value. -/
inductive Reading (α : Type) where
  | good (a : α)
  | bad (issues : List Issue)
  | broken (fault : Fault)

namespace Reading

variable {α β : Type}

/-- A reading with its good value changed. -/
def map (f : α → β) : Reading α → Reading β
  | .good a => .good (f a)
  | .bad is => .bad is
  | .broken e => .broken e

/-- Two readings side by side: all issues are kept. -/
def seq : Reading (α → β) → Reading α → Reading β
  | .broken e, _ => .broken e
  | .good f, x => x.map f
  | .bad _, .broken e => .broken e
  | .bad is, .bad js => .bad (is ++ js)
  | .bad is, .good _ => .bad is

instance : Functor Reading := ⟨map, fun a => map fun _ => a⟩
instance : Pure Reading := ⟨good⟩
instance : Seq Reading := ⟨fun f x => seq f (x ())⟩

/-- The issues of a reading as seen from the record that holds the value. -/
def within (name : String) : Reading α → Reading α
  | .bad is => .bad (is.map (Issue.within name))
  | r => r

/-- The record of a model, or the failure that its reading amounts to. -/
def toExcept (model : String) : Reading α → Except Fault α
  | .good a => .ok a
  | .bad is => .error (.invalid model is)
  | .broken e => .error e

end Reading

/-- The value is wrong as a whole. -/
def wrong {α : Type} (kind : IssueKind) : Reading α := .bad [⟨kind, []⟩]

/-- A way to read one value. -/
abbrev Reader (α : Type) := Datum → Reading α

/-! ## Texts, truth values and numbers -/

/-- Any text. -/
def aText : Reader String := fun d =>
  match d.text? with
  | some s => .good s
  | none => wrong .stringType

/-- A text that is not empty. -/
def aName : Reader { s : String // s ≠ "" } := fun d =>
  match d.text? with
  | none => wrong .stringType
  | some s => if h : s = "" then wrong .stringEmpty else .good ⟨s, h⟩

/-- A truth value, strictly. -/
def aBool : Reader Bool
  | .bool b => .good b
  | _ => wrong .boolType

/-- The words that say yes and the words that say no, in lower case. -/
def yesWords : List String := ["true", "t", "yes", "y", "on", "1"]

@[inherit_doc yesWords]
def noWords : List String := ["false", "f", "no", "n", "off", "0"]

/-- The bound of the whole numbers that fit a machine word of 64 bits. -/
def wordBound : Int := 9223372036854775808

/-- A truth value in one of its usual spellings.  A whole number that fits a machine word could have
been one. -/
def aLaxBool : Reader Bool := fun d =>
  match d with
  | .bool b => .good b
  | .int n =>
    if n = 0 then .good false
    else if n = 1 then .good true
    else if -wordBound ≤ n ∧ n < wordBound then wrong .boolParsing
    else wrong .boolType
  | .decimal x =>
    if x.inUnits = 0 then .good false
    else if x.inUnits = Double.one then .good true
    else if x.isWhole ∧ x.units < wordBound.toNat * Double.one then wrong .boolParsing
    else wrong .boolType
  | _ =>
    match d.text? with
    | none => wrong .boolType
    | some s =>
      let word := s.map Char.toLower
      if yesWords.contains word then .good true
      else if noWords.contains word then .good false
      else wrong .boolParsing

/-- A whole number between two bounds. -/
def anInt (least most : Int) : Reader Int
  | .int n => if n < least then wrong (.atLeast least) else if most < n then wrong (.atMost most) else .good n
  | _ => wrong .intType

/-! ## Values with a type of their own -/

/-- A path. -/
def aPath : Reader Path
  | .path p => .good p
  | _ => wrong (.instanceOf "Path")

/-- A source. -/
def aSource : Reader IdentitySource
  | .source s => .good s
  | _ => wrong (.instanceOf "IdentitySource")

/-- A controller. -/
def aSubsystem : Reader CgroupSubsystem
  | .subsystem s => .good s
  | _ => wrong (.instanceOf "CgroupSubsystem")

/-- A privilege. -/
def aPrivilege : Reader Privilege
  | .privilege p => .good p
  | _ => wrong (.instanceOf "PrivilegeKind")

/-- Rights, strictly. -/
def someRights : Reader AccessRights
  | .rights r => .good r
  | _ => wrong (.instanceOf "AccessRights")

/-- Some names, as a choice among them is put. -/
def choiceText : List String → String
  | [] => ""
  | [a] => Text.quoted a
  | [a, b] => Text.quoted a ++ " or " ++ Text.quoted b
  | a :: rest => Text.quoted a ++ ", " ++ choiceText rest

/-- Rights or their name. -/
def someLaxRights : Reader AccessRights := fun d =>
  match d.text?.bind AccessRights.ofString? with
  | some r => .good r
  | none => wrong (.choice (choiceText (AccessRights.all.map AccessRights.toString)))

/-- A privilege or its constant name. -/
def aLaxPrivilege : Reader Privilege := fun d =>
  match d.text?.bind Privilege.ofConstant? with
  | some p => .good p
  | none => wrong (.choice (choiceText (Privilege.all.map Privilege.constant)))

/-- A credential, strictly. -/
def aCredential : Reader Credential
  | .credential c => .good c
  | _ => wrong (.instanceOf "Credential")

/-- A credential or its plaintext. -/
def aLaxCredential : Reader Credential := fun d =>
  match d.text? with
  | some s => .good ⟨s⟩
  | none => aCredential d

/-! ## Absence and sequences -/

/-- A value that may be absent. -/
def optional {α : Type} (read : Reader α) : Reader (Option α)
  | .null => .good none
  | d => (read d).map some

/-- The items of a list, each read at its index; all their issues are kept. -/
def itemsFrom {α : Type} (read : Reader α) (index : Nat) : List Datum → Reading (List α)
  | [] => .good []
  | d :: ds =>
    let here : Reading α :=
      match read d with
      | .bad is => .bad (is.map fun i => ⟨i.kind, .item index :: i.place⟩)
      | r => r
    (here.map List.cons).seq (itemsFrom read (index + 1) ds)

/-- A list, strictly. -/
def aList {α : Type} (read : Reader α) : Reader (List α)
  | .list xs => itemsFrom read 0 xs
  | _ => wrong .listType

/-- Any sequence, as a list. -/
def aLaxList {α : Type} (read : Reader α) : Reader (List α) := fun d =>
  match d.sequence? with
  | some xs => itemsFrom read 0 xs
  | none => wrong .listType

/-- A privilege or one of its spellings.  A value that is no text breaks the reading. -/
def privilegeOf : Datum → Except Fault Privilege
  | .privilege p => .ok p
  | d =>
    match d.text? with
    | none => .error (.misused (.lacks d.typeName "strip"))
    | some s =>
      match Privilege.parse? s with
      | some p => .ok p
      | none => .error (.badValue (Privilege.unsupported d.inspect))

/-- The privileges of a sequence, up to the first that cannot be read. -/
def privilegesOf : List Datum → Except Fault (List Privilege)
  | [] => .ok []
  | d :: ds => do
    let p ← privilegeOf d
    let ps ← privilegesOf ds
    return p :: ps

/-- A set of privileges, from any collection of privileges and spellings.  A sequence that is no
collection may hold them only under their constant names. -/
def somePrivileges : Reader PrivilegeSet := fun d =>
  let ofItems (xs : List Datum) : Reading PrivilegeSet :=
    match privilegesOf xs with
    | .ok ps => .good (PrivilegeSet.ofList ps)
    | .error (.badValue reason) => wrong (.value reason)
    | .error e => .broken e
  match d with
  | .list xs => ofItems xs
  | .tuple xs => ofItems xs
  | .set xs => ofItems xs
  | d =>
    match d.sequence? with
    | some xs => (itemsFrom aLaxPrivilege 0 xs).map PrivilegeSet.ofList
    | none => wrong .frozenSetType

/-! ## Fields -/

/-- The first field of a name. -/
def fieldOf? (name : String) (fields : Fields) : Option Datum := fields.lookup name

/-- A field that must be there. -/
def required {α : Type} (fields : Fields) (name : String) (read : Reader α) : Reading α :=
  match fieldOf? name fields with
  | none => .bad [.inField name .missing]
  | some d => (read d).within name

/-- A field with a default. -/
def withDefault {α : Type} (fields : Fields) (name : String) (default : α) (read : Reader α) :
    Reading α :=
  match fieldOf? name fields with
  | none => .good default
  | some d => (read d).within name

end Provisioning.Schema
