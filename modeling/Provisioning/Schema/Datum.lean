/-
# `Provisioning.Schema.Datum` — values before they are checked

What is offered as the field of a record: plain data, or a value that already
has a type of this library.  A member of an enumeration is also a text, the
one that names it.

Values that are equal count as one in a set.  A truth value equals the number
that it stands for, whole numbers and fractions are equal by their value, and
a member of an enumeration equals its text.
-/
import Provisioning.Account.Identity
import Provisioning.Cgroup.Group
import Provisioning.Directory.Rights
import Provisioning.Privilege.Basic

namespace Provisioning.Schema

/-- A value offered as a field. -/
inductive Datum where
  | null
  | bool (b : Bool)
  | int (n : Int)
  | decimal (x : Double)
  | text (s : String)
  | list (items : List Datum)
  | tuple (items : List Datum)
  | set (items : List Datum)
  | dict (fields : List (String × Datum))
  | credential (c : Credential)
  | path (p : Path)
  | rights (r : AccessRights)
  | privilege (p : Privilege)
  | source (s : IdentitySource)
  | subsystem (s : CgroupSubsystem)
  | identity (i : Identity)
  deriving Inhabited

/-- The named fields that a record is made from. -/
abbrev Fields := List (String × Datum)

namespace Datum

/-- The name of a value's type. -/
def typeName : Datum → String
  | .null => "NoneType"
  | .bool _ => "bool"
  | .int _ => "int"
  | .decimal _ => "float"
  | .text _ => "str"
  | .list _ => "list"
  | .tuple _ => "tuple"
  | .set _ => "set"
  | .dict _ => "dict"
  | .credential _ => "Credential"
  | .path _ => "PosixPath"
  | .rights _ => "AccessRights"
  | .privilege _ => "PrivilegeKind"
  | .source _ => "IdentitySource"
  | .subsystem _ => "CgroupSubsystem"
  | .identity _ => "Identity"

/-- The text that a value is, if it is one. -/
def text? : Datum → Option String
  | .text s => some s
  | .rights r => some r.toString
  | .privilege p => some p.constant
  | .source s => some s.toString
  | .subsystem s => some s.toString
  | _ => none

/-- The number that a value is, if it is one. -/
def number? : Datum → Option Number
  | .bool b => some (.whole (if b then 1 else 0))
  | .int n => some (.whole n)
  | .decimal x => some (.fraction x)
  | _ => none

/-- The value is absent. -/
def isNull : Datum → Bool
  | .null => true
  | _ => false

/-! ## Values in messages -/

mutual

/-- A value, shown as a value. -/
def inspect : Datum → String
  | .null => "None"
  | .bool b => Text.inspectBool b
  | .int n => toString n
  | .decimal x => x.toString
  | .text s => Text.quoted s
  | .list xs => "[" ++ ", ".intercalate (inspectAll xs) ++ "]"
  | .tuple [x] => "(" ++ inspect x ++ ",)"
  | .tuple xs => "(" ++ ", ".intercalate (inspectAll xs) ++ ")"
  | .set [] => "set()"
  | .set xs => "\x7b" ++ ", ".intercalate (inspectAll xs) ++ "\x7d"
  | .dict fs => "\x7b" ++ ", ".intercalate (inspectFields fs) ++ "\x7d"
  | .credential c => c.inspect
  | .path p => "PosixPath(" ++ Text.quoted p.toString ++ ")"
  | .rights r => r.inspect
  | .privilege p => p.inspect
  | .source s => s.inspect
  | .subsystem s => s.inspect
  | .identity i => i.inspect

/-- Values, each shown as a value. -/
def inspectAll : List Datum → List String
  | [] => []
  | d :: ds => inspect d :: inspectAll ds

/-- Named values, each shown as a value after its name. -/
def inspectFields : List (String × Datum) → List String
  | [] => []
  | (name, d) :: fs => (Text.quoted name ++ ": " ++ inspect d) :: inspectFields fs

end

/-! ## Values in sets -/

/-- The type for which a value cannot be in a set, if there is one: a collection that may change. -/
def changingPart? : Datum → Option String
  | .list _ => some "list"
  | .set _ => some "set"
  | .dict _ => some "dict"
  | .tuple xs => firstOf xs
  | _ => none
where
  /-- The same for the first of several values. -/
  firstOf : List Datum → Option String
    | [] => none
    | d :: ds => changingPart? d <|> firstOf ds

/-- Values that can be in a set are equal. -/
def same : Datum → Datum → Bool
  | .null, .null => true
  | .credential c, .credential d => c == d
  | .path p, .path q => p == q
  | .identity i, .identity j => i == j
  | .tuple xs, .tuple ys => sameAll xs ys
  | d, e =>
    match d.number?, e.number?, d.text?, e.text? with
    | some m, some n, _, _ => m.inUnits == n.inUnits
    | _, _, some s, some t => s == t
    | _, _, _, _ => false
where
  /-- Several values are equal one by one. -/
  sameAll : List Datum → List Datum → Bool
    | [], [] => true
    | d :: ds, e :: es => same d e && sameAll ds es
    | _, _ => false

/-- The set of some values: of equal ones the first. -/
def setOf (values : List Datum) : Except Fault Datum :=
  match values.findSome? changingPart? with
  | some type => .error (.misused (.notHashable type))
  | none =>
    .ok (.set (values.foldl (fun kept d => if kept.any (same · d) then kept else kept ++ [d]) []))

/-! ## Values that are gone through -/

/-- A value that may be absent. -/
def ofOption {α : Type} (f : α → Datum) : Option α → Datum
  | none => .null
  | some a => f a

end Datum

/-- The fields of an identity. -/
def identityFields (i : Identity) : Fields :=
  [("name", .text i.name), ("exists", .bool i.present), ("source", .source i.source),
    ("credential", .ofOption .credential i.credential)]

namespace Datum

/-- The items of a sequence.  An identity is one too, of its fields, each a pair of a name and a
value; a text and a dictionary are none. -/
def sequence? : Datum → Option (List Datum)
  | .list xs => some xs
  | .tuple xs => some xs
  | .set xs => some xs
  | .identity i => some ((identityFields i).map fun f => .tuple [.text f.1, f.2])
  | _ => none

/-- The items of a value that can be gone through: those of a sequence, the keys of a dictionary, the
characters of a text. -/
def items? (d : Datum) : Option (List Datum) :=
  match d with
  | .dict fs => some (fs.map fun f => .text f.1)
  | d => d.sequence? <|> d.text?.map fun s => s.toList.map fun c => .text (String.singleton c)

theorem items?_list (xs : List Datum) : (Datum.list xs).items? = some xs := rfl

/-! ## Yes and no -/

/-- The value counts as yes where only yes or no is asked. -/
def isYes : Datum → Bool
  | .null => false
  | .bool b => b
  | .int n => n != 0
  | .decimal x => x.units != 0
  | .list xs => !xs.isEmpty
  | .tuple xs => !xs.isEmpty
  | .set xs => !xs.isEmpty
  | .dict fs => !fs.isEmpty
  | .credential c => c.isGiven
  | .text s => s != ""
  | _ => true

end Datum

end Provisioning.Schema
