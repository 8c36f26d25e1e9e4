/-
# `Provisioning.Host.Tree` — the file tree of a host

A file tree maps paths to entries.  A path is looked up as it is: `..` is not
resolved.  An entry may deny some operations; each operation says which error
it ends with, and when several apply the first in this order wins.

    stat     absent: no entry      denied: access denied
    mkdir    exists already        parent absent: no entry
             parent no directory   parent denies: access denied
    chown    absent: no entry      denied: not permitted

Only the parent is looked at, and not what is above it.  Below a file there is
nothing, so what lies deeper than directly in it is answered as absent, where
an operating system says that something on the way is no directory; and a
directory above that denies being searched denies nothing here.  Names are
texts that can be handed to the system, without the null character.
-/
import Provisioning.Fault.System
import Provisioning.Path
import Provisioning.Table

namespace Provisioning

/-- What an entry is. -/
inductive EntryType where
  | directory
  | file
  deriving DecidableEq, Repr

/-- The operations that an entry denies. -/
structure Denials where
  stat : Bool := false
  mkdir : Bool := false
  chown : Bool := false
  deriving DecidableEq

/-- An entry of a file tree. -/
structure Node where
  type : EntryType := .directory
  uid : Int := 0
  denies : Denials := {}
  deriving DecidableEq

/-- A file tree. -/
abbrev Tree := Table Path Node

namespace Tree

/-- Look at an entry. -/
def stat (t : Tree) (p : Path) : Except SystemError Node :=
  match t.get? p with
  | none => .error (.about SystemError.noEntry p.toString)
  | some n =>
    if n.denies.stat then .error (.about SystemError.accessDenied p.toString) else .ok n

/-- Make a directory that belongs to `uid`. -/
def mkdir (t : Tree) (uid : Int) (p : Path) : Except SystemError Tree :=
  if (t.get? p).isSome then .error (.about SystemError.alreadyExists p.toString)
  else
    match t.get? p.parent with
    | none => .error (.about SystemError.noEntry p.toString)
    | some parent =>
      if parent.type = .file then .error (.about SystemError.notDirectory p.toString)
      else if parent.denies.mkdir then .error (.about SystemError.accessDenied p.toString)
      else .ok (t.put p { uid })

/-- Give an entry to `uid`. -/
def chown (t : Tree) (p : Path) (uid : Int) : Except SystemError Tree :=
  match t.get? p with
  | none => .error (.about SystemError.noEntry p.toString)
  | some n =>
    if n.denies.chown then .error (.about SystemError.notPermitted p.toString)
    else .ok (t.put p { n with uid })

/-- What a directory holds of one type, sorted by name. -/
def children (t : Tree) (type : EntryType) (p : Path) : List Path :=
  ((t.rows.filter fun e => e.1.parent = p && e.1 ≠ p && e.2.type = type).map Prod.fst).mergeSort
    fun a b => decide (a.name ≤ b.name)

/-- What lies below a directory, at most `depth` levels down: first its directories and its files,
then what lies below each of the directories. -/
def below (t : Tree) : Nat → Path → List Path
  | 0, _ => []
  | depth + 1, p =>
    let dirs := t.children .directory p
    dirs ++ t.children .file p ++ dirs.flatMap (t.below depth)

/-- Everything below a path, in the order in which a walk meets it.  A chain of entries is no longer
than the tree is large, so no level is missed. -/
def walk (t : Tree) (p : Path) : List Path :=
  match t.get? p with
  | some { type := .directory, .. } => t.below t.rows.length p
  | _ => []

end Tree

end Provisioning
