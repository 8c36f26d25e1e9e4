/-
# `Provisioning.Cgroup.Table` — a cgroup hierarchy kept in memory

The directories of a hierarchy with their owners, and the calls made on it so
far.  Without elevation every call is refused, and the refused call counts as
made; an operator who interrupts does so before a directory is asked for.
-/
import Provisioning.Fault.Basic
import Provisioning.Path
import Provisioning.Table

namespace Provisioning

/-- A call on a hierarchy. -/
inductive CgroupCall where
  | makeDirectory (path : Path)
  | changeOwner (path : Path)
  deriving DecidableEq

/-- A cgroup hierarchy. -/
structure CgroupTable where
  owners : Table Path String := {}
  /-- Calls are not refused. -/
  elevated : Bool := true
  /-- The operator interrupts instead of letting a directory be made. -/
  interrupts : Bool := false
  /-- The calls made, in order. -/
  calls : List CgroupCall := []

namespace CgroupTable

/-- The refusal of a call on a path. -/
def denial (path : Path) : Fault :=
  .refuse .permissionDenied ("Permission denied: " ++ path.toString) [("path", .text path.toString)]

/-- The hierarchy with a call written down. -/
def noted (t : CgroupTable) (call : CgroupCall) : CgroupTable := { t with calls := t.calls ++ [call] }

/-- The hierarchy with a directory, owned by root if it is new. -/
def withDirectory (t : CgroupTable) (path : Path) : CgroupTable :=
  if t.owners.contains path then t else { t with owners := t.owners.put path "root" }

/-- The hierarchy in which a path and all below it belong to an owner. -/
def ownedWithin (t : CgroupTable) (path : Path) (owner : String) : CgroupTable :=
  { t with owners := t.owners.mapValues fun p old => if p.isWithin path then owner else old }

/-- The directories, in the order of their components. -/
def directories (t : CgroupTable) : List (Path × String) :=
  t.owners.rows.mergeSort fun a b => a.1.atMost b.1

end CgroupTable

end Provisioning
