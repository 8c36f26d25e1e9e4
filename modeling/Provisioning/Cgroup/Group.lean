/-
# `Provisioning.Cgroup.Group` — the directories of an isolation group

A group has one directory in the hierarchy of each controller that the sandbox
places its processes into: `<root>/<controller>/<group>`.  The order of the
controllers is the order of provisioning.
-/
import Provisioning.Fault.Basic
import Provisioning.Path
import Provisioning.Text.Inspect

namespace Provisioning

/-- The controllers that a group lives in. -/
inductive CgroupSubsystem where
  | blkio
  | cpuacct
  | memory
  | pids
  | freezer
  deriving DecidableEq, Repr

namespace CgroupSubsystem

/-- Every controller, in provisioning order. -/
def all : List CgroupSubsystem := [.blkio, .cpuacct, .memory, .pids, .freezer]

/-- The name of a controller, which is that of its directory. -/
protected def toString : CgroupSubsystem → String
  | .blkio => "blkio"
  | .cpuacct => "cpuacct"
  | .memory => "memory"
  | .pids => "pids"
  | .freezer => "freezer"

instance : ToString CgroupSubsystem := ⟨CgroupSubsystem.toString⟩

/-- The controller of a name. -/
def ofString? (s : String) : Option CgroupSubsystem := all.find? fun x => x.toString == s

/-- The long name. -/
def member : CgroupSubsystem → String
  | .blkio => "BLKIO"
  | .cpuacct => "CPUACCT"
  | .memory => "MEMORY"
  | .pids => "PIDS"
  | .freezer => "FREEZER"

/-- A controller, shown as a value. -/
def inspect (s : CgroupSubsystem) : String :=
  "<CgroupSubsystem." ++ s.member ++ ": " ++ Text.quoted s.toString ++ ">"

end CgroupSubsystem

/-- One directory of a group. -/
structure CgroupSpec where
  group : String
  subsystem : CgroupSubsystem
  named : group ≠ ""

namespace CgroupSpec

/-- A directory is known by its group and its subsystem. -/
@[ext]
theorem ext {a b : CgroupSpec} (hg : a.group = b.group) (hs : a.subsystem = b.subsystem) :
    a = b := by
  cases a
  cases b
  cases hg
  cases hs
  rfl

instance : DecidableEq CgroupSpec := fun a b =>
  if hg : a.group = b.group then
    if hs : a.subsystem = b.subsystem then .isTrue (ext hg hs)
    else .isFalse fun h => hs (congrArg subsystem h)
  else .isFalse fun h => hg (congrArg group h)

/-- Where the directory lies under a root. -/
def path (s : CgroupSpec) (root : Path) : Path := (root.join s.subsystem.toString).join s.group

/-- The directories of a group, in provisioning order; a group must have a name. -/
def forGroup (group : String) : Except Fault (List CgroupSpec) :=
  if h : group = "" then .error (.invalid "CgroupSpec" [.inField "group" .stringEmpty])
  else .ok (CgroupSubsystem.all.map fun subsystem => { group, subsystem, named := h })

theorem forGroup_of_ne {group : String} (h : group ≠ "") :
    forGroup group = .ok (CgroupSubsystem.all.map fun subsystem => { group, subsystem, named := h }) :=
  dif_neg h

/-- A specification, shown as a value. -/
def inspect (s : CgroupSpec) : String :=
  Text.inspectRecord "CgroupSpec"
    [("group", Text.quoted s.group), ("subsystem", s.subsystem.inspect)]

/-- A specification as a machine reads it. -/
def dump (s : CgroupSpec) : Detail :=
  .object [("group", .text s.group), ("subsystem", .text s.subsystem.toString)]

end CgroupSpec

end Provisioning
