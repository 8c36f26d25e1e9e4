/-
# `Provisioning.Config` — how runs are configured

Every field has a default, so the empty configuration works on a stock host.
-/
import Provisioning.Detail
import Provisioning.Path

namespace Provisioning

/-- The configuration of provisioning runs. -/
structure Config where
  /-- Where the hierarchies of the cgroup controllers are mounted. -/
  cgroupRoot : Path := Path.ofString "/sys/fs/cgroup"
  /-- The group that the sandbox runner creates tasks under. -/
  cgroupGroup : String := "sp"
  /-- Change the host without asking. -/
  assumeYes : Bool := false
  /-- After provisioning, fail if a directory of the group is missing or belongs to another. -/
  verifyCgroups : Bool := true
  /-- The program that elevates cgroup operations. -/
  sudoExecutable : String := "sudo"
  /-- The program that manages accounts. -/
  netExecutable : String := "net"
  /-- The program that edits access lists. -/
  icaclsExecutable : String := "icacls"
  /-- How many seconds an external program may run. -/
  commandTimeout : Nat := 60
  deriving DecidableEq

namespace Config

/-- The longest time an external program may be given. -/
def longestTimeout : Nat := 600

/-- A configuration as a machine reads it. -/
def dump (c : Config) : Detail :=
  .object
    [("cgroup_root", .text c.cgroupRoot.toString), ("cgroup_group", .text c.cgroupGroup),
      ("assume_yes", .bool c.assumeYes), ("verify_cgroups", .bool c.verifyCgroups),
      ("sudo_executable", .text c.sudoExecutable), ("net_executable", .text c.netExecutable),
      ("icacls_executable", .text c.icaclsExecutable),
      ("command_timeout", .int c.commandTimeout)]

end Config

end Provisioning
