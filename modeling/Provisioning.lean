import Provisioning.Schema.Summary
import Provisioning.Orchestrator
import Provisioning.CommandLine.Perform
import Provisioning.Host.Intervention
import Provisioning.Host.Script
import Provisioning.Main
import Provisioning.Proofs.Consent
import Provisioning.Proofs.Validation
import Provisioning.Proofs.Runner
import Provisioning.Proofs.Retry
import Provisioning.Proofs.Aftermath
import Provisioning.Proofs.Cgroup.Inside
import Provisioning.Proofs.Cgroup.Settled
import Provisioning.Proofs.Cgroup.Validation
import Provisioning.Proofs.Secrecy.Command
import Provisioning.Proofs.Secrecy.Creation
import Provisioning.Proofs.CommandLine.Conclusion
import Provisioning.Proofs.Faults
import Provisioning.Proofs.CommandLine.Status
import Provisioning.Proofs.CommandLine.Notice
import Provisioning.Proofs.Cgroup.Usable
import Provisioning.Proofs.Cgroup.Repair
import Provisioning.Proofs.Cgroup.Checked
import Provisioning.Proofs.Cgroup.Backends
import Provisioning.Proofs.Kept
import Provisioning.Proofs.Directory.Granted
import Provisioning.Proofs.Directory.Latest
import Provisioning.Proofs.Unfinished
import Provisioning.Proofs.Account.Vouched
import Provisioning.Proofs.Directory.Batch
import Provisioning.Proofs.Directory.Listing
import Provisioning.Proofs.Directory.Skipped
import Provisioning.Proofs.Directory.Turns
import Provisioning.Proofs.Host.Rounds
import Provisioning.Proofs.Privilege.History
import Provisioning.Proofs.Privilege.Service
import Provisioning.Proofs.Privilege.Handles
import Provisioning.Proofs.Cgroup.Elevated
import Provisioning.Proofs.Cgroup.Denied
import Provisioning.Proofs.Account.Resolved
import Provisioning.Proofs.Summary
import Provisioning.Proofs.Privilege.Spelling
import Provisioning.Proofs.CommandLine.Directories
