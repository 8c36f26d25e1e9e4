/-
# `Provisioning.CommandLine.Options` — the options of the command

The command has the account, privilege and directory options on windows and
none of them on linux; help, confirmation, logging and version it has on both.
A flag takes no value, or one value, or a value that may be left out.
-/
import Provisioning.Detail

namespace Provisioning.CommandLine

/-- The variants of the command. -/
inductive Platform where
  | windows
  | linux
  deriving DecidableEq, Repr

/-- The options. -/
inductive Flag where
  | help
  | createUser
  | password
  | runner
  | dir
  | user
  | fullControl
  | currentUser
  | yes
  | verbose
  | version
  deriving DecidableEq, Repr

/-- How many values an option takes. -/
inductive Arity where
  | none
  | one
  /-- One value, or none. -/
  | upToOne
  deriving DecidableEq, Repr

namespace Flag

/-- The spellings of an option. -/
def spellings : Flag → List String
  | .help => ["-h", "--help"]
  | .createUser => ["--create-user"]
  | .password => ["--password"]
  | .runner => ["--runner"]
  | .dir => ["--dir"]
  | .user => ["--user"]
  | .fullControl => ["--full-control"]
  | .currentUser => ["--current-user"]
  | .yes => ["-y", "--yes"]
  | .verbose => ["-v", "--verbose"]
  | .version => ["--version"]

/-- How many values an option takes. -/
def arity : Flag → Arity
  | .createUser | .password | .dir | .user => .one
  | .runner => .upToOne
  | .help | .fullControl | .currentUser | .yes | .verbose | .version => .none

/-- The name of an option in an error message. -/
def title (f : Flag) : String := "/".intercalate f.spellings

end Flag

/-- The options of a variant, in the order in which the help lists them. -/
def Platform.flags : Platform → List Flag
  | .windows =>
    [.help, .createUser, .password, .runner, .dir, .user, .fullControl, .currentUser, .yes,
      .verbose, .version]
  | .linux => [.help, .yes, .verbose, .version]

/-- Every spelling of a variant with its option. -/
def Platform.spellings (p : Platform) : List (String × Flag) :=
  p.flags.flatMap fun f => f.spellings.map fun s => (s, f)

/-! ## The texts of the command -/

/-- Lines, each ended. -/
def endedLines (ls : List String) : String := String.join (ls.map fun l => l ++ "\n")

/-- The version of the command. -/
def versionText : String := "sp-provision 0.1.0\n"

/-- How the command is called. -/
def Platform.usage : Platform → String
  | .windows =>
    endedLines
      ["usage: sp-provision [-h] [--create-user NAME] [--password SECRET]",
        "                    [--runner [NAME]] [--dir PATH[,PATH...]] [--user NAME]",
        "                    [--full-control] [--current-user] [-y] [-v] [--version]"]
  | .linux => endedLines ["usage: sp-provision [-h] [-y] [-v] [--version]"]

/-- What the command is for. -/
def purpose : String :=
  "Prepare this host for the sp sandbox: accounts, privileges and directory access on Windows, " ++
    "cgroups on Linux.\n"

/-- What each option does. -/
def Platform.optionTexts : Platform → String
  | .windows =>
    endedLines
      ["options:",
        "  -h, --help            show this help message and exit",
        "  --create-user NAME    create a local account (requires --password)",
        "  --password SECRET     password for --create-user",
        "  --runner [NAME]       grant the privileges needed to run the sandbox to",
        "                        NAME, or to the current account when NAME is omitted",
        "  --dir PATH[,PATH...]  grant the target account access to these directories",
        "  --user NAME           existing account to grant access to",
        "  --full-control        grant full control instead of read/write/create",
        "  --current-user        grant directory access to the current account by",
        "                        default",
        "  -y, --yes             do not ask for confirmation",
        "  -v, --verbose         enable debug logging",
        "  --version             show program's version number and exit"]
  | .linux =>
    endedLines
      ["options:",
        "  -h, --help     show this help message and exit",
        "  -y, --yes      do not ask for confirmation",
        "  -v, --verbose  enable debug logging",
        "  --version      show program's version number and exit"]

/-- What is said at the end of the help. -/
def Platform.closing : Platform → String
  | .windows =>
    endedLines
      ["examples:",
        "  sp-provision --create-user sandbox --password S3cret! --dir C:\\tasks,C:\\tmp",
        "  sp-provision --runner",
        "  sp-provision --user sandbox --dir D:\\work --full-control",
        "",
        "Privileges granted with --runner only take effect after a restart."]
  | .linux =>
    endedLines
      ["Creates /sys/fs/cgroup/\x7bblkio,cpuacct,memory,pids,freezer\x7d/sp owned by the",
        "invoking user.  cgroupfs is not persistent: run this again after every",
        "reboot."]

/-- The help of a variant. -/
def Platform.help (p : Platform) : String :=
  p.usage ++ "\n" ++ purpose ++ "\n" ++ p.optionTexts ++ "\n" ++ p.closing

/-- The complaint about a wrong command line. -/
def Platform.complaint (p : Platform) (message : String) : String :=
  p.usage ++ "sp-provision: error: " ++ message ++ "\n"

end Provisioning.CommandLine
