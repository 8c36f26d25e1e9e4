/-
# `Provisioning.Host.Script` — hosts that answer by a script

A scripted host answers external programs and the security service by fixed
rules.  The first rule answers a program whose pattern begins its arguments
and which has not yet been used as often as it may; without a rule a program
does nothing and reports success.  A script may let the elevating program do
what it is told: make directories and change owners.
-/
import Provisioning.Host.Basic

namespace Provisioning

/-- How a scripted program ends. -/
inductive ScriptedEnd where
  | output (o : ProgramOutput)
  | fault (f : Fault)
  /-- It runs longer than its limit. -/
  | timeout

/-- A rule for external programs. -/
structure ScriptedProgram where
  /-- What the arguments begin with. -/
  pattern : List String := []
  /-- How often the rule may be used, if not always. -/
  times : Option Nat := none
  result : ScriptedEnd

namespace Script

/-- The first rule that answers some arguments, given with every rule how often it was used; and the
uses afterwards. -/
def use (args : List String) :
    List (ScriptedProgram × Nat) → Option ScriptedEnd × List (ScriptedProgram × Nat)
  | [] => (none, [])
  | (rule, used) :: rest =>
    if rule.pattern.isPrefixOf args && rule.times.all (used < ·) then
      (some rule.result, (rule, used + 1) :: rest)
    else
      let later := use args rest
      (later.1, (rule, used) :: later.2)

/-- The rules with their uses after some programs were started. -/
def after (rules : List ScriptedProgram) (started : List Invocation) :
    List (ScriptedProgram × Nat) :=
  started.foldl (fun uses i => (use i.args uses).2) (rules.map fun r => (r, 0))

/-- What the elevating program does to the tree when it succeeds. -/
def elevatedEffect (passwd : List (String × Int)) (args : List String) (tree : Tree) : Tree :=
  match args with
  | [_, "-n", "mkdir", p] => tree.put (Path.ofString p) {}
  | [_, "-n", "chown", "-R", owner, p] =>
    let path := Path.ofString p
    let uid := (passwd.lookup owner).getD 0
    tree.mapValues fun q n =>
      if q == path || (p ++ "/").isPrefixOf q.toString then { n with uid } else n
  | _ => tree

/-- The programs of a scripted host. -/
def programs (rules : List ScriptedProgram) (applies : Bool) (passwd : List (String × Int)) :
    Programs := fun started invocation tree =>
  match ((use invocation.args (after rules started)).1).getD (.output {}) with
  | .fault f => (.error f, tree)
  | .timeout => (.error (.timedOut invocation.args invocation.limit), tree)
  | .output o =>
    (.ok o, if applies && o.succeeded then elevatedEffect passwd invocation.args tree else tree)

end Script

/-- Fixed answers of the security service, where they differ from the plain ones. -/
structure ScriptedLsa where
  lookupError : Option Int := none
  secondError : Option Int := none
  openStatus : Int := Lsa.success
  listStatus : Option Int := none
  addStatus : Int := Lsa.success
  winErrors : List (Int × Int) := []

/-- The security service of a scripted host. -/
def ScriptedLsa.service (s : ScriptedLsa) : LsaService where
  sizeError turn accounts name := s.lookupError.getD (LsaService.plain.sizeError turn accounts name)
  sidError _ _ _ := s.secondError
  openStatus _ _ := s.openStatus
  listRights turn accounts name :=
    match s.listStatus with
    | none => LsaService.plain.listRights turn accounts name
    | some status => (status, LsaService.counted ((accounts.get? name).getD []))
  addRights turn accounts name rights :=
    if s.addStatus = Lsa.success then LsaService.plain.addRights turn accounts name rights
    else (s.addStatus, accounts)
  winError turn status := (s.winErrors.lookup status).getD (LsaService.plain.winError turn status)

end Provisioning
