/-
# `Provisioning.Schema.Summary` — the summary of a report with unchecked values

The fields of a report may be set to any value.  The summary looks at a field
only when it has something to say of it, and uses the value as what it should
be; that may fail, and the first failure is that of the summary.

    name          an identity's, a path's last one, a member's long one
    listed        the items that a value is gone through by (`Datum.items?`)
    joined        what is listed, if it is all texts

**Stated here.**  The summary of a report whose values were checked is
`Report.summary` (`summaryIn_reportFields`).
-/
import Provisioning.Schema.Records

namespace Provisioning.Schema

namespace Datum

/-- The name that a value has. -/
def nameIn : Datum → Except Fault String
  | .identity i => .ok i.name
  | .path p => .ok p.name
  | .rights r => .ok r.member
  | .privilege p => .ok p.member
  | .source s => .ok s.member
  | .subsystem s => .ok s.member
  | d => .error (.misused (.lacks d.typeName "name"))

/-- The text for which a member of an enumeration stands. -/
def valueIn : Datum → Except Fault String
  | .rights r => .ok r.toString
  | .privilege p => .ok p.constant
  | .source s => .ok s.toString
  | .subsystem s => .ok s.toString
  | d => .error (.misused (.lacks d.typeName "value"))

/-- The texts for which the members in a value stand. -/
def valuesIn (d : Datum) : Except Fault (List String) :=
  match d.items? with
  | none => .error (.misused (.notIterable d.typeName))
  | some xs => xs.mapM valueIn

/-- The texts among values that are all texts, counted from an index. -/
def textsFrom (index : Nat) : List Datum → Except Fault (List String)
  | [] => .ok []
  | d :: ds =>
    match d.text? with
    | none => .error (.misused (.notText index d.typeName))
    | some s => (textsFrom (index + 1) ds).map (s :: ·)

/-- The texts in a value, with a comma between them. -/
def joined (d : Datum) : Except Fault String :=
  match d.items? with
  | none => .error (.misused .notJoinable)
  | some xs => (textsFrom 0 xs).map ", ".intercalate

end Datum

/-- The value of a field. -/
def valueOf (fields : Fields) (name : String) : Datum := (fieldOf? name fields).getD .null

/-- What is said of the created account. -/
def createdLineIn (fields : Fields) : Except Fault (List String) :=
  let target := valueOf fields "target"
  if (valueOf fields "created").isYes && !target.isNull then do
    let name ← target.nameIn
    return [Report.createdSentence name]
  else .ok []

/-- What is said of the runner's privileges. -/
def runnerLineIn (fields : Fields) : Except Fault (List String) :=
  let runner := valueOf fields "runner"
  let privileges := valueOf fields "privileges_granted"
  if runner.isNull then .ok []
  else if privileges.isYes then do
    let names ← privileges.valuesIn
    let name ← runner.nameIn
    return [Report.grantedSentence (", ".intercalate (Report.sortedNames names)) name]
  else do
    let name ← runner.nameIn
    return [Report.heldSentence name]

/-- What is said of the directories. -/
def directoriesLineIn (fields : Fields) : Except Fault (List String) :=
  let target := valueOf fields "target"
  let directories := valueOf fields "directories_granted"
  if directories.isYes && !target.isNull then do
    let name ← target.nameIn
    let listed ← directories.joined
    return [Report.accessSentence name listed]
  else .ok []

/-- What is said of the isolation group. -/
def cgroupsLineIn (fields : Fields) : Except Fault (List String) :=
  let cgroups := valueOf fields "cgroups"
  if cgroups.isYes then do
    let listed ← cgroups.joined
    return [Report.cgroupsSentence listed]
  else .ok []

/-- The summary of a report with these fields. -/
def summaryIn (fields : Fields) : Except Fault String := do
  let created ← createdLineIn fields
  let runner ← runnerLineIn fields
  let directories ← directoriesLineIn fields
  let cgroups ← cgroupsLineIn fields
  return Report.summaryOf (created ++ runner ++ directories ++ cgroups)
    (valueOf fields "restart_required").isYes

/-! ## Checked values -/

theorem textsFrom_texts (index : Nat) (xs : List String) :
    Datum.textsFrom index (xs.map .text) = .ok xs := by
  induction xs generalizing index with
  | nil => rfl
  | cons x xs ih => simp [Datum.textsFrom, Datum.text?, ih, Except.map]

theorem joined_texts (xs : List String) :
    (Datum.list (xs.map .text)).joined = .ok (", ".intercalate xs) := by
  simp [Datum.joined, Datum.items?_list, textsFrom_texts, Except.map]

theorem valuesIn_privileges (ps : List Privilege) :
    (Datum.list (ps.map .privilege)).valuesIn = .ok (ps.map Privilege.constant) := by
  simp only [Datum.valuesIn, Datum.items?_list]
  induction ps with
  | nil => rfl
  | cons p ps ih => simp [List.mapM_cons, Datum.valueIn, ih, bind, Except.bind, pure, Except.pure]

theorem createdLineIn_reportFields (r : Report) :
    createdLineIn (reportFields r) = .ok r.createdLine := by
  obtain ⟨_, target, _, created, _, _, _, _⟩ := r
  cases created <;> cases target <;> rfl

theorem runnerLineIn_reportFields (r : Report) :
    runnerLineIn (reportFields r) = .ok r.runnerLine := by
  obtain ⟨_, _, runner, _, privileges, _, _, _⟩ := r
  cases runner with
  | none => rfl
  | some who =>
    cases privileges with
    | nil => rfl
    | cons p ps =>
      change (Datum.list ((p :: ps).map .privilege)).valuesIn >>= _ = _
      rw [valuesIn_privileges]
      rfl

theorem directoriesLineIn_reportFields (r : Report) :
    directoriesLineIn (reportFields r) = .ok r.directoriesLine := by
  obtain ⟨_, target, _, _, _, directories, _, _⟩ := r
  cases directories with
  | nil => rfl
  | cons d ds =>
    cases target with
    | none => rfl
    | some t =>
      change (do
        let listed ← (Datum.list ((d :: ds).map .text)).joined
        return [Report.accessSentence t.name listed]) = _
      rw [joined_texts]
      rfl

theorem cgroupsLineIn_reportFields (r : Report) :
    cgroupsLineIn (reportFields r) = .ok r.cgroupsLine := by
  obtain ⟨_, _, _, _, _, _, cgroups, _⟩ := r
  cases cgroups with
  | nil => rfl
  | cons c cs =>
    change (Datum.list ((c :: cs).map .text)).joined >>= _ = _
    rw [joined_texts]
    rfl

/-- The summary of a report whose values were checked. -/
theorem summaryIn_reportFields (r : Report) : summaryIn (reportFields r) = .ok r.summary := by
  simp only [summaryIn, createdLineIn_reportFields, runnerLineIn_reportFields,
    directoriesLineIn_reportFields, cgroupsLineIn_reportFields]
  rfl

end Provisioning.Schema
