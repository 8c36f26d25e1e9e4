/-
# `Provisioning.Directory.Table` — access lists kept in memory

The access entries of every path, and the edits made so far.  Paths and names
are compared as texts.  Edits of some paths may be denied.
-/
import Provisioning.Directory.Rights
import Provisioning.Fault.Basic
import Provisioning.Table

namespace Provisioning

/-- The entries of one path: rights by account name. -/
abbrev AccessList := Table String AccessRights

/-- One edit of an access list. -/
structure AccessEdit where
  path : String
  name : String
  rights : AccessRights
  deriving DecidableEq

/-- Access lists by path. -/
structure AccessTable where
  lists : Table String AccessList := {}
  /-- The paths whose lists may not be edited. -/
  denied : List String := []
  /-- The edits made, in order. -/
  edits : List AccessEdit := []

namespace AccessTable

/-- The entries on a path. -/
def entries (t : AccessTable) (path : String) : AccessList := (t.lists.get? path).getD {}

/-- The table with one entry set, whoever sets it. -/
def withEntry (t : AccessTable) (path name : String) (rights : AccessRights) : AccessTable :=
  { t with lists := t.lists.put path ((t.entries path).put name rights) }

/-- The table after an edit, unless edits of the path are denied. -/
def setEntry (t : AccessTable) (path name : String) (rights : AccessRights) :
    Except Fault AccessTable :=
  if t.denied.contains path then
    .error (.refuse .permissionDenied ("Access denied while editing the ACL of " ++ path)
      [("path", .text path)])
  else .ok { t.withEntry path name rights with edits := t.edits ++ [⟨path, name, rights⟩] }

theorem get?_entries_withEntry (t : AccessTable) (path name : String) (rights : AccessRights)
    (path' name' : String) :
    ((t.withEntry path name rights).entries path').get? name' =
      if path = path' ∧ name = name' then some rights else (t.entries path').get? name' := by
  by_cases hp : path = path'
  · subst hp
    by_cases hn : name = name'
    · subst hn
      simp [withEntry, entries]
    · simp [withEntry, entries, hn, Table.get?_put_of_ne _ hn]
  · simp [withEntry, entries, hp, Table.get?_put_of_ne _ hp]

end AccessTable

end Provisioning
