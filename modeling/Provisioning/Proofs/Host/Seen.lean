/-
# `Provisioning.Proofs.Host.Seen` — looking at the file tree

What looking for an entry comes to on a given file tree.  It changes nothing.

    at the path      the entry        is it there     is it a directory
    nothing          none             no              no
    an entry         the entry        yes             by its type
    a hidden entry   access denied    access denied   access denied
-/
import Provisioning.Proofs.Host.Leads
import Provisioning.Proofs.Host.Walk

namespace Provisioning

/-- There is an entry at a path, and it may not be looked at. -/
def Tree.Hidden (t : Tree) (q : Path) : Prop := ∃ n, t.get? q = some n ∧ n.denies.stat = true

theorem Tree.not_hidden_iff {t : Tree} {q : Path} {n : Node} (hthere : t.get? q = some n) :
    ¬ t.Hidden q ↔ n.denies.stat = false := by
  simp [Tree.Hidden, hthere]

instance (t : Tree) (q : Path) : Decidable (t.Hidden q) :=
  decidable_of_iff ((t.get? q).any fun n => n.denies.stat) (Option.any_eq_true _ _)

namespace Run

variable {path : Path} {h : Host} {n : Node}

theorem entryAt_of_absent (habsent : h.tree.get? path = none) : entryAt path h = .ok none h := by
  unfold entryAt Tree.stat
  rw [habsent]
  rfl

theorem entryAt_of_seen (hthere : h.tree.get? path = some n) (hseen : n.denies.stat = false) :
    entryAt path h = .ok (some n) h := by
  unfold entryAt Tree.stat
  rw [hthere]
  simp [hseen]

theorem entryAt_of_hidden (hthere : h.tree.get? path = some n) (hhidden : n.denies.stat = true) :
    entryAt path h = .error (.system (.about SystemError.accessDenied path.toString)) h := by
  unfold entryAt Tree.stat
  rw [hthere]
  simp only [hhidden, if_true]
  exact if_neg (show ¬ some SystemError.accessDenied = some SystemError.noEntry by decide)

theorem isDirectory_of_absent (habsent : h.tree.get? path = none) :
    isDirectory path h = .ok false h := bind_apply_of_ok (entryAt_of_absent habsent) _

theorem isDirectory_of_there (hthere : h.tree.get? path = some n) (hseen : n.denies.stat = false) :
    isDirectory path h = .ok (n.type == .directory) h :=
  bind_apply_of_ok (entryAt_of_seen hthere hseen) _

/-- Whether there is a directory at a path that may be looked at. -/
theorem isDirectory_of_not_hidden (hnot : ¬ h.tree.Hidden path) :
    isDirectory path h = .ok (decide (h.tree.typeAt path = some .directory)) h := by
  unfold Tree.typeAt
  cases hthere : h.tree.get? path with
  | none => exact isDirectory_of_absent hthere
  | some n =>
      rw [isDirectory_of_there hthere ((Tree.not_hidden_iff hthere).1 hnot)]
      cases hn : n.type <;> simp [hn]

theorem isDirectory_of_hidden (hhidden : h.tree.Hidden path) :
    isDirectory path h = .error (.system (.about SystemError.accessDenied path.toString)) h := by
  obtain ⟨n, hthere, hdenied⟩ := hhidden
  exact bind_apply_of_error (entryAt_of_hidden hthere hdenied) _

theorem pathExists_of_not_hidden (hnot : ¬ h.tree.Hidden path) :
    pathExists path h = .ok (h.tree.get? path).isSome h := by
  cases hthere : h.tree.get? path with
  | none => exact bind_apply_of_ok (entryAt_of_absent hthere) _
  | some n =>
      have hseen := (Tree.not_hidden_iff hthere).1 hnot
      exact bind_apply_of_ok (entryAt_of_seen hthere hseen) _

theorem pathExists_of_hidden (hhidden : h.tree.Hidden path) :
    pathExists path h = .error (.system (.about SystemError.accessDenied path.toString)) h := by
  obtain ⟨n, hthere, hdenied⟩ := hhidden
  exact bind_apply_of_error (entryAt_of_hidden hthere hdenied) _

end Run

end Provisioning
