/-
# `Provisioning.Privilege.Set` — sets of privileges

There are eight sets of the three privileges, so a set is three truth values
and two sets with the same members are equal (`PrivilegeSet.ext_mem`).  Where a
set is listed, it is in the order of the constant names.
-/
import Provisioning.Privilege.Basic

namespace Provisioning

/-- A set of privileges. -/
structure PrivilegeSet where
  assignPrimaryToken : Bool := false
  actAsTrustedComputingBase : Bool := false
  increaseQuota : Bool := false
  deriving DecidableEq, Repr

namespace PrivilegeSet

/-- Membership, as a truth value. -/
def contains (s : PrivilegeSet) : Privilege → Bool
  | .assignPrimaryToken => s.assignPrimaryToken
  | .actAsTrustedComputingBase => s.actAsTrustedComputingBase
  | .increaseQuota => s.increaseQuota

instance : Membership Privilege PrivilegeSet := ⟨fun s p => s.contains p = true⟩

instance (p : Privilege) (s : PrivilegeSet) : Decidable (p ∈ s) :=
  inferInstanceAs (Decidable (s.contains p = true))

/-- The set of the privileges that pass a test. -/
def ofTest (f : Privilege → Bool) : PrivilegeSet where
  assignPrimaryToken := f .assignPrimaryToken
  actAsTrustedComputingBase := f .actAsTrustedComputingBase
  increaseQuota := f .increaseQuota

/-- Every privilege a runner account needs. -/
def runner : PrivilegeSet := ofTest fun _ => true

/-- The members of a list. -/
def ofList (ps : List Privilege) : PrivilegeSet := ofTest fun p => ps.contains p

instance : Union PrivilegeSet := ⟨fun s t => ofTest fun p => s.contains p || t.contains p⟩

instance : SDiff PrivilegeSet := ⟨fun s t => ofTest fun p => s.contains p && !t.contains p⟩

/-- The set has no member. -/
def isEmpty (s : PrivilegeSet) : Bool :=
  !(s.assignPrimaryToken || s.actAsTrustedComputingBase || s.increaseQuota)

/-- The members, in the order of their constant names. -/
def toList (s : PrivilegeSet) : List Privilege :=
  [.assignPrimaryToken, .increaseQuota, .actAsTrustedComputingBase].filter s.contains

/-- The constant names of the members, in order. -/
def constants (s : PrivilegeSet) : List String := s.toList.map Privilege.constant

/-- The constant names of the members in one text. -/
def describe (s : PrivilegeSet) : String := ", ".intercalate s.constants

@[simp] theorem contains_ofTest (f : Privilege → Bool) (p : Privilege) :
    (ofTest f).contains p = f p := by cases p <;> rfl

theorem mem_def {s : PrivilegeSet} {p : Privilege} : p ∈ s ↔ s.contains p = true := Iff.rfl

@[simp] theorem mem_union {s t : PrivilegeSet} {p : Privilege} : p ∈ s ∪ t ↔ p ∈ s ∨ p ∈ t := by
  simp [mem_def, Union.union]

@[simp] theorem mem_sdiff {s t : PrivilegeSet} {p : Privilege} : p ∈ s \ t ↔ p ∈ s ∧ p ∉ t := by
  simp [mem_def, SDiff.sdiff]

@[simp] theorem mem_ofList {ps : List Privilege} {p : Privilege} : p ∈ ofList ps ↔ p ∈ ps := by
  simp [mem_def, ofList]

@[simp] theorem not_mem_empty (p : Privilege) : p ∉ ({} : PrivilegeSet) := by cases p <;> decide

@[simp] theorem mem_runner (p : Privilege) : p ∈ runner := by cases p <;> decide

/-- Sets with the same members are equal. -/
theorem ext_mem {s t : PrivilegeSet} (h : ∀ p, p ∈ s ↔ p ∈ t) : s = t := by
  have h₁ := h .assignPrimaryToken
  have h₂ := h .actAsTrustedComputingBase
  have h₃ := h .increaseQuota
  obtain ⟨a, b, c⟩ := s
  obtain ⟨a', b', c'⟩ := t
  simp only [mem_def, contains] at h₁ h₂ h₃
  simp only [mk.injEq]
  exact ⟨Bool.eq_iff_iff.2 h₁, Bool.eq_iff_iff.2 h₂, Bool.eq_iff_iff.2 h₃⟩

theorem isEmpty_iff {s : PrivilegeSet} : s.isEmpty = true ↔ s = {} := by
  obtain ⟨a, b, c⟩ := s
  cases a <;> cases b <;> cases c <;> decide

@[simp] theorem mem_toList {s : PrivilegeSet} {p : Privilege} : p ∈ s.toList ↔ p ∈ s := by
  cases p <;> simp [toList, mem_def]

@[simp] theorem constant_mem_constants {s : PrivilegeSet} {p : Privilege} :
    p.constant ∈ s.constants ↔ p ∈ s := by
  simp [constants, Privilege.constant_inj]

end PrivilegeSet

end Provisioning
