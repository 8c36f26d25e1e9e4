/-
# `Provisioning.Table` — tables that keep the order of insertion

A table maps keys to values and lists its rows in the order in which their
keys first arrived; putting a value under a known key replaces the value in
its row.  The view of a table is `get?`, and each operation has one lemma that
says what it does to the view.
-/
namespace Provisioning

/-- Rows of key and value.  Only the first row of a key counts. -/
structure Table (α β : Type) where
  rows : List (α × β) := []
  deriving Repr, DecidableEq

namespace Table

variable {α β γ : Type} [DecidableEq α]

/-- The value in the first row of a key. -/
def lookup (k : α) : List (α × β) → Option β
  | [] => none
  | (k', v) :: r => if k' = k then some v else lookup k r

/-- Rows with the value of a key set. -/
def putIn (k : α) (v : β) : List (α × β) → List (α × β)
  | [] => [(k, v)]
  | (k', v') :: r => if k' = k then (k, v) :: r else (k', v') :: putIn k v r

/-- The value under a key. -/
def get? (t : Table α β) (k : α) : Option β := lookup k t.rows

/-- The key has a row. -/
def contains (t : Table α β) (k : α) : Bool := (t.get? k).isSome

/-- The table with `v` under `k`. -/
def put (t : Table α β) (k : α) (v : β) : Table α β := ⟨putIn k v t.rows⟩

/-- The table without the rows of a key. -/
def erase (t : Table α β) (k : α) : Table α β := ⟨t.rows.filter fun r => decide (r.1 ≠ k)⟩

/-- The keys, in order. -/
def keys (t : Table α β) : List α := t.rows.map Prod.fst

/-- The table with every value changed, given its key. -/
def mapValues (f : α → β → β) (t : Table α β) : Table α β := ⟨t.rows.map fun r => (r.1, f r.1 r.2)⟩

/-- A table from rows put one after the other. -/
def ofRows (rows : List (α × β)) : Table α β :=
  rows.foldl (fun t (r : α × β) => t.put r.1 r.2) {}

@[simp] theorem get?_empty (k : α) : ({} : Table α β).get? k = none := rfl

theorem get?_put (t : Table α β) (k j : α) (v : β) :
    (t.put k v).get? j = if k = j then some v else t.get? j := by
  simp only [get?, put]
  induction t.rows with
  | nil => simp [putIn, lookup]
  | cons r rs ih =>
    obtain ⟨k', v'⟩ := r
    by_cases hk : k' = k
    · subst hk
      by_cases hj : k' = j <;> simp [putIn, lookup, hj]
    · by_cases hj : k' = j
      · subst hj
        simp [putIn, lookup, hk, Ne.symm hk]
      · simp [putIn, lookup, hk, hj, ih]

@[simp] theorem get?_put_self (t : Table α β) (k : α) (v : β) : (t.put k v).get? k = some v := by
  simp [get?_put]

theorem get?_put_of_ne (t : Table α β) {k j : α} (h : k ≠ j) (v : β) :
    (t.put k v).get? j = t.get? j := by simp [get?_put, h]

/-- What is put last under a key counts. -/
theorem put_put (t : Table α β) (k : α) (v w : β) : (t.put k v).put k w = t.put k w := by
  simp only [put, mk.injEq]
  induction t.rows with
  | nil => simp [putIn]
  | cons r rs ih =>
    obtain ⟨k', v'⟩ := r
    by_cases hk : k' = k
    · simp [putIn, hk]
    · simp [putIn, hk, ih]

theorem get?_mapValues (f : α → β → β) (t : Table α β) (k : α) :
    (t.mapValues f).get? k = (t.get? k).map (f k) := by
  simp only [get?, mapValues]
  induction t.rows with
  | nil => rfl
  | cons r rs ih =>
    obtain ⟨k', v'⟩ := r
    by_cases hk : k' = k
    · subst hk
      simp [lookup]
    · simp [lookup, hk, ih]

theorem get?_foldl_put_eq_some_iff {rows : List (α × β)} {t : Table α β} {k : α} {v : β} :
    (rows.foldl (fun t (r : α × β) => t.put r.1 r.2) t).get? k = some v ↔
      (∃ before after, rows = before ++ (k, v) :: after ∧ ∀ r ∈ after, r.1 ≠ k) ∨
        ((∀ r ∈ rows, r.1 ≠ k) ∧ t.get? k = some v) := by
  induction rows generalizing t with
  | nil => simp
  | cons r rs ih =>
    rw [List.foldl_cons, ih, get?_put]
    constructor
    · rintro (⟨before, after, rfl, hlast⟩ | ⟨hnone, hfirst⟩)
      · exact .inl ⟨r :: before, after, rfl, hlast⟩
      · by_cases hr : r.1 = k
        · rw [if_pos hr] at hfirst
          exact .inl ⟨[], rs, by rw [← hr, ← Option.some.inj hfirst]; rfl, hnone⟩
        · rw [if_neg hr] at hfirst
          exact .inr ⟨List.forall_mem_cons.2 ⟨hr, hnone⟩, hfirst⟩
    · rintro (⟨_ | ⟨r', before⟩, after, hrows, hlast⟩ | ⟨hnone, hbefore⟩)
      · obtain ⟨rfl, rfl⟩ := List.cons.inj hrows
        exact .inr ⟨hlast, if_pos rfl⟩
      · obtain ⟨rfl, rfl⟩ := List.cons.inj hrows
        exact .inl ⟨before, after, rfl, hlast⟩
      · obtain ⟨hr, hnone⟩ := List.forall_mem_cons.1 hnone
        exact .inr ⟨hnone, (if_neg hr).trans hbefore⟩

/-- Of the rows of a key the last one counts. -/
theorem get?_ofRows_eq_some_iff {rows : List (α × β)} {k : α} {v : β} :
    (ofRows rows).get? k = some v ↔
      ∃ before after, rows = before ++ (k, v) :: after ∧ ∀ r ∈ after, r.1 ≠ k := by
  rw [ofRows, get?_foldl_put_eq_some_iff]
  simp

/-- A key is listed exactly when it has a value. -/
theorem mem_keys_iff (t : Table α β) (k : α) : k ∈ t.keys ↔ (t.get? k).isSome = true := by
  simp only [get?, keys]
  induction t.rows with
  | nil => simp [lookup]
  | cons r rs ih =>
    obtain ⟨k', v'⟩ := r
    by_cases hk : k' = k
    · subst hk
      simp [lookup]
    · simp [lookup, hk, Ne.symm hk, ih]

theorem map_fst_putIn (k : α) (v : β) (rows : List (α × β)) :
    (putIn k v rows).map Prod.fst =
      if (lookup k rows).isSome then rows.map Prod.fst else rows.map Prod.fst ++ [k] := by
  induction rows with
  | nil => simp [putIn, lookup]
  | cons r rs ih =>
    obtain ⟨k', v'⟩ := r
    by_cases hk : k' = k
    · subst hk
      simp [putIn, lookup]
    · cases hm : (lookup k rs).isSome <;> simp [putIn, lookup, hk, ih, hm]

/-- Putting under a known key adds no key; under a new key it adds it at the end. -/
theorem keys_put (t : Table α β) (k : α) (v : β) :
    (t.put k v).keys = if t.contains k then t.keys else t.keys ++ [k] := map_fst_putIn k v t.rows

omit [DecidableEq α] in
@[simp] theorem keys_mapValues (f : α → β → β) (t : Table α β) : (t.mapValues f).keys = t.keys := by
  simp [keys, mapValues, Function.comp_def]

end Table

end Provisioning
