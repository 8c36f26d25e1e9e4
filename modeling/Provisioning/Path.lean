/-
# `Provisioning.Path` — file paths

A path is its root and its names below the root.  Repeated slashes, `.` names
and a slash at the end are forgotten when a text is read; `..` is a name like
any other, since nothing is looked up here.  A path that starts with exactly
two slashes keeps them: its root is another one than `/`.

**Stated here.**  Reading what a path prints gives the path again
(`ofString_toString`), so a path may stand for its normalised text.
-/
import Provisioning.Text.Pieces

namespace Provisioning

/-- A name inside a path: not empty, not `.`, and without a slash. -/
def IsPathName (n : String) : Prop := n.toList ≠ [] ∧ n.toList ≠ ['.'] ∧ '/' ∉ n.toList

instance (n : String) : Decidable (IsPathName n) := by unfold IsPathName; infer_instance

/-- Where a path starts. -/
inductive PathRoot where
  /-- The directory at hand. -/
  | relative
  /-- `/`. -/
  | single
  /-- `//`, which is not `/`. -/
  | double
  deriving DecidableEq, Repr

/-- The text of a root. -/
def PathRoot.text : PathRoot → String
  | .relative => ""
  | .single => "/"
  | .double => "//"

/-- The root that a text names by the slashes it starts with. -/
def PathRoot.ofChars : List Char → PathRoot
  | '/' :: '/' :: '/' :: _ => .single
  | '/' :: '/' :: _ => .double
  | '/' :: _ => .single
  | _ => .relative

/-- A path: a root and the names below it. -/
structure Path where
  root : PathRoot
  names : List String
  plain : ∀ n ∈ names, IsPathName n
  deriving DecidableEq

namespace Path

/-- The names in a text. -/
def namesOf (s : List Char) : List String :=
  ((Text.pieces '/' s).map String.ofList).filter fun n => decide (IsPathName n)

/-- The path a text names. -/
def ofString (s : String) : Path where
  root := PathRoot.ofChars s.toList
  names := namesOf s.toList
  plain := fun _ h => of_decide_eq_true (List.mem_filter.1 h).2

/-- The characters of a path's text. -/
def chars (p : Path) : List Char :=
  match p.root, p.names with
  | .relative, [] => ['.']
  | r, ns => r.text.toList ++ Text.joinPieces '/' (ns.map String.toList)

/-- The text of a path. -/
protected def toString (p : Path) : String := String.ofList p.chars

instance : ToString Path := ⟨Path.toString⟩

/-- `p / s`: the path that `s` names when read from `p`.  A text with a root of its own replaces `p`. -/
def join (p : Path) (s : String) : Path :=
  let q := ofString s
  match q.root with
  | .relative =>
    { root := p.root
      names := p.names ++ q.names
      plain := fun n h => (List.mem_append.1 h).elim (p.plain n) (q.plain n) }
  | _ => q

/-- The directory that holds a path; a path without names is its own parent. -/
def parent (p : Path) : Path where
  root := p.root
  names := p.names.dropLast
  plain := fun n h => p.plain n (List.dropLast_subset _ h)

/-- The text of a path that was met on the way from `start`: the text of `start`, a slash, and the
names below it.  It is the path's own text unless `start` is the directory at hand: `./a`. -/
def spelledFrom (p start : Path) : String :=
  if start.root = .relative ∧ start.names = [] ∧ p.names ≠ [] then "./" ++ p.toString else p.toString

/-- The last name, empty for a path without names. -/
def name (p : Path) : String := p.names.getLastD ""

/-- `p` lies strictly below `q`. -/
def isBelow (p q : Path) : Bool :=
  p.root == q.root && q.names.isPrefixOf p.names && p.names != q.names

/-- `p` is `q` or lies below it. -/
def isWithin (p q : Path) : Bool := p.root == q.root && q.names.isPrefixOf p.names

/-- The root, if there is one, and the names: what paths are ordered by. -/
def components (p : Path) : List String :=
  match p.root with
  | .relative => p.names
  | r => r.text :: p.names

/-- Paths in the order of their components. -/
def atMost (p q : Path) : Bool := !decide (q.components < p.components)

@[ext] theorem ext {p q : Path} (hr : p.root = q.root) (hn : p.names = q.names) : p = q := by
  cases p; cases q; simp_all

/-! ## Reading back what is printed -/

theorem namesOf_sep (s : List Char) : namesOf ('/' :: s) = namesOf s := by
  simp [namesOf, IsPathName]

theorem namesOf_joinPieces {ns : List String} (hne : ns ≠ []) (h : ∀ n ∈ ns, IsPathName n) :
    namesOf (Text.joinPieces '/' (ns.map String.toList)) = ns := by
  have hp : Text.pieces '/' (Text.joinPieces '/' (ns.map String.toList)) = ns.map String.toList :=
    Text.pieces_joinPieces (by simpa using hne) (by
      intro p hp
      obtain ⟨n, hn, rfl⟩ := List.mem_map.1 hp
      exact (h n hn).2.2)
  rw [namesOf, hp, List.map_map]
  have hid : ns.map (String.ofList ∘ String.toList) = ns := by
    simp [Function.comp_def]
  rw [hid]
  exact List.filter_eq_self.2 fun n hn => decide_eq_true (h n hn)

/-- The text of names below a root starts with a character that is no slash. -/
theorem joinPieces_names_eq_cons {ns : List String} (hne : ns ≠ []) (h : ∀ n ∈ ns, IsPathName n) :
    ∃ c r, Text.joinPieces '/' (ns.map String.toList) = c :: r ∧ c ≠ '/' := by
  cases ns with
  | nil => exact absurd rfl hne
  | cons n ns =>
    obtain ⟨h0, -, hs⟩ := h n (by simp)
    cases hn : n.toList with
    | nil => exact absurd hn h0
    | cons c r =>
      have hc : c ≠ '/' := fun e => hs (by simp [hn, e])
      cases ns with
      | nil => exact ⟨c, r, by simp [Text.joinPieces, hn], hc⟩
      | cons m ms =>
        refine ⟨c, r ++ '/' :: Text.joinPieces '/' ((m :: ms).map String.toList), ?_, hc⟩
        simp [Text.joinPieces, hn]

/-- Reading what a path prints gives the path. -/
theorem ofString_toString (p : Path) : ofString p.toString = p := by
  obtain ⟨root, names, plain⟩ := p
  match names, plain with
  | [], _ => cases root <;> ext1 <;> decide +revert
  | n :: ns, plain =>
    obtain ⟨c, r, hj, hc⟩ := joinPieces_names_eq_cons (by simp) plain
    have hback := namesOf_joinPieces (by simp) plain
    rw [hj] at hback
    cases root
    all_goals
      ext1
      · simp only [ofString, Path.toString, chars, PathRoot.text, String.toList_ofList, hj]
        simp [PathRoot.ofChars, hc]
      · simp only [ofString, Path.toString, chars, PathRoot.text, String.toList_ofList, hj]
        simpa [namesOf_sep] using hback

end Path

end Provisioning
