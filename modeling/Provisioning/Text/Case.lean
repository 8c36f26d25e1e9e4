/-
# `Provisioning.Text.Case` — lower case and case folding

Two ways to forget the case of a name.  `lower` is the lower-case text; its
one rule that looks beyond a character is capital sigma, which is written `ς`
where a word ends and `σ` elsewhere.  `fold` is the case-insensitive form,
which forgets more: `ß` folds to `ss`, and both small sigmas fold to one.
Two texts with equal lower case need not be the only ones that fold together,
and `Provisioning` compares names in both ways at different places.
-/
import Provisioning.Text.Case.Table

namespace Provisioning.Text

/-- The image of a character code under rows of runs `(first, last, step, image)`. -/
def imageIn (runs : List (Nat × Nat × Nat × Nat)) (n : Nat) : Option Nat :=
  runs.findSome? fun (first, last, step, image) =>
    if first ≤ n && n ≤ last && (n - first) % step == 0 then some (image + (n - first)) else none

/-- Membership in a list of closed ranges. -/
def inRanges (ranges : List (Nat × Nat)) (n : Nat) : Bool :=
  ranges.any fun r => r.1 ≤ n && n ≤ r.2

/-! ## Lower case -/

/-- The lower case of one character, away from the two special capitals. -/
def lowerChar (c : Char) : Char :=
  if c.toNat < 0x80 then c.toLower
  else match imageIn lowerRuns c.toNat with
    | some m => Char.ofNat m
    | none => c

/-- A character with a case that ends the search for a cased neighbour. -/
def isCased (c : Char) : Bool := inRanges casedRanges c.toNat

/-- A character that the search for a cased neighbour passes over. -/
def isCaseIgnorable (c : Char) : Bool := inRanges caseIgnorableRanges c.toNat

/-- The first character that is not passed over has a case. -/
def beginsCased (s : List Char) : Bool :=
  match s.dropWhile isCaseIgnorable with
  | [] => false
  | c :: _ => isCased c

/-- The lower case of `c` between a text whose last character not passed over is cased
(`afterCased`) and the text `rest`. -/
def lowerAt (afterCased : Bool) (c : Char) (rest : List Char) : List Char :=
  if c = 'Σ' then [if afterCased && !beginsCased rest then 'ς' else 'σ']
  else if c = 'İ' then ['i', '\u0307']
  else [lowerChar c]

/-- Lower case of a text that follows a text ending as `afterCased` says. -/
def lowerChars (afterCased : Bool) : List Char → List Char
  | [] => []
  | c :: rest =>
    lowerAt afterCased c rest ++
      lowerChars (if isCaseIgnorable c then afterCased else isCased c) rest

/-- Lower case. -/
def lower (s : String) : String := String.ofList (lowerChars false s.toList)

/-! ## Case folding -/

/-- The folded form of one character. -/
def foldChar (c : Char) : List Char :=
  if c.toNat < 0x80 then [c.toLower]
  else match foldExpansions.lookup c.toNat with
    | some image => image.map Char.ofNat
    | none =>
      match imageIn foldRuns c.toNat with
      | some m => [Char.ofNat m]
      | none => [c]

/-- The case-insensitive form. -/
def fold (s : String) : String := String.ofList (s.toList.flatMap foldChar)

@[simp] theorem fold_toList (s : String) : (fold s).toList = s.toList.flatMap foldChar := by
  simp [fold]

@[simp] theorem lower_toList (s : String) : (lower s).toList = lowerChars false s.toList := by
  simp [lower]

end Provisioning.Text
