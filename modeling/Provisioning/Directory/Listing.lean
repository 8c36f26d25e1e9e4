/-
# `Provisioning.Directory.Listing` — the listing of an access list

The access list editor prints one entry to a line, `DOMAIN\name:(mask)`; the
first line begins with the path, the others are indented, and trailer lines
follow.  `readListing` keeps the entries that this library manages: those that
are not inherited and whose mask is one of the two of `AccessRights.mask`,
under the account name without its domain.  Of several such entries for a name
the last counts.

`Listing.print` is the other direction, the listing of given entries.
-/
import Provisioning.Directory.Table
import Provisioning.Text.Blank

namespace Provisioning

/-! ## Reading a listing -/

/-- The text before and after the first `:(`. -/
def cutAtMask : List Char → Option (List Char × List Char)
  | [] => none
  | ':' :: '(' :: r => some ([], r)
  | c :: r => (cutAtMask r).map fun cut => (c :: cut.1, cut.2)

/-- An account without a colon is cut off before the first one. -/
theorem cutAtMask_append {account : List Char} (hplain : ':' ∉ account) (rest : List Char) :
    cutAtMask (account ++ ':' :: '(' :: rest) = some (account, rest) := by
  induction account with
  | nil => rfl
  | cons c r ih =>
    have hc : c ≠ ':' := fun hc => hplain (hc ▸ List.mem_cons_self)
    rw [List.cons_append, cutAtMask, ih fun hmem => hplain (List.mem_cons_of_mem _ hmem)]
    · rfl
    · simp [hc]

/-- What follows the last backslash. -/
def withoutDomain (account : List Char) : List Char :=
  (account.reverse.takeWhile (· ≠ '\\')).reverse

/-- A name without backslashes is what is left of it, with a domain before it or without. -/
theorem withoutDomain_append {domain name : List Char} (hdomain : domain.getLast?.all (· = '\\'))
    (hname : '\\' ∉ name) : withoutDomain (domain ++ name) = name := by
  have htaken : ∀ c ∈ name.reverse, decide (c ≠ '\\') = true := by
    intro c hc
    have hne : c ≠ '\\' := fun h => hname (h ▸ List.mem_reverse.1 hc)
    simpa using hne
  rw [withoutDomain, List.reverse_append, List.takeWhile_append_of_pos htaken]
  have hnone : domain.reverse.takeWhile (· ≠ '\\') = [] := by
    cases h : domain.reverse with
    | nil => rfl
    | cons c r =>
      rw [List.getLast?_eq_head?_reverse, h] at hdomain
      simpa [List.takeWhile_cons] using hdomain
  rw [hnone, List.append_nil, List.reverse_reverse]

/-- A text occurs inside another. -/
def occursIn (needle : List Char) : List Char → Bool
  | [] => needle.isEmpty
  | c :: r => needle.isPrefixOf (c :: r) || occursIn needle r

theorem occursIn_iff_infix {needle s : List Char} : occursIn needle s = true ↔ needle <:+: s := by
  induction s with
  | nil => simp [occursIn]
  | cons c r ih => rw [occursIn, Bool.or_eq_true, List.isPrefixOf_iff_prefix, ih, List.infix_cons_iff]

/-- Where there is no `:(` there is no mask. -/
theorem cutAtMask_eq_none {s : List Char} (huncut : ¬ [':', '('] <:+: s) : cutAtMask s = none := by
  induction s with
  | nil => rfl
  | cons c r ih =>
    rw [cutAtMask, ih fun hrest => huncut (List.infix_cons_iff.2 (.inr hrest))]
    · rfl
    · rintro r' rfl rfl
      exact huncut ⟨[], r', rfl⟩

/-- The text after the path, if it begins with the path, without surrounding blanks. -/
def afterPath (path line : List Char) : List Char :=
  if path.isPrefixOf line then Text.trimChars (line.drop path.length) else line

/-- The rights of a mask. -/
def AccessRights.ofMask? (mask : String) : Option AccessRights :=
  AccessRights.all.find? fun r => r.mask == mask

/-- The account and the mask on a line, if it holds an entry that is not inherited. -/
def explicitAce? (path line : List Char) : Option (String × String) :=
  match cutAtMask (afterPath path (Text.trimChars line)) with
  | none => none
  | some (account, rest) =>
    let mask := '(' :: rest
    if occursIn ['(', 'I', ')'] mask then none
    else some (String.ofList (withoutDomain account), String.ofList mask)

/-- The managed entry on a line, if it holds one. -/
def managedAce? (path line : List Char) : Option (String × AccessRights) := do
  let entry ← explicitAce? path line
  let rights ← AccessRights.ofMask? entry.2
  return (entry.1, rights)

/-- The managed entries of a listing. -/
def readListing (path output : String) : AccessList :=
  Table.ofRows ((Text.splitLines output.toList).filterMap (managedAce? path.toList))

/-! ## Printing a listing -/

/-- An account as it is listed, after its domain if that is listed too. -/
def listedAccount (domain : Option (List Char)) (name : List Char) : List Char :=
  (domain.map (· ++ ['\\'])).getD [] ++ name

/-- An entry as it is listed: an account, possibly with its domain, and a mask in parentheses. -/
structure ListedEntry where
  domain : Option (List Char) := none
  name : List Char
  /-- What stands in the mask between its first and its last parenthesis. -/
  inside : List Char
  named : name ≠ []
  unqualified : '\\' ∉ name
  uncut : ':' ∉ listedAccount domain name
  solid : Text.beginsSolid (listedAccount domain name) = true
  oneLine : Text.isOneLine (listedAccount domain name ++ inside) = true

namespace ListedEntry

def account (e : ListedEntry) : List Char := listedAccount e.domain e.name

def mask (e : ListedEntry) : List Char := '(' :: (e.inside ++ [')'])

/-- The text of an entry. -/
def text (e : ListedEntry) : List Char := e.account ++ ':' :: e.mask

end ListedEntry

/-- A line after the entries, which holds no entry itself. -/
structure TrailerLine where
  text : List Char
  uncut : occursIn [':', '('] text = false
  oneLine : Text.isOneLine text = true

/-- A listing: the entries, what follows them, how far the entries after the first are indented, and
whether lines end with a carriage return too. -/
structure Listing where
  entries : List ListedEntry
  trailers : List TrailerLine := []
  indent : Nat
  returns : Bool := true

namespace Listing

/-- The lines of a listing: the first entry after the path, the others indented, then trailers. -/
def lines (path : List Char) (l : Listing) : List (List Char) :=
  (match l.entries with
    | [] => []
    | e :: es => (path ++ ' ' :: e.text) :: es.map fun x => List.replicate l.indent ' ' ++ x.text) ++
  l.trailers.map TrailerLine.text

/-- A listing as it is printed for a path, every line ended. -/
def print (path : String) (l : Listing) : String :=
  String.ofList ((l.lines path.toList).flatMap fun line => line ++ Text.lineEnd l.returns)

end Listing

end Provisioning
