/-
# `Provisioning.Proofs.Privilege.Spelling` — the language of privileges

A privilege is written under one of its names.  A text names it if it is one
of these names in lower case, once it is in lower case itself and without the
white space around it.

    SeTcbPrivilege                   the constant name
    Tcb                              the constant name without its two ends
    ACT_AS_TRUSTED_COMPUTING_BASE    the long name
    ActAsTrustedComputingBase        a fourth name, which only this one has

Lower case is that of Unicode, so the names are not spelled in ASCII alone:
the sign of the kelvin is a `k` in lower case.

**Proved here.**  The language is unambiguous, a text is read exactly as what
it names, and a list of texts makes a request for exactly what they name or is
refused for the first that names nothing (`privilege_language_closed`).
-/
import Provisioning.Proofs.Text.Blank
import Provisioning.Proofs.Text.Case
import Provisioning.Schema.Records

namespace Provisioning

namespace Text

/-- Two texts differ in the case of ASCII letters and in the white space around them, and in nothing
else. -/
inductive Respells (s t : String) : Prop where
  | intro {front core back front' core' back' : List Char}
      (left : s.toList = front ++ core ++ back) (right : t.toList = front' ++ core' ++ back')
      (blank : AllBlank front ∧ AllBlank back) (blank' : AllBlank front' ∧ AllBlank back')
      (alike : core.map Char.toLower = core'.map Char.toLower)

theorem respells_iff {s t : String} : Respells s t ↔
    (trimChars s.toList).map Char.toLower = (trimChars t.toList).map Char.toLower := by
  constructor
  · rintro ⟨hs, ht, ⟨hfront, hback⟩, ⟨hfront', hback'⟩, halike⟩
    rw [hs, ht, trimChars_surrounded hfront hback, trimChars_surrounded hfront' hback',
      ← trimChars_map isBlank_toLower, halike, trimChars_map isBlank_toLower]
  · intro halike
    obtain ⟨front, back, hs, hfront, hback⟩ := exists_surrounded s.toList
    obtain ⟨front', back', ht, hfront', hback'⟩ := exists_surrounded t.toList
    exact ⟨hs, ht, ⟨hfront, hback⟩, ⟨hfront', hback'⟩, halike⟩

instance (s t : String) : Decidable (Respells s t) := decidable_of_iff _ respells_iff.symm

/-- Neither trimming nor lower case leaves anything of such a difference. -/
theorem Respells.lower_trim_eq {s t : String} (h : Respells s t) : lower (trim s) = lower (trim t) := by
  have hchars : lowerChars false (trimChars s.toList) = lowerChars false (trimChars t.toList) := by
    rw [← lowerChars_map_toLower, respells_iff.1 h, lowerChars_map_toLower]
  rw [lower, lower, trim, trim, String.toList_ofList, String.toList_ofList, hchars]

end Text

namespace Privilege

variable {p q : Privilege} {s t : String}

/-! ## The names -/

/-- The names of a privilege, in lower case. -/
inductive SpelledAs (p : Privilege) : String → Prop where
  | constant : p.SpelledAs (Text.lower p.constant)
  | short {name : String} (h : p.constant = "Se" ++ name ++ "Privilege") :
      p.SpelledAs (Text.lower name)
  | member : p.SpelledAs (Text.lower p.member)
  | trusted (h : p = .actAsTrustedComputingBase) : p.SpelledAs "actastrustedcomputingbase"

/-- A text names a privilege. -/
def NamedBy (p : Privilege) (s : String) : Prop := p.SpelledAs (Text.lower (Text.trim s))

/-- The language as it is written, but for lower case. -/
def words : Privilege → List String
  | .assignPrimaryToken =>
    ["seassignprimarytokenprivilege", "assignprimarytoken", "assign_primary_token"]
  | .actAsTrustedComputingBase =>
    ["setcbprivilege", "tcb", "act_as_trusted_computing_base", "actastrustedcomputingbase"]
  | .increaseQuota => ["seincreasequotaprivilege", "increasequota", "increase_quota"]

theorem aliases_eq (p : Privilege) : p.aliases = p.words := by cases p <;> decide +kernel

theorem eq_short_of_constant_eq {name : String} (h : p.constant = "Se" ++ name ++ "Privilege") :
    name = p.short := by
  rw [constant_eq] at h
  have hchars := congrArg String.toList h
  simp only [String.toList_append] at hchars
  exact String.toList_inj.1 (List.append_cancel_left (List.append_cancel_right hchars)).symm

theorem spelledAs_iff : p.SpelledAs t ↔ t ∈ p.aliases := by
  constructor
  · intro h
    cases h with
    | constant => exact List.mem_map_of_mem (by simp)
    | short h =>
        rw [eq_short_of_constant_eq h]
        exact List.mem_map_of_mem (by simp)
    | member => exact List.mem_map_of_mem (by simp)
    | trusted h =>
        subst h
        rw [aliases_eq]
        decide
  · intro h
    obtain ⟨name, hname, rfl⟩ := List.mem_map.1 h
    rcases List.mem_append.1 hname with hname | hname
    · simp only [List.mem_cons, List.not_mem_nil, or_false] at hname
      rcases hname with rfl | rfl | rfl
      · exact .constant
      · exact .short (constant_eq p)
      · exact .member
    · cases p with
      | actAsTrustedComputingBase =>
          obtain rfl := List.mem_singleton.1 hname
          exact .trusted rfl
      | _ => exact nomatch hname

theorem not_mem_words_of_ne (hne : p ≠ q) : ∀ t ∈ p.words, t ∉ q.words := by
  revert hne
  cases p <;> cases q <;> decide

/-- No spelling is one of two privileges. -/
theorem SpelledAs.unique (hp : p.SpelledAs t) (hq : q.SpelledAs t) : p = q := by
  by_contra hne
  rw [spelledAs_iff, aliases_eq] at hp hq
  exact not_mem_words_of_ne hne t hp hq

theorem find?_all_eq_some_iff {f : Privilege → Bool}
    (hunique : ∀ p q, f p = true → f q = true → p = q) : all.find? f = some p ↔ f p = true := by
  constructor
  · exact List.find?_some
  · intro hp
    cases hfind : all.find? f with
    | none => exact absurd hp (List.find?_eq_none.1 hfind p (mem_all p))
    | some q => rw [hunique q p (List.find?_some hfind) hp]

theorem parse?_eq_some_iff : parse? s = some p ↔ p.NamedBy s := by
  have hcontains (q : Privilege) :
      q.aliases.contains (Text.lower (Text.trim s)) = true ↔ q.NamedBy s := by
    rw [List.contains_iff_mem, NamedBy, spelledAs_iff]
  rw [parse?, find?_all_eq_some_iff fun p q hp hq => ?_, hcontains]
  exact ((hcontains p).1 hp).unique ((hcontains q).1 hq)

theorem parse?_eq_none_iff : parse? s = none ↔ ∀ p : Privilege, ¬ p.NamedBy s := by
  rw [Option.eq_none_iff_forall_ne_some]
  exact forall_congr' fun p => not_congr parse?_eq_some_iff

example : parse? "\u3000assignprimaryto\u212Aen\n" = some .assignPrimaryToken := by decide +kernel

/-- Texts that differ in case and surroundings alone name the same. -/
theorem namedBy_congr (h : Text.Respells s t) : p.NamedBy s ↔ p.NamedBy t := by
  rw [NamedBy, h.lower_trim_eq, NamedBy]

end Privilege

namespace Schema

open Privilege

variable {xs : List String}

/-! ## Reading texts -/

theorem privilegeOf_text_eq_ok_iff {s : String} {p : Privilege} :
    privilegeOf (.text s) = .ok p ↔ p.NamedBy s := by
  simp only [← parse?_eq_some_iff, privilegeOf, Datum.text?]
  cases parse? s <;> simp

theorem privilegeOf_text_eq_error_iff {s : String} {e : Fault} :
    privilegeOf (.text s) = .error e ↔
      e = .badValue (unsupported (Text.quoted s)) ∧ ∀ p : Privilege, ¬ p.NamedBy s := by
  simp only [← parse?_eq_none_iff, privilegeOf, Datum.text?, Datum.inspect]
  cases parse? s <;> simp [eq_comm]

/-- How the reading of texts one after the other ends: with what they name, or at the first that names
nothing. -/
inductive TextsEnd (xs : List String) : Except Fault (List Privilege) → Prop where
  | read {ps : List Privilege} (named : ∀ x ∈ xs, ∃ p : Privilege, p.NamedBy x)
      (denoted : ∀ p : Privilege, p ∈ ps ↔ ∃ x ∈ xs, p.NamedBy x) : TextsEnd xs (.ok ps)
  | stopped {before after : List String} {x : String} (split : xs = before ++ x :: after)
      (named : ∀ y ∈ before, ∃ p : Privilege, p.NamedBy y) (unnamed : ∀ p : Privilege, ¬ p.NamedBy x) :
      TextsEnd xs (.error (.badValue (unsupported (Text.quoted x))))

/-- A text that names a privilege does not change how the texts after it end. -/
theorem TextsEnd.cons {x : String} {p : Privilege} {result : Except Fault (List Privilege)}
    (hp : p.NamedBy x) (hends : TextsEnd xs result) :
    TextsEnd (x :: xs) (result.map (p :: ·)) := by
  cases hends with
  | read hnamed hdenoted =>
      refine .read (List.forall_mem_cons.2 ⟨⟨p, hp⟩, hnamed⟩) fun q => ?_
      have hhead : q = p ↔ q.NamedBy x := ⟨fun heq => heq ▸ hp, fun hq => hq.unique hp⟩
      simp only [List.mem_cons, exists_eq_or_imp, hhead, hdenoted]
  | @stopped before after y hsplit hnamed hunnamed =>
      exact @stopped _ (x :: before) _ _ (congrArg (x :: ·) hsplit)
        (List.forall_mem_cons.2 ⟨⟨p, hp⟩, hnamed⟩) hunnamed

theorem textsEnd_privilegesOf (xs : List String) : TextsEnd xs (privilegesOf (xs.map .text)) := by
  induction xs with
  | nil => exact .read (fun x hx => nomatch hx) fun p => by simp
  | cons x xs ih =>
      rw [List.map_cons, privilegesOf]
      by_cases hx : ∃ p : Privilege, p.NamedBy x
      · obtain ⟨p, hp⟩ := hx
        rw [privilegeOf_text_eq_ok_iff.2 hp]
        exact ih.cons hp
      · have hnot := not_exists.1 hx
        rw [privilegeOf_text_eq_error_iff.2 ⟨rfl, hnot⟩]
        exact @TextsEnd.stopped _ [] _ _ rfl (fun y hy => nomatch hy) hnot

/-! ## A request for what texts name -/

/-- The fields of a request for some privileges, written as texts. -/
def privilegeFields (xs : List String) : Fields := [("privileges", .list (xs.map .text))]

/-- How making a request for texts ends: as a request for what they name, or with the complaint about
the first that names nothing. -/
inductive RequestEnds (xs : List String) : Except Fault Request → Prop where
  | accepted {s : PrivilegeSet} (named : ∀ x ∈ xs, ∃ p : Privilege, p.NamedBy x)
      (denoted : ∀ p : Privilege, p ∈ s ↔ ∃ x ∈ xs, p.NamedBy x) :
      RequestEnds xs (.ok { privileges := s })
  | refused {before after : List String} {x : String} (split : xs = before ++ x :: after)
      (named : ∀ y ∈ before, ∃ p : Privilege, p.NamedBy y) (unnamed : ∀ p : Privilege, ¬ p.NamedBy x) :
      RequestEnds xs (.error (.invalid "ProvisioningRequest"
        [.inField "privileges" (.value (unsupported (Text.quoted x)))]))

/-- A request with nothing but privileges is as good as these. -/
theorem request?_privileges (d : Datum) :
    request? [("privileges", d)] =
      (((somePrivileges d).within "privileges").map fun s => ({ privileges := s } : Request)).toExcept
        "ProvisioningRequest" := by
  have hprivileges : withDefault [("privileges", d)] "privileges" .runner somePrivileges =
      (somePrivileges d).within "privileges" := rfl
  rw [request?, readRequest, hprivileges]
  cases (somePrivileges d).within "privileges" <;> rfl

theorem requestEnds_request? (xs : List String) : RequestEnds xs (request? (privilegeFields xs)) := by
  rw [privilegeFields, request?_privileges, somePrivileges]
  have hends := textsEnd_privilegesOf xs
  dsimp only
  generalize privilegesOf (xs.map .text) = result at hends ⊢
  cases hends with
  | read hnamed hdenoted =>
      exact .accepted hnamed fun p => PrivilegeSet.mem_ofList.trans (hdenoted p)
  | stopped hsplit hnamed hunnamed => exact .refused hsplit hnamed hunnamed

/-- Exactly if every text names a privilege a request is made, and only for what they name. -/
theorem request?_privilegeFields_eq_ok_iff {r : Request} :
    request? (privilegeFields xs) = .ok r ↔ (∀ x ∈ xs, ∃ p : Privilege, p.NamedBy x) ∧
      ∃ s : PrivilegeSet, r = { privileges := s } ∧ ∀ p, p ∈ s ↔ ∃ x ∈ xs, p.NamedBy x := by
  have hends := requestEnds_request? xs
  generalize request? (privilegeFields xs) = result at hends ⊢
  cases hends with
  | @accepted s hnamed hdenoted =>
      constructor
      · rintro ⟨⟩
        exact ⟨hnamed, s, rfl, hdenoted⟩
      · rintro ⟨-, s', rfl, hdenoted'⟩
        rw [PrivilegeSet.ext_mem fun p => (hdenoted p).trans (hdenoted' p).symm]
  | @refused before after x hsplit hnamed hunnamed =>
      refine ⟨nofun, fun ⟨hall, _⟩ => ?_⟩
      obtain ⟨p, hp⟩ := hall x (by simp [hsplit])
      exact absurd hp (hunnamed p)

/-- Each text of either list respells one of the other. -/
def RespellAll (xs ys : List String) : Prop :=
  (∀ x ∈ xs, ∃ y ∈ ys, Text.Respells x y) ∧ ∀ y ∈ ys, ∃ x ∈ xs, Text.Respells x y

instance (xs ys : List String) : Decidable (RespellAll xs ys) := instDecidableAnd

theorem RespellAll.exists_named_iff {ys : List String} (h : RespellAll xs ys) (p : Privilege) :
    (∃ x ∈ xs, p.NamedBy x) ↔ ∃ y ∈ ys, p.NamedBy y := by
  constructor
  · rintro ⟨x, hx, hp⟩
    obtain ⟨y, hy, hxy⟩ := h.1 x hx
    exact ⟨y, hy, (namedBy_congr hxy).1 hp⟩
  · rintro ⟨y, hy, hp⟩
    obtain ⟨x, hx, hxy⟩ := h.2 y hy
    exact ⟨x, hx, (namedBy_congr hxy).2 hp⟩

theorem RespellAll.all_named_iff {ys : List String} (h : RespellAll xs ys) :
    (∀ x ∈ xs, ∃ p : Privilege, p.NamedBy x) ↔ ∀ y ∈ ys, ∃ p : Privilege, p.NamedBy y := by
  constructor
  · intro hall y hy
    obtain ⟨x, hx, hxy⟩ := h.2 y hy
    exact (hall x hx).imp fun p => (namedBy_congr hxy).1
  · intro hall x hx
    obtain ⟨y, hy, hxy⟩ := h.1 x hx
    exact (hall y hy).imp fun p => (namedBy_congr hxy).2

/-- **The language of privileges.**  A text is read as the privilege that it names, which no text does
for two, and is refused if it names none.  A list of texts makes a request for what they name, or is
refused for the first that names nothing.  Neither their order nor how often one is there matters, nor
the case of ASCII letters and the white space around them. -/
theorem privilege_language_closed :
    (∀ s p, privilegeOf (.text s) = .ok p ↔ p.SpelledAs (Text.lower (Text.trim s))) ∧
    (∀ s e, privilegeOf (.text s) = .error e ↔
      e = .badValue (unsupported (Text.quoted s)) ∧
        ∀ p : Privilege, ¬ p.SpelledAs (Text.lower (Text.trim s))) ∧
    (∀ t (p q : Privilege), p.SpelledAs t → q.SpelledAs t → p = q) ∧
    (∀ xs, RequestEnds xs (request? (privilegeFields xs))) ∧
    ∀ xs ys, RespellAll xs ys →
      ∀ r, request? (privilegeFields xs) = .ok r ↔ request? (privilegeFields ys) = .ok r := by
  refine ⟨fun s p => privilegeOf_text_eq_ok_iff, fun s e => privilegeOf_text_eq_error_iff,
    fun t p q => SpelledAs.unique, requestEnds_request?, fun xs ys hrespell r => ?_⟩
  rw [request?_privilegeFields_eq_ok_iff, request?_privilegeFields_eq_ok_iff, hrespell.all_named_iff]
  simp only [hrespell.exists_named_iff]

/-- Two privileges in other letters, other white space and another order, one of them twice. -/
theorem privilege_language_closed_tcb :
    request? (privilegeFields ["increasequota", "tcB\u00A0", "\u2003Tcb"]) =
      .ok { privileges := { actAsTrustedComputingBase := true, increaseQuota := true } } := by
  obtain ⟨-, -, -, -, hsame⟩ := privilege_language_closed
  exact (hsame ["\tTCB", "IncreaseQuota"] _ (by decide) _).1 rfl

end Schema

end Provisioning
