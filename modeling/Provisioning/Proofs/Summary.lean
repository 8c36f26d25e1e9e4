/-
# `Provisioning.Proofs.Summary` — what the summary says of privileges

The summary is made of sentences, one a line.  Three of them are about
privileges, and which of them is said is read off the report:

    the runner gained some privileges     they are listed as granted
    there is a runner and gained none     the runner already holds every one
    somebody gained some                  the restart notice

The report says what was gained, not what was asked for.  A request may ask for
some of the privileges only, or for none, and then a runner that gained nothing
need not hold every one.

**Stated here.**  For runs over the account rights kept in memory: the sentence
on granted privileges and the restart notice are said exactly if they are true,
and the sentence that the runner holds every privilege is said exactly if the
runner held all that the request asks for (`summary_tells_privileges`).  That it
is said only if it is true is refuted by a runner that was to have one privilege
and had it (`not_always_every_privilege`).
-/
import Provisioning.Proofs.Privilege.Restart

namespace Provisioning

namespace Report

/-! ## Sentences -/

/-- What the summary says, sentence by sentence. -/
def sentences (r : Report) : List String :=
  (if r.lines.isEmpty then ["Nothing to do."] else r.lines) ++
    if r.restartRequired then [restartNotice] else []

theorem summary_eq (r : Report) : r.summary = "\n".intercalate r.sentences := rfl

/-- The first character of a text.  The sentences differ in it, but for the two on what is granted. -/
def initial (s : String) : Option Char := s.toList.head?

theorem initial_append {s : String} {c : Char} (hs : initial s = some c) (t : String) :
    initial (s ++ t) = some c := by
  rw [initial, String.toList_append, List.head?_append, show s.toList.head? = some c from hs]
  rfl

section
variable (name text : String)

theorem initial_createdSentence : initial (createdSentence name) = some 'C' :=
  initial_append (initial_append (by decide) name) _

theorem initial_grantedSentence : initial (grantedSentence text name) = some 'G' :=
  initial_append (initial_append (initial_append (initial_append (by decide) text) _) name) _

theorem initial_heldSentence : initial (heldSentence name) = some '\'' :=
  initial_append (initial_append (by decide) name) _

theorem initial_accessSentence : initial (accessSentence name text) = some 'G' :=
  initial_append (initial_append (initial_append (initial_append (by decide) name) _) text) _

theorem initial_cgroupsSentence : initial (cgroupsSentence text) = some 'P' :=
  initial_append (initial_append (by decide) text) _

end

theorem heldSentence_injective {n m : String} (hsame : heldSentence n = heldSentence m) : n = m := by
  simpa [heldSentence] using hsame

/-! ### Privileges as they are listed -/

/-- What is listed is told by how it goes on. -/
theorem eq_of_prefix_describe (ps qs : PrivilegeSet)
    (hstart : (ps.describe ++ " to '").toList <+: (qs.describe ++ " to '").toList) : ps = qs := by
  obtain ⟨a, b, c⟩ := ps
  obtain ⟨a', b', c'⟩ := qs
  revert a b c a' b' c'
  decide +kernel

theorem grantedSentence_injective {ps qs : PrivilegeSet} {n m : String}
    (hsame : grantedSentence ps.describe n = grantedSentence qs.describe m) : ps = qs ∧ n = m := by
  have hlist : (ps.describe ++ " to '").toList ++ (n ++ "'.").toList =
      (qs.describe ++ " to '").toList ++ (m ++ "'.").toList := by
    have hrest : ps.describe ++ " to '" ++ (n ++ "'.") = qs.describe ++ " to '" ++ (m ++ "'.") := by
      simpa [grantedSentence, String.append_assoc] using hsame
    simpa only [String.toList_append] using congrArg String.toList hrest
  have hsets : ps = qs := by
    rcases List.prefix_or_prefix_of_prefix (List.prefix_append _ (n ++ "'.").toList)
      (hlist ▸ List.prefix_append _ (m ++ "'.").toList) with hstart | hstart
    · exact eq_of_prefix_describe ps qs hstart
    · exact (eq_of_prefix_describe qs ps hstart).symm
  subst hsets
  have hname : n ++ "'." = m ++ "'." := String.toList_injective (List.append_cancel_left hlist)
  exact ⟨rfl, (String.append_left_inj _).1 hname⟩

/-- Privileges are listed by their constants, which no quote begins. -/
theorem initial_describe (ps : PrivilegeSet) :
    initial (ps.describe ++ " to '") = some 'S' ∨ initial (ps.describe ++ " to '") = some ' ' := by
  obtain ⟨a, b, c⟩ := ps
  revert a b c
  decide +kernel

theorem grantedSentence_ne_accessSentence (ps : PrivilegeSet) (n m text : String) :
    grantedSentence ps.describe n ≠ accessSentence m text := by
  intro hsame
  have hrest : ps.describe ++ " to '" ++ (n ++ "'.") =
      "'" ++ (m ++ "' access to " ++ text ++ ".") := by
    have hquote : ("Granted '" : String) = "Granted " ++ "'" := by decide
    rw [grantedSentence, accessSentence, hquote] at hsame
    simpa only [String.append_assoc, String.append_right_inj] using hsame
  have hquoted := congrArg initial hrest
  rw [initial_append (show initial "'" = some '\'' by decide)] at hquoted
  rcases initial_describe ps with hlisted | hlisted <;>
  · rw [initial_append hlisted] at hquoted
    exact absurd hquoted (by decide)

/-- The members of a set are in order already. -/
theorem sortedConstants_toList (ps : PrivilegeSet) : sortedConstants ps.toList = ps.constants := by
  refine List.mergeSort_of_pairwise (List.pairwise_map.2 (ps.pairwise_toList.imp ?_))
  intro p q hless
  exact decide_eq_true (String.not_lt.1 (String.lt_asymm hless))

/-! ### What is said -/

variable {r : Report} {name sentence : String}

theorem initial_of_mem_runnerLine (hmem : sentence ∈ r.runnerLine) :
    initial sentence = some 'G' ∨ initial sentence = some '\'' := by
  unfold runnerLine at hmem
  split at hmem
  · exact absurd hmem List.not_mem_nil
  · split at hmem <;> rw [List.mem_singleton] at hmem <;> subst hmem
    · exact .inr (initial_heldSentence _)
    · exact .inl (initial_grantedSentence _ _)

/-- Every sentence is of one of these sorts. -/
theorem sort_of_mem_sentences (hmem : sentence ∈ r.sentences) :
    sentence ∈ r.runnerLine ∨ (∃ n text, sentence = accessSentence n text) ∨
      (initial sentence = some 'C' ∨ initial sentence = some 'P' ∨ initial sentence = some 'N') ∨
      (r.restartRequired = true ∧ sentence = restartNotice) := by
  rw [sentences, List.mem_append] at hmem
  rcases hmem with hsaid | hnotice
  · split at hsaid
    · rw [List.mem_singleton] at hsaid
      subst hsaid
      exact .inr (.inr (.inl (.inr (.inr (by decide)))))
    · simp only [lines, List.mem_append] at hsaid
      rcases hsaid with ((hcreated | hrunner) | hdirectories) | hcgroups
      · unfold createdLine at hcreated
        split at hcreated
        · rw [List.mem_singleton] at hcreated
          subst hcreated
          exact .inr (.inr (.inl (.inl (initial_createdSentence _))))
        · exact absurd hcreated List.not_mem_nil
      · exact .inl hrunner
      · unfold directoriesLine at hdirectories
        split at hdirectories
        · exact absurd hdirectories List.not_mem_nil
        · exact absurd hdirectories List.not_mem_nil
        · exact .inr (.inl ⟨_, _, List.mem_singleton.1 hdirectories⟩)
      · unfold cgroupsLine at hcgroups
        split at hcgroups
        · exact absurd hcgroups List.not_mem_nil
        · rw [List.mem_singleton] at hcgroups
          subst hcgroups
          exact .inr (.inr (.inl (.inr (.inl (initial_cgroupsSentence _)))))
  · split at hnotice
    · exact .inr (.inr (.inr ⟨‹_›, List.mem_singleton.1 hnotice⟩))
    · exact absurd hnotice List.not_mem_nil

theorem mem_sentences_of_runnerLine (hmem : sentence ∈ r.runnerLine) : sentence ∈ r.sentences := by
  have hsaid : sentence ∈ r.lines := by simp [lines, hmem]
  have hsome : ¬ r.lines.isEmpty = true := by
    simpa using List.ne_nil_of_mem hsaid
  rw [sentences, if_neg hsome]
  exact List.mem_append_left _ hsaid

/-- The restart notice is said if the report says that a restart is needed. -/
theorem restartNotice_mem_iff : restartNotice ∈ r.sentences ↔ r.restartRequired = true := by
  have hinitial : initial restartNotice = some 'R' := by decide
  constructor
  · intro hmem
    rcases sort_of_mem_sentences hmem with hrunner | ⟨n, text, haccess⟩ | hother | ⟨hrestart, -⟩
    · have hsame := initial_of_mem_runnerLine hrunner
      rw [hinitial] at hsame
      simp at hsame
    · rw [haccess, initial_accessSentence] at hinitial
      simp at hinitial
    · rw [hinitial] at hother
      simp at hother
    · exact hrestart
  · intro hrestart
    rw [sentences, if_pos hrestart]
    exact List.mem_append_right _ List.mem_cons_self

/-- What is said of the runner is said of the runner, and of nothing else. -/
theorem mem_runnerLine_iff (hinitial : initial sentence = some 'G' ∨ initial sentence = some '\'')
    (haccess : ∀ n text, sentence ≠ accessSentence n text) :
    sentence ∈ r.sentences ↔ sentence ∈ r.runnerLine := by
  refine ⟨fun hmem => ?_, mem_sentences_of_runnerLine⟩
  rcases sort_of_mem_sentences hmem with hrunner | ⟨n, text, hsame⟩ | hother | ⟨-, rfl⟩
  · exact hrunner
  · exact absurd hsame (haccess n text)
  · rcases hinitial with hsame | hsame <;> rw [hsame] at hother <;> simp at hother
  · exact absurd hinitial (by decide)

theorem heldSentence_mem_iff : heldSentence name ∈ r.sentences ↔
    r.runner.map Identity.name = some name ∧ r.privilegesGranted = [] := by
  have hother : ∀ n text, heldSentence name ≠ accessSentence n text := by
    intro n text hsame
    have hinitial := congrArg initial hsame
    rw [initial_heldSentence, initial_accessSentence] at hinitial
    exact absurd hinitial (by decide)
  rw [mem_runnerLine_iff (.inr (initial_heldSentence name)) hother]
  unfold runnerLine
  cases r.runner with
  | none => simp
  | some who =>
      cases hgranted : r.privilegesGranted with
      | nil =>
          simp only [List.isEmpty_nil, if_true, List.mem_singleton, Option.map_some,
            Option.some.injEq, and_true]
          exact ⟨fun hsame => (heldSentence_injective hsame).symm, fun hname => by rw [hname]⟩
      | cons p ps =>
          refine iff_of_false (fun hmem => ?_) fun hboth => nomatch hboth.2
          have hinitial := congrArg initial (List.mem_singleton.1 hmem)
          rw [initial_heldSentence, initial_grantedSentence] at hinitial
          exact absurd hinitial (by decide)

theorem grantedSentence_mem_iff {ps added : PrivilegeSet}
    (hadded : r.privilegesGranted = added.toList) :
    grantedSentence ps.describe name ∈ r.sentences ↔
      r.runner.map Identity.name = some name ∧ ps ≠ {} ∧ ps = added := by
  rw [mem_runnerLine_iff (.inl (initial_grantedSentence _ _))
    (grantedSentence_ne_accessSentence ps name)]
  unfold runnerLine
  rw [hadded]
  cases r.runner with
  | none => simp
  | some who =>
      dsimp only
      have hnothing : added.toList.isEmpty = true ↔ added = {} :=
        List.isEmpty_iff.trans (PrivilegeSet.toList_eq_nil_iff.trans PrivilegeSet.isEmpty_iff)
      by_cases hempty : added = {}
      · rw [if_pos (hnothing.2 hempty)]
        refine iff_of_false (fun hmem => ?_) fun hall => hall.2.1 (hall.2.2.trans hempty)
        have hinitial := congrArg initial (List.mem_singleton.1 hmem)
        rw [initial_heldSentence, initial_grantedSentence] at hinitial
        exact absurd hinitial (by decide)
      · rw [if_neg (mt hnothing.1 hempty), List.mem_singleton, sortedConstants_toList]
        constructor
        · intro hsame
          obtain ⟨rfl, rfl⟩ := grantedSentence_injective hsame
          exact ⟨rfl, hempty, rfl⟩
        · rintro ⟨hname, -, rfl⟩
          cases hname
          rfl

/-! ## What a report tells of the runner -/

/-- What a report says of the runner: who it is, what it was granted, and whether that waits for a
restart. -/
def gain (r : Report) : Option Identity × List Privilege × Bool :=
  (r.runner, r.privilegesGranted, r.restartRequired)

/-- The report tells what became of the account rights: the runner, if there was to be one, has gained
what it lacked of the privileges of the request, and nobody else has gained any. -/
structure TellsGain (r : Report) (request : Request) (before after : RightsTable) : Prop where
  requested : r.runner.isSome = request.runnerRequested
  held : ∀ name, after.heldBy name =
    if r.runner.map (fun who => Text.lower who.name) = some (Text.lower name) then
      before.heldBy name ∪ request.privileges
    else before.heldBy name
  told : ∃ added : PrivilegeSet, r.privilegesGranted = added.toList ∧
    r.restartRequired = !added.isEmpty ∧
    added = r.runner.elim {} fun who => before.lacking who.name request.privileges

section
variable {r' : Report} {request : Request} {before after before' after' : RightsTable}

/-- It tells as much of tables in which everyone holds the same. -/
theorem TellsGain.congr (htells : r.TellsGain request before after) (hgain : r'.gain = r.gain)
    (hbefore : ∀ name, before.heldBy name = before'.heldBy name)
    (hafter : ∀ name, after'.heldBy name = after.heldBy name) :
    r'.TellsGain request before' after' := by
  simp only [gain, Prod.mk.injEq] at hgain
  obtain ⟨hrunner, hgranted, hrestart⟩ := hgain
  obtain ⟨hrequested, hheld, htold⟩ := htells
  refine ⟨hrunner ▸ hrequested, fun name => ?_, ?_⟩
  · rw [hafter, hheld, hrunner, hbefore]
  · simpa only [hrunner, hgranted, hrestart, RightsTable.lacking, hbefore] using htold

/-- Nothing was to be granted, and nothing was. -/
theorem tellsGain_silent (hsilent : r.gain = (none, [], false))
    (hrequested : request.runnerRequested = false) (t : RightsTable) :
    r.TellsGain request t t := by
  simp only [gain, Prod.mk.injEq] at hsilent
  obtain ⟨hrunner, hgranted, hrestart⟩ := hsilent
  refine ⟨?_, fun name => ?_, {}, hgranted, hrestart, ?_⟩
  · rw [hrunner, hrequested]
    rfl
  · rw [hrunner]
    rfl
  · rw [hrunner]
    rfl

/-- The runner was given what it lacked, and the report says so. -/
theorem tellsGain_granted {who : Identity} (t : RightsTable)
    (hrequested : request.runnerRequested = true)
    (hgain : r.gain = (some who, (t.lacking who.name request.privileges).toList,
      !(t.lacking who.name request.privileges).isEmpty)) :
    r.TellsGain request t (t.withPrivileges who.name request.privileges) := by
  simp only [gain, Prod.mk.injEq] at hgain
  obtain ⟨hrunner, hgranted, hrestart⟩ := hgain
  refine ⟨?_, fun name => ?_, _, hgranted, hrestart, ?_⟩
  · rw [hrunner, hrequested]
    rfl
  · simp only [RightsTable.heldBy_withPrivileges, hrunner, Option.map_some, Option.some.injEq,
      eq_comm]
  · rw [hrunner]
    rfl

end

/-! ## What the summary says against what is so -/

/-- What the summary of a report says of privileges, against what the accounts held before the run and
after it. -/
structure TellsPrivileges (r : Report) (request : Request) (before after : RightsTable) : Prop where
  /-- The summary is its sentences. -/
  summary : r.summary = "\n".intercalate r.sentences
  runner : r.runner.isSome = request.runnerRequested
  /-- That it holds every privilege is said of a runner that held all that was asked for. -/
  held : ∀ name, heldSentence name ∈ r.sentences ↔
    r.runner.map Identity.name = some name ∧ ∀ p ∈ request.privileges, p ∈ before.heldBy name
  /-- This is untrue exactly if there are others, which were not asked for. -/
  untrue : ∀ name, (heldSentence name ∈ r.sentences ∧ ∃ p, p ∉ after.heldBy name) ↔
    r.runner.map Identity.name = some name ∧ (∀ p ∈ request.privileges, p ∈ before.heldBy name) ∧
      ∃ p, p ∉ request.privileges ∧ p ∉ before.heldBy name
  /-- Privileges are listed as granted if they, and no others, are what the runner has gained. -/
  granted : ∀ name ps, grantedSentence ps.describe name ∈ r.sentences ↔
    r.runner.map Identity.name = some name ∧ ps ≠ {} ∧
      ps = after.heldBy name \ before.heldBy name
  /-- Nobody but the runner has gained any. -/
  others : ∀ name p, p ∈ after.heldBy name → p ∉ before.heldBy name →
    ∃ who, r.runner = some who ∧ Text.lower who.name = Text.lower name
  /-- The restart notice is there if somebody has. -/
  restart : restartNotice ∈ r.sentences ↔ ∃ name p, p ∈ after.heldBy name ∧ p ∉ before.heldBy name

namespace TellsGain

variable {request : Request} {before after : RightsTable}

theorem heldBy_runner (htells : r.TellsGain request before after)
    (hname : r.runner.map Identity.name = some name) :
    after.heldBy name = before.heldBy name ∪ request.privileges := by
  obtain ⟨who, hwho, rfl⟩ := Option.map_eq_some_iff.1 hname
  rw [htells.held, hwho]
  exact if_pos rfl

/-- Whoever has gained a privilege is the runner, which lacked it. -/
theorem gained (htells : r.TellsGain request before after) {p : Privilege}
    (hafter : p ∈ after.heldBy name) (hbefore : p ∉ before.heldBy name) :
    ∃ who, r.runner = some who ∧ Text.lower who.name = Text.lower name ∧
      p ∈ before.lacking who.name request.privileges := by
  rw [htells.held] at hafter
  split at hafter
  · rename_i hsame
    obtain ⟨who, hwho, hlower⟩ := Option.map_eq_some_iff.1 hsame
    refine ⟨who, hwho, hlower, PrivilegeSet.mem_sdiff.2 ⟨?_, ?_⟩⟩
    · exact (PrivilegeSet.mem_union.1 hafter).resolve_left hbefore
    · rwa [RightsTable.heldBy_congr hlower]
  · exact absurd hafter hbefore

/-- What was added is what the runner lacked. -/
theorem added_eq (htells : r.TellsGain request before after) {added : PrivilegeSet}
    (hgranted : r.privilegesGranted = added.toList)
    (hname : r.runner.map Identity.name = some name) :
    added = before.lacking name request.privileges := by
  obtain ⟨who, hwho, rfl⟩ := Option.map_eq_some_iff.1 hname
  obtain ⟨added', hgranted', -, hadded⟩ := htells.told
  rw [hwho] at hadded
  refine PrivilegeSet.ext_mem fun p => ?_
  rw [← PrivilegeSet.mem_toList, ← hgranted, hgranted', PrivilegeSet.mem_toList, hadded]
  rfl

/-- The restart waits for privileges that somebody has gained. -/
theorem restartRequired_iff (htells : r.TellsGain request before after) :
    r.restartRequired = true ↔ ∃ name p, p ∈ after.heldBy name ∧ p ∉ before.heldBy name := by
  obtain ⟨added, hgranted, hrestart, hadded⟩ := htells.told
  rw [hrestart, Bool.not_eq_true']
  constructor
  · intro hsome
    obtain ⟨p, hp⟩ := PrivilegeSet.exists_mem_of_isEmpty hsome
    cases hwho : r.runner with
    | none =>
        rw [hadded, hwho] at hp
        exact absurd hp (PrivilegeSet.not_mem_empty p)
    | some who =>
        have hname : r.runner.map Identity.name = some who.name := by rw [hwho]; rfl
        rw [htells.added_eq hgranted hname] at hp
        obtain ⟨hasked, hnew⟩ := PrivilegeSet.mem_sdiff.1 hp
        refine ⟨who.name, p, ?_, hnew⟩
        rw [htells.heldBy_runner hname]
        exact PrivilegeSet.mem_union.2 (.inr hasked)
  · rintro ⟨name, p, hafter, hbefore⟩
    obtain ⟨who, hwho, -, hp⟩ := htells.gained hafter hbefore
    have hname : r.runner.map Identity.name = some who.name := by rw [hwho]; rfl
    rw [← htells.added_eq hgranted hname] at hp
    refine Bool.eq_false_iff.2 fun hempty => ?_
    rw [PrivilegeSet.isEmpty_iff.1 hempty] at hp
    exact PrivilegeSet.not_mem_empty p hp

/-- A runner that held all that was asked for is the one that is said to hold every privilege. -/
theorem heldSentence_iff (htells : r.TellsGain request before after) (name : String) :
    heldSentence name ∈ r.sentences ↔
      r.runner.map Identity.name = some name ∧
        ∀ p ∈ request.privileges, p ∈ before.heldBy name := by
  refine heldSentence_mem_iff.trans (and_congr_right fun hname => ?_)
  obtain ⟨added, hgranted, -⟩ := htells.told
  rw [hgranted, PrivilegeSet.toList_eq_nil_iff, htells.added_eq hgranted hname,
    RightsTable.lacking_isEmpty_iff]

/-- A report that tells what was gained has a summary that does. -/
theorem tellsPrivileges (htells : r.TellsGain request before after) :
    r.TellsPrivileges request before after where
  summary := r.summary_eq
  runner := htells.requested
  held := htells.heldSentence_iff
  untrue name := by
    rw [htells.heldSentence_iff, and_assoc]
    refine and_congr_right fun hname => and_congr_right fun _ => exists_congr fun p => ?_
    rw [htells.heldBy_runner hname, PrivilegeSet.mem_union, not_or, and_comm]
  granted name ps := by
    obtain ⟨added, hgranted, -⟩ := htells.told
    rw [grantedSentence_mem_iff hgranted]
    refine and_congr_right fun hname => and_congr_right fun _ => ?_
    rw [htells.added_eq hgranted hname, htells.heldBy_runner hname,
      PrivilegeSet.union_sdiff_self]
    rfl
  others name p hafter hbefore := by
    obtain ⟨who, hwho, hlower, -⟩ := htells.gained hafter hbefore
    exact ⟨who, hwho, hlower⟩
  restart := restartNotice_mem_iff.trans htells.restartRequired_iff

end TellsGain

end Report

/-! ## Runs -/

open Run

namespace Capability

variable {identities : IdentityStore} {access : AccessControl} {request : Request}
  {target : Option Identity} {p p' : Progress}

/-- Once the runner is known, it is granted its privileges. -/
theorem provisionRunner_of_runnerOf {who : Identity} {h₁ : Host}
    (hwho : runnerOf identities request target p.host = .ok who h₁) :
    provisionRunner identities .table request target p =
      (do
        let added ← Step.ofRun (SecurityPolicy.grant .table identities who request.privileges)
        Step.report fun r =>
          { r with privilegesGranted := added.toList, restartRequired := !added.isEmpty } :
        Step Unit) ⟨h₁, { p.report with runner := some who }⟩ :=
  Step.ofRun_bind_of_ok hwho _

/-- What the runner was granted is written down as the grant ends. -/
theorem tellsGain_provisionRunner (hrequested : request.runnerRequested = true)
    (hok : provisionRunner identities .table request target p = .ok () p') :
    p'.report.TellsGain request p.host.rights p'.host.rights := by
  cases hwho : runnerOf identities request target p.host with
  | error e h₁ => exact nomatch (Step.ofRun_bind_of_error hwho _).symm.trans hok
  | ok who h₁ =>
      have hspares : p.host.Spares h₁ := (steady_runnerOf identities request target).of_ok hwho
      rw [provisionRunner_of_runnerOf hwho] at hok
      cases hgrant : SecurityPolicy.grant .table identities who request.privileges h₁ with
      | error e h₂ =>
          rw [Step.ofRun_bind_of_error hgrant] at hok
          exact nomatch hok
      | ok added h₂ =>
          have hends := SecurityPolicy.tableGrantEnds_grant identities who request.privileges h₁
          rw [hgrant] at hends
          obtain ⟨rfl, hrights⟩ := hends.of_ok
          rw [Step.ofRun_bind_of_ok hgrant] at hok
          cases hok
          exact (Report.tellsGain_granted h₁.rights hrequested rfl).congr rfl hspares.heldBy_eq
            fun _ => by rw [hrights]

/-- The rest of what the platform does leaves both the rights and what is told of them. -/
theorem tellsGain_provision (hsilent : p.report.gain = (none, [], false))
    (hok : (windows identities .table access).provision request target p = .ok () p') :
    p'.report.TellsGain request p.host.rights p'.host.rights := by
  have hspares := spares_directories identities access request target
  have hleaves : Step.Leaves Report.gain _ :=
    leaves_directories identities access request target fun _ _ => rfl
  unfold provision at hok
  dsimp only at hok
  split at hok
  · rename_i hrequested
    cases hrunner : provisionRunner identities .table request target p with
    | error e p₁ =>
        rw [bind_eq_of_error hrunner] at hok
        exact nomatch hok
    | ok u p₁ =>
        rw [bind_eq_of_ok hrunner] at hok
        exact (tellsGain_provisionRunner hrequested hrunner).congr
          (Step.progressAfter_of_ok hok ▸ hleaves p₁) (fun _ => rfl) (hspares.of_ok hok).heldBy_eq
  · rename_i hrequested
    exact (Report.tellsGain_silent hsilent (Bool.not_eq_true _ ▸ hrequested) _).congr
      (Step.progressAfter_of_ok hok ▸ hleaves p) (fun _ => rfl) (hspares.of_ok hok).heldBy_eq

end Capability

namespace Orchestrator

variable {o : Orchestrator} {identities : IdentityStore} {access : AccessControl}
  {request : Request}

theorem tellsGain_apply (hc : o.capability = .windows identities .table access) {p p' : Progress}
    (hsilent : p.report.gain = (none, [], false)) (hok : o.apply request p = .ok () p') :
    p'.report.TellsGain request p.host.rights p'.host.rights := by
  have hspares := spares_resolveTarget o request
  have hleaves : Step.Leaves Report.gain (o.resolveTarget request) :=
    o.leaves_resolveTarget request fun _ _ _ => rfl
  unfold apply at hok
  rw [hc] at hok
  cases htarget : o.resolveTarget request p with
  | error e p₁ =>
      rw [bind_eq_of_error htarget] at hok
      exact nomatch hok
  | ok target p₁ =>
      rw [bind_eq_of_ok htarget] at hok
      cases hprovision : (Capability.windows identities .table access).provision request target p₁ with
      | error e p₂ =>
          rw [bind_eq_of_error hprovision] at hok
          exact nomatch hok
      | ok u p₂ =>
          rw [bind_eq_of_ok hprovision] at hok
          cases hok
          have hsilent' : p₁.report.gain = (none, [], false) :=
            (Step.progressAfter_of_ok htarget ▸ hleaves p).trans hsilent
          exact (Capability.tellsGain_provision hsilent' hprovision).congr rfl
            (hspares.of_ok htarget).heldBy_eq fun _ => rfl

/-- **What the summary says of privileges.**  After a run over the account rights kept in memory, which
may look up and create accounts and edit access lists in any way, the summary lists as granted exactly
what the runner has gained since the run was confirmed, has the restart notice exactly if that is
something, and says that the runner already holds every privilege exactly if it held all that the
request asks for.  Until the confirmation nobody gains any from the run itself. -/
theorem summary_tells_privileges (hc : o.capability = .windows identities .table access)
    {s s' : Session} {report : Report} (hrun : o.run request s = .ok report s') :
    ∃ h, o.Begins request s h ∧ report.TellsPrivileges request h.rights s'.host.rights ∧
      ((∀ ask, o.confirmation = some ask → ∀ q, Leads Host.Spares (ask q)) →
        ∀ name, h.rights.heldBy name = s.host.rights.heldBy name) := by
  have hends := o.ends_run request s
  rw [hrun] at hends
  cases hends with
  | @returned h p hbegins happly =>
      exact ⟨h, hbegins, (tellsGain_apply hc rfl happly).tellsPrivileges, fun hask =>
        ((spares_begin hask request).of_ok hbegins).heldBy_eq⟩

/-- The account `svc`, which holds one of the privileges. -/
def soleTrusted : Session :=
  ⟨{ accounts := .ofNames ["svc"] "operator"
     rights := { rights := .put {} "svc" { actAsTrustedComputingBase := true } } }, none⟩

/-- Give `svc` some privileges. -/
def trustRequest (privileges : PrivilegeSet) : Request :=
  { runnerRequested := true, runner := some "svc", privileges }

/-- Asked for all, the account is granted the two that it lacks. -/
theorem summary_tells_privileges_svc :
    let o : Orchestrator :=
      { capability := .windows .table .table .table, confirmation := some (fixedAnswer true []) }
    ∃ report s', o.run (trustRequest .runner) soleTrusted = .ok report s' ∧
      report.privilegesGranted = [.assignPrimaryToken, .increaseQuota] ∧
      ∃ h, o.Begins (trustRequest .runner) soleTrusted h ∧
        report.TellsPrivileges (trustRequest .runner) h.rights s'.host.rights := by
  intro o
  obtain ⟨report, s', hrun, hgranted⟩ : ∃ report s',
      o.run (trustRequest .runner) soleTrusted = .ok report s' ∧
        report.privilegesGranted = [.assignPrimaryToken, .increaseQuota] := ⟨_, _, rfl, by decide⟩
  obtain ⟨h, hbegins, htells, -⟩ := summary_tells_privileges (o := o) rfl hrun
  exact ⟨report, s', hrun, hgranted, h, hbegins, htells⟩

/-- Asked for the one that it holds, the account is said to hold every privilege, and does not. -/
theorem not_always_every_privilege :
    ¬ ∀ (o : Orchestrator) (request : Request) (s s' : Session) (report : Report),
      o.capability = .windows .table .table .table → o.run request s = .ok report s' →
      ∀ name, Report.heldSentence name ∈ report.sentences → ∀ p, p ∈ s'.host.rights.heldBy name := by
  intro hall
  let o : Orchestrator := { capability := .windows .table .table .table }
  obtain ⟨report, s', hrun, hsaid, hlacks⟩ : ∃ report s',
      o.run (trustRequest { actAsTrustedComputingBase := true }) soleTrusted = .ok report s' ∧
        Report.heldSentence "svc" ∈ report.sentences ∧
        .assignPrimaryToken ∉ s'.host.rights.heldBy "svc" := ⟨_, _, rfl, by decide, by decide⟩
  exact hlacks (hall o _ _ s' report rfl hrun "svc" hsaid .assignPrimaryToken)

end Orchestrator

end Provisioning
