/-
# `Provisioning.Proofs.Privilege.Handles` — what is opened is closed

Every call of the security service is written down with its failure, and a
handle is named by the number of the call that opened it.  What one operation
of the policy calls, when the calls before it were `n`:

    nothing                                            it adds no privilege
    size ✗                                             the account is not found
    size, sid ✗                                        nor is its identifier
    size, sid, open ✗, error                           the policy cannot be opened
    size, sid, open, …, close (n + 2)                  it works with the policy open

and what stands for the dots:

    enumerate (n + 2) ✗ | enumerate (n + 2) ✗, error | enumerate (n + 2), free
    add (n + 2) … ✗, error | add (n + 2) …

**Stated here.**  The calls of any operations of the policy, however the service
answers, are balanced: each handle that was opened is closed once and not used
after that, what was listed is freed once before the handle is closed, and
nothing else is closed or freed (`handles_balanced`).
-/
import Provisioning.Proofs.Host.Rounds
import Provisioning.Proofs.Privilege.Added

namespace Provisioning

open Run

/-! ## Calls in balance -/

/-- The handle that a call is given. -/
def LsaCall.handle? : LsaCall → Option Nat
  | .enumerateRights handle => some handle
  | .addRights handle _ => some handle
  | .closePolicy handle => some handle
  | _ => none

/-- A call that was made: how many were made before, and how it failed, if it did. -/
structure MadeCall where
  number : Nat
  call : LsaCall
  failure : Option Int
  deriving DecidableEq

namespace MadeCall

/-- The calls of a journal, the first of them after `start` others. -/
def numbered (start : Nat) : List (LsaCall × Option Int) → List MadeCall
  | [] => []
  | (call, failure) :: rest => ⟨start, call, failure⟩ :: numbered (start + 1) rest

/-- The call opened the policy.  Its number names the handle. -/
def Opens (c : MadeCall) : Prop := (∃ access, c.call = .openPolicy access) ∧ c.failure = none

/-- The call listed rights with the handle. -/
def Enumerates (c : MadeCall) (handle : Nat) : Prop :=
  c.call = .enumerateRights handle ∧ c.failure = none

variable {calls later : List (LsaCall × Option Int)} {start : Nat} {c : MadeCall}

theorem numbered_append (start : Nat) (calls later : List (LsaCall × Option Int)) :
    numbered start (calls ++ later) =
      numbered start calls ++ numbered (start + calls.length) later := by
  induction calls generalizing start with
  | nil => rfl
  | cons e rest ih =>
      simp only [List.cons_append, numbered, ih, List.length_cons, Nat.add_assoc, Nat.add_comm 1]

theorem number_of_mem (hc : c ∈ numbered start calls) :
    start ≤ c.number ∧ c.number < start + calls.length := by
  induction calls generalizing start with
  | nil => exact nomatch hc
  | cons e rest ih =>
      rcases List.mem_cons.1 hc with rfl | hc
      · simp
      · have hlater := ih hc
        rw [List.length_cons]
        omega

/-- Numbered calls in balance. -/
structure Balanced (made : List MadeCall) : Prop where
  /-- The handle that a call opened is closed by one call; it is used after the one and not after the
  other. -/
  closed : ∀ c ∈ made, c.Opens → ∃ d ∈ made, d.call = .closePolicy c.number ∧
    ∀ u ∈ made, u.call.handle? = some c.number →
      c.number < u.number ∧ u.number ≤ d.number ∧ (u.call = .closePolicy c.number → u = d)
  /-- No handle is used, or closed, but one that a call opened. -/
  opened : ∀ u ∈ made, ∀ n, u.call.handle? = some n → ∃ c ∈ made, c.Opens ∧ c.number = n
  /-- What was listed is freed by one call before the handle is closed. -/
  freed : ∀ c ∈ made, ∀ n, c.Enumerates n → ∃ f ∈ made, ∃ d ∈ made,
    f.call = .freeMemory ∧ d.call = .closePolicy n ∧ c.number < f.number ∧ f.number < d.number ∧
      ∀ g ∈ made, g.call = .freeMemory → c.number < g.number → g.number < d.number → g = f
  /-- Nothing is freed but what the call before listed. -/
  listed : ∀ f ∈ made, f.call = .freeMemory →
    ∃ c ∈ made, ∃ n, c.Enumerates n ∧ f.number = c.number + 1
  /-- The policy is opened, or tried to be, right after an account was found. -/
  found : ∀ c ∈ made, ∀ access, c.call = .openPolicy access → ∃ name,
    ∃ s ∈ made, s.call = .lookupSize name ∧ s.failure = none ∧ s.number + 2 = c.number ∧
      ∃ i ∈ made, i.call = .lookupSid name ∧ i.failure = none ∧ i.number + 1 = c.number
  /-- Rights are named wherever some are added. -/
  named : ∀ c ∈ made, ∀ n names, c.call = .addRights n names → names ≠ []

theorem balanced_nil : Balanced [] := by
  constructor <;> simp

/-- Balanced calls after balanced calls are in balance: no handle of the ones is one of the others. -/
theorem Balanced.append {made later : List MadeCall} (h : Balanced made) (hlater : Balanced later)
    (hbefore : ∀ c ∈ made, ∀ d ∈ later, c.number < d.number) : Balanced (made ++ later) := by
  constructor
  case closed =>
    intro c hc hopens
    rcases List.mem_append.1 hc with hc | hc
    · obtain ⟨d, hd, hcloses, huses⟩ := h.closed c hc hopens
      refine ⟨d, List.mem_append_left _ hd, hcloses, fun u hu hhandle => ?_⟩
      rcases List.mem_append.1 hu with hu | hu
      · exact huses u hu hhandle
      · obtain ⟨c', hc', -, hsame⟩ := hlater.opened u hu _ hhandle
        exact absurd (hbefore c hc c' hc') (by omega)
    · obtain ⟨d, hd, hcloses, huses⟩ := hlater.closed c hc hopens
      refine ⟨d, List.mem_append_right _ hd, hcloses, fun u hu hhandle => ?_⟩
      rcases List.mem_append.1 hu with hu | hu
      · obtain ⟨c', hc', -, hsame⟩ := h.opened u hu _ hhandle
        exact absurd (hbefore c' hc' c hc) (by omega)
      · exact huses u hu hhandle
  case opened =>
    intro u hu n hhandle
    rcases List.mem_append.1 hu with hu | hu
    · obtain ⟨c, hc, hopens⟩ := h.opened u hu n hhandle
      exact ⟨c, List.mem_append_left _ hc, hopens⟩
    · obtain ⟨c, hc, hopens⟩ := hlater.opened u hu n hhandle
      exact ⟨c, List.mem_append_right _ hc, hopens⟩
  case freed =>
    intro c hc n henum
    rcases List.mem_append.1 hc with hc | hc
    · obtain ⟨f, hf, d, hd, hfree, hclose, hcf, hfd, honly⟩ := h.freed c hc n henum
      refine ⟨f, List.mem_append_left _ hf, d, List.mem_append_left _ hd, hfree, hclose, hcf, hfd,
        fun g hg hfree' hcg hgd => ?_⟩
      rcases List.mem_append.1 hg with hg | hg
      · exact honly g hg hfree' hcg hgd
      · exact absurd (hbefore d hd g hg) (by omega)
    · obtain ⟨f, hf, d, hd, hfree, hclose, hcf, hfd, honly⟩ := hlater.freed c hc n henum
      refine ⟨f, List.mem_append_right _ hf, d, List.mem_append_right _ hd, hfree, hclose, hcf, hfd,
        fun g hg hfree' hcg hgd => ?_⟩
      rcases List.mem_append.1 hg with hg | hg
      · exact absurd (hbefore g hg c hc) (by omega)
      · exact honly g hg hfree' hcg hgd
  case listed =>
    intro f hf hfree
    rcases List.mem_append.1 hf with hf | hf
    · obtain ⟨c, hc, henum⟩ := h.listed f hf hfree
      exact ⟨c, List.mem_append_left _ hc, henum⟩
    · obtain ⟨c, hc, henum⟩ := hlater.listed f hf hfree
      exact ⟨c, List.mem_append_right _ hc, henum⟩
  case found =>
    intro c hc access hopen
    rcases List.mem_append.1 hc with hc | hc
    · obtain ⟨name, s, hs, hsize, hs', hsc, i, hi, hsid⟩ := h.found c hc access hopen
      exact ⟨name, s, List.mem_append_left _ hs, hsize, hs', hsc, i, List.mem_append_left _ hi, hsid⟩
    · obtain ⟨name, s, hs, hsize, hs', hsc, i, hi, hsid⟩ := hlater.found c hc access hopen
      exact ⟨name, s, List.mem_append_right _ hs, hsize, hs', hsc, i, List.mem_append_right _ hi, hsid⟩
  case named =>
    intro c hc
    exact (List.mem_append.1 hc).elim (h.named c) (hlater.named c)

end MadeCall

/-! ## What one operation calls -/

namespace Lsa

open MadeCall

/-- The calls of work with a handle. -/
inductive Work (n : Nat) : List (LsaCall × Option Int) → Prop where
  | unlisted : Work n [(.enumerateRights n, some nameNotFound)]
  | notListed (status : Int) :
      Work n [(.enumerateRights n, some status), (.statusToError status, none)]
  | listed : Work n [(.enumerateRights n, none), (.freeMemory, none)]
  | notAdded (status : Int) {names : List String} (hnames : names ≠ []) :
      Work n [(.addRights n names, some status), (.statusToError status, none)]
  | added {names : List String} (hnames : names ≠ []) : Work n [(.addRights n names, none)]

/-- The calls of an operation on an account, after `start` calls. -/
inductive Operation (name : String) (start : Nat) : List (LsaCall × Option Int) → Prop where
  | idle : Operation name start []
  | unsized (error : Int) : Operation name start [(.lookupSize name, some error)]
  | missing (error : Int) :
      Operation name start [(.lookupSize name, none), (.lookupSid name, some error)]
  | unopened (access : Nat) (status : Int) :
      Operation name start [(.lookupSize name, none), (.lookupSid name, none),
        (.openPolicy access, some status), (.statusToError status, none)]
  | opened (access : Nat) {calls : List (LsaCall × Option Int)} (hwork : Work (start + 2) calls) :
      Operation name start ([(.lookupSize name, none), (.lookupSid name, none),
        (.openPolicy access, none)] ++ calls ++ [(.closePolicy (start + 2), none)])

variable {name : String} {start : Nat} {calls : List (LsaCall × Option Int)}

theorem Operation.balanced (hcalls : Operation name start calls) :
    Balanced (numbered start calls) := by
  cases hcalls with
  | idle => exact balanced_nil
  | unsized error => constructor <;> simp [numbered, Opens, Enumerates, LsaCall.handle?]
  | missing error => constructor <;> simp [numbered, Opens, Enumerates, LsaCall.handle?]
  | unopened access status => constructor <;> simp [numbered, Opens, Enumerates, LsaCall.handle?]
  | opened access hwork =>
      cases hwork with
      | unlisted => constructor <;> simp [numbered, Opens, Enumerates, LsaCall.handle?]
      | notListed status => constructor <;> simp [numbered, Opens, Enumerates, LsaCall.handle?]
      | listed => constructor <;> simp [numbered, Opens, Enumerates, LsaCall.handle?]
      | notAdded status hnames => constructor <;> simp [numbered, Opens, Enumerates, LsaCall.handle?, hnames]
      | added hnames => constructor <;> simp [numbered, Opens, Enumerates, LsaCall.handle?, hnames]

end Lsa

/-! ## What the code calls -/

/-- On the way from `h` to `h'` the calls were made, in this order. -/
def Host.Called (h : Host) (calls : List (LsaCall × Option Int)) (h' : Host) : Prop :=
  h'.journal.lsaAnswers = h.journal.lsaAnswers ++ calls

/-- The calls that a step makes on the host, however it ends, are such as `P` says. -/
def Host.Makes {α : Type} (P : List (LsaCall × Option Int) → Prop) (h : Host) (act : Run α) : Prop :=
  ∃ calls, P calls ∧ h.Called calls (act.hostAfter h)

namespace Host.Called

variable {h h' h'' : Host} {calls later : List (LsaCall × Option Int)}

theorem refl (h : Host) : h.Called [] h := (List.append_nil _).symm

theorem trans (hcalled : h.Called calls h') (hlater : h'.Called later h'') :
    h.Called (calls ++ later) h'' := by
  rw [Called, hlater, hcalled, List.append_assoc]

theorem count (hcalled : h.Called calls h') :
    h'.journal.lsaCalls.length = h.journal.lsaCalls.length + calls.length := by
  simp [Journal.lsaCalls, show h'.journal.lsaAnswers = _ from hcalled]

end Host.Called

namespace Lsa

variable {α β : Type} {P : List (LsaCall × Option Int) → Prop} {h : Host}

section
variable {call : LsaCall} {answer : Host → Nat → LsaAnswer α} {next : α → Run β}

/-- After a call the rest goes on with the answer, on a host that has the call written down. -/
theorem ends_callLsa_bind {Q : EStateM.Result Fault Host β → Prop}
    (hnext : ∀ h', h.Called [(call, (answer h h.journal.lsaCalls.length).failure)] h' →
      Q (next (answer h h.journal.lsaCalls.length).value h')) :
    Q ((callLsa call answer >>= next) h) :=
  hnext _ (by simp [Host.Called, Journal.lsaAnswers])

/-- A call is made, and then what the rest makes. -/
theorem makes_callLsa_bind
    (hnext : ∀ h' : Host, h'.Makes
      (fun later => P ((call, (answer h h.journal.lsaCalls.length).failure) :: later))
      (next (answer h h.journal.lsaCalls.length).value)) :
    h.Makes P (callLsa call answer >>= next) := by
  have hcalled : h.Called [(call, (answer h h.journal.lsaCalls.length).failure)]
      ((callLsa call answer).hostAfter h) := by
    simp [Host.Called, hostAfter, callLsa, Journal.lsaAnswers]
  obtain ⟨later, hcalls, hlater⟩ := hnext ((callLsa call answer).hostAfter h)
  exact ⟨_, hcalls, hcalled.trans hlater⟩

end

theorem makes_pure {a : α} (hnone : P []) : h.Makes P (pure a : Run α) := ⟨[], hnone, .refl h⟩

/-- What follows without a call adds none. -/
theorem makes_bind_quiet {act : Run α} {next : α → Run β} (hact : h.Makes P act)
    (hnext : ∀ a, Leads (SameBy fun h => h.journal.lsaAnswers) (next a)) :
    h.Makes P (act >>= next) := by
  obtain ⟨calls, hcalls, hcalled⟩ := hact
  exact ⟨calls, hcalls, (view_hostAfter_bind hnext act h).trans hcalled⟩

theorem quiet_log (level : LogLevel) (source : LogSource) (message : String) :
    Leads (SameBy fun h => h.journal.lsaAnswers) (Run.log level source message) := fun h => by
  simp [SameBy, hostAfter, log_apply, Host.logged, Host.noted, Journal.lsaAnswers]

/-- A status that is no success fails, after it was asked what it stands for. -/
theorem called_check {status : Int} (hne : status ≠ success) (call : String) (name : Option String)
    (h : Host) : ∃ e h', check status call name h = .error e h' ∧
      h.Called [(.statusToError status, none)] h' := by
  unfold check
  rw [if_neg hne]
  exact ends_callLsa_bind (Q := fun result => ∃ e h', result = .error e h' ∧
    h.Called [(.statusToError status, none)] h') fun h' hcalled => ⟨_, h', rfl, hcalled⟩

/-- A status lets the rest be made if it is success, and else is asked what it stands for. -/
theorem makes_check_bind {status : Int} {call : String} {name : Option String} {next : Unit → Run β}
    (hsuccess : status = success → h.Makes P (next ()))
    (hfailed : status ≠ success → P [(.statusToError status, none)]) :
    h.Makes P (check status call name >>= next) := by
  by_cases hstatus : status = success
  · obtain ⟨calls, hcalls, hcalled⟩ := hsuccess hstatus
    rw [hstatus]
    exact ⟨calls, hcalls, hcalled⟩
  · obtain ⟨e, h', hchecked, hcalled⟩ := called_check hstatus call name h
    rw [Host.Makes, hostAfter_of_error (bind_apply_of_error hchecked _)]
    exact ⟨_, hfailed hstatus, hcalled⟩

/-- How the look-up of an account ends. -/
inductive LookupEnds (name : String) (h : Host) : EStateM.Result Fault Host Unit → Prop where
  | unsized {e : Fault} {h' : Host} (error : Int)
      (hcalled : h.Called [(.lookupSize name, some error)] h') : LookupEnds name h (.error e h')
  | missing {e : Fault} {h' : Host} (error : Int)
      (hcalled : h.Called [(.lookupSize name, none), (.lookupSid name, some error)] h') :
      LookupEnds name h (.error e h')
  | found {h' : Host}
      (hcalled : h.Called [(.lookupSize name, none), (.lookupSid name, none)] h') :
      LookupEnds name h (.ok () h')

theorem lookupEnds_lookupAccount (name : String) (h : Host) :
    LookupEnds name h (lookupAccount name h) := by
  unfold lookupAccount
  refine ends_callLsa_bind (Q := LookupEnds name h) fun h₁ hcalled => ?_
  dsimp only at hcalled ⊢
  generalize h.lsa.sizeError h.journal.lsaCalls.length h.lsaAccounts name = error at hcalled
  by_cases hnone : error = noneMapped
  · rw [if_neg (by rw [hnone]; decide)] at hcalled
    rw [if_pos hnone]
    exact .unsized error hcalled
  rw [if_neg hnone]
  by_cases hsize : error = insufficientBuffer
  · rw [if_pos hsize] at hcalled
    rw [if_neg (not_not_intro hsize)]
    refine ends_callLsa_bind (Q := LookupEnds name h) fun h₂ hcalled' => ?_
    dsimp only at hcalled' ⊢
    cases hsid : h₁.lsa.sidError h₁.journal.lsaCalls.length h₁.lsaAccounts name with
    | some error =>
        rw [hsid] at hcalled'
        exact .missing error (hcalled.trans hcalled')
    | none =>
        rw [hsid] at hcalled'
        exact .found (hcalled.trans hcalled')
  · rw [if_neg hsize] at hcalled
    rw [if_pos hsize]
    exact .unsized error hcalled

/-- How opening the policy ends. -/
inductive OpenEnds (access : Nat) (h : Host) : EStateM.Result Fault Host Nat → Prop where
  | refused {e : Fault} {h' : Host} (status : Int)
      (hcalled : h.Called [(.openPolicy access, some status), (.statusToError status, none)] h') :
      OpenEnds access h (.error e h')
  | opened {h' : Host} (hcalled : h.Called [(.openPolicy access, none)] h') :
      OpenEnds access h (.ok h.journal.lsaCalls.length h')

theorem openEnds_openPolicy (access : Nat) (h : Host) :
    OpenEnds access h (openPolicy access h) := by
  unfold openPolicy
  refine ends_callLsa_bind (Q := OpenEnds access h) fun h₁ hcalled => ?_
  dsimp only at hcalled ⊢
  generalize h.lsa.openStatus h.journal.lsaCalls.length access = status at hcalled
  by_cases hstatus : status = success
  · rw [failureOf, if_pos hstatus] at hcalled
    rw [hstatus, bind_apply_of_ok (check_success _ _ _)]
    exact .opened hcalled
  · rw [failureOf, if_neg hstatus] at hcalled
    obtain ⟨e, h₂, hchecked, hcalled'⟩ := called_check hstatus "LsaOpenPolicy" none h₁
    rw [bind_apply_of_error hchecked]
    exact .refused status (hcalled.trans hcalled')

section
variable {work : Nat → Run α} (hwork : ∀ n (h : Host), h.Makes (Work n) (work n))
include hwork

/-- Whatever the work calls, and however it ends, the handle is closed. -/
theorem makes_withPolicy (access : Nat) (h : Host) :
    h.Makes (fun calls =>
        (∃ status, calls = [(.openPolicy access, some status), (.statusToError status, none)]) ∨
        ∃ inner, Work h.journal.lsaCalls.length inner ∧
          calls = (.openPolicy access, none) :: inner ++
            [(.closePolicy h.journal.lsaCalls.length, none)])
      (withPolicy access work) := by
  have hends := openEnds_openPolicy access h
  cases hopened : openPolicy access h with
  | error e h₁ =>
      rw [hopened] at hends
      have hfailed : withPolicy access work h = .error e h₁ := bind_apply_of_error hopened _
      cases hends with
      | refused status hcalled =>
          rw [Host.Makes, hostAfter_of_error hfailed]
          exact ⟨_, .inl ⟨status, rfl⟩, hcalled⟩
  | ok handle h₁ =>
      rw [hopened] at hends
      cases hends with
      | opened hcalled =>
          obtain ⟨inner, hinner, hworked⟩ := hwork h.journal.lsaCalls.length h₁
          refine ⟨_, .inr ⟨inner, hinner, rfl⟩, (hcalled.trans hworked).trans ?_⟩
          cases hended : work h.journal.lsaCalls.length h₁ with
          | ok a h₂ =>
              rw [hostAfter_of_ok hended, hostAfter_of_ok (withPolicy_of_ok hopened hended)]
              simp [Host.Called, Host.noted, Journal.lsaAnswers]
          | error e h₂ =>
              rw [hostAfter_of_error hended, hostAfter_of_error (withPolicy_of_error hopened hended)]
              simp [Host.Called, Host.noted, Journal.lsaAnswers]

/-- The account is looked up, and only if it was found the policy is opened. -/
theorem makes_lookupAccount_bind (name : String) (access : Nat) (h : Host) :
    h.Makes (Operation name h.journal.lsaCalls.length)
      (lookupAccount name >>= fun _ => withPolicy access work) := by
  have hends := lookupEnds_lookupAccount name h
  cases hlooked : lookupAccount name h with
  | error e h₁ =>
      rw [hlooked] at hends
      rw [Host.Makes, hostAfter_of_error (bind_apply_of_error hlooked _)]
      cases hends with
      | unsized error hcalled => exact ⟨_, .unsized error, hcalled⟩
      | missing error hcalled => exact ⟨_, .missing error, hcalled⟩
  | ok u h₁ =>
      rw [hlooked] at hends
      rw [Host.Makes, hostAfter_bind_of_ok hlooked]
      cases hends with
      | found hcalled =>
          obtain ⟨calls, ⟨status, rfl⟩ | ⟨inner, hinner, rfl⟩, hopened⟩ :=
            makes_withPolicy hwork access h₁
          · exact ⟨_, .unopened access status, hcalled.trans hopened⟩
          · rw [hcalled.count] at hinner hopened
            exact ⟨_, .opened access hinner, hcalled.trans hopened⟩

end

theorem makes_accountRights (name : String) (h : Host) :
    h.Makes (Operation name h.journal.lsaCalls.length) (accountRights name) := by
  refine makes_lookupAccount_bind (fun n h => ?_) name lookupNames h
  refine makes_callLsa_bind fun h₁ => ?_
  dsimp only
  generalize h.lsa.listRights h.journal.lsaCalls.length h.lsaAccounts name = listed
  by_cases hnone : listed.1 = nameNotFound
  · rw [if_pos hnone, hnone]
    exact makes_pure .unlisted
  rw [if_neg hnone]
  refine makes_check_bind (fun hstatus => ?_) fun hstatus => ?_
  · refine makes_callLsa_bind fun h₂ => makes_pure ?_
    rw [failureOf, if_pos hstatus]
    exact .listed
  · rw [failureOf, if_neg hstatus]
    exact .notListed listed.1

theorem makes_addAccountRights (name : String) {privileges : PrivilegeSet}
    (hne : privileges.isEmpty = false) (h : Host) :
    h.Makes (Operation name h.journal.lsaCalls.length) (addAccountRights name privileges) := by
  have hnames : (handed privileges.constants).map CountedText.text ≠ [] := fun hnil =>
    handed_ne_nil hne (List.map_eq_nil_iff.1 hnil)
  unfold addAccountRights
  rw [hne, if_neg Bool.false_ne_true, ← bind_assoc]
  refine makes_bind_quiet (makes_lookupAccount_bind (fun n h => ?_) name _ h) fun _ => quiet_log _ _ _
  refine makes_callLsa_bind fun h₁ => ?_
  dsimp only
  rw [← bind_pure (check _ _ _)]
  refine makes_check_bind (fun hstatus => makes_pure ?_) fun hstatus => ?_
  · rw [failureOf, if_pos hstatus]
    exact .added hnames
  · rw [failureOf, if_neg hstatus]
    exact .notAdded _ hnames

/-- For no privileges no call is made. -/
theorem makes_addAccountRights_of_isEmpty (name : String) {privileges : PrivilegeSet}
    (hempty : privileges.isEmpty = true) (h : Host) :
    h.Makes (· = []) (addAccountRights name privileges) := by
  unfold addAccountRights
  rw [if_pos hempty]
  exact makes_pure rfl

end Lsa

/-! ## Any operations -/

/-- An operation of a security policy. -/
inductive PolicyCall where
  | rights (name : String)
  | add (name : String) (privileges : PrivilegeSet)

namespace PolicyCall

/-- The account that the operation is on. -/
def account : PolicyCall → String
  | .rights name => name
  | .add name _ => name

end PolicyCall

namespace SecurityPolicy

/-- Perform an operation, giving the privileges that were asked for. -/
def perform (policy : SecurityPolicy) : PolicyCall → Run (Option PrivilegeSet)
  | .rights name => do
    let held ← policy.accountRights name
    return some held
  | .add name privileges => do
    policy.addAccountRights name privileges
    return none

/-- The calls of one operation of the policy, as it comes to the service. -/
theorem makes_perform (c : PolicyCall) (h : Host) :
    h.Makes (fun calls => Lsa.Operation c.account h.journal.lsaCalls.length calls ∧
      ∀ name, c = .add name {} → calls = []) (perform .lsa c) := by
  cases c with
  | rights name =>
      obtain ⟨calls, hcalls, hcalled⟩ := Lsa.makes_accountRights name h
      exact Lsa.makes_bind_quiet ⟨calls, ⟨hcalls, nofun⟩, hcalled⟩ fun _ => leads_pure _
  | add name privileges =>
      refine Lsa.makes_bind_quiet ?_ fun _ => leads_pure _
      let asked := h.noted (.requested (.addPrivileges name privileges))
      have hasked : asked.journal.lsaAnswers = h.journal.lsaAnswers := by
        simp [asked, Host.noted, Journal.lsaAnswers]
      cases hempty : privileges.isEmpty with
      | true =>
          obtain ⟨calls, rfl, hcalled⟩ := Lsa.makes_addAccountRights_of_isEmpty name hempty asked
          rw [Host.Called, hasked] at hcalled
          exact ⟨[], ⟨.idle, fun _ _ => rfl⟩, hcalled⟩
      | false =>
          obtain ⟨calls, hcalls, hcalled⟩ := Lsa.makes_addAccountRights name hempty asked
          rw [Journal.lsaCalls, hasked] at hcalls
          rw [Host.Called, hasked] at hcalled
          refine ⟨calls, ⟨hcalls, fun name' hnone => ?_⟩, hcalled⟩
          cases hnone
          cases hempty

theorem grows_perform (c : PolicyCall) : Leads (Host.Grows fun _ => True) (perform .lsa c) := by
  cases c with
  | rights name => exact (steady_accountRights .lsa name).bind fun _ => leads_pure _
  | add name privileges =>
      exact (steady_addAccountRights allowsPrivileges_grows .lsa (allows_grows trivial)).bind
        fun _ => leads_pure _

/-- What is written down of the service during a round are the calls of its operation. -/
theorem operation_roundOn (c : PolicyCall) (h : Host) :
    (Lsa.Operation c.account h.journal.lsaCalls.length
        (roundOn (perform .lsa) c h).own.lsaAnswers ∧
      ∀ name, c = .add name {} → (roundOn (perform .lsa) c h).own.lsaAnswers = []) ∧
      h.Called (roundOn (perform .lsa) c h).own.lsaAnswers (roundOn (perform .lsa) c h).after := by
  obtain ⟨calls, hcalls, hcalled⟩ := makes_perform c h
  have hown : (roundOn (perform .lsa) c h).own.lsaAnswers = calls :=
    filterMap_own _ (grows_perform c) hcalled
  rw [hown]
  exact ⟨hcalls, hcalled⟩

/-- The calls of the service during some operations, in order. -/
def callsOf (cs : List PolicyCall) (h : Host) : List (LsaCall × Option Int) :=
  (rounds (perform .lsa) cs h).flatMap fun r => r.own.lsaAnswers

theorem balanced_callsOf (cs : List PolicyCall) (h : Host) :
    MadeCall.Balanced (MadeCall.numbered h.journal.lsaCalls.length (callsOf cs h)) := by
  induction cs generalizing h with
  | nil => exact MadeCall.balanced_nil
  | cons c cs ih =>
      obtain ⟨⟨hcalls, -⟩, hcalled⟩ := operation_roundOn c h
      have hlater := ih (roundOn (perform .lsa) c h).after
      rw [hcalled.count] at hlater
      have hcons : callsOf (c :: cs) h = (roundOn (perform .lsa) c h).own.lsaAnswers ++
          callsOf cs (roundOn (perform .lsa) c h).after := rfl
      rw [hcons, MadeCall.numbered_append]
      refine hcalls.balanced.append hlater fun d hd e he => ?_
      exact Nat.lt_of_lt_of_le (MadeCall.number_of_mem hd).2 (MadeCall.number_of_mem he).1

/-- **What is opened is closed.**  The calls that any operations of the policy make are in balance,
whatever the service answers to each of them; every operation makes its own, on its own handle, and
adding nothing makes none. -/
theorem handles_balanced (cs : List PolicyCall) (h : Host) :
    (hostAfterAll (perform .lsa) cs h).journal.lsaAnswers =
        h.journal.lsaAnswers ++ callsOf cs h ∧
      MadeCall.Balanced (MadeCall.numbered h.journal.lsaCalls.length (callsOf cs h)) ∧
      ∀ r ∈ rounds (perform .lsa) cs h,
        Lsa.Operation r.call.account r.before.journal.lsaCalls.length r.own.lsaAnswers ∧
          ∀ name, r.call = .add name {} → r.own.lsaAnswers = [] := by
  refine ⟨filterMap_hostAfterAll _ grows_perform cs h, balanced_callsOf cs h, fun r hr => ?_⟩
  rw [(of_mem_rounds hr).2]
  exact (operation_roundOn r.call r.before).1

/-- Nothing is listed for carol, and what is listed for bob is freed. -/
example :
    (callsOf [.rights "carol", .rights "nobody", .add "bob" {}, .rights "bob"]
      { lsa := .plain, lsaAccounts := ⟨[("bob", ["SeTcbPrivilege"]), ("carol", [])]⟩ }).map Prod.fst =
      [.lookupSize "carol", .lookupSid "carol", .openPolicy Lsa.lookupNames, .enumerateRights 2,
        .closePolicy 2, .lookupSize "nobody", .lookupSize "bob", .lookupSid "bob",
        .openPolicy Lsa.lookupNames, .enumerateRights 8, .freeMemory, .closePolicy 8] := by
  decide +kernel

end SecurityPolicy

end Provisioning
