/-
# `Provisioning.Proofs.Secrecy.Command` — two commands that differ in the password

A command line names the password among the fields of the request.  A password
that is a text is never what is wrong with those fields: it is taken as it is,
and every other field is read as if it were not there.  So two command lines
that differ in the password make requests that differ in the password, or are
complained about in the same words.

    command line          settings                     request
    --password q    ↦     password := q          ↦     r.withPassword q
    --password q'   ↦     password := q'         ↦     r.withPassword q'

From there the two runs go alike (`Orchestrator.endsAlike_run`), and what the
command says of a run is made of the report and of the log, neither of which
tells them apart.  Where a refusal came from is shown in the log, with what it
was made from: the two runs are refused with the same, after the same.

**Proved here.**  Whatever an operator sees of a run, or of the command, and
whatever is left on the host but the password of the account that was created,
is the same for every password (`password_not_seen`), with every runtime.
-/
import Provisioning.Proofs.CommandLine.Request
import Provisioning.Proofs.Secrecy.Run

namespace Provisioning

/-! ## The requests that two command lines make -/

namespace CommandLine

open Schema

/-- The settings are the same but for the password, which is a text and not empty in both. -/
structure Settings.Twin (s s' : Settings) : Prop where
  same : s' = { s with password := s'.password }
  given : ∃ q : String, q ≠ "" ∧ s.password = .text q
  given' : ∃ q : String, q ≠ "" ∧ s'.password = .text q

/-- The command lines make requests that differ in the password, or have the same things wrong. -/
theorem Settings.Twin.request_cases {s s' : Settings} (twin : s.Twin s') :
    (∃ request request' : Request, s.request .windows = .ok request ∧
      s'.request .windows = .ok request' ∧ request.Twin request') ∨
    ∃ issues, (∀ i ∈ issues, ∃ name, name ≠ "password" ∧ i = .inField name .stringType) ∧
      s.request .windows = .error (.invalid "ProvisioningRequest" issues) ∧
      s'.request .windows = .error (.invalid "ProvisioningRequest" issues) := by
  obtain ⟨q, hq, hpassword⟩ := twin.given
  obtain ⟨q', hq', hpassword'⟩ := twin.given'
  have hread : ∀ t : String, (optional aLaxCredential (.text t)).within "password" =
      .good (some ⟨t⟩) := fun _ => rfl
  unfold request
  dsimp only
  unfold request?
  rw [readRequest_requestFields, readRequest_requestFields, twin.same, hpassword, hpassword',
    hread, hread]
  dsimp only
  have hcreate : "create_user" ≠ "password" := by decide
  have huser : "user" ≠ "password" := by decide
  obtain ⟨c, hc⟩ | hc := optionalText_cases "create_user" s.createUser <;>
    obtain ⟨u, hu⟩ | hu := optionalText_cases "user" s.user <;> rw [hc, hu]
  · exact .inl ⟨_, _, rfl, rfl, rfl, bne_iff_ne.2 hq, bne_iff_ne.2 hq'⟩
  · exact .inr ⟨_, by simpa using ⟨_, huser, rfl⟩, rfl, rfl⟩
  · exact .inr ⟨_, by simpa using ⟨_, hcreate, rfl⟩, rfl, rfl⟩
  · exact .inr ⟨_, by simpa using ⟨⟨_, hcreate, rfl⟩, ⟨_, huser, rfl⟩⟩, rfl, rfl⟩

/-! ## What the command says -/

/-- What is said of an issue with another field. -/
theorem issueText_eq (runtime : Runtime) {s s' : Settings} (twin : s.Twin s') {name : String}
    (hname : name ≠ "password") (kind : IssueKind) :
    issueText runtime s'.requestFields (.inField name kind) =
      issueText runtime s.requestFields (.inField name kind) := by
  have hfield : fieldOf? name s'.requestFields = fieldOf? name s.requestFields := by
    rw [twin.same]
    unfold fieldOf? Settings.requestFields
    simp only [List.lookup_cons, beq_false_of_ne hname]
  unfold issueText
  dsimp only [Issue.inField]
  rw [hfield]

/-- The complaints are the same. -/
theorem invalidRequestText_eq (runtime : Runtime) {s s' : Settings} (twin : s.Twin s')
    {issues : List Issue}
    (hissues : ∀ i ∈ issues, ∃ name, name ≠ "password" ∧ i = .inField name .stringType)
    (model : String) :
    invalidRequestText runtime model s'.requestFields issues =
      invalidRequestText runtime model s.requestFields issues := by
  have htexts : (issues.map fun i => "\n" ++ issueText runtime s'.requestFields i) =
      issues.map fun i => "\n" ++ issueText runtime s.requestFields i := by
    refine List.map_congr_left fun i hi => ?_
    obtain ⟨name, hname, rfl⟩ := hissues i hi
    rw [issueText_eq runtime twin hname]
  unfold invalidRequestText
  rw [htexts]

/-- The performances cannot be told apart, and leave hosts that are twins. -/
structure Performance.Alike (new : String → Prop) (P P' : Performance) : Prop where
  ending : P'.ending = P.ending
  output : P'.output = P.output
  errorOutput : P'.errorOutput = P.errorOutput
  host : P.host.Twin new P'.host

section
variable {new : String → Prop} {r r' : EStateM.Result Fault Session Report}

theorem journal_eq_of_twin {h h' : Host} (twin : h.Twin new h') : h'.journal = h.journal := by
  obtain ⟨t, rfl, -⟩ := twin
  rfl

theorem conclude_alike (runtime : Runtime)
    (h : EndsAlike Report.Twin (Session.Twin new) r r') :
    (conclude runtime r).1.Twin new (conclude runtime r').1 ∧
      (conclude runtime r').2 = (conclude runtime r).2 := by
  have hnoted : ∀ {s s' : Session} (events : List Event), s.Twin new s' →
      (conclude.noted s events).Twin new (conclude.noted s' events) := by
    rintro ⟨h, _⟩ ⟨_, _⟩ events ⟨⟨t, rfl, twin⟩, -⟩
    exact ⟨t, rfl, twin⟩
  cases h with
  | @ok R R' s s' hreport hsession =>
      have hprint : s'.host.outputFailure = s.host.outputFailure := by
        obtain ⟨⟨t, heq, -⟩, -⟩ := hsession
        rw [heq]
      unfold conclude
      dsimp only
      rw [hreport.summary_eq, hprint]
      cases s.host.outputFailure (R.summary ++ "\n") with
      | none => exact ⟨hnoted _ hsession, rfl⟩
      | some f => exact ⟨hsession.host, rfl⟩
  | @error e s s' hsession =>
      cases e with
      | refused refusal =>
          have hrestart : s'.report.any Report.restartRequired =
              s.report.any Report.restartRequired := by
            have hany : ∀ report : Option Report, report.any Report.restartRequired =
                (report.map Report.restartRequired).any id := fun report => by
              cases report <;> rfl
            rw [hany, hsession.map_eq fun _ => rfl, ← hany]
          have htext : refusalText refusal s'.report = refusalText refusal s.report := by
            unfold refusalText
            rw [hrestart]
          -- where a refusal came from is told by what had happened until then
          have hrecord : runFailed runtime refusal s' = runFailed runtime refusal s := by
            unfold runFailed
            rw [journal_eq_of_twin hsession.host]
          unfold conclude
          dsimp only
          rw [htext, hrecord]
          split
          · exact ⟨hnoted _ hsession, rfl⟩
          · exact ⟨hnoted _ hsession, rfl⟩
      | interrupted => exact ⟨hnoted _ hsession, rfl⟩
      | system e => exact ⟨hnoted _ hsession, rfl⟩
      | _ => exact ⟨hsession.host, rfl⟩

theorem performance_alike {verbose : Bool} {before after after' : Host} {ending : Ending}
    (twin : after.Twin new after') :
    Performance.Alike new (performance verbose before after ending)
      (performance verbose before after' ending) := by
  obtain ⟨t, rfl, ht⟩ := twin
  exact ⟨rfl, rfl, rfl, t, rfl, ht⟩

/-- A command that leaves at once, saying the same. -/
theorem leave_alike (h : Host) (status : Nat) (output errorOutput : String) :
    Performance.Alike new (leave h status output errorOutput)
      (leave h status output errorOutput) :=
  ⟨rfl, rfl, rfl, .refl new h⟩

end

/-- What a command runs its request with. -/
def driver (settings : Settings) (confirmation : Confirmation) : Orchestrator :=
  { capability := .windows .table .table .table
    config := { assumeYes := settings.yes }
    confirmation := some confirmation }

/-- The accounts that a command may create. -/
def Creates (settings : Settings) (confirmation : Confirmation) (h : Host) (name : String) : Prop :=
  ∃ request, settings.request .windows = .ok request ∧
    (driver settings confirmation).Creates request ⟨h, none⟩ name

theorem creates_of_request {settings : Settings} {request : Request}
    (hrequest : settings.request .windows = .ok request) (confirmation : Confirmation) (h : Host) :
    Creates settings confirmation h = (driver settings confirmation).Creates request ⟨h, none⟩ := by
  unfold Creates
  rw [hrequest]
  funext name
  exact propext ⟨fun ⟨_, heq, hname⟩ => Except.ok.inj heq ▸ hname, fun hname => ⟨_, rfl, hname⟩⟩

/-- Two commands on one host whose command lines differ in the password alone. -/
theorem perform_alike {runtime : Runtime} {argv argv' : List String}
    {settings settings' : Settings} (hargv : parse runtime .windows argv = .ok settings)
    (hargv' : parse runtime .windows argv' = .ok settings') (twin : settings.Twin settings') (confirmation : Confirmation) (h : Host) :
    Performance.Alike (Creates settings confirmation h)
      (perform runtime argv (some (.windows .table .table .table)) confirmation h)
      (perform runtime argv' (some (.windows .table .table .table)) confirmation h) := by
  let c : Option Capability := some (.windows .table .table .table)
  obtain ⟨request, request', hrequest, hrequest', hrequests⟩ | ⟨issues, hissues, hbad, hbad'⟩ :=
    twin.request_cases
  · have hverbose : settings'.verbose = settings.verbose := by rw [twin.same]
    have hyes : settings'.yes = settings.yes := by rw [twin.same]
    have hends : EndsAlike Report.Twin
        (Session.Twin ((driver settings confirmation).Creates request ⟨h, none⟩))
        (runRequest c { assumeYes := settings.yes } confirmation request ⟨h, none⟩)
        (runRequest c { assumeYes := settings.yes } confirmation request' ⟨h, none⟩) :=
      Orchestrator.endsAlike_run (o := driver settings confirmation) rfl hrequests ⟨h, none⟩
    obtain ⟨hhost, hending⟩ := conclude_alike runtime hends
    rw [creates_of_request hrequest, perform_of_request (c := c) (h := h) hargv hrequest,
      perform_of_request (c := c) (h := h) hargv' hrequest', hverbose, hyes, hending]
    exact performance_alike hhost
  · rw [perform_of_invalid (c := c) (h := h) hargv hbad,
      perform_of_invalid (c := c) (h := h) hargv' hbad', invalidRequestText_eq runtime twin hissues]
    exact leave_alike _ _ _ _

end CommandLine

/-! ## The password is not seen -/

/-- The reports read the same, in every form. -/
structure Report.ReadsAlike (R R' : Report) : Prop where
  inspect : R'.inspect = R.inspect
  summary : R'.summary = R.summary
  dump : R'.dump = R.dump

/-- The hosts are twins, and the reports that are kept read the same. -/
structure Session.LooksAlike (new : String → Prop) (s s' : Session) : Prop where
  host : s.host.Twin new s'.host
  inspect : s'.report.map Report.inspect = s.report.map Report.inspect
  summary : s'.report.map Report.summary = s.report.map Report.summary
  dump : s'.report.map Report.dump = s.report.map Report.dump

theorem Report.Twin.readsAlike {R R' : Report} (twin : R.Twin R') : R.ReadsAlike R' :=
  ⟨twin.inspect_eq, twin.summary_eq, twin.dump_eq⟩

theorem Session.Twin.looksAlike {new : String → Prop} {s s' : Session} (twin : s.Twin new s') :
    s.LooksAlike new s' :=
  ⟨twin.host, twin.map_eq Report.inspect_erased, twin.map_eq Report.summary_erased,
    twin.map_eq Report.dump_erased⟩

open CommandLine

/-- **The password is not seen.**  Two runs of requests, or of command lines, that differ in the
password alone end alike: in reports that read the same or in one and the same failure, having
asked, logged and printed the same, and on hosts that are the same but for the password of an
account that the run created.  What the log shows of where a failure came from is the same too. -/
theorem password_not_seen :
    (∀ (o : Orchestrator) (request request' : Request) (s : Session), o.OnTables →
      request.Twin request' →
      request'.inspect = request.inspect ∧
        EndsAlike Report.ReadsAlike (Session.LooksAlike (o.Creates request s)) (o.run request s)
          (o.run request' s)) ∧
    ∀ (runtime : Runtime) (argv argv' : List String) (settings settings' : Settings)
      (confirmation : Confirmation) (h : Host), parse runtime .windows argv = .ok settings →
      parse runtime .windows argv' = .ok settings' → settings.Twin settings' →
      Performance.Alike (Creates settings confirmation h)
        (perform runtime argv (some (.windows .table .table .table)) confirmation h)
        (perform runtime argv' (some (.windows .table .table .table)) confirmation h) := by
  refine ⟨fun o request request' s htables twin => ⟨twin.inspect_eq, ?_⟩,
    fun runtime argv argv' settings settings' confirmation h hargv hargv' twin =>
      perform_alike hargv hargv' twin confirmation h⟩
  exact (Orchestrator.endsAlike_run htables twin s).imp (fun _ _ => Report.Twin.readsAlike)
    fun _ _ => Session.Twin.looksAlike

/-- A new account that is also the runner, in capital letters, as a request and on the command line;
the directory that it is to have is denied.  The log is shown, and in it the whole chain of failures
from which the refusal came. -/
theorem password_not_seen_carol :
    let h : Host :=
      { accounts := .ofNames [] "operator"
        access := { denied := ["/srv"] }
        tree := .ofRows [(Path.ofString "/srv", {})] }
    let o : Orchestrator := { capability := .windows .table .table .table }
    let request (q : String) : Request :=
      { createUser := some "carol", password := some ⟨q⟩, runnerRequested := true,
        runner := some "CAROL", directories := ["/srv"] }
    let runtime : Runtime :=
      { traceback := fun r _ => ((r.cause.map Cause.message).getD "") ++ "\n" ++ r.message }
    let argv (q : String) : List String :=
      ["-v", "--create-user", "carol", "--password", q, "--runner", "CAROL", "--dir", "/srv"]
    let settings (q : String) : Settings :=
      { createUser := .text "carol", password := .text q, runner := some "CAROL",
        directories := ["/srv"], verbose := true }
    let ask := askOnTerminal (.text "yes\n")
    (EndsAlike Report.ReadsAlike (Session.LooksAlike (o.Creates (request "hunter2") ⟨h, none⟩))
        (o.run (request "hunter2") ⟨h, none⟩) (o.run (request "S3cret!") ⟨h, none⟩)) ∧
      parse runtime .windows (argv "hunter2") = .ok (settings "hunter2") ∧
      parse runtime .windows (argv "S3cret!") = .ok (settings "S3cret!") ∧
      Performance.Alike (Creates (settings "hunter2") ask h)
        (perform runtime (argv "hunter2") (some (.windows .table .table .table)) ask h)
        (perform runtime (argv "S3cret!") (some (.windows .table .table .table)) ask h) := by
  intro h o request runtime argv settings ask
  have hrequests : (request "hunter2").Twin (request "S3cret!") := ⟨rfl, by decide, by decide⟩
  have hsettings : (settings "hunter2").Twin (settings "S3cret!") :=
    ⟨rfl, ⟨_, by decide, rfl⟩, ⟨_, by decide, rfl⟩⟩
  have hdirectories : splitDirectories "/srv" = ["/srv"] := by decide
  have hparse : ∀ q, wordsOf Platform.windows.spellings (argv q) =
      .ok [(.option (some .verbose) "-v" none, "-v"),
        (.option (some .createUser) "--create-user" none, "--create-user"), (.value, "carol"),
        (.option (some .password) "--password" none, "--password"), (.value, q),
        (.option (some .runner) "--runner" none, "--runner"), (.value, "CAROL"),
        (.option (some .dir) "--dir" none, "--dir"), (.value, "/srv")] →
      parse runtime .windows (argv q) = .ok (settings q) := by
    intro q hwords
    rw [parse, hwords]
    simp [meet, metIn, takeValue, Flag.arity, Settings.setAll, Settings.set, Settings.datumOf,
      hdirectories, bind, Except.bind, pure, Except.pure, settings]
  have hargv := hparse "hunter2" rfl
  have hargv' := hparse "S3cret!" rfl
  exact ⟨(password_not_seen.1 o _ _ ⟨h, none⟩ rfl hrequests).2, hargv, hargv',
    password_not_seen.2 runtime _ _ _ _ ask h hargv hargv' hsettings⟩

end Provisioning
