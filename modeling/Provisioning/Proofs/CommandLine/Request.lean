/-
# `Provisioning.Proofs.CommandLine.Request` — the request that a command line makes

The settings read off a command line are the fields of a record, and the
record is read like any other.  Most of its fields cannot be wrong; what is
named by the account options can, if nothing was named:

    create_user  password  user        a text or absent, or wrong as a whole
    the other fields                   as they were set

So a command line makes a request without a group or an owner of one, in which
the runner has a name if it is named at all, or it is complained about.
-/
import Provisioning.CommandLine.Perform

namespace Provisioning

namespace Schema

/-- A text that may be absent is read, or is wrong as a whole. -/
theorem optionalText_cases (name : String) (d : Datum) :
    (∃ t, (optional aText d).within name = .good t) ∨
      (optional aText d).within name = .bad [.inField name .stringType] := by
  cases d <;> first | exact .inl ⟨_, rfl⟩ | exact .inr rfl

/-- A password that may be absent is read, or is wrong as a whole. -/
theorem optionalCredential_cases (name : String) (d : Datum) :
    (∃ c, (optional aLaxCredential d).within name = .good c) ∨
      ∃ issues, (optional aLaxCredential d).within name = .bad issues := by
  cases d <;> first | exact .inl ⟨_, rfl⟩ | exact .inr ⟨_, rfl⟩

/-- Texts are read as they are. -/
theorem itemsFrom_texts (index : Nat) (xs : List String) :
    itemsFrom aText index (xs.map .text) = .good xs := by
  induction xs generalizing index with
  | nil => rfl
  | cons x xs ih =>
      rw [List.map_cons, itemsFrom, ih]
      rfl

end Schema

namespace CommandLine

open Schema

/-- The request with these accounts, and otherwise as the settings have it. -/
def Settings.requestWith (s : Settings) (createUser : Option String)
    (password : Option Credential) (user : Option String) : Request :=
  { createUser, password, user, runnerRequested := s.runner.isSome, runner := given s.runner,
    directories := s.directories,
    rights := if s.fullControl then .fullControl else .readWriteCreate,
    useSessionIdentity := s.currentUser }

/-- Only the accounts and the password can be wrong in what a command line says. -/
theorem readRequest_requestFields (s : Settings) :
    readRequest s.requestFields =
      s.requestWith <$> (optional aText s.createUser).within "create_user" <*>
        (optional aLaxCredential s.password).within "password" <*>
        (optional aText s.user).within "user" := by
  have hrunner : withDefault s.requestFields "runner" none (optional aText) =
      .good (given s.runner) := by
    show ((optional aText (.ofOption .text (given s.runner))).within "runner") = _
    cases given s.runner <;> rfl
  have hdirectories : withDefault s.requestFields "directories" [] (aLaxList aText) =
      .good s.directories := by
    show ((itemsFrom aText 0 (s.directories.map .text)).within "directories") = _
    rw [itemsFrom_texts]
    rfl
  have hrights : withDefault s.requestFields "rights" .readWriteCreate someLaxRights =
      .good (if s.fullControl then .fullControl else .readWriteCreate) := by
    show (someLaxRights
      (.rights (if s.fullControl then .fullControl else .readWriteCreate))).within "rights" = _
    cases s.fullControl <;> rfl
  have hcreate : withDefault s.requestFields "create_user" none (optional aText) =
      (optional aText s.createUser).within "create_user" := rfl
  have hpassword : withDefault s.requestFields "password" none (optional aLaxCredential) =
      (optional aLaxCredential s.password).within "password" := rfl
  have huser : withDefault s.requestFields "user" none (optional aText) =
      (optional aText s.user).within "user" := rfl
  unfold readRequest
  rw [hrunner, hdirectories, hrights, hcreate, hpassword, huser]
  cases (optional aText s.createUser).within "create_user" <;>
    cases (optional aLaxCredential s.password).within "password" <;>
    cases (optional aText s.user).within "user" <;> rfl

/-- A command line makes a request of its own accounts, or is wrong in the fields for these. -/
theorem readRequest_cases (s : Settings) :
    (∃ createUser password user,
      readRequest s.requestFields = .good (s.requestWith createUser password user)) ∨
    ∃ issues, readRequest s.requestFields = .bad issues := by
  rw [readRequest_requestFields]
  obtain ⟨c, hc⟩ | hc := optionalText_cases "create_user" s.createUser <;>
    obtain ⟨p, hp⟩ | ⟨ps, hp⟩ := optionalCredential_cases "password" s.password <;>
    obtain ⟨u, hu⟩ | hu := optionalText_cases "user" s.user <;> rw [hc, hp, hu] <;>
    first | exact .inl ⟨_, _, _, rfl⟩ | exact .inr ⟨_, rfl⟩

namespace Settings

variable {s : Settings} {platform : Platform}

/-- What no command line names is not named in the request, and no name that it names is empty. -/
theorem request_names {request : Request} (hrequest : s.request platform = .ok request) :
    request.runner ≠ some "" ∧ request.cgroupOwner = none ∧ request.cgroupGroup = none := by
  cases platform with
  | linux =>
      cases hrequest
      exact ⟨nofun, rfl, rfl⟩
  | windows =>
      have hread : (readRequest s.requestFields).toExcept "ProvisioningRequest" = .ok request :=
        hrequest
      obtain ⟨c, p, u, hgood⟩ | ⟨issues, hbad⟩ := readRequest_cases s
      · rw [hgood] at hread
        cases hread
        exact ⟨fun hempty => (given_eq_some_iff.1 hempty).2 rfl, rfl, rfl⟩
      · rw [hbad] at hread
        exact nomatch hread

/-- A command line makes no request only for what is wrong with its fields. -/
theorem request_error {e : Fault} (herror : s.request platform = .error e) :
    ∃ issues, e = .invalid "ProvisioningRequest" issues := by
  cases platform with
  | linux => exact nomatch herror
  | windows =>
      have hread : (readRequest s.requestFields).toExcept "ProvisioningRequest" = .error e :=
        herror
      obtain ⟨c, p, u, hgood⟩ | ⟨issues, hbad⟩ := readRequest_cases s
      · rw [hgood] at hread
        exact nomatch hread
      · rw [hbad] at hread
        cases hread
        exact ⟨issues, rfl⟩

end Settings

/-! ## The command, by the request -/

section
variable {runtime : Runtime} {argv : List String} {c : Option Capability} {h : Host}
  {settings : Settings}

/-- The command runs the request that it is given, and says what came of it. -/
theorem perform_of_request (hargv : parse runtime (platformOf c h) argv = .ok settings)
    {request : Request} (hrequest : settings.request (platformOf c h) = .ok request)
    (confirmation : Confirmation) :
    perform runtime argv c confirmation h =
      performance settings.verbose h
        (conclude runtime
          (runRequest c { assumeYes := settings.yes } confirmation request ⟨h, none⟩)).1
        (conclude runtime
          (runRequest c { assumeYes := settings.yes } confirmation request ⟨h, none⟩)).2 := by
  unfold perform
  dsimp only
  rw [hargv]
  dsimp only
  rw [hrequest]

/-- The command leaves at once when it cannot make the request. -/
theorem perform_of_invalid (hargv : parse runtime (platformOf c h) argv = .ok settings)
    {model : String} {issues : List Issue}
    (hinvalid : settings.request (platformOf c h) = .error (.invalid model issues))
    (confirmation : Confirmation) :
    perform runtime argv c confirmation h =
      leave h 2 "" ((platformOf c h).complaint
        (invalidRequestText runtime model settings.requestFields issues)) := by
  unfold perform
  dsimp only
  rw [hargv]
  dsimp only
  rw [hinvalid]

end

end CommandLine

end Provisioning
