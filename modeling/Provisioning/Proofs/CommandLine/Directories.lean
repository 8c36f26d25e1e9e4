/-
# `Provisioning.Proofs.CommandLine.Directories` — options that give directories

The option of directories may be given more than once, and each of its values
may hold several directories with commas between them.  How they are spread
over options does not matter:

    --dir a,b --dir c     --dir=a --dir "b, c"     --dir a,b,c

A value may be attached to its option or follow it.  Only the mark of the end
of all options is special: a runtime may not keep it where it is attached.

    --dir=a --dir=--      asks for a and --, or for a alone where the mark is not kept
    --dir=a,--            asks for a and --

**Proved here.**  Options compose for every list of values, among whatever
other options they were met, and a command line asks for exactly the
directories in its values as far as its runtime keeps them
(`dir_options_compose`).
-/
import Mathlib.Data.List.Forall2
import Provisioning.Proofs.CommandLine.Request
import Provisioning.Proofs.CommandLine.Split
import Provisioning.Proofs.CommandLine.Words

namespace Provisioning.CommandLine

open Schema

variable {runtime : Runtime} {spellings : List (String × Flag)} {s s' : Settings}

/-! ## What options set -/

/-- The values that the option of directories was met with, in their order. -/
def dirValues (options : List (Flag × Option String)) : List String :=
  options.filterMap fun o => if o.1 = .dir then o.2 else none

namespace Settings

theorem directories_of_set {flag : Flag} {value : Option String} (hset : s.set flag value = .ok s') :
    s'.directories = s.directories ++ splitDirectories (",".intercalate (dirValues [(flag, value)])) := by
  rw [splitDirectories_intercalate]
  cases flag with
  | help | version => cases hset
  | dir =>
      cases hset
      cases value <;> simp [dirValues]
  | _ =>
      cases hset
      simp [dirValues]

theorem directories_of_setAll {options : List (Flag × Option String)}
    (hset : s.setAll options = .ok s') :
    s'.directories = s.directories ++ splitDirectories (",".intercalate (dirValues options)) := by
  induction options generalizing s with
  | nil =>
      cases hset
      simp [dirValues, splitDirectories_empty]
  | cons o options ih =>
      obtain ⟨flag, value⟩ := o
      rw [setAll] at hset
      cases hfirst : s.set flag value with
      | error stop => rw [hfirst] at hset; cases hset
      | ok s₁ =>
          rw [hfirst] at hset
          rw [ih hset, directories_of_set hfirst]
          have hvalues : dirValues ((flag, value) :: options) =
              dirValues [(flag, value)] ++ dirValues options := by
            rw [dirValues, ← List.singleton_append, List.filterMap_append]
            rfl
          simp only [hvalues, splitDirectories_intercalate, List.flatMap_append, List.append_assoc]

theorem request_directories {r : Request} (hr : s.request .windows = .ok r) :
    r.directories = s.directories := by
  have hread : (readRequest s.requestFields).toExcept "ProvisioningRequest" = .ok r := hr
  obtain ⟨c, p, u, hgood⟩ | ⟨issues, hbad⟩ := readRequest_cases s
  · rw [hgood] at hread
    cases hread
    rfl
  · rw [hbad] at hread
    exact nomatch hread

theorem request_of_directories (ds : List String) :
    ({ directories := ds } : Settings).request .windows = .ok { directories := ds } := by
  change (readRequest _).toExcept _ = _
  rw [readRequest_requestFields]
  rfl

theorem setAll_dirs (s : Settings) (vs : List String) :
    s.setAll (vs.map fun v => (.dir, some v)) =
      .ok { s with directories := s.directories ++ vs.flatMap splitDirectories } := by
  induction vs generalizing s with
  | nil => simp [setAll]
  | cons v vs ih =>
      rw [List.map_cons, setAll]
      change ({ s with directories := s.directories ++ splitDirectories v } : Settings).setAll _ = _
      rw [ih, List.flatMap_cons, List.append_assoc]

end Settings

/-! ## Giving directories -/

/-- Arguments that give a value to the option of directories: the value is attached to the option, or
it follows it and is not taken for an option itself. -/
inductive Gives : List String → String → Prop where
  | attached (v : String) : Gives ["--dir=" ++ v] v
  | following {v : String} (value : wordOf Platform.windows.spellings v = .ok .value) :
      Gives ["--dir", v] v

/-- The runtime keeps a value, wherever it stands. -/
def Runtime.Keeps (runtime : Runtime) (v : String) : Prop := runtime.keepsMark = true ∨ v ≠ "--"

/-- The directories that are kept of a value. -/
def Runtime.kept (runtime : Runtime) (v : String) : List String :=
  (runtime.attachedValue v).elim [] splitDirectories

theorem Runtime.Keeps.kept_eq {v : String} (hv : runtime.Keeps v) :
    runtime.kept v = splitDirectories v := by
  have hnot : ¬ (v = "--" ∧ runtime.keepsMark = false) := by
    rintro ⟨hmark, hno⟩
    rcases hv with hyes | hother
    · exact Bool.false_ne_true (hno.symm.trans hyes)
    · exact hother hmark
  rw [Runtime.kept, Runtime.attachedValue, if_neg hnot, Option.elim_some]

/-- The settings with the directories of one more value. -/
def Settings.withValue (s : Settings) (runtime : Runtime) (v : String) : Settings :=
  { s with directories := s.directories ++ runtime.kept v }

theorem wordOf_attached (v : String) :
    wordOf Platform.windows.spellings ("--dir=" ++ v) = .ok (.option (some .dir) "--dir" (some v)) := by
  have hchars : ("--dir=" ++ v).toList = '-' :: '-' :: 'd' :: 'i' :: 'r' :: '=' :: v.toList := by
    rw [String.toList_append]
    rfl
  have hlookup : Platform.windows.spellings.lookup ("--dir=" ++ v) = none := by
    have hplain : ∀ o ∈ Platform.windows.spellings, '=' ∉ o.1.toList := by decide
    rw [List.lookup_eq_none_iff]
    intro o ho
    refine bne_iff_ne.2 fun heq => hplain o ho ?_
    rw [← heq, hchars]
    simp
  have hcut : cutAtEquals ("--dir=" ++ v) = some ("--dir", v) := by
    rw [cutAtEquals, hchars]
    simp
  rw [wordOf, hchars]
  dsimp only
  rw [hlookup, hcut]
  rfl

theorem metIn_attached (v : String) :
    metIn runtime spellings .dir "--dir" (some v) = .ok ([(.dir, runtime.attachedValue v)], none) := by
  rw [metIn]
  cases hchars : v.toList with
  | nil =>
      rw [String.toList_eq_nil_iff.1 hchars]
      rfl
  | cons c rest =>
      rw [← String.ofList_toList (s := v), hchars]
      rfl

/-- Arguments that give a value are sorted by themselves, and met by adding its directories. -/
theorem Gives.exists_words {args : List String} {v : String} (hgives : Gives args v) :
    ∃ words, BeginsWithOption words ∧ "--" ∉ args ∧
      wordsOf Platform.windows.spellings args = .ok words ∧
      ∀ (runtime : Runtime) (s : Settings) extras rest,
        meet runtime Platform.windows.spellings s extras (words ++ rest) =
          meet runtime Platform.windows.spellings (s.withValue runtime v) extras rest := by
  cases hgives with
  | attached =>
      have hmark : "--dir=" ++ v ≠ "--" := by
        intro heq
        simpa using congrArg String.toList heq
      refine ⟨[(.option (some .dir) "--dir" (some v), "--dir=" ++ v)], ⟨_, _, _, _, _, rfl⟩,
        by simpa using hmark.symm, ?_, fun runtime s extras rest => ?_⟩
      · rw [wordsOf_cons hmark, wordOf_attached]
        rfl
      · rw [List.singleton_append, meet_option, metIn_attached]
        rfl
  | following hvalue =>
      have hmark : v ≠ "--" := by
        rintro rfl
        exact nomatch hvalue
      refine ⟨[(.option (some .dir) "--dir" none, "--dir"), (.value, v)], ⟨_, _, _, _, _, rfl⟩,
        by simpa using hmark.symm, ?_, fun runtime s extras rest => ?_⟩
      · rw [wordsOf_cons (by decide), wordsOf_cons hmark, hvalue]
        rfl
      · rw [List.cons_append, meet_option]
        change meet _ _ { s with directories := s.directories ++ splitDirectories v } extras rest = _
        rw [Settings.withValue, Runtime.Keeps.kept_eq (.inr hmark)]

/-- The settings of a command line that gives directories and nothing else. -/
theorem parse_gives {argss : List (List String)} {vs : List String} (hgives : List.Forall₂ Gives argss vs) :
    parse runtime .windows argss.flatten = .ok { directories := vs.flatMap runtime.kept } := by
  have hwords : ∃ words, "--" ∉ argss.flatten ∧
      wordsOf Platform.windows.spellings argss.flatten = .ok words ∧
      ∀ s : Settings, meet runtime Platform.windows.spellings s [] words =
        .ok ({ s with directories := s.directories ++ vs.flatMap runtime.kept }, []) := by
    induction hgives with
    | nil => exact ⟨[], nofun, rfl, fun s => by simp [meet]⟩
    | cons hfirst _ ih =>
        obtain ⟨first, -, hmark, hsorted, hmet⟩ := hfirst.exists_words
        obtain ⟨words, hmark', hsorted', hmet'⟩ := ih
        refine ⟨first ++ words, ?_, ?_, fun s => ?_⟩
        · simp only [List.flatten_cons, List.mem_append, not_or]
          exact ⟨hmark, hmark'⟩
        · rw [List.flatten_cons, wordsOf_append hmark, hsorted, hsorted']
          rfl
        · rw [hmet, hmet']
          simp [Settings.withValue, List.append_assoc]
  obtain ⟨words, -, hsorted, hmet⟩ := hwords
  refine parse_eq_ok_iff.2 ⟨words, hsorted, ?_⟩
  rw [hmet]
  rfl

/-- The request that a command line asks for. -/
def Runtime.Asks (runtime : Runtime) (argv : List String) (r : Request) : Prop :=
  ∃ s, parse runtime .windows argv = .ok s ∧ s.request .windows = .ok r

/-! ### A cut at a comma -/

theorem ne_mark_of_comma (a b : String) : a ++ "," ++ b ≠ "--" := by
  intro heq
  have hcomma : ',' ∈ (a ++ "," ++ b).toList := by simp
  rw [heq] at hcomma
  exact absurd hcomma (by decide)

theorem Settings.withValue_comma (s : Settings) {a b : String} (ha : runtime.Keeps a)
    (hb : runtime.Keeps b) :
    s.withValue runtime (a ++ "," ++ b) = (s.withValue runtime a).withValue runtime b := by
  have hab : runtime.Keeps (a ++ "," ++ b) := .inr (ne_mark_of_comma a b)
  simp only [Settings.withValue, ha.kept_eq, hb.kept_eq, hab.kept_eq, splitDirectories_append,
    List.append_assoc]

/-- Wherever on a command line a value is cut at a comma, the settings stay the same. -/
theorem parse_cut_iff {before after as bs cs : List String} {a b : String} (has : Gives as a)
    (hbs : Gives bs b) (hcs : Gives cs (a ++ "," ++ b)) (ha : runtime.Keeps a)
    (hb : runtime.Keeps b) :
    parse runtime .windows (before ++ as ++ bs ++ after) = .ok s ↔
      parse runtime .windows (before ++ cs ++ after) = .ok s := by
  by_cases hmark : "--" ∈ before
  · exact iff_of_false (parse_ne_ok_of_mark (by simp [hmark])) (parse_ne_ok_of_mark (by simp [hmark]))
  obtain ⟨wa, hwa, hmarka, hsorta, hmeta⟩ := has.exists_words
  obtain ⟨wb, hwb, hmarkb, hsortb, hmetb⟩ := hbs.exists_words
  obtain ⟨wc, hwc, hmarkc, hsortc, hmetc⟩ := hcs.exists_words
  simp only [parse_eq_ok_iff, List.append_assoc]
  rw [wordsOf_append hmark, wordsOf_append hmarka, wordsOf_append hmarkb, wordsOf_append hmark,
    wordsOf_append hmarkc, hsorta, hsortb, hsortc]
  cases wordsOf Platform.windows.spellings before with
  | error stop => rfl
  | ok words =>
      cases wordsOf Platform.windows.spellings after with
      | error stop => rfl
      | ok later =>
          have halike (s : Settings) (extras : List String) :
              meet runtime Platform.windows.spellings s extras (wa ++ (wb ++ later)) =
                meet runtime Platform.windows.spellings s extras (wc ++ later) := by
            rw [hmeta, hmetb, hmetc, Settings.withValue_comma s ha hb]
          simp only [Except.bind, Except.map, Except.ok.injEq, exists_eq_left']
          rw [meet_append_congr (hwa.append _) (hwc.append _) halike]

/-! ### What is kept -/

/-- Where the mark is not kept, every value that is the mark is lost. -/
theorem length_flatMap_kept (hmark : runtime.keepsMark = false) (vs : List String) :
    (vs.flatMap splitDirectories).length = (vs.flatMap runtime.kept).length + vs.count "--" := by
  induction vs with
  | nil => rfl
  | cons v vs ih =>
      rw [List.flatMap_cons, List.flatMap_cons, List.length_append, List.length_append, ih]
      by_cases hv : v = "--"
      · subst hv
        have hlost : (splitDirectories "--").length = 1 := by decide
        have hkept : runtime.kept "--" = [] := by
          rw [Runtime.kept, Runtime.attachedValue, if_pos ⟨rfl, hmark⟩, Option.elim_none]
        rw [hlost, hkept, List.length_nil, List.count_cons_self]
        omega
      · rw [Runtime.Keeps.kept_eq (.inr hv), List.count_cons_of_ne hv]
        omega

theorem flatMap_kept_eq_iff {vs : List String} :
    vs.flatMap runtime.kept = vs.flatMap splitDirectories ↔
      runtime.keepsMark = true ∨ "--" ∉ vs := by
  constructor
  · intro heq
    cases hmark : runtime.keepsMark with
    | true => exact .inl rfl
    | false =>
        have hlength := length_flatMap_kept hmark vs
        rw [heq] at hlength
        exact .inr (List.count_eq_zero.1 (by omega))
  · intro hkeeps
    refine List.flatMap_congr fun v hv => Runtime.Keeps.kept_eq (hkeeps.imp_right fun hmark => ?_)
    rintro rfl
    exact hmark hv

/-- Whatever else is on a command line, it asks for directories alone. -/
theorem isDirectory_of_asks {argv : List String} {r : Request} (hasks : runtime.Asks argv r) :
    ∀ d ∈ r.directories, IsDirectory d := by
  obtain ⟨s, hparse, hrequest⟩ := hasks
  obtain ⟨words, -, hmet⟩ := parse_eq_ok_iff.1 hparse
  obtain ⟨options, hset⟩ := exists_setAll_of_meet hmet
  intro d hd
  rw [Settings.request_directories hrequest, Settings.directories_of_setAll hset] at hd
  exact isDirectory_of_mem hd

/-! ## Directories compose -/

/-- **Options of directories compose.**  Values given to the option one by one make a request for
exactly the directories in these values joined by commas; whatever other options were met among them,
that stays so; and a command line that gives the values makes this request, unless its runtime loses
one.  A value may be cut at any comma, wherever it stands on a command line.  Only directories are ever
asked for; a text is read as the directories that it lists; and directories that are joined by commas
are read back. -/
theorem dir_options_compose :
    (∀ vs : List String, ∃ s r, Settings.setAll {} (vs.map fun v => (.dir, some v)) = .ok s ∧
      s.request .windows = .ok r ∧ r.directories = splitDirectories (",".intercalate vs)) ∧
    (∀ options s r, Settings.setAll {} options = .ok s → s.request .windows = .ok r →
      r.directories = splitDirectories (",".intercalate (dirValues options))) ∧
    (∀ (runtime : Runtime) argss vs, List.Forall₂ Gives argss vs →
      ∃ r, runtime.Asks argss.flatten r ∧
        (r.directories = splitDirectories (",".intercalate vs) ↔
          runtime.keepsMark = true ∨ "--" ∉ vs)) ∧
    (∀ (runtime : Runtime) before after as bs cs a b, Gives as a → Gives bs b →
      Gives cs (a ++ "," ++ b) → runtime.Keeps a → runtime.Keeps b →
      ∀ r, runtime.Asks (before ++ as ++ bs ++ after) r ↔ runtime.Asks (before ++ cs ++ after) r) ∧
    (∀ (runtime : Runtime) argv r, runtime.Asks argv r → ∀ d ∈ r.directories, IsDirectory d) ∧
    (∀ s ds, splitDirectories s = ds ↔ Lists s ds) ∧
    ∀ ds, (∀ d ∈ ds, IsDirectory d) → splitDirectories (",".intercalate ds) = ds := by
  have hmet : ∀ options s r, Settings.setAll {} options = .ok s → s.request .windows = .ok r →
      r.directories = splitDirectories (",".intercalate (dirValues options)) := by
    intro options s r hset hrequest
    rw [Settings.request_directories hrequest, Settings.directories_of_setAll hset]
    exact List.nil_append _
  refine ⟨fun vs => ?_, hmet, fun runtime argss vs hgives => ?_,
    fun runtime before after as bs cs a b has hbs hcs ha hb r => ?_,
    fun runtime argv r => isDirectory_of_asks, fun s ds => splitDirectories_eq_iff,
    fun ds => splitDirectories_join⟩
  · refine ⟨_, _, Settings.setAll_dirs {} vs, Settings.request_of_directories _, ?_⟩
    rw [splitDirectories_intercalate]
    rfl
  · refine ⟨_, ⟨_, parse_gives hgives, Settings.request_of_directories _⟩, ?_⟩
    rw [splitDirectories_intercalate]
    exact flatMap_kept_eq_iff
  · exact exists_congr fun s => and_congr_left fun _ => parse_cut_iff has hbs hcs ha hb

/-- Options with their values attached and following, one value with a comma in it and one the mark:
a runtime that keeps the mark asks for every directory, however the values are cut. -/
theorem dir_options_compose_abc :
    (∃ r, Runtime.Asks {} ["--dir", "a, b", "--dir=--"] r ∧ r.directories = ["a", "b", "--"]) ∧
    ∀ r, Runtime.Asks {} ["--yes", "--dir", "a, b", "--dir=--", "--user", "bob"] r ↔
      Runtime.Asks {} ["--yes", "--dir=a, b,--", "--user", "bob"] r := by
  have hgives : List.Forall₂ Gives [["--dir", "a, b"], ["--dir=--"]] ["a, b", "--"] :=
    .cons (.following rfl) (.cons (.attached "--") .nil)
  obtain ⟨-, -, hasked, hcut, -⟩ := dir_options_compose
  obtain ⟨r, hasks, hdirectories⟩ := hasked {} _ _ hgives
  constructor
  · exact ⟨r, hasks, (hdirectories.2 (.inl rfl)).trans (by decide)⟩
  · exact hcut {} ["--yes"] ["--user", "bob"] ["--dir", "a, b"] ["--dir=--"] ["--dir=a, b,--"] "a, b"
      "--" (.following rfl) (.attached "--") (.attached "a, b,--") (.inl rfl) (.inl rfl)

end Provisioning.CommandLine
