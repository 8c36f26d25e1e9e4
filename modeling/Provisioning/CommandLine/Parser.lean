/-
# `Provisioning.CommandLine.Parser` — reading the command line

The arguments are first sorted into words: options, values, and the `--` after
which every argument is a value.  Then the options are met from left to right,
each with the value that follows it or is attached to it.

    --name value   --name=value     a value, following or attached
    --na                            a long spelling may be cut short while it stays unique
    -yv                             options without a value may be joined
    -1  "- x"                       a negative number, or a text with a space, is a value

An option that asks for help or for the version ends the reading when it is
met, whatever follows.  Values that belong to no option, and options nobody
knows, are complained about together at the end.  An attached `--` is a value
if the runtime keeps it, and leaves its option without one if it does not.
-/
import Provisioning.CommandLine.Options
import Provisioning.CommandLine.Runtime
import Provisioning.Schema.Records
import Provisioning.Text.Digit

namespace Provisioning.CommandLine

/-- Why the reading ends early. -/
inductive Stop where
  | help
  | version
  | complaint (message : String)
  deriving DecidableEq

/-! ## Sorting arguments into words -/

/-- What an argument is. -/
inductive Word where
  | value
  /-- The mark after which all arguments are values. -/
  | mark
  /-- An option, if it is known, in a spelling, with the value attached to it. -/
  | option (flag : Option Flag) (spelling : String) (attached : Option String)

/-- A text cut at its first equals sign. -/
def cutAtEquals (s : String) : Option (String × String) :=
  match s.toList.dropWhile (· ≠ '=') with
  | [] => none
  | _ :: r => some (String.ofList (s.toList.takeWhile (· ≠ '=')), String.ofList r)

/-- The ways to read an argument as an option that is not spelled out: a long spelling cut short, or
short options joined. -/
def candidates (spellings : List (String × Flag)) (arg : String) :
    List (Flag × String × Option String) :=
  match arg.toList with
  | '-' :: '-' :: _ =>
    let cut := cutAtEquals arg
    let start := (cut.map Prod.fst).getD arg
    (spellings.filter fun s => start.toList.isPrefixOf s.1.toList).map fun s =>
      (s.2, s.1, cut.map Prod.snd)
  | '-' :: c :: r =>
    (spellings.filter fun s => s.1.toList == ['-', c]).map fun s =>
      (s.2, s.1, some (String.ofList r))
  | _ => []

/-- Sort one argument. -/
def wordOf (spellings : List (String × Flag)) (arg : String) : Except Stop Word :=
  match arg.toList with
  | '-' :: _ :: _ =>
    match spellings.lookup arg with
    | some flag => .ok (.option (some flag) arg none)
    | none =>
      let spelled := (cutAtEquals arg).bind fun cut =>
        (spellings.lookup cut.1).map fun flag => (flag, cut.1, some cut.2)
      match spelled.elim (candidates spellings arg) fun s => [s] with
      | [(flag, spelling, attached)] => .ok (.option (some flag) spelling attached)
      | [] =>
        if Text.isNegativeNumeral arg.toList || arg.toList.contains ' ' then .ok .value
        else .ok (.option none arg none)
      | several =>
        .error (.complaint ("ambiguous option: " ++ arg ++ " could match " ++
          ", ".intercalate (several.map fun s => s.2.1)))
  | _ => .ok .value

/-- Sort all arguments. -/
def wordsOf (spellings : List (String × Flag)) : List String → Except Stop (List (Word × String))
  | [] => .ok []
  | "--" :: rest => .ok ((.mark, "--") :: rest.map fun a => (.value, a))
  | arg :: rest => do
    let word ← wordOf spellings arg
    let words ← wordsOf spellings rest
    return (word, arg) :: words

/-! ## What the options set -/

/-- The texts between the commas of a text, without blanks around them; blank ones are left out. -/
def splitDirectories (s : String) : List String :=
  ((Text.pieces ',' s.toList).map fun p => String.ofList (Text.trimChars p)).filter (· ≠ "")

/-- What has been set so far.  The account options hold what the request will be made from. -/
structure Settings where
  createUser : Schema.Datum := .null
  password : Schema.Datum := .null
  user : Schema.Datum := .null
  runner : Option String := none
  directories : List String := []
  fullControl : Bool := false
  currentUser : Bool := false
  yes : Bool := false
  verbose : Bool := false

namespace Settings

/-- The value of an option: absent where it was left out. -/
def datumOf : Option String → Schema.Datum
  | some s => .text s
  | none => .list []

/-- Meet an option with its value. -/
def set (s : Settings) (flag : Flag) (value : Option String) : Except Stop Settings :=
  match flag with
  | .help => .error .help
  | .version => .error .version
  | .createUser => .ok { s with createUser := datumOf value }
  | .password => .ok { s with password := datumOf value }
  | .user => .ok { s with user := datumOf value }
  | .runner => .ok { s with runner := some (value.getD "") }
  | .dir => .ok { s with directories := s.directories ++ (value.elim [] splitDirectories) }
  | .fullControl => .ok { s with fullControl := true }
  | .currentUser => .ok { s with currentUser := true }
  | .yes => .ok { s with yes := true }
  | .verbose => .ok { s with verbose := true }

/-- Meet several options, one after the other. -/
def setAll (s : Settings) : List (Flag × Option String) → Except Stop Settings
  | [] => .ok s
  | (flag, value) :: rest => do
    let s ← s.set flag value
    s.setAll rest

end Settings

/-! ## Meeting the options -/

/-- The complaint about an option. -/
def complainAbout {α : Type} (flag : Flag) (message : String) : Except Stop α :=
  .error (.complaint ("argument " ++ flag.title ++ ": " ++ message))

/-- The value attached to an option. -/
def Runtime.attachedValue (runtime : Runtime) (s : String) : Option String :=
  if s = "--" ∧ runtime.keepsMark = false then none else some s

/-- Options with their values, and whether the last of them still looks for a value that follows. -/
abbrev Met := List (Flag × Option String) × Option Flag

/-- The options in an argument with something attached: the value of the first one, or more short
options joined to it. -/
def unfold (runtime : Runtime) (spellings : List (String × Flag)) (isShort : Bool) (flag : Flag) :
    List Char → Except Stop Met
  | [] =>
    match flag.arity with
    | .none => complainAbout flag "ignored explicit argument ''"
    | _ => .ok ([(flag, some "")], none)
  | c :: rest =>
    match flag.arity with
    | .none =>
      match isShort, spellings.lookup (String.ofList ['-', c]) with
      | true, some next =>
        if rest.isEmpty then .ok ([(flag, none)], some next)
        else do
          let met ← unfold runtime spellings true next rest
          return ((flag, none) :: met.1, met.2)
      | _, _ =>
        complainAbout flag ("ignored explicit argument " ++ Text.quoted (String.ofList (c :: rest)))
    | _ => .ok ([(flag, runtime.attachedValue (String.ofList (c :: rest)))], none)

/-- The options of an argument. -/
def metIn (runtime : Runtime) (spellings : List (String × Flag)) (flag : Flag) (spelling : String) :
    Option String → Except Stop Met
  | none => .ok ([], some flag)
  | some attached =>
    unfold runtime spellings ((spelling.toList.drop 1).head? != some '-') flag attached.toList

/-- The value that an option takes from the words that follow it, and the words after that. -/
def takeValue (flag : Flag) (words : List (Word × String)) :
    Except Stop (Option String × List (Word × String)) :=
  match flag.arity, words with
  | .none, _ => .ok (none, words)
  | _, (.value, text) :: rest => .ok (some text, rest)
  | .upToOne, _ => .ok (none, words)
  | .one, _ => complainAbout flag "expected one argument"

theorem takeValue_length {flag : Flag} {words rest : List (Word × String)} {value : Option String}
    (h : takeValue flag words = .ok (value, rest)) : rest.length ≤ words.length := by
  unfold takeValue at h
  split at h
  · cases h; exact Nat.le_refl _
  · cases h; simp
  · cases h; exact Nat.le_refl _
  · cases h

/-- Meet the options of a list of words, collecting the words that belong to none. -/
def meet (runtime : Runtime) (spellings : List (String × Flag)) (s : Settings)
    (extras : List String) (words : List (Word × String)) : Except Stop (Settings × List String) :=
  match words with
  | [] => .ok (s, extras)
  | (.value, text) :: rest => meet runtime spellings s (extras ++ [text]) rest
  | (.mark, text) :: rest => meet runtime spellings s (extras ++ [text]) rest
  | (.option none _ _, text) :: rest => meet runtime spellings s (extras ++ [text]) rest
  | (.option (some flag) spelling attached, _) :: rest =>
    match metIn runtime spellings flag spelling attached with
    | .error stop => .error stop
    | .ok (options, none) =>
      match s.setAll options with
      | .error stop => .error stop
      | .ok s => meet runtime spellings s extras rest
    | .ok (options, some last) =>
      match h : takeValue last rest with
      | .error stop => .error stop
      | .ok (value, rest') =>
        match s.setAll (options ++ [(last, value)]) with
        | .error stop => .error stop
        | .ok s =>
          have := takeValue_length h
          meet runtime spellings s extras rest'
termination_by words.length
decreasing_by
  all_goals simp only [List.length_cons]
  all_goals omega

/-- Read a command line. -/
def parse (runtime : Runtime) (platform : Platform) (argv : List String) :
    Except Stop Settings := do
  let words ← wordsOf platform.spellings argv
  let met ← meet runtime platform.spellings {} [] words
  if met.2.isEmpty then return met.1
  else throw (.complaint ("unrecognized arguments: " ++ " ".intercalate met.2))

/-- The fields of the request that settings ask for. -/
def Settings.requestFields (s : Settings) : Schema.Fields :=
  [("create_user", s.createUser), ("password", s.password), ("user", s.user),
    ("runner_requested", .bool s.runner.isSome), ("runner", .ofOption .text (given s.runner)),
    ("directories", .list (s.directories.map .text)),
    ("rights", .rights (if s.fullControl then .fullControl else .readWriteCreate)),
    ("use_session_identity", .bool s.currentUser)]

/-- The request that settings ask for.  On linux there is nothing to ask for. -/
def Settings.request (s : Settings) : Platform → Except Fault Request
  | .windows => Schema.request? s.requestFields
  | .linux => .ok {}

end Provisioning.CommandLine
