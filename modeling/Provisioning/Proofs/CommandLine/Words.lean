/-
# `Provisioning.Proofs.CommandLine.Words` — the words of a command line

Arguments are sorted into words, and the options among the words are met from
left to right.  What stands on a command line is understood by itself:

    arguments without the mark    are sorted one by one (`wordsOf_append`)
    words before an option        are met as they are without it (`meet_append_congr`)

The second is where an option could go wrong that looks for its value among
the words after it: it takes a value, and never an option, so it is the same
for all words that begin with one.  A command line with the mark is always
complained about (`parse_ne_ok_of_mark`), since nothing is left for values that
belong to no option.
-/
import Provisioning.CommandLine.Parser

namespace Provisioning.CommandLine

variable {runtime : Runtime} {spellings : List (String × Flag)} {s : Settings}

/-! ## Meeting options -/

theorem Settings.setAll_append (xs ys : List (Flag × Option String)) :
    s.setAll (xs ++ ys) = (s.setAll xs).bind fun s => s.setAll ys := by
  induction xs generalizing s with
  | nil => rfl
  | cons o xs ih =>
      rw [List.cons_append, setAll, setAll]
      cases s.set o.1 o.2 with
      | error stop => rfl
      | ok s₁ => exact ih

theorem meet_option (extras : List String) (flag : Flag) (spelling : String) (attached : Option String)
    (text : String) (rest : List (Word × String)) :
    meet runtime spellings s extras ((.option (some flag) spelling attached, text) :: rest) =
      match metIn runtime spellings flag spelling attached with
      | .error stop => .error stop
      | .ok (options, none) => (s.setAll options).bind fun s => meet runtime spellings s extras rest
      | .ok (options, some last) => (takeValue last rest).bind fun taken =>
          (s.setAll (options ++ [(last, taken.1)])).bind fun s =>
            meet runtime spellings s extras taken.2 := by
  rw [meet]
  cases metIn runtime spellings flag spelling attached with
  | error stop => rfl
  | ok met =>
      obtain ⟨options, last⟩ := met
      cases last with
      | none => dsimp only; cases s.setAll options <;> rfl
      | some last =>
          dsimp only
          split
          · rename_i hstop; rw [hstop]; rfl
          · rename_i value rest' htaken
            rw [htaken]
            dsimp only [Except.bind]
            cases s.setAll (options ++ [(last, value)]) <;> rfl

/-- What words come to is what some options come to that are met one after the other. -/
theorem exists_setAll_of_meet {extras : List String} {words : List (Word × String)}
    {met : Settings × List String} (hmet : meet runtime spellings s extras words = .ok met) :
    ∃ options, s.setAll options = .ok met.1 := by
  fun_induction meet runtime spellings s extras words with
  | case1 =>
      cases hmet
      exact ⟨[], rfl⟩
  | case2 s extras text rest ih | case3 s extras text rest ih | case4 s extras _ _ text rest ih =>
      exact ih hmet
  | case5 | case6 | case8 | case9 => exact nomatch hmet
  | case7 s extras flag spelling attached text rest options hmetIn s' hset ih =>
      obtain ⟨later, hlater⟩ := ih hmet
      exact ⟨options ++ later, by rw [Settings.setAll_append, hset]; exact hlater⟩
  | case10 s extras flag spelling attached text rest options last hmetIn value rest' htaken s' hset _ ih =>
      obtain ⟨later, hlater⟩ := ih hmet
      exact ⟨options ++ [(last, value)] ++ later, by rw [Settings.setAll_append, hset]; exact hlater⟩

theorem takeValue_of_ok {flag : Flag} {words rest : List (Word × String)} {value : Option String}
    (htaken : takeValue flag words = .ok (value, rest)) :
    words = rest ∨ ∃ text, words = (.value, text) :: rest := by
  unfold takeValue at htaken
  split at htaken
  · cases htaken; exact .inl rfl
  · cases htaken; exact .inr ⟨_, rfl⟩
  · cases htaken; exact .inl rfl
  · exact nomatch htaken

/-- A mark is met as an argument that belongs to no option, and so is never the last. -/
theorem extras_ne_nil_of_meet {extras : List String} {words : List (Word × String)}
    {met : Settings × List String} (hmet : meet runtime spellings s extras words = .ok met)
    (hextra : extras ≠ [] ∨ ∃ text, (.mark, text) ∈ words) : met.2 ≠ [] := by
  fun_induction meet runtime spellings s extras words with
  | case1 =>
      cases hmet
      simpa using hextra
  | case2 s extras text rest ih | case3 s extras text rest ih | case4 s extras _ _ text rest ih =>
      exact ih hmet (.inl (by simp))
  | case5 | case6 | case8 | case9 => exact nomatch hmet
  | case7 s extras flag spelling attached text rest options hmetIn s' hset ih =>
      exact ih hmet (hextra.imp_right fun ⟨t, ht⟩ => ⟨t, by simpa using ht⟩)
  | case10 s extras flag spelling attached text rest options last hmetIn value rest' htaken s' hset _ ih =>
      refine ih hmet (hextra.imp_right fun ⟨t, ht⟩ => ⟨t, ?_⟩)
      have hrest : (Word.mark, t) ∈ rest := by simpa using ht
      rcases takeValue_of_ok htaken with rfl | ⟨u, rfl⟩
      · exact hrest
      · simpa using hrest

/-- Words of which the first is an option, so that none of them is taken for the value of an option
before them. -/
def BeginsWithOption (words : List (Word × String)) : Prop :=
  ∃ flag spelling attached text rest, words = (.option flag spelling attached, text) :: rest

theorem BeginsWithOption.append {words : List (Word × String)} (hwords : BeginsWithOption words)
    (rest : List (Word × String)) : BeginsWithOption (words ++ rest) := by
  obtain ⟨flag, spelling, attached, text, later, rfl⟩ := hwords
  exact ⟨flag, spelling, attached, text, later ++ rest, rfl⟩

theorem takeValue_append {w : List (Word × String)} (hw : BeginsWithOption w) (flag : Flag)
    (words : List (Word × String)) :
    takeValue flag (words ++ w) = (takeValue flag words).map fun taken => (taken.1, taken.2 ++ w) := by
  obtain ⟨other, spelling, attached, text, rest, rfl⟩ := hw
  cases words with
  | nil =>
      unfold takeValue
      cases flag.arity <;> rfl
  | cons word words =>
      obtain ⟨word, text'⟩ := word
      unfold takeValue
      cases word <;> cases flag.arity <;> rfl

/-- What is met alike is met alike after the same words. -/
theorem meet_append_congr {w w' : List (Word × String)} (hw : BeginsWithOption w)
    (hw' : BeginsWithOption w')
    (hmeet : ∀ s extras, meet runtime spellings s extras w = meet runtime spellings s extras w')
    (s : Settings) (extras : List String) (words : List (Word × String)) :
    meet runtime spellings s extras (words ++ w) = meet runtime spellings s extras (words ++ w') := by
  -- on the number of words: an option takes its value with it
  induction hlength : words.length using Nat.strongRecOn generalizing s extras words with
  | _ n ih =>
  cases words with
  | nil => exact hmeet s extras
  | cons word words =>
      have hrest (s : Settings) (extras : List String) (rest : List (Word × String))
          (hle : rest.length ≤ words.length) :
          meet runtime spellings s extras (rest ++ w) = meet runtime spellings s extras (rest ++ w') :=
        ih rest.length (by rw [← hlength, List.length_cons]; omega) s extras rest rfl
      obtain ⟨word, text⟩ := word
      rw [List.cons_append, List.cons_append]
      match word with
      | .value | .mark | .option none _ _ =>
          rw [meet, meet]
          exact hrest _ _ words (Nat.le_refl _)
      | .option (some flag) spelling attached =>
          rw [meet_option, meet_option]
          cases metIn runtime spellings flag spelling attached with
          | error stop => rfl
          | ok met =>
              obtain ⟨options, last⟩ := met
              cases last with
              | none =>
                  exact congrArg (s.setAll options).bind
                    (funext fun s' => hrest s' extras words (Nat.le_refl _))
              | some last =>
                  dsimp only
                  rw [takeValue_append hw, takeValue_append hw']
                  cases htaken : takeValue last words with
                  | error stop => rfl
                  | ok taken =>
                      exact congrArg (s.setAll (options ++ [(last, taken.1)])).bind
                        (funext fun s' => hrest s' extras taken.2 (takeValue_length htaken))

/-! ## Reading a command line -/

theorem wordsOf_cons {arg : String} (hmark : arg ≠ "--") (rest : List String) :
    wordsOf spellings (arg :: rest) = (wordOf spellings arg).bind fun word =>
      (wordsOf spellings rest).map ((word, arg) :: ·) := by
  rw [wordsOf.eq_3 _ _ _ hmark]
  cases wordOf spellings arg with
  | error stop => rfl
  | ok word => cases wordsOf spellings rest <;> rfl

/-- Arguments without the mark are sorted one by one. -/
theorem wordsOf_append {before : List String} (hmark : "--" ∉ before) (rest : List String) :
    wordsOf spellings (before ++ rest) = (wordsOf spellings before).bind fun words =>
      (wordsOf spellings rest).map (words ++ ·) := by
  induction before with
  | nil =>
      rw [List.nil_append]
      cases hrest : wordsOf spellings rest <;> simp [wordsOf, Except.bind, Except.map]
  | cons arg before ih =>
      obtain ⟨harg, hbefore⟩ := not_or.1 (fun h => hmark (List.mem_cons.2 h))
      rw [List.cons_append, wordsOf_cons (Ne.symm harg), wordsOf_cons (Ne.symm harg), ih hbefore]
      cases wordOf spellings arg with
      | error stop => rfl
      | ok word =>
          cases wordsOf spellings before with
          | error stop => rfl
          | ok words => cases wordsOf spellings rest <;> rfl

theorem mark_mem_of_wordsOf {argv : List String} {words : List (Word × String)} (hmark : "--" ∈ argv)
    (hwords : wordsOf spellings argv = .ok words) : ∃ text, (Word.mark, text) ∈ words := by
  induction argv generalizing words with
  | nil => exact nomatch hmark
  | cons arg rest ih =>
      by_cases harg : arg = "--"
      · subst harg
        cases hwords
        exact ⟨"--", List.mem_cons_self⟩
      · rw [wordsOf_cons harg] at hwords
        cases hword : wordOf spellings arg with
        | error stop => rw [hword] at hwords; exact nomatch hwords
        | ok word =>
            rw [hword] at hwords
            cases hlater : wordsOf spellings rest with
            | error stop => rw [hlater] at hwords; exact nomatch hwords
            | ok later =>
                rw [hlater] at hwords
                cases hwords
                obtain ⟨text, htext⟩ := ih ((List.mem_cons.1 hmark).resolve_left (Ne.symm harg)) hlater
                exact ⟨text, List.mem_cons_of_mem _ htext⟩

theorem parse_eq_ok_iff {platform : Platform} {argv : List String} :
    parse runtime platform argv = .ok s ↔ ∃ words, wordsOf platform.spellings argv = .ok words ∧
      meet runtime platform.spellings {} [] words = .ok (s, []) := by
  rw [parse]
  cases wordsOf platform.spellings argv with
  | error stop => exact ⟨nofun, fun ⟨_, hwords, _⟩ => nomatch hwords⟩
  | ok words =>
      constructor
      · intro hparse
        refine ⟨words, rfl, ?_⟩
        change (meet runtime platform.spellings {} [] words).bind _ = _ at hparse
        cases hmet : meet runtime platform.spellings {} [] words with
        | error stop => rw [hmet] at hparse; exact nomatch hparse
        | ok met =>
            obtain ⟨s', extras⟩ := met
            rw [hmet] at hparse
            cases extras with
            | nil => cases hparse; rfl
            | cons extra extras => exact nomatch hparse
      · rintro ⟨_, ⟨⟩, hmet⟩
        change (meet runtime platform.spellings {} [] words).bind _ = _
        rw [hmet]
        rfl

/-- There are no arguments for what follows the mark, so a command line with it is complained about. -/
theorem parse_ne_ok_of_mark {platform : Platform} {argv : List String} (hmark : "--" ∈ argv) :
    parse runtime platform argv ≠ .ok s := by
  intro hparse
  obtain ⟨words, hwords, hmet⟩ := parse_eq_ok_iff.1 hparse
  exact extras_ne_nil_of_meet hmet (.inr (mark_mem_of_wordsOf hmark hwords)) rfl

end Provisioning.CommandLine
