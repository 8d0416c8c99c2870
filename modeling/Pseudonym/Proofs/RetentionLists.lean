import Mathlib.Data.List.Basic
import Pseudonym.Command.Settings

/-!
# Retention lists one after the other

The patterns of several retention lists are tried in the order of the lists.  What the first lists
decide about a namespace is therefore decided, and what they leave open is decided by the lists that
follow (`keeps_followedBy`).  Since commas part the patterns of a list in the same way as lists are
parted from each other, several lists may as well be joined with commas to one
(`writtenPatterns_intercalate`).

Reading stops at the first pattern that cannot be read, which is the same in both forms.

The lists of the command line follow those of the configuration file, so they settle nothing
that the file has settled.
-/

namespace Pseudonym
namespace Retention

variable {lists later : List String} {namespaceName : String} {bad : BadPattern}

namespace Rules

variable {rules laterRules : Rules}

/-! ## Rules one after the other -/

/-- Whether some pattern, of whichever kind, matches a namespace. -/
def Decides (rules : Rules) (namespaceName : String) : Prop :=
  ∃ p ∈ rules.patterns, p.accepts namespaceName = true

instance (rules : Rules) (namespaceName : String) : Decidable (rules.Decides namespaceName) :=
  inferInstanceAs (Decidable (∃ p ∈ rules.patterns, _))

/-- Rules that are tried before others. -/
def followedBy (rules laterRules : Rules) : Rules :=
  ⟨rules.patterns ++ laterRules.patterns⟩

lemma decides_iff : rules.Decides namespaceName ↔ (rules.deciding? namespaceName).isSome := by
  rw [deciding?, List.find?_isSome]
  rfl

/-- The rules that come first decide if they have a pattern that matches. -/
theorem keeps_followedBy (rules laterRules : Rules) (namespaceName : String) :
    (rules.followedBy laterRules).keeps namespaceName =
      if rules.Decides namespaceName then rules.keeps namespaceName
      else laterRules.keeps namespaceName := by
  have happend : (rules.followedBy laterRules).deciding? namespaceName =
      (rules.deciding? namespaceName).or (laterRules.deciding? namespaceName) :=
    List.find?_append
  rw [keeps, keeps, keeps, happend]
  cases hfirst : rules.deciding? namespaceName with
  | none =>
    have hopen : ¬ rules.Decides namespaceName := by
      rw [decides_iff, hfirst]
      exact Bool.false_ne_true
    rw [if_neg hopen, Option.none_or]
  | some p =>
    have hdecides : rules.Decides namespaceName := by
      rw [decides_iff, hfirst]
      rfl
    rw [if_pos hdecides, Option.some_or]

/-! ## Reading lists one after the other -/

theorem parse_append (lists later : List String) :
    parse (lists ++ later) = do
      let rules ← parse lists
      let laterRules ← parse later
      return rules.followedBy laterRules := by
  simp only [parse, List.flatMap_append, List.mapM_append]
  cases (lists.flatMap writtenPatterns).mapM Pattern.parse with
  | error bad => rfl
  | ok patterns => cases (later.flatMap writtenPatterns).mapM Pattern.parse <;> rfl

lemma parse_append_ok (h : parse lists = .ok rules) (hlater : parse later = .ok laterRules) :
    parse (lists ++ later) = .ok (rules.followedBy laterRules) := by
  rw [parse_append, h, hlater]
  rfl

lemma parse_append_error (h : parse lists = .error bad) : parse (lists ++ later) = .error bad := by
  rw [parse_append, h]
  rfl

end Rules

/-! ## Lists joined to one -/

/-- The pieces of texts that have been joined are the pieces of the texts. -/
lemma flatMap_pieces {separator : Char} {texts : List (List Char)} (h : texts ≠ []) :
    Text.pieces separator ([separator].intercalate texts) =
      texts.flatMap (Text.pieces separator) := by
  induction texts with
  | nil => exact absurd rfl h
  | cons text rest ih =>
    by_cases hrest : rest = []
    · subst rest
      simp
    · rw [List.intercalate_cons_of_ne_nil hrest, List.append_assoc, List.singleton_append,
        Text.pieces_append_cons, ih hrest, List.flatMap_cons]

/-- Lists joined with commas have the patterns of the lists. -/
theorem writtenPatterns_intercalate (lists : List String) :
    writtenPatterns (",".intercalate lists) = lists.flatMap writtenPatterns := by
  by_cases h : lists = []
  · subst lists
    rfl
  · have hcomma : ",".toList = [','] := rfl
    have htexts : lists.map String.toList ≠ [] := h ∘ List.map_eq_nil_iff.1
    rw [writtenPatterns, String.toList_intercalate, hcomma, flatMap_pieces htexts,
      List.flatMap_map, List.map_flatMap, List.filter_flatMap]
    rfl

/-- Lists may be joined with commas before they are read. -/
theorem parse_intercalate (lists : List String) :
    Rules.parse [",".intercalate lists] = Rules.parse lists := by
  rw [Rules.parse, Rules.parse, List.flatMap_singleton, writtenPatterns_intercalate]

/-! ## Patterns that cannot be read -/

/-- Whether a pattern is the first of some that cannot be read, and why. -/
def IsFirstBad (patterns : List (List Char)) (bad : BadPattern) : Prop :=
  ∃ good text rest, patterns = good ++ text :: rest ∧
    (∀ earlier ∈ good, ∃ p, Pattern.parse earlier = .ok p) ∧
    Pattern.parse text = .error bad ∧ bad.pattern = String.ofList text

lemma pattern_of_parse_eq_error {text : List Char} (h : Pattern.parse text = .error bad) :
    bad.pattern = String.ofList text := by
  unfold Pattern.parse at h
  dsimp only at h
  split at h
  · exact nomatch h
  · exact congrArg BadPattern.pattern (Except.error.inj h).symm

/-- If some pattern cannot be read, then there is a first one. -/
lemma exists_isFirstBad {patterns : List (List Char)}
    (h : ∃ text ∈ patterns, ∀ p, Pattern.parse text ≠ .ok p) :
    ∃ bad, IsFirstBad patterns bad ∧ patterns.mapM Pattern.parse = .error bad := by
  induction patterns with
  | nil => simp at h
  | cons text rest ih =>
    cases htext : Pattern.parse text with
    | error bad =>
      refine ⟨bad, ⟨[], text, rest, rfl, by simp, htext, pattern_of_parse_eq_error htext⟩, ?_⟩
      rw [List.mapM_cons, htext]
      rfl
    | ok p =>
      have hrest : ∃ text ∈ rest, ∀ p, Pattern.parse text ≠ .ok p := by
        obtain ⟨other, hother, hbad⟩ := h
        rcases List.mem_cons.1 hother with rfl | hother
        · exact absurd htext (hbad p)
        · exact ⟨other, hother, hbad⟩
      obtain ⟨bad, ⟨good, other, later, rfl, hgood, hbad, hpattern⟩, herror⟩ := ih hrest
      refine ⟨bad, ⟨text :: good, other, later, rfl, ?_, hbad, hpattern⟩, ?_⟩
      · exact List.forall_mem_cons.2 ⟨⟨p, htext⟩, hgood⟩
      · rw [List.mapM_cons, htext, herror]
        rfl

lemma parse_eq_error (h : (lists.flatMap writtenPatterns).mapM Pattern.parse = .error bad) :
    Rules.parse lists = .error bad := by
  rw [Rules.parse, h]
  rfl

end Retention

/-! ## Lists of the command line -/

namespace Settings

open Retention

variable {s : Settings} {a : Arguments} {rules laterRules : Rules} {bad : BadPattern}

lemma rules_eq_ok_iff : s.rules = .ok rules ↔ Rules.parse s.keepPackageNames = .ok rules := by
  rw [Settings.rules]
  cases Rules.parse s.keepPackageNames <;> simp [Except.mapError]

lemma rules_eq_error_iff :
    s.rules = .error (.badPattern bad) ↔ Rules.parse s.keepPackageNames = .error bad := by
  rw [Settings.rules]
  cases Rules.parse s.keepPackageNames <;> simp [Except.mapError]

lemma rules_withArguments (h : s.rules = .ok rules)
    (hlater : Rules.parse a.keepPackage = .ok laterRules) :
    (s.withArguments a).rules = .ok (rules.followedBy laterRules) :=
  rules_eq_ok_iff.2 (Rules.parse_append_ok (rules_eq_ok_iff.1 h) hlater)

lemma rules_withArguments_error (h : s.rules = .error (.badPattern bad)) :
    (s.withArguments a).rules = .error (.badPattern bad) :=
  rules_eq_error_iff.2 (Rules.parse_append_error (rules_eq_error_iff.1 h))

end Settings

namespace Retention

/-- Retention lists are tried in their order.

If lists can be read and others too, so can both together, and what they say about a namespace is
what the first say if one of their patterns matches, and what the others say if none does.  Lists
joined with commas to one are read with the same result, whatever it is.  If some pattern cannot be
read, then in both forms the first of these is reported.  Lists of the command line therefore leave
every decision, and every fault, of the configuration file as it is. -/
theorem lists_are_tried_in_order :
    (∀ lists later rules laterRules, Rules.parse lists = .ok rules →
      Rules.parse later = .ok laterRules → ∃ all, Rules.parse (lists ++ later) = .ok all ∧
        ∀ namespaceName, all.keeps namespaceName =
          if rules.Decides namespaceName then rules.keeps namespaceName
          else laterRules.keeps namespaceName) ∧
    (∀ lists, Rules.parse [",".intercalate lists] = Rules.parse lists) ∧
    (∀ lists, (∃ text ∈ lists.flatMap writtenPatterns, ∀ p, Pattern.parse text ≠ .ok p) →
      ∃ bad, IsFirstBad (lists.flatMap writtenPatterns) bad ∧ Rules.parse lists = .error bad ∧
        Rules.parse [",".intercalate lists] = .error bad) ∧
    (∀ (s : Settings) (a : Arguments) rules laterRules, s.rules = .ok rules →
      Rules.parse a.keepPackage = .ok laterRules → ∃ all, (s.withArguments a).rules = .ok all ∧
        ∀ namespaceName, rules.Decides namespaceName →
          all.keeps namespaceName = rules.keeps namespaceName) ∧
    ∀ (s : Settings) (a : Arguments) bad, s.rules = .error (.badPattern bad) →
      (s.withArguments a).rules = .error (.badPattern bad) := by
  refine ⟨?together, parse_intercalate, ?bad, ?arguments, ?fault⟩
  case together =>
    intro lists later rules laterRules h hlater
    exact ⟨_, Rules.parse_append_ok h hlater, Rules.keeps_followedBy rules laterRules⟩
  case bad =>
    intro lists h
    obtain ⟨bad, hfirst, herror⟩ := exists_isFirstBad h
    have hlists : Rules.parse lists = .error bad := parse_eq_error herror
    exact ⟨bad, hfirst, hlists, (parse_intercalate lists).trans hlists⟩
  case arguments =>
    intro s a rules laterRules h hlater
    refine ⟨_, Settings.rules_withArguments h hlater, fun namespaceName hdecides => ?_⟩
    rw [Rules.keeps_followedBy, if_pos hdecides]
  case fault =>
    intro s a bad h
    exact Settings.rules_withArguments_error h

/-- A namespace that the first list gives up cannot be kept by the second. -/
example : (Rules.parse ["!com.client, com.*", "com.client"]).map (·.keeps "com.client") =
    .ok false := by decide +kernel

end Retention
end Pseudonym
