import Mathlib.Data.List.TakeWhile
import Pseudonym.Proofs.Retention.Description
import Pseudonym.Retention.Rules

/-!
# Patterns that match what they describe

Two stars that share a level with other characters stand for any characters whatever, as described.
Two stars that fill a level before another one may also stand for nothing together with the dot
behind them.  A namespace that leaves all these levels out has fewer dots than the pattern, and
nothing that a pattern describes has.  So a pattern matches what it describes exactly if it has no
such level.
-/

namespace Pseudonym
namespace Retention

open Glob

/-! ## Levels -/

/-- The levels of a pattern that begin here or later. -/
def levelsFrom (begins : Bool) (text : List Char) : List (List Char) :=
  if begins then Text.pieces '.' text else (Text.pieces '.' text).tail

lemma exists_pieces_eq_cons (text : List Char) :
    ∃ first later, Text.pieces '.' text = first :: later :=
  List.exists_cons_of_ne_nil (Text.pieces_ne_nil '.' text)

/-- The first level and the dot behind it, if there is one, are the beginning of the text. -/
lemma prefix_iff_of_pieces {text level first : List Char} {later : List (List Char)}
    (hdot : '.' ∉ level) (h : Text.pieces '.' text = first :: later) :
    level ++ ['.'] <+: text ↔ later ≠ [] ∧ first = level := by
  induction level generalizing text first with
  | nil =>
    cases text with
    | nil => simp_all
    | cons c rest =>
      obtain ⟨first', later', hrest⟩ := exists_pieces_eq_cons rest
      rw [Text.pieces_cons, hrest] at h
      split at h
      · obtain ⟨rfl, rfl⟩ := List.cons.inj h
        simp [*]
      · obtain ⟨rfl, -⟩ := List.cons.inj h
        simp_all [eq_comm]
  | cons d level ih =>
    rw [List.mem_cons, not_or] at hdot
    cases text with
    | nil => simp_all
    | cons c rest =>
      obtain ⟨first', later', hrest⟩ := exists_pieces_eq_cons rest
      rw [Text.pieces_cons, hrest] at h
      rw [List.cons_append, List.cons_prefix_cons]
      split at h
      · obtain ⟨rfl, -⟩ := List.cons.inj h
        refine iff_of_false (fun hstarred => hdot.1 ?_) (by simp)
        rw [hstarred.1, ‹c = '.'›]
      · obtain ⟨rfl, rfl⟩ := List.cons.inj h
        rw [ih hdot.2 hrest, List.cons.injEq, eq_comm, and_left_comm]

lemma tail_pieces_cons (c : Char) (rest : List Char) :
    (Text.pieces '.' (c :: rest)).tail = levelsFrom (c = '.') rest := by
  obtain ⟨first, later, hrest⟩ := exists_pieces_eq_cons rest
  rw [Text.pieces_cons, levelsFrom, hrest]
  by_cases hc : c = '.' <;> simp [hc, Text.consFirst]

/-- Two stars fill a level before another one here, or behind the first character. -/
lemma mem_dropLast_levelsFrom_cons {begins : Bool} {c : Char} {rest : List Char} :
    ['*', '*'] ∈ (levelsFrom begins (c :: rest)).dropLast ↔
      (begins = true ∧ ['*', '*', '.'] <+: c :: rest) ∨
        ['*', '*'] ∈ (levelsFrom (c = '.') rest).dropLast := by
  rw [← tail_pieces_cons]
  cases begins with
  | false => simp [levelsFrom]
  | true =>
    obtain ⟨first, later, htext⟩ := exists_pieces_eq_cons (c :: rest)
    have hstarred : ['*', '*', '.'] <+: c :: rest ↔ later ≠ [] ∧ first = ['*', '*'] :=
      show ['*', '*'] ++ ['.'] <+: c :: rest ↔ _ from prefix_iff_of_pieces (by decide) htext
    rw [levelsFrom, if_pos rfl, htext, List.tail_cons, hstarred]
    cases later with
    | nil => simp
    | cons level later => simp [eq_comm]

/-- Two stars that fill no level before another one leave the levels behind them. -/
lemma mem_dropLast_levelsFrom_stars {begins : Bool} {rest : List Char}
    (h : ∀ tail, begins = true → rest ≠ '.' :: tail) :
    ['*', '*'] ∈ (levelsFrom begins ('*' :: '*' :: rest)).dropLast ↔
      ['*', '*'] ∈ (levelsFrom false rest).dropLast := by
  rw [mem_dropLast_levelsFrom_cons, mem_dropLast_levelsFrom_cons, or_iff_right, or_iff_right]
  · rfl
  · exact fun hdot => absurd hdot.1 (by decide)
  · rintro ⟨hbegins, tail, htail⟩
    exact h tail hbegins (List.cons.inj (List.cons.inj htail).2).2.symm

/-- So does a character that is not the first of two stars. -/
lemma mem_dropLast_levelsFrom_sign {begins : Bool} {c : Char} {rest : List Char}
    (h : ∀ tail, c = '*' → rest ≠ '*' :: tail) :
    ['*', '*'] ∈ (levelsFrom begins (c :: rest)).dropLast ↔
      ['*', '*'] ∈ (levelsFrom (c = '.') rest).dropLast := by
  rw [mem_dropLast_levelsFrom_cons, or_iff_right]
  rintro ⟨-, tail, htail⟩
  obtain ⟨hc, hrest⟩ := List.cons.inj htail
  exact h _ hc.symm hrest.symm

lemma matched_eq_described {begins : Bool} {text : List Char}
    (h : ['*', '*'] ∉ (levelsFrom begins text).dropLast) :
    matched begins text = described text := by
  fun_induction matched begins text with
  | case1 => rfl
  | case2 rest ih =>
    exact absurd (mem_dropLast_levelsFrom_cons.2 (.inl ⟨rfl, List.prefix_append _ rest⟩)) h
  | case3 begins rest hlevel ih =>
    rw [mem_dropLast_levelsFrom_stars hlevel] at h
    rw [ih h, described]
  | case4 begins c rest hlevel hstars ih =>
    rw [mem_dropLast_levelsFrom_sign hstars] at h
    rw [ih h, described]
    exact hstars

/-- Every dot of a pattern is found in what it describes. -/
lemma count_le_of_mem_described {text run : List Char} (h : run ∈ described text) :
    text.count '.' ≤ run.count '.' := by
  fun_induction described text generalizing run with
  | case1 => simp
  | case2 rest ih =>
    obtain ⟨front, -, back, hback, rfl⟩ := Language.mem_mul.1 h
    have hcount := ih hback
    rw [List.count_append]
    exact Nat.le_add_left_of_le (by simpa using hcount)
  | case3 c rest hstars ih =>
    obtain ⟨front, hfront, back, hback, rfl⟩ := Language.mem_mul.1 h
    have hsign : [c].count '.' ≤ front.count '.' := by
      by_cases hc : c = '.'
      · subst c
        rw [hfront]
      · simp [hc]
    rw [← List.singleton_append, List.count_append, List.count_append]
    exact Nat.add_le_add hsign (ih hback)

lemma exists_mem_signLanguage {c : Char} (hc : IsNameChar c) :
    ∃ run ∈ signLanguage c, (∀ d ∈ run, IsNameChar d) ∧ run.count '.' = [c].count '.' := by
  by_cases hquestion : c = '?'
  · exact ⟨['x'], hquestion ▸ ⟨'x', by decide, rfl⟩, by simp [IsNameChar], by rw [hquestion]; rfl⟩
  · by_cases hstar : c = '*'
    · exact ⟨[], hstar ▸ List.not_mem_nil, by simp, by rw [hstar]; rfl⟩
    · refine ⟨[c], ?_, by simpa using hc, rfl⟩
      rw [signLanguage, if_neg hquestion, if_neg hstar]
      rfl

/-- A pattern matches a namespace that leaves out all levels that can be left out. -/
lemma exists_mem_matched {begins : Bool} {text : List Char} (htext : ∀ c ∈ text, IsNameChar c) :
    ∃ run ∈ matched begins text, (∀ c ∈ run, IsNameChar c) ∧ run.count '.' ≤ text.count '.' ∧
      (['*', '*'] ∈ (levelsFrom begins text).dropLast → run.count '.' < text.count '.') := by
  fun_induction matched begins text with
  | case1 begins => exact ⟨[], rfl, by simp, le_rfl, by cases begins <;> simp [levelsFrom]⟩
  | case2 rest ih =>
    obtain ⟨run, hrun, hnames, hcount, -⟩ := ih fun c hc => htext c (by simp [hc])
    have hfewer : run.count '.' < ('*' :: '*' :: '.' :: rest).count '.' := by
      simpa using Nat.lt_succ_of_le hcount
    have hnil : [] ∈ (1 : Language Char) + ⊤ * {['.']} :=
      (Language.mem_add _ _ _).2 (.inl Language.nil_mem_one)
    exact ⟨run, Language.append_mem_mul hnil hrun, hnames, hfewer.le, fun _ => hfewer⟩
  | case3 begins rest hlevel ih =>
    obtain ⟨run, hrun, hnames, hcount, hfewer⟩ := ih fun c hc => htext c (by simp [hc])
    rw [mem_dropLast_levelsFrom_stars hlevel]
    exact ⟨run, Language.append_mem_mul (a := []) trivial hrun, hnames, by simpa using hcount,
      by simpa using hfewer⟩
  | case4 begins c rest hlevel hstars ih =>
    obtain ⟨hc, hrest⟩ := List.forall_mem_cons.1 htext
    obtain ⟨run, hrun, hnames, hcount, hfewer⟩ := ih hrest
    obtain ⟨front, hfront, hfrontnames, hfrontcount⟩ := exists_mem_signLanguage hc
    rw [mem_dropLast_levelsFrom_sign hstars, ← List.singleton_append, List.count_append]
    refine ⟨front ++ run, Language.append_mem_mul hfront hrun,
      List.forall_mem_append.2 ⟨hfrontnames, hnames⟩, ?_⟩
    rw [List.count_append, hfrontcount]
    exact ⟨Nat.add_le_add_left hcount _, fun hmem => Nat.add_lt_add_left (hfewer hmem) _⟩

/-! ## The matcher -/

lemma IsPatternChar.isNameChar {c : Char} (h : IsPatternChar c) : IsNameChar c :=
  ⟨h.1, fun hslash => h.2.2 (by simp [hslash])⟩

lemma IsPatternChar.isOrdinary {c : Char} (h : IsPatternChar c) : IsOrdinary c := by
  have hmem := h.2.2
  simp only [List.mem_cons, not_or] at hmem
  simp [IsOrdinary, hmem]

/-- Levels of two stars are before another one if there is nothing else. -/
lemma mem_dropLast_pieces_starLevels (n : Nat) :
    ['*', '*'] ∈ (Text.pieces '.' (starLevels (n + 1))).dropLast :=
  show ['*', '*'] ∈ (levelsFrom true (starLevels (n + 1))).dropLast from
    mem_dropLast_levelsFrom_cons.2 (.inl ⟨rfl, List.prefix_append _ _⟩)

/-- Without a level of two stars before another one, a pattern matches what it describes. -/
lemma matched_iff_described {text run : List Char}
    (h : ['*', '*'] ∉ (Text.pieces '.' text).dropLast) :
    ((∃ n, text = starLevels (n + 1)) ∨ run ∈ matched true text) ↔ run ∈ described text := by
  have hmatched : matched true text = described text := matched_eq_described h
  rw [hmatched, or_iff_right]
  rintro ⟨n, rfl⟩
  exact h (mem_dropLast_pieces_starLevels n)

/-- The globs of a plain pattern match what the pattern matches. -/
lemma exists_readGlobs_iff {text : List Char} (h : IsPlainPattern text) :
    ∃ globs, readGlobs text = .ok globs ∧ ∀ namespaceName, IsPlainNamespace namespaceName →
      ((∃ glob ∈ globs, glob.accepts (pathOf namespaceName) = true) ↔
        (∃ n, text = starLevels (n + 1)) ∨ namespaceName.toList ∈ matched true text) := by
  have hnames : ∀ c ∈ text, IsNameChar c := fun c hc => (h.isPatternChar c hc).isNameChar
  obtain ⟨globs, hglobs, hmatch⟩ :=
    exists_readGlobs (fun c hc => (h.isPatternChar c hc).isOrdinary) h.noTriple
  have hcorresponds : Corresponds (matched true text) (meaning ⊤ .level (slashesForDots text)) :=
    corresponds_matched hnames
  refine ⟨globs, hglobs, fun namespaceName hplain => ?_⟩
  rw [hmatch, mem_meaning_start_iff hnames, pathOf_eq hplain]
  exact or_congr_right (hcorresponds _ hplain).symm

lemma trim_of_forall {text : List Char} (h : ∀ c ∈ text, Unicode.isWhiteSpace c = false) :
    Text.trim text = text := by
  have hdrop : ∀ {run : List Char}, (∀ c ∈ run, Unicode.isWhiteSpace c = false) →
      run.dropWhile Unicode.isWhiteSpace = run := fun hrun =>
    List.dropWhile_eq_self_iff.2 fun hlength => by simp [hrun _ (List.getElem_mem hlength)]
  rw [Text.trim, hdrop h, Text.dropLastWhile, hdrop (by simpa using h), List.reverse_reverse]

/-- A list of one plain pattern is read as this pattern. -/
lemma parse_singleton {text : List Char} (h : IsPlainPattern text) (hne : text ≠ [])
    {globs : List Glob} (hglobs : readGlobs text = .ok globs) :
    Rules.parse [String.ofList text] = .ok ⟨[⟨true, globs⟩]⟩ := by
  have hcomma : ',' ∉ text := fun hmem => absurd (h.isPatternChar _ hmem) (by decide)
  have hmark : ∀ rest, text ≠ '!' :: rest := by
    rintro rest rfl
    exact absurd (h.isPatternChar '!' List.mem_cons_self) (by decide)
  have hwritten : writtenPatterns (String.ofList text) = [text] := by
    rw [writtenPatterns, String.toList_ofList, Text.pieces_eq_splitOn,
      List.splitOn_eq_singleton hcomma]
    simp [trim_of_forall fun c hc => (h.isPatternChar c hc).2.1, hne]
  have hpattern : Pattern.parse text = .ok ⟨true, globs⟩ := by
    rw [Pattern.parse]
    · simp [hglobs]
    · exact hmark
  rw [Rules.parse, List.flatMap_singleton, hwritten, List.mapM_cons, hpattern]
  rfl

lemma keeps_singleton (globs : List Glob) (namespaceName : String) :
    Rules.keeps ⟨[⟨true, globs⟩]⟩ namespaceName = true ↔
      ∃ glob ∈ globs, glob.accepts (pathOf namespaceName) = true := by
  rw [Rules.keeps, Rules.deciding?, List.find?_cons, Pattern.accepts]
  split <;> simp_all

end Retention

open Retention

/-- A plain pattern of which no level is two stars can be read, and some of the globs written out
for it matches the path of a plain namespace exactly if the pattern describes the namespace. -/
theorem shared_double_stars_match_described {text : List Char} (htext : IsPlainPattern text)
    (hshared : ['*', '*'] ∉ Text.pieces '.' text) :
    ∃ globs, readGlobs text = .ok globs ∧ ∀ namespaceName, IsPlainNamespace namespaceName →
      ((∃ glob ∈ globs, glob.accepts (pathOf namespaceName) = true) ↔
        namespaceName.toList ∈ described text) := by
  have hlevels : ['*', '*'] ∉ (Text.pieces '.' text).dropLast :=
    fun hmem => hshared (List.dropLast_subset _ hmem)
  obtain ⟨globs, hglobs, hmatch⟩ := exists_readGlobs_iff htext
  refine ⟨globs, hglobs, fun namespaceName hplain => ?_⟩
  rw [hmatch namespaceName hplain]
  exact matched_iff_described hlevels

theorem shared_double_stars_match_described_fragments :
    IsPlainPattern "**ex**.?impl**".toList ∧
      ['*', '*'] ∉ Text.pieces '.' "**ex**.?impl**".toList ∧
      ∃ globs, readGlobs "**ex**.?impl**".toList = .ok globs ∧
        ∀ namespaceName, IsPlainNamespace namespaceName →
          ((∃ glob ∈ globs, glob.accepts (pathOf namespaceName) = true) ↔
            namespaceName.toList ∈ described "**ex**.?impl**".toList) :=
  ⟨by decide +kernel, by decide +kernel,
    shared_double_stars_match_described (by decide +kernel) (by decide +kernel)⟩

/-- A plain pattern that is not empty can be read.  It keeps the namespaces that it matches, or all
if it has nothing but levels of two stars and ends in a dot.  These are the namespaces that it
describes exactly if two stars fill none of its levels but possibly the last one. -/
theorem double_star_levels_match_described_iff {text : List Char} (htext : IsPlainPattern text)
    (hne : text ≠ []) :
    ∃ rules, Rules.parse [String.ofList text] = .ok rules ∧
      (∀ namespaceName, IsPlainNamespace namespaceName →
        (rules.keeps namespaceName = true ↔
          (∃ n, text = starLevels (n + 1)) ∨ namespaceName.toList ∈ matched true text)) ∧
      ((∀ namespaceName, IsPlainNamespace namespaceName →
        (rules.keeps namespaceName = true ↔ namespaceName.toList ∈ described text)) ↔
        ['*', '*'] ∉ (Text.pieces '.' text).dropLast) := by
  obtain ⟨globs, hglobs, hmatch⟩ := exists_readGlobs_iff htext
  simp only [← keeps_singleton] at hmatch
  refine ⟨_, parse_singleton htext hne hglobs, hmatch, ?_⟩
  constructor
  · intro hall hlevel
    obtain ⟨run, hrun, hnames, -, hfewer⟩ : ∃ run ∈ matched true text, _ :=
      exists_mem_matched fun c hc => (htext.isPatternChar c hc).isNameChar
    have hplain : IsPlainNamespace (String.ofList run) := by
      rwa [IsPlainNamespace, String.toList_ofList]
    have hdescribed := (hall _ hplain).1 ((hmatch _ hplain).2 (.inr ?_))
    · rw [String.toList_ofList] at hdescribed
      exact (hfewer hlevel).not_ge (count_le_of_mem_described hdescribed)
    · rwa [String.toList_ofList]
  · intro hlevels namespaceName hplain
    rw [hmatch namespaceName hplain]
    exact matched_iff_described hlevels

theorem double_star_levels_match_described_iff_last :
    IsPlainPattern "com.?.**".toList ∧ "com.?.**".toList ≠ [] ∧
      ∃ rules, Rules.parse ["com.?.**"] = .ok rules ∧
        ∀ namespaceName, IsPlainNamespace namespaceName →
          (rules.keeps namespaceName = true ↔
            namespaceName.toList ∈ described "com.?.**".toList) := by
  have hplain : IsPlainPattern "com.?.**".toList := by decide +kernel
  have hne : "com.?.**".toList ≠ [] := by decide
  obtain ⟨rules, hparse, -, hiff⟩ := double_star_levels_match_described_iff hplain hne
  exact ⟨hplain, hne, rules, hparse, hiff.2 (by decide +kernel)⟩

/-- Two stars and a dot keep all namespaces, also those without a dot. -/
example : (Rules.parse ["**."]).map (·.keeps "com") = .ok true := by
  decide +kernel

/-- Two stars that fill a level stand for nothing together with the dot behind them, although the
pattern has two dots and the namespace has only one. -/
theorem double_star_level_takes_dot :
    IsPlainPattern "com.**.impl".toList ∧
      Text.pieces '.' "com.**.impl".toList = ["com".toList, "**".toList, "impl".toList] ∧
      IsPlainNamespace "com.impl" ∧
      (Rules.parse ["com.**.impl"]).map (·.keeps "com.impl") = .ok true ∧
      "com.impl".toList ∉ described "com.**.impl".toList := by
  refine ⟨by decide +kernel, by decide, by decide +kernel, by decide +kernel, fun hmem => ?_⟩
  exact absurd (count_le_of_mem_described hmem) (by decide)

end Pseudonym
