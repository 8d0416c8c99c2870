import Mathlib.Computability.Language
import Pseudonym.Glob.Matching

/-!
# Globs as languages

What a token eats is a language, a row of tokens eats the product of their languages, and a path
matches a glob exactly if it is in the language of the glob.  The languages of stars satisfy a few
equations: whole levels before a run within a level are anything at all, and so is a run within a
level that may be followed by a slash and anything.
-/

namespace Pseudonym
namespace Glob

/-! ## Languages of tokens -/

/-- A slash. -/
def separator : Language UInt8 := {[slash]}

/-- The runs that stay within a level. -/
def inLevel : Language UInt8 := {run | slash ∉ run}

/-- One byte of the right kind. -/
def oneByte (right : UInt8 → Bool) : Language UInt8 := {run | ∃ b, right b = true ∧ run = [b]}

/-- Any number of levels, each with the slash behind it. -/
def wholeLevels : Language UInt8 := 1 + ⊤ * separator

/-- What a token eats. -/
def Token.language : Token → Language UInt8
  | .literal c => {String.utf8EncodeChar c}
  | .one => oneByte (· ≠ slash)
  | .many => inLevel
  | .leading => wholeLevels
  | .trailing => separator * ⊤
  | .between => separator * wholeLevels
  | .oneOf negated spans => oneByte fun b => spans.any (·.holds b) != negated
  | .groupEnd => 1

/-- What a row of tokens eats. -/
def rowLanguage (tokens : List Token) : Language UInt8 := (tokens.map Token.language).prod

@[simp] lemma rowLanguage_nil : rowLanguage [] = 1 := rfl

@[simp] lemma rowLanguage_append (tokens others : List Token) :
    rowLanguage (tokens ++ others) = rowLanguage tokens * rowLanguage others := by
  simp [rowLanguage]

@[simp] lemma rowLanguage_singleton (token : Token) : rowLanguage [token] = token.language := by
  simp [rowLanguage]

/-- The paths that match a glob. -/
def language : Glob → Language UInt8
  | .everything => ⊤
  | .row tokens => rowLanguage tokens

/-! ## Membership -/

lemma mem_top (run : List UInt8) : run ∈ (⊤ : Language UInt8) := trivial

lemma mem_text {text run : List UInt8} : run ∈ ({text} : Language UInt8) ↔ run = text := Iff.rfl

lemma mem_separator {run : List UInt8} : run ∈ separator ↔ run = [slash] := Iff.rfl

lemma mem_inLevel {run : List UInt8} : run ∈ inLevel ↔ slash ∉ run := Iff.rfl

lemma mem_oneByte {right : UInt8 → Bool} {run : List UInt8} :
    run ∈ oneByte right ↔ ∃ b, right b = true ∧ run = [b] := Iff.rfl

lemma mem_wholeLevels {run : List UInt8} :
    run ∈ wholeLevels ↔ run = [] ∨ ∃ levels, levels ++ [slash] = run := by
  simp [wholeLevels, Language.mem_add, Language.mem_mul, Language.mem_one, mem_separator, mem_top]

/-! ## What a token leaves -/

lemma mem_eat_iff {front path rest : List UInt8} :
    rest ∈ (eat? front path).toList ↔ front ++ rest = path := by
  rw [Option.mem_toList]
  induction front generalizing path with
  | nil => simp [eat?, eq_comm]
  | cons a front ih =>
    cases path with
    | nil => simp [eat?]
    | cons b path =>
      rw [eat?]
      split
      · subst b
        simp [ih]
      · simp [*]

lemma mem_afterLevel_iff {path rest : List UInt8} :
    rest ∈ afterLevel path ↔ ∃ run, slash ∉ run ∧ run ++ rest = path := by
  induction path with
  | nil => simp [afterLevel]
  | cons b path ih =>
    rw [afterLevel, List.mem_cons]
    constructor
    · rintro (rfl | hrest)
      · exact ⟨[], by simp⟩
      · split at hrest
        · simp at hrest
        · rename_i hb
          obtain ⟨run, hrun, rfl⟩ := ih.1 hrest
          exact ⟨b :: run, by simp [hrun, Ne.symm hb], rfl⟩
    · rintro ⟨run, hrun, heq⟩
      cases run with
      | nil => exact .inl heq
      | cons a run =>
        obtain ⟨rfl, rfl⟩ := List.cons.inj heq
        rw [List.mem_cons, not_or] at hrun
        right
        rw [if_neg (Ne.symm hrun.1)]
        exact ih.2 ⟨run, hrun.2, rfl⟩

lemma mem_afterAnything_iff {path rest : List UInt8} :
    rest ∈ afterAnything path ↔ ∃ run, run ++ rest = path := by
  induction path with
  | nil => simp [afterAnything]
  | cons b path ih =>
    rw [afterAnything, List.mem_cons, ih]
    constructor
    · rintro (rfl | ⟨run, rfl⟩)
      · exact ⟨[], rfl⟩
      · exact ⟨b :: run, rfl⟩
    · rintro ⟨run, heq⟩
      cases run with
      | nil => exact .inl heq
      | cons a run => exact .inr ⟨run, (List.cons.inj heq).2⟩

lemma mem_afterSlashes_iff {path rest : List UInt8} :
    rest ∈ afterSlashes path ↔ ∃ levels, levels ++ [slash] ++ rest = path := by
  induction path with
  | nil => simp [afterSlashes]
  | cons b path ih =>
    rw [afterSlashes]
    constructor
    · intro hrest
      split at hrest
      · rcases List.mem_cons.1 hrest with rfl | hrest
        · exact ⟨[], by simp [*]⟩
        · obtain ⟨levels, rfl⟩ := ih.1 hrest
          exact ⟨b :: levels, rfl⟩
      · obtain ⟨levels, rfl⟩ := ih.1 hrest
        exact ⟨b :: levels, rfl⟩
    · rintro ⟨levels, heq⟩
      cases levels with
      | nil =>
        obtain ⟨rfl, rfl⟩ := List.cons.inj heq
        simp
      | cons a levels =>
        have hrest := ih.2 ⟨levels, (List.cons.inj heq).2⟩
        split
        · exact List.mem_cons_of_mem path hrest
        · exact hrest

/-- What whole levels leave. -/
lemma mem_after_levels_iff {path rest : List UInt8} :
    rest ∈ path :: afterSlashes path ↔ ∃ run ∈ wholeLevels, run ++ rest = path := by
  simp only [List.mem_cons, mem_afterSlashes_iff, mem_wholeLevels]
  constructor
  · rintro (rfl | ⟨levels, rfl⟩)
    · exact ⟨[], .inl rfl, rfl⟩
    · exact ⟨levels ++ [slash], .inr ⟨levels, rfl⟩, rfl⟩
  · rintro ⟨_, rfl | ⟨levels, rfl⟩, heq⟩
    · exact .inl heq
    · exact .inr ⟨levels, heq⟩

lemma mem_afterByte_iff {right : UInt8 → Bool} {path rest : List UInt8} :
    rest ∈ afterByte right path ↔ ∃ run ∈ oneByte right, run ++ rest = path := by
  cases path with
  | nil => simp [afterByte, mem_oneByte]
  | cons b path =>
    rw [afterByte]
    constructor
    · intro hrest
      split at hrest
      · rename_i hb
        exact ⟨[b], ⟨b, hb, rfl⟩, by simp [List.mem_singleton.1 hrest]⟩
      · simp at hrest
    · rintro ⟨_, ⟨a, ha, rfl⟩, heq⟩
      obtain ⟨rfl, rfl⟩ := List.cons.inj heq
      simp [ha]

/-- A token leaves what stands behind something that it eats. -/
lemma mem_after_iff {token : Token} {path rest : List UInt8} :
    rest ∈ token.after path ↔ ∃ run ∈ token.language, run ++ rest = path := by
  cases token with
  | literal c =>
    rw [Token.after, mem_eat_iff]
    simp [Token.language, mem_text]
  | one => exact mem_afterByte_iff
  | many => exact mem_afterLevel_iff
  | leading => exact mem_after_levels_iff
  | trailing =>
    simp only [Token.after, Token.language, List.mem_flatMap, mem_eat_iff, mem_afterAnything_iff,
      Language.mem_mul, mem_separator]
    constructor
    · rintro ⟨_, rfl, run, rfl⟩
      exact ⟨[slash] ++ run, ⟨_, rfl, run, mem_top run, rfl⟩, by simp⟩
    · rintro ⟨_, ⟨_, rfl, run, -, rfl⟩, rfl⟩
      exact ⟨run ++ rest, by simp, run, rfl⟩
  | between =>
    simp only [Token.after, Token.language, List.mem_flatMap, mem_eat_iff, mem_after_levels_iff,
      Language.mem_mul, mem_separator]
    constructor
    · rintro ⟨_, rfl, run, hrun, rfl⟩
      exact ⟨[slash] ++ run, ⟨_, rfl, run, hrun, rfl⟩, by simp⟩
    · rintro ⟨_, ⟨_, rfl, run, hrun, rfl⟩, rfl⟩
      exact ⟨run ++ rest, by simp, run, hrun, rfl⟩
  | oneOf negated spans => exact mem_afterByte_iff
  | groupEnd => simp [Token.after, Token.language, Language.mem_one, eq_comm]

lemma eatsUp_iff {tokens : List Token} {path : List UInt8} :
    eatsUp tokens path = true ↔ path ∈ rowLanguage tokens := by
  induction tokens generalizing path with
  | nil => simp [eatsUp, Language.mem_one]
  | cons token tokens ih =>
    rw [eatsUp, List.any_eq_true, rowLanguage, List.map_cons, List.prod_cons, ← rowLanguage,
      Language.mem_mul]
    simp only [ih, mem_after_iff]
    constructor
    · rintro ⟨rest, ⟨run, hrun, rfl⟩, hrest⟩
      exact ⟨run, hrun, rest, hrest, rfl⟩
    · rintro ⟨run, hrun, rest, hrest, rfl⟩
      exact ⟨rest, ⟨run, hrun, rfl⟩, hrest⟩

/-- The paths that match are those in the language of the glob. -/
theorem accepts_iff {glob : Glob} {path : List UInt8} :
    glob.accepts path = true ↔ path ∈ glob.language := by
  cases glob with
  | everything => simp [language, mem_top]
  | row tokens =>
    rw [accepts_row]
    exact eatsUp_iff

/-! ## Equations between stars -/

lemma inLevel_mul_inLevel : inLevel * inLevel = inLevel := by
  ext run
  simp only [Language.mem_mul, mem_inLevel]
  constructor
  · rintro ⟨front, hfront, back, hback, rfl⟩
    simp [hfront, hback]
  · intro hrun
    exact ⟨[], by simp, run, hrun, rfl⟩

lemma wholeLevels_mul_top : wholeLevels * ⊤ = ⊤ := by
  ext run
  refine iff_of_true ?_ (mem_top run)
  exact Language.mem_mul.2 ⟨[], mem_wholeLevels.2 (.inl rfl), run, mem_top run, rfl⟩

lemma wholeLevels_mul_wholeLevels : wholeLevels * wholeLevels = wholeLevels := by
  calc wholeLevels * wholeLevels
      = wholeLevels * (1 + ⊤ * separator) := rfl
    _ = wholeLevels + wholeLevels * ⊤ * separator := by rw [mul_add, mul_one, mul_assoc]
    _ = 1 + (⊤ * separator + ⊤ * separator) := by
        rw [wholeLevels_mul_top, wholeLevels, add_assoc]
    _ = wholeLevels := by rw [Language.add_self, wholeLevels]

/-- Behind the last slash the last level begins. -/
lemma wholeLevels_mul_inLevel : wholeLevels * inLevel = ⊤ := by
  ext run
  refine iff_of_true ?_ (mem_top run)
  rw [Language.mem_mul]
  by_cases hslash : slash ∈ run
  · obtain ⟨back, front, hrun, hback⟩ := List.eq_append_cons_of_mem (List.mem_reverse.2 hslash)
    have heq : run = (front.reverse ++ [slash]) ++ back.reverse := by
      rw [← List.reverse_reverse run, hrun]
      simp
    exact ⟨front.reverse ++ [slash], mem_wholeLevels.2 (.inr ⟨_, rfl⟩), back.reverse,
      by simpa [mem_inLevel] using hback, heq.symm⟩
  · exact ⟨[], mem_wholeLevels.2 (.inl rfl), run, hslash, rfl⟩

/-- The first level ends at the end or at the first slash. -/
lemma inLevel_add_inLevel_mul : inLevel + inLevel * (separator * ⊤) = ⊤ := by
  ext run
  refine iff_of_true ?_ (mem_top run)
  rw [Language.mem_add, Language.mem_mul]
  by_cases hslash : slash ∈ run
  · obtain ⟨front, back, rfl, hfront⟩ := List.eq_append_cons_of_mem hslash
    exact .inr ⟨front, hfront, slash :: back,
      Language.append_mem_mul (mem_separator.2 rfl) (mem_top back), rfl⟩
  · exact .inl hslash

end Glob
end Pseudonym
