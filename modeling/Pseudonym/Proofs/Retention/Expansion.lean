import Mathlib.Algebra.BigOperators.Ring.List
import Pseudonym.Proofs.Glob.Reading
import Pseudonym.Retention.Pattern

/-!
# What the globs of a pattern match together

Two stars that share a level with other characters are written out as a glob in which they stay
within the level and one in which they cross into further levels.  Whatever stands on their two
sides, the two together match anything at all there: a run of bytes either has no slash, or it can
be cut at its first and at its last one.  So the globs of a pattern match together what the pattern
means if two stars inside a level stand for everything (`sum_meaning_expand`).
-/

namespace Pseudonym
namespace Retention

open Glob

/-! ## Writing out -/

/-- No run of three stars. -/
def NoTriple (text : List Char) : Prop := ¬ ['*', '*', '*'] <:+: text

instance (text : List Char) : Decidable (NoTriple text) := inferInstanceAs (Decidable (¬ _))

lemma NoTriple.tail {c : Char} {text : List Char} (h : NoTriple (c :: text)) : NoTriple text :=
  fun hrun => h (hrun.trans (List.suffix_cons c text).isInfix)

lemma NoTriple.head?_ne {text : List Char} (h : NoTriple ('*' :: '*' :: text)) :
    text.head? ≠ some '*' := by
  apply head?_ne_of_forall_ne
  rintro rest rfl
  exact h (List.prefix_append ['*', '*', '*'] rest).isInfix

lemma expand_cons {begins : Bool} {c : Char} {rest : List Char}
    (h : c = '*' → rest.head? ≠ some '*') :
    expand begins (c :: rest) = (expand (c = '/') rest).map (c :: ·) := by
  rw [expand]
  exact fun _ hc hrest => h hc (hrest ▸ rfl)

lemma expand_levels {rest : List Char} :
    expand true ('*' :: '*' :: '/' :: rest) = (expand true rest).map (['*', '*', '/'] ++ ·) := by
  rw [expand, expand_cons (by simp), List.map_map]
  rfl

lemma expand_shared {begins : Bool} {rest : List Char}
    (h : (begins && rest.head?.all (· = '/')) = false) :
    expand begins ('*' :: '*' :: rest) =
      (expand false rest).map ('*' :: ·) ++
        (expand false rest).map (crossing begins (rest.head?.all (· = '/')) ++ ·) := by
  rw [expand]
  simp [h]

/-- The globs begin with what the pattern begins with, if this is no star. -/
lemma head?_of_mem_expand {begins : Bool} {text glob : List Char} (h : text.head? ≠ some '*')
    (hglob : glob ∈ expand begins text) : glob.head? = text.head? := by
  cases text with
  | nil =>
    rw [expand, List.mem_singleton] at hglob
    rw [hglob]
  | cons c rest =>
    rw [expand_cons (by simp_all), List.mem_map] at hglob
    obtain ⟨glob, -, rfl⟩ := hglob
    rfl

lemma mem_crossing {begins ends : Bool} : ∀ c ∈ crossing begins ends, c = '*' ∨ c = '/' := by
  cases begins <;> cases ends <;> simp [crossing]

/-- Writing out adds no characters but stars and slashes. -/
lemma mem_of_mem_expand {begins : Bool} {text glob : List Char} (hglob : glob ∈ expand begins text)
    {c : Char} (hc : c ∈ glob) : c ∈ text ∨ c = '*' ∨ c = '/' := by
  fun_induction expand begins text generalizing glob with
  | case1 => simp_all
  | case2 begins rest ends globs hwhole =>
    rename_i ih
    obtain ⟨later, hlater, rfl⟩ := List.mem_map.1 hglob
    rcases List.mem_append.1 hc with hc | hc
    · simp_all
    · exact (ih hlater hc).imp_left fun hmem => by simp [hmem]
  | case3 begins rest ends globs hshared =>
    rename_i ih
    obtain ⟨front, later, hfront, hlater, rfl⟩ : ∃ front later,
        (∀ c ∈ front, c = '*' ∨ c = '/') ∧ later ∈ expand false rest ∧ front ++ later = glob := by
      rcases List.mem_append.1 hglob with hglob | hglob
      · obtain ⟨later, hlater, rfl⟩ := List.mem_map.1 hglob
        exact ⟨['*'], later, by simp, hlater, rfl⟩
      · obtain ⟨later, hlater, rfl⟩ := List.mem_map.1 hglob
        exact ⟨crossing begins ends, later, mem_crossing, hlater, rfl⟩
    rcases List.mem_append.1 hc with hc | hc
    · exact .inr (hfront c hc)
    · exact (ih hlater hc).imp_left fun hmem => by simp [hmem]
  | case4 begins d rest hstars ih =>
    obtain ⟨later, hlater, rfl⟩ := List.mem_map.1 hglob
    rcases List.mem_cons.1 hc with rfl | hc
    · exact .inl List.mem_cons_self
    · exact (ih hlater hc).imp_left (List.mem_cons_of_mem d)

/-! ## Both readings -/

/-- What is written before every glob. -/
lemma sum_meaning_map {place place' : Place} {globs : List (List Char)}
    {write : List Char → List Char} {before : Language UInt8}
    (h : ∀ glob ∈ globs, meaning inLevel place (write glob) =
      before * meaning inLevel place' glob) :
    ((globs.map write).map (meaning inLevel place)).sum =
      before * (globs.map (meaning inLevel place')).sum := by
  rw [List.map_map, ← List.sum_map_mul_left]
  exact congrArg List.sum (List.map_congr_left h)

/-- If the two readings of two stars are anything together, so are the globs before what follows. -/
lemma sum_meaning_both {place : Place} {begins ends : Bool} {globs : List (List Char)}
    {across : Language UInt8} (hstar : ∀ glob ∈ globs, glob.head? ≠ some '*')
    (hacross : ∀ glob ∈ globs, meaning inLevel place (crossing begins ends ++ glob) =
      across * meaning inLevel .inside glob)
    (hboth : inLevel + across = ⊤) :
    ((globs.map ('*' :: ·) ++ globs.map (crossing begins ends ++ ·)).map
      (meaning inLevel place)).sum = ⊤ * (globs.map (meaning inLevel .inside)).sum := by
  have hwithin : ∀ glob ∈ globs, meaning inLevel place ('*' :: glob) =
      inLevel * meaning inLevel .inside glob := fun glob hglob =>
    meaning_cons fun _ => hstar glob hglob
  rw [List.map_append, List.sum_append, sum_meaning_map hwithin, sum_meaning_map hacross,
    ← add_mul, hboth]

/-- Whole levels after the first slash and before a last one are anything between the two. -/
lemma inLevel_mul_separator_mul_wholeLevels (later : Language UInt8) :
    inLevel * (separator * (wholeLevels * later)) = ⊤ * (separator * later) := by
  calc inLevel * (separator * (wholeLevels * later))
      = (inLevel + inLevel * (separator * ⊤)) * (separator * later) := by
        rw [wholeLevels]
        simp only [add_mul, mul_add, one_mul, mul_assoc]
    _ = ⊤ * (separator * later) := by rw [inLevel_add_inLevel_mul]

lemma inLevel_add_top : inLevel + ⊤ = ⊤ := by
  ext run
  exact iff_of_true (.inr (mem_top run)) (mem_top run)

/-- What stands before a crossing that begins within a level. -/
lemma meaning_crossing_false {place : Place} {ends : Bool} {glob : List Char} :
    meaning inLevel place (crossing false ends ++ glob) =
      inLevel * (separator * meaning inLevel .level (crossing true ends ++ glob)) := by
  have hcrossing : crossing false ends ++ glob = '*' :: '/' :: (crossing true ends ++ glob) := rfl
  rw [hcrossing, meaning_cons (by simp), meaning_cons (by simp)]
  rfl

/-- A crossing from the beginning of a level into another one. -/
lemma meaning_crossing_true {place : Place} (hbegins : place.begins = true) {glob : List Char}
    (hstar : glob.head? ≠ some '*') :
    meaning inLevel place (crossing true false ++ glob) = ⊤ * meaning inLevel .inside glob := by
  have hcrossing : crossing true false ++ glob = '*' :: '*' :: '/' :: '*' :: glob := rfl
  rw [hcrossing, meaning_levels hbegins, meaning_cons fun _ => hstar, ← mul_assoc]
  exact congrArg (· * _) wholeLevels_mul_inLevel

/-! ## All globs -/

/-- Two stars that share a level stand for everything when they have been written out. -/
lemma sum_meaning_shared {place : Place} {rest : List Char} (hrest : rest.head? ≠ some '*')
    (hshared : (place.begins && rest.head?.all (· = '/')) = false) :
    ((expand place.begins ('*' :: '*' :: rest)).map (meaning inLevel place)).sum =
      ⊤ * ((expand false rest).map (meaning inLevel .inside)).sum := by
  have hstar : ∀ glob ∈ expand false rest, glob.head? ≠ some '*' := by
    intro glob hglob
    rw [head?_of_mem_expand hrest hglob]
    exact hrest
  rw [expand_shared hshared]
  cases hends : rest.head?.all (· = '/') with
  | false =>
    cases hbegins : place.begins with
    | true =>
      exact sum_meaning_both hstar
        (fun glob hglob => meaning_crossing_true hbegins (hstar glob hglob)) inLevel_add_top
    | false =>
      refine sum_meaning_both hstar (fun glob hglob => ?_) inLevel_add_inLevel_mul
      rw [meaning_crossing_false, meaning_crossing_true rfl (hstar glob hglob), mul_assoc,
        mul_assoc]
  | true =>
    have hbegins : place.begins = false := by
      rw [hends, Bool.and_true] at hshared
      exact hshared
    rw [hbegins]
    cases rest with
    | nil =>
      refine sum_meaning_both hstar (fun glob hglob => ?_) inLevel_add_inLevel_mul
      rw [expand, List.mem_singleton] at hglob
      subst glob
      rw [meaning_crossing_false]
      simp [crossing, meaning, Place.begins]
    | cons c rest =>
      obtain rfl : c = '/' := by simpa using hends
      refine sum_meaning_both hstar (fun glob hglob => ?_) inLevel_add_top
      rw [expand_cons (by simp), List.mem_map] at hglob
      obtain ⟨glob, -, rfl⟩ := hglob
      have hslash : meaning inLevel .inside ('/' :: glob) =
          separator * meaning inLevel .level glob := meaning_cons (by simp)
      rw [meaning_crossing_false, hslash]
      exact inLevel_mul_separator_mul_wholeLevels _

/-- The globs of a pattern match together what the pattern means if two stars that share a level
stand for everything. -/
theorem sum_meaning_expand {place : Place} {text : List Char} (h : NoTriple text) :
    ((expand place.begins text).map (meaning inLevel place)).sum = meaning ⊤ place text := by
  -- Along the pattern.  Two stars that share their level stand in the fourth case at its end, in
  -- the sixth before a slash, and in the seventh before more of the level.
  fun_induction meaning ⊤ place text with
  | case1 => simp [expand, meaning]
  | case2 place halone => simp [expand, meaning, halone]
  | case3 place hbegins => simp [expand, meaning, hbegins]
  | case4 place hbegins ih =>
    rw [← ih h.tail.tail]
    exact sum_meaning_shared h.head?_ne (by simpa using hbegins)
  | case5 place rest hbegins ih =>
    rw [← ih h.tail.tail.tail, hbegins, Place.begins_passed, hbegins, expand_levels]
    exact sum_meaning_map fun glob _ => meaning_levels hbegins
  | case6 place rest hbegins ih =>
    rw [← ih h.tail.tail]
    exact sum_meaning_shared h.head?_ne (by simpa using hbegins)
  | case7 place rest hend hslash ih =>
    have hends : rest.head?.all (· = '/') = false := by
      cases rest with
      | nil => exact absurd rfl hend
      | cons c rest =>
        rw [List.head?_cons, Option.all_some, decide_eq_false_iff_not]
        rintro rfl
        exact hslash rest rfl
    rw [← ih h.tail.tail]
    exact sum_meaning_shared h.head?_ne (by rw [hends, Bool.and_false])
  | case8 place c rest hend hslash hstars ih =>
    have hhead : c = '*' → rest.head? ≠ some '*' := fun hc =>
      head?_ne_of_forall_ne fun tail => hstars tail hc
    rw [← ih h.tail, expand_cons hhead, Place.begins_behind]
    refine sum_meaning_map fun glob hglob => meaning_cons fun hc => ?_
    rw [head?_of_mem_expand (hhead hc) hglob]
    exact hhead hc

/-- Reading globs one after another gives the languages that each of them means. -/
lemma exists_mapM_parse {texts : List (List Char)} {means : List Char → Language UInt8}
    (h : ∀ text ∈ texts, ∃ glob, Glob.parse text = .ok glob ∧ glob.language = means text) :
    ∃ globs, texts.mapM Glob.parse = .ok globs ∧ globs.map Glob.language = texts.map means := by
  induction texts with
  | nil => exact ⟨[], rfl, rfl⟩
  | cons text texts ih =>
    obtain ⟨⟨glob, hparse, hlanguage⟩, hrest⟩ := List.forall_mem_cons.1 h
    obtain ⟨globs, hparses, hlanguages⟩ := ih hrest
    refine ⟨glob :: globs, ?_, ?_⟩
    · rw [List.mapM_cons, hparse, hparses]
      rfl
    · rw [List.map_cons, hlanguage, hlanguages, List.map_cons]

lemma isOrdinary_of_mem_slashesForDots {text : List Char} (h : ∀ c ∈ text, IsOrdinary c) {c : Char}
    (hc : c ∈ slashesForDots text) : IsOrdinary c := by
  obtain ⟨d, hd, rfl⟩ := List.mem_map.1 hc
  split
  · simp [IsOrdinary]
  · exact h d hd

lemma NoTriple.slashesForDots {text : List Char} (h : NoTriple text) :
    NoTriple (slashesForDots text) := by
  intro hrun
  obtain ⟨stars, hstars, hmap⟩ := List.infix_map_iff.1 hrun
  have hlength : stars.length = 3 := by simpa using (congrArg List.length hmap).symm
  have hall : ∀ c ∈ stars, c = '*' := by
    intro c hc
    have hmem : (if c = '.' then '/' else c) ∈ ['*', '*', '*'] := hmap ▸ List.mem_map_of_mem hc
    have hstar := List.eq_of_mem_replicate (n := 3) hmem
    split at hstar
    · exact absurd hstar (by decide)
    · exact hstar
  rw [List.eq_replicate_iff.2 ⟨hlength, hall⟩] at hstars
  exact h hstars

lemma mem_sum_iff {globs : List Glob} {path : List UInt8} :
    path ∈ (globs.map Glob.language).sum ↔ ∃ glob ∈ globs, glob.accepts path = true := by
  induction globs with
  | nil => simp [Language.notMem_zero]
  | cons glob globs ih => simp [Language.mem_add, ih, accepts_iff]

/-- The globs of a pattern can be read, and they match what the pattern means. -/
theorem exists_readGlobs {text : List Char} (hordinary : ∀ c ∈ text, IsOrdinary c)
    (htriple : NoTriple text) :
    ∃ globs, readGlobs text = .ok globs ∧
      ∀ path, (∃ glob ∈ globs, glob.accepts path = true) ↔
        path ∈ meaning ⊤ .start (slashesForDots text) := by
  have hread : ∀ glob ∈ expand true (slashesForDots text),
      ∃ read, Glob.parse glob = .ok read ∧ read.language = meaning inLevel .start glob := by
    intro glob hglob
    apply exists_parse
    intro c hc
    rcases mem_of_mem_expand hglob hc with hc | rfl | rfl
    · exact isOrdinary_of_mem_slashesForDots hordinary hc
    · simp [IsOrdinary]
    · simp [IsOrdinary]
  obtain ⟨globs, hglobs, hlanguages⟩ := exists_mapM_parse hread
  refine ⟨globs, hglobs, fun path => ?_⟩
  rw [← mem_sum_iff, hlanguages, ← sum_meaning_expand htriple.slashesForDots]
  rfl

end Retention
end Pseudonym
