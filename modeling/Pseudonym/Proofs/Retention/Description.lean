import Pseudonym.Proofs.ByteOrder
import Pseudonym.Proofs.Retention.Expansion
import Pseudonym.Unicode.WhiteSpace

/-!
# What a pattern describes and what it matches

A pattern is described as a text in which a question mark stands for one character other than a
dot, a star for any number of these, two stars for any characters whatever, and every other
character for itself; so each dot of the pattern must be found in the namespace.  `described` is
this language.

What a pattern matches is `matched`.  It differs where two stars fill a level before another one:
the glob takes the slash behind them as part of them, and both together may stand for nothing.
Where the pattern has nothing but such levels and ends in a dot, it is even read as the one glob
that every path matches.

The globs of a pattern work on bytes, and a namespace is a text.  On plain namespaces, which are
ASCII and have no slash, every character is one byte of the path, so that a language of the one kind
can be compared with one of the other; `Corresponds` says that they are the same.
-/

namespace Pseudonym
namespace Retention

open Glob

/-! ## Patterns and what they describe -/

/-- Whether a character may stand in a plain pattern. -/
def IsPatternChar (c : Char) : Prop :=
  c.toNat < 128 ∧ Unicode.isWhiteSpace c = false ∧
    c ∉ ['/', ',', '!', '[', ']', '\x7b', '\x7d', '\\']

instance (c : Char) : Decidable (IsPatternChar c) := inferInstanceAs (Decidable (_ ∧ _ ∧ _))

/-- A plain pattern, in which only question marks and stars do not stand for themselves. -/
structure IsPlainPattern (text : List Char) : Prop where
  isPatternChar : ∀ c ∈ text, IsPatternChar c
  noTriple : NoTriple text

instance (text : List Char) : Decidable (IsPlainPattern text) :=
  @decidable_of_iff _ ((∀ c ∈ text, IsPatternChar c) ∧ NoTriple text)
    ⟨fun h => ⟨h.1, h.2⟩, fun h => ⟨h.isPatternChar, h.noTriple⟩⟩
    (@instDecidableAnd _ _ (List.decidableBAll _ _) inferInstance)

/-- Whether a character may stand in a plain namespace. -/
def IsNameChar (c : Char) : Prop := c.toNat < 128 ∧ c ≠ '/'

instance (c : Char) : Decidable (IsNameChar c) := inferInstanceAs (Decidable (_ ∧ _))

/-- A plain namespace, which has only ASCII characters and no slash. -/
def IsPlainNamespace (namespaceName : String) : Prop := ∀ c ∈ namespaceName.toList, IsNameChar c

instance (namespaceName : String) : Decidable (IsPlainNamespace namespaceName) :=
  List.decidableBAll _ _

/-- The characters other than a dot. -/
def oneNoDot : Language Char := {run | ∃ c, c ≠ '.' ∧ run = [c]}

/-- The runs of characters other than a dot. -/
def noDots : Language Char := {run | '.' ∉ run}

/-- What a single character of a pattern stands for. -/
def signLanguage (c : Char) : Language Char :=
  if c = '?' then oneNoDot else if c = '*' then noDots else {[c]}

/-- The namespaces that a pattern describes. -/
def described : List Char → Language Char
  | [] => 1
  | '*' :: '*' :: rest => ⊤ * described rest
  | c :: rest => signLanguage c * described rest

/-- The namespaces that a pattern matches.  Two stars that fill a level before another one may also
stand for nothing, together with the dot behind them.  The first argument tells whether a level
begins here. -/
def matched : Bool → List Char → Language Char
  | _, [] => 1
  | true, '*' :: '*' :: '.' :: rest => (1 + ⊤ * {['.']}) * matched true rest
  | _, '*' :: '*' :: rest => ⊤ * matched false rest
  | _, c :: rest => signLanguage c * matched (c = '.') rest

/-- Some times two stars and a dot, and nothing else. -/
def starLevels (n : Nat) : List Char := (List.replicate n ['*', '*', '.']).flatten

/-! ## Characters and bytes -/

/-- The byte that a character of a namespace becomes in its path. -/
def byteOf (c : Char) : UInt8 := if c = '.' then slash else c.toUInt8

lemma pathOf_eq {namespaceName : String} (h : IsPlainNamespace namespaceName) :
    pathOf namespaceName = namespaceName.toList.map byteOf := by
  have hbyte : ∀ c ∈ namespaceName.toList,
      String.utf8EncodeChar (if c = '.' then '/' else c) = [byteOf c] := fun c hc => by
    rw [byteOf]
    split
    · rfl
    · exact Text.utf8EncodeChar_of_lt (h c hc).1
  rw [pathOf, bytes, slashesForDots, List.flatMap_map, List.flatMap_congr hbyte,
    ← List.map_eq_flatMap]

lemma byteOf_eq_slash_iff {c : Char} (h : IsNameChar c) : byteOf c = slash ↔ c = '.' := by
  rw [byteOf]
  split
  · simp [*]
  · have hslash : slash = '/'.toUInt8 := rfl
    rw [hslash, Text.toUInt8_inj h.1 (by decide)]
    exact iff_of_false h.2 (by assumption)

lemma byteOf_inj {c d : Char} (hc : IsNameChar c) (hd : IsNameChar d) :
    byteOf c = byteOf d ↔ c = d := by
  refine ⟨fun heq => ?_, congrArg byteOf⟩
  by_cases hdot : d = '.'
  · rw [hdot]
    exact (byteOf_eq_slash_iff hc).1 (heq.trans ((byteOf_eq_slash_iff hd).2 hdot))
  · have hdot' : c ≠ '.' := fun h =>
      hdot ((byteOf_eq_slash_iff hd).1 (heq.symm.trans ((byteOf_eq_slash_iff hc).2 h)))
    rw [byteOf, byteOf, if_neg hdot, if_neg hdot'] at heq
    exact (Text.toUInt8_inj hc.1 hd.1).1 heq

/-- Whether a language of characters and one of bytes are the same on plain namespaces and their
paths. -/
def Corresponds (names : Language Char) (paths : Language UInt8) : Prop :=
  ∀ run, (∀ c ∈ run, IsNameChar c) → (run ∈ names ↔ run.map byteOf ∈ paths)

namespace Corresponds

lemma one : Corresponds 1 1 := by
  intro run hrun
  rw [Language.mem_one, Language.mem_one, List.map_eq_nil_iff]

lemma top : Corresponds ⊤ ⊤ := fun _ _ => iff_of_true trivial trivial

variable {names names' : Language Char} {paths paths' : Language UInt8}

lemma add (h : Corresponds names paths) (h' : Corresponds names' paths') :
    Corresponds (names + names') (paths + paths') := fun run hrun => by
  rw [Language.mem_add, Language.mem_add, h run hrun, h' run hrun]

lemma mul (h : Corresponds names paths) (h' : Corresponds names' paths') :
    Corresponds (names * names') (paths * paths') := by
  intro run hrun
  rw [Language.mem_mul, Language.mem_mul]
  constructor
  · rintro ⟨front, hfront, back, hback, rfl⟩
    rw [List.forall_mem_append] at hrun
    exact ⟨_, (h front hrun.1).1 hfront, _, (h' back hrun.2).1 hback, List.map_append.symm⟩
  · rintro ⟨_, hfront, _, hback, heq⟩
    obtain ⟨front, back, rfl, rfl, rfl⟩ := List.map_eq_append_iff.1 heq.symm
    rw [List.forall_mem_append] at hrun
    exact ⟨front, (h front hrun.1).2 hfront, back, (h' back hrun.2).2 hback, rfl⟩

lemma question : Corresponds oneNoDot (oneByte (· ≠ slash)) := by
  intro run hrun
  constructor
  · rintro ⟨c, hc, rfl⟩
    have hslash := (byteOf_eq_slash_iff (hrun c List.mem_cons_self)).not.2 hc
    exact ⟨byteOf c, decide_eq_true hslash, rfl⟩
  · rintro ⟨b, hb, heq⟩
    obtain ⟨c, rfl, rfl⟩ := List.map_eq_singleton_iff.1 heq
    have hslash := of_decide_eq_true hb
    exact ⟨c, (byteOf_eq_slash_iff (hrun c List.mem_cons_self)).not.1 hslash, rfl⟩

lemma star : Corresponds noDots inLevel := by
  intro run hrun
  change '.' ∉ run ↔ slash ∉ run.map byteOf
  rw [List.mem_map, not_iff_not]
  constructor
  · exact fun hdot => ⟨'.', hdot, rfl⟩
  · rintro ⟨c, hc, hslash⟩
    rwa [← (byteOf_eq_slash_iff (hrun c hc)).1 hslash]

lemma itself {c : Char} (hc : IsNameChar c) : Corresponds {[c]} {[byteOf c]} := by
  intro run hrun
  change run = [c] ↔ run.map byteOf = [byteOf c]
  constructor
  · rintro rfl
    rfl
  · intro heq
    obtain ⟨d, rfl, hd⟩ := List.map_eq_singleton_iff.1 heq
    rw [(byteOf_inj (hrun d List.mem_cons_self) hc).1 hd]

lemma dot : Corresponds {['.']} separator := itself (c := '.') (by decide)

/-- A character of a pattern stands for what its token eats. -/
lemma sign {c : Char} (hc : IsNameChar c) :
    Corresponds (signLanguage c) (tokenOf (if c = '.' then '/' else c)).language := by
  by_cases hquestion : c = '?'
  · subst c
    exact question
  · by_cases hstar : c = '*'
    · subst c
      exact star
    · have htoken : (tokenOf (if c = '.' then '/' else c)).language = {[byteOf c]} := by
        by_cases hdot : c = '.'
        · subst c
          rfl
        · rw [if_neg hdot, tokenOf, if_neg hquestion, if_neg hstar, Token.language,
            Text.utf8EncodeChar_of_lt hc.1, byteOf, if_neg hdot]
      rw [signLanguage, if_neg hquestion, if_neg hstar, htoken]
      exact itself hc

end Corresponds

/-! ## From what a glob means to what a pattern matches -/

lemma slashesForDots_cons (c : Char) (rest : List Char) :
    slashesForDots (c :: rest) = (if c = '.' then '/' else c) :: slashesForDots rest := rfl

lemma slashesForDots_levels (rest : List Char) :
    slashesForDots ('*' :: '*' :: '.' :: rest) = '*' :: '*' :: '/' :: slashesForDots rest := rfl

lemma slashForDot_eq_star_iff {c : Char} : (if c = '.' then '/' else c) = '*' ↔ c = '*' := by
  split <;> simp [*]

lemma slashForDot_eq_slash_iff {c : Char} (h : IsNameChar c) :
    (if c = '.' then '/' else c) = '/' ↔ c = '.' := by
  split <;> simp [*, h.2]

lemma exists_cons_of_head?_slashesForDots {text : List Char} {c : Char}
    (h : (slashesForDots text).head? = some c) :
    ∃ d rest, text = d :: rest ∧ (if d = '.' then '/' else d) = c := by
  cases text with
  | nil => exact nomatch h
  | cons d rest => exact ⟨d, rest, rfl, Option.some.inj h⟩

/-- Only two stars and a dot become two stars and a slash. -/
lemma exists_levels_of_slashesForDots {text rest : List Char} (htext : ∀ c ∈ text, IsNameChar c)
    (h : slashesForDots text = '*' :: '*' :: '/' :: rest) :
    ∃ rest, text = '*' :: '*' :: '.' :: rest := by
  obtain ⟨a, _, rfl, ha, htail⟩ := List.map_eq_cons_iff.1 h
  obtain ⟨b, _, rfl, hb, htail⟩ := List.map_eq_cons_iff.1 htail
  obtain ⟨c, rest, rfl, hc, -⟩ := List.map_eq_cons_iff.1 htail
  rw [slashForDot_eq_star_iff] at ha hb
  rw [slashForDot_eq_slash_iff (htext c (by simp))] at hc
  exact ⟨rest, by rw [ha, hb, hc]⟩

lemma corresponds_matched {begins : Bool} {text : List Char} (htext : ∀ c ∈ text, IsNameChar c) :
    Corresponds (matched begins text) (meaning ⊤ (.behind begins) (slashesForDots text)) := by
  fun_induction matched begins text with
  | case1 begins =>
    cases begins <;> exact .one
  | case2 rest ih =>
    rw [slashesForDots_levels, meaning_levels rfl]
    exact .mul (.add .one (.mul .top .dot)) (ih fun c hc => htext c (by simp [hc]))
  | case3 begins rest hlevel ih =>
    have hrest : ∀ c ∈ rest, IsNameChar c := fun c hc => htext c (by simp [hc])
    have hmeaning : meaning ⊤ (.behind begins) (slashesForDots ('*' :: '*' :: rest)) =
        ⊤ * meaning ⊤ .inside (slashesForDots rest) := by
      by_cases hnil : rest = []
      · subst rest
        cases begins <;> simp [slashesForDots, meaning, Place.behind, Place.begins]
      · apply meaning_shared
        intro hbegins
        rw [Place.begins_behind] at hbegins
        refine ⟨by simpa [slashesForDots] using hnil, fun hhead => ?_⟩
        obtain ⟨d, tail, rfl, hd⟩ := exists_cons_of_head?_slashesForDots hhead
        rw [slashForDot_eq_slash_iff (hrest d List.mem_cons_self)] at hd
        exact hlevel tail hbegins (hd ▸ rfl)
    rw [hmeaning]
    exact .mul .top (ih hrest)
  | case4 begins c rest hlevel hstars ih =>
    obtain ⟨hc, hrest⟩ := List.forall_mem_cons.1 htext
    have hmeaning : meaning ⊤ (.behind begins) (slashesForDots (c :: rest)) =
        (tokenOf (if c = '.' then '/' else c)).language *
          meaning ⊤ (.behind (c = '.')) (slashesForDots rest) := by
      have hstar : (if c = '.' then '/' else c) = '*' → (slashesForDots rest).head? ≠ some '*' := by
        intro hc' hhead
        obtain ⟨d, tail, rfl, hd⟩ := exists_cons_of_head?_slashesForDots hhead
        rw [slashForDot_eq_star_iff] at hc' hd
        exact hstars tail hc' (hd ▸ rfl)
      rw [slashesForDots_cons, meaning_cons hstar]
      simp only [slashForDot_eq_slash_iff hc]
    rw [hmeaning]
    exact .mul (.sign hc) (ih hrest)

/-- Two stars that do not stand for whole levels before others mean the same at all beginnings. -/
lemma meaning_eq_of_begins {place place' : Place} (hbegins : place.begins = true)
    (hbegins' : place'.begins = true) {text : List Char} (hne : text ≠ [])
    (hlevels : ∀ rest, text ≠ '*' :: '*' :: '/' :: rest) :
    meaning ⊤ place text = meaning ⊤ place' text := by
  cases text with
  | nil => exact absurd rfl hne
  | cons c rest =>
    by_cases hstars : c = '*' ∧ rest.head? = some '*'
    · obtain ⟨rfl, hhead⟩ := hstars
      obtain ⟨tail, rfl⟩ := List.head?_eq_some_iff.1 hhead
      by_cases hnil : tail = []
      · simp [hnil, meaning, hbegins, hbegins']
      · have hslash : tail.head? ≠ some '/' := by
          apply head?_ne_of_forall_ne
          rintro rest rfl
          exact hlevels rest rfl
        rw [meaning_shared fun _ => ⟨hnil, hslash⟩, meaning_shared fun _ => ⟨hnil, hslash⟩]
    · have hhead : c = '*' → rest.head? ≠ some '*' := by simpa using hstars
      rw [meaning_cons hhead, meaning_cons hhead]

lemma meaning_alone_starLevels (n : Nat) :
    meaning ⊤ .alone (slashesForDots (starLevels n)) = ⊤ := by
  induction n with
  | zero => rfl
  | succ n ih =>
    have hsucc : starLevels (n + 1) = '*' :: '*' :: '.' :: starLevels n := rfl
    have hpassed : Place.alone.passed = .alone := rfl
    rw [hsucc, slashesForDots_levels, meaning_levels rfl, hpassed, ih, wholeLevels_mul_top]

/-- A pattern that has more than whole levels means the same at all beginnings. -/
lemma meaning_of_ne_starLevels {place : Place} (hbegins : place.begins = true) {text : List Char}
    (htext : ∀ c ∈ text, IsNameChar c) (halone : place = .alone → text ≠ [])
    (h : ∀ n, text ≠ starLevels (n + 1)) :
    meaning ⊤ place (slashesForDots text) = meaning ⊤ .level (slashesForDots text) := by
  by_cases hlevels : ∃ rest, text = '*' :: '*' :: '.' :: rest
  · obtain ⟨rest, rfl⟩ := hlevels
    have hrest : meaning ⊤ place.passed (slashesForDots rest) =
        meaning ⊤ .level (slashesForDots rest) :=
      meaning_of_ne_starLevels (by rwa [Place.begins_passed]) (fun c hc => htext c (by simp [hc]))
        (fun _ hnil => h 0 (hnil ▸ rfl)) (fun n hn => h (n + 1) (hn ▸ rfl))
    rw [slashesForDots_levels, meaning_levels hbegins, hrest, meaning_levels rfl]
    rfl
  · by_cases hnil : text = []
    · subst text
      exact if_neg fun hplace => halone hplace rfl
    · refine meaning_eq_of_begins hbegins rfl ?_ fun rest hrest => ?_
      · exact fun hmap => hnil (List.map_eq_nil_iff.1 hmap)
      · exact hlevels (exists_levels_of_slashesForDots htext hrest)
termination_by text.length

/-- Only a pattern of whole levels means something else at its very beginning. -/
lemma mem_meaning_start_iff {text : List Char} (htext : ∀ c ∈ text, IsNameChar c)
    {path : List UInt8} :
    path ∈ meaning ⊤ .start (slashesForDots text) ↔
      (∃ n, text = starLevels (n + 1)) ∨ path ∈ meaning ⊤ .level (slashesForDots text) := by
  by_cases hall : ∃ n, text = starLevels (n + 1)
  · obtain ⟨n, rfl⟩ := hall
    have hsucc : starLevels (n + 1) = '*' :: '*' :: '.' :: starLevels n := rfl
    have hpassed : Place.start.passed = .alone := rfl
    refine iff_of_true ?_ (.inl ⟨n, rfl⟩)
    rw [hsucc, slashesForDots_levels, meaning_levels rfl, hpassed, meaning_alone_starLevels,
      wholeLevels_mul_top]
    exact mem_top path
  · rw [or_iff_right hall, meaning_of_ne_starLevels rfl htext (by simp) (not_exists.1 hall)]

end Retention
end Pseudonym
