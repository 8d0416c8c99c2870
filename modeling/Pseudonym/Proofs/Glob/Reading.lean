import Pseudonym.Glob.Parse
import Pseudonym.Proofs.Glob.Languages

/-!
# What a written glob means

A glob without classes, groups and backslashes is read from left to right, and what two stars mean
depends on the place at which they stand.  `meaning` gives the language of such a glob by recursion
on its text, with the place as the only memory, and `exists_parse` says that the tokens that are
read eat just this language.

The tokens before a place say all that the place does, and a little more; `Stands` tells which
readings have come to which place.  Two stars at the beginning are one token with the slash behind
them, and further ones merge with it.  If nothing else follows, the glob is the one that every path
matches, although the token alone is not, and so this place is told from the others.
-/

namespace Pseudonym
namespace Glob

/-! ## Places -/

/-- Where in a glob the reading stands. -/
inductive Place where
  /-- At the very beginning. -/
  | start
  /-- Behind two stars and a slash at the very beginning, or several of these. -/
  | alone
  /-- Behind any other slash. -/
  | level
  /-- Within a level. -/
  | inside
  deriving DecidableEq, Repr

/-- Whether a level begins here. -/
def Place.begins (place : Place) : Bool := place ≠ .inside

/-- The place behind two stars and a slash that stand for whole levels. -/
def Place.passed : Place → Place
  | .start => .alone
  | place => place

/-- The place behind a slash, and the one behind another character. -/
def Place.behind (slash : Bool) : Place := if slash then .level else .inside

@[simp] lemma Place.begins_passed (place : Place) : place.passed.begins = place.begins := by
  cases place <;> rfl

@[simp] lemma Place.begins_behind (slash : Bool) : (Place.behind slash).begins = slash := by
  cases slash <;> rfl

/-- Whether a character stands for itself, a byte or a run of bytes, and cannot begin a class, a
group or an escape. -/
def IsOrdinary (c : Char) : Prop := c ≠ '[' ∧ c ≠ '\x7b' ∧ c ≠ '\x7d' ∧ c ≠ '\\'

/-- The token of an ordinary character. -/
def tokenOf (c : Char) : Token := if c = '?' then .one else if c = '*' then .many else .literal c

/-- The language of a glob from a place on.  Two stars that share a level with other characters
stand for what `shared` says. -/
def meaning (shared : Language UInt8) : Place → List Char → Language UInt8
  | place, [] => if place = .alone then ⊤ else 1
  | place, ['*', '*'] => if place.begins then ⊤ else shared * meaning shared .inside []
  | place, '*' :: '*' :: '/' :: rest =>
    if place.begins then wholeLevels * meaning shared place.passed rest
    else shared * meaning shared .inside ('/' :: rest)
  | _, '*' :: '*' :: rest => shared * meaning shared .inside rest
  | _, c :: rest => (tokenOf c).language * meaning shared (.behind (c = '/')) rest

section Meaning

variable {shared : Language UInt8} {place : Place} {rest : List Char}

lemma meaning_cons {c : Char} (h : c = '*' → rest.head? ≠ some '*') :
    meaning shared place (c :: rest) =
      (tokenOf c).language * meaning shared (.behind (c = '/')) rest := by
  rw [meaning]
  · exact fun hc hrest => h hc (hrest ▸ rfl)
  · exact fun _ hc hrest => h hc (hrest ▸ rfl)
  · exact fun _ hc hrest => h hc (hrest ▸ rfl)

lemma meaning_levels (h : place.begins = true) :
    meaning shared place ('*' :: '*' :: '/' :: rest) =
      wholeLevels * meaning shared place.passed rest := by
  rw [meaning, if_pos h]

/-- Within a level, or with more of the level behind them, two stars share their level. -/
lemma meaning_shared (h : place.begins = true → rest ≠ [] ∧ rest.head? ≠ some '/') :
    meaning shared place ('*' :: '*' :: rest) = shared * meaning shared .inside rest := by
  cases hbegins : place.begins with
  | false =>
    match rest with
    | [] => simp [meaning, hbegins]
    | c :: rest =>
      by_cases hc : c = '/'
      · simp [hc, meaning, hbegins]
      · rw [meaning]
        · simp
        · simp [hc]
  | true =>
    obtain ⟨hne, hslash⟩ := h hbegins
    rw [meaning]
    · exact hne
    · rintro _ rfl
      exact hslash rfl

end Meaning

/-! ## Lexemes -/

/-- A text that is not continued by a character does not begin with it. -/
lemma head?_ne_of_forall_ne {text : List Char} {c : Char} (h : ∀ rest, text ≠ c :: rest) :
    text.head? ≠ some c := by
  intro hhead
  obtain ⟨rest, rfl⟩ := List.head?_eq_some_iff.1 hhead
  exact h rest rfl

/-- The lexeme of an ordinary character. -/
def lexemeOf (c : Char) : Lexeme :=
  if c = '?' then .question else if c = '*' then .star else .char c

lemma lex_cons {c : Char} {rest : List Char} (hc : IsOrdinary c)
    (h : c = '*' → rest.head? ≠ some '*') :
    lex none (c :: rest) = lexemeOf c :: lex none rest := by
  obtain ⟨hclass, hopen, hclose, hescape⟩ := hc
  by_cases hquestion : c = '?'
  · subst c
    rfl
  · by_cases hstar : c = '*'
    · subst c
      cases rest with
      | nil => rfl
      | cons d rest =>
        rw [lex]
        · rfl
        · simpa using h rfl
    · rw [lex, lexemeOf, if_neg hquestion, if_neg hstar]
      all_goals simp_all

/-- More of a level begins with a lexeme that is neither a slash nor the end of a group. -/
lemma exists_lex_eq_cons {text : List Char} (htext : ∀ c ∈ text, IsOrdinary c) (hne : text ≠ [])
    (hslash : text.head? ≠ some '/') :
    ∃ lexeme lexemes, lex none text = lexeme :: lexemes ∧ lexeme ≠ .char '/' ∧
      lexeme ≠ .closeGroup := by
  cases text with
  | nil => exact absurd rfl hne
  | cons c rest =>
    by_cases hstars : c = '*' ∧ rest.head? = some '*'
    · obtain ⟨rfl, hhead⟩ := hstars
      obtain ⟨rest, rfl⟩ := List.head?_eq_some_iff.1 hhead
      exact ⟨.doubleStar, lex none rest, rfl, by simp, by simp⟩
    · refine ⟨_, _, lex_cons (htext c List.mem_cons_self) (by simpa using hstars), ?_, ?_⟩
      all_goals rw [lexemeOf]; split_ifs <;> simp_all

/-- Two stars share their level if more of it follows. -/
lemma stars_cons {lexeme : Lexeme} (hchar : lexeme ≠ .char '/') (hgroup : lexeme ≠ .closeGroup)
    (r : Reading) (rest : List Lexeme) : r.stars (lexeme :: rest) = .single := by
  unfold Reading.stars
  split
  · rfl
  · split <;> simp_all

lemma parseFrom_lexemeOf (r : Reading) (c : Char) (rest : List Lexeme) :
    parseFrom r (lexemeOf c :: rest) = parseFrom (r.push (tokenOf c) c) rest := by
  by_cases hquestion : c = '?'
  · subst c
    rfl
  · by_cases hstar : c = '*'
    · subst c
      rfl
    · rw [lexemeOf, tokenOf, if_neg hquestion, if_neg hstar, if_neg hquestion, if_neg hstar,
        parseFrom]

/-! ## Readings -/

/-- The glob of the tokens that have been read. -/
def ofTokens (tokens : List Token) : Glob :=
  if tokens = [.leading] then .everything else .row tokens

/-- A last token of another kind leaves the row as it is. -/
lemma language_ofTokens {token : Token} {tokens : List Token} (h : token ≠ .leading) :
    (ofTokens (token :: tokens).reverse).language = rowLanguage (token :: tokens).reverse := by
  rw [ofTokens, if_neg]
  · rfl
  · intro heq
    have hrow : token :: tokens = [.leading] := by simpa using congrArg List.reverse heq
    exact h (List.cons.inj hrow).1

/-- The readings that have come to a place. -/
inductive Stands : Place → Reading → Prop
  | start : Stands .start .start
  | alone : Stands .alone ⟨[.leading], [], some '/'⟩
  | slash (tokens : List Token) : Stands .level ⟨.literal '/' :: tokens, [], some '/'⟩
  | between (tokens : List Token) : Stands .level ⟨.between :: tokens, [], some '/'⟩
  | inside {token : Token} (tokens : List Token) {c : Char} (htoken : token ≠ .leading)
    (hc : c ≠ '/') : Stands .inside ⟨token :: tokens, [], some c⟩

lemma Stands.push {place : Place} {r : Reading} (h : Stands place r) (c : Char) :
    Stands (.behind (c = '/')) (r.push (tokenOf c) c) := by
  have haround : r.around = [] := by cases h <;> rfl
  rw [Reading.push, haround]
  by_cases hc : c = '/'
  · subst c
    exact .slash r.tokens
  · have htoken : tokenOf c ≠ .leading := by
      rw [tokenOf]
      split_ifs <;> simp
    rw [Place.behind, if_neg (by simpa using hc)]
    exact .inside r.tokens htoken hc

/-- That a reading can go on through some lexemes, and that they eat a language. -/
def Reads (r : Reading) (lexemes : List Lexeme) (eaten : Language UInt8) : Prop :=
  ∃ tokens, parseFrom r lexemes = .ok tokens ∧
    (ofTokens tokens).language = rowLanguage r.tokens.reverse * eaten

/-- What is eaten first and what is eaten then. -/
lemma Reads.step {r r' : Reading} {lexemes rest : List Lexeme} {first later : Language UInt8}
    (hrow : rowLanguage r'.tokens.reverse = rowLanguage r.tokens.reverse * first)
    (hparse : parseFrom r lexemes = parseFrom r' rest) (h : Reads r' rest later) :
    Reads r lexemes (first * later) := by
  obtain ⟨tokens, hok, hlanguage⟩ := h
  exact ⟨tokens, hparse.trans hok, by rw [hlanguage, hrow, mul_assoc]⟩

/-- Two stars before a slash take whole levels where a level begins. -/
lemma Stands.pass {place : Place} {r : Reading} (h : Stands place r)
    (hbegins : place.begins = true) :
    ∃ r', Stands place.passed r' ∧
      rowLanguage r'.tokens.reverse = rowLanguage r.tokens.reverse * wholeLevels ∧
      ∀ rest, parseFrom r (.doubleStar :: .char '/' :: rest) = parseFrom r' rest := by
  cases h with
  | start => exact ⟨_, .alone, by simp [Reading.start, Token.language], fun _ => rfl⟩
  | alone =>
    exact ⟨_, .alone, by simp [Token.language, wholeLevels_mul_wholeLevels], fun _ => rfl⟩
  | slash tokens =>
    refine ⟨_, .between tokens, ?_, fun _ => rfl⟩
    simp only [List.reverse_cons, rowLanguage_append, rowLanguage_singleton, mul_assoc]
    rfl
  | between tokens =>
    refine ⟨_, .between tokens, ?_, fun _ => rfl⟩
    simp only [List.reverse_cons, rowLanguage_append, rowLanguage_singleton, Token.language,
      mul_assoc, wholeLevels_mul_wholeLevels]
  | inside => exact absurd hbegins (by decide)

/-- Two stars at the end take everything where a level begins. -/
lemma Stands.finish {place : Place} {r : Reading} (h : Stands place r)
    (hbegins : place.begins = true) :
    Reads r [.doubleStar] ⊤ := by
  cases h with
  | start => exact ⟨_, rfl, by simp [Reading.start, ofTokens, mergeLevels, language]⟩
  | alone =>
    exact ⟨_, rfl, by simp [ofTokens, mergeLevels, language, Token.language, wholeLevels_mul_top]⟩
  | slash tokens =>
    refine ⟨(.trailing :: tokens).reverse, rfl, ?_⟩
    rw [language_ofTokens (by simp)]
    simp only [List.reverse_cons, rowLanguage_append, rowLanguage_singleton, mul_assoc]
    rfl
  | between tokens =>
    refine ⟨(.trailing :: tokens).reverse, rfl, ?_⟩
    rw [language_ofTokens (by simp)]
    simp only [List.reverse_cons, rowLanguage_append, rowLanguage_singleton, Token.language,
      mul_assoc, wholeLevels_mul_top]
  | inside => exact absurd hbegins (by decide)

/-- Two stars that share their level are two single stars. -/
lemma Stands.share {place : Place} {r : Reading} (h : Stands place r) {rest : List Char}
    (hrest : ∀ c ∈ rest, IsOrdinary c)
    (hshared : place.begins = true → rest ≠ [] ∧ rest.head? ≠ some '/') :
    ∃ r', Stands .inside r' ∧
      rowLanguage r'.tokens.reverse = rowLanguage r.tokens.reverse * inLevel ∧
      parseFrom r (.doubleStar :: lex none rest) = parseFrom r' (lex none rest) := by
  have hstars : r.stars (lex none rest) = .single := by
    cases hbegins : place.begins with
    | false =>
      cases h with
      | inside tokens htoken hc => simp [Reading.stars, Reading.atLevel, hc]
      | _ => exact absurd hbegins (by decide)
    | true =>
      obtain ⟨hne, hslash⟩ := hshared hbegins
      obtain ⟨lexeme, lexemes, hlex, hchar, hgroup⟩ := exists_lex_eq_cons hrest hne hslash
      rw [hlex]
      exact stars_cons hchar hgroup r lexemes
  have haround : r.around = [] := by cases h <;> rfl
  refine ⟨⟨.many :: .many :: r.tokens, r.around, some '*'⟩, ?_, ?_, ?_⟩
  · rw [haround]
    exact .inside _ (by simp) (by decide)
  · simp only [List.reverse_cons, rowLanguage_append, rowLanguage_singleton, Token.language,
      mul_assoc, inLevel_mul_inLevel]
  · rw [parseFrom.eq_def]
    simp only [hstars]

/-- An ordinary text can be read from every place, and it eats what it means. -/
lemma reads_meaning {place : Place} {text : List Char} (htext : ∀ c ∈ text, IsOrdinary c)
    {r : Reading} (h : Stands place r) :
    Reads r (lex none text) (meaning inLevel place text) := by
  -- Along the text.  Two stars share their level in the fourth, the sixth and the seventh case: at
  -- the end and before a slash, if a level does not begin at them, and before anything else.
  fun_induction meaning inLevel place text generalizing r with
  | case1 =>
    cases h
    exact ⟨_, rfl, by simp [ofTokens, language, Token.language, wholeLevels_mul_top]⟩
  | case2 place halone =>
    refine ⟨r.tokens.reverse, ?_, ?_⟩
    · cases h <;> rfl
    · rw [mul_one]
      cases h with
      | start => rfl
      | alone => exact absurd rfl halone
      | slash tokens => exact language_ofTokens (by simp)
      | between tokens => exact language_ofTokens (by simp)
      | inside tokens htoken => exact language_ofTokens htoken
  | case3 place hbegins => exact h.finish hbegins
  | case4 place hbegins ih =>
    have hnil : ∀ c ∈ [], IsOrdinary c := List.forall_mem_nil _
    obtain ⟨r', hr', hrow, hparse⟩ := h.share hnil (fun hb => absurd hb hbegins)
    exact (ih hnil hr').step hrow hparse
  | case5 place rest hbegins ih =>
    obtain ⟨r', hr', hrow, hparse⟩ := h.pass hbegins
    exact (ih (fun c hc => htext c (by simp [hc])) hr').step hrow (hparse _)
  | case6 place rest hbegins ih =>
    have hrest : ∀ c ∈ '/' :: rest, IsOrdinary c := fun c hc => htext c (by simp_all)
    obtain ⟨r', hr', hrow, hparse⟩ := h.share hrest (fun hb => absurd hb hbegins)
    exact (ih hrest hr').step hrow hparse
  | case7 place rest hend hslash ih =>
    have hrest : ∀ c ∈ rest, IsOrdinary c := fun c hc => htext c (by simp [hc])
    obtain ⟨r', hr', hrow, hparse⟩ :=
      h.share hrest (fun _ => ⟨hend, head?_ne_of_forall_ne hslash⟩)
    exact (ih hrest hr').step hrow hparse
  | case8 place c rest hend hslash hstars ih =>
    obtain ⟨hc, hrest⟩ := List.forall_mem_cons.1 htext
    have hhead : c = '*' → rest.head? ≠ some '*' := fun hc =>
      head?_ne_of_forall_ne fun tail => hstars tail hc
    refine (ih hrest (h.push c)).step ?_ ?_
    · simp [Reading.push]
    · rw [lex_cons hc hhead, parseFrom_lexemeOf]

/-- An ordinary text is a glob that matches what it means. -/
theorem exists_parse {text : List Char} (htext : ∀ c ∈ text, IsOrdinary c) :
    ∃ glob, parse text = .ok glob ∧ glob.language = meaning inLevel .start text := by
  obtain ⟨tokens, hok, hlanguage⟩ := reads_meaning htext .start
  refine ⟨ofTokens tokens, ?_, ?_⟩
  · rw [parse, hok]
    rfl
  · simpa [Reading.start] using hlanguage

end Glob
end Pseudonym
