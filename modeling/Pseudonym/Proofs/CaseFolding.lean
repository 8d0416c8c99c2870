import Pseudonym.Proofs.CaseOfNamespaces
import Pseudonym.Proofs.UniqueNames

/-!
# When folding is lower-casing

The fold of a name is meant to be the name in small letters, and a name without capitals is taken to
be that already.  This is right but for the title-case letters: the digraphs such as U+01C5 that
begin with a capital and go on with a small letter, and the Greek capitals with an iota beside them.
They have a small form and are not capitals themselves.  `lowercaseChar_eq_iff` says that they are
the only such characters: every code point for which the table of small letters has an entry is in
one of the two other tables.

So a name folds fully if it has a capital, in whose company title-case letters are folded as well,
or no title-case letter.  Names that do not are kept apart from names with the same small letters,
and both are given away.
-/

namespace Pseudonym

/-! ## Title-case letters -/

namespace Unicode

/-- The code points of the title-case letters. -/
def titlecaseTable : List Stretch :=
  [⟨0x1C5, 0x1CB, 3⟩, ⟨0x1F2, 0x1F2, 1⟩, ⟨0x1F88, 0x1F8F, 1⟩, ⟨0x1F98, 0x1F9F, 1⟩,
   ⟨0x1FA8, 0x1FAF, 1⟩, ⟨0x1FBC, 0x1FBC, 1⟩, ⟨0x1FCC, 0x1FCC, 1⟩, ⟨0x1FFC, 0x1FFC, 1⟩]

/-- Whether a character is a title-case letter. -/
def isTitlecase (c : Char) : Bool :=
  Stretch.cover titlecaseTable c.toNat

/-- Whether all code points on a stretch pass. -/
def Stretch.all (s : Stretch) (passes : Nat → Bool) : Bool :=
  (List.range' s.first (s.last + 1 - s.first)).all fun n => !s.has n || passes n

lemma Stretch.of_all {s : Stretch} {passes : Nat → Bool} (h : s.all passes = true) {n : Nat}
    (hn : s.has n = true) : passes n = true := by
  have hrange : n ∈ List.range' s.first (s.last + 1 - s.first) := by
    simp only [has, Bool.and_eq_true, decide_eq_true_eq] at hn
    rw [List.mem_range'_1]
    omega
  have hpasses := List.all_eq_true.1 h n hrange
  rw [hn] at hpasses
  exact hpasses

/-- Whether all code points on some stretches are on those of one table or another.  The stretches
ascend, and so do those of the first table, so that what has been passed there is left out. -/
def Stretch.allWithin (others : List Stretch) : (table stretches : List Stretch) → Bool
  | _, [] => true
  | table, s :: rest =>
    let near := table.dropWhile fun t => t.last < s.first
    s.all (fun n => near.any (·.has n) || cover others n) && allWithin others near rest

lemma Stretch.of_allWithin {others table stretches : List Stretch}
    (h : allWithin others table stretches = true) {s : Stretch} (hs : s ∈ stretches) {n : Nat}
    (hn : s.has n = true) : (∃ t ∈ table, t.has n = true) ∨ cover others n = true := by
  induction stretches generalizing table with
  | nil => exact absurd hs List.not_mem_nil
  | cons s' rest ih =>
    rw [allWithin, Bool.and_eq_true] at h
    have hnear : (∃ t ∈ table.dropWhile fun t => t.last < s'.first, t.has n = true) ∨
        cover others n = true := by
      rcases List.mem_cons.1 hs with rfl | hs
      · simpa using of_all h.1 hn
      · exact ih h.2 hs
    exact hnear.imp_left fun ⟨t, ht, htn⟩ => ⟨t, (List.dropWhile_sublist _).subset ht, htn⟩

/-- Only what is on a stretch of the table has another small form. -/
lemma exists_has_of_smallCode_ne {table : List CaseShift} {n : Nat} (h : smallCode table n ≠ n) :
    ∃ shift ∈ table, shift.capitals.has n = true := by
  induction table with
  | nil => exact absurd rfl h
  | cons shift rest ih =>
    rw [smallCode] at h
    split at h
    · exact absurd rfl h
    · split at h
      · exact ⟨shift, List.mem_cons_self, by assumption⟩
      · obtain ⟨other, hmem, hhas⟩ := ih h
        exact ⟨other, List.mem_cons_of_mem shift hmem, hhas⟩

/-- Whatever has another small form is a capital or a title-case letter. -/
lemma capital_or_titlecase {n : Nat} (h : smallCode lowercaseTable n ≠ n) :
    Stretch.cover uppercaseTable n = true ∨ Stretch.cover titlecaseTable n = true := by
  have hall : Stretch.allWithin titlecaseTable uppercaseTable
      (lowercaseTable.map (·.capitals)) = true := by
    decide +kernel
  obtain ⟨shift, hshift, hhas⟩ := exists_has_of_smallCode_ne h
  rw [Stretch.cover_iff (by decide +kernel)]
  exact Stretch.of_allWithin hall (List.mem_map_of_mem hshift) hhas

/-- Title-case letters have another small form. -/
lemma lowercaseChar_ne_of_isTitlecase {c : Char} (h : isTitlecase c = true) :
    lowercaseChar c ≠ [c] := by
  have hall : ∀ s ∈ titlecaseTable, s.all
      (fun n => lowercaseChar (Char.ofNat n) ≠ [Char.ofNat n]) = true := by
    decide +kernel
  obtain ⟨s, hs, hhas⟩ := (Stretch.cover_iff (by decide) c.toNat).1 h
  have hne := Stretch.of_all (hall s hs) hhas
  rwa [Char.ofNat_toNat, decide_eq_true_eq] at hne

/-- Among the characters that are no capitals, the title-case letters are those that have another
small form. -/
theorem lowercaseChar_eq_iff {c : Char} (h : isUppercase c = false) :
    lowercaseChar c = [c] ↔ isTitlecase c = false := by
  constructor
  · intro heq
    by_contra htitle
    exact lowercaseChar_ne_of_isTitlecase (Bool.not_eq_false _ ▸ htitle) heq
  · intro htitle
    have hdotted : c ≠ dottedCapitalI := by
      rintro rfl
      exact absurd h (by decide)
    have hcode : smallCode lowercaseTable c.toNat = c.toNat := by
      by_contra hne
      rcases capital_or_titlecase hne with hcapital | htitle'
      · rw [isUppercase, hcapital] at h
        exact nomatch h
      · rw [isTitlecase, htitle'] at htitle
        exact nomatch htitle
    rw [lowercaseChar, if_neg hdotted, hcode, Char.ofNat_toNat]

end Unicode

/-! ## Texts without capitals -/

namespace Text

open Unicode

/-- A character that is neither a capital nor a title-case letter is small. -/
lemma isSmall_of_not_isTitlecase {c : Char} (hcapital : isUppercase c = false)
    (htitle : isTitlecase c = false) : IsSmall c where
  ne_sigma := by
    rintro rfl
    exact absurd hcapital (by decide)
  lowercaseChar_eq := (lowercaseChar_eq_iff hcapital).2 htitle
  not_uppercase := hcapital

/-- Lower-casing leaves a text without capitals alone exactly if it has no title-case letter. -/
theorem lowerAfter_eq_self_iff {before text : List Char} (h : ∀ c ∈ text, isUppercase c = false) :
    lowerAfter before text = text ↔ ∀ c ∈ text, isTitlecase c = false := by
  constructor
  · intro heq
    induction text generalizing before with
    | nil => simp
    | cons c rest ih =>
      obtain ⟨hc, hrest⟩ := List.forall_mem_cons.1 h
      have hsigma : c ≠ capitalSigma := by
        rintro rfl
        exact absurd hc (by decide)
      have hdotted : c ≠ dottedCapitalI := by
        rintro rfl
        exact absurd hc (by decide)
      -- The first character becomes one character, so that it is compared with itself.
      obtain ⟨small, hsmall⟩ : ∃ small, lowercaseChar c = [small] := by
        rw [lowercaseChar, if_neg hdotted]
        exact ⟨_, rfl⟩
      rw [lowerAfter, lowerBetween, if_neg hsigma, hsmall] at heq
      obtain ⟨rfl, hlater⟩ := List.cons.inj heq
      exact List.forall_mem_cons.2 ⟨(lowercaseChar_eq_iff hc).1 hsmall, ih hrest hlater⟩
  · intro htitle
    exact lowerAfter_of_isSmall fun c hc => isSmall_of_not_isTitlecase (h c hc) (htitle c hc)

end Text

/-! ## Folding -/

namespace Name

open Unicode

/-- Whether folding a name is lower-casing it: it has a capital, or no title-case letter. -/
def FoldsFully (name : String) : Prop :=
  hasCapital name = true ∨ ∀ c ∈ name.toList, isTitlecase c = false

instance (name : String) : Decidable (FoldsFully name) :=
  @instDecidableOr _ _ inferInstance (List.decidableBAll _ _)

lemma fold_of_hasCapital {name : String} (h : hasCapital name = true) :
    fold false name = Text.lowercase name := by
  rw [hasCapital] at h
  simp [fold, h]

theorem fold_eq_lowercase_iff (name : String) :
    fold false name = Text.lowercase name ↔ FoldsFully name := by
  cases hcapital : hasCapital name with
  | true =>
    rw [fold_of_hasCapital hcapital]
    exact iff_of_true rfl (.inl hcapital)
  | false =>
    have hnone : ∀ c ∈ name.toList, isUppercase c = false := fun c hc => by
      simpa using List.any_eq_false.1 hcapital c hc
    rw [fold_of_not_hasCapital hcapital, FoldsFully, hcapital, eq_comm, ← String.toList_inj,
      Text.lowercase, String.toList_ofList, Text.lowerAfter_eq_self_iff hnone]
    simp

/-- Names with the same small letters have the same fold exactly if they are equal or both fold
fully. -/
theorem fold_eq_fold_iff {name other : String} (h : Text.lowercase name = Text.lowercase other) :
    fold false name = fold false other ↔ name = other ∨ (FoldsFully name ∧ FoldsFully other) := by
  constructor
  · intro heq
    by_cases hcapital : hasCapital name = true <;> by_cases hcapital' : hasCapital other = true
    · exact .inr ⟨.inl hcapital, .inl hcapital'⟩
    · rw [fold_of_hasCapital hcapital, h] at heq
      exact .inr ⟨.inl hcapital, (fold_eq_lowercase_iff other).1 heq.symm⟩
    · rw [fold_of_hasCapital hcapital', ← h] at heq
      exact .inr ⟨(fold_eq_lowercase_iff name).1 heq, .inl hcapital'⟩
    · rw [Bool.not_eq_true] at hcapital hcapital'
      rw [fold_of_not_hasCapital hcapital, fold_of_not_hasCapital hcapital'] at heq
      exact .inl heq
  · rintro (rfl | ⟨hname, hother⟩)
    · rfl
    · rw [(fold_eq_lowercase_iff name).2 hname, (fold_eq_lowercase_iff other).2 hother, h]

end Name

open Name (FoldsFully)

/-- Folding is lower-casing for a name that has a capital or no title-case letter, and for no other
name.  Hence a name and another one with the same small letters have the same fold exactly if they
are equal or both are such names.  Where names of mixed case are not allowed and such a name is
given away, no other such name with the same small letters is, before or after it, and no settled
type has one. -/
theorem fold_lowercases_iff (name : String) :
    (Name.fold false name = Text.lowercase name ↔ FoldsFully name) ∧
    (∀ other, Text.lowercase name = Text.lowercase other →
      (Name.fold false name = Name.fold false other ↔
        name = other ∨ (FoldsFully name ∧ FoldsFully other))) ∧
    ∀ (m : Model) (o : NamingOptions) (memberSequence : Name.Sequence) (requests : List Request)
      (before after : List String), o.mixedCase = false → FoldsFully name →
      (Renaming.start m o memberSequence).givenAll requests = before ++ name :: after →
      (∀ other ∈ before ++ after, FoldsFully other →
        Text.lowercase name ≠ Text.lowercase other) ∧
      ∀ d ∈ m.types, d.isSettled = true → FoldsFully d.currentName →
        Text.lowercase name ≠ Text.lowercase d.currentName := by
  refine ⟨Name.fold_eq_lowercase_iff name, fun other => Name.fold_eq_fold_iff, ?_⟩
  intro m o memberSequence requests before after hcase hname hgiven
  have hsame : ∀ {other}, FoldsFully other → Text.lowercase name = Text.lowercase other →
      Name.fold false name = Name.fold false other := fun hother hlower =>
    (Name.fold_eq_fold_iff hlower).2 (.inr ⟨hname, hother⟩)
  have hfold : (Renaming.start m o memberSequence).registry.fold = Name.fold false := by
    funext name
    rw [Registry.fold, Renaming.start, Registry.options_ofModel, hcase]
  constructor
  · intro other hmem hother hlower
    have hnodup := (Renaming.start m o memberSequence).nodup_givenAll requests
    rw [hfold, hgiven, List.map_append, List.map_cons, List.nodup_middle, List.nodup_cons,
      ← List.map_append, hsame hother hlower] at hnodup
    exact hnodup.1 (List.mem_map_of_mem hmem)
  · intro d hd hsettled hother hlower
    have hmem : name ∈ (Renaming.start m o memberSequence).givenAll requests := by
      rw [hgiven]
      simp
    refine fold_ne_of_not_isReserved (Renaming.givenAll_fresh _ requests hmem) hd hsettled ?_
    rw [hcase]
    exact hsame hother hlower

/-- After a capital the digraph U+01C5 is folded.  Of the words that can be given away the second
has the fold of the first, and the third that of a library type. -/
theorem fold_lowercases_iff_capital :
    let o := { NamingOptions.plain with
      typeWords := some (.ofWords ["A\u01C5", "a\u01C6", "Baker"]) }
    let m : Model := ⟨#[.library ⟨"BAKER", none⟩], []⟩
    let requests := [.topLevel "Widget", .topLevel "Gadget"]
    o.mixedCase = false ∧ FoldsFully "A\u01C5" ∧
      (Renaming.start m o (.short false)).givenAll requests = [] ++ "A\u01C5" :: ["a"] ∧
      Name.fold false "A\u01C5" = Text.lowercase "A\u01C5" ∧
      Name.fold false "A\u01C5" = Name.fold false "a\u01C6" ∧
      (∀ other ∈ [] ++ ["a"], FoldsFully other →
        Text.lowercase "A\u01C5" ≠ Text.lowercase other) ∧
      ∀ d ∈ m.types, d.isSettled = true → FoldsFully d.currentName →
        Text.lowercase "A\u01C5" ≠ Text.lowercase d.currentName := by
  intro o m requests
  obtain ⟨hfold, hsame, hgiven⟩ := fold_lowercases_iff "A\u01C5"
  have hname : FoldsFully "A\u01C5" := by decide +kernel
  have hother : FoldsFully "a\u01C6" := by decide +kernel
  have hlower : Text.lowercase "A\u01C5" = Text.lowercase "a\u01C6" := by decide +kernel
  have hnames : (Renaming.start m o (.short false)).givenAll requests =
      [] ++ "A\u01C5" :: ["a"] := by
    decide +kernel
  exact ⟨rfl, hname, hnames, hfold.2 hname, (hsame _ hlower).2 (.inr ⟨hname, hother⟩),
    hgiven m o (.short false) requests [] ["a"] rfl hname hnames⟩

/-- The digraph U+01C5 is its own fold, and beside U+01C6, which is its small form, it is given away
as the name of a type. -/
theorem titlecase_digraph_not_folded :
    let o := { NamingOptions.plain with typeWords := some (.ofWords ["\u01C5", "\u01C6"]) }
    o.mixedCase = false ∧ Name.fold false "\u01C5" = "\u01C5" ∧
      Text.lowercase "\u01C5" = "\u01C6" ∧ Text.lowercase "\u01C6" = "\u01C6" ∧
      (Renaming.start .empty o (.short false)).givenAll [.topLevel "Widget", .topLevel "Gadget"] =
        ["\u01C5", "\u01C6"] := by
  decide +kernel

end Pseudonym
