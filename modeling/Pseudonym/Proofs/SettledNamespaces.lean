import Pseudonym.Proofs.NestedNames
import Pseudonym.Proofs.Renaming.Pass

/-!
# Types stay with the settled types of their namespace

A settled type settles the new prefix of its namespace, and the other types of the namespace are to
stay with it.  The seeds of a model say where namespaces go: those that stand for the own namespace
of a settled type, and those for the namespaces around it.  The last seed for a namespace has it, so
a settled type further inside that comes later can move a namespace away from its own settled types.

`stays_with_settled_iff` makes this precise.  A type that lies in no other stays with the settled
types of its namespace exactly if the last seed for the namespace sends it where they are.  Under
flattening and repackaging there are no seeds for the namespaces around a type, and then it always
does.
-/

namespace Pseudonym

namespace Name

lemma dot_notMem_short (mixedCase : Bool) (k : Nat) : '.' ∉ (short mixedCase k).toList := by
  intro h
  rw [toList_short] at h
  obtain ⟨i, hi, hletter⟩ := exists_letter_of_mem_spell h
  have key : ∀ i < 52, '.' ≠ letter i := by decide
  exact key i (Nat.lt_of_lt_of_le hi (letterCount_le mixedCase)) hletter

end Name

namespace NamingOptions

/-- Whether no word for type names has a dot. -/
def HasPlainTypeWords (o : NamingOptions) : Prop :=
  ∀ list, o.typeWords = some list → ∀ word ∈ list.words, '.' ∉ word.toList

/-- If no word has a dot, no candidate for the name of a type has one. -/
lemma dot_notMem_of_nameAt? {o : NamingOptions} (h : o.HasPlainTypeWords) {k : Nat}
    {candidate : String} (hentry : o.typeSequence.nameAt? k = some candidate) :
    '.' ∉ candidate.toList := by
  unfold typeSequence Name.Sequence.withWords at hentry
  split at hentry
  · obtain rfl := Option.some.inj hentry
    exact Name.dot_notMem_short o.mixedCase k
  · rename_i list hlist
    rcases Name.Sequence.mem_or_nameAt?_of_words hentry with hword | ⟨j, hj⟩
    · exact h list hlist candidate hword
    · obtain rfl := Option.some.inj hj
      exact Name.dot_notMem_short o.mixedCase j

variable {o : NamingOptions} {settled : List (String × String)} {outer newOuter : String}

/-- The namespace of a settled type has a seed. -/
lemma exists_lastSeed (hfollows : o.follows = true) {name newName : String}
    (h : (name, newName) ∈ settled) :
    ∃ newOuter, (o.seeds settled).reverse.lookup (Name.namespacePrefix name) = some newOuter := by
  have hseed : (Name.namespacePrefix name, Name.namespacePrefix newName) ∈
      (o.seeds settled).reverse :=
    List.mem_reverse.2 (mem_seeds.2 ⟨_, _, h, mem_settledPrefixes_self hfollows name newName⟩)
  exact Option.isSome_iff_exists.1 (List.lookup_isSome_iff.2 ⟨_, hseed, beq_self_eq_true _⟩)

end NamingOptions

namespace Model

/-- Whether the settled types of each namespace go to the same namespace. -/
def SettledTypesAgree (m : Model) : Prop :=
  ∀ d ∈ m.types, ∀ d' ∈ m.types, d.isSettled = true → d'.isSettled = true →
    Name.namespacePrefix d.name = Name.namespacePrefix d'.name →
    Name.namespacePrefix d.currentName = Name.namespacePrefix d'.currentName

variable {m : Model} {p : PassOptions} {i : TypeId} {t : ProgramType} {name newOuter : String}

/-- A type that is called like one in no other has the prefix that the last seed for its namespace
says. -/
lemma namespacePrefix_of_isOutermost (hwords : p.naming.HasPlainTypeWords)
    (ht : m.unnamed? i = some t) (hbears : (m.withTypesNamed p).model.Bears i name)
    (houtermost : (m.withTypesNamed p).IsOutermost m i)
    (hseed : (p.naming.seeds m.settledNames).reverse.lookup (Name.namespacePrefix t.name) =
      some newOuter) : Name.namespacePrefix name = newOuter := by
  obtain ⟨t', name', ht', hbears', outer, k, candidate, hanswer, hentry, rfl⟩ := houtermost
  rw [ht] at ht'
  obtain rfl := Option.some.inj ht'
  obtain rfl := hbears.eq hbears'
  have hextends := (m.withTypesNamed_extends p).registry.extends
  have hstart : (Renaming.start m p.naming p.memberSequence).registry.newPrefix?
      (Name.namespacePrefix t.name) = some newOuter := by
    rw [Renaming.start, Registry.newPrefix?_ofModel, hseed, Option.some_or]
  have hknown := Registry.newPrefix_of_recorded (hextends.recorded hstart)
  obtain rfl : newOuter = outer := (Prod.mk.inj (hknown.symm.trans hanswer)).1
  have hoptions : (m.withTypesNamed p).registry.options = p.naming := by
    rw [hextends.options, Renaming.start, Registry.options_ofModel]
  rw [hoptions] at hentry
  exact Name.namespacePrefix_append
    (NamingOptions.isPrefix_of_mem_seeds (NamingOptions.mem_seeds_of_lastSeed hseed))
    (Name.Sequence.entry_ne_empty hentry) (NamingOptions.dot_notMem_of_nameAt? hwords hentry)

/-- If namespaces are settled only by the types that they hold, and these agree, then the last seed
for a namespace sends it where its settled types are. -/
lemma lastSeed_of_not_followsOutwards {o : NamingOptions} (hfollows : o.follows = true)
    (hout : o.followsOutwards = false) (hagree : m.SettledTypesAgree) {d : KnownType}
    (hd : d ∈ m.types) (hsettled : d.isSettled = true) :
    (o.seeds m.settledNames).reverse.lookup (Name.namespacePrefix d.name) =
      some (Name.namespacePrefix d.currentName) := by
  obtain ⟨newOuter, hseed⟩ := NamingOptions.exists_lastSeed hfollows
    (mem_settledNames.2 ⟨d, hd, hsettled, rfl, rfl⟩)
  obtain ⟨name, newName, hname, hmem⟩ :=
    NamingOptions.mem_seeds.1 (NamingOptions.mem_seeds_of_lastSeed hseed)
  obtain ⟨d', hd', hsettled', rfl, rfl⟩ := mem_settledNames.1 hname
  rw [NamingOptions.settledPrefixes_of_not_followsOutwards hfollows hout,
    List.mem_singleton] at hmem
  obtain ⟨hsame, rfl⟩ := Prod.mk.inj hmem
  rw [hseed, hagree d hd d' hd' hsettled hsettled' hsame]

end Model

/-- Types stay with the settled types of their namespace, exactly if the last seed for the namespace
sends it where these are.  Under flattening and repackaging they always do. -/
theorem stays_with_settled_iff (m : Model) (p : PassOptions) (hfollows : p.naming.follows = true)
    (hwords : p.naming.HasPlainTypeWords) (hagree : m.SettledTypesAgree) :
    ∃ s, m.rename p = .ok s ∧ ∀ i t d, m.unnamed? i = some t →
      (m.link p.adaptMetadata t = none ∨
        ¬ (m.withTypesNamed p).IsContained m p.adaptMetadata i) →
      s.model.types[i]? = some d → ∀ settled ∈ m.types, settled.isSettled = true →
      Name.namespacePrefix settled.name = Name.namespacePrefix t.name →
      (Name.namespacePrefix d.currentName = Name.namespacePrefix settled.currentName ↔
        (p.naming.seeds m.settledNames).reverse.lookup (Name.namespacePrefix t.name) =
          some (Name.namespacePrefix settled.currentName)) ∧
      (p.naming.followsOutwards = false →
        Name.namespacePrefix d.currentName = Name.namespacePrefix settled.currentName) := by
  obtain ⟨s, hs, hnames⟩ := m.rename_bears p
  refine ⟨s, hs, fun i t d ht houtside hd settled hmem hsettled hsame => ?_⟩
  have hbears := hnames i d hd
  have hcontained := (Renaming.Contained.start (Renaming.start m p.naming p.memberSequence)
    p.adaptMetadata).afterAll m.programIds
  have houtermost := hcontained.isOutermost ht hbears houtside
  obtain ⟨newOuter, hseed⟩ := NamingOptions.exists_lastSeed hfollows
    (Model.mem_settledNames.2 ⟨settled, hmem, hsettled, rfl, rfl⟩)
  rw [hsame] at hseed
  have hnewOuter := Model.namespacePrefix_of_isOutermost hwords ht hbears houtermost hseed
  refine ⟨?_, fun hout => ?_⟩
  · rw [hnewOuter, hseed, Option.some.injEq]
  · have hlast := Model.lastSeed_of_not_followsOutwards hfollows hout hagree hmem hsettled
    rw [hsame, hseed] at hlast
    rw [hnewOuter, Option.some.inj hlast]

/-! ## A namespace that is pulled away -/

/-- A model in which the settled type of `com` goes to `x`, and a library type further inside stays
in `com.example`. -/
def Model.pulled : Model where
  types := #[.program ((ProgramType.named "com.Kept").withNewName "x.Kept"),
    .program (.named "com.Other"), .library ⟨"com.example.Lib", none⟩]
  modules := []

lemma NamingOptions.hasPlainTypeWords_plain : NamingOptions.plain.HasPlainTypeWords :=
  fun _ h => nomatch h

lemma Model.settledTypesAgree_pulled : Model.pulled.SettledTypesAgree := by
  unfold Model.SettledTypesAgree
  decide +kernel

theorem stays_with_settled_iff_pulled :
    ∃ s, Model.pulled.rename ⟨.plain, none, true, false⟩ = .ok s ∧
      ∀ d, s.model.types[1]? = some d →
        (Name.namespacePrefix d.currentName = Name.namespacePrefix "x.Kept" ↔
          (NamingOptions.plain.seeds Model.pulled.settledNames).reverse.lookup
            (Name.namespacePrefix "com.Other") = some (Name.namespacePrefix "x.Kept")) := by
  obtain ⟨s, hs, hstays⟩ := stays_with_settled_iff Model.pulled ⟨.plain, none, true, false⟩ rfl
    NamingOptions.hasPlainTypeWords_plain Model.settledTypesAgree_pulled
  refine ⟨s, hs, fun d hd => ?_⟩
  exact (hstays 1 (.named "com.Other") d (by decide +kernel) (.inl (by decide +kernel)) hd
    (.program ((ProgramType.named "com.Kept").withNewName "x.Kept")) (by decide +kernel) rfl
    (by decide +kernel)).1

/-- The library type says last where `com` goes, and the other type of `com` does not go to `x`. -/
theorem settled_namespace_pulled_away :
    NamingOptions.plain.follows = true ∧ NamingOptions.plain.HasPlainTypeWords ∧
      Model.pulled.SettledTypesAgree ∧
      Model.pulled.unnamed? 1 = some (.named "com.Other") ∧
      Model.pulled.link true (.named "com.Other") = none ∧
      ((Model.pulled.rename ⟨.plain, none, true, false⟩).toOption.bind fun s =>
        s.model.types[1]?.map KnownType.currentName) = some "com.a" ∧
      Name.namespacePrefix "com.a" ≠ Name.namespacePrefix "x.Kept" := by
  refine ⟨rfl, NamingOptions.hasPlainTypeWords_plain, Model.settledTypesAgree_pulled, ?_⟩
  decide +kernel

end Pseudonym
