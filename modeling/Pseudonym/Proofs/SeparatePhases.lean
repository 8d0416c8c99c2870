import Pseudonym.Proofs.Renaming.Unseen
import Pseudonym.Proofs.RepeatedPasses

/-!
# The phases of a pass do not interfere

Types, members and metadata are named one after the other with one registry, and members and
metadata even draw from one sequence.  Nothing flows from one phase to another all the same.

The naming of types looks neither at members nor at what metadata lists, and without metadata not
at metadata at all; these are changes that are `ProgramType.IsUnseen`.  Each type is then finished
by itself, and what its members become is a matter of the members, the sequence of member names and
the overloading: the sequence restarts with every member, wherever the registry had got to.
-/

namespace Pseudonym

/-! ## Changes that are not looked at -/

namespace ProgramType

/-- The type without members, and with nothing in the lists of its metadata. -/
def withoutContents (t : ProgramType) : ProgramType :=
  { t with
    members := []
    metadata := t.metadata.map (·.withDeclarations ⟨[], []⟩) }

/-- Metadata marks a lambda class whatever is in its lists. -/
lemma isUnseen_withoutContents (adaptMetadata : Bool) : IsUnseen adaptMetadata withoutContents where
  name _ := rfl
  newName _ := rfl
  recordedOuters _ := rfl
  isLambda t := by
    have hmark : t.withoutContents.isLambda = t.isLambda := by
      simp only [isLambda, withoutContents]
      cases t.metadata with
      | none => rfl
      | some metadata => cases metadata <;> rfl
    rw [hmark]
  withNewName _ _ := rfl

/-- If metadata does not count, nothing of it is looked at. -/
lemma isUnseen_withoutMetadata : IsUnseen false withoutMetadata where
  name _ := rfl
  newName _ := rfl
  recordedOuters _ := rfl
  isLambda _ := rfl
  withNewName _ _ := rfl

variable {t t' : ProgramType} {p p' : PassOptions}

/-- What becomes of members depends on the members, the words for them and the overloading. -/
lemma members_finished_congr (hmembers : t'.members = t.members)
    (hwords : p'.memberWords = p.memberWords) (hoverload : p'.overload = p.overload) :
    (t'.finished p').members = (t.finished p).members := by
  have hsequence : p'.memberSequence = p.memberSequence := by
    rw [PassOptions.memberSequence, PassOptions.memberSequence, hwords]
  rw [members_finished, members_finished, hsequence, hoverload]
  simp only [withMembersNamed, Registry.renameMembers, hmembers]

lemma finished_withoutMetadata (hadapt : p.adaptMetadata = false) (t : ProgramType) :
    t.withoutMetadata.finished p = (t.finished p).withoutMetadata := by
  rw [finished, finished, hadapt]
  rfl

end ProgramType

/-! ## Whole passes -/

namespace Model

variable {m m' : Model} {p p' : PassOptions} {s s' : Renaming}

/-- The model without members, modules, type aliases and properties. -/
def withoutContents (m : Model) : Model := m.changed (·.withoutContents) []

/-- The model without the metadata of its types. -/
def withoutMetadata (m : Model) : Model := m.changed (·.withoutMetadata) m.modules

/-- The names of the types and the new prefixes are not changed after the types have been named. -/
lemma labels_and_prefixes_rename (hs : m.rename p = .ok s) :
    s.model.labels = (m.withTypesNamed p).model.labels ∧
      s.registry.prefixes = (m.withTypesNamed p).registry.prefixes := by
  obtain ⟨s₁, hs₁, hlabels⟩ := m.rename_eq p
  obtain ⟨s₂, hs₂, -, -, position, hregistry⟩ := m.rename_finished p
  obtain rfl := Except.ok.inj (hs.symm.trans hs₁)
  obtain rfl := Except.ok.inj (hs.symm.trans hs₂)
  exact ⟨hlabels, by rw [hregistry]; rfl⟩

/-- Types get the same names in models that differ in their contents alone. -/
theorem withTypesNamed_of_contents (hsame : m'.withoutContents = m.withoutContents)
    (hnaming : p'.naming = p.naming) (hadapt : p'.adaptMetadata = p.adaptMetadata) :
    (m'.withTypesNamed p').model.labels = (m.withTypesNamed p).model.labels ∧
      (m'.withTypesNamed p').registry.prefixes = (m.withTypesNamed p).registry.prefixes := by
  have hoverlooks : ∀ m : Model, m.Overlooks p.adaptMetadata ProgramType.withoutContents :=
    overlooks_of_isUnseen (ProgramType.isUnseen_withoutContents p.adaptMetadata)
  have hoverlooks' : m'.Overlooks p'.adaptMetadata ProgramType.withoutContents :=
    overlooks_of_isUnseen (ProgramType.isUnseen_withoutContents p'.adaptMetadata) m'
  have hthere := withTypesNamed_changed hoverlooks' rfl rfl []
  have hhere := withTypesNamed_changed (hoverlooks m) hnaming hadapt []
  rw [← withoutContents] at hthere hhere
  rw [hsame, hhere] at hthere
  constructor
  · have hlabels := congrArg (fun s => s.model.labels) hthere
    simpa [Renaming.changed, labels_changed (hoverlooks _)] using hlabels.symm
  · exact (congrArg (fun s => s.registry.prefixes) hthere).symm

/-- What a type of the program has for members in the end. -/
lemma exists_members_rename (hs : m.rename p = .ok s) {id : TypeId} {t : ProgramType}
    (ht : m.types[id]? = some (.program t)) :
    ∃ u, s.model.types[id]? = some (.program u) ∧ u.members = (t.finished p).members := by
  obtain ⟨s₁, hs₁, htypes, -⟩ := m.rename_finished p
  obtain rfl := Except.ok.inj (hs.symm.trans hs₁)
  have hnamed : ∃ v : ProgramType, (m.withTypesNamed p).model.types[id]? = some (.program v) ∧
      v.members = t.members := by
    rcases (m.withTypesNamed_extends p).model.types id with hsame | ⟨t', name, ht', hname⟩
    · exact ⟨t, hsame.trans ht, rfl⟩
    · obtain rfl := KnownType.program.inj
        (Option.some.inj ((unnamed?_eq_some_iff.1 ht').1.symm.trans ht))
      exact ⟨t'.withNewName name, hname, rfl⟩
  obtain ⟨v, hv, hmembers⟩ := hnamed
  refine ⟨v.finished p, ?_, ProgramType.members_finished_congr hmembers rfl rfl⟩
  rw [htypes, Array.getElem?_map, hv]
  rfl

/-- If metadata does not count, a model is renamed as it is without its metadata. -/
theorem rename_withoutMetadata (hadapt : p.adaptMetadata = false) (hs : m.rename p = .ok s) :
    ∃ s', m.withoutMetadata.rename p = .ok s' ∧ s'.model = s.model.withoutMetadata ∧
      s'.registry.prefixes = s.registry.prefixes := by
  obtain ⟨s₁, hs₁, htypes, hmodules, position, hregistry⟩ := m.rename_finished p
  obtain rfl := Except.ok.inj (hs.symm.trans hs₁)
  obtain ⟨s', hs', htypes', hmodules', position', hregistry'⟩ := m.withoutMetadata.rename_finished p
  have hunseen : ProgramType.IsUnseen p.adaptMetadata ProgramType.withoutMetadata := by
    rw [hadapt]
    exact ProgramType.isUnseen_withoutMetadata
  have hnamed : m.withoutMetadata.withTypesNamed p =
      (m.withTypesNamed p).changed ProgramType.withoutMetadata m.modules p.memberSequence :=
    withTypesNamed_changed (overlooks_of_isUnseen hunseen m) rfl rfl m.modules
  have hchanged : s'.model.types =
      s.model.types.map (KnownType.mapProgram ProgramType.withoutMetadata) := by
    rw [htypes', hnamed, htypes]
    simp only [Renaming.changed, changed, Array.map_map]
    congr 1
    funext d
    cases d with
    | program t => exact congrArg KnownType.program (t.finished_withoutMetadata hadapt)
    | library n => rfl
  have hlisted : s'.model.modules = s.model.modules := by
    rw [hmodules, hmodules', hadapt]
    rfl
  refine ⟨s', hs', ?_, ?_⟩
  · rw [withoutMetadata, changed, ← hchanged, ← hlisted]
  · rw [hregistry, hregistry', hnamed]
    rfl

end Model

/-- The phases of a pass are separate.  The names of types and the new prefixes do not depend on
members, on modules, on what metadata lists, on the words for members and on overloading.  The names
of the members of a type depend on these members, the words for them and overloading alone.  If
metadata does not count, a model is renamed as it is without its metadata. -/
theorem phases_are_separate :
    (∀ (m m' : Model) (p p' : PassOptions), m'.withoutContents = m.withoutContents →
      p'.naming = p.naming → p'.adaptMetadata = p.adaptMetadata →
      ∃ s s', m.rename p = .ok s ∧ m'.rename p' = .ok s' ∧
        s'.model.labels = s.model.labels ∧ s'.registry.prefixes = s.registry.prefixes) ∧
    (∀ (m m' : Model) (p p' : PassOptions), p'.memberWords = p.memberWords →
      p'.overload = p.overload →
      ∃ s s', m.rename p = .ok s ∧ m'.rename p' = .ok s' ∧
        ∀ (id id' : TypeId) (t t' : ProgramType), m.types[id]? = some (.program t) →
          m'.types[id']? = some (.program t') → t'.members = t.members →
          ∃ u u' : ProgramType, s.model.types[id]? = some (.program u) ∧
            s'.model.types[id']? = some (.program u') ∧ u'.members = u.members) ∧
    ∀ (m : Model) (p : PassOptions), p.adaptMetadata = false →
      ∃ s s', m.rename p = .ok s ∧ m.withoutMetadata.rename p = .ok s' ∧
        s'.model = s.model.withoutMetadata ∧ s'.registry.prefixes = s.registry.prefixes := by
  refine ⟨?_, ?_, ?_⟩
  · intro m m' p p' hsame hnaming hadapt
    obtain ⟨s, hs, -⟩ := m.rename_eq p
    obtain ⟨s', hs', -⟩ := m'.rename_eq p'
    obtain ⟨hlabels, hprefixes⟩ := Model.labels_and_prefixes_rename hs
    obtain ⟨hlabels', hprefixes'⟩ := Model.labels_and_prefixes_rename hs'
    obtain ⟨hnames, hplaces⟩ := Model.withTypesNamed_of_contents hsame hnaming hadapt
    refine ⟨s, s', hs, hs', ?_, ?_⟩
    · rw [hlabels, hlabels', hnames]
    · rw [hprefixes, hprefixes', hplaces]
  · intro m m' p p' hwords hoverload
    obtain ⟨s, hs, -⟩ := m.rename_eq p
    obtain ⟨s', hs', -⟩ := m'.rename_eq p'
    refine ⟨s, s', hs, hs', fun id id' t t' ht ht' hmembers => ?_⟩
    obtain ⟨u, hu, hnamed⟩ := Model.exists_members_rename hs ht
    obtain ⟨u', hu', hnamed'⟩ := Model.exists_members_rename hs' ht'
    refine ⟨u, u', hu, hu', ?_⟩
    rw [hnamed, hnamed', ProgramType.members_finished_congr hmembers hwords hoverload]
  · intro m p hadapt
    obtain ⟨s, hs, -⟩ := m.rename_eq p
    obtain ⟨s', hs', hmodel, hprefixes⟩ := Model.rename_withoutMetadata hadapt hs
    exact ⟨s, s', hs, hs', hmodel, hprefixes⟩

/-- A class with a field and a property, and the class of a lambda expression in it. -/
def Model.withLambda : Model where
  types := #[.program ((ProgramType.named "com.Outer").withMember
      ⟨.field, "size", "I", false, none⟩ |>.withMetadata (.ofClass ⟨[], [⟨"size", none⟩]⟩)),
    .program ((ProgramType.named "com.Outer$get").nestedIn "com.Outer" |>.withMetadata
      (.syntheticClass .lambda))]
  modules := [⟨"app", none⟩]

/-- The class of the lambda expression comes first, and has the field. -/
def Model.withFieldInLambda : Model where
  types := #[.program ((ProgramType.named "com.Outer$get").nestedIn "com.Outer" |>.withMetadata
      (.syntheticClass .lambda) |>.withMember ⟨.field, "size", "I", false, none⟩),
    .program (.named "com.Outer")]
  modules := []

theorem phases_are_separate_lambda :
    (Model.withLambda.withoutContents.withoutContents = Model.withLambda.withoutContents ∧
      ∃ s s', Model.withLambda.rename ⟨.plain, none, true, false⟩ = .ok s ∧
        Model.withLambda.withoutContents.rename ⟨.plain, none, true, true⟩ = .ok s' ∧
        s'.model.labels = s.model.labels ∧ s'.registry.prefixes = s.registry.prefixes) ∧
    (∃ s s', Model.withLambda.rename ⟨.plain, none, true, false⟩ = .ok s ∧
      Model.withFieldInLambda.rename ⟨.plain, none, false, false⟩ = .ok s' ∧
      ∃ u u' : ProgramType, s.model.types[0]? = some (.program u) ∧
        s'.model.types[0]? = some (.program u') ∧ u'.members = u.members) ∧
    ∃ s s', Model.withLambda.rename ⟨.plain, none, false, false⟩ = .ok s ∧
      Model.withLambda.withoutMetadata.rename ⟨.plain, none, false, false⟩ = .ok s' ∧
      s'.model = s.model.withoutMetadata ∧ s'.registry.prefixes = s.registry.prefixes := by
  have hsame : Model.withLambda.withoutContents.withoutContents =
      Model.withLambda.withoutContents := by decide +kernel
  refine ⟨⟨hsame, ?_⟩, ?_, ?_⟩
  · exact phases_are_separate.1 Model.withLambda Model.withLambda.withoutContents
      ⟨.plain, none, true, false⟩ ⟨.plain, none, true, true⟩ hsame rfl rfl
  · obtain ⟨s, s', hs, hs', hmembers⟩ := phases_are_separate.2.1 Model.withLambda
      Model.withFieldInLambda ⟨.plain, none, true, false⟩ ⟨.plain, none, false, false⟩ rfl rfl
    exact ⟨s, s', hs, hs', hmembers 0 0 _ _ rfl rfl rfl⟩
  · exact phases_are_separate.2.2 Model.withLambda ⟨.plain, none, false, false⟩ rfl

end Pseudonym
