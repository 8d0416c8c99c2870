import Pseudonym.Proofs.Model.Arena
import Pseudonym.Proofs.Renaming.Unseen

/-!
# Records that lead nowhere

A type says in two kinds of records in which other types it lies, and programs come with records
that do not make sense.  One may be about another type or about none, leave out the outer type, or
name the type itself or a type that is not in the model.  Such a record is idle: it makes no link,
and the next one is consulted in its place.

Without its idle records a type has the same links (`link_withoutIdleRecords`), so a model overlooks
that they are dropped.  As nothing else in a pass looks at records, the outcome is the same but for
the dropped records.
-/

namespace Pseudonym

/-! ## Types -/

namespace ProgramType

/-- The type without its idle records.  What is `known` are the old names in a model. -/
def withoutIdleRecords (known : String → Bool) (t : ProgramType) : ProgramType :=
  { t with
    enclosingMethodType := t.enclosingMethodType.filter fun outer => outer ≠ t.name && known outer
    innerTypes := t.innerTypes.filter fun entry => entry.inner = some t.name &&
      entry.outer.any fun outer => outer ≠ t.name && known outer }

/-- Of the types in which a type is recorded to lie, those remain that are others and are known. -/
lemma recordedOuters_withoutIdleRecords (known : String → Bool) (t : ProgramType) :
    (t.withoutIdleRecords known).recordedOuters =
      t.recordedOuters.filter fun outer => outer ≠ t.name && known outer := by
  rw [recordedOuters, recordedOuters, List.filter_append, List.filter_filterMap]
  refine congrArg₂ (· ++ ·) Option.toList_filter ?_
  rw [withoutIdleRecords, List.filterMap_filter]
  refine List.filterMap_congr fun entry _ => ?_
  by_cases hinner : entry.inner = some t.name
  · cases houter : entry.outer with
    | none => simp
    | some outer => simp [hinner, Option.filter]
  · simp [hinner]

/-- Naming members and declarations does not touch records. -/
lemma finished_withoutIdleRecords (known : String → Bool) (p : PassOptions) (t : ProgramType) :
    (t.withoutIdleRecords known).finished p = (t.finished p).withoutIdleRecords known := by
  have hmembers : (t.withoutIdleRecords known).withMembersNamed p.memberSequence p.overload =
      (t.withMembersNamed p.memberSequence p.overload).withoutIdleRecords known := rfl
  have hdeclarations : ∀ t : ProgramType,
      (t.withoutIdleRecords known).withDeclarationsNamed p.memberSequence =
        (t.withDeclarationsNamed p.memberSequence).withoutIdleRecords known := by
    intro t
    have hlists : (t.withoutIdleRecords known).declarations? = t.declarations? := rfl
    rw [withDeclarationsNamed, withDeclarationsNamed, changeDeclarations, changeDeclarations,
      hlists]
    cases t.declarations? <;> rfl
  rw [finished, finished, hmembers]
  split
  · exact hdeclarations _
  · rfl

end ProgramType

/-! ## Models -/

namespace Model

variable {m m' : Model} {p : PassOptions}

/-- Whether a type of the model has an old name. -/
def hasName (m : Model) (name : String) : Bool :=
  m.types.any (·.name = name)

/-- The model without the idle records of its types. -/
def withoutIdleRecords (m : Model) : Model :=
  m.changed (·.withoutIdleRecords m.hasName) m.modules

lemma hasName_of_map_name (h : m'.types.map KnownType.name = m.types.map KnownType.name) :
    m'.hasName = m.hasName := by
  have hmap : ∀ (m : Model) (name : String),
      m.hasName name = (m.types.map KnownType.name).any (· = name) := by
    intro m name
    rw [Array.any_map]
    rfl
  funext name
  rw [hmap, hmap, h]

/-- A name that the model does not have makes no link. -/
lemma linkTo_eq_none {adaptMetadata : Bool} {t : ProgramType} {outer : String}
    (h : (outer ≠ t.name && m.hasName outer) = false) : m.linkTo adaptMetadata t outer = none := by
  rw [linkTo]
  split
  · rfl
  · rename_i hne
    have hmissing : m.hasName outer = false := by simpa [hne] using h
    have hnone : m.lookup outer = none := by
      refine lookup_eq_none_iff.2 fun d hd hname => ?_
      rw [hasName, Array.any_eq_false'] at hmissing
      exact hmissing d hd (decide_eq_true hname)
    rw [hnone]
    rfl

/-- Idle records make no links. -/
theorem link_withoutIdleRecords (m : Model) (adaptMetadata : Bool) (t : ProgramType) :
    m.link adaptMetadata (t.withoutIdleRecords m.hasName) = m.link adaptMetadata t := by
  have hlinkTo : m.linkTo adaptMetadata (t.withoutIdleRecords m.hasName) =
      m.linkTo adaptMetadata t := rfl
  rw [link, link, hlinkTo, ProgramType.recordedOuters_withoutIdleRecords,
    ← List.head?_filterMap, ← List.head?_filterMap, List.filterMap_filter]
  refine congrArg List.head? (List.filterMap_congr fun outer _ => ?_)
  split
  · rfl
  · rename_i hidle
    exact (linkTo_eq_none (Bool.not_eq_true _ ▸ hidle)).symm

lemma overlooks_withoutIdleRecords (m : Model) (adaptMetadata : Bool) :
    m.Overlooks adaptMetadata (·.withoutIdleRecords m.hasName) where
  name _ := rfl
  newName _ := rfl
  link := m.link_withoutIdleRecords adaptMetadata
  withNewName _ _ := rfl

end Model

/-- Idle records have no influence on names.  Without the records that are not about their type, or
name as the outer type none, the type itself or one that is not in the model, every model is renamed
as it is with them: types get the same names, and namespaces the same new prefixes.  Nothing else is
different either, but for the records that were dropped. -/
theorem idle_records_do_not_matter (m : Model) (p : PassOptions) :
    ∃ s s', m.rename p = .ok s ∧ m.withoutIdleRecords.rename p = .ok s' ∧
      s'.model.labels = s.model.labels ∧ s'.registry.prefixes = s.registry.prefixes ∧
      s'.model = s.model.withoutIdleRecords := by
  obtain ⟨s, hs, htypes, hmodules, position, hregistry⟩ := m.rename_finished p
  obtain ⟨s', hs', htypes', hmodules', position', hregistry'⟩ :=
    m.withoutIdleRecords.rename_finished p
  have hnamed : m.withoutIdleRecords.withTypesNamed p =
      (m.withTypesNamed p).changed (·.withoutIdleRecords m.hasName) m.modules p.memberSequence :=
    Model.withTypesNamed_changed (m.overlooks_withoutIdleRecords p.adaptMetadata) rfl rfl m.modules
  have hknown : s.model.hasName = m.hasName := by
    have hgrows : m.Grows (m.withTypesNamed p).model := (m.withTypesNamed_extends p).model
    refine Model.hasName_of_map_name ?_
    rw [htypes, Array.map_map, ← hgrows.map_name]
    exact congrArg (Array.map · _)
      (funext (KnownType.name_mapProgram (ProgramType.name_finished p)))
  have hmodel : s'.model = s.model.withoutIdleRecords := by
    have hlists : s'.model.types =
        s.model.types.map (KnownType.mapProgram (·.withoutIdleRecords m.hasName)) := by
      rw [htypes', hnamed, htypes]
      simp only [Renaming.changed, Model.changed, Array.map_map]
      congr 1
      funext d
      cases d with
      | program t =>
        exact congrArg KnownType.program (t.finished_withoutIdleRecords m.hasName p)
      | library n => rfl
    have hlisted : s'.model.modules = s.model.modules := by
      rw [hmodules, hmodules']
      rfl
    rw [Model.withoutIdleRecords, Model.changed, hknown, ← hlists, ← hlisted]
  refine ⟨s, s', hs, hs', ?_, ?_, hmodel⟩
  · rw [hmodel, Model.withoutIdleRecords,
      Model.labels_changed (s.model.overlooks_withoutIdleRecords p.adaptMetadata)]
  · rw [hregistry, hregistry', hnamed]
    rfl

/-- Of all the records of `Outer$1` only the last one leads somewhere. -/
example :
    let t : ProgramType := { ProgramType.named "Outer$1" with
      enclosingMethodType := some "Gone"
      innerTypes := [⟨none, some "Outer"⟩, ⟨some "Outer$2", some "Outer"⟩, ⟨some "Outer$1", none⟩,
        ⟨some "Outer$1", some "Outer$1"⟩, ⟨some "Outer$1", some "Outer"⟩] }
    let m : Model := ⟨#[.program t, .program (.named "Outer")], []⟩
    m.withoutIdleRecords.types = #[.program ((ProgramType.named "Outer$1").nestedIn "Outer"),
      .program (.named "Outer")] := by
  decide +kernel

end Pseudonym
