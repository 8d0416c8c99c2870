import Pseudonym.Proofs.Model.Arena
import Pseudonym.Proofs.Renaming.Embedding
import Pseudonym.Proofs.Renaming.Outcome

/-!
# Types that are added at the end

When a program grows, the types that are added to its model come last.  As long as none of the
earlier types is recorded to lie in one of them, the earlier types get the names that they got
without them, and so do their members, their metadata and the modules.

Types without a name settle nothing, so both passes begin with the same registry.  They ask for the
earlier types first, and in this they go in lock step (`Renaming.Mirrors`), because what was there
before is found in the larger model under the same numbers.  When it is the turn of the added types,
the earlier ones have their names for good.
-/

namespace Pseudonym

namespace Model

variable {m : Model} {extra : List ProgramType} {p : PassOptions}

/-- The model with more types of the program at the end. -/
def extendedBy (m : Model) (extra : List ProgramType) : Model :=
  { m with types := m.types ++ (extra.map KnownType.program).toArray }

lemma getElem?_extendedBy {id : TypeId} (hid : id < m.size) (extra : List ProgramType) :
    (m.extendedBy extra).types[id]? = m.types[id]? :=
  Array.getElem?_append_left hid

/-- Types without a name settle nothing. -/
lemma settledNames_extendedBy (h : ∀ t ∈ extra, t.newName = none) :
    (m.extendedBy extra).settledNames = m.settledNames := by
  have hprogram : (m.extendedBy extra).programTypes = m.programTypes ++ extra := by
    rw [programTypes, extendedBy, Array.toList_append, List.filterMap_append,
      filterMap_map_program]
    rfl
  have hlibrary : (m.extendedBy extra).libraryTypes = m.libraryTypes := by
    simp [libraryTypes, extendedBy]
  have hextra : extra.filterMap (fun t => t.newName.map (t.name, ·)) = [] := by
    refine List.filterMap_eq_nil_iff.2 fun t ht => ?_
    rw [h t ht]
    rfl
  rw [settledNames, settledNames, hprogram, hlibrary, List.filterMap_append, hextra,
    List.append_nil]

lemma lookup_extendedBy {name : String} (h : ∀ t ∈ extra, t.name ≠ name) :
    (m.extendedBy extra).lookup name = m.lookup name := by
  have hextra : (extra.map KnownType.program).toArray.findIdx? (·.name = name) = none := by
    rw [Array.findIdx?_eq_none_iff]
    intro d hd
    obtain ⟨t, ht, rfl⟩ : ∃ t ∈ extra, KnownType.program t = d := by simpa using hd
    exact decide_eq_false (h t ht)
  rw [lookup, lookup, extendedBy, Array.findIdx?_append, hextra, Option.map_none, Option.or_none]

lemma embeds_extendedBy (h : ∀ t ∈ m.programTypes, ∀ outer ∈ t.recordedOuters, ∀ t' ∈ extra,
    t'.name ≠ outer) : m.Embeds (fun id => id) (m.extendedBy extra) where
  types hd := by
    rw [getElem?_extendedBy (Array.getElem?_eq_some_iff.1 hd).1, hd]
  outers {_ t} ht outer houter := by
    have hprogram : t ∈ m.programTypes := mem_programTypes.2 (Array.mem_of_getElem? ht)
    rw [lookup_extendedBy (h t hprogram outer houter), Option.map_id']
  injective _ _ heq := heq

/-- The earlier types come first. -/
lemma programIds_extendedBy (m : Model) (extra : List ProgramType) :
    ∃ rest, (m.extendedBy extra).programIds = m.programIds ++ rest := by
  have hsize : (m.extendedBy extra).size = m.size + extra.length := by
    simp [size, extendedBy]
  have hearlier : (List.range m.size).filter
      (fun id => (m.extendedBy extra).types[id]?.any (!·.isLibrary)) = m.programIds :=
    List.filter_congr fun id hid => by rw [getElem?_extendedBy (List.mem_range.1 hid)]
  refine ⟨((List.range extra.length).map (m.size + ·)).filter
    fun id => (m.extendedBy extra).types[id]?.any (!·.isLibrary), ?_⟩
  rw [programIds, ids, hsize, List.range_add, List.filter_append, hearlier]

/-- When all types of the larger model have been named, the earlier ones are as they are when they
have been named without the others. -/
theorem withTypesNamed_extendedBy (hunnamed : ∀ t ∈ extra, t.newName = none)
    (hrecords : ∀ t ∈ m.programTypes, ∀ outer ∈ t.recordedOuters, ∀ t' ∈ extra, t'.name ≠ outer)
    (p : PassOptions) {id : TypeId} (hid : id < m.size) :
    ((m.extendedBy extra).withTypesNamed p).model.types[id]? =
      (m.withTypesNamed p).model.types[id]? := by
  have hregistry : Registry.ofModel (m.extendedBy extra) p.naming p.memberSequence =
      Registry.ofModel m p.naming p.memberSequence := by
    rw [Registry.ofModel, Registry.ofModel, settledNames_extendedBy hunnamed]
  have hstart : (Renaming.start m p.naming p.memberSequence).Mirrors (fun id => id)
      (Renaming.start (m.extendedBy extra) p.naming p.memberSequence) :=
    ⟨hregistry, embeds_extendedBy hrecords⟩
  obtain ⟨rest, hids⟩ := m.programIds_extendedBy extra
  have hfirst : m.programIds.foldlM (Renaming.renameType · p.adaptMetadata)
      (Renaming.start m p.naming p.memberSequence) = .ok (m.withTypesNamed p) :=
    m.renameTypes_start p
  have hall : (m.programIds ++ rest).foldlM (Renaming.renameType · p.adaptMetadata)
      (Renaming.start (m.extendedBy extra) p.naming p.memberSequence) =
        .ok ((m.extendedBy extra).withTypesNamed p) := by
    rw [← hids]
    exact (m.extendedBy extra).renameTypes_start p
  -- First the earlier types in lock step, then the others.
  obtain ⟨s₁, hs₁, hmirrors⟩ :=
    Renaming.Mirrors.foldlM (fun _ _ _ _ h hs => h.renameType hs) hstart hfirst
  rw [List.map_id'] at hs₁
  rw [List.foldlM_append, hs₁] at hall
  have hgrows : s₁.model.Grows ((m.extendedBy extra).withTypesNamed p).model :=
    (Renaming.foldlM_extends hall).model
  obtain ⟨name, d, hd, hsettled, -⟩ := m.withTypesNamed_bears p hid
  rw [hd]
  exact hgrows.settled (hmirrors.model.types hd) hsettled

end Model

/-- Appending types does not reshuffle earlier names. -/
theorem appended_types_leave_names_alone (m : Model) (extra : List ProgramType)
    (hunnamed : ∀ t ∈ extra, t.newName = none)
    (hrecords : ∀ t ∈ m.programTypes, ∀ outer ∈ t.recordedOuters, ∀ t' ∈ extra, t'.name ≠ outer)
    (p : PassOptions) :
    ∃ s s', m.rename p = .ok s ∧ (m.extendedBy extra).rename p = .ok s' ∧
      (∀ id < m.size, s'.model.types[id]? = s.model.types[id]?) ∧
      s'.model.modules = s.model.modules := by
  obtain ⟨s, hs, htypes, hmodules, -⟩ := m.rename_finished p
  obtain ⟨s', hs', htypes', hmodules', -⟩ := (m.extendedBy extra).rename_finished p
  refine ⟨s, s', hs, hs', fun id hid => ?_, ?_⟩
  · rw [htypes, htypes', Array.getElem?_map, Array.getElem?_map,
      Model.withTypesNamed_extendedBy hunnamed hrecords p hid]
  · rw [hmodules, hmodules']
    rfl

/-- One of the added types lies in an earlier one, next to an earlier inner type. -/
theorem appended_types_leave_names_alone_inner :
    let m : Model := ⟨#[.program ((ProgramType.named "com.Outer$Inner").nestedIn "com.Outer"),
      .program (.named "com.Outer"), .library ⟨"java.lang.Object", none⟩], [⟨"app", none⟩]⟩
    let extra := [(ProgramType.named "com.Outer$Late").nestedIn "com.Outer", .named "com.Last"]
    (∀ t ∈ extra, t.newName = none) ∧
      (∀ t ∈ m.programTypes, ∀ outer ∈ t.recordedOuters, ∀ t' ∈ extra, t'.name ≠ outer) ∧
      ∃ s s', m.rename default = .ok s ∧ (m.extendedBy extra).rename default = .ok s' ∧
        (∀ id < m.size, s'.model.types[id]? = s.model.types[id]?) ∧
        s'.model.modules = s.model.modules := by
  intro m extra
  have hunnamed : ∀ t ∈ extra, t.newName = none := by decide
  have hrecords : ∀ t ∈ m.programTypes, ∀ outer ∈ t.recordedOuters, ∀ t' ∈ extra,
      t'.name ≠ outer := by decide
  exact ⟨hunnamed, hrecords, appended_types_leave_names_alone m extra hunnamed hrecords default⟩

end Pseudonym
