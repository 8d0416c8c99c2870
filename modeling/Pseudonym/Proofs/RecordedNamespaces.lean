import Pseudonym.Proofs.RetainedNamespaces
import Pseudonym.Proofs.SteadyNamespaces

/-!
# Which answers are recorded

Whoever comes after a pass can look up in the registry where a namespace has gone.  For most
namespaces that have been asked for the record says what was answered, at once and ever after.  But
of the ways in which an answer comes about only one makes a record, and so a namespace that is kept,
or that goes to the common namespace, has a record only if it had one at the beginning.

`answers_recorded_iff` says which namespaces are concerned, and that for those the registry has no
record at all, while types are moved to the new prefix all the same.
-/

namespace Pseudonym

namespace Registry

variable {r r' : Registry} {outer newOuter : String}

/-- Whether a namespace prefix has no record and is not going to have one: it is kept, or types are
repackaged. -/
def GoesUnrecorded (r : Registry) (outer : String) : Prop :=
  r.newPrefix? outer = none ∧
    (r.options.keepsPrefix outer = true ∨ r.options.repackageTarget? ≠ none)

/-- Whether a registry shows that a namespace prefix has a new one, in its answer to a look-up and
in the list of all records. -/
def Shows (r : Registry) (outer newOuter : String) : Prop :=
  r.newPrefix? outer = some newOuter ∧ (outer, newOuter) ∈ r.prefixes.toList

/-- The list of all records has what a look-up answers. -/
lemma shows_iff : r.Shows outer newOuter ↔ r.newPrefix? outer = some newOuter := by
  rw [Shows, Std.ExtTreeMap.mem_toList_iff_getElem?_eq_some, newPrefix?, and_self]

lemma Extends.goesUnrecorded_iff (h : r.Extends r') :
    r'.GoesUnrecorded outer ↔ r.GoesUnrecorded outer := by
  constructor
  · rintro ⟨hlater, hdecided⟩
    rw [h.options] at hdecided
    exact ⟨h.unknown hlater, hdecided⟩
  · rintro ⟨hunknown, hdecided⟩
    have hlater := h.newPrefix?_eq_none hunknown hdecided
    rw [← h.options] at hdecided
    exact ⟨hlater, hdecided⟩

/-- Once a prefix is decided, it has a record unless it goes unrecorded. -/
theorem newPrefix?_of_decided (h : r.newPrefix outer = (newOuter, r)) :
    r.newPrefix? outer = some newOuter ∧ ¬ r.GoesUnrecorded outer ∨
      r.newPrefix? outer = none ∧ r.GoesUnrecorded outer := by
  generalize hans : r.newPrefix outer = answer at h
  cases hans ▸ r.newPrefix_answers outer with
  | known recorded =>
    obtain ⟨rfl, -⟩ := Prod.mk.inj h
    refine .inl ⟨recorded, ?_⟩
    rintro ⟨hunknown, -⟩
    exact nomatch recorded.symm.trans hunknown
  | kept unknown kept => exact .inr ⟨unknown, unknown, .inl kept⟩
  | repackaged unknown _ repackages =>
    refine .inr ⟨unknown, unknown, .inr ?_⟩
    rw [repackages]
    exact Option.some_ne_none _
  | created unknown =>
    -- The prefix would have a record by now.
    set parent := r.newParent outer
    have hsame : (parent.2.createPrefix outer parent.1).2 = r := congrArg Prod.snd h
    have hrecorded := newPrefix?_createPrefix parent.2 outer parent.1 outer
    rw [hsame, unknown, if_pos rfl] at hrecorded
    exact nomatch hrecorded

/-- What a registry shows of a decided prefix. -/
lemma shows_iff_of_decided (h : r.newPrefix outer = (newOuter, r)) :
    (r.Shows outer newOuter ↔ ¬ r.GoesUnrecorded outer) ∧
      (r.newPrefix? outer = none ↔ r.GoesUnrecorded outer) := by
  rw [shows_iff]
  rcases newPrefix?_of_decided h with ⟨hrecorded, hgoes⟩ | ⟨hunknown, hgoes⟩
  · have hsome : r.newPrefix? outer ≠ none := by
      rw [hrecorded]
      exact Option.some_ne_none newOuter
    exact ⟨iff_of_true hrecorded hgoes, iff_of_false hsome hgoes⟩
  · have hnot : r.newPrefix? outer ≠ some newOuter := by
      rw [hunknown]
      exact (Option.some_ne_none newOuter).symm
    exact ⟨iff_of_false hnot (not_not_intro hgoes), iff_of_true hunknown hgoes⟩

/-- At the beginning, what goes unrecorded is what no settled type settles, the root apart. -/
theorem goesUnrecorded_ofModel (m : Model) (o : NamingOptions) (memberSequence : Name.Sequence) :
    (ofModel m o memberSequence).GoesUnrecorded outer ↔
      outer ≠ "" ∧ (∀ newOuter, (outer, newOuter) ∉ o.seeds m.settledNames) ∧
        (o.keepsPrefix outer = true ∨ o.repackage ≠ none) := by
  have hunseeded : (o.seeds m.settledNames).reverse.lookup outer = none ↔
      ∀ newOuter, (outer, newOuter) ∉ o.seeds m.settledNames := by
    rw [List.lookup_eq_none_iff]
    constructor
    · intro h newOuter hmem
      have hne := h _ (List.mem_reverse.2 hmem)
      simp at hne
    · rintro h ⟨other, newOther⟩ hmem
      rw [bne_iff_ne]
      rintro rfl
      exact h newOther (List.mem_reverse.1 hmem)
  have hroot : (if "" = outer then some "" else none) = none ↔ outer ≠ "" := by
    rw [ite_eq_right_iff]
    constructor
    · rintro h rfl
      exact nomatch h rfl
    · intro hne heq
      exact absurd heq.symm hne
  have hgoes : o.repackageTarget? ≠ none ↔ o.repackage ≠ none := not_congr Option.map_eq_none_iff
  rw [GoesUnrecorded, options_ofModel, newPrefix?_ofModel, Option.or_eq_none_iff, hunseeded, hroot,
    hgoes]
  tauto

end Registry

/-- After a namespace has been asked for, by itself or for a type in no other, the registry shows
what was answered exactly if the namespace does not go unrecorded, and else has no record of it.
Those that go unrecorded have no seed, are not the root, and are kept or repackaged. -/
theorem answers_recorded_iff (m : Model) (o : NamingOptions) (memberSequence : Name.Sequence) :
    let start := Renaming.start m o memberSequence
    (∀ before outer after,
      let newOuter := ((start.afterAll before).registry.newPrefix outer).1
      let last := (start.afterAll (before ++ .namespacePrefix outer :: after)).registry
      (last.Shows outer newOuter ↔ ¬ start.registry.GoesUnrecorded outer) ∧
      (last.newPrefix? outer = none ↔ start.registry.GoesUnrecorded outer)) ∧
    (∀ requests oldName name, (oldName, name) ∈ start.givenTopLevelAll requests →
      let outer := Name.namespacePrefix oldName
      let last := (start.afterAll requests).registry
      ∃ newOuter k candidate, o.typeSequence.nameAt? k = some candidate ∧
        name = newOuter ++ candidate ∧
        (last.Shows outer newOuter ↔ ¬ start.registry.GoesUnrecorded outer) ∧
        (last.newPrefix? outer = none ↔ start.registry.GoesUnrecorded outer)) ∧
    ∀ outer, start.registry.GoesUnrecorded outer ↔
      outer ≠ "" ∧ (∀ newOuter, (outer, newOuter) ∉ o.seeds m.settledNames) ∧
        (o.keepsPrefix outer = true ∨ o.repackage ≠ none) := by
  intro start
  refine ⟨?_, ?_, fun outer => Registry.goesUnrecorded_ofModel m o memberSequence⟩
  · intro before outer after newOuter last
    have hdecided : last.newPrefix outer = (newOuter, last) :=
      start.newPrefix_afterAll before after outer
    have hrun : start.registry.Extends last := (start.afterAll_extends _).registry.extends
    rw [← hrun.goesUnrecorded_iff]
    exact Registry.shows_iff_of_decided hdecided
  · intro requests oldName name hgiven outer last
    obtain ⟨newOuter, k, candidate, hdecided, hentry, rfl⟩ :=
      Renaming.isTopLevel_of_mem_givenTopLevelAll hgiven
    have hsteps : Registry.Steps start.registry last := (start.afterAll_extends requests).registry
    rw [hsteps.options_eq] at hentry
    refine ⟨newOuter, k, candidate, hentry, rfl, ?_⟩
    rw [← hsteps.extends.goesUnrecorded_iff]
    exact Registry.shows_iff_of_decided hdecided

/-! ## Namespaces without a record -/

/-- A kept namespace stays, and a repackaged one moves, and the registry knows of neither. -/
theorem unrecorded_namespaces :
    (let start := Renaming.start .empty (.keeping "com") (.short true)
     let last := (start.afterAll [.topLevel "com.Widget"]).registry
     (start.registry.newPrefix "com.").1 = "com." ∧
       ("com.Widget", "com.a") ∈ start.givenTopLevelAll [.topLevel "com.Widget"] ∧
       last.newPrefix? "com." = none) ∧
    (let start := Renaming.start .empty { NamingOptions.plain with repackage := some "x" }
      (.short true)
     let last := (start.afterAll [.namespacePrefix "com."]).registry
     (start.registry.newPrefix "com.").1 = "x." ∧ last.newPrefix? "com." = none) := by
  decide +kernel

end Pseudonym
