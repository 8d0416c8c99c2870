import Pseudonym.Proofs.Renaming.Pass

/-!
# No two types get the same name

Names of types are compared by their folds.  Whatever is asked of a pass, and in whatever order, the
names that it gives differ from each other and from all names that the model has settled.  One
invariant is behind this: what is reserved stays reserved, and covers the settled names from the
beginning and every name from the moment it is given.
-/

namespace Pseudonym

variable {m : Model} {p : PassOptions} {o : NamingOptions} {memberSequence : Name.Sequence}
  {s : Renaming} {i j : TypeId} {t : ProgramType} {name other : String}

/-- A name that types get in the course of a pass is none that the model has settled. -/
lemma fold_ne_of_not_isReserved
    (h : (Registry.ofModel m o memberSequence).isReserved name = false) {d : KnownType}
    (hd : d ∈ m.types) (hsettled : d.isSettled = true) :
    Name.fold o.mixedCase name ≠ Name.fold o.mixedCase d.currentName := by
  intro hfold
  have hreserved := (Registry.isReserved_ofModel m o memberSequence name).2
    ⟨d, hd, hsettled, hfold.symm⟩
  rw [h] at hreserved
  exact nomatch hreserved

/-- In a later state of a pass, a type that had no name is called like no other type that has a
name for good. -/
lemma fold_ne_of_bears (h : (Renaming.start m o memberSequence).Extends s) (hne : i ≠ j)
    (ht : m.unnamed? i = some t) (hi : s.model.Bears i name) (hj : s.model.Bears j other) :
    Name.fold o.mixedCase name ≠ Name.fold o.mixedCase other := by
  cases hother : m.unnamed? j with
  | some t' =>
    have hdistinct := h.distinct hne ht hother hi hj
    rwa [Registry.fold, Registry.fold, Renaming.start, Registry.options_ofModel] at hdistinct
  | none =>
    obtain ⟨d, hd, hsettled, rfl⟩ := h.model.bears_of_settled hother hj
    exact fold_ne_of_not_isReserved (h.fresh ht hi).1 (Array.mem_of_getElem? hd) hsettled

/-- Names are unique.  The names that any series of requests gives have different folds, and none
has the fold of a settled name.  So after a pass no type that got its name in it has the fold of
another type. -/
theorem names_are_unique (m : Model) :
    (∀ (o : NamingOptions) (memberSequence : Name.Sequence) (requests : List Request),
      (((Renaming.start m o memberSequence).givenAll requests).map (Name.fold o.mixedCase)).Nodup ∧
      ∀ name ∈ (Renaming.start m o memberSequence).givenAll requests,
        ∀ d ∈ m.types, d.isSettled = true →
          Name.fold o.mixedCase name ≠ Name.fold o.mixedCase d.currentName) ∧
    ∀ p : PassOptions, ∃ s, m.rename p = .ok s ∧
      ∀ i j d d', s.model.types[i]? = some d → s.model.types[j]? = some d' → i ≠ j →
        (m.unnamed? i).isSome = true →
        Name.fold p.naming.mixedCase d.currentName ≠
          Name.fold p.naming.mixedCase d'.currentName := by
  refine ⟨fun o memberSequence requests => ⟨?_, ?_⟩, fun p => ?_⟩
  · have hnodup := (Renaming.start m o memberSequence).nodup_givenAll requests
    have hfold : (Renaming.start m o memberSequence).registry.fold = Name.fold o.mixedCase := by
      funext name
      rw [Registry.fold, Renaming.start, Registry.options_ofModel]
    rwa [hfold] at hnodup
  · intro name hname d hd hsettled
    exact fold_ne_of_not_isReserved (Renaming.givenAll_fresh _ requests hname) hd hsettled
  · obtain ⟨s, hs, hbears⟩ := m.rename_bears p
    refine ⟨s, hs, fun i j d d' hd hd' hne hunnamed => ?_⟩
    obtain ⟨t, ht⟩ := Option.isSome_iff_exists.1 hunnamed
    exact fold_ne_of_bears (m.withTypesNamed_extends p) hne ht (hbears i d hd) (hbears j d' hd')

end Pseudonym
