import Pseudonym.Proofs.Renaming.Outside
import Pseudonym.Proofs.SettledNamespaces

/-!
# Repackaging leaves the root where it is

Where types are repackaged and access is allowed, settled types settle no namespace.  If no
namespace is kept either, then every namespace that is asked for goes to the common one, except the
root.  The root has a new prefix from the beginning, which is the root again, and what has a new
prefix keeps it.

`repackaged_iff` says what this means for types.  One that lies in no other goes to the common
namespace exactly if it did not come from the root, or if the common namespace is the root itself.
The types of the root stay in the root.
-/

namespace Pseudonym

namespace Name

/-- Whether a name is a simple one: it is not empty and has no dots. -/
def IsSimple (name : String) : Prop :=
  name ≠ "" ∧ '.' ∉ name.toList

lemma isPrefix_prefixOf (namespaceName : String) : IsPrefix (prefixOf namespaceName) := by
  unfold prefixOf
  split
  · assumption
  · right
    simp

/-- A prefix other than the root has a dot, so it does not begin a name without one. -/
lemma IsPrefix.eq_empty_of_isSimple_append {outer name : String} (houter : IsPrefix outer)
    (hsimple : IsSimple (outer ++ name)) : outer = "" := by
  rcases houter with hroot | hlast
  · exact hroot
  · have hdot : '.' ∈ (outer ++ name).toList := by
      rw [String.toList_append]
      exact List.mem_append_left _ (List.mem_of_getLast? hlast)
    exact absurd hdot hsimple.2

end Name

namespace NamingOptions

variable {o : NamingOptions}

/-- If no word for type names has a dot, every candidate for one is a simple name. -/
lemma isSimple_of_nameAt? (h : o.HasPlainTypeWords) {k : Nat} {candidate : String}
    (hentry : o.typeSequence.nameAt? k = some candidate) : Name.IsSimple candidate :=
  ⟨Name.Sequence.entry_ne_empty hentry, dot_notMem_of_nameAt? h hentry⟩

lemma not_follows_of_repackage {target : String} (htarget : o.repackage = some target)
    (haccess : o.allowAccess = true) : o.follows = false := by
  simp [follows, htarget, haccess]

/-- Where the types of a namespace need not follow a settled one, nothing is settled by it. -/
lemma seeds_of_not_follows (h : o.follows = false) (settled : List (String × String)) :
    o.seeds settled = [] := by
  have hnone : ∀ name newName, o.settledPrefixes name newName = [] := by
    intro name newName
    rw [settledPrefixes, if_neg]
    rw [h]
    exact Bool.false_ne_true
  simp [seeds, hnone]

lemma keepsPrefix_of_keep_none (h : o.keep = .none) (outer : String) :
    o.keepsPrefix outer = false := by
  rw [keepsPrefix, h]
  rfl

end NamingOptions

namespace Registry

variable {m : Model} {o : NamingOptions} {memberSequence : Name.Sequence} {r : Registry}
  {outer target : String}

/-- Where settled types settle nothing, only the root has a new prefix at the beginning. -/
lemma newPrefix?_ofModel_of_not_follows (m : Model) (memberSequence : Name.Sequence)
    (h : o.follows = false) (outer : String) :
    (ofModel m o memberSequence).newPrefix? outer = if "" = outer then some "" else none := by
  rw [newPrefix?_ofModel, NamingOptions.seeds_of_not_follows h]
  rfl

/-- A prefix that is not kept goes to the common namespace, unless it has a new prefix. -/
lemma newPrefix_of_repackaged (hunknown : r.newPrefix? outer = none)
    (hunkept : r.options.keepsPrefix outer = false)
    (htarget : r.options.repackageTarget? = some target) : r.newPrefix outer = (target, r) := by
  simp [newPrefix, resolve, hunknown, hunkept, htarget]

/-- In the course of a pass that repackages with access allowed, a namespace that is not kept goes
to the common one, unless it is the root, which stays. -/
theorem newPrefix_repackaged (hsteps : Steps (ofModel m o memberSequence) r)
    (hfollows : o.follows = false) (hunkept : o.keepsPrefix outer = false)
    (htarget : o.repackageTarget? = some target) :
    (r.newPrefix outer).1 = if outer = "" then "" else target := by
  have hextends := hsteps.extends
  have hoptions : r.options = o := hsteps.options_eq
  have hstart := newPrefix?_ofModel_of_not_follows m memberSequence hfollows outer
  by_cases hroot : outer = ""
  · subst hroot
    have hrecorded := hextends.recorded hstart
    rw [newPrefix_of_recorded hrecorded, if_pos rfl]
  · rw [if_neg (Ne.symm hroot)] at hstart
    have hgoes : (ofModel m o memberSequence).options.repackageTarget? ≠ none := by
      rw [options_ofModel, htarget]
      exact Option.some_ne_none target
    have hunknown := hextends.newPrefix?_eq_none hstart (.inr hgoes)
    rw [newPrefix_of_repackaged hunknown (hoptions ▸ hunkept) (hoptions ▸ htarget), if_neg hroot]

end Registry

/-- Where types are repackaged with access allowed, no namespace is kept and no word for types has a
dot, a type that is named in no other goes to the common namespace exactly if it comes from another
namespace than the root, or if the common namespace is the root.  The types of the root stay
there. -/
theorem repackaged_iff (m : Model) (p : PassOptions) {target : String}
    (htarget : p.naming.repackage = some target) (haccess : p.naming.allowAccess = true)
    (hkeep : p.naming.keep = .none) (hwords : p.naming.HasPlainTypeWords) :
    ∃ s, m.rename p = .ok s ∧ ∀ i t d, m.IsNamedOutside p i t → s.model.types[i]? = some d →
      ((∃ name, Name.IsSimple name ∧ d.currentName = Name.prefixOf target ++ name) ↔
        Name.namespacePrefix t.name ≠ "" ∨ Name.prefixOf target = "") ∧
      (Name.namespacePrefix t.name = "" → Name.IsSimple d.currentName) := by
  obtain ⟨s, hs, hnames⟩ := m.rename_outside p
  refine ⟨s, hs, ?_⟩
  intro i t d houtside hd
  obtain ⟨k, candidate, hentry, hname⟩ := hnames i t d houtside hd
  have hsimple := NamingOptions.isSimple_of_nameAt? hwords hentry
  have hgoes : p.naming.repackageTarget? = some (Name.prefixOf target) := by
    rw [NamingOptions.repackageTarget?, htarget]
    rfl
  have hanswer := Registry.newPrefix_repackaged (m.withTypesNamed_steps p)
    (NamingOptions.not_follows_of_repackage htarget haccess)
    (NamingOptions.keepsPrefix_of_keep_none hkeep (Name.namespacePrefix t.name)) hgoes
  rw [hanswer] at hname
  by_cases hroot : Name.namespacePrefix t.name = ""
  · -- The name is the candidate alone.
    rw [if_pos hroot, String.empty_append] at hname
    rw [hname]
    refine ⟨⟨?_, ?_⟩, fun _ => hsimple⟩
    · rintro ⟨name, -, hcandidate⟩
      right
      have hwhole : Name.IsSimple (Name.prefixOf target ++ name) := by
        rw [← hcandidate]
        exact hsimple
      exact (Name.isPrefix_prefixOf target).eq_empty_of_isSimple_append hwhole
    · rintro (hother | htargetRoot)
      · exact absurd hroot hother
      · refine ⟨candidate, hsimple, ?_⟩
        rw [htargetRoot, String.empty_append]
  · rw [if_neg hroot] at hname
    refine ⟨⟨fun _ => .inl hroot, fun _ => ⟨candidate, hsimple, hname⟩⟩, ?_⟩
    intro hroot'
    exact absurd hroot' hroot

/-! ## A type of the root -/

/-- The options under which types are repackaged into a namespace, with access allowed. -/
def PassOptions.repackaging (target : String) : PassOptions where
  naming := { NamingOptions.plain with repackage := some target, allowAccess := true }
  memberWords := none
  adaptMetadata := true
  overload := false

lemma NamingOptions.hasPlainTypeWords_repackaging (target : String) :
    (PassOptions.repackaging target).naming.HasPlainTypeWords :=
  fun _ h => nomatch h

/-- A model with one type in the root and one elsewhere. -/
def Model.withRootType : Model where
  types := #[.program (.named "Main"), .program (.named "com.Widget")]
  modules := []

theorem repackaged_iff_widget :
    ∃ s, Model.withRootType.rename (.repackaging "x") = .ok s ∧
      ∀ d, s.model.types[1]? = some d →
        ∃ name, Name.IsSimple name ∧ d.currentName = Name.prefixOf "x" ++ name := by
  obtain ⟨s, hs, hnames⟩ := repackaged_iff Model.withRootType (.repackaging "x") rfl rfl rfl
    (NamingOptions.hasPlainTypeWords_repackaging "x")
  refine ⟨s, hs, fun d hd => ?_⟩
  have houtside : Model.withRootType.IsNamedOutside (.repackaging "x") 1 (.named "com.Widget") :=
    ⟨by decide +kernel, .inl (by decide +kernel)⟩
  have hother : Name.namespacePrefix "com.Widget" ≠ "" := by decide +kernel
  exact (hnames 1 (.named "com.Widget") d houtside hd).1.2 (.inl hother)

/-- The type of the root is not moved to the common namespace. -/
theorem root_type_not_repackaged :
    (PassOptions.repackaging "x").naming.repackage = some "x" ∧
      (PassOptions.repackaging "x").naming.allowAccess = true ∧
      (PassOptions.repackaging "x").naming.keep = .none ∧
      (PassOptions.repackaging "x").naming.HasPlainTypeWords ∧
      Model.withRootType.unnamed? 0 = some (.named "Main") ∧
      Model.withRootType.link true (.named "Main") = none ∧
      ((Model.withRootType.rename (.repackaging "x")).toOption.bind fun s =>
        s.model.types[0]?.map KnownType.currentName) = some "a" ∧
      ∀ name, "a" ≠ Name.prefixOf "x" ++ name := by
  refine ⟨rfl, rfl, rfl, NamingOptions.hasPlainTypeWords_repackaging "x", by decide +kernel,
    by decide +kernel, by decide +kernel, ?_⟩
  intro name h
  have hsimple : Name.IsSimple (Name.prefixOf "x" ++ name) := by
    rw [← h]
    exact ⟨by decide +kernel, by decide +kernel⟩
  have hroot := (Name.isPrefix_prefixOf "x").eq_empty_of_isSimple_append hsimple
  revert hroot
  decide +kernel

end Pseudonym
