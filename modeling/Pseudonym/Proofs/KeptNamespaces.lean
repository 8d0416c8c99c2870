import Pseudonym.Proofs.Renaming.Outside
import Pseudonym.Proofs.RetainedNamespaces
import Pseudonym.Proofs.SteadyNamespaces

/-!
# Kept namespaces stay

The retention rules are asked last: a namespace that has a new prefix on record goes there, whatever
the rules say.  So that kept namespaces stay where they are it must be known what is on record.

`KeptStay` is the invariant.  A record for a kept namespace says that it stays.  If settled types
stay in their namespaces, then it holds at the beginning, because settled types and the namespaces
around them are all that is recorded then.  It holds from then on, because a prefix is created only
for a namespace that is not kept.  What else is asked for makes no difference, and neither do
flattening and repackaging (`kept_namespaces_stay`).
-/

namespace Pseudonym

/-- Whether all settled types are in the namespaces where they were. -/
def Model.SettledTypesStay (m : Model) : Prop :=
  ∀ d ∈ m.types, d.isSettled = true →
    Name.namespacePrefix d.currentName = Name.namespacePrefix d.name

namespace NamingOptions

variable {o : NamingOptions} {name newName outer newOuter : String}

lemma eq_of_mem_seeds {m : Model} (hstays : m.SettledTypesStay)
    (h : (outer, newOuter) ∈ o.seeds m.settledNames) : newOuter = outer := by
  obtain ⟨name, newName, hsettled, hmem⟩ := mem_seeds.1 h
  obtain ⟨d, hd, hfixed, rfl, rfl⟩ := Model.mem_settledNames.1 hsettled
  exact eq_of_mem_settledPrefixes (hstays d hd hfixed) hmem

end NamingOptions

namespace Registry

variable {r r' : Registry} {outer : String}

/-! ## Records of kept namespaces -/

/-- Whether every kept namespace that has a new prefix on record is to stay where it is. -/
def KeptStay (r : Registry) : Prop :=
  ∀ ⦃outer newOuter⦄, r.newPrefix? outer = some newOuter →
    r.options.keepsPrefix outer = true → newOuter = outer

/-- Where settled types stay in their namespaces, every record says so at the beginning. -/
theorem keptStay_ofModel {m : Model} (hstays : m.SettledTypesStay) (o : NamingOptions)
    (memberSequence : Name.Sequence) : (ofModel m o memberSequence).KeptStay := by
  intro outer newOuter hrecorded _
  rw [newPrefix?_ofModel] at hrecorded
  rcases Option.or_eq_some_iff.1 hrecorded with hseed | ⟨-, hroot⟩
  · exact NamingOptions.eq_of_mem_seeds hstays (NamingOptions.mem_seeds_of_lastSeed hseed)
  · obtain ⟨rfl, hsame⟩ := Option.ite_none_right_eq_some.1 hroot
    exact (Option.some.inj hsame).symm

/-- A prefix is created for namespaces that are not kept, so the records of the others do not
change. -/
lemma KeptStay.step (h : r.KeptStay) (hstep : Step r r') : r'.KeptStay := by
  cases hstep with
  | @created other newParent creates =>
    intro outer newOuter hrecorded hkept
    rw [newPrefix?_createPrefix] at hrecorded
    by_cases hother : other = outer
    · subst hother
      exact nomatch creates.unkept.symm.trans hkept
    · rw [if_neg hother] at hrecorded
      exact h hrecorded hkept
  | ordinary => exact h
  | numbered => exact h
  | members => exact h

theorem KeptStay.steps (h : r.KeptStay) (hsteps : Steps r r') : r'.KeptStay := by
  induction hsteps with
  | refl => exact h
  | tail _ hstep ih => exact ih.step hstep

/-- A kept namespace stays, whether it has a record or not. -/
theorem KeptStay.newPrefix_eq (h : r.KeptStay) (hkept : r.options.keepsPrefix outer = true) :
    r.newPrefix outer = (outer, r) := by
  cases hrecorded : r.newPrefix? outer with
  | none => exact newPrefix_of_kept hrecorded hkept
  | some newOuter =>
    obtain rfl := h hrecorded hkept
    exact newPrefix_of_recorded hrecorded

/-- A name for a type of a kept namespace that lies in no other is the namespace and a candidate. -/
lemma KeptStay.isTopLevel (h : r.KeptStay) {oldName name : String}
    (hname : r.IsTopLevel oldName name)
    (hkept : r.options.keepsPrefix (Name.namespacePrefix oldName) = true) :
    ∃ k candidate, r.options.typeSequence.nameAt? k = some candidate ∧
      name = Name.namespacePrefix oldName ++ candidate := by
  obtain ⟨outer, k, candidate, hanswer, hentry, hname⟩ := hname
  rw [h.newPrefix_eq hkept] at hanswer
  obtain ⟨rfl, -⟩ := Prod.mk.inj hanswer
  exact ⟨k, candidate, hentry, hname⟩

end Registry

/-- If settled types stay in their namespaces, then so do all types of kept namespaces that are
named in no other.  This is so for every order of requests, for those that are asked for by name and
for the types of the model, and for whole passes. -/
theorem kept_namespaces_stay (m : Model) (hstays : m.SettledTypesStay) :
    (∀ o memberSequence requests,
      let start := Renaming.start m o memberSequence
      let last := start.afterAll requests
      (∀ outer, o.keepsPrefix outer = true →
        last.registry.newPrefix outer = (outer, last.registry)) ∧
      (∀ oldName name, (oldName, name) ∈ start.givenTopLevelAll requests →
        o.keepsPrefix (Name.namespacePrefix oldName) = true →
          ∃ k candidate, o.typeSequence.nameAt? k = some candidate ∧
            name = Name.namespacePrefix oldName ++ candidate) ∧
      ∀ i t name adaptMetadata, m.unnamed? i = some t → m.link adaptMetadata t = none →
        last.model.Bears i name → o.keepsPrefix (Name.namespacePrefix t.name) = true →
          ∃ k candidate, o.typeSequence.nameAt? k = some candidate ∧
            name = Name.namespacePrefix t.name ++ candidate) ∧
    ∀ p, ∃ s, m.rename p = .ok s ∧ ∀ i t d, m.IsNamedOutside p i t → s.model.types[i]? = some d →
      p.naming.keepsPrefix (Name.namespacePrefix t.name) = true →
        ∃ k candidate, p.naming.typeSequence.nameAt? k = some candidate ∧
          d.currentName = Name.namespacePrefix t.name ++ candidate := by
  refine ⟨?_, ?_⟩
  · intro o memberSequence requests start last
    have hsteps : Registry.Steps start.registry last.registry :=
      (start.afterAll_extends requests).registry
    have hkeptStay : last.registry.KeptStay :=
      (Registry.keptStay_ofModel hstays o memberSequence).steps hsteps
    have hoptions : last.registry.options = o := hsteps.options_eq
    have hgiven : ∀ oldName name, (oldName, name) ∈ start.givenTopLevelAll requests →
        o.keepsPrefix (Name.namespacePrefix oldName) = true →
          ∃ k candidate, o.typeSequence.nameAt? k = some candidate ∧
            name = Name.namespacePrefix oldName ++ candidate := by
      intro oldName name hname hkept
      have htop := Renaming.isTopLevel_of_mem_givenTopLevelAll hname
      rw [← hoptions] at hkept ⊢
      exact hkeptStay.isTopLevel htop hkept
    refine ⟨?_, hgiven, ?_⟩
    · intro outer hkept
      rw [← hoptions] at hkept
      exact hkeptStay.newPrefix_eq hkept
    · intro i t name adaptMetadata ht hlink hbears hkept
      have hname := Renaming.mem_givenTopLevelAll ht hlink hbears
      exact hgiven t.name name hname hkept
  · intro p
    obtain ⟨s, hs, hnames⟩ := m.rename_outside p
    refine ⟨s, hs, ?_⟩
    intro i t d houtside hd hkept
    obtain ⟨k, candidate, hentry, hname⟩ := hnames i t d houtside hd
    have hkeptStay : (m.withTypesNamed p).registry.KeptStay :=
      (Registry.keptStay_ofModel hstays p.naming p.memberSequence).steps (m.withTypesNamed_steps p)
    rw [← m.options_withTypesNamed p] at hkept
    rw [hkeptStay.newPrefix_eq hkept] at hname
    exact ⟨k, candidate, hentry, hname⟩

/-! ## A kept namespace with a settled type in it -/

/-- A model of which one type has been given a name beforehand. -/
def Model.withKnownType : Model where
  types := #[.program ((ProgramType.named "api.v1.Kept").withNewName "api.v1.Known"),
    .program (.named "api.v1.Client"), .library ⟨"com.example.Lib", none⟩]
  modules := []

/-- The options of a pass under which the namespaces that match one pattern keep their names, and
all types go to one namespace. -/
def PassOptions.keepingAside (pattern target : String) : PassOptions where
  naming := { NamingOptions.keeping pattern with repackage := some target }
  memberWords := none
  adaptMetadata := true
  overload := false

theorem kept_namespaces_stay_client :
    Model.withKnownType.SettledTypesStay ∧
      ∃ s, Model.withKnownType.rename (.keepingAside "api.**" "x") = .ok s ∧
        ∀ d, s.model.types[1]? = some d → ∃ candidate, d.currentName = "api.v1." ++ candidate := by
  have hstays : Model.withKnownType.SettledTypesStay := by
    unfold Model.SettledTypesStay
    decide +kernel
  refine ⟨hstays, ?_⟩
  obtain ⟨s, hs, hnames⟩ :=
    (kept_namespaces_stay Model.withKnownType hstays).2 (.keepingAside "api.**" "x")
  refine ⟨s, hs, ?_⟩
  intro d hd
  have houtside : Model.withKnownType.IsNamedOutside (.keepingAside "api.**" "x") 1
      (.named "api.v1.Client") :=
    ⟨by decide +kernel, .inl (by decide +kernel)⟩
  have hkept : (PassOptions.keepingAside "api.**" "x").naming.keepsPrefix
      (Name.namespacePrefix "api.v1.Client") = true := by
    decide +kernel
  obtain ⟨k, candidate, -, hname⟩ := hnames 1 (.named "api.v1.Client") d houtside hd hkept
  exact ⟨candidate, hname⟩

end Pseudonym
