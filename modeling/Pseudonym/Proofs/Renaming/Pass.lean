import Pseudonym.Proofs.Naming.Seeding
import Pseudonym.Proofs.Renaming.Requests
import Pseudonym.Renaming.Pass

/-!
# The whole pass

Renaming a program is a series of requests, one for each of its types in order, followed by the
members and the metadata.  Nothing of this is ever refused: every number that is asked for is that
of a type, and every scope is opened while no other is open.

Members and metadata leave the types alone.  Which types there are and how they are called is their
`label`, and the two later phases keep all labels.  So all that is said about names in series of
requests holds of the outcome of a pass (`rename_eq`).
-/

namespace Pseudonym

/-! ## Labels -/

/-- Whether a type belongs to a library, and how it is called. -/
def KnownType.label (d : KnownType) : Bool × Named :=
  (d.isLibrary, ⟨d.name, d.newName⟩)

/-- The labels of all types. -/
def Model.labels (m : Model) : Array (Bool × Named) :=
  m.types.map KnownType.label

namespace Model

variable {m m' : Model} {id : TypeId} {t t' : ProgramType} {name : String}

lemma labels_replace (ht : m.types[id]? = some (.program t)) (hname : t'.name = t.name)
    (hnew : t'.newName = t.newName) : (m.replace id t').labels = m.labels := by
  refine map_replace ht ?_
  simp [KnownType.label, KnownType.isLibrary, KnownType.name, KnownType.newName, hname, hnew]

lemma size_of_labels (h : m'.labels = m.labels) : m'.size = m.size := by
  have hsize := congrArg Array.size h
  rwa [labels, labels, Array.size_map, Array.size_map] at hsize

/-- The name that a type bears can be read off its label. -/
lemma bears_iff_label : m.Bears id name ↔ ∃ library named, m.labels[id]? = some (library, named) ∧
    (library || named.newName.isSome) = true ∧ named.currentName = name := by
  rw [labels, Array.getElem?_map]
  constructor
  · rintro ⟨d, hd, hsettled, rfl⟩
    exact ⟨d.isLibrary, ⟨d.name, d.newName⟩, by rw [hd]; rfl, hsettled, rfl⟩
  · rintro ⟨library, named, hlabel, hsettled, rfl⟩
    obtain ⟨d, hd, hpair⟩ := Option.map_eq_some_iff.1 hlabel
    obtain ⟨rfl, rfl⟩ := Prod.mk.inj hpair
    exact ⟨d, hd, hsettled, rfl⟩

lemma bears_congr (h : m'.labels = m.labels) : m'.Bears id name ↔ m.Bears id name := by
  rw [bears_iff_label, bears_iff_label, h]

lemma lt_size_of_mem_programIds (h : id ∈ m.programIds) : id < m.size :=
  List.mem_range.1 (List.mem_of_mem_filter h)

end Model

namespace Registry

/-! ## Members -/

lemma currentScope_nameMembers (overload : Bool) (r : Registry) (settled members : List Member) :
    (r.nameMembers overload settled members).2.currentScope = r.currentScope := by
  induction members generalizing r settled with
  | nil => rfl
  | cons m rest ih =>
    unfold nameMembers
    split
    · exact ih r settled
    · exact ih _ _

/-! ## Metadata -/

variable {r : Registry} {scope : Scope}

lemma enterScope_closed (scope : Scope) (h : r.currentScope = none) :
    ∃ r', r.enterScope scope = .ok r' ∧ r'.currentScope = some scope := by
  rw [enterScope, h]
  exact ⟨_, rfl, rfl⟩

lemma nextInScope_open (h : r.currentScope = some scope) :
    ∃ name r', r.nextInScope scope = .ok (name, r') ∧ r'.currentScope = some scope := by
  rw [nextInScope, if_pos h]
  exact ⟨_, _, rfl, h⟩

lemma leaveScope_open (h : r.currentScope = some scope) :
    ∃ r', r.leaveScope scope = .ok r' ∧ r'.currentScope = none := by
  rw [leaveScope, if_pos h]
  exact ⟨_, rfl, rfl⟩

/-- In the scope that is open, everything can be named. -/
lemma nameEach_open (items : List Named) (h : r.currentScope = some scope) :
    ∃ named r', r.nameEach scope items = .ok (named, r') ∧ r'.currentScope = some scope := by
  induction items generalizing r with
  | nil => exact ⟨[], r, rfl, h⟩
  | cons item rest ih =>
    obtain ⟨name, r₁, hnext, hscope⟩ := nextInScope_open h
    obtain ⟨named, r₂, hrest, hscope⟩ := ih hscope
    refine ⟨{ item with newName := some name } :: named, r₂, ?_, hscope⟩
    simp only [nameEach, bind, Except.bind, hnext, hrest]
    rfl

/-- While no scope is open, a list can be named in a scope of its own. -/
lemma nameInScope_closed (scope : Scope) (items : List Named) (h : r.currentScope = none) :
    ∃ named r', r.nameInScope scope items = .ok (named, r') ∧ r'.currentScope = none := by
  obtain ⟨r₁, henter, hscope⟩ := enterScope_closed scope h
  obtain ⟨named, r₂, hnamed, hscope⟩ := nameEach_open items hscope
  obtain ⟨r₃, hleave, hscope⟩ := leaveScope_open hscope
  refine ⟨named, r₃, ?_, hscope⟩
  simp only [nameInScope, bind, Except.bind, henter, hnamed, hleave]
  rfl

lemma nameDeclarations_closed (d : Declarations) (h : r.currentScope = none) :
    ∃ d' r', r.nameDeclarations d = .ok (d', r') ∧ r'.currentScope = none := by
  obtain ⟨typeAliases, r₁, haliases, hscope⟩ := nameInScope_closed .typeAlias d.typeAliases h
  obtain ⟨properties, r₂, hproperties, hscope⟩ := nameInScope_closed .property d.properties hscope
  refine ⟨⟨typeAliases, properties⟩, r₂, ?_, hscope⟩
  simp only [nameDeclarations, nameTypeAliases, nameProperties, bind, Except.bind, pure,
    Except.pure, haliases, hproperties]

end Registry

namespace Renaming

variable {s s' : Renaming} {id : TypeId} {adaptMetadata overload : Bool}

/-! ## Phases -/

/-- If every step goes through and keeps an invariant, so does the fold over all steps. -/
lemma foldlM_of_forall {f : Renaming → TypeId → Except Misuse Renaming} {P : Renaming → Prop}
    {ids : List TypeId} (hstep : ∀ s, P s → ∀ id ∈ ids, ∃ s', f s id = .ok s' ∧ P s')
    (hs : P s) : ∃ s', ids.foldlM f s = .ok s' ∧ P s' := by
  induction ids generalizing s with
  | nil => exact ⟨s, rfl, hs⟩
  | cons id rest ih =>
    obtain ⟨s₁, hs₁, hP⟩ := hstep s hs id List.mem_cons_self
    obtain ⟨s', hs', hP'⟩ := ih (fun s hs id hid => hstep s hs id (List.mem_cons_of_mem _ hid)) hP
    refine ⟨s', ?_, hP'⟩
    rw [List.foldlM_cons, hs₁]
    exact hs'

/-- Whether a state differs from another in nothing that concerns the names of types, and has no
scope open if the other has none. -/
structure KeepsTypes (s s' : Renaming) : Prop where
  labels : s'.model.labels = s.model.labels
  scope : s.registry.currentScope = none → s'.registry.currentScope = none

lemma KeepsTypes.trans {s'' : Renaming} (h : s.KeepsTypes s') (h' : s'.KeepsTypes s'') :
    s.KeepsTypes s'' :=
  ⟨h'.labels.trans h.labels, fun hs => h'.scope (h.scope hs)⟩

/-- Nothing that concerns the name of a type is changed with its members or its metadata. -/
lemma KeepsTypes.replace {t t' : ProgramType} {registry : Registry}
    (ht : s.model.types[id]? = some (.program t)) (hname : t'.name = t.name)
    (hnew : t'.newName = t.newName)
    (hscope : s.registry.currentScope = none → registry.currentScope = none) :
    s.KeepsTypes ⟨registry, s.model.replace id t'⟩ :=
  ⟨Model.labels_replace ht hname hnew, hscope⟩

lemma renameMembersOf_keepsTypes (s : Renaming) (overload : Bool) (hid : id < s.model.size) :
    ∃ s', s.renameMembersOf overload id = .ok s' ∧ s.KeepsTypes s' := by
  obtain ⟨d, hd⟩ : ∃ d, s.model.types[id]? = some d := ⟨_, Array.getElem?_eq_getElem hid⟩
  have hget : s.model.get id = .ok d := by
    rw [Model.get, hd]
  cases d with
  | library named =>
    refine ⟨s, ?_, rfl, fun h => h⟩
    simp only [renameMembersOf, bind, Except.bind, hget]
    rfl
  | program t =>
    have hkeeps : s.KeepsTypes ⟨(s.registry.renameMembers overload t).2,
        s.model.replace id (s.registry.renameMembers overload t).1⟩ :=
      .replace hd rfl rfl fun h => (Registry.currentScope_nameMembers overload _ _ _).trans h
    refine ⟨_, ?_, hkeeps⟩
    simp only [renameMembersOf, bind, Except.bind, hget]
    rfl

lemma renameDeclarationsOf_keepsTypes (s : Renaming) (hid : id < s.model.size)
    (hscope : s.registry.currentScope = none) :
    ∃ s', s.renameDeclarationsOf Registry.nameDeclarations id = .ok s' ∧ s.KeepsTypes s' := by
  obtain ⟨d, hd⟩ : ∃ d, s.model.types[id]? = some d := ⟨_, Array.getElem?_eq_getElem hid⟩
  have hget : s.model.get id = .ok d := by
    rw [Model.get, hd]
  cases d with
  | library named =>
    refine ⟨s, ?_, rfl, fun h => h⟩
    simp only [renameDeclarationsOf, bind, Except.bind, hget]
    rfl
  | program t =>
    cases hlists : t.declarations? with
    | none =>
      refine ⟨s, ?_, rfl, fun h => h⟩
      simp only [renameDeclarationsOf, bind, Except.bind, hget, hlists]
      rfl
    | some declarations =>
      obtain ⟨named, r', hnamed, hscope'⟩ := Registry.nameDeclarations_closed declarations hscope
      have hkeeps : s.KeepsTypes ⟨r', s.model.replace id (t.withDeclarations named)⟩ :=
        .replace hd rfl rfl fun _ => hscope'
      refine ⟨_, ?_, hkeeps⟩
      simp only [renameDeclarationsOf, bind, Except.bind, hget, hlists, hnamed]
      rfl

theorem renameMembers_keepsTypes (s : Renaming) (overload : Bool) :
    ∃ s', s.renameMembers overload = .ok s' ∧ s.KeepsTypes s' := by
  refine foldlM_of_forall (P := s.KeepsTypes) (fun s₁ h id hid => ?_) ⟨rfl, fun h => h⟩
  have hlt := Model.lt_size_of_mem_programIds hid
  rw [← Model.size_of_labels h.labels] at hlt
  obtain ⟨s₂, hs₂, h'⟩ := s₁.renameMembersOf_keepsTypes overload hlt
  exact ⟨s₂, hs₂, h.trans h'⟩

theorem renameMetadata_keepsTypes (hscope : s.registry.currentScope = none) :
    ∃ s', s.renameMetadata = .ok s' ∧ s.KeepsTypes s' := by
  obtain ⟨modules, registry, hmodules, hclosed⟩ :=
    Registry.nameInScope_closed .module s.model.modules hscope
  set s₀ : Renaming := ⟨registry, { s.model with modules }⟩ with hs₀
  have hrenamed : s.renameModules = .ok s₀ := by
    simp only [renameModules, bind, Except.bind, hmodules]
    rfl
  have hstart : s.KeepsTypes s₀ := ⟨rfl, fun _ => hclosed⟩
  have hfold : ∃ s', s₀.model.programIds.foldlM
      (renameDeclarationsOf · Registry.nameDeclarations) s₀ = .ok s' ∧ s.KeepsTypes s' := by
    refine foldlM_of_forall (fun s₁ h id hid => ?_) hstart
    have hlt := Model.lt_size_of_mem_programIds hid
    rw [Model.size_of_labels hstart.labels, ← Model.size_of_labels h.labels] at hlt
    obtain ⟨s₂, hs₂, h'⟩ := s₁.renameDeclarationsOf_keepsTypes hlt (h.scope hscope)
    exact ⟨s₂, hs₂, h.trans h'⟩
  obtain ⟨s', hs', hkeeps⟩ := hfold
  refine ⟨s', ?_, hkeeps⟩
  simp only [renameMetadata, bind, Except.bind, hrenamed]
  exact hs'

/-- Naming all types of a program is asking for each of them in order. -/
lemma renameTypes_eq (s : Renaming) (adaptMetadata : Bool) :
    s.renameTypes adaptMetadata =
      .ok (s.afterAll (s.model.programIds.map (.rename adaptMetadata))) := by
  have hfold : ∀ ids : List TypeId, ∀ s : Renaming, (∀ id ∈ ids, id < s.model.size) →
      ids.foldlM (renameType · adaptMetadata) s =
        .ok (s.afterAll (ids.map (.rename adaptMetadata))) := by
    intro ids
    induction ids with
    | nil => exact fun s _ => rfl
    | cons id rest ih =>
      intro s hids
      obtain ⟨s₁, stages, hs₁, hnames, -⟩ :=
        s.renameType_names adaptMetadata (hids id List.mem_cons_self)
      have hafter : s.after (.rename adaptMetadata id) = s₁ := after_of_ok hs₁
      rw [List.foldlM_cons, hs₁, List.map_cons, afterAll_cons, hafter]
      refine ih s₁ fun id hid => ?_
      rw [hnames.grows.model.size]
      exact hids id (List.mem_cons_of_mem _ hid)
  exact hfold _ s fun id hid => Model.lt_size_of_mem_programIds hid

end Renaming

/-! ## The outcome of a pass -/

/-- The state of a pass in which all types of the program have been named. -/
def Model.withTypesNamed (m : Model) (p : PassOptions) : Renaming :=
  (Renaming.start m p.naming p.memberSequence).afterAll
    (m.programIds.map (.rename p.adaptMetadata))

lemma Model.renameTypes_start (m : Model) (p : PassOptions) :
    (Renaming.start m p.naming p.memberSequence).renameTypes p.adaptMetadata =
      .ok (m.withTypesNamed p) :=
  Renaming.renameTypes_eq _ _

/-- What is left of a pass when all types have been named. -/
lemma Model.rename_eq_bind (m : Model) (p : PassOptions) :
    m.rename p = (m.withTypesNamed p).renameMembers p.overload >>= fun s =>
      if p.adaptMetadata then s.renameMetadata else .ok s := by
  show (Renaming.start m p.naming p.memberSequence).renameTypes p.adaptMetadata >>= _ = _
  rw [renameTypes_start]
  rfl

lemma Model.withTypesNamed_extends (m : Model) (p : PassOptions) :
    (Renaming.start m p.naming p.memberSequence).Extends (m.withTypesNamed p) :=
  Renaming.afterAll_extends _ _

lemma Model.currentScope_withTypesNamed (m : Model) (p : PassOptions) :
    (m.withTypesNamed p).registry.currentScope = none := by
  have hscope : ∀ ids : List TypeId, ∀ s : Renaming,
      (s.afterAll (ids.map (.rename p.adaptMetadata))).registry.currentScope =
        s.registry.currentScope := by
    intro ids
    induction ids with
    | nil => exact fun s => rfl
    | cons id rest ih => exact fun s => (ih _).trans (s.currentScope_after_rename _ id)
  exact (hscope _ _).trans (Registry.currentScope_ofModel m p.naming p.memberSequence)

/-- A pass is never refused.  What follows the naming of the types leaves their names alone, and no
scope is left open. -/
theorem Model.rename_keepsTypes (m : Model) (p : PassOptions) :
    ∃ s, m.rename p = .ok s ∧ (m.withTypesNamed p).KeepsTypes s ∧
      s.registry.currentScope = none := by
  have hclosed := m.currentScope_withTypesNamed p
  obtain ⟨s₁, hs₁, hkeeps⟩ := (m.withTypesNamed p).renameMembers_keepsTypes p.overload
  obtain ⟨s₂, hs₂, hkeeps'⟩ := Renaming.renameMetadata_keepsTypes (hkeeps.scope hclosed)
  simp only [m.rename_eq_bind, bind, Except.bind, hs₁, hs₂]
  split
  · exact ⟨s₂, rfl, hkeeps.trans hkeeps', (hkeeps.trans hkeeps').scope hclosed⟩
  · exact ⟨s₁, rfl, hkeeps, hkeeps.scope hclosed⟩

/-- A pass is never refused, and types are called in the end as they were when all of them had been
named. -/
theorem Model.rename_eq (m : Model) (p : PassOptions) :
    ∃ s, m.rename p = .ok s ∧ s.model.labels = (m.withTypesNamed p).model.labels := by
  obtain ⟨s, hs, hkeeps, -⟩ := m.rename_keepsTypes p
  exact ⟨s, hs, hkeeps.labels⟩

/-- When all types have been named, each of them bears a name for good. -/
theorem Model.withTypesNamed_bears (m : Model) (p : PassOptions) {id : TypeId}
    (hid : id < m.size) : ∃ name, (m.withTypesNamed p).model.Bears id name := by
  cases hunnamed : m.unnamed? id with
  | none =>
    obtain ⟨name, hbears⟩ := exists_bears (Array.getElem?_eq_getElem hid) hunnamed
    exact ⟨name, hbears.mono (m.withTypesNamed_extends p).model⟩
  | some t =>
    refine Renaming.afterAll_bears (List.mem_map_of_mem (List.mem_filter.2 ⟨?_, ?_⟩)) hid
    · exact List.mem_range.2 hid
    · rw [(unnamed?_eq_some_iff.1 hunnamed).1]
      rfl

/-- After a pass every type is called by the name that it had got, or had before. -/
theorem Model.rename_bears (m : Model) (p : PassOptions) :
    ∃ s, m.rename p = .ok s ∧ ∀ id d, s.model.types[id]? = some d →
      (m.withTypesNamed p).model.Bears id d.currentName := by
  obtain ⟨s, hs, hlabels⟩ := m.rename_eq p
  refine ⟨s, hs, fun id d hd => ?_⟩
  have hid : id < s.model.size := (Array.getElem?_eq_some_iff.1 hd).1
  rw [size_of_labels hlabels, (m.withTypesNamed_extends p).model.size] at hid
  obtain ⟨name, hname⟩ := m.withTypesNamed_bears p hid
  obtain ⟨d', hd', -, hcurrent⟩ := (bears_congr hlabels).2 hname
  rw [hd] at hd'
  rwa [Option.some.inj hd', hcurrent]

end Pseudonym
