import Pseudonym.Proofs.Renaming.Phases

/-!
# What a pass comes to

The names of members and of metadata do not depend on what has been named before, since the member
sequence restarts with every member and with every list.  So the later phases of a pass change each
type of the program by itself, and what becomes of it depends on the type and the options alone
(`ProgramType.finished`).  The outcome of a whole pass is what the naming of the types has left,
with every type finished (`rename_finished`).

Finishing changes new names and nothing else, and a type that has been finished once stays the same
under it.
-/

namespace Pseudonym

/-! ## Lists of things -/

/-- The thing with a new name. -/
def Named.withNewName (n : Named) (newName : String) : Named :=
  { n with newName := some newName }

/-- Things with the names of a sequence from its beginning, in order. -/
def Named.inOrder (s : Name.Sequence) (items : List Named) : List Named :=
  List.zipWith Named.withNewName items (s.take items.length 0).1

/-- Whether a thing has become another by getting a new name. -/
structure Named.Renamed (n n' : Named) : Prop where
  name : n'.name = n.name
  named : n'.newName.isSome = true

namespace Name.Sequence

lemma length_take (s : Sequence) (count start : Nat) : (s.take count start).1.length = count := by
  induction count generalizing start with
  | zero => rfl
  | succ count ih => exact congrArg Nat.succ (ih _)

end Name.Sequence

namespace Named

variable {s : Name.Sequence} {items : List Named}

lemma forall₂_zipWith_withNewName {names : List String} (h : names.length = items.length) :
    List.Forall₂ Renamed items (List.zipWith withNewName items names) := by
  induction items generalizing names with
  | nil => simp
  | cons item rest ih =>
    cases names with
    | nil => simp at h
    | cons name names => exact .cons ⟨rfl, rfl⟩ (ih (by simpa using h))

lemma inOrder_renamed (s : Name.Sequence) (items : List Named) :
    List.Forall₂ Renamed items (inOrder s items) :=
  forall₂_zipWith_withNewName (s.length_take _ _)

/-- Whatever new names things had, they do not matter for those that they get. -/
lemma zipWith_withNewName_zipWith (items : List Named) (names : List String) :
    List.zipWith withNewName (List.zipWith withNewName items names) names =
      List.zipWith withNewName items names := by
  induction items generalizing names with
  | nil => rfl
  | cons item rest ih =>
    cases names with
    | nil => rfl
    | cons name names => exact congrArg (_ :: ·) (ih names)

lemma inOrder_inOrder (s : Name.Sequence) (items : List Named) :
    inOrder s (inOrder s items) = inOrder s items := by
  have hlength : (inOrder s items).length = items.length := by
    simp [inOrder, s.length_take]
  rw [inOrder, hlength]
  exact zipWith_withNewName_zipWith _ _

end Named

/-- Whether a member has become another by getting a new name, if it did not have to keep the one
that it had. -/
structure Member.Renamed (x x' : Member) : Prop where
  kind : x'.kind = x.kind
  name : x'.name = x.name
  descriptor : x'.descriptor = x.descriptor
  keep : x'.keep = x.keep
  settled : x.isSettled = true → x' = x
  named : x.isSettled = false → x'.newName.isSome = true

/-- After that a member keeps the name it has. -/
lemma Member.Renamed.isSettled {x x' : Member} (h : x.Renamed x') : x'.isSettled = true := by
  by_cases hx : x.isSettled = true
  · rw [h.settled hx, hx]
  · have hnamed := h.named (Bool.eq_false_iff.2 hx)
    simp [Member.isSettled, hnamed]

lemma Member.forall_isSettled {members members' : List Member}
    (h : List.Forall₂ Member.Renamed members members') : ∀ x ∈ members', x.isSettled = true := by
  induction h with
  | nil => exact fun x hx => absurd hx List.not_mem_nil
  | cons hx _ ih => exact List.forall_mem_cons.2 ⟨hx.isSettled, ih⟩

/-! ## Declarations and members -/

/-- Declarations with their names in order. -/
def Declarations.inOrder (s : Name.Sequence) (d : Declarations) : Declarations :=
  ⟨Named.inOrder s d.typeAliases, Named.inOrder s d.properties⟩

lemma Declarations.inOrder_inOrder (s : Name.Sequence) (d : Declarations) :
    inOrder s (inOrder s d) = inOrder s d := by
  simp only [inOrder, Named.inOrder_inOrder]

namespace Metadata

@[simp] lemma declarations?_withDeclarations (m : Metadata) (d : Declarations) :
    (m.withDeclarations d).declarations? = m.declarations?.map fun _ => d := by
  cases m <;> rfl

@[simp] lemma withDeclarations_withDeclarations (m : Metadata) (d d' : Declarations) :
    (m.withDeclarations d).withDeclarations d' = m.withDeclarations d' := by
  cases m <;> rfl

end Metadata

namespace ProgramType

/-- The type with its declarations changed, if its metadata lists any. -/
def changeDeclarations (t : ProgramType) (change : Declarations → Declarations) : ProgramType :=
  match t.declarations? with
  | none => t
  | some d => t.withDeclarations (change d)

/-- The type with the names of its declarations in order. -/
def withDeclarationsNamed (t : ProgramType) (s : Name.Sequence) : ProgramType :=
  t.changeDeclarations (·.inOrder s)

/-- The type with names for those of its members that are not settled. -/
def withMembersNamed (t : ProgramType) (s : Name.Sequence) (overload : Bool) : ProgramType :=
  ((Registry.blank .plain s).renameMembers overload t).1

/-- What becomes of a type after it has got its own name. -/
def finished (p : PassOptions) (t : ProgramType) : ProgramType :=
  let t := t.withMembersNamed p.memberSequence p.overload
  if p.adaptMetadata then t.withDeclarationsNamed p.memberSequence else t

end ProgramType

namespace KnownType

/-- A change of types of the program, which leaves library types alone. -/
def mapProgram (change : ProgramType → ProgramType) : KnownType → KnownType
  | .program t => .program (change t)
  | .library n => .library n

@[simp] lemma mapProgram_program (change : ProgramType → ProgramType) (t : ProgramType) :
    mapProgram change (.program t) = .program (change t) := rfl

@[simp] lemma mapProgram_library (change : ProgramType → ProgramType) (n : Named) :
    mapProgram change (.library n) = .library n := rfl

lemma name_mapProgram {change : ProgramType → ProgramType} (h : ∀ t, (change t).name = t.name)
    (d : KnownType) : (d.mapProgram change).name = d.name := by
  cases d with
  | program t => exact h t
  | library n => rfl

lemma isSettled_mapProgram {change : ProgramType → ProgramType}
    (h : ∀ t, (change t).newName = t.newName) (d : KnownType) :
    (d.mapProgram change).isSettled = d.isSettled := by
  cases d with
  | program t => simp [isSettled, isLibrary, newName, h]
  | library n => rfl

end KnownType

/-! ## Names come from the member sequence alone -/

namespace Registry

variable {r r' : Registry} {scope : Scope}

lemma Step.memberSequence (h : Step r r') : r'.memberSequence = r.memberSequence := by
  cases h <;> rfl

lemma Steps.memberSequence (h : Steps r r') : r'.memberSequence = r.memberSequence := by
  induction h with
  | refl => rfl
  | tail _ step ih => exact step.memberSequence.trans ih

lemma nameMembers_fst_congr (h : r'.memberSequence = r.memberSequence) (overload : Bool)
    (settled members : List Member) :
    (r'.nameMembers overload settled members).1 = (r.nameMembers overload settled members).1 := by
  induction members generalizing r r' settled with
  | nil => rfl
  | cons m rest ih =>
    unfold nameMembers
    have hname : ∀ used, (r'.nameMember used).1 = (r.nameMember used).1 := by
      intro used
      rw [nameMember, nameMember, h]
    split
    · exact congrArg (m :: ·) (ih h settled)
    · dsimp only
      rw [hname]
      have hnext : (r'.nameMember (m.namesAround overload settled)).2.memberSequence =
          (r.nameMember (m.namesAround overload settled)).2.memberSequence := h
      exact congrArg (_ :: ·) (ih hnext _)

lemma nameMembers_snd (r : Registry) (overload : Bool) (settled members : List Member) :
    ∃ position,
      (r.nameMembers overload settled members).2 = r.atMember position r.currentScope := by
  induction members generalizing r settled with
  | nil => exact ⟨r.memberPosition, rfl⟩
  | cons m rest ih =>
    unfold nameMembers
    split
    · exact ih r settled
    · obtain ⟨position, hposition⟩ := ih (r.nameMember (m.namesAround overload settled)).2 _
      exact ⟨position, hposition⟩

/-- Members get the names that they would get at the beginning. -/
lemma renameMembers_fst (r : Registry) (overload : Bool) (t : ProgramType) :
    (r.renameMembers overload t).1 = t.withMembersNamed r.memberSequence overload := by
  have hsequence : r.memberSequence = (blank .plain r.memberSequence).memberSequence := rfl
  have hmembers := nameMembers_fst_congr hsequence overload (t.members.filter (·.isSettled))
    t.members
  rw [ProgramType.withMembersNamed, renameMembers, renameMembers]
  dsimp only
  rw [hmembers]

lemma nameEach_eq (items : List Named) (h : r.currentScope = some scope) :
    r.nameEach scope items =
      .ok (List.zipWith Named.withNewName items
          (r.memberSequence.take items.length r.memberPosition).1,
        r.atMember (r.memberSequence.take items.length r.memberPosition).2 (some scope)) := by
  induction items generalizing r with
  | nil =>
    rw [← h]
    rfl
  | cons item rest ih =>
    have hnext : r.nextInScope scope = .ok ((r.memberSequence.next r.memberPosition).name,
        r.atMember (r.memberSequence.next r.memberPosition).next (some scope)) := by
      rw [nextInScope, if_pos h, ← h]
      rfl
    simp only [nameEach, bind, Except.bind, hnext, ih (r := r.atMember _ (some scope)) rfl]
    rfl

/-- A list that is named in a scope of its own gets the names of the sequence in order. -/
theorem nameInScope_eq (scope : Scope) (items : List Named) (h : r.currentScope = none) :
    ∃ position, r.nameInScope scope items =
      .ok (Named.inOrder r.memberSequence items, r.atMember position none) := by
  have henter : r.enterScope scope = .ok (r.atMember 0 (some scope)) := by
    rw [enterScope, h]
    rfl
  have hleave : ∀ position, (r.atMember position (some scope)).leaveScope scope =
      .ok (r.atMember position none) := by
    intro position
    have hopen : (r.atMember position (some scope)).currentScope = some scope := rfl
    rw [leaveScope, if_pos hopen]
    rfl
  refine ⟨(r.memberSequence.take items.length 0).2, ?_⟩
  simp only [nameInScope, bind, Except.bind, henter, nameEach_eq (r := r.atMember 0 _) items rfl]
  exact congrArg (Except.map _) (hleave _)

theorem nameDeclarations_eq (d : Declarations) (h : r.currentScope = none) :
    ∃ position, r.nameDeclarations d =
      .ok (d.inOrder r.memberSequence, r.atMember position none) := by
  obtain ⟨position, haliases⟩ := nameInScope_eq .typeAlias d.typeAliases h
  obtain ⟨position', hproperties⟩ :=
    nameInScope_eq (r := r.atMember position none) .property d.properties rfl
  refine ⟨position', ?_⟩
  simp only [nameDeclarations, nameTypeAliases, nameProperties, bind, Except.bind, pure,
    Except.pure, haliases, hproperties]
  rfl

end Registry

/-! ## What finishing changes -/

namespace Registry

/-- Every member gets a name or stays as it is. -/
theorem nameMembers_renamed (r : Registry) (overload : Bool) (settled members : List Member) :
    List.Forall₂ Member.Renamed members (r.nameMembers overload settled members).1 := by
  induction members generalizing r settled with
  | nil => exact .nil
  | cons x rest ih =>
    unfold nameMembers
    split
    · rename_i hx
      have hnever : x.isSettled ≠ false := by simp [hx]
      exact .cons ⟨rfl, rfl, rfl, rfl, fun _ => rfl, fun h => absurd h hnever⟩ (ih r _)
    · rename_i hx
      exact .cons ⟨rfl, rfl, rfl, rfl, fun h => absurd h hx, fun _ => rfl⟩ (ih _ _)

lemma nameMembers_of_settled (r : Registry) (overload : Bool) {members : List Member}
    (h : ∀ x ∈ members, x.isSettled = true) (settled : List Member) :
    r.nameMembers overload settled members = (members, r) := by
  induction members with
  | nil => rfl
  | cons x rest ih =>
    have hrest := ih fun y hy => h y (List.mem_cons_of_mem _ hy)
    rw [nameMembers, if_pos (h x List.mem_cons_self), hrest]

end Registry

namespace ProgramType

variable {t : ProgramType} {d d' : Declarations}

lemma declarations?_withDeclarations (h : t.declarations? = some d) :
    (t.withDeclarations d').declarations? = some d' := by
  obtain ⟨metadata, hmetadata, hd⟩ := Option.bind_eq_some_iff.1 h
  simp [declarations?, withDeclarations, hmetadata, hd]

lemma withDeclarations_withDeclarations (t : ProgramType) (d d' : Declarations) :
    (t.withDeclarations d).withDeclarations d' = t.withDeclarations d' := by
  simp only [withDeclarations, Option.map_map]
  congr 2
  funext metadata
  exact metadata.withDeclarations_withDeclarations d d'

lemma changeDeclarations_withDeclarations (h : t.declarations? = some d)
    (change : Declarations → Declarations) :
    (t.withDeclarations d').changeDeclarations change = t.withDeclarations (change d') := by
  rw [changeDeclarations, declarations?_withDeclarations h]
  exact withDeclarations_withDeclarations t d' _

lemma changeDeclarations_changeDeclarations (t : ProgramType)
    (change change' : Declarations → Declarations) :
    (t.changeDeclarations change).changeDeclarations change' =
      t.changeDeclarations (change' ∘ change) := by
  cases hlists : t.declarations? with
  | none => simp only [changeDeclarations, hlists]
  | some d =>
    have hboth : t.changeDeclarations change = t.withDeclarations (change d) := by
      rw [changeDeclarations, hlists]
    rw [hboth, changeDeclarations_withDeclarations hlists, changeDeclarations, hlists]
    rfl

lemma withMembersNamed_renamed (t : ProgramType) (s : Name.Sequence) (overload : Bool) :
    List.Forall₂ Member.Renamed t.members (t.withMembersNamed s overload).members :=
  Registry.nameMembers_renamed _ _ _ _

lemma withMembersNamed_of_settled (h : ∀ x ∈ t.members, x.isSettled = true) (s : Name.Sequence)
    (overload : Bool) : t.withMembersNamed s overload = t := by
  rw [withMembersNamed, Registry.renameMembers, Registry.nameMembers_of_settled _ _ h]

lemma withDeclarationsNamed_eq (t : ProgramType) (s : Name.Sequence) :
    t.withDeclarationsNamed s = { t with metadata := (t.withDeclarationsNamed s).metadata } := by
  unfold withDeclarationsNamed changeDeclarations
  split <;> rfl

lemma members_withDeclarationsNamed (t : ProgramType) (s : Name.Sequence) :
    (t.withDeclarationsNamed s).members = t.members := by
  rw [withDeclarationsNamed_eq]

/-- Finishing changes nothing but members and metadata. -/
lemma finished_eq (p : PassOptions) (t : ProgramType) :
    t.finished p =
      { t with members := (t.finished p).members, metadata := (t.finished p).metadata } := by
  unfold finished
  split
  · rw [withDeclarationsNamed_eq]
    rfl
  · rfl

lemma name_finished (p : PassOptions) (t : ProgramType) : (t.finished p).name = t.name := by
  rw [finished_eq]

lemma newName_finished (p : PassOptions) (t : ProgramType) :
    (t.finished p).newName = t.newName := by
  rw [finished_eq]

lemma members_finished (p : PassOptions) (t : ProgramType) :
    (t.finished p).members = (t.withMembersNamed p.memberSequence p.overload).members := by
  unfold finished
  split
  · rw [members_withDeclarationsNamed]
  · rfl

lemma metadata_finished (p : PassOptions) (t : ProgramType) :
    (t.finished p).metadata =
      if p.adaptMetadata then (t.withDeclarationsNamed p.memberSequence).metadata
      else t.metadata := by
  unfold finished
  split
  · -- Which declarations there are does not depend on the members.
    have hlists : (t.withMembersNamed p.memberSequence p.overload).declarations? =
        t.declarations? := rfl
    dsimp only
    unfold withDeclarationsNamed changeDeclarations
    rw [hlists]
    split <;> rfl
  · rfl

/-- A finished type has no member without a name. -/
lemma isSettled_of_mem_finished (p : PassOptions) (t : ProgramType) :
    ∀ x ∈ (t.finished p).members, x.isSettled = true := by
  rw [members_finished]
  exact Member.forall_isSettled (t.withMembersNamed_renamed p.memberSequence p.overload)

/-- Declarations that are named in order once more get the names that they have. -/
lemma withDeclarationsNamed_withDeclarationsNamed (t : ProgramType) (s : Name.Sequence) :
    (t.withDeclarationsNamed s).withDeclarationsNamed s = t.withDeclarationsNamed s := by
  have hsame : (Declarations.inOrder s ∘ Declarations.inOrder s) = Declarations.inOrder s :=
    funext (Declarations.inOrder_inOrder s)
  exact (changeDeclarations_changeDeclarations t _ _).trans
    (congrArg t.changeDeclarations hsame)

/-- A type that has been finished stays the same when it is finished once more. -/
theorem finished_finished (p : PassOptions) (t : ProgramType) :
    (t.finished p).finished p = t.finished p := by
  have hmembers := withMembersNamed_of_settled (isSettled_of_mem_finished p t) p.memberSequence
    p.overload
  rw [finished, hmembers]
  split
  · rename_i hadapt
    rw [finished, if_pos hadapt, withDeclarationsNamed_withDeclarationsNamed]
  · rfl

/-- With other options it still keeps everything but its metadata. -/
theorem finished_finished_eq (p q : PassOptions) (t : ProgramType) :
    (t.finished p).finished q =
      { t.finished p with metadata := ((t.finished p).finished q).metadata } := by
  have hmembers := withMembersNamed_of_settled (isSettled_of_mem_finished p t) q.memberSequence
    q.overload
  rw [finished, hmembers]
  split
  · exact withDeclarationsNamed_eq _ _
  · rfl

end ProgramType

/-! ## Phases that change every type by itself -/

namespace Model

variable {m m' : Model} {id : TypeId} {t : ProgramType} {change : ProgramType → ProgramType}

lemma mem_programIds :
    id ∈ m.programIds ↔ ∃ t, m.types[id]? = some (.program t) := by
  rw [programIds, List.mem_filter, ids, List.mem_range]
  constructor
  · rintro ⟨hid, hprogram⟩
    rw [Array.getElem?_eq_getElem hid] at hprogram ⊢
    cases hd : m.types[id] with
    | program t => exact ⟨t, rfl⟩
    | library n => simp [hd, KnownType.isLibrary] at hprogram
  · rintro ⟨t, ht⟩
    refine ⟨(Array.getElem?_eq_some_iff.1 ht).1, ?_⟩
    rw [ht]
    rfl

lemma mem_programTypes : t ∈ m.programTypes ↔ .program t ∈ m.types := by
  rw [programTypes, List.mem_filterMap]
  constructor
  · rintro ⟨d, hd, hprogram⟩
    cases d with
    | program t' =>
      obtain rfl := Option.some.inj hprogram
      exact Array.mem_toList_iff.1 hd
    | library n => cases hprogram
  · intro ht
    exact ⟨_, Array.mem_toList_iff.2 ht, rfl⟩

lemma mem_libraryTypes {n : Named} : n ∈ m.libraryTypes ↔ .library n ∈ m.types := by
  rw [libraryTypes, List.mem_filterMap]
  constructor
  · rintro ⟨d, hd, hlibrary⟩
    cases d with
    | program t => cases hlibrary
    | library n' =>
      obtain rfl := Option.some.inj hlibrary
      exact Array.mem_toList_iff.1 hd
  · intro hn
    exact ⟨_, Array.mem_toList_iff.2 hn, rfl⟩

/-- Where every type of the program is changed by itself, the types of the program are changed one
by one. -/
lemma programTypes_of_types (h : m'.types = m.types.map (KnownType.mapProgram change)) :
    m'.programTypes = m.programTypes.map change := by
  rw [programTypes, programTypes, h, Array.toList_map, List.filterMap_map, List.map_filterMap]
  congr 1
  funext d
  cases d <;> rfl

lemma libraryTypes_of_types (h : m'.types = m.types.map (KnownType.mapProgram change)) :
    m'.libraryTypes = m.libraryTypes := by
  rw [libraryTypes, libraryTypes, h, Array.toList_map, List.filterMap_map]
  congr 1
  funext d
  cases d <;> rfl

lemma programIds_of_types (h : m'.types = m.types.map (KnownType.mapProgram change)) :
    m'.programIds = m.programIds := by
  rw [programIds, programIds, ids, ids, size, size, h, Array.size_map]
  refine List.filter_congr fun id _ => ?_
  rw [Array.getElem?_map]
  cases m.types[id]? with
  | none => rfl
  | some d => cases d <;> rfl

lemma nodup_programIds (m : Model) : m.programIds.Nodup :=
  List.nodup_range.filter _

lemma replace_self (ht : m.types[id]? = some (.program t)) : m.replace id t = m := by
  obtain ⟨hid, hd⟩ := Array.getElem?_eq_some_iff.1 ht
  have htypes : m.types.setIfInBounds id (.program t) = m.types := by
    refine Array.ext_getElem? fun i => ?_
    rw [Array.getElem?_setIfInBounds]
    split
    · subst i
      simp [hid, hd]
    · rfl
  rw [replace, htypes]

end Model

namespace Renaming

variable {s s' : Renaming} {q : Name.Sequence} {change : ProgramType → ProgramType}
  {ids : List TypeId}

/-- A state that differs from another in the types with some numbers, each of which has been
changed, and in the position of the member sequence. -/
structure Changes (s : Renaming) (change : ProgramType → ProgramType) (ids : List TypeId)
    (s' : Renaming) : Prop where
  registry : ∃ position, s'.registry = s.registry.atMember position none
  modules : s'.model.modules = s.model.modules
  types : ∀ id, s'.model.types[id]? =
    if id ∈ ids then s.model.types[id]?.map (KnownType.mapProgram change) else s.model.types[id]?

/-- If a step changes one type of the program, the fold over different types changes all of them. -/
lemma foldlM_changes {step : Renaming → TypeId → Except Misuse Renaming}
    (hstep : ∀ (s : Renaming) (id : TypeId) (t : ProgramType), s.registry.memberSequence = q →
      s.registry.currentScope = none → s.model.types[id]? = some (.program t) →
      ∃ position, step s id =
        .ok ⟨s.registry.atMember position none, s.model.replace id (change t)⟩)
    (hsequence : s.registry.memberSequence = q) (hscope : s.registry.currentScope = none)
    (hids : ∀ id ∈ ids, ∃ t, s.model.types[id]? = some (.program t)) (hnodup : ids.Nodup) :
    ∃ s', ids.foldlM step s = .ok s' ∧ s.Changes change ids s' := by
  induction ids generalizing s with
  | nil =>
    refine ⟨s, rfl, ⟨s.registry.memberPosition, ?_⟩, rfl, fun id => by simp⟩
    rw [← hscope]
    rfl
  | cons first rest ih =>
    obtain ⟨t, ht⟩ := hids first List.mem_cons_self
    obtain ⟨position, hs₁⟩ := hstep s first t hsequence hscope ht
    obtain ⟨hfirst, hnodup⟩ := List.nodup_cons.1 hnodup
    have hsame : ∀ id, (s.model.replace first (change t)).types[id]? =
        if first = id then some (.program (change t)) else s.model.types[id]? :=
      fun id => Model.getElem?_replace_of_isSome (by simp [ht]) _
    obtain ⟨s', hs', ⟨position', hregistry⟩, hmodules, htypes⟩ :=
      ih (s := ⟨s.registry.atMember position none, s.model.replace first (change t)⟩)
        hsequence rfl
        (fun id hid => by
          have hne : first ≠ id := fun heq => hfirst (heq ▸ hid)
          obtain ⟨t', ht'⟩ := hids id (List.mem_cons_of_mem _ hid)
          exact ⟨t', by rw [hsame, if_neg hne, ht']⟩)
        hnodup
    refine ⟨s', ?_, ⟨position', hregistry⟩, hmodules, fun id => ?_⟩
    · rw [List.foldlM_cons, hs₁]
      exact hs'
    · rw [htypes, hsame]
      by_cases heq : first = id
      · subst heq
        simp [hfirst, ht]
      · simp [heq, Ne.symm heq]

/-- A change of all types of the program is a change of all types. -/
lemma Changes.types_eq (h : s.Changes change s.model.programIds s') :
    s'.model.types = s.model.types.map (KnownType.mapProgram change) := by
  refine Array.ext_getElem? fun id => ?_
  rw [h.types, Array.getElem?_map]
  split
  · rfl
  · rename_i hid
    cases hd : s.model.types[id]? with
    | none => rfl
    | some d =>
      cases d with
      | program t => exact absurd (Model.mem_programIds.2 ⟨t, hd⟩) hid
      | library n => rfl

lemma renameMembersOf_eq (overload : Bool) {id : TypeId} {t : ProgramType}
    (hscope : s.registry.currentScope = none) (ht : s.model.types[id]? = some (.program t)) :
    ∃ position, s.renameMembersOf overload id = .ok ⟨s.registry.atMember position none,
      s.model.replace id (t.withMembersNamed s.registry.memberSequence overload)⟩ := by
  have hget : s.model.get id = .ok (.program t) := by
    rw [Model.get, ht]
  obtain ⟨position, hposition⟩ :=
    s.registry.nameMembers_snd overload (t.members.filter (·.isSettled)) t.members
  refine ⟨position, ?_⟩
  rw [hscope] at hposition
  rw [← s.registry.renameMembers_fst overload t, ← hposition]
  simp only [renameMembersOf, bind, Except.bind, hget]
  rfl

lemma renameDeclarationsOf_eq {id : TypeId} {t : ProgramType}
    (hscope : s.registry.currentScope = none) (ht : s.model.types[id]? = some (.program t)) :
    ∃ position, s.renameDeclarationsOf Registry.nameDeclarations id =
      .ok ⟨s.registry.atMember position none,
        s.model.replace id (t.withDeclarationsNamed s.registry.memberSequence)⟩ := by
  have hget : s.model.get id = .ok (.program t) := by
    rw [Model.get, ht]
  cases hlists : t.declarations? with
  | none =>
    refine ⟨s.registry.memberPosition, ?_⟩
    rw [ProgramType.withDeclarationsNamed, ProgramType.changeDeclarations, hlists,
      Model.replace_self ht, ← hscope]
    simp only [renameDeclarationsOf, bind, Except.bind, hget, hlists]
    rfl
  | some d =>
    obtain ⟨position, hnamed⟩ := Registry.nameDeclarations_eq d hscope
    refine ⟨position, ?_⟩
    rw [ProgramType.withDeclarationsNamed, ProgramType.changeDeclarations, hlists]
    simp only [renameDeclarationsOf, bind, Except.bind, hget, hlists, hnamed]
    rfl

/-- Naming members changes every type of the program by itself. -/
theorem renameMembers_changes (s : Renaming) (overload : Bool)
    (hscope : s.registry.currentScope = none) :
    ∃ s', s.renameMembers overload = .ok s' ∧
      s.Changes (·.withMembersNamed s.registry.memberSequence overload) s.model.programIds s' := by
  refine foldlM_changes (q := s.registry.memberSequence) ?_ rfl hscope ?_ (Model.nodup_programIds _)
  · intro s₁ id t hsequence hscope ht
    rw [← hsequence]
    exact renameMembersOf_eq overload hscope ht
  · exact fun id hid => Model.mem_programIds.1 hid

/-- Naming metadata changes the modules, and every type of the program by itself. -/
theorem renameMetadata_changes (s : Renaming) (hscope : s.registry.currentScope = none) :
    ∃ s', s.renameMetadata = .ok s' ∧
      Changes ⟨s.registry, { s.model with
          modules := Named.inOrder s.registry.memberSequence s.model.modules }⟩
        (·.withDeclarationsNamed s.registry.memberSequence) s.model.programIds s' := by
  obtain ⟨position, hmodules⟩ := Registry.nameInScope_eq .module s.model.modules hscope
  set s₁ : Renaming := ⟨s.registry.atMember position none, { s.model with
    modules := Named.inOrder s.registry.memberSequence s.model.modules }⟩ with hs₁
  have hrenamed : s.renameModules = .ok s₁ := by
    simp only [renameModules, bind, Except.bind, hmodules]
    rfl
  have hfold : ∃ s', s₁.model.programIds.foldlM
      (renameDeclarationsOf · Registry.nameDeclarations) s₁ = .ok s' ∧
        s₁.Changes (·.withDeclarationsNamed s.registry.memberSequence) s₁.model.programIds s' := by
    refine foldlM_changes (q := s.registry.memberSequence) ?_ rfl rfl ?_ (Model.nodup_programIds _)
    · intro s₂ id t hsequence hscope ht
      rw [← hsequence]
      exact renameDeclarationsOf_eq hscope ht
    · exact fun id hid => Model.mem_programIds.1 hid
  obtain ⟨s', hs', ⟨position', hregistry⟩, hsame, htypes⟩ := hfold
  refine ⟨s', ?_, ⟨position', hregistry⟩, hsame, htypes⟩
  simp only [renameMetadata, bind, Except.bind, hrenamed]
  exact hs'

end Renaming

/-! ## The whole pass -/

namespace Model

variable {m : Model} {p : PassOptions}

lemma memberSequence_withTypesNamed (m : Model) (p : PassOptions) :
    (m.withTypesNamed p).registry.memberSequence = p.memberSequence := by
  have hstart : (Registry.ofModel m p.naming p.memberSequence).memberSequence =
      p.memberSequence := by
    rw [Registry.ofModel_eq, Registry.recordAll_eq, Registry.reserveAll_eq]
    rfl
  exact (m.withTypesNamed_extends p).registry.memberSequence.trans hstart

/-- A pass is never refused.  It comes to what the naming of the types has left with every type
finished, and with the modules named in order if metadata counts. -/
theorem rename_finished (m : Model) (p : PassOptions) :
    ∃ s, m.rename p = .ok s ∧
      s.model.types =
        (m.withTypesNamed p).model.types.map (KnownType.mapProgram (·.finished p)) ∧
      s.model.modules =
        (if p.adaptMetadata then Named.inOrder p.memberSequence m.modules else m.modules) ∧
      ∃ position, s.registry = (m.withTypesNamed p).registry.atMember position none := by
  have hmodules : (m.withTypesNamed p).model.modules = m.modules :=
    (m.withTypesNamed_extends p).model.modules
  obtain ⟨s₁, hs₁, hchanges⟩ := (m.withTypesNamed p).renameMembers_changes p.overload
    (m.currentScope_withTypesNamed p)
  obtain ⟨position, hregistry⟩ := hchanges.registry
  have hsequence : s₁.registry.memberSequence = p.memberSequence := by
    rw [hregistry]
    exact m.memberSequence_withTypesNamed p
  have hfirst := hchanges.types_eq
  rw [memberSequence_withTypesNamed] at hfirst
  simp only [m.rename_eq_bind, bind, Except.bind, hs₁]
  cases hadapt : p.adaptMetadata with
  | false =>
    refine ⟨s₁, rfl, ?_, ?_, position, hregistry⟩
    · simpa [ProgramType.finished, hadapt] using hfirst
    · simpa using hchanges.modules.trans hmodules
  | true =>
    obtain ⟨s₂, hs₂, hchanges'⟩ := s₁.renameMetadata_changes (by rw [hregistry]; rfl)
    obtain ⟨position', hregistry'⟩ := hchanges'.registry
    rw [hsequence] at hchanges'
    refine ⟨s₂, by simpa using hs₂, ?_, ?_, position', ?_⟩
    · have hsecond := Renaming.Changes.types_eq hchanges'
      rw [hsecond]
      dsimp only
      rw [hfirst, Array.map_map]
      congr 1
      funext d
      cases d with
      | program t => simp [ProgramType.finished, hadapt]
      | library n => rfl
    · have hnamed := hchanges'.modules
      dsimp only at hnamed
      rw [hnamed, hchanges.modules, hmodules]
      rfl
    · rw [hregistry', hregistry]
      rfl

end Model
end Pseudonym
