import Pseudonym.Proofs.Renaming.Outcome

/-!
# Names of members within a type

Members that nothing tells apart must not share a name.  The members of a type are named in order,
and each takes the first name of the member sequence that is not in use in its group: no settled
member of the group has it, wherever in the list it stands, and no member of the group has been
given it before.

The way through the list carries the members whose names are in use.  These are the settled members
at first, and every member joins them when it has been named.  So what is in use when the turn of a
member comes can be told from the two ends of the renaming alone (`Member.InUse`), and
`nameMembers_firstUnused` says that the name it gets is the first that is not.  That the names in a
group differ follows by comparing each member with those before it.
-/

namespace Pseudonym

/-- Whether a name is the first of a sequence that is not in use. -/
def Name.Sequence.IsFirstUnused (s : Sequence) (inUse : String → Prop) (name : String) : Prop :=
  ¬ inUse name ∧ ∃ k, s.nameAt? k = some name ∧
    ∀ j < k, ∀ earlier, s.nameAt? j = some earlier → inUse earlier

lemma Name.Sequence.IsFirstUnused.congr {s : Sequence} {inUse inUse' : String → Prop}
    {name : String} (h : s.IsFirstUnused inUse name) (heq : ∀ other, inUse other ↔ inUse' other) :
    s.IsFirstUnused inUse' name := by
  obtain rfl : inUse = inUse' := funext fun other => propext (heq other)
  exact h

namespace Member

variable {overload : Bool} {x y : Member}

/-! ## Groups -/

lemma sameGroup_iff : x.sameGroup overload y = true ↔
    x.kind = y.kind ∧ x.signature overload = y.signature overload := by
  simp [sameGroup]

lemma sameGroup_comm : x.sameGroup overload y = y.sameGroup overload x := by
  simp only [sameGroup, eq_comm]

lemma Renamed.signature_eq {x' : Member} (h : x.Renamed x') :
    x'.signature overload = x.signature overload := by
  rw [signature, signature, h.kind, h.descriptor]

/-- A new name does not take a member to another group. -/
lemma Renamed.sameGroup_left {x' : Member} (h : x.Renamed x') :
    x'.sameGroup overload y = x.sameGroup overload y := by
  rw [sameGroup, sameGroup, h.kind, h.signature_eq]

lemma Renamed.sameGroup_eq {x' y' : Member} (hx : x.Renamed x') (hy : y.Renamed y') :
    x'.sameGroup overload y' = x.sameGroup overload y := by
  rw [hx.sameGroup_left, sameGroup_comm, hy.sameGroup_left, sameGroup_comm]

/-- The parameters in a descriptor end at its first closing parenthesis. -/
lemma parameterPart_append {parameters : String} (h : ')' ∉ parameters.toList) (result : String) :
    parameterPart (parameters ++ ")" ++ result) = parameters ++ ")" := by
  have hdescriptor : (parameters ++ ")" ++ result).toList =
      parameters.toList ++ ')' :: result.toList := by simp
  have hinside : ∀ c ∈ parameters.toList, decide (c ≠ ')') = true := by
    intro c hc
    rw [decide_eq_true_eq]
    rintro rfl
    exact h hc
  have htake : (parameters.toList ++ ')' :: result.toList).takeWhile (· ≠ ')') =
      parameters.toList := by
    rw [List.takeWhile_append_of_pos hinside]
    simp
  simp only [parameterPart, hdescriptor, htake]
  simp

/-- Methods are in one group if their descriptors differ in nothing but the result. -/
lemma sameGroup_of_parameters {parameters result result' : String} (hx : x.kind = .method)
    (hy : y.kind = .method) (h : ')' ∉ parameters.toList)
    (hxd : x.descriptor = parameters ++ ")" ++ result)
    (hyd : y.descriptor = parameters ++ ")" ++ result') : x.sameGroup false y = true := by
  have hsignature : ∀ z : Member, z.kind = .method →
      z.signature false = parameterPart z.descriptor := by
    intro z hz
    rw [signature, hz]
    rfl
  rw [sameGroup_iff, hsignature x hx, hsignature y hy, hxd, hyd, parameterPart_append h,
    parameterPart_append h]
  exact ⟨hx.trans hy.symm, rfl⟩

/-! ## Names in use -/

/-- Whether one of some members has a name in the group of a member. -/
def IsAround (overload : Bool) (others : List Member) (x : Member) (name : String) : Prop :=
  ∃ y ∈ others, x.sameGroup overload y = true ∧ y.currentName = name

lemma mem_namesAround {others : List Member} {name : String} :
    name ∈ x.namesAround overload others ↔ IsAround overload others x name := by
  rw [namesAround, Std.ExtTreeSet.mem_ofList]
  simp [IsAround, and_assoc]

lemma isAround_cons {others : List Member} {name : String} :
    IsAround overload (y :: others) x name ↔
      (x.sameGroup overload y = true ∧ y.currentName = name) ∨ IsAround overload others x name := by
  simp [IsAround]

/-- Whether a name has been given to a member in the group of `x` before the turn of an index. -/
def GivenBefore (overload : Bool) (before after : List Member) (index : Nat) (x : Member)
    (name : String) : Prop :=
  ∃ j < index, ∃ y y' : Member, before[j]? = some y ∧ after[j]? = some y' ∧ y.isSettled = false ∧
    x.sameGroup overload y' = true ∧ y'.currentName = name

lemma not_givenBefore_zero {before after : List Member} {name : String} :
    ¬ GivenBefore overload before after 0 x name := by
  rintro ⟨j, hj, -⟩
  exact Nat.not_lt_zero j hj

lemma givenBefore_cons {before after : List Member} {y' : Member} {index : Nat} {name : String} :
    GivenBefore overload (y :: before) (y' :: after) (index + 1) x name ↔
      (y.isSettled = false ∧ x.sameGroup overload y' = true ∧ y'.currentName = name) ∨
        GivenBefore overload before after index x name := by
  constructor
  · rintro ⟨j, hj, z, z', hz, hz', hrenamed, hgroup, hname⟩
    cases j with
    | zero =>
      obtain rfl : y = z := Option.some.inj hz
      obtain rfl : y' = z' := Option.some.inj hz'
      exact .inl ⟨hrenamed, hgroup, hname⟩
    | succ j => exact .inr ⟨j, Nat.lt_of_succ_lt_succ hj, z, z', hz, hz', hrenamed, hgroup, hname⟩
  · rintro (⟨hrenamed, hgroup, hname⟩ | ⟨j, hj, z, z', hz, hz', hrenamed, hgroup, hname⟩)
    · exact ⟨0, Nat.succ_pos index, y, y', rfl, rfl, hrenamed, hgroup, hname⟩
    · exact ⟨j + 1, Nat.succ_lt_succ hj, z, z', hz, hz', hrenamed, hgroup, hname⟩

/-- Whether a name is in use in the group of a member when the turn of an index comes: a settled
member of the group has it, wherever it stands, or it has been given to a member before. -/
def InUse (overload : Bool) (before after : List Member) (index : Nat) (x : Member)
    (name : String) : Prop :=
  IsAround overload (before.filter (·.isSettled)) x name ∨
    GivenBefore overload before after index x name

/-- How the members of a type come out of being named. -/
structure NamedInGroups (s : Name.Sequence) (overload : Bool) (before after : List Member) :
    Prop where
  /-- The members that are not settled get new names, and nothing else changes. -/
  renamed : List.Forall₂ Renamed before after
  /-- Each of them gets the first name that is not in use in its group when its turn comes. -/
  firstUnused : ∀ (i : Nat) (x x' : Member), before[i]? = some x → after[i]? = some x' →
    x.isSettled = false → s.IsFirstUnused (InUse overload before after i x) x'.currentName
  /-- Afterwards no other member of its group has this name. -/
  distinct : ∀ (i j : Nat) (x x' y' : Member), i ≠ j → before[i]? = some x →
    after[i]? = some x' → after[j]? = some y' → x.isSettled = false →
    x'.sameGroup overload y' = true → x'.currentName ≠ y'.currentName
  /-- Unless overloading is aggressive, this holds for methods that differ in the result alone. -/
  results : overload = false → ∀ (i j : Nat) (x x' y' : Member), i ≠ j → before[i]? = some x →
    after[i]? = some x' → after[j]? = some y' → x.isSettled = false →
    x'.kind = .method → y'.kind = .method →
    ∀ parameters result result' : String, ')' ∉ parameters.toList →
    x'.descriptor = parameters ++ ")" ++ result → y'.descriptor = parameters ++ ")" ++ result' →
    x'.currentName ≠ y'.currentName

section

variable {s : Name.Sequence} {before after : List Member} {i j : Nat} {x' y' : Member}

lemma renamed_of_getElem? (h : List.Forall₂ Renamed before after) (hx : before[i]? = some x)
    (hx' : after[i]? = some x') : x.Renamed x' := by
  obtain ⟨hi, rfl⟩ := List.getElem?_eq_some_iff.1 hx
  obtain ⟨hi', rfl⟩ := List.getElem?_eq_some_iff.1 hx'
  exact h.get hi hi'

lemma exists_getElem?_of_renamed (h : List.Forall₂ Renamed before after)
    (hx' : after[i]? = some x') : ∃ x, before[i]? = some x := by
  obtain ⟨hi', -⟩ := List.getElem?_eq_some_iff.1 hx'
  have hi : i < before.length := h.length_eq ▸ hi'
  exact ⟨before[i], List.getElem?_eq_getElem hi⟩

/-- Where every member gets the first name that is not in use, no other member of its group has this
name in the end.  A settled member had its own name in use from the beginning, and of two members
that are named the later one avoids the name of the earlier. -/
lemma ne_of_firstUnused (hrenamed : List.Forall₂ Renamed before after)
    (hfirst : ∀ (i : Nat) (x x' : Member), before[i]? = some x → after[i]? = some x' →
      x.isSettled = false → s.IsFirstUnused (InUse overload before after i x) x'.currentName)
    (hne : i ≠ j) (hx : before[i]? = some x) (hx' : after[i]? = some x')
    (hy' : after[j]? = some y') (hopen : x.isSettled = false)
    (hgroup : x'.sameGroup overload y' = true) : x'.currentName ≠ y'.currentName := by
  intro hsame
  obtain ⟨y, hy⟩ := exists_getElem?_of_renamed hrenamed hy'
  have hrx := renamed_of_getElem? hrenamed hx hx'
  have hry := renamed_of_getElem? hrenamed hy hy'
  have hunused := (hfirst i x x' hx hx' hopen).1
  cases hysettled : y.isSettled with
  | true =>
    refine hunused (.inl ⟨y, ?_, ?_, ?_⟩)
    · exact List.mem_filter.2 ⟨List.mem_of_getElem? hy, hysettled⟩
    · rwa [hrx.sameGroup_eq hry] at hgroup
    · rw [hsame, hry.settled hysettled]
  | false =>
    rcases Nat.lt_or_gt_of_ne hne with hlt | hgt
    · refine (hfirst j y y' hy hy' hysettled).1 (.inr ⟨i, hlt, x, x', hx, hx', hopen, ?_, hsame⟩)
      rwa [← hry.sameGroup_left, sameGroup_comm]
    · refine hunused (.inr ⟨j, hgt, y, y', hy, hy', hysettled, ?_, hsame.symm⟩)
      rwa [← hrx.sameGroup_left]

end

end Member

namespace Registry

open Member (IsAround GivenBefore)

/-- A member gets the first name of the sequence that is not around. -/
lemma nameMember_firstUnused (r : Registry) (overload : Bool) (used : List Member) (x : Member) :
    r.memberSequence.IsFirstUnused (IsAround overload used x)
      (r.nameMember (x.namesAround overload used)).1 := by
  have hfirst := r.memberSequence.isFirst_draw id r.memberSequence.base_injective
    (x.namesAround overload used) 0
  refine ⟨?_, _, hfirst.entry, fun j hj earlier hearlier => ?_⟩
  · have hpasses := hfirst.passes
    rw [Bool.not_eq_true', Name.Sequence.contains_eq_false_iff] at hpasses
    exact fun haround => hpasses (Member.mem_namesAround.2 haround)
  · have hrefused := hfirst.refused j (Nat.zero_le j) hj earlier hearlier
    rw [Bool.not_eq_false', Std.ExtTreeSet.contains_iff_mem] at hrefused
    exact Member.mem_namesAround.1 hrefused

/-- On the way through a list, a member gets the first name that neither the settled members nor
those that were named before it have in its group. -/
theorem nameMembers_firstUnused (r : Registry) (overload : Bool) (settled members : List Member)
    {i : Nat} {x x' : Member} (hx : members[i]? = some x)
    (hx' : (r.nameMembers overload settled members).1[i]? = some x')
    (hopen : x.isSettled = false) :
    r.memberSequence.IsFirstUnused (fun name => IsAround overload settled x name ∨
      GivenBefore overload members (r.nameMembers overload settled members).1 i x name)
        x'.currentName := by
  induction members generalizing r settled i with
  | nil => simp at hx
  | cons first rest ih =>
    unfold nameMembers at hx' ⊢
    split at hx' <;> rename_i hfirst
    · rw [if_pos hfirst]
      cases i with
      | zero =>
        obtain rfl : first = x := by simpa using hx
        rw [hopen] at hfirst
        exact absurd hfirst Bool.false_ne_true
      | succ i =>
        -- What is passed over is settled, and has been in use from the beginning.
        refine (ih r settled hx hx').congr fun name => ?_
        simp [Member.givenBefore_cons, hfirst]
    · rw [if_neg hfirst]
      cases i with
      | zero =>
        obtain rfl : first = x := by simpa using hx
        obtain rfl := Option.some.inj hx'
        refine (r.nameMember_firstUnused overload settled first).congr fun name => ?_
        simp [Member.not_givenBefore_zero]
      | succ i =>
        -- What has been named joins the members in use.
        refine (ih (r.nameMember (first.namesAround overload settled)).2 _ hx hx').congr
          fun name => ?_
        simp only [Member.givenBefore_cons, Member.isAround_cons, hfirst]
        tauto

/-- Naming the members of a type names them in their groups. -/
theorem renameMembers_namedInGroups (r : Registry) (overload : Bool) (t : ProgramType) :
    Member.NamedInGroups r.memberSequence overload t.members
      (r.renameMembers overload t).1.members := by
  have hrenamed : List.Forall₂ Member.Renamed t.members (r.renameMembers overload t).1.members :=
    nameMembers_renamed r overload _ _
  have hfirst : ∀ (i : Nat) (x x' : Member), t.members[i]? = some x →
      (r.renameMembers overload t).1.members[i]? = some x' → x.isSettled = false →
      r.memberSequence.IsFirstUnused (Member.InUse overload t.members
        (r.renameMembers overload t).1.members i x) x'.currentName :=
    fun i x x' hx hx' hopen => nameMembers_firstUnused r overload _ _ hx hx' hopen
  refine ⟨hrenamed, hfirst, fun i j x x' y' hne hx hx' hy' hopen hgroup => ?_, ?_⟩
  · exact Member.ne_of_firstUnused hrenamed hfirst hne hx hx' hy' hopen hgroup
  · rintro rfl i j x x' y' hne hx hx' hy' hopen hmethod hmethod' parameters result result'
      hparameters hdescriptor hdescriptor'
    exact Member.ne_of_firstUnused hrenamed hfirst hne hx hx' hy' hopen
      (Member.sameGroup_of_parameters hmethod hmethod' hparameters hdescriptor hdescriptor')

example : ((Registry.blank .plain (.short false)).nameMembers false
    [⟨.method, "a", "(I)V", true, none⟩]
    [⟨.method, "add", "(I)J", false, none⟩, ⟨.field, "total", "J", false, none⟩,
      ⟨.method, "add", "(J)J", false, none⟩, ⟨.method, "a", "(I)V", true, none⟩,
      ⟨.method, "sub", "(I)I", false, none⟩]).1.map Member.currentName =
    ["b", "a", "a", "a", "c"] := by
  decide +kernel

end Registry

/-- Members are named in their groups.  In whatever state a pass is, naming the members of a type of
the program changes nothing but their new names.  Those that are not settled get, in order, the
first names of the member sequence that are not in use in their groups, and no two members of a
group share a name that one of them got. -/
theorem members_are_named_in_groups (s : Renaming) (overload : Bool) {id : TypeId} {t : ProgramType}
    (ht : s.model.types[id]? = some (.program t)) :
    ∃ s' members, s.renameMembersOf overload id = .ok s' ∧
      s'.model = s.model.replace id { t with members } ∧
      Member.NamedInGroups s.registry.memberSequence overload t.members members := by
  have hget : s.model.get id = .ok (.program t) := by
    rw [Model.get, ht]
  refine ⟨⟨(s.registry.renameMembers overload t).2,
    s.model.replace id (s.registry.renameMembers overload t).1⟩, _, ?_, rfl,
    s.registry.renameMembers_namedInGroups overload t⟩
  simp only [Renaming.renameMembersOf, bind, Except.bind, hget]
  rfl

/-- A type with a method that keeps the name `a`, and with others around it. -/
def ProgramType.account : ProgramType :=
  ⟨"Account", none, [], none, none,
    [⟨.method, "add", "(I)J", false, none⟩, ⟨.field, "total", "J", false, none⟩,
      ⟨.method, "a", "(I)V", true, none⟩, ⟨.method, "sub", "(I)I", false, none⟩]⟩

/-- The methods of an account that take an integer avoid the name of the one that keeps it, which
stands between them. -/
theorem members_are_named_in_groups_account :
    let s := Renaming.start ⟨#[.program .account], []⟩ .plain (.short false)
    s.model.types[0]? = some (.program .account) ∧
      ∃ s' members, s.renameMembersOf false 0 = .ok s' ∧
        s'.model = s.model.replace 0 { ProgramType.account with members } ∧
        Member.NamedInGroups s.registry.memberSequence false ProgramType.account.members members :=
  ⟨rfl, members_are_named_in_groups _ false rfl⟩

end Pseudonym
