import Pseudonym.Proofs.Naming.Steps

/-!
# The form of a type name

The name of a type tells how it was made.  A name for a type in no other is the new prefix of its
namespace and a candidate (`IsTopLevel`).  A name for a type inside another is the name of that
type, a dollar sign, and a candidate or a numeral (`IsInside`).  Both forms stay what they are when
the registry goes on, since the new prefix of a namespace does not change.

Whatever its form, a name that is given was not reserved before and is so afterwards (`Gives`).
-/

namespace Pseudonym
namespace Registry

variable {r r' : Registry} {oldName enclosing name : String} {numbered : Bool}

/-! ## Forms -/

/-- Whether a name is one for a type in no other: the new prefix of its namespace, which has been
decided, and a candidate. -/
def IsTopLevel (r : Registry) (oldName name : String) : Prop :=
  ∃ outer k candidate, r.newPrefix (Name.namespacePrefix oldName) = (outer, r) ∧
    r.options.typeSequence.nameAt? k = some candidate ∧ name = outer ++ candidate

/-- Whether a name is one for a type inside a type with the name `enclosing`: this name, a dollar
sign, and a numeral or a candidate. -/
def IsInside (r : Registry) (enclosing : String) (numbered : Bool) (name : String) : Prop :=
  if numbered then ∃ k : Nat, name = enclosing ++ "$" ++ toString (k + 1)
  else ∃ k candidate, r.options.typeSequence.nameAt? k = some candidate ∧
    name = enclosing ++ "$" ++ candidate

lemma IsTopLevel.mono (hname : r.IsTopLevel oldName name) (h : r.Extends r') :
    r'.IsTopLevel oldName name := by
  obtain ⟨outer, k, candidate, hanswer, hentry, hname⟩ := hname
  have hlater : r'.newPrefix (Name.namespacePrefix oldName) = (outer, r') := by
    have hextends : (r.newPrefix (Name.namespacePrefix oldName)).2.Extends r' := by
      rw [hanswer]
      exact h
    rw [newPrefix_of_extends hextends, hanswer]
  exact ⟨outer, k, candidate, hlater, h.options ▸ hentry, hname⟩

lemma IsInside.mono (hname : r.IsInside enclosing numbered name) (h : r.Extends r') :
    r'.IsInside enclosing numbered name := by
  unfold IsInside at hname ⊢
  rwa [h.options]

/-- A type is called longer than the type that it is inside. -/
lemma IsInside.length_lt (h : r.IsInside enclosing numbered name) :
    enclosing.length < name.length := by
  unfold IsInside at h
  split at h
  · obtain ⟨k, rfl⟩ := h
    simp only [String.length_append]
    exact Nat.lt_of_lt_of_le (Nat.lt_succ_self _) (Nat.le_add_right _ _)
  · obtain ⟨k, candidate, -, rfl⟩ := h
    simp only [String.length_append]
    exact Nat.lt_of_lt_of_le (Nat.lt_succ_self _) (Nat.le_add_right _ _)

/-! ## Giving names -/

/-- A registry gives a name that was not reserved, and goes on with one where it is. -/
structure Gives (r : Registry) (name : String) (r' : Registry) : Prop where
  steps : Steps r r'
  scope : r'.currentScope = r.currentScope
  fresh : r.isReserved name = false
  reserved : r'.isReserved name = true

lemma ordinaryName_gives (r : Registry) (outer : String) :
    r.Gives (r.ordinaryName outer).1 (r.ordinaryName outer).2 := by
  obtain ⟨k, candidate, -, -, hfresh⟩ := r.ordinaryName_fst outer
  exact ⟨.single (.ordinary r outer), rfl, hfresh, r.isReserved_ordinaryName outer⟩

theorem nameTopLevel_gives (r : Registry) (oldName : String) :
    r.Gives (r.nameTopLevel oldName).1 (r.nameTopLevel oldName).2 := by
  have hsteps := r.newPrefix_steps (Name.namespacePrefix oldName)
  have hgives := ordinaryName_gives (r.newPrefix (Name.namespacePrefix oldName)).2
    (r.newPrefix (Name.namespacePrefix oldName)).1
  exact ⟨hsteps.trans hgives.steps, hgives.scope.trans (currentScope_newPrefix r _),
    hsteps.extends.not_isReserved hgives.fresh, hgives.reserved⟩

theorem nameNested_gives (r : Registry) (enclosing : String) :
    r.Gives (r.nameNested enclosing).1 (r.nameNested enclosing).2 :=
  ordinaryName_gives _ _

theorem nameNumbered_gives (r : Registry) (enclosing : String) :
    r.Gives (r.nameNumbered enclosing).1 (r.nameNumbered enclosing).2 := by
  obtain ⟨k, -, hfresh⟩ := r.numberedName_fst (Name.prefixInside enclosing)
  exact ⟨r.nameNumbered_steps enclosing, rfl, hfresh, r.isReserved_numberedName _⟩

theorem isTopLevel_nameTopLevel (r : Registry) (oldName : String) :
    (r.nameTopLevel oldName).2.IsTopLevel oldName (r.nameTopLevel oldName).1 := by
  set s := (r.newPrefix (Name.namespacePrefix oldName)).2 with hs
  set outer := (r.newPrefix (Name.namespacePrefix oldName)).1 with houter
  obtain ⟨k, candidate, hentry, hname, -⟩ := s.ordinaryName_fst outer
  refine ⟨outer, k, candidate, ?_, hentry, hname⟩
  exact newPrefix_of_extends (Extends.ordinaryName s outer)

theorem isInside_nameNested (r : Registry) (enclosing : String) :
    (r.nameNested enclosing).2.IsInside enclosing false (r.nameNested enclosing).1 := by
  obtain ⟨k, candidate, hentry, hname, -⟩ := r.ordinaryName_fst (Name.prefixInside enclosing)
  exact ⟨k, candidate, hentry, hname⟩

theorem isInside_nameNumbered (r : Registry) (enclosing : String) :
    (r.nameNumbered enclosing).2.IsInside enclosing true (r.nameNumbered enclosing).1 := by
  obtain ⟨k, hname, -⟩ := r.numberedName_fst (Name.prefixInside enclosing)
  exact ⟨k, hname⟩

end Registry
end Pseudonym
