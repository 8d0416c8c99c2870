import Pseudonym.Naming.Types
import Pseudonym.Proofs.Name.Folds

/-!
# A registry draws free names

The three things that a registry draws are segments of namespaces, ordinary type names and numbered
type names.  Each draw ends at the first candidate that is free: a segment whose prefix no namespace
was ever given, or a name whose fold is not reserved.  `isFirst_segmentDraw` and
`isFirst_drawTypeName` say so for every registry and every prefix; they rest on the folds of
candidates below one prefix being different.

The rest of the module says what is new in a registry after the draw, and what it records of
namespaces then.
-/

namespace Pseudonym
namespace Registry

open Name (Sequence numeral)

variable (r : Registry) (outer newParent : String)

/-! ## Segments -/

/-- The draw of a segment below a new prefix. -/
def segmentDraw : Sequence.Drawn :=
  r.options.segmentSequence.draw (fun segment => !r.taken.contains (newParent ++ segment ++ "."))
    r.taken.size (r.segmentPositions.getD newParent 0)

/-- The prefix that is drawn below a new prefix. -/
def freshPrefix : String := newParent ++ (r.segmentDraw newParent).name ++ "."

lemma append_segment_injective {segment other : String}
    (h : newParent ++ segment ++ "." = newParent ++ other ++ ".") : segment = other := by
  have hlist := congrArg String.toList h
  simp only [String.toList_append, List.append_assoc] at hlist
  have hrest := List.append_cancel_left hlist
  exact String.toList_inj.1 (List.append_cancel_right hrest)

/-- The segment is the first below the prefix whose prefix is not taken. -/
theorem isFirst_segmentDraw :
    r.options.segmentSequence.IsFirst
      (fun segment => !r.taken.contains (newParent ++ segment ++ "."))
      (r.segmentPositions.getD newParent 0) (r.segmentDraw newParent) := by
  refine Sequence.isFirst_draw _ (fun segment => newParent ++ segment ++ ".") ?_ r.taken _
  intro k l h
  exact Sequence.base_injective _ (append_segment_injective newParent h)

/-- A fresh prefix was never given to a namespace. -/
theorem freshPrefix_notMem_taken : r.freshPrefix newParent ∉ r.taken := by
  have h := (r.isFirst_segmentDraw newParent).passes
  rw [Bool.not_eq_true'] at h
  exact Sequence.contains_eq_false_iff.1 h

@[simp] lemma newPrefix?_createPrefix (other : String) :
    (r.createPrefix outer newParent).2.newPrefix? other =
      if outer = other then some (r.freshPrefix newParent) else r.newPrefix? other :=
  newPrefix?_record _ outer (r.freshPrefix newParent) other

@[simp] lemma mem_taken_createPrefix (other : String) :
    other ∈ (r.createPrefix outer newParent).2.taken ↔
      r.freshPrefix newParent = other ∨ other ∈ r.taken :=
  mem_taken_record _ outer (r.freshPrefix newParent) other

@[simp] lemma currentScope_createPrefix :
    (r.createPrefix outer newParent).2.currentScope = r.currentScope := rfl

/-! ## Type names -/

/-- A drawn type name is the first candidate whose whole name is not reserved. -/
lemma isFirst_drawTypeName_of_injective (candidates : Sequence) (start : Nat)
    (h : Function.Injective fun k => r.fold (outer ++ candidates.base k)) :
    candidates.IsFirst (fun name => !r.isReserved (outer ++ name)) start
      (r.drawTypeName candidates outer start) :=
  Sequence.isFirst_draw candidates (fun name => r.fold (outer ++ name)) h r.reserved start

lemma base_withWords (list : Option Name.WordList) (mixedCase : Bool) :
    (Sequence.withWords list mixedCase).base = Name.short mixedCase := by
  cases list <;> rfl

theorem isFirst_drawTypeName (start : Nat) :
    r.options.typeSequence.IsFirst (fun name => !r.isReserved (outer ++ name)) start
      (r.drawTypeName r.options.typeSequence outer start) := by
  refine r.isFirst_drawTypeName_of_injective outer _ start ?_
  rw [NamingOptions.typeSequence, base_withWords]
  exact Name.fold_short_injective r.options.mixedCase outer

theorem isFirst_drawTypeName_numerals (start : Nat) :
    Sequence.IsFirst .numerals (fun name => !r.isReserved (outer ++ name)) start
      (r.drawTypeName .numerals outer start) :=
  r.isFirst_drawTypeName_of_injective outer .numerals start
    (Name.fold_numeral_injective r.options.mixedCase outer)

/-- An ordinary name is the prefix with a candidate, and was not reserved. -/
theorem ordinaryName_fst :
    ∃ k candidate, r.options.typeSequence.nameAt? k = some candidate ∧
      (r.ordinaryName outer).1 = outer ++ candidate ∧
      r.isReserved (r.ordinaryName outer).1 = false := by
  have h := r.isFirst_drawTypeName outer (r.typePositions.getD outer 0)
  exact ⟨_, _, h.entry, rfl, by simpa [ordinaryName] using h.passes⟩

/-- A numbered name is the prefix with a numeral, and was not reserved. -/
theorem numberedName_fst :
    ∃ k, (r.numberedName outer).1 = outer ++ numeral k ∧
      r.isReserved (r.numberedName outer).1 = false := by
  have h := r.isFirst_drawTypeName_numerals outer (r.numeralPositions.getD outer 0)
  have hname : (r.drawTypeName .numerals outer (r.numeralPositions.getD outer 0)).name =
      numeral ((r.drawTypeName .numerals outer (r.numeralPositions.getD outer 0)).next - 1) :=
    (Option.some.inj h.entry).symm
  exact ⟨_, congrArg (outer ++ ·) hname, by simpa [numberedName] using h.passes⟩

@[simp] lemma reserved_ordinaryName :
    (r.ordinaryName outer).2.reserved = r.reserved.insert (r.fold (r.ordinaryName outer).1) := rfl

@[simp] lemma reserved_numberedName :
    (r.numberedName outer).2.reserved = r.reserved.insert (r.fold (r.numberedName outer).1) := rfl

lemma isReserved_ordinaryName :
    (r.ordinaryName outer).2.isReserved (r.ordinaryName outer).1 = true :=
  (isReserved_reserve r _ _).2 (.inl rfl)

lemma isReserved_numberedName :
    (r.numberedName outer).2.isReserved (r.numberedName outer).1 = true :=
  (isReserved_reserve r _ _).2 (.inl rfl)

@[simp] lemma newPrefix?_ordinaryName (other : String) :
    (r.ordinaryName outer).2.newPrefix? other = r.newPrefix? other := rfl

@[simp] lemma newPrefix?_numberedName (other : String) :
    (r.numberedName outer).2.newPrefix? other = r.newPrefix? other := rfl

end Registry
end Pseudonym
