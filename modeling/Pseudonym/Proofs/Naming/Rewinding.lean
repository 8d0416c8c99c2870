import Pseudonym.Proofs.Naming.Steps

/-!
# Naming without positions

A registry remembers for each prefix how far its sequences have been followed.  Here is the same
registry without this memory.  It draws `anew`: every single draw begins with the first candidate of
the prefix, and the position that it reaches is forgotten at once.

Both give the same answers and know the same afterwards (`newPrefixAnew_rewound` and what follows
it), as long as the positions are right (`CaughtUp`).  What is drawn from a position is then what is
drawn from the beginning, for a draw from the beginning has only one outcome.
-/

namespace Pseudonym
namespace Registry

open Name (Sequence)

variable {r : Registry}

/-- The registry with all sequences at their beginning. -/
def rewound (r : Registry) : Registry :=
  { r with segmentPositions := ∅, typePositions := ∅, numeralPositions := ∅ }

@[simp] lemma options_rewound (r : Registry) : r.rewound.options = r.options := rfl

@[simp] lemma newPrefix?_rewound (r : Registry) (outer : String) :
    r.rewound.newPrefix? outer = r.newPrefix? outer := rfl

/-- Before any sequence is followed, no candidate is passed over. -/
lemma caughtUp_rewound (r : Registry) : r.rewound.CaughtUp :=
  ⟨fun h => by simp [rewound] at h, fun h => by simp [rewound] at h,
    fun h => by simp [rewound] at h⟩

/-! ## The answers of a registry without positions -/

/-- Makes a draw from the beginning of a sequence, and forgets how far it went. -/
def anew (draw : Registry → String × Registry) (r : Registry) : String × Registry :=
  Prod.map id rewound (draw r.rewound)

/-- The new prefix of the first of some namespace prefixes, each followed by its parent, when every
segment is drawn anew. -/
def resolveAnew (r : Registry) : List String → String × Registry
  | [] => ("", r)
  | outer :: parents =>
    match r.newPrefix? outer with
    | some newOuter => (newOuter, r)
    | none =>
      if r.options.keepsPrefix outer then (outer, r)
      else match r.options.repackageTarget? with
        | some target => (target, r)
        | none => match r.options.flattenTarget? with
          | some target => r.anew (createPrefix · outer target)
          | none =>
            let (newParent, r) := r.resolveAnew parents
            r.anew (createPrefix · outer newParent)

/-- The new prefix of a namespace prefix, when every segment is drawn anew. -/
def newPrefixAnew (r : Registry) (outer : String) : String × Registry :=
  r.resolveAnew (outer :: Name.enclosingPrefixes outer)

/-- A new name for a type that lies in no other, drawn anew. -/
def nameTopLevelAnew (r : Registry) (oldName : String) : String × Registry :=
  let (outer, r) := r.newPrefixAnew (Name.namespacePrefix oldName)
  r.anew (ordinaryName · outer)

/-- A new name for a type inside another, drawn anew. -/
def nameNestedAnew (r : Registry) (enclosing : String) : String × Registry :=
  r.anew (ordinaryName · (Name.prefixInside enclosing))

/-- A new numbered name for a type inside another, drawn anew. -/
def nameNumberedAnew (r : Registry) (enclosing : String) : String × Registry :=
  r.anew (numberedName · (Name.prefixInside enclosing))

/-! ## Single draws -/

/-- The segment that is next in turn is the one that a draw from the beginning ends at. -/
lemma freshPrefix_rewound (h : r.CaughtUp) (newParent : String) :
    r.rewound.freshPrefix newParent = r.freshPrefix newParent := by
  have hdraw : r.rewound.segmentDraw newParent = r.segmentDraw newParent :=
    (r.caughtUp_rewound.isFirst_segmentDraw newParent).eq (h.isFirst_segmentDraw newParent)
  rw [freshPrefix, freshPrefix, hdraw]

lemma anew_createPrefix (h : r.CaughtUp) (outer newParent : String) :
    r.rewound.anew (createPrefix · outer newParent) =
      Prod.map id rewound (r.createPrefix outer newParent) := by
  have hsame := freshPrefix_rewound h newParent
  show (r.rewound.freshPrefix newParent,
      (r.record outer (r.rewound.freshPrefix newParent)).rewound) =
    (r.freshPrefix newParent, (r.record outer (r.freshPrefix newParent)).rewound)
  rw [hsame]

lemma anew_ordinaryName (h : r.CaughtUp) (outer : String) :
    r.rewound.anew (ordinaryName · outer) = Prod.map id rewound (r.ordinaryName outer) := by
  have hdraw : r.rewound.drawTypeName r.options.typeSequence outer
      (r.rewound.typePositions.getD outer 0) =
        r.drawTypeName r.options.typeSequence outer (r.typePositions.getD outer 0) :=
    (r.caughtUp_rewound.isFirst_drawTypeName outer).eq (h.isFirst_drawTypeName outer)
  have hname : (r.rewound.ordinaryName outer).1 = (r.ordinaryName outer).1 :=
    congrArg (fun drawn : Sequence.Drawn => outer ++ drawn.name) hdraw
  show ((r.rewound.ordinaryName outer).1, (r.reserve (r.rewound.ordinaryName outer).1).rewound) =
    ((r.ordinaryName outer).1, (r.reserve (r.ordinaryName outer).1).rewound)
  rw [hname]

lemma anew_numberedName (h : r.CaughtUp) (outer : String) :
    r.rewound.anew (numberedName · outer) = Prod.map id rewound (r.numberedName outer) := by
  have hdraw : r.rewound.drawTypeName .numerals outer
      (r.rewound.numeralPositions.getD outer 0) =
        r.drawTypeName .numerals outer (r.numeralPositions.getD outer 0) :=
    (r.caughtUp_rewound.isFirst_drawTypeName_numerals outer).eq
      (h.isFirst_drawTypeName_numerals outer)
  have hname : (r.rewound.numberedName outer).1 = (r.numberedName outer).1 :=
    congrArg (fun drawn : Sequence.Drawn => outer ++ drawn.name) hdraw
  show ((r.rewound.numberedName outer).1, (r.reserve (r.rewound.numberedName outer).1).rewound) =
    ((r.numberedName outer).1, (r.reserve (r.numberedName outer).1).rewound)
  rw [hname]

/-! ## Answers -/

lemma CaughtUp.resolve (h : r.CaughtUp) (outers : List String) : (r.resolve outers).2.CaughtUp := by
  induction outers with
  | nil => exact h
  | cons outer parents ih =>
    rw [Registry.resolve]
    split
    · exact h
    · split
      · exact h
      · split
        · exact h
        · split
          · exact h.createPrefix outer _
          · exact ih.createPrefix outer _

/-- The walk over the enclosing prefixes goes the same way and has the same outcome. -/
theorem resolveAnew_rewound (h : r.CaughtUp) (outers : List String) :
    r.rewound.resolveAnew outers = Prod.map id rewound (r.resolve outers) := by
  induction outers with
  | nil => rfl
  | cons outer parents ih =>
    rw [resolveAnew, Registry.resolve, newPrefix?_rewound, options_rewound]
    cases r.newPrefix? outer with
    | some newOuter => rfl
    | none =>
      cases r.options.keepsPrefix outer with
      | true => rfl
      | false =>
        cases r.options.repackageTarget? with
        | some target => rfl
        | none =>
          cases r.options.flattenTarget? with
          | some target => exact anew_createPrefix h outer target
          | none =>
            simp only [ih]
            exact anew_createPrefix (h.resolve parents) outer (r.resolve parents).1

theorem newPrefixAnew_rewound (h : r.CaughtUp) (outer : String) :
    r.rewound.newPrefixAnew outer = Prod.map id rewound (r.newPrefix outer) :=
  resolveAnew_rewound h _

theorem nameTopLevelAnew_rewound (h : r.CaughtUp) (oldName : String) :
    r.rewound.nameTopLevelAnew oldName = Prod.map id rewound (r.nameTopLevel oldName) := by
  have hdecided := h.steps (r.newPrefix_steps (Name.namespacePrefix oldName))
  simp only [nameTopLevelAnew, newPrefixAnew_rewound h]
  exact anew_ordinaryName hdecided _

theorem nameNestedAnew_rewound (h : r.CaughtUp) (enclosing : String) :
    r.rewound.nameNestedAnew enclosing = Prod.map id rewound (r.nameNested enclosing) :=
  anew_ordinaryName h _

theorem nameNumberedAnew_rewound (h : r.CaughtUp) (enclosing : String) :
    r.rewound.nameNumberedAnew enclosing = Prod.map id rewound (r.nameNumbered enclosing) :=
  anew_numberedName h _

/-! ## Scopes

The sequence of member names has a position of its own, which is left as it is. -/

lemma enterScope_rewound (r : Registry) (scope : Scope) :
    r.rewound.enterScope scope = (r.enterScope scope).map rewound := by
  have hscope : r.rewound.currentScope = r.currentScope := rfl
  rw [enterScope, enterScope, hscope]
  cases r.currentScope with
  | none => rfl
  | some current => rfl

lemma leaveScope_rewound (r : Registry) (scope : Scope) :
    r.rewound.leaveScope scope = (r.leaveScope scope).map rewound := by
  have hscope : r.rewound.currentScope = r.currentScope := rfl
  rw [leaveScope, leaveScope, hscope]
  split
  · rfl
  · rfl

lemma nextInScope_rewound (r : Registry) (scope : Scope) :
    r.rewound.nextInScope scope = (r.nextInScope scope).map (Prod.map id rewound) := by
  have hscope : r.rewound.currentScope = r.currentScope := rfl
  rw [nextInScope, nextInScope, hscope]
  split
  · rfl
  · rfl

/-! ## The first free name -/

/-- Whether a name is made of a prefix and the first candidate with which it is not reserved. -/
def IsFirstName (r : Registry) (candidates : Sequence) (outer name : String) : Prop :=
  ∃ k candidate, candidates.nameAt? k = some candidate ∧ name = outer ++ candidate ∧
    r.isReserved name = false ∧
    ∀ j < k, ∀ other, candidates.nameAt? j = some other → r.isReserved (outer ++ other) = true

lemma isFirstName_of_isFirst {candidates : Sequence} {outer : String} {drawn : Sequence.Drawn}
    (h : candidates.IsFirst (fun name => !r.isReserved (outer ++ name)) 0 drawn) :
    r.IsFirstName candidates outer (outer ++ drawn.name) := by
  have hfree : r.isReserved (outer ++ drawn.name) = false := by simpa using h.passes
  refine ⟨_, _, h.entry, rfl, hfree, fun j hj other hother => ?_⟩
  simpa using h.refused j (Nat.zero_le j) hj other hother

theorem isFirstName_ordinaryName (h : r.CaughtUp) (outer : String) :
    r.IsFirstName r.options.typeSequence outer (r.ordinaryName outer).1 :=
  isFirstName_of_isFirst (h.isFirst_drawTypeName outer)

theorem isFirstName_numberedName (h : r.CaughtUp) (outer : String) :
    r.IsFirstName .numerals outer (r.numberedName outer).1 :=
  isFirstName_of_isFirst (h.isFirst_drawTypeName_numerals outer)

/-- The new prefix of the namespace is decided before the name below it is drawn. -/
theorem isFirstName_nameTopLevel (h : r.CaughtUp) (oldName : String) :
    (r.newPrefix (Name.namespacePrefix oldName)).2.IsFirstName r.options.typeSequence
      (r.newPrefix (Name.namespacePrefix oldName)).1 (r.nameTopLevel oldName).1 := by
  set decided := (r.newPrefix (Name.namespacePrefix oldName)).2 with hdecided
  have hsteps : Steps r decided := r.newPrefix_steps (Name.namespacePrefix oldName)
  have hfirst : decided.IsFirstName decided.options.typeSequence
      (r.newPrefix (Name.namespacePrefix oldName)).1 (r.nameTopLevel oldName).1 :=
    isFirstName_ordinaryName (h.steps hsteps) _
  rwa [hsteps.extends.options] at hfirst

end Registry
end Pseudonym
