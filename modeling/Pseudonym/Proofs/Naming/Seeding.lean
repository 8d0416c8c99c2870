import Pseudonym.Proofs.Model.Growth
import Pseudonym.Proofs.Naming.Steps

/-!
# What the registry of a model knows

At the beginning of a pass everything that a registry knows comes from settled names.  Each of them
is reserved, and each settles some prefixes; `seeds` lists the prefixes that a list of settled names
settles, in the order in which they are recorded.

The new prefix of a namespace is the last of its seeds (`newPrefix?_ofModel`).  The others are not
lost entirely: what they say is taken all the same (`mem_taken_ofModel`).
-/

namespace Pseudonym

namespace NamingOptions

/-- The prefixes that settled names settle, with their new ones, in the order of the names. -/
def seeds (o : NamingOptions) (settled : List (String × String)) : List (String × String) :=
  settled.flatMap fun (name, newName) => o.settledPrefixes name newName

lemma mem_seeds {o : NamingOptions} {settled : List (String × String)} {pair : String × String} :
    pair ∈ o.seeds settled ↔
      ∃ name newName, (name, newName) ∈ settled ∧ pair ∈ o.settledPrefixes name newName := by
  rw [seeds, List.mem_flatMap, Prod.exists]

/-- What a settled name says about its own namespace comes first, if anything follows it. -/
lemma mem_settledPrefixes_self {o : NamingOptions} (h : o.follows = true) (name newName : String) :
    (Name.namespacePrefix name, Name.namespacePrefix newName) ∈ o.settledPrefixes name newName := by
  rw [settledPrefixes, if_pos h]
  exact List.mem_cons_self

/-- Without what is around them, namespaces are settled only by the types that they hold. -/
lemma settledPrefixes_of_not_followsOutwards {o : NamingOptions} (h : o.follows = true)
    (hout : o.followsOutwards = false) (name newName : String) :
    o.settledPrefixes name newName =
      [(Name.namespacePrefix name, Name.namespacePrefix newName)] := by
  simp [settledPrefixes, h, hout]

/-- A namespace is settled to go to a namespace. -/
lemma isPrefix_of_mem_settledPrefixes {o : NamingOptions} {name newName outer newOuter : String}
    (h : (outer, newOuter) ∈ o.settledPrefixes name newName) : Name.IsPrefix newOuter := by
  unfold settledPrefixes at h
  split at h
  · rcases List.mem_cons.1 h with hself | haround
    · obtain ⟨-, rfl⟩ := Prod.mk.inj hself
      exact Name.isPrefix_namespacePrefix newName
    · split at haround
      · have hzip := (List.takeWhile_sublist _).mem haround
        exact Name.isPrefix_of_mem_enclosingPrefixes (List.of_mem_zip hzip).2
      · simp at haround
  · simp at h

/-- A settled type that stays in its namespace makes that namespace and those around it stay. -/
lemma eq_of_mem_settledPrefixes {o : NamingOptions} {name newName outer newOuter : String}
    (hstays : Name.namespacePrefix newName = Name.namespacePrefix name)
    (h : (outer, newOuter) ∈ o.settledPrefixes name newName) : newOuter = outer := by
  rw [settledPrefixes] at h
  split at h
  · rcases List.mem_cons.1 h with hself | haround
    · obtain ⟨rfl, rfl⟩ := Prod.mk.inj hself
      exact hstays
    · split at haround
      · have hzip := (List.takeWhile_sublist _).mem haround
        rw [hstays] at hzip
        -- Level by level, both sides are the same.
        obtain ⟨i, hi, hpair⟩ := List.mem_iff_getElem.1 hzip
        rw [List.getElem_zip] at hpair
        obtain ⟨rfl, rfl⟩ := Prod.mk.inj hpair
        rfl
      · exact absurd haround List.not_mem_nil
  · exact absurd h List.not_mem_nil

lemma isPrefix_of_mem_seeds {o : NamingOptions} {settled : List (String × String)}
    {outer newOuter : String} (h : (outer, newOuter) ∈ o.seeds settled) :
    Name.IsPrefix newOuter := by
  obtain ⟨name, newName, -, hmem⟩ := mem_seeds.1 h
  exact isPrefix_of_mem_settledPrefixes hmem

lemma mem_seeds_of_lastSeed {o : NamingOptions} {settled : List (String × String)}
    {outer newOuter : String} (h : (o.seeds settled).reverse.lookup outer = some newOuter) :
    (outer, newOuter) ∈ o.seeds settled := by
  obtain ⟨before, after, heq, -⟩ := List.lookup_eq_some_iff.1 h
  rw [← List.mem_reverse, heq]
  exact List.mem_append_right _ List.mem_cons_self

end NamingOptions

namespace Registry

/-! ## Recording pairs of prefixes -/

/-- Records pairs of prefixes in order. -/
def recordAll (r : Registry) (pairs : List (String × String)) : Registry :=
  pairs.foldl (fun r (p, q) => r.record p q) r

@[simp] lemma recordAll_append_singleton (r : Registry) (pairs : List (String × String))
    (outer newOuter : String) :
    r.recordAll (pairs ++ [(outer, newOuter)]) = (r.recordAll pairs).record outer newOuter := by
  simp [recordAll]

/-- The last pair for a prefix has it. -/
lemma newPrefix?_recordAll (r : Registry) (pairs : List (String × String)) (outer : String) :
    (r.recordAll pairs).newPrefix? outer =
      (pairs.reverse.lookup outer).or (r.newPrefix? outer) := by
  induction pairs using List.reverseRecOn with
  | nil => rfl
  | append_singleton pairs pair ih =>
    obtain ⟨other, newOther⟩ := pair
    rw [recordAll_append_singleton, newPrefix?_record, List.reverse_append, List.reverse_singleton,
      List.singleton_append, List.lookup_cons]
    rcases eq_or_ne outer other with rfl | hne
    · simp
    · rw [if_neg (Ne.symm hne), ih, beq_false_of_ne hne]

lemma mem_taken_recordAll (r : Registry) (pairs : List (String × String)) (newOuter : String) :
    newOuter ∈ (r.recordAll pairs).taken ↔
      newOuter ∈ pairs.map Prod.snd ∨ newOuter ∈ r.taken := by
  induction pairs using List.reverseRecOn with
  | nil => simp [recordAll]
  | append_singleton pairs pair ih =>
    obtain ⟨other, newOther⟩ := pair
    rw [recordAll_append_singleton, mem_taken_record, ih]
    simp only [List.map_append, List.map_cons, List.map_nil, List.mem_append, List.mem_singleton]
    tauto

/-- Nothing else changes. -/
lemma recordAll_eq (r : Registry) (pairs : List (String × String)) :
    r.recordAll pairs =
      { r with
        prefixes := (r.recordAll pairs).prefixes
        taken := (r.recordAll pairs).taken } := by
  induction pairs using List.reverseRecOn with
  | nil => rfl
  | append_singleton pairs pair ih =>
    rw [recordAll_append_singleton, ih]
    rfl

/-! ## Reserving settled names -/

/-- Reserves the new names of a list of settled names. -/
def reserveAll (r : Registry) (settled : List (String × String)) : Registry :=
  settled.foldl (fun r pair => r.reserve pair.2) r

/-- Nothing but what is reserved changes. -/
lemma reserveAll_eq (r : Registry) (settled : List (String × String)) :
    r.reserveAll settled = { r with reserved := (r.reserveAll settled).reserved } := by
  induction settled generalizing r with
  | nil => rfl
  | cons pair settled ih =>
    rw [reserveAll, List.foldl_cons, ← reserveAll, ih]
    rfl

lemma isReserved_reserveAll (r : Registry) (settled : List (String × String)) (name : String) :
    (r.reserveAll settled).isReserved name = true ↔
      (∃ pair ∈ settled, r.fold pair.2 = r.fold name) ∨ r.isReserved name = true := by
  induction settled generalizing r with
  | nil => simp [reserveAll]
  | cons pair settled ih =>
    rw [reserveAll, List.foldl_cons, ← reserveAll, ih, isReserved_reserve, List.exists_mem_cons_iff]
    exact or_left_comm.trans or_assoc.symm

lemma reserve_recordAll (r : Registry) (pairs : List (String × String)) (name : String) :
    (r.recordAll pairs).reserve name = (r.reserve name).recordAll pairs := by
  induction pairs using List.reverseRecOn with
  | nil => rfl
  | append_singleton pairs pair ih =>
    rw [recordAll_append_singleton, recordAll_append_singleton, ← ih]
    rfl

/-! ## The registry of a model -/

/-- Reserving and recording do not get in the way of each other, so all names could be reserved
first and all prefixes recorded after that. -/
lemma foldl_settle (r : Registry) (settled : List (String × String)) :
    settled.foldl (fun r (name, newName) => r.settle name newName) r =
      (r.reserveAll settled).recordAll (r.options.seeds settled) := by
  induction settled using List.reverseRecOn with
  | nil => rfl
  | append_singleton settled pair ih =>
    obtain ⟨name, newName⟩ := pair
    have hoptions : ((r.reserveAll settled).recordAll (r.options.seeds settled)).options =
        r.options := by
      rw [recordAll_eq, reserveAll_eq]
    have hsettle : ∀ s : Registry, s.settle name newName =
        (s.reserve newName).recordAll (s.options.settledPrefixes name newName) := fun _ => rfl
    rw [List.foldl_append, ih]
    simp only [List.foldl_cons, List.foldl_nil]
    rw [hsettle, hoptions, reserve_recordAll]
    simp [reserveAll, recordAll, NamingOptions.seeds]

variable (m : Model) (o : NamingOptions) (memberSequence : Name.Sequence)

theorem ofModel_eq :
    ofModel m o memberSequence =
      ((blank o memberSequence).reserveAll m.settledNames).recordAll (o.seeds m.settledNames) :=
  foldl_settle _ _

@[simp] lemma options_ofModel : (ofModel m o memberSequence).options = o := by
  rw [ofModel_eq, recordAll_eq, reserveAll_eq]
  rfl

variable {m o memberSequence} in
/-- In the course of a run the options stay what they are. -/
lemma Steps.options_eq {r : Registry} (h : Steps (ofModel m o memberSequence) r) :
    r.options = o := by
  rw [h.extends.options, options_ofModel]

@[simp] lemma currentScope_ofModel : (ofModel m o memberSequence).currentScope = none := by
  rw [ofModel_eq, recordAll_eq, reserveAll_eq]
  rfl

/-- The fold of every settled name is reserved, and that of no other name. -/
theorem isReserved_ofModel (name : String) :
    (ofModel m o memberSequence).isReserved name = true ↔
      ∃ d ∈ m.types, d.isSettled = true ∧
        Name.fold o.mixedCase d.currentName = Name.fold o.mixedCase name := by
  have hrecord : (ofModel m o memberSequence).isReserved name =
      ((blank o memberSequence).reserveAll m.settledNames).isReserved name := by
    rw [ofModel_eq, recordAll_eq]
    rfl
  have hblank : (blank o memberSequence).isReserved name = false := by
    simp [isReserved, blank, record]
  rw [hrecord, isReserved_reserveAll, hblank, Prod.exists]
  simp only [Model.mem_settledNames, Bool.false_eq_true, or_false]
  constructor
  · rintro ⟨-, -, ⟨d, hd, hsettled, -, rfl⟩, hfold⟩
    exact ⟨d, hd, hsettled, hfold⟩
  · rintro ⟨d, hd, hsettled, hfold⟩
    exact ⟨_, _, ⟨d, hd, hsettled, rfl, rfl⟩, hfold⟩

/-- The new prefix of a namespace is what its last seed says. -/
theorem newPrefix?_ofModel (outer : String) :
    (ofModel m o memberSequence).newPrefix? outer =
      ((o.seeds m.settledNames).reverse.lookup outer).or
        (if "" = outer then some "" else none) := by
  rw [ofModel_eq, newPrefix?_recordAll, reserveAll_eq]
  exact congrArg _ (newPrefix?_blank o memberSequence outer)

/-- The root always has a new prefix. -/
lemma ne_empty_of_unknown {outer : String}
    (h : (ofModel m o memberSequence).newPrefix? outer = none) : outer ≠ "" := by
  rintro rfl
  rw [newPrefix?_ofModel] at h
  simp at h

/-- What any seed says is taken, also where a later seed says something else. -/
theorem mem_taken_ofModel (newOuter : String) :
    newOuter ∈ (ofModel m o memberSequence).taken ↔
      newOuter ∈ (o.seeds m.settledNames).map Prod.snd ∨ newOuter = "" := by
  have hblank : newOuter ∈ (blank o memberSequence).taken ↔ newOuter = "" := by
    rw [blank, mem_taken_record]
    simp [eq_comm]
  rw [ofModel_eq, mem_taken_recordAll, reserveAll_eq]
  exact or_congr_right hblank

/-- No sequence has been followed yet. -/
theorem caughtUp_ofModel : (ofModel m o memberSequence).CaughtUp := by
  rw [ofModel_eq, recordAll_eq, reserveAll_eq]
  exact ⟨fun h => by simp [blank, record] at h, fun h => by simp [blank, record] at h,
    fun h => by simp [blank, record] at h⟩

end Registry
end Pseudonym
