import Std.Data.HashMap
import Pseudonym.Proofs.Model.History

/-!
# Models with an index

To look an old name up, a model goes through its types.  An `IndexedModel` has an index for this, in
which a number is a word of 32 bits.  Types and index are apart from each other, and only adding a
type changes both: the index is extended first and the types after that, once it is clear that the
type is not refused.  Whatever else is done to a model changes its types and leaves the index alone.

`IsCoherent` says that the index answers as going through the types does.  It holds in the
beginning, and every `Change` keeps it, be it carried out or refused (`IsCoherent.after`).  As long
as the numbers fit into their words, an old name therefore leads to the type that bears it and to no
other (`IsCoherent.lookup_eq_some_iff`).
-/

namespace Pseudonym

/-- A model with an index of its old names. -/
structure IndexedModel where
  model : Model
  index : Std.HashMap String UInt32

namespace IndexedModel

/-- The model without types, and its index. -/
def empty : IndexedModel := ⟨.empty, ∅⟩

/-- The type with a number. -/
def get (a : IndexedModel) (id : UInt32) : Except Misuse KnownType :=
  a.model.get id.toNat

/-- The number of the type with an old name. -/
def lookup (a : IndexedModel) (name : String) : Option UInt32 :=
  a.index[name]?

/-- Adds a type, and gives its number. -/
def add (d : KnownType) : ExceptT ModelError (StateM IndexedModel) UInt32 := do
  let a ← MonadState.get
  if d.name = "" then throw .emptyTypeName
  else if a.index.contains d.name then throw (.duplicateType d.name)
  else do
    let id := UInt32.ofNat a.model.size
    modify fun a => { a with index := a.index.insert d.name id }
    modify fun a => { a with model := { a.model with types := a.model.types.push d } }
    return id

/-- Adds types one after the other, up to the first that is refused. -/
def addAll : List KnownType → ExceptT ModelError (StateM IndexedModel) Unit
  | [] => return ()
  | d :: rest => do
    let _ ← add d
    addAll rest

/-- Makes a model with an index from the file form of the model. -/
def ofFile (file : ModelFile) : Except ModelError IndexedModel :=
  let (answer, a) := (addAll (file.program.map .program ++ file.library.map .library)).run.run empty
  answer.map fun _ => { a with model := { a.model with modules := file.modules } }

/-- What may be done to a model. -/
inductive Change where
  | addType (d : KnownType)
  | addModule (descriptor : Named)
  | assign (id : UInt32) (newName : String)
  | pass (options : PassOptions)

/-- The model after a change, which may have been refused. -/
def after (a : IndexedModel) : Change → IndexedModel
  | .addType d => ((add d).run.run a).2
  | .addModule descriptor => { a with model := a.model.addModule descriptor }
  | .assign id newName =>
    match a.model.assign id.toNat newName with
    | .ok m => { a with model := m }
    | .error _ => a
  | .pass options =>
    match a.model.rename options with
    | .ok s => { a with model := s.model }
    | .error _ => a

/-- The model after changes one after the other. -/
def afterAll (a : IndexedModel) (changes : List Change) : IndexedModel :=
  changes.foldl after a

variable {a b : IndexedModel} {d : KnownType} {id : UInt32} {name : String}

/-! ## Coherence -/

/-- Whether the model can come about, and its index answers as going through the types does. -/
structure IsCoherent (a : IndexedModel) : Prop where
  reachable : a.model.IsReachable
  index : ∀ name, a.index[name]? = (a.model.lookup name).map UInt32.ofNat

lemma isCoherent_empty : empty.IsCoherent where
  reachable := .empty
  index name := by simp [empty, Model.empty, Model.lookup]

lemma run_get_bind {α : Type} (next : IndexedModel → ExceptT ModelError (StateM IndexedModel) α)
    (a : IndexedModel) : (MonadState.get >>= next).run.run a = (next a).run.run a := rfl

/-- What an addition does, all at once. -/
lemma add_run (a : IndexedModel) (d : KnownType) :
    (add d).run.run a =
      if d.name = "" then (.error .emptyTypeName, a)
      else if a.index.contains d.name then (.error (.duplicateType d.name), a)
      else (.ok (UInt32.ofNat a.model.size),
        ⟨{ a.model with types := a.model.types.push d },
          a.index.insert d.name (UInt32.ofNat a.model.size)⟩) := by
  rw [add, run_get_bind]
  by_cases hname : d.name = ""
  · rw [if_pos hname, if_pos hname]
    rfl
  · by_cases hknown : a.index.contains d.name
    · rw [if_neg hname, if_neg hname, if_pos hknown, if_pos hknown]
      rfl
    · rw [if_neg hname, if_neg hname, if_neg hknown, if_neg hknown]
      rfl

lemma contains_iff (h : a.IsCoherent) (name : String) :
    a.index.contains name = (a.model.lookup name).isSome := by
  rw [Std.HashMap.contains_eq_isSome_getElem?, h.index, Option.isSome_map]

/-- An addition is accepted or refused as it would be without an index, and what is refused leaves
everything as it was. -/
theorem IsCoherent.add_cases (h : a.IsCoherent) (d : KnownType) :
    (∃ m, a.model.add d = .ok (a.model.size, m) ∧ (add d).run.run a =
      (.ok (UInt32.ofNat a.model.size),
        ⟨m, a.index.insert d.name (UInt32.ofNat a.model.size)⟩)) ∨
    ∃ e, a.model.add d = .error e ∧ (add d).run.run a = (.error e, a) := by
  rw [add_run, contains_iff h, Model.add]
  split
  · exact .inr ⟨_, rfl, rfl⟩
  · split
    · exact .inr ⟨_, rfl, rfl⟩
    · exact .inl ⟨_, rfl, rfl⟩

end IndexedModel

lemma Model.lookup_push {m : Model} {d : KnownType} (hnew : ∀ d' ∈ m.types, d'.name ≠ d.name)
    (name : String) : Model.lookup { m with types := m.types.push d } name =
      if d.name = name then some m.size else m.lookup name := by
  have hpush : Model.lookup { m with types := m.types.push d } name =
      (m.lookup name).or (if d.name = name then some m.size else none) := by
    rw [lookup, Array.findIdx?_push, lookup, size]
    simp only [decide_eq_true_eq]
  rw [hpush]
  split
  · subst name
    rw [lookup_eq_none_iff.2 hnew, Option.none_or]
  · rw [Option.or_none]

namespace IndexedModel

variable {a b : IndexedModel} {d : KnownType} {id : UInt32} {name : String}

lemma IsCoherent.extended (h : a.IsCoherent) {m : Model}
    (hadd : a.model.add d = .ok (a.model.size, m)) :
    IsCoherent ⟨m, a.index.insert d.name (UInt32.ofNat a.model.size)⟩ where
  reachable := h.reachable.step (.add hadd)
  index name := by
    obtain ⟨-, rfl, -, hnew⟩ := Model.add_cases hadd
    rw [Std.HashMap.getElem?_insert, h.index, Model.lookup_push hnew]
    by_cases hname : d.name = name
    · simp [hname]
    · simp [hname]

/-- What leaves the old names as they are goes with the same index. -/
lemma IsCoherent.of_oldNames (h : a.IsCoherent) {m : Model} (hstep : a.model.Step m)
    (hnames : m.oldNames = a.model.oldNames) : IsCoherent { a with model := m } where
  reachable := h.reachable.step hstep
  index name := by rw [Model.lookup_of_map_name hnames, h.index]

/-- Whatever is done to a model, its index stays right. -/
theorem IsCoherent.after (h : a.IsCoherent) (change : Change) : (a.after change).IsCoherent := by
  cases change with
  | addType d =>
    rcases h.add_cases d with ⟨m, hadd, hrun⟩ | ⟨e, -, hrun⟩
    · rw [IndexedModel.after, hrun]
      exact h.extended hadd
    · rw [IndexedModel.after, hrun]
      exact h
  | addModule descriptor => exact h.of_oldNames (.addModule _ descriptor) rfl
  | assign id newName =>
    rw [IndexedModel.after]
    split
    · rename_i m hassign
      exact h.of_oldNames (.assign hassign) (Model.oldNames_assign hassign)
    · exact h
  | pass options =>
    rw [IndexedModel.after]
    split
    · rename_i s hpass
      exact h.of_oldNames (.pass hpass) (Model.oldNames_rename hpass)
    · exact h

theorem IsCoherent.afterAll (h : a.IsCoherent) (changes : List Change) :
    (a.afterAll changes).IsCoherent := by
  induction changes generalizing a with
  | nil => exact h
  | cons change rest ih => exact ih (h.after change)

/-! ## Numbers that fit -/

lemma IsCoherent.isSound (h : a.IsCoherent) : a.model.IsSound := h.reachable.isSound

lemma exists_get_iff : (∃ d, a.get id = .ok d) ↔ id.toNat < a.model.size := by
  simp only [get, Model.get_eq_ok_iff]
  constructor
  · rintro ⟨d, hd⟩
    exact (Array.getElem?_eq_some_iff.1 hd).1
  · intro hid
    exact ⟨_, Array.getElem?_eq_getElem hid⟩

/-- An old name leads to the number of the type that bears it, if numbers fit into their words. -/
theorem IsCoherent.lookup_eq_some_iff (h : a.IsCoherent) (hsize : a.model.size < 2 ^ 32) :
    a.lookup name = some id ↔ ∃ d, a.get id = .ok d ∧ d.name = name := by
  simp only [IndexedModel.lookup, h.index, get, Model.get_eq_ok_iff, Option.map_eq_some_iff]
  constructor
  · rintro ⟨number, hnumber, rfl⟩
    obtain ⟨d, hd, hname⟩ := Model.lookup_eq_some hnumber
    have hlt : number < a.model.size := (Array.getElem?_eq_some_iff.1 hd).1
    have hfits : (UInt32.ofNat number).toNat = number :=
      UInt32.toNat_ofNat_of_lt' (Nat.lt_trans hlt hsize)
    exact ⟨d, hfits.symm ▸ hd, hname⟩
  · rintro ⟨d, hd, rfl⟩
    exact ⟨id.toNat, h.isSound.lookup hd, UInt32.ofNat_toNat⟩

/-! ## Reading a file -/

lemma addAll_cons_run (a : IndexedModel) (d : KnownType) (rest : List KnownType) :
    (addAll (d :: rest)).run.run a =
      match (add d).run.run a with
      | (.ok _, b) => (addAll rest).run.run b
      | (.error e, b) => (.error e, b) := by
  rw [addAll, ExceptT.run_bind, StateT.run_bind]
  cases (add d).run.run a with
  | mk answer b => cases answer <;> rfl

/-- Adding types one after the other comes to an end at the same type, or goes through, as without
an index. -/
lemma IsCoherent.addAll_cases (h : a.IsCoherent) (types : List KnownType) :
    (∃ b, b.IsCoherent ∧ a.model.addAll types = .ok b.model ∧
      (addAll types).run.run a = (.ok (), b)) ∨
    ∃ e b, a.model.addAll types = .error e ∧ (addAll types).run.run a = (.error e, b) := by
  induction types generalizing a with
  | nil => exact .inl ⟨a, h, rfl, rfl⟩
  | cons d rest ih =>
    rw [Model.addAll_cons, addAll_cons_run]
    rcases h.add_cases d with ⟨m, hadd, hrun⟩ | ⟨e, hadd, hrun⟩
    · rw [hadd, hrun]
      exact ih (h.extended hadd)
    · rw [hadd, hrun]
      exact .inr ⟨e, a, rfl, rfl⟩

lemma IsCoherent.withModules (h : a.IsCoherent) (modules : List Named) :
    IsCoherent { a with model := { a.model with modules } } where
  reachable := Model.isReachable_iff.2 ⟨h.isSound.nonempty, h.isSound.distinct⟩
  index := h.index

/-- A file is read or refused as without an index, and the index of what is read is right. -/
theorem ofFile_cases (file : ModelFile) :
    (∃ a, a.IsCoherent ∧ Model.ofFile file = .ok a.model ∧ ofFile file = .ok a) ∨
      ∃ e, Model.ofFile file = .error e ∧ ofFile file = .error e := by
  rw [Model.ofFile, ofFile]
  rcases isCoherent_empty.addAll_cases (file.program.map .program ++ file.library.map .library)
    with ⟨b, hb, hadd, hrun⟩ | ⟨e, b, hadd, hrun⟩
  · have hadd' : Model.empty.addAll _ = _ := hadd
    rw [hadd', hrun]
    exact .inl ⟨_, hb.withModules file.modules, rfl, rfl⟩
  · have hadd' : Model.empty.addAll _ = _ := hadd
    rw [hadd', hrun]
    exact .inr ⟨e, rfl, rfl⟩

end IndexedModel
end Pseudonym
