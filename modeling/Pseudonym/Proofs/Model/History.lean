import Pseudonym.Proofs.Model.Arena
import Pseudonym.Proofs.Renaming.Pass

/-!
# Models and what is done to them

A model begins empty.  Types and modules are added, types of the program are given names, and
passes are run over it, in any order and as often as one likes.  A `Step` is one such change, and a
pass may also be made step by step: by requests for single types, and by naming the members or the
declarations of one type and the modules, each with whatever registry one has.

Only adding changes anything about old names (`Step.names`), and it refuses what would make a model
unsound.  So every model that can be reached is sound, and conversely a sound model can be reached
by adding what it consists of (`isReachable_iff`).
-/

namespace Pseudonym
namespace Model

/-- What can be done to a model. -/
inductive Step : Model → Model → Prop where
  | add {m m' : Model} {d : KnownType} {id : TypeId} (h : m.add d = .ok (id, m')) : Step m m'
  | addModule (m : Model) (descriptor : Named) : Step m (m.addModule descriptor)
  | assign {m m' : Model} {id : TypeId} {newName : String} (h : m.assign id newName = .ok m') :
      Step m m'
  | pass {m : Model} {p : PassOptions} {s : Renaming} (h : m.rename p = .ok s) : Step m s.model
  | request (s : Renaming) (request : Request) : Step s.model (s.after request).model
  | membersOf {s s' : Renaming} {overload : Bool} {id : TypeId}
      (h : s.renameMembersOf overload id = .ok s') : Step s.model s'.model
  | declarationsOf {s s' : Renaming} {id : TypeId}
      {change : Registry → Declarations → Except Misuse (Declarations × Registry)}
      (h : s.renameDeclarationsOf change id = .ok s') : Step s.model s'.model
  | modules {s s' : Renaming} (h : s.renameModules = .ok s') : Step s.model s'.model

/-- Whether a model can come about. -/
inductive IsReachable : Model → Prop where
  | empty : IsReachable empty
  | step {m m'} (h : IsReachable m) (hstep : Step m m') : IsReachable m'

variable {m m' : Model} {id : TypeId} {d : KnownType}

/-! ## Old names -/

/-- The old names of a model, in the order of the numbers. -/
def oldNames (m : Model) : Array String :=
  m.types.map KnownType.name

lemma oldNames_replace {t t' : ProgramType} (ht : m.types[id]? = some (.program t))
    (hname : t'.name = t.name) : (m.replace id t').oldNames = m.oldNames :=
  map_replace ht hname

lemma oldNames_of_labels (h : m'.labels = m.labels) : m'.oldNames = m.oldNames := by
  have hnames : ∀ m : Model, m.oldNames = m.labels.map (·.2.name) := by
    intro m
    rw [oldNames, labels, Array.map_map]
    rfl
  rw [hnames, hnames, h]

lemma oldNames_assign {newName : String} (h : m.assign id newName = .ok m') :
    m'.oldNames = m.oldNames := by
  obtain ⟨d, hd, h⟩ := Renaming.exists_of_bind_eq_ok h
  cases d with
  | library named => exact nomatch h
  | program t =>
    obtain rfl := Except.ok.inj h
    exact oldNames_replace (get_eq_ok_iff.1 hd) rfl

lemma oldNames_rename {p : PassOptions} {s : Renaming} (h : m.rename p = .ok s) :
    s.model.oldNames = m.oldNames := by
  obtain ⟨s', hs', hlabels⟩ := m.rename_eq p
  obtain rfl := Except.ok.inj (hs'.symm.trans h)
  exact (oldNames_of_labels hlabels).trans (m.withTypesNamed_extends p).model.map_name

lemma oldNames_membersOf {s s' : Renaming} {overload : Bool}
    (h : s.renameMembersOf overload id = .ok s') : s'.model.oldNames = s.model.oldNames := by
  obtain ⟨d, hd, h⟩ := Renaming.exists_of_bind_eq_ok h
  cases d with
  | library named => rw [Except.ok.inj h]
  | program t =>
    obtain rfl := Except.ok.inj h
    exact oldNames_replace (get_eq_ok_iff.1 hd) rfl

lemma oldNames_declarationsOf {s s' : Renaming}
    {change : Registry → Declarations → Except Misuse (Declarations × Registry)}
    (h : s.renameDeclarationsOf change id = .ok s') : s'.model.oldNames = s.model.oldNames := by
  obtain ⟨d, hd, h⟩ := Renaming.exists_of_bind_eq_ok h
  cases d with
  | library named => rw [Except.ok.inj h]
  | program t =>
    dsimp only at h
    cases hlists : t.declarations? with
    | none =>
      rw [hlists] at h
      rw [Except.ok.inj h]
    | some declarations =>
      rw [hlists] at h
      obtain ⟨named, -, h⟩ := Renaming.exists_of_bind_eq_ok h
      obtain rfl := Except.ok.inj h
      exact oldNames_replace (get_eq_ok_iff.1 hd) rfl

/-- Old names stay as they are, but for those of types that are added. -/
theorem Step.names (h : Step m m') :
    m'.oldNames = m.oldNames ∨ ∃ d id, m.add d = .ok (id, m') := by
  cases h with
  | add h => exact .inr ⟨_, _, h⟩
  | addModule => exact .inl rfl
  | assign h => exact .inl (oldNames_assign h)
  | pass h => exact .inl (oldNames_rename h)
  | request s request => exact .inl (s.after_extends request).model.map_name
  | membersOf h => exact .inl (oldNames_membersOf h)
  | declarationsOf h => exact .inl (oldNames_declarationsOf h)
  | modules h =>
    obtain ⟨named, -, h⟩ := Renaming.exists_of_bind_eq_ok h
    obtain rfl := Except.ok.inj h
    exact .inl rfl

/-! ## Soundness -/

lemma IsSound.step (h : m.IsSound) (hstep : Step m m') : m'.IsSound := by
  rcases hstep.names with hnames | ⟨d, id, hadd⟩
  · refine h.congr (.of_eq ?_)
    simpa [oldNames] using congrArg Array.toList hnames
  · exact h.add hadd

lemma IsSound.rename {p : PassOptions} {s : Renaming} (hm : m.IsSound) (h : m.rename p = .ok s) :
    s.model.IsSound :=
  hm.step (.pass h)

/-- Whatever is done to a model, no old name is empty and no two types share one. -/
theorem IsReachable.isSound (h : m.IsReachable) : m.IsSound := by
  induction h with
  | empty => exact isSound_empty
  | step _ hstep ih => exact ih.step hstep

lemma IsReachable.addAll {types : List KnownType} (h : m.IsReachable)
    (hadd : m.addAll types = .ok m') : m'.IsReachable := by
  induction types generalizing m with
  | nil =>
    obtain rfl := Except.ok.inj hadd
    exact h
  | cons d rest ih =>
    obtain ⟨id, m₁, hd, hrest⟩ := exists_of_addAll_cons hadd
    exact ih (h.step (.add hd)) hrest

lemma IsReachable.addModules (h : m.IsReachable) (modules : List Named) :
    IsReachable ⟨m.types, m.modules ++ modules⟩ := by
  induction modules generalizing m with
  | nil =>
    rw [List.append_nil]
    exact h
  | cons descriptor rest ih =>
    rw [List.append_cons]
    exact ih (h.step (.addModule m descriptor))

/-- The models that can be reached are the sound ones. -/
theorem isReachable_iff : m.IsReachable ↔ m.IsSound := by
  refine ⟨IsReachable.isSound, fun h => ?_⟩
  have htypes : IsReachable { m with modules := [] } :=
    IsReachable.empty.addAll (isSound_iff_addAll.1 h)
  exact htypes.addModules m.modules

end Model
end Pseudonym
