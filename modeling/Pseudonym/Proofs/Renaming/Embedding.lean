import Pseudonym.Proofs.Renaming.Pass

/-!
# Two passes in lock step

The types of one model may be found again in another, under other numbers and among other types
(`Model.Embeds`).  All that the naming of a type depends on is then the same in both: whether it has
a name, the way outwards from it, and the names of the types around it.  What is asked of the
registry is therefore the same, so registries that agree in the beginning go on to agree, and the
types get the same names (`renameType_mirrors`).

For the way outwards this is not seen from the definition, because the bounds of the two models
differ.  The ways without bounds correspond to each other (`Embeds.walks`), and each model has only
one.
-/

namespace Pseudonym

/-- The link under other numbers. -/
def Link.renumber (f : TypeId → TypeId) (link : Link) : Link :=
  { link with outer := f link.outer }

/-- The stage under other numbers. -/
def Stage.renumber (f : TypeId → TypeId) (stage : Stage) : Stage :=
  ⟨f stage.id, stage.name, stage.link.map (·.renumber f)⟩

namespace Model

variable {m m' : Model} {f : TypeId → TypeId} {adaptMetadata : Bool} {id : TypeId}
  {t : ProgramType}

/-- Whether the types of a model are all in another, under other numbers, and what they are recorded
to lie in is looked up with the same result. -/
structure Embeds (f : TypeId → TypeId) (m m' : Model) : Prop where
  types : ∀ {id : TypeId} {d : KnownType}, m.types[id]? = some d → m'.types[f id]? = some d
  outers : ∀ {id : TypeId} {t : ProgramType}, m.types[id]? = some (.program t) →
    ∀ outer ∈ t.recordedOuters, m'.lookup outer = (m.lookup outer).map f
  injective : ∀ {id id' : TypeId}, id < m.size → id' < m.size → f id = f id' → id = id'

lemma lookup_replace (ht : m.types[id]? = some (.program t)) (name outer : String) :
    (m.replace id (t.withNewName name)).lookup outer = m.lookup outer := by
  refine lookup_of_map_name (map_replace ht ?_) outer
  rfl

namespace Embeds

lemma getElem?_eq (h : m.Embeds f m') (hid : id < m.size) : m'.types[f id]? = m.types[id]? := by
  have hd : m.types[id]? = some m.types[id] := Array.getElem?_eq_getElem hid
  rw [h.types hd, hd]

lemma unnamed? (h : m.Embeds f m') (hid : id < m.size) : m'.unnamed? (f id) = m.unnamed? id := by
  rw [Model.unnamed?, Model.unnamed?, h.getElem?_eq hid]

lemma currentName (h : m.Embeds f m') (hid : id < m.size) :
    m'.currentName (f id) = m.currentName id := by
  have hd : m.types[id]? = some m.types[id] := Array.getElem?_eq_getElem hid
  rw [Model.currentName, Model.currentName, get, get, h.types hd, hd]

/-- A type has the same link in both models. -/
lemma link (h : m.Embeds f m') (adaptMetadata : Bool) (ht : m.types[id]? = some (.program t)) :
    m'.link adaptMetadata t = (m.link adaptMetadata t).map (·.renumber f) := by
  have houters := h.outers ht
  rw [Model.link, Model.link, List.map_findSome?]
  generalize t.recordedOuters = outers at houters ⊢
  induction outers with
  | nil => rfl
  | cons outer rest ih =>
    have hlinkTo : m'.linkTo adaptMetadata t outer =
        (m.linkTo adaptMetadata t outer).map (·.renumber f) := by
      rw [linkTo, linkTo, houters outer List.mem_cons_self]
      split
      · rfl
      · rw [Option.map_map, Option.map_map]
        rfl
    have hrest := ih fun other hother => houters other (List.mem_cons_of_mem _ hother)
    rw [List.findSome?_cons, List.findSome?_cons, hlinkTo, hrest]
    rfl

/-- Whether a type has been passed is the same in both models. -/
lemma mem_ids (h : m.Embeds f m') {stages : List Stage} (hid : id < m.size)
    (hstages : ∀ i ∈ stages.map Stage.id, i < m.size) :
    f id ∈ (stages.map (·.renumber f)).map Stage.id ↔ id ∈ stages.map Stage.id := by
  have hids : (stages.map (·.renumber f)).map Stage.id = (stages.map Stage.id).map f := by
    rw [List.map_map, List.map_map]
    rfl
  rw [hids, List.mem_map]
  constructor
  · rintro ⟨i, hi, heq⟩
    exact h.injective (hstages i hi) hid heq ▸ hi
  · intro hmem
    exact ⟨id, hmem, rfl⟩

/-- A way outwards in the one model is one in the other. -/
theorem walks (h : m.Embeds f m') {inside stages : List Stage}
    (hwalks : m.Walks adaptMetadata inside id t stages) (ht : m.types[id]? = some (.program t))
    (hinside : ∀ i ∈ inside.map Stage.id, i < m.size) :
    m'.Walks adaptMetadata (inside.map (·.renumber f)) (f id) t (stages.map (·.renumber f)) := by
  have hlinked : ∀ {id : TypeId} {t : ProgramType} {link : Link},
      m.types[id]? = some (.program t) →
      m.link adaptMetadata t = some link →
        m'.link adaptMetadata t = some (link.renumber f) ∧ link.outer < m.size := by
    intro id t link ht hlink
    obtain ⟨d, hd, -⟩ := link_eq_some hlink
    exact ⟨by rw [h.link adaptMetadata ht, hlink]; rfl, (Array.getElem?_eq_some_iff.1 hd).1⟩
  induction hwalks with
  | outermost hlink => exact .outermost (by rw [h.link adaptMetadata ht, hlink]; rfl)
  | settled hlink hsettled =>
    obtain ⟨hlink', houter⟩ := hlinked ht hlink
    exact .settled hlink' ((h.unnamed? houter).trans hsettled)
  | @circular inside id t outer link hlink hunnamed hback =>
    obtain ⟨hlink', houter⟩ := hlinked ht hlink
    have hpassed : ∀ i ∈ (⟨id, t.name, none⟩ :: inside : List Stage).map Stage.id, i < m.size :=
      List.forall_mem_cons.2 ⟨(Array.getElem?_eq_some_iff.1 ht).1, hinside⟩
    exact .circular hlink' ((h.unnamed? houter).trans hunnamed) ((h.mem_ids houter hpassed).2 hback)
  | @onwards inside stages id t outer link hlink hunnamed hfresh _ ih =>
    obtain ⟨hlink', houter⟩ := hlinked ht hlink
    have hpassed : ∀ i ∈ (⟨id, t.name, some link⟩ :: inside : List Stage).map Stage.id,
        i < m.size :=
      List.forall_mem_cons.2 ⟨(Array.getElem?_eq_some_iff.1 ht).1, hinside⟩
    exact .onwards hlink' ((h.unnamed? houter).trans hunnamed)
      (fun hback => hfresh ((h.mem_ids houter hpassed).1 hback))
      (ih (unnamed?_eq_some_iff.1 hunnamed).1 hpassed)

/-- The types to be named with a type are the same in both models. -/
theorem chain (h : m.Embeds f m') (adaptMetadata : Bool) (ht : m.unnamed? id = some t) :
    m'.chain adaptMetadata (f id) t = (m.chain adaptMetadata id t).map (·.renumber f) := by
  have ht' : m'.unnamed? (f id) = some t := (h.unnamed? (lt_size_of_unnamed ht)).trans ht
  have hwalks := h.walks (chain_walks adaptMetadata ht) (unnamed?_eq_some_iff.1 ht).1
    fun i hi => absurd hi List.not_mem_nil
  exact (chain_walks adaptMetadata ht').unique hwalks

/-- A name that a type gets in both models makes no difference. -/
theorem replace (h : m.Embeds f m') (ht : m.types[id]? = some (.program t)) (name : String) :
    (m.replace id (t.withNewName name)).Embeds f (m'.replace (f id) (t.withNewName name)) := by
  have hid : id < m.size := (Array.getElem?_eq_some_iff.1 ht).1
  have hsize : (m.replace id (t.withNewName name)).size = m.size := Array.size_setIfInBounds
  have hat : ∀ {other : TypeId}, (m.replace id (t.withNewName name)).types[other]? =
      if id = other then some (.program (t.withNewName name)) else m.types[other]? :=
    getElem?_replace_of_isSome (by rw [ht]; rfl) _
  have hat' : ∀ {other : TypeId}, (m'.replace (f id) (t.withNewName name)).types[other]? =
      if f id = other then some (.program (t.withNewName name)) else m'.types[other]? :=
    getElem?_replace_of_isSome (by rw [h.types ht]; rfl) _
  constructor
  case types =>
    intro other d hd
    rw [hat] at hd
    rw [hat']
    split at hd
    · subst other
      rw [if_pos rfl]
      exact hd
    · rename_i hne
      have hother : other < m.size := (Array.getElem?_eq_some_iff.1 hd).1
      rw [if_neg fun heq => hne (h.injective hid hother heq)]
      exact h.types hd
  case outers =>
    intro other t' ht'
    simp only [lookup_replace ht, lookup_replace (h.types ht)]
    rw [hat] at ht'
    split at ht'
    · obtain rfl := KnownType.program.inj (Option.some.inj ht')
      intro outer houter
      exact h.outers ht outer houter
    · exact h.outers ht'
  case injective =>
    intro i j hi hj
    rw [hsize] at hi hj
    exact h.injective hi hj

end Embeds
end Model

/-! ## Two states -/

/-- Two states whose registries are the same, and the types of the one are among those of the
other. -/
structure Renaming.Mirrors (f : TypeId → TypeId) (s s' : Renaming) : Prop where
  registry : s'.registry = s.registry
  model : s.model.Embeds f s'.model

namespace Renaming

variable {f : TypeId → TypeId} {s s' s₁ : Renaming} {adaptMetadata : Bool} {id : TypeId}
  {stage : Stage}

/-- The registry is asked the same. -/
lemma Mirrors.nameFor (h : s.Mirrors f s') {answer : String × Registry}
    (hs : s.nameFor stage = .ok answer) : s'.nameFor (stage.renumber f) = .ok answer := by
  cases hlink : stage.link with
  | none =>
    simp only [Renaming.nameFor, Stage.renumber, hlink, Option.map_none, h.registry] at hs ⊢
    exact hs
  | some link =>
    simp only [Renaming.nameFor, hlink] at hs
    obtain ⟨enclosing, hname, hanswer⟩ := exists_of_bind_eq_ok hs
    have houter : link.outer < s.model.size := by
      obtain ⟨d, hd, -⟩ := exists_of_bind_eq_ok hname
      exact (Array.getElem?_eq_some_iff.1 (Model.get_eq_ok_iff.1 hd)).1
    have hname' : s'.model.currentName (f link.outer) = .ok enclosing :=
      (h.model.currentName houter).trans hname
    simp only [Renaming.nameFor, Stage.renumber, hlink, Option.map_some, Link.renumber, hname',
      h.registry]
    exact hanswer

lemma Mirrors.nameStage (h : s.Mirrors f s') (hs : s.nameStage stage = .ok s₁) :
    ∃ s₁', s'.nameStage (stage.renumber f) = .ok s₁' ∧ s₁.Mirrors f s₁' := by
  obtain ⟨⟨name, registry⟩, hname, hs⟩ := exists_of_bind_eq_ok hs
  obtain ⟨model, hassign, hs⟩ := exists_of_bind_eq_ok hs
  obtain rfl := Except.ok.inj hs
  obtain ⟨d, hd, hassign⟩ := exists_of_bind_eq_ok hassign
  cases d with
  | library n => exact nomatch hassign
  | program t =>
    obtain rfl := Except.ok.inj hassign
    have ht := Model.get_eq_ok_iff.1 hd
    refine ⟨⟨registry, s'.model.replace (f stage.id) (t.withNewName name)⟩, ?_, rfl,
      h.model.replace ht name⟩
    have hassign' : s'.model.assign (f stage.id) name =
        .ok (s'.model.replace (f stage.id) (t.withNewName name)) := by
      simp only [Model.assign, Model.get_eq_ok_iff.2 (h.model.types ht)]
      rfl
    simp only [Renaming.nameStage, h.nameFor hname]
    simp only [Stage.renumber, bind, Except.bind, hassign']
    rfl

/-- What holds of single steps holds of folds. -/
lemma Mirrors.foldlM {α β : Type} {g : α → β} {step : Renaming → α → Except Misuse Renaming}
    {step' : Renaming → β → Except Misuse Renaming}
    (hstep : ∀ (s s' s₁ : Renaming) (x : α), s.Mirrors f s' → step s x = .ok s₁ →
      ∃ s₁', step' s' (g x) = .ok s₁' ∧ s₁.Mirrors f s₁')
    {xs : List α} (h : s.Mirrors f s') (hs : xs.foldlM step s = .ok s₁) :
    ∃ s₁', (xs.map g).foldlM step' s' = .ok s₁' ∧ s₁.Mirrors f s₁' := by
  induction xs generalizing s s' with
  | nil =>
    obtain rfl := Except.ok.inj hs
    exact ⟨s', rfl, h⟩
  | cons x rest ih =>
    rw [List.foldlM_cons] at hs
    obtain ⟨s₂, hs₂, hs⟩ := exists_of_bind_eq_ok hs
    obtain ⟨s₂', hs₂', h₂⟩ := hstep _ _ _ _ h hs₂
    obtain ⟨s₁', hs₁', h₁⟩ := ih h₂ hs
    refine ⟨s₁', ?_, h₁⟩
    rw [List.map_cons, List.foldlM_cons, hs₂']
    exact hs₁'

/-- A type is renamed in the same way in both states. -/
theorem Mirrors.renameType (h : s.Mirrors f s') (hs : s.renameType adaptMetadata id = .ok s₁) :
    ∃ s₁', s'.renameType adaptMetadata (f id) = .ok s₁' ∧ s₁.Mirrors f s₁' := by
  obtain ⟨d, hget, hs⟩ := exists_of_bind_eq_ok hs
  have hd := Model.get_eq_ok_iff.1 hget
  have hd' := h.model.types hd
  have hunnamed' := h.model.unnamed? (Array.getElem?_eq_some_iff.1 hd).1
  cases hunnamed : s.model.unnamed? id with
  | none =>
    rw [hunnamed] at hs hunnamed'
    obtain rfl := Except.ok.inj hs
    exact ⟨s', s'.renameType_settled adaptMetadata (Array.getElem?_eq_some_iff.1 hd').1 hunnamed',
      h⟩
  | some t =>
    rw [hunnamed] at hs hunnamed'
    obtain ⟨s₁', hs₁', h₁⟩ := Mirrors.foldlM (fun _ _ _ _ h hs => h.nameStage hs) h hs
    refine ⟨s₁', ?_, h₁⟩
    simp only [Renaming.renameType, Model.get_eq_ok_iff.2 hd', hunnamed',
      h.model.chain adaptMetadata hunnamed]
    exact hs₁'

end Renaming
end Pseudonym
