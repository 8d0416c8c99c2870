import Pseudonym.Proofs.NestedNames
import Pseudonym.Proofs.Renaming.Pass

/-!
# Naming from the outside in, by recursion

A type is named inside the type that encloses it, so that one has to have its name first.  The
obvious way to see to this is a recursion: to name a type, name its enclosing type in the same way,
and then the type by itself.  `Resolves` is this recursion, and it ends where no types enclose each
other in a circle.

A pass does not go about it in this way.  It first walks outwards through all types without a name,
and then names what it has met from the outside in.  On the way from a type that is on no circle,
all that is met after the type itself is what would have been met from its enclosing type
(`chain_of_link`).  So each visit is a visit to the enclosing type followed by one more name, and by
induction along the way outwards it is the recursion.
-/

namespace Pseudonym

open Relation (TransGen ReflTransGen)

namespace Model

variable {m m' : Model} {adaptMetadata : Bool} {id : TypeId} {t : ProgramType} {link : Link}

/-! ## One step outwards -/

/-- A way that does not meet a type is the same when this type has been passed before it began. -/
lemma Walks.append_singleton {inside stages : List Stage} {first : Stage}
    (h : m.Walks adaptMetadata inside id t stages) (ht : m.unnamed? id = some t)
    (hmeet : ∀ j, ReflTransGen (m.Leads adaptMetadata) id j → j ≠ first.id) :
    m.Walks adaptMetadata (inside ++ [first]) id t (stages ++ [first]) := by
  induction h with
  | outermost hlink => exact .outermost hlink
  | settled hlink hsettled => exact .settled hlink hsettled
  | circular hlink houter hback =>
    refine .circular hlink houter ?_
    rw [List.map_append, ← List.cons_append]
    exact List.mem_append_left _ hback
  | onwards hlink houter hfresh _ ih =>
    have hstep : m.Leads adaptMetadata _ _ := ⟨_, _, ht, hlink, rfl⟩
    have hne := hmeet _ (.single hstep)
    refine .onwards hlink houter ?_ (ih houter fun j hj => hmeet j (.head hstep hj))
    rw [List.map_append, ← List.cons_append, List.mem_append]
    rintro (hback | hback)
    · exact hfresh hback
    · exact hne (List.mem_singleton.1 hback)

lemma chain_of_no_link (ht : m.unnamed? id = some t) (hlink : m.link adaptMetadata t = none) :
    m.chain adaptMetadata id t = [⟨id, t.name, none⟩] :=
  (chain_walks adaptMetadata ht).unique (.outermost hlink)

lemma chain_of_settled (ht : m.unnamed? id = some t) (hlink : m.link adaptMetadata t = some link)
    (hsettled : m.unnamed? link.outer = none) :
    m.chain adaptMetadata id t = [⟨id, t.name, some link⟩] :=
  (chain_walks adaptMetadata ht).unique (.settled hlink hsettled)

/-- The way outwards from a type on no circle is that from its enclosing type, after one step. -/
theorem chain_of_link {outer : ProgramType} (ht : m.unnamed? id = some t)
    (hlink : m.link adaptMetadata t = some link) (houter : m.unnamed? link.outer = some outer)
    (hcircle : ¬ TransGen (m.Leads adaptMetadata) id id) :
    m.chain adaptMetadata id t =
      m.chain adaptMetadata link.outer outer ++ [⟨id, t.name, some link⟩] := by
  have hstep : m.Leads adaptMetadata id link.outer := ⟨t, link, ht, hlink, rfl⟩
  refine (chain_walks adaptMetadata ht).unique (.onwards hlink houter ?_ ?_)
  · rw [List.map_nil, List.mem_singleton]
    exact hstep.ne.symm
  · refine (chain_walks adaptMetadata houter).append_singleton houter ?_
    rintro j hj rfl
    exact hcircle (.head' hstep hj)

/-- Types that are on no circle are on none later, when some of them have been named. -/
lemma Grows.not_circle (h : m.Grows m') (hcircle : ¬ TransGen (m.Leads adaptMetadata) id id) :
    ¬ TransGen (m'.Leads adaptMetadata) id id :=
  fun hloop => hcircle (TransGen.mono (fun _ _ => h.leads) _ _ hloop)

end Model

namespace Renaming

variable {s s' s'' : Renaming} {adaptMetadata : Bool} {id : TypeId} {t : ProgramType}
  {name name' : String}

/-! ## Naming a type by itself -/

/-- Names one type and no other, and gives the name.  The enclosing type has to have its name. -/
def nameAlone (s : Renaming) (adaptMetadata : Bool) (id : TypeId) (t : ProgramType) :
    Except Misuse (String × Renaming) := do
  let s ← s.nameStage ⟨id, t.name, s.model.link adaptMetadata t⟩
  return (← s.model.currentName id, s)

/-- Visits the enclosing type of a type, if it is a type of the program without a name. -/
def visitEnclosing (s : Renaming) (adaptMetadata : Bool) (t : ProgramType) :
    Except Misuse Renaming :=
  match s.model.link adaptMetadata t with
  | none => return s
  | some link =>
    if (s.model.unnamed? link.outer).isSome then s.renameType adaptMetadata link.outer
    else return s

/-- How a visit to the enclosing type of a type can go. -/
inductive VisitsEnclosing (s : Renaming) (adaptMetadata : Bool) (t : ProgramType) :
    Renaming → Prop where
  | unlinked (hlink : s.model.link adaptMetadata t = none) : VisitsEnclosing s adaptMetadata t s
  | settled {link : Link} (hlink : s.model.link adaptMetadata t = some link)
      (hsettled : s.model.unnamed? link.outer = none) : VisitsEnclosing s adaptMetadata t s
  | visited {link : Link} {outer : ProgramType} {s₁ : Renaming}
      (hlink : s.model.link adaptMetadata t = some link)
      (houter : s.model.unnamed? link.outer = some outer)
      (hrename : s.renameType adaptMetadata link.outer = .ok s₁) :
      VisitsEnclosing s adaptMetadata t s₁

lemma visitsEnclosing (h : s.visitEnclosing adaptMetadata t = .ok s') :
    s.VisitsEnclosing adaptMetadata t s' := by
  unfold visitEnclosing at h
  cases hlink : s.model.link adaptMetadata t with
  | none =>
    rw [hlink] at h
    obtain rfl := Except.ok.inj h
    exact .unlinked hlink
  | some link =>
    rw [hlink] at h
    cases houter : s.model.unnamed? link.outer with
    | none =>
      simp only [houter] at h
      obtain rfl := Except.ok.inj h
      exact .settled hlink houter
    | some outer =>
      simp only [houter] at h
      exact .visited hlink houter h

lemma visitEnclosing_extends (h : s.visitEnclosing adaptMetadata t = .ok s') : s.Extends s' := by
  cases visitsEnclosing h with
  | unlinked | settled => exact .refl s
  | visited _ _ hrename => exact renameType_extends hrename

/-- A visit to a type on no circle is a visit to the enclosing type and then names the type. -/
theorem renameType_eq_visitEnclosing (ht : s.model.unnamed? id = some t)
    (hcircle : ¬ TransGen (s.model.Leads adaptMetadata) id id) :
    s.renameType adaptMetadata id = s.visitEnclosing adaptMetadata t >>= fun s₁ =>
      s₁.nameStage ⟨id, t.name, s₁.model.link adaptMetadata t⟩ := by
  have hsame : ∀ s₁, s.visitEnclosing adaptMetadata t = .ok s₁ →
      s₁.model.link adaptMetadata t = s.model.link adaptMetadata t :=
    fun s₁ hs₁ => (visitEnclosing_extends hs₁).model.link adaptMetadata t
  have hchain : (s.model.chain adaptMetadata id t).foldlM nameStage s =
      s.visitEnclosing adaptMetadata t >>= fun s₁ =>
        s₁.nameStage ⟨id, t.name, s.model.link adaptMetadata t⟩ := by
    unfold visitEnclosing
    cases hlink : s.model.link adaptMetadata t with
    | none =>
      rw [Model.chain_of_no_link ht hlink, List.foldlM_cons]
      exact bind_pure _
    | some link =>
      dsimp only
      cases houter : s.model.unnamed? link.outer with
      | none =>
        rw [Model.chain_of_settled ht hlink houter, List.foldlM_cons]
        exact bind_pure _
      | some outer =>
        rw [Model.chain_of_link ht hlink houter hcircle, List.foldlM_append,
          ← renameType_eq_chain adaptMetadata houter]
        refine bind_congr fun s₁ => ?_
        rw [List.foldlM_cons]
        exact bind_pure _
  rw [renameType_eq_chain adaptMetadata ht, hchain]
  cases hs₁ : s.visitEnclosing adaptMetadata t with
  | error misuse => rfl
  | ok s₁ => exact congrArg (fun link => s₁.nameStage ⟨id, t.name, link⟩) (hsame s₁ hs₁).symm

lemma ensureName_eq_visitEnclosing (ht : s.model.unnamed? id = some t)
    (hcircle : ¬ TransGen (s.model.Leads adaptMetadata) id id) :
    s.ensureName adaptMetadata id = s.visitEnclosing adaptMetadata t >>= fun s₁ =>
      s₁.nameAlone adaptMetadata id t := by
  rw [ensureName, renameType_eq_visitEnclosing ht hcircle, bind_assoc]
  rfl

/-- A type of the model can always be visited. -/
lemma exists_ensureName (s : Renaming) (adaptMetadata : Bool) (hid : id < s.model.size) :
    ∃ name s', s.renameType adaptMetadata id = .ok s' ∧ s'.model.currentName id = .ok name ∧
      s.ensureName adaptMetadata id = .ok (name, s') := by
  obtain ⟨s', stages, hs', hnames, -⟩ := s.renameType_names adaptMetadata hid
  rw [← hnames.grows.model.size] at hid
  have hname : s'.model.currentName id = .ok s'.model.types[id].currentName :=
    Model.currentName_eq_ok (Array.getElem?_eq_getElem hid)
  refine ⟨_, s', hs', hname, ?_⟩
  simp only [ensureName, bind, Except.bind, hs', hname]
  rfl

lemma ensureName_settled {d : KnownType} (hd : s.model.types[id]? = some d)
    (hsettled : s.model.unnamed? id = none) :
    s.ensureName adaptMetadata id = .ok (d.currentName, s) := by
  have hid : id < s.model.size := (Array.getElem?_eq_some_iff.1 hd).1
  simp only [ensureName, bind, Except.bind, s.renameType_settled adaptMetadata hid hsettled,
    Model.currentName_eq_ok hd]
  rfl

/-! ## The recursion -/

/-- Naming a type by recursion.  One that has its name is left alone.  For any other the enclosing
type is named first, if there is one, and then the type by itself. -/
inductive Resolves (adaptMetadata : Bool) :
    Renaming → TypeId → String → Renaming → Prop where
  | settled {s : Renaming} {id : TypeId} {name : String} (settled : s.model.unnamed? id = none)
      (bears : s.model.currentName id = .ok name) : Resolves adaptMetadata s id name s
  | outermost {s s' : Renaming} {id : TypeId} {t : ProgramType} {name : String}
      (unnamed : s.model.unnamed? id = some t) (unlinked : s.model.link adaptMetadata t = none)
      (names : s.nameAlone adaptMetadata id t = .ok (name, s')) :
      Resolves adaptMetadata s id name s'
  | inside {s s₁ s' : Renaming} {id : TypeId} {t : ProgramType} {link : Link}
      {enclosing name : String} (unnamed : s.model.unnamed? id = some t)
      (linked : s.model.link adaptMetadata t = some link)
      (encloses : Resolves adaptMetadata s link.outer enclosing s₁)
      (names : s₁.nameAlone adaptMetadata id t = .ok (name, s')) :
      Resolves adaptMetadata s id name s'

/-- Naming types by recursion, one after the other. -/
inductive ResolvesAll (adaptMetadata : Bool) : Renaming → List TypeId → Renaming → Prop where
  | nil (s : Renaming) : ResolvesAll adaptMetadata s [] s
  | cons {s s₁ s' : Renaming} {id : TypeId} {name : String} {rest : List TypeId}
      (first : Resolves adaptMetadata s id name s₁)
      (others : ResolvesAll adaptMetadata s₁ rest s') : ResolvesAll adaptMetadata s (id :: rest) s'

/-- The recursion comes to one end at most. -/
theorem Resolves.unique (h : s.Resolves adaptMetadata id name s')
    (h' : s.Resolves adaptMetadata id name' s'') : name = name' ∧ s' = s'' := by
  induction h generalizing name' s'' with
  | settled settled bears =>
    cases h' with
    | settled _ bears' => exact ⟨Except.ok.inj (bears.symm.trans bears'), rfl⟩
    | outermost unnamed | inside unnamed => exact nomatch settled.symm.trans unnamed
  | outermost unnamed unlinked names =>
    cases h' with
    | settled settled => exact nomatch settled.symm.trans unnamed
    | outermost unnamed' _ names' =>
      obtain rfl := Option.some.inj (unnamed.symm.trans unnamed')
      exact Prod.mk.inj (Except.ok.inj (names.symm.trans names'))
    | inside unnamed' linked =>
      obtain rfl := Option.some.inj (unnamed.symm.trans unnamed')
      exact nomatch unlinked.symm.trans linked
  | inside unnamed linked _ names ih =>
    cases h' with
    | settled settled => exact nomatch settled.symm.trans unnamed
    | outermost unnamed' unlinked =>
      obtain rfl := Option.some.inj (unnamed.symm.trans unnamed')
      exact nomatch unlinked.symm.trans linked
    | inside unnamed' linked' encloses' names' =>
      obtain rfl := Option.some.inj (unnamed.symm.trans unnamed')
      obtain rfl := Option.some.inj (linked.symm.trans linked')
      obtain ⟨-, rfl⟩ := ih encloses'
      exact Prod.mk.inj (Except.ok.inj (names.symm.trans names'))

/-- Where the way outwards runs into no circle, a visit is the recursion. -/
theorem resolves_of_ensureName (hid : id < s.model.size)
    (hcircle : ∀ j, ReflTransGen (s.model.Leads adaptMetadata) id j →
      ¬ TransGen (s.model.Leads adaptMetadata) j j)
    (h : s.ensureName adaptMetadata id = .ok (name, s')) :
    s.Resolves adaptMetadata id name s' := by
  cases hunnamed : s.model.unnamed? id with
  | none =>
    have hd : s.model.types[id]? = some s.model.types[id] := Array.getElem?_eq_getElem hid
    obtain ⟨rfl, rfl⟩ := Prod.mk.inj (Except.ok.inj ((ensureName_settled hd hunnamed).symm.trans h))
    exact .settled hunnamed (Model.currentName_eq_ok hd)
  | some t =>
    -- The way outwards from the enclosing type is shorter.
    induction hlength : (s.model.chain adaptMetadata id t).length using Nat.strong_induction_on
      generalizing id t name s' with
    | _ length ih =>
      rw [ensureName_eq_visitEnclosing hunnamed (hcircle id .refl)] at h
      obtain ⟨s₁, hvisit, hnames⟩ := exists_of_bind_eq_ok h
      cases visitsEnclosing hvisit with
      | unlinked hlink => exact .outermost hunnamed hlink hnames
      | settled hlink hsettled =>
        obtain ⟨d, hd, -⟩ := Model.link_eq_some hlink
        exact .inside hunnamed hlink (.settled hsettled (Model.currentName_eq_ok hd)) hnames
      | @visited link outer _ hlink houter hrename =>
        have houterId : link.outer < s.model.size := Model.lt_size_of_unnamed houter
        have hstep : s.model.Leads adaptMetadata id link.outer := ⟨t, link, hunnamed, hlink, rfl⟩
        have hshorter : (s.model.chain adaptMetadata link.outer outer).length < length := by
          rw [← hlength, Model.chain_of_link hunnamed hlink houter (hcircle id .refl),
            List.length_append]
          exact Nat.lt_succ_self _
        obtain ⟨enclosing, s₂, hrename', -, hensure⟩ := s.exists_ensureName adaptMetadata houterId
        obtain rfl := Except.ok.inj (hrename'.symm.trans hrename)
        have hencloses : s.Resolves adaptMetadata link.outer enclosing _ :=
          ih _ hshorter houterId (fun j hj => hcircle j (.head hstep hj)) hensure outer houter rfl
        exact .inside hunnamed hlink hencloses hnames

/-- Without circles, visits to types one after the other are the recursion for one after the
other. -/
theorem resolvesAll_iff {ids : List TypeId} (hids : ∀ id ∈ ids, id < s.model.size)
    (hcircle : ∀ id, ¬ TransGen (s.model.Leads adaptMetadata) id id) :
    s.ResolvesAll adaptMetadata ids s' ↔ ids.foldlM (renameType · adaptMetadata) s = .ok s' := by
  induction ids generalizing s with
  | nil =>
    constructor
    · rintro ⟨⟩
      rfl
    · intro h
      obtain rfl := Except.ok.inj h
      exact .nil s
  | cons id rest ih =>
    rw [List.forall_mem_cons] at hids
    obtain ⟨name, s₁, hrename, -, hensure⟩ := s.exists_ensureName adaptMetadata hids.1
    have hresolves := resolves_of_ensureName hids.1 (fun j _ => hcircle j) hensure
    have hgrows : s.model.Grows s₁.model := (renameType_extends hrename).model
    have hrest := ih (s := s₁) (fun id hid => by
      rw [hgrows.size]
      exact hids.2 id hid) fun id => hgrows.not_circle (hcircle id)
    rw [List.foldlM_cons, hrename]
    refine Iff.trans ?_ hrest
    constructor
    · intro h
      cases h with
      | cons first others =>
        obtain ⟨-, rfl⟩ := hresolves.unique first
        exact others
    · exact .cons hresolves

/-- Visits refine the recursive definition of naming.  A type that has its name, or is one of a
library, is left alone.  A visit to any other type that is on no circle of links goes through, and
it comes to the same state and gives the same name as visiting the enclosing type first, if that is
a type of the program without a name, and then naming the type alone.  If there are no circles at
all, naming all types of the program comes to where the recursion comes for one after the other. -/
theorem visits_are_recursive (s : Renaming) (adaptMetadata : Bool) :
    (∀ id d, s.model.types[id]? = some d → s.model.unnamed? id = none →
      s.ensureName adaptMetadata id = .ok (d.currentName, s)) ∧
    (∀ id t, s.model.unnamed? id = some t →
      ¬ TransGen (s.model.Leads adaptMetadata) id id →
      ∃ s₁ name s', s.visitEnclosing adaptMetadata t = .ok s₁ ∧
        s₁.nameAlone adaptMetadata id t = .ok (name, s') ∧
        s.ensureName adaptMetadata id = .ok (name, s')) ∧
    ((∀ id, ¬ TransGen (s.model.Leads adaptMetadata) id id) →
      ∃ s', s.renameTypes adaptMetadata = .ok s' ∧
        ∀ s'', s.ResolvesAll adaptMetadata s.model.programIds s'' ↔ s'' = s') := by
  refine ⟨fun id d hd hsettled => ensureName_settled hd hsettled, ?_, ?_⟩
  · intro id t ht hcircle
    obtain ⟨name, s', -, -, hensure⟩ :=
      s.exists_ensureName adaptMetadata (Model.lt_size_of_unnamed ht)
    have hbind := hensure
    rw [ensureName_eq_visitEnclosing ht hcircle] at hbind
    obtain ⟨s₁, hvisit, hnames⟩ := exists_of_bind_eq_ok hbind
    exact ⟨s₁, name, s', hvisit, hnames, hensure⟩
  · intro hcircle
    refine ⟨_, s.renameTypes_eq adaptMetadata, fun s'' => ?_⟩
    rw [resolvesAll_iff (fun id hid => Model.lt_size_of_mem_programIds hid) hcircle]
    constructor
    · intro h
      exact Except.ok.inj (h.symm.trans (s.renameTypes_eq adaptMetadata))
    · rintro rfl
      exact s.renameTypes_eq adaptMetadata

end Renaming

/-- Three types that lie one in the other, the innermost first, and one of a library. -/
def Model.threeDeep : Model where
  types := #[.program ((ProgramType.named "Outer$Mid$In").nestedIn "Outer$Mid"),
    .program ((ProgramType.named "Outer$Mid").nestedIn "Outer"), .program (.named "Outer"),
    .library ⟨"lib.Base", none⟩]
  modules := []

theorem visits_are_recursive_threeDeep :
    let s := Renaming.start .threeDeep .plain (.short true)
    (s.model.types[3]? = some (.library ⟨"lib.Base", none⟩) ∧ s.model.unnamed? 3 = none ∧
      s.ensureName true 3 = .ok ("lib.Base", s)) ∧
    (∀ id, ¬ TransGen (s.model.Leads true) id id) ∧
    (∃ t s₁ name s', s.model.unnamed? 0 = some t ∧ s.visitEnclosing true t = .ok s₁ ∧
      s₁.nameAlone true 0 t = .ok (name, s') ∧ s.ensureName true 0 = .ok (name, s')) ∧
    ∃ s', s.renameTypes true = .ok s' ∧
      ∀ s'', s.ResolvesAll true s.model.programIds s'' ↔ s'' = s' := by
  intro s
  obtain ⟨hsettled, hstep, hall⟩ := Renaming.visits_are_recursive s true
  -- Every type leads to a later one.
  have hlater : ∀ i j, s.model.Leads true i j → i < j := by
    rintro i j ⟨t, link, ht, hlink, rfl⟩
    have hi : i < 4 := Model.lt_size_of_unnamed ht
    have hlinks : ∀ i < 4, ((Model.threeDeep.unnamed? i).bind
        (Model.threeDeep.link true)).all (i < ·.outer) = true := by decide +kernel
    have hlink' := hlinks i hi
    have ht' : Model.threeDeep.unnamed? i = some t := ht
    have hlinked : Model.threeDeep.link true t = some link := hlink
    rw [ht', Option.bind_some, hlinked] at hlink'
    simpa using hlink'
  have hcircle : ∀ id, ¬ TransGen (s.model.Leads true) id id := by
    intro id hloop
    have hlt := TransGen.mono hlater id id hloop
    rw [Relation.transGen_eq_self] at hlt
    exact Nat.lt_irrefl id hlt
  refine ⟨⟨rfl, rfl, hsettled 3 _ rfl rfl⟩, hcircle, ?_, hall hcircle⟩
  obtain ⟨s₁, name, s', hvisit, hnames, hensure⟩ := hstep 0 _ rfl (hcircle 0)
  exact ⟨_, s₁, name, s', rfl, hvisit, hnames, hensure⟩

end Pseudonym
