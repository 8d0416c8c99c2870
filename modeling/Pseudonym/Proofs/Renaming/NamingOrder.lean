import Pseudonym.Proofs.Renaming.Chain

/-!
# The order in which types are named

When a type without a name has its turn, the types of its chain are named.  Which names they get
makes no difference to the chains that follow: a chain depends on a model only through its links and
through the types that have no name (`Alike.chainIds`).  So the order in which types are named can
be told from the model that a pass begins with.  It is found by letting the types of one chain after
the other keep their old names (`namingOrder`).

Every type without a name is named in this order, and none twice (`nodup_namingOrder`).  It need not
have its turn before, since it may lie around one that has.
-/

namespace Pseudonym
namespace Model

variable {m m' m'' : Model} {adaptMetadata : Bool} {id : TypeId} {ids : List TypeId}

/-! ## Types that keep their old names -/

/-- The model in which a type without a name has its old name for a new one. -/
def settle (m : Model) (id : TypeId) : Model :=
  match m.unnamed? id with
  | none => m
  | some t => m.replace id (t.withNewName t.name)

lemma grows_settle (m : Model) (id : TypeId) : m.Grows (m.settle id) := by
  unfold settle
  split
  · exact .refl m
  · rename_i ht
    exact .replace ht _

lemma unnamed?_settle (m : Model) (id other : TypeId) :
    (m.settle id).unnamed? other = if id = other then none else m.unnamed? other := by
  unfold settle
  split
  · rename_i hnone
    split
    · subst other
      exact hnone
    · rfl
  · rename_i t ht
    rw [unnamed?, getElem?_replace ht]
    split
    · rfl
    · rfl

lemma grows_foldl_settle (m : Model) (ids : List TypeId) : m.Grows (ids.foldl settle m) := by
  induction ids generalizing m with
  | nil => exact .refl m
  | cons id rest ih => exact (m.grows_settle id).trans (ih _)

lemma unnamed?_foldl_settle (m : Model) (ids : List TypeId) (other : TypeId) :
    (ids.foldl settle m).unnamed? other = if other ∈ ids then none else m.unnamed? other := by
  induction ids generalizing m with
  | nil => rfl
  | cons id rest ih =>
    rw [List.foldl_cons, ih, unnamed?_settle]
    by_cases hrest : other ∈ rest
    · simp [hrest]
    · simp [hrest, eq_comm]

/-! ## Models that differ in the new names alone -/

/-- Whether the same types of two models have no name, and old names lead to the same types. -/
structure Alike (m m' : Model) : Prop where
  size : m'.size = m.size
  lookup : ∀ name, m'.lookup name = m.lookup name
  unnamed : ∀ id, m'.unnamed? id = m.unnamed? id

/-- The types that are named when a type has its turn, from the outermost to the type itself. -/
def chainIds (m : Model) (adaptMetadata : Bool) (id : TypeId) : List TypeId :=
  (m.unnamed? id).elim [] fun t => (m.chain adaptMetadata id t).map Stage.id

lemma chainIds_of_settled (adaptMetadata : Bool) (h : m.unnamed? id = none) :
    m.chainIds adaptMetadata id = [] := by
  rw [chainIds, h]
  rfl

lemma chainIds_of_unnamed (adaptMetadata : Bool) {t : ProgramType} (h : m.unnamed? id = some t) :
    m.chainIds adaptMetadata id = (m.chain adaptMetadata id t).map Stage.id := by
  rw [chainIds, h]
  rfl

namespace Alike

lemma refl (m : Model) : m.Alike m :=
  ⟨rfl, fun _ => rfl, fun _ => rfl⟩

lemma outwards (h : m.Alike m') (fuel : Nat) (inside : List Stage) (id : TypeId)
    (t : ProgramType) :
    m'.outwards adaptMetadata fuel inside id t = m.outwards adaptMetadata fuel inside id t := by
  induction fuel generalizing inside id t with
  | zero => rfl
  | succ fuel ih =>
    rw [Model.outwards, Model.outwards, link_of_lookup h.lookup]
    split
    · rfl
    · rw [h.unnamed]
      split
      · rfl
      · simp only [ih]

/-- The same types are named at the turn of a type. -/
theorem chainIds (h : m.Alike m') (adaptMetadata : Bool) (id : TypeId) :
    m'.chainIds adaptMetadata id = m.chainIds adaptMetadata id := by
  have hchain : ∀ t, m'.chain adaptMetadata id t = m.chain adaptMetadata id t := by
    intro t
    rw [chain, chain, h.size, h.outwards]
  simp only [Model.chainIds, h.unnamed, hchain]

/-- Two models stay alike if the same types get names in both. -/
lemma settle (h : m.Alike m') (hgrows : m'.Grows m'')
    (hnamed : ∀ id ∈ ids, m''.unnamed? id = none)
    (hsame : ∀ id ∉ ids, m''.types[id]? = m'.types[id]?) :
    (ids.foldl Model.settle m).Alike m'' where
  size := by rw [hgrows.size, h.size, (m.grows_foldl_settle ids).size]
  lookup name := by rw [hgrows.lookup, h.lookup, (m.grows_foldl_settle ids).lookup]
  unnamed id := by
    rw [unnamed?_foldl_settle]
    split
    · rename_i hid
      exact hnamed id hid
    · rename_i hid
      rw [unnamed?, hsame id hid]
      exact h.unnamed id

end Alike

/-! ## The order -/

/-- The types that are named when types have their turns one after the other. -/
def namingOrder (adaptMetadata : Bool) : Model → List TypeId → List TypeId
  | _, [] => []
  | m, id :: rest =>
    let named := m.chainIds adaptMetadata id
    named ++ namingOrder adaptMetadata (named.foldl settle m) rest

lemma nodup_chainIds (m : Model) (adaptMetadata : Bool) (id : TypeId) :
    (m.chainIds adaptMetadata id).Nodup := by
  cases hunnamed : m.unnamed? id with
  | none =>
    rw [chainIds_of_settled adaptMetadata hunnamed]
    exact List.nodup_nil
  | some t =>
    rw [chainIds_of_unnamed adaptMetadata hunnamed]
    exact (chain_isChain adaptMetadata hunnamed).2.1

/-- Only types without a name are named. -/
lemma isSome_of_mem_chainIds {other : TypeId} (h : other ∈ m.chainIds adaptMetadata id) :
    (m.unnamed? other).isSome = true := by
  cases hunnamed : m.unnamed? id with
  | none =>
    rw [chainIds_of_settled adaptMetadata hunnamed] at h
    exact absurd h List.not_mem_nil
  | some t =>
    rw [chainIds_of_unnamed adaptMetadata hunnamed] at h
    obtain ⟨stage, hstage, rfl⟩ := List.mem_map.1 h
    obtain ⟨t', ht', -⟩ := (chain_isChain adaptMetadata hunnamed).1.link_eq_or hstage
    rw [ht']
    rfl

/-- A type that has its turn without a name gets one. -/
lemma mem_chainIds_self (adaptMetadata : Bool) (h : (m.unnamed? id).isSome = true) :
    id ∈ m.chainIds adaptMetadata id := by
  obtain ⟨t, ht⟩ := Option.isSome_iff_exists.1 h
  rw [chainIds_of_unnamed adaptMetadata ht]
  exact (chain_isChain adaptMetadata ht).2.2

lemma isSome_of_mem_namingOrder {other : TypeId} (h : other ∈ m.namingOrder adaptMetadata ids) :
    (m.unnamed? other).isSome = true := by
  induction ids generalizing m with
  | nil => exact absurd h List.not_mem_nil
  | cons id rest ih =>
    rcases List.mem_append.1 h with hfirst | hrest
    · exact isSome_of_mem_chainIds hfirst
    · have hlater := ih hrest
      rw [unnamed?_foldl_settle] at hlater
      split at hlater
      · cases hlater
      · exact hlater

theorem mem_namingOrder (adaptMetadata : Bool) {other : TypeId} (hother : other ∈ ids)
    (h : (m.unnamed? other).isSome = true) : other ∈ m.namingOrder adaptMetadata ids := by
  induction ids generalizing m with
  | nil => exact absurd hother List.not_mem_nil
  | cons id rest ih =>
    rw [namingOrder, List.mem_append]
    by_cases hnamed : other ∈ m.chainIds adaptMetadata id
    · exact .inl hnamed
    · rcases List.mem_cons.1 hother with rfl | hrest
      · exact absurd (mem_chainIds_self adaptMetadata h) hnamed
      · refine .inr (ih hrest ?_)
        rw [unnamed?_foldl_settle, if_neg hnamed]
        exact h

/-- No type is named twice, since it has a name after the first time. -/
theorem nodup_namingOrder (m : Model) (adaptMetadata : Bool) (ids : List TypeId) :
    (m.namingOrder adaptMetadata ids).Nodup := by
  induction ids generalizing m with
  | nil => exact List.nodup_nil
  | cons id rest ih =>
    refine List.nodup_append.2 ⟨m.nodup_chainIds adaptMetadata id, ih _, ?_⟩
    rintro other hfirst _ hrest rfl
    have hlater := isSome_of_mem_namingOrder hrest
    rw [unnamed?_foldl_settle, if_pos hfirst] at hlater
    cases hlater

/-- An inner type that has the first turn brings the outer one with it. -/
example :
    let m : Model := ⟨#[.program ((ProgramType.named "com.Outer$In").nestedIn "com.Outer"),
      .program (.named "com.Late"), .program (.named "com.Outer")], []⟩
    m.namingOrder true m.programIds = [2, 0, 1] := by
  decide +kernel

end Model
end Pseudonym
