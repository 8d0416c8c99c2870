import Pseudonym.Proofs.Model.Arena
import Pseudonym.Proofs.Renaming.Embedding
import Pseudonym.Proofs.Renaming.Outcome
import Pseudonym.Renaming.Mapping

/-!
# The layout of a model does not matter

Library types stand anywhere among the types of the program, and in any order.  As long as none of
them has a new name, where they stand has no influence on a pass.

There are two sides to this.  The registry of a model takes its settled names one after the other,
and a later one can overrule an earlier.  But a library type without a new name only says that its
namespace, and those around it, stay where they are, so it never matters which of them comes last
(`ofModel_congr`).  After that, the two models have the same types under different numbers, and the
types of the program in the same order, so that the passes go in lock step (`Renaming.Mirrors`).
-/

namespace Pseudonym

/-! ## Seeds that agree -/

namespace NamingOptions

variable {o : NamingOptions} {settled fixed fixed' : List (String × String)}

/-- If all pairs say that a prefix stays, it counts only whether there is one for it. -/
lemma lookup_of_stay {pairs : List (String × String)} (h : ∀ pair ∈ pairs, pair.2 = pair.1)
    (outer : String) :
    pairs.lookup outer = if (outer, outer) ∈ pairs then some outer else none := by
  induction pairs with
  | nil => simp
  | cons pair rest ih =>
    obtain ⟨other, newOther⟩ := pair
    obtain rfl : newOther = other := h _ List.mem_cons_self
    rw [List.lookup_cons, ih fun pair hpair => h pair (List.mem_cons_of_mem _ hpair)]
    by_cases hother : outer = newOther
    · simp [hother]
    · simp [hother, beq_false_of_ne hother]

/-- What stays where it is seeds only prefixes that stay. -/
lemma stay_of_mem_seeds (h : ∀ pair ∈ fixed, pair.2 = pair.1) :
    ∀ pair ∈ o.seeds fixed, pair.2 = pair.1 := by
  rintro ⟨outer, newOuter⟩ hpair
  obtain ⟨name, newName, hname, hmem⟩ := mem_seeds.1 hpair
  obtain rfl : newName = name := h _ hname
  exact eq_of_mem_settledPrefixes rfl hmem

lemma seeds_append (o : NamingOptions) (settled fixed : List (String × String)) :
    o.seeds (settled ++ fixed) = o.seeds settled ++ o.seeds fixed :=
  List.flatMap_append

/-- The last seed for a prefix does not depend on the order of names that stay. -/
lemma lastSeed_perm (h : ∀ pair ∈ fixed, pair.2 = pair.1) (hperm : fixed'.Perm fixed)
    (outer : String) :
    (o.seeds (settled ++ fixed')).reverse.lookup outer =
      (o.seeds (settled ++ fixed)).reverse.lookup outer := by
  have hseeds : (o.seeds fixed').Perm (o.seeds fixed) := hperm.flatMap_right _
  have hstay := stay_of_mem_seeds (o := o) h
  have hlookup : (o.seeds fixed').reverse.lookup outer =
      (o.seeds fixed).reverse.lookup outer := by
    rw [lookup_of_stay fun pair hpair => hstay pair (hseeds.mem_iff.1 (List.mem_reverse.1 hpair)),
      lookup_of_stay fun pair hpair => hstay pair (List.mem_reverse.1 hpair)]
    simp only [List.mem_reverse, hseeds.mem_iff]
  rw [seeds_append, seeds_append, List.reverse_append, List.reverse_append, List.lookup_append,
    List.lookup_append, hlookup]

end NamingOptions

namespace Registry

variable {r : Registry} {settled settled' pairs pairs' : List (String × String)}

lemma mem_reserved_reserveAll (r : Registry) (settled : List (String × String)) (folded : String) :
    folded ∈ (r.reserveAll settled).reserved ↔
      (∃ pair ∈ settled, r.fold pair.2 = folded) ∨ folded ∈ r.reserved := by
  induction settled generalizing r with
  | nil => simp [reserveAll]
  | cons pair settled ih =>
    rw [reserveAll, List.foldl_cons, ← reserveAll, ih, List.exists_mem_cons_iff]
    have hmem : folded ∈ (r.reserve pair.2).reserved ↔
        r.fold pair.2 = folded ∨ folded ∈ r.reserved := by
      simp [reserve, Std.ExtTreeSet.mem_insert]
    rw [hmem]
    exact or_left_comm.trans or_assoc.symm

/-- The order in which names are reserved does not matter. -/
lemma reserveAll_perm (h : settled'.Perm settled) :
    r.reserveAll settled' = r.reserveAll settled := by
  have hreserved : (r.reserveAll settled').reserved = (r.reserveAll settled).reserved := by
    refine Std.ExtTreeSet.ext_mem fun folded => ?_
    rw [mem_reserved_reserveAll, mem_reserved_reserveAll]
    simp only [h.mem_iff]
  calc r.reserveAll settled'
      = { r with reserved := (r.reserveAll settled').reserved } := reserveAll_eq _ _
    _ = { r with reserved := (r.reserveAll settled).reserved } := by rw [hreserved]
    _ = r.reserveAll settled := (reserveAll_eq _ _).symm

/-- Only the last pair for a prefix counts, and which prefixes there are. -/
lemma recordAll_congr
    (hlast : ∀ outer, pairs'.reverse.lookup outer = pairs.reverse.lookup outer)
    (htaken : ∀ newOuter, newOuter ∈ pairs'.map Prod.snd ↔ newOuter ∈ pairs.map Prod.snd) :
    r.recordAll pairs' = r.recordAll pairs := by
  have hprefixes : (r.recordAll pairs').prefixes = (r.recordAll pairs).prefixes := by
    refine Std.ExtTreeMap.ext_getElem? fun outer => ?_
    have hnew := newPrefix?_recordAll r pairs' outer
    rw [hlast, ← newPrefix?_recordAll] at hnew
    exact hnew
  have htaken' : (r.recordAll pairs').taken = (r.recordAll pairs).taken := by
    refine Std.ExtTreeSet.ext_mem fun newOuter => ?_
    rw [mem_taken_recordAll, mem_taken_recordAll, htaken]
  rw [recordAll_eq r pairs', hprefixes, htaken', ← recordAll_eq]

/-- Names that stay may be settled in any order. -/
theorem foldl_settle_perm (r : Registry) (settled : List (String × String))
    {fixed fixed' : List (String × String)} (hstay : ∀ pair ∈ fixed, pair.2 = pair.1)
    (hperm : fixed'.Perm fixed) :
    (settled ++ fixed').foldl (fun r (name, newName) => r.settle name newName) r =
      (settled ++ fixed).foldl (fun r (name, newName) => r.settle name newName) r := by
  have hseeds : (r.options.seeds (settled ++ fixed')).Perm (r.options.seeds (settled ++ fixed)) :=
    (hperm.append_left settled).flatMap_right _
  rw [foldl_settle, foldl_settle, reserveAll_perm (hperm.append_left settled)]
  refine recordAll_congr (NamingOptions.lastSeed_perm hstay hperm) fun newOuter => ?_
  exact (hseeds.map Prod.snd).mem_iff

end Registry

/-! ## The same types under different numbers -/

/-- The type, if it is one of a library. -/
def KnownType.library? : KnownType → Option Named
  | .program _ => none
  | .library n => some n

namespace Model

variable {m m' : Model} {p : PassOptions} {id : TypeId} {d : KnownType}

/-- Whether two models differ in nothing but the places of their library types. -/
structure SameButForLayout (m m' : Model) : Prop where
  program : m'.programTypes = m.programTypes
  library : m'.libraryTypes.Perm m.libraryTypes
  modules : m'.modules = m.modules

lemma SameButForLayout.types_perm (h : m.SameButForLayout m') :
    m'.types.toList.Perm m.types.toList := by
  have hlibrary := (h.library.map KnownType.library).append_left
    (m.programTypes.map KnownType.program)
  have hfirst : m'.programFirst.types.toList.Perm m.programFirst.types.toList := by
    rw [programFirst, h.program]
    exact hlibrary
  exact m'.programFirst_perm.symm.trans (hfirst.trans m.programFirst_perm)

/-- Both passes begin with the same registry. -/
theorem SameButForLayout.ofModel_eq (h : m.SameButForLayout m')
    (hplain : ∀ n ∈ m.libraryTypes, n.newName = none) (o : NamingOptions)
    (memberSequence : Name.Sequence) :
    Registry.ofModel m' o memberSequence = Registry.ofModel m o memberSequence := by
  rw [Registry.ofModel, Registry.ofModel, settledNames, settledNames, h.program]
  refine Registry.foldl_settle_perm _ _ ?_ (h.library.map _)
  intro pair hpair
  obtain ⟨n, hn, rfl⟩ := List.mem_map.1 hpair
  rw [Named.currentName, hplain n hn]
  rfl

/-- The number of a type in another model. -/
def numberIn (m m' : Model) (id : TypeId) : TypeId :=
  ((m.types[id]?).bind (m'.lookup ·.name)).getD 0

lemma lookup_numberIn (hm' : m'.IsSound) (h : m.SameButForLayout m') (hd : m.types[id]? = some d) :
    m'.types[m.numberIn m' id]? = some d ∧ m'.lookup d.name = some (m.numberIn m' id) := by
  have hmem : d ∈ m'.types := by
    have hmem := Array.mem_toList_iff.2 (Array.mem_of_getElem? hd)
    exact Array.mem_toList_iff.1 (h.types_perm.mem_iff.2 hmem)
  obtain ⟨id', hid'⟩ := Array.mem_iff_getElem?.1 hmem
  have hlookup := hm'.lookup hid'
  have hnumber : m.numberIn m' id = id' := by
    rw [numberIn, hd, Option.bind_some, hlookup, Option.getD_some]
  rw [hnumber]
  exact ⟨hid', hlookup⟩

lemma SameButForLayout.embeds (h : m.SameButForLayout m') (hm : m.IsSound) (hm' : m'.IsSound) :
    m.Embeds (m.numberIn m') m' where
  types hd := (lookup_numberIn hm' h hd).1
  outers _ outer _ := by
    cases hfound : m.lookup outer with
    | none =>
      rw [lookup_eq_none_iff] at hfound
      refine lookup_eq_none_iff.2 fun d hd => hfound d ?_
      rw [← Array.mem_toList_iff] at hd ⊢
      exact h.types_perm.mem_iff.1 hd
    | some id =>
      obtain ⟨d, hd, rfl⟩ := lookup_eq_some hfound
      exact (lookup_numberIn hm' h hd).2
  injective {id id'} hid hid' heq := by
    have hd : m.types[id]? = some m.types[id] := Array.getElem?_eq_getElem hid
    have hd' : m.types[id']? = some m.types[id'] := Array.getElem?_eq_getElem hid'
    have hsame := (lookup_numberIn hm' h hd).1
    rw [heq, (lookup_numberIn hm' h hd').1] at hsame
    exact hm.id_eq hd hd' (congrArg KnownType.name (Option.some.inj hsame).symm)

/-- The types of the program are those with the numbers of such types. -/
lemma programTypes_eq (m : Model) :
    m.programTypes = m.programIds.filterMap fun id => m.types[id]?.bind KnownType.program? := by
  have hall : m.programTypes = m.ids.filterMap fun id => m.types[id]?.bind KnownType.program? := by
    have hmap := congrArg (List.filterMap (·.bind KnownType.program?)) m.map_some_types
    rw [List.filterMap_map, List.filterMap_map] at hmap
    exact hmap
  rw [hall, programIds, List.filterMap_filter]
  refine List.filterMap_congr fun id _ => ?_
  cases m.types[id]? with
  | none => rfl
  | some d => cases d <;> rfl

/-- In a model where the old names of types lead to their numbers, the numbers can be read off the
types. -/
lemma map_lookup_programTypes {g : TypeId → TypeId}
    (h : ∀ (id : TypeId) (t : ProgramType), m.types[id]? = some (.program t) →
      m'.lookup t.name = some (g id)) :
    m.programTypes.map (fun t => m'.lookup t.name) = (m.programIds.map g).map some := by
  rw [programTypes_eq, List.map_filterMap, List.map_map]
  refine List.filterMap_eq_map_iff_forall_eq_some.2 fun id hid => ?_
  obtain ⟨t, ht⟩ := mem_programIds.1 hid
  rw [ht, Function.comp_apply, ← h id t ht]
  rfl

lemma SameButForLayout.programIds_eq (h : m.SameButForLayout m') (hm' : m'.IsSound) :
    m'.programIds = m.programIds.map (m.numberIn m') := by
  have hthere : m'.programTypes.map (fun t => m'.lookup t.name) =
      (m'.programIds.map fun id => id).map some :=
    map_lookup_programTypes fun id t ht => hm'.lookup ht
  have hhere : m.programTypes.map (fun t => m'.lookup t.name) =
      (m.programIds.map (m.numberIn m')).map some :=
    map_lookup_programTypes fun id t ht => (lookup_numberIn hm' h ht).2
  rw [h.program, hhere, List.map_id'] at hthere
  exact (List.map_injective_iff.2 (Option.some_injective _) hthere).symm

/-- The types of both models are named in lock step. -/
theorem SameButForLayout.mirrors (h : m.SameButForLayout m') (hm : m.IsSound) (hm' : m'.IsSound)
    (hplain : ∀ n ∈ m.libraryTypes, n.newName = none) (p : PassOptions) :
    (m.withTypesNamed p).Mirrors (m.numberIn m') (m'.withTypesNamed p) := by
  have hstart : (Renaming.start m p.naming p.memberSequence).Mirrors (m.numberIn m')
      (Renaming.start m' p.naming p.memberSequence) :=
    ⟨h.ofModel_eq hplain _ _, h.embeds hm hm'⟩
  have hsecond : (m.programIds.map (m.numberIn m')).foldlM (Renaming.renameType · p.adaptMetadata)
      (Renaming.start m' p.naming p.memberSequence) = .ok (m'.withTypesNamed p) := by
    rw [← h.programIds_eq hm']
    exact m'.renameTypes_start p
  obtain ⟨s', hs', hmirrors⟩ :=
    Renaming.Mirrors.foldlM (fun _ _ _ _ h hs => h.renameType hs) hstart
      (m.renameTypes_start p)
  obtain rfl := Except.ok.inj (hs'.symm.trans hsecond)
  exact hmirrors

/-! ## What is named stays in its place -/

lemma Grows.libraryTypes (h : m.Grows m') : m'.libraryTypes = m.libraryTypes := by
  have hmap : m'.types.map KnownType.library? = m.types.map KnownType.library? :=
    h.map_eq fun _ _ => rfl
  have hlibrary : ∀ m : Model,
      m.libraryTypes = (m.types.map KnownType.library?).toList.filterMap id := by
    intro m
    rw [Array.toList_map, List.filterMap_map]
    rfl
  rw [hlibrary, hlibrary, hmap]

/-- The types of the program stay in order when they are named in lock step. -/
lemma SameButForLayout.programTypes_withTypesNamed (h : m.SameButForLayout m') (hm' : m'.IsSound)
    (hmirrors : (m.withTypesNamed p).Mirrors (m.numberIn m') (m'.withTypesNamed p)) :
    (m'.withTypesNamed p).model.programTypes = (m.withTypesNamed p).model.programTypes := by
  have hids : (m'.withTypesNamed p).model.programIds =
      (m.withTypesNamed p).model.programIds.map (m.numberIn m') := by
    have hgrows : m.Grows (m.withTypesNamed p).model := (m.withTypesNamed_extends p).model
    have hgrows' : m'.Grows (m'.withTypesNamed p).model := (m'.withTypesNamed_extends p).model
    rw [hgrows.programIds, hgrows'.programIds, h.programIds_eq hm']
  rw [programTypes_eq, programTypes_eq, hids, List.filterMap_map]
  refine List.filterMap_congr fun id hid => ?_
  obtain ⟨t, ht⟩ := mem_programIds.1 hid
  rw [Function.comp_apply, ht, hmirrors.model.types ht]

end Model

/-- Names do not depend on the layout of a model.  Two models with the same types of the program in
the same order, the same modules, and the same library types, none of which has a new name, are
renamed in the same way.  The types of the program are the same in the end, with all that is in
them, and so are the modules, the mappings and the new prefixes of namespaces. -/
theorem layout_does_not_matter {m m' : Model} (hm : m.IsSound) (h : m.SameButForLayout m')
    (hplain : ∀ n ∈ m.libraryTypes, n.newName = none) (p : PassOptions) :
    ∃ s s', m.rename p = .ok s ∧ m'.rename p = .ok s' ∧ s.model.SameButForLayout s'.model ∧
      Mapping.ofModel s'.model = Mapping.ofModel s.model ∧
      s'.registry.prefixes = s.registry.prefixes := by
  have hm' : m'.IsSound := hm.congr (h.types_perm.map KnownType.name)
  have hmirrors := h.mirrors hm hm' hplain p
  obtain ⟨s, hs, htypes, hmodules, position, hregistry⟩ := m.rename_finished p
  obtain ⟨s', hs', htypes', hmodules', position', hregistry'⟩ := m'.rename_finished p
  have hprogram : s'.model.programTypes = s.model.programTypes := by
    rw [Model.programTypes_of_types htypes, Model.programTypes_of_types htypes',
      h.programTypes_withTypesNamed hm' hmirrors]
  have hlibrary : s'.model.libraryTypes.Perm s.model.libraryTypes := by
    have hgrows : m.Grows (m.withTypesNamed p).model := (m.withTypesNamed_extends p).model
    have hgrows' : m'.Grows (m'.withTypesNamed p).model := (m'.withTypesNamed_extends p).model
    rw [Model.libraryTypes_of_types htypes, Model.libraryTypes_of_types htypes',
      hgrows.libraryTypes, hgrows'.libraryTypes]
    exact h.library
  have hsameModules : s'.model.modules = s.model.modules := by
    rw [hmodules, hmodules', h.modules]
  refine ⟨s, s', hs, hs', ⟨hprogram, hlibrary, hsameModules⟩, ?_, ?_⟩
  · rw [Mapping.ofModel, Mapping.ofModel, hprogram, hsameModules]
  · rw [hregistry, hregistry', hmirrors.registry]
    rfl

/-- The library types change places with each other and with types of the program, one of which
settles a namespace that the library types keep. -/
theorem layout_does_not_matter_shuffled :
    let kept := (ProgramType.named "com.Kept").withNewName "x.Kept"
    let other := (ProgramType.named "com.example.Inner").nestedIn "com.Kept"
    let m : Model := ⟨#[.program kept, .library ⟨"com.example.Lib", none⟩, .program other,
      .library ⟨"com.Base", none⟩], []⟩
    let m' : Model := ⟨#[.library ⟨"com.Base", none⟩, .library ⟨"com.example.Lib", none⟩,
      .program kept, .program other], []⟩
    m.IsSound ∧ m.SameButForLayout m' ∧ (∀ n ∈ m.libraryTypes, n.newName = none) ∧
      ∃ s s', m.rename default = .ok s ∧ m'.rename default = .ok s' ∧
        s.model.SameButForLayout s'.model ∧ Mapping.ofModel s'.model = Mapping.ofModel s.model ∧
        s'.registry.prefixes = s.registry.prefixes := by
  intro kept other m m'
  have hsound : m.IsSound := by decide
  have hlayout : m.SameButForLayout m' := ⟨by decide, by decide, by decide⟩
  have hplain : ∀ n ∈ m.libraryTypes, n.newName = none := by decide
  exact ⟨hsound, hlayout, hplain, layout_does_not_matter hsound hlayout hplain default⟩

end Pseudonym
