import Pseudonym.Proofs.Naming.Seeding
import Pseudonym.Proofs.Renaming.Requests

/-!
# The new prefix of a namespace is the same at all times

Where a namespace goes is decided when it is first asked for, and the answer depends on what has
been asked before.  But whatever is asked afterwards, the answer stays, although of the ways in
which it can come about only one is recorded.

So types that lie in no other and come from one namespace go to one namespace, no matter when each
of them was named and by which request.  `givenTopLevelAll` lists the names of such types: those
asked for one by one, and those that types of the model get because they have no link or are on a
circle of links.  Each of them begins with what the registry answers for the namespace at the end.
-/

namespace Pseudonym

namespace Renaming

variable {m : Model} {s : Renaming} {request : Request} {i : TypeId} {t : ProgramType}
  {oldName name : String}

/-! ## Names of types that lie in no other -/

/-- The names that the types of stages without a link have got between two models, each after the
old name of the type. -/
def topLevelNames (before after : Model) (stages : List Stage) : List (String × String) :=
  (stages.filter fun stage => stage.link.isNone).filterMap fun stage =>
    (before.nameSince? after stage.id).map (stage.name, ·)

lemma mem_topLevelNames {before after : Model} {stages : List Stage} :
    (oldName, name) ∈ topLevelNames before after stages ↔ ∃ stage ∈ stages, stage.link = none ∧
      stage.name = oldName ∧ before.nameSince? after stage.id = some name := by
  simp only [topLevelNames, List.mem_filterMap, List.mem_filter, Option.isNone_iff_eq_none,
    Option.map_eq_some_iff, Prod.mk.injEq]
  constructor
  · rintro ⟨stage, ⟨hmem, hlink⟩, given, hgiven, hname, rfl⟩
    exact ⟨stage, hmem, hlink, hname, hgiven⟩
  · rintro ⟨stage, hmem, hlink, hname, hgiven⟩
    exact ⟨stage, ⟨hmem, hlink⟩, name, hgiven, hname, rfl⟩

/-- The names that a request gives to types in no other, each after the old name of the type. -/
def givenTopLevel (s : Renaming) (request : Request) : List (String × String) :=
  match request with
  | .topLevel oldName => [(oldName, (s.registry.nameTopLevel oldName).1)]
  | .rename adaptMetadata id =>
    match s.model.unnamed? id with
    | none => []
    | some t => topLevelNames s.model (s.after request).model (s.model.chain adaptMetadata id t)
  | _ => []

/-- The names that a list of requests gives to types in no other, in order. -/
def givenTopLevelAll (s : Renaming) : List Request → List (String × String)
  | [] => []
  | request :: rest => s.givenTopLevel request ++ (s.after request).givenTopLevelAll rest

/-- Renaming a type gives a name to a type in no other if a stage on the way to it has no link. -/
lemma mem_givenTopLevel_rename {adaptMetadata : Bool} {id : TypeId} :
    (oldName, name) ∈ s.givenTopLevel (.rename adaptMetadata id) ↔
      ∃ t, s.model.unnamed? id = some t ∧ ∃ stage ∈ s.model.chain adaptMetadata id t,
        stage.link = none ∧ stage.name = oldName ∧
        s.model.nameSince? (s.after (.rename adaptMetadata id)).model stage.id = some name := by
  simp only [givenTopLevel]
  cases s.model.unnamed? id with
  | none => simp
  | some t => simp [mem_topLevelNames]

/-- What a request gives to a type in no other has the form of such a name. -/
theorem isTopLevel_of_mem_givenTopLevel (h : (oldName, name) ∈ s.givenTopLevel request) :
    (s.after request).registry.IsTopLevel oldName name := by
  cases request with
  | topLevel other =>
    obtain ⟨rfl, rfl⟩ := Prod.mk.inj (List.mem_singleton.1 h)
    exact s.registry.isTopLevel_nameTopLevel oldName
  | rename adaptMetadata id =>
    obtain ⟨t, ht, stage, hstage, hlink, rfl, hgiven⟩ := mem_givenTopLevel_rename.1 h
    obtain ⟨s', hs', hnames⟩ := s.renameType_chain adaptMetadata ht
    have hafter : s.after (.rename adaptMetadata id) = s' := after_of_ok hs'
    rw [hafter] at hgiven ⊢
    obtain ⟨-, -, hbears⟩ := nameSince?_eq_some hgiven
    obtain ⟨other, hother, hfits⟩ := hnames.named stage hstage
    obtain rfl := hother.eq hbears
    rwa [hlink] at hfits
  | nested | numbered | namespacePrefix | member | enter | leave | next =>
    exact absurd h List.not_mem_nil

/-- What a run gives to types in no other has at its end the form of such a name. -/
theorem isTopLevel_of_mem_givenTopLevelAll {requests : List Request}
    (h : (oldName, name) ∈ s.givenTopLevelAll requests) :
    (s.afterAll requests).registry.IsTopLevel oldName name := by
  induction requests generalizing s with
  | nil => exact absurd h List.not_mem_nil
  | cons request rest ih =>
    rcases List.mem_append.1 h with h | h
    · have hlater := ((s.after request).afterAll_extends rest).registry.extends
      exact (isTopLevel_of_mem_givenTopLevel h).mono hlater
    · exact ih h

/-! ## No name is left out -/

/-- Only renaming a type changes the model. -/
lemma model_after (h : ∀ adaptMetadata id, request ≠ .rename adaptMetadata id) :
    (s.after request).model = s.model := by
  unfold after
  split
  · rename_i s' hs'
    cases request with
    | rename adaptMetadata id => exact absurd rfl (h adaptMetadata id)
    | topLevel | nested | numbered | namespacePrefix | member =>
      obtain rfl := Except.ok.inj hs'
      rfl
    | enter | leave | next =>
      obtain ⟨registry, -, hs'⟩ := exists_of_bind_eq_ok hs'
      obtain rfl := Except.ok.inj hs'
      rfl
  · rfl

/-- A request that names a type on the way to another names that other. -/
lemma exists_stage_of_bears {adaptMetadata : Bool} {id : TypeId} (ht : s.model.unnamed? i = some t)
    (hbears : (s.after (.rename adaptMetadata id)).model.Bears i name) :
    ∃ named, s.model.unnamed? id = some named ∧
      ∃ stage ∈ s.model.chain adaptMetadata id named, stage.id = i := by
  have hnot : ¬ s.model.Bears i name := fun hearlier =>
    nomatch ht.symm.trans hearlier.unnamed?
  cases hid : s.model.unnamed? id with
  | none =>
    have hsame : s.after (.rename adaptMetadata id) = s := by
      rcases Nat.lt_or_ge id s.model.size with hlt | hge
      · exact after_of_ok (s.renameType_settled adaptMetadata hlt hid)
      · rw [after, fulfil, s.renameType_of_size_le adaptMetadata hge]
    rw [hsame] at hbears
    exact absurd hbears hnot
  | some named =>
    obtain ⟨s', hs', hnames⟩ := s.renameType_chain adaptMetadata hid
    have hafter : s.after (.rename adaptMetadata id) = s' := after_of_ok hs'
    by_cases hmem : i ∈ (s.model.chain adaptMetadata id named).map Stage.id
    · obtain ⟨stage, hstage, heq⟩ := List.mem_map.1 hmem
      exact ⟨named, rfl, stage, hstage, heq⟩
    · obtain ⟨d, hd, hrest⟩ := hafter ▸ hbears
      rw [hnames.unchanged i hmem] at hd
      exact absurd ⟨d, hd, hrest⟩ hnot

/-- A type without a link that a request names is one that it names in no other. -/
lemma mem_givenTopLevel {adaptMetadata : Bool} (ht : s.model.unnamed? i = some t)
    (hlink : s.model.link adaptMetadata t = none)
    (hbears : (s.after request).model.Bears i name) :
    (t.name, name) ∈ s.givenTopLevel request := by
  by_cases hrename : ∃ adaptMetadata' id, request = .rename adaptMetadata' id
  · obtain ⟨adaptMetadata', id, rfl⟩ := hrename
    obtain ⟨named, hnamed, stage, hstage, rfl⟩ := exists_stage_of_bears ht hbears
    obtain ⟨hchain, -, -⟩ := Model.chain_isChain adaptMetadata' hnamed
    obtain ⟨t', ht', hname, hstageLink⟩ := hchain.link_eq_or hstage
    obtain rfl := Option.some.inj (ht.symm.trans ht')
    have hnone : stage.link = none := by
      rcases hstageLink with heq | hnone
      · rw [heq, Model.link_eq_none_congr t adaptMetadata' adaptMetadata, hlink]
      · exact hnone
    have hgrows := (s.after_extends (.rename adaptMetadata' id)).model
    exact mem_givenTopLevel_rename.2
      ⟨named, hnamed, stage, hstage, hnone, hname, nameSince?_of_bears hgrows ht hbears⟩
  · have hsame := model_after (s := s) fun adaptMetadata' id heq =>
      hrename ⟨adaptMetadata', id, heq⟩
    rw [hsame] at hbears
    exact nomatch ht.symm.trans hbears.unnamed?

/-- A type without a link that is named in the course of a run is named in no other. -/
theorem mem_givenTopLevelAll {adaptMetadata : Bool} {requests : List Request}
    (ht : s.model.unnamed? i = some t) (hlink : s.model.link adaptMetadata t = none)
    (hbears : (s.afterAll requests).model.Bears i name) :
    (t.name, name) ∈ s.givenTopLevelAll requests := by
  induction requests generalizing s with
  | nil => exact nomatch ht.symm.trans hbears.unnamed?
  | cons request rest ih =>
    rw [givenTopLevelAll, List.mem_append]
    have hgrows := (s.after_extends request).model
    rcases hgrows.unnamed_or_bears ht with ht' | ⟨first, hfirst⟩
    · exact .inr (ih ht' (by rw [hgrows.link, hlink]) hbears)
    · have hsame := (hfirst.mono ((s.after request).afterAll_extends rest).model).eq hbears
      exact .inl (hsame ▸ mem_givenTopLevel ht hlink hfirst)

end Renaming

/-- Namespaces are steady.  Asking again for the new prefix of a namespace gives the same answer and
changes nothing, and a record is never changed.  Every name of a type in no other is the new prefix
of its namespace, as it is answered at the end, followed by a candidate; and these are the names of
all types without a link that are named in the run. -/
theorem namespaces_are_steady (m : Model) (o : NamingOptions) (memberSequence : Name.Sequence) :
    let start := Renaming.start m o memberSequence
    (∀ before outer after,
      let last := (start.afterAll (before ++ .namespacePrefix outer :: after)).registry
      last.newPrefix outer = (((start.afterAll before).registry.newPrefix outer).1, last)) ∧
    (∀ before after outer newOuter,
      (start.afterAll before).registry.newPrefix? outer = some newOuter →
        (start.afterAll (before ++ after)).registry.newPrefix? outer = some newOuter) ∧
    ∀ requests,
      let last := start.afterAll requests
      (∀ oldName name, (oldName, name) ∈ start.givenTopLevelAll requests →
        ∃ k candidate, o.typeSequence.nameAt? k = some candidate ∧
          name = (last.registry.newPrefix (Name.namespacePrefix oldName)).1 ++ candidate) ∧
      ∀ i t name adaptMetadata, m.unnamed? i = some t → m.link adaptMetadata t = none →
        last.model.Bears i name → (t.name, name) ∈ start.givenTopLevelAll requests := by
  intro start
  refine ⟨fun before outer after => ?_, fun before after outer newOuter hknown => ?_,
    fun requests => ⟨fun oldName name hname => ?_,
      fun i t name adaptMetadata ht hlink hbears => ?_⟩⟩
  · set s := start.afterAll before with hs
    have hlast : start.afterAll (before ++ .namespacePrefix outer :: after) =
        (s.after (.namespacePrefix outer)).afterAll after := by
      rw [Renaming.afterAll_append, Renaming.afterAll_cons]
    have hextends : (s.registry.newPrefix outer).2.Extends
        ((s.after (.namespacePrefix outer)).afterAll after).registry :=
      ((s.after (.namespacePrefix outer)).afterAll_extends after).registry.extends
    rw [hlast]
    exact Registry.newPrefix_of_extends hextends
  · rw [Renaming.afterAll_append]
    exact ((start.afterAll before).afterAll_extends after).registry.extends.recorded hknown
  · obtain ⟨outer, k, candidate, hanswer, hentry, rfl⟩ :=
      Renaming.isTopLevel_of_mem_givenTopLevelAll hname
    have hoptions : (start.afterAll requests).registry.options = o := by
      rw [(start.afterAll_extends requests).registry.extends.options]
      exact Registry.options_ofModel m o memberSequence
    rw [hoptions] at hentry
    exact ⟨k, candidate, hentry, by rw [hanswer]⟩
  · exact Renaming.mem_givenTopLevelAll ht hlink hbears

end Pseudonym
