import Pseudonym.Model.File
import Pseudonym.Proofs.Json.Reading

/-!
# Model files are read back

Reading the text of a model file gives the file back (`parse_print`).  Each record is printed with
its members in a fixed order, those that would say nothing left out, and is read member by member
into a draft which begins as if nothing were said.  So a member that is left out is read just as
well as one that stands there.

Metadata is the exception: it is read as a tree first, and the record is looked for in the tree.
-/

namespace Pseudonym

open Json

/-! ## Members that may be left out -/

namespace Json

variable {α β σ : Type} {key : String} {depth : Nat}

lemma nests_optionalMember {encode : β → Json} (h : ∀ y, (encode y).Nests depth)
    (value? : Option β) : ∀ member ∈ optionalMember key (value?.map encode),
      member.2.Nests depth := by
  intro member hmember
  cases value? with
  | none => exact absurd hmember List.not_mem_nil
  | some y =>
    obtain rfl := List.mem_singleton.1 hmember
    exact h y

lemma nests_listMember {encode : β → Json} (h : ∀ y, (encode y).Nests depth) (ys : List β) :
    ∀ member ∈ listMember key encode ys, member.2.Nests (depth + 1) := by
  intro member hmember
  cases ys with
  | nil => exact absurd hmember List.not_mem_nil
  | cons y ys =>
    obtain rfl := List.mem_singleton.1 hmember
    refine .array fun item hitem => ?_
    obtain ⟨y', -, rfl⟩ := List.mem_map.1 hitem
    exact h y'

namespace Shape.ReadsPart

variable {shape : Shape σ α} {known : List String} {record record' : σ}

/-- A member that is left out if there is no value for it. -/
lemma optional (store : σ → Option β → σ) {read : Reader β} {encode : β → Json}
    {value? : Option β}
    (hfield : shape.fields.find? (·.key = key) = some (.of key (readOptional read) store))
    (hkey : key ∉ known) (hread : ∀ y, Reads read (encode y) y ∧ encode y ≠ .null)
    (hnone : store record none = record) (hrecord : store record value? = record') :
    shape.ReadsPart known record (optionalMember key (value?.map encode)) (key :: known)
      record' := by
  subst hrecord
  cases value? with
  | none =>
    rw [hnone]
    exact absent known key
  | some y => exact field store hfield hkey (reads_some (hread y).1 (hread y).2) rfl

/-- A member that is left out if the list is empty. -/
lemma list (store : σ → List β → σ) {read : Reader β} {encode : β → Json} {ys : List β}
    (hfield : shape.fields.find? (·.key = key) = some (.of key (readList read) store))
    (hkey : key ∉ known) (hread : ∀ y, Reads read (encode y) y)
    (hnil : store record [] = record) (hrecord : store record ys = record') :
    shape.ReadsPart known record (listMember key encode ys) (key :: known) record' := by
  subst hrecord
  cases ys with
  | nil =>
    rw [hnil]
    exact absent known key
  | cons y ys => exact field store hfield hkey (reads_list_map hread (y :: ys)) rfl

end Shape.ReadsPart

end Json

/-! ## Named things -/

lemma Named.nests_toJson (n : Named) (depth : Nat) : n.toJson.Nests (depth + 1) :=
  .object (List.forall_mem_cons.2 ⟨.string _ _, nests_optionalMember (.string depth) _⟩)

theorem Named.reads_toJson (n : Named) : Reads Named.shape.read n.toJson n := by
  have hname : Named.shape.ReadsPart [] ⟨none, none⟩ [("name", .string n.name)] ["name"]
      ⟨some n.name, none⟩ :=
    .field (fun r name => { r with name := some name }) rfl (by simp) (reads_string n.name) rfl
  have hnew : Named.shape.ReadsPart ["name"] ⟨some n.name, none⟩ (newNameMember n.newName)
      ["newName", "name"] ⟨some n.name, n.newName⟩ :=
    .optional (fun r newName => { r with newName := newName }) rfl (by simp)
      (fun y => ⟨reads_string y, nofun⟩) rfl rfl
  exact (hname.append hnew).reads rfl

/-! ## Members -/

lemma MemberKind.ofLabel?_label (kind : MemberKind) : ofLabel? kind.label = some kind := by
  cases kind <;> rfl

lemma Member.nests_toJson (x : Member) (depth : Nat) : x.toJson.Nests (depth + 1) := by
  refine .object ?_
  simp only [List.forall_mem_append, List.forall_mem_cons]
  refine ⟨⟨⟨.string _ _, .string _ _, .string _ _, ?_⟩, ?_⟩, nests_optionalMember (.string depth) _⟩
  · exact fun _ h => absurd h List.not_mem_nil
  · intro member hmember
    split at hmember
    · obtain rfl := List.mem_singleton.1 hmember
      exact .bool _ _
    · exact absurd hmember List.not_mem_nil

theorem Member.reads_toJson (x : Member) : Reads Member.shape.read x.toJson x := by
  have hkind : Member.shape.ReadsPart [] ⟨none, none, none, false, none⟩
      [("kind", .string x.kind.label)] ["kind"] ⟨some x.kind, none, none, false, none⟩ :=
    .field (fun r kind => { r with kind := some kind }) rfl (by simp)
      (reads_case x.kind.ofLabel?_label) rfl
  have hname : Member.shape.ReadsPart ["kind"] ⟨some x.kind, none, none, false, none⟩
      [("name", .string x.name)] ["name", "kind"] ⟨some x.kind, some x.name, none, false, none⟩ :=
    .field (fun r name => { r with name := some name }) rfl (by simp) (reads_string x.name) rfl
  have hdescriptor : Member.shape.ReadsPart ["name", "kind"]
      ⟨some x.kind, some x.name, none, false, none⟩ [("descriptor", .string x.descriptor)]
      ["descriptor", "name", "kind"] ⟨some x.kind, some x.name, some x.descriptor, false, none⟩ :=
    .field (fun r descriptor => { r with descriptor := some descriptor }) rfl (by simp)
      (reads_string x.descriptor) rfl
  have hkeep : Member.shape.ReadsPart ["descriptor", "name", "kind"]
      ⟨some x.kind, some x.name, some x.descriptor, false, none⟩
      (if x.keep then [("keep", .bool true)] else []) ["keep", "descriptor", "name", "kind"]
      ⟨some x.kind, some x.name, some x.descriptor, x.keep, none⟩ := by
    cases x.keep with
    | false => exact .absent _ _
    | true =>
      exact .field (fun r keep => { r with keep := keep }) rfl (by simp) (reads_bool true) rfl
  have hnew : Member.shape.ReadsPart ["keep", "descriptor", "name", "kind"]
      ⟨some x.kind, some x.name, some x.descriptor, x.keep, none⟩ (newNameMember x.newName)
      ["newName", "keep", "descriptor", "name", "kind"]
      ⟨some x.kind, some x.name, some x.descriptor, x.keep, x.newName⟩ :=
    .optional (fun r newName => { r with newName := newName }) rfl (by simp)
      (fun y => ⟨reads_string y, nofun⟩) rfl rfl
  exact ((((hkind.append hname).append hdescriptor).append hkeep).append hnew).reads rfl

/-! ## Entries about inner types -/

lemma Nesting.nests_toJson (n : Nesting) (depth : Nat) : n.toJson.Nests (depth + 1) :=
  .object (List.forall_mem_append.2 ⟨nests_optionalMember (.string depth) _,
    nests_optionalMember (.string depth) _⟩)

theorem Nesting.reads_toJson (n : Nesting) : Reads Nesting.shape.read n.toJson n := by
  have hinner : Nesting.shape.ReadsPart [] ⟨none, none⟩
      (optionalMember "inner" (n.inner.map .string)) ["inner"] ⟨n.inner, none⟩ :=
    .optional (fun r inner => { r with inner := inner }) rfl (by simp)
      (fun y => ⟨reads_string y, nofun⟩) rfl rfl
  have houter : Nesting.shape.ReadsPart ["inner"] ⟨n.inner, none⟩
      (optionalMember "outer" (n.outer.map .string)) ["outer", "inner"] ⟨n.inner, n.outer⟩ :=
    .optional (fun r outer => { r with outer := outer }) rfl (by simp)
      (fun y => ⟨reads_string y, nofun⟩) rfl rfl
  exact (hinner.append houter).reads rfl

/-! ## Metadata -/

lemma Named.ofJson?_toJson (n : Named) : ofJson? n.toJson = some n := by
  obtain ⟨name, newName⟩ := n
  cases newName <;> rfl

lemma mapM_ofJson?_toJson (items : List Named) :
    (items.map Named.toJson).mapM Named.ofJson? = some items := by
  induction items with
  | nil => rfl
  | cons n rest ih => simp [List.mapM_cons, n.ofJson?_toJson, ih]

/-- The list under a name is found in the tree of members. -/
lemma optionalList?_listMember (key : String) (items : List Named) :
    optionalList? Named.ofJson? ((listMember key Named.toJson items).lookup key) = some items := by
  cases items with
  | nil => rfl
  | cons n rest =>
    have hfound : (listMember key Named.toJson (n :: rest)).lookup key =
        some (.array ((n :: rest).map Named.toJson)) := by
      simp [listMember]
    rw [hfound]
    exact mapM_ofJson?_toJson (n :: rest)

/-- Declarations are found in the tree of their members. -/
lemma Declarations.ofJson?_members (d : Declarations) : ofJson? (.object d.members) = some d := by
  obtain ⟨typeAliases, properties⟩ := d
  have hfields : (Json.object (members ⟨typeAliases, properties⟩)).fields?
      ["typeAliases", "properties"] =
        some [(listMember "typeAliases" Named.toJson typeAliases).lookup "typeAliases",
          (listMember "properties" Named.toJson properties).lookup "properties"] := by
    cases typeAliases <;> cases properties <;> rfl
  simp [ofJson?, hfields, optionalList?_listMember]

namespace Metadata

/-- The kind of metadata. -/
def kind : Metadata → MetadataKind
  | .ofClass _ => .ofClass
  | .fileFacade _ => .fileFacade
  | .multiFilePart _ => .multiFilePart
  | .multiFileFacade => .multiFileFacade
  | .syntheticClass _ => .syntheticClass

lemma ofLabel?_label (m : Metadata) : MetadataKind.ofLabel? m.label = some m.kind := by
  cases m <;> rfl

lemma ofJson?_members (m : Metadata) : ofJson? m.kind (.object m.members) = some m := by
  cases m with
  | ofClass d => exact congrArg (Option.map _) d.ofJson?_members
  | fileFacade d => exact congrArg (Option.map _) d.ofJson?_members
  | multiFilePart d => exact congrArg (Option.map _) d.ofJson?_members
  | multiFileFacade => rfl
  | syntheticClass flavor => cases flavor <;> rfl

lemma nests_members (m : Metadata) : ∀ member ∈ m.members, member.2.Nests 2 := by
  have hlists : ∀ d : Declarations, ∀ member ∈ d.members, member.2.Nests 2 := by
    intro d
    rw [Declarations.members, List.forall_mem_append]
    exact ⟨nests_listMember (fun n : Named => n.nests_toJson 0) _,
      nests_listMember (fun n : Named => n.nests_toJson 0) _⟩
  cases m with
  | ofClass d => exact hlists d
  | fileFacade d => exact hlists d
  | multiFilePart d => exact hlists d
  | multiFileFacade => exact fun _ h => absurd h List.not_mem_nil
  | syntheticClass flavor => exact List.forall_mem_singleton.2 (.string 2 _)

lemma nests_toJson (m : Metadata) : m.toJson.Nests 3 :=
  .object (List.forall_mem_cons.2 ⟨.string _ _, m.nests_members⟩)

lemma key_ne_kind (m : Metadata) : ∀ member ∈ m.members, member.1 ≠ "kind" := by
  have hlists : ∀ d : Declarations, ∀ member ∈ d.members, member.1 ≠ "kind" := by
    intro d
    rw [Declarations.members, List.forall_mem_append]
    refine ⟨?_, ?_⟩
    · cases d.typeAliases with
      | nil => exact fun _ h => absurd h List.not_mem_nil
      | cons => exact List.forall_mem_singleton.2 (by simp)
    · cases d.properties with
      | nil => exact fun _ h => absurd h List.not_mem_nil
      | cons => exact List.forall_mem_singleton.2 (by simp)
  cases m with
  | ofClass d => exact hlists d
  | fileFacade d => exact hlists d
  | multiFilePart d => exact hlists d
  | multiFileFacade => exact fun _ h => absurd h List.not_mem_nil
  | syntheticClass flavor => exact List.forall_mem_singleton.2 (by simp)

/-- The members beside the kind are kept as trees. -/
lemma readsMembers_trees (kind : Option MetadataKind) {entries : List (String × Json)}
    (hkeys : ∀ entry ∈ entries, entry.1 ≠ "kind") (hnests : ∀ entry ∈ entries, entry.2.Nests 2)
    (before : List (String × Json)) :
    ReadsMembers OpenMetadata.member ⟨kind, before⟩ entries ⟨kind, entries.reverse ++ before⟩ := by
  induction entries generalizing before with
  | nil => exact .nil _
  | cons entry rest ih =>
    rw [List.forall_mem_cons] at hkeys hnests
    have hrest := ih hkeys.2 hnests.2 (entry :: before)
    have hentry : ReadsMember OpenMetadata.member ⟨kind, before⟩ entry ⟨kind, entry :: before⟩ := by
      refine ⟨_, if_neg hkeys.1, fun tokens => ?_⟩
      have htree := reads_tree hnests.1 (show 4 + 2 < nestingLimit by decide) tokens
      simp only [metadataAttention, htree, bind, Except.bind]
      rfl
    rw [List.reverse_cons, List.append_assoc, List.singleton_append]
    exact .cons hentry hrest

theorem reads_toJson (m : Metadata) : Reads Metadata.read m.toJson m := by
  intro rest
  have hkind : ReadsMember OpenMetadata.member ⟨none, []⟩ ("kind", .string m.label)
      ⟨some m.kind, []⟩ := by
    refine ⟨_, rfl, fun tokens => ?_⟩
    have hword := reads_word m.ofLabel?_label tokens
    simp only [hword, bind, Except.bind]
    rfl
  have hmembers := ReadsMembers.cons hkind
    (readsMembers_trees (some m.kind) m.key_ne_kind m.nests_members [])
  obtain ⟨inner, hwritten, hread⟩ := readMembers_written hmembers rest
  rw [toJson, hwritten]
  simp only [Metadata.read, hread, bind, Except.bind, complete, Option.bind_some,
    List.append_nil, List.reverse_reverse, m.ofJson?_members]

lemma toJson_ne_null (m : Metadata) : m.toJson ≠ .null := nofun

end Metadata

/-! ## Types of the program -/

lemma ProgramType.nests_toJson (t : ProgramType) : t.toJson.Nests 4 := by
  refine .object ?_
  simp only [List.forall_mem_cons, List.forall_mem_append]
  refine ⟨.string _ _, ⟨⟨⟨nests_optionalMember (.string 3) _, ?_⟩,
    nests_optionalMember (.string 3) _⟩, nests_optionalMember Metadata.nests_toJson _⟩, ?_⟩
  · exact nests_listMember (fun n : Nesting => n.nests_toJson 1) _
  · exact nests_listMember (fun x : Member => x.nests_toJson 1) _

theorem ProgramType.reads_toJson (t : ProgramType) : Reads ProgramType.shape.read t.toJson t := by
  have hname : ProgramType.shape.ReadsPart [] ⟨none, none, [], none, none, []⟩
      [("name", .string t.name)] ["name"] ⟨some t.name, none, [], none, none, []⟩ :=
    .field (fun r name => { r with name := some name }) rfl (by simp) (reads_string t.name) rfl
  have hnew : ProgramType.shape.ReadsPart ["name"] ⟨some t.name, none, [], none, none, []⟩
      (newNameMember t.newName) ["newName", "name"]
      ⟨some t.name, t.newName, [], none, none, []⟩ :=
    .optional (fun r newName => { r with newName := newName }) rfl (by simp)
      (fun y => ⟨reads_string y, nofun⟩) rfl rfl
  have hinner : ProgramType.shape.ReadsPart ["newName", "name"]
      ⟨some t.name, t.newName, [], none, none, []⟩
      (listMember "innerTypes" Nesting.toJson t.innerTypes) ["innerTypes", "newName", "name"]
      ⟨some t.name, t.newName, t.innerTypes, none, none, []⟩ :=
    .list (fun r entries => { r with innerTypes := entries }) rfl (by simp) Nesting.reads_toJson
      rfl rfl
  have hmethod : ProgramType.shape.ReadsPart ["innerTypes", "newName", "name"]
      ⟨some t.name, t.newName, t.innerTypes, none, none, []⟩
      (optionalMember "enclosingMethodType" (t.enclosingMethodType.map .string))
      ["enclosingMethodType", "innerTypes", "newName", "name"]
      ⟨some t.name, t.newName, t.innerTypes, t.enclosingMethodType, none, []⟩ :=
    .optional (fun r outer => { r with enclosingMethodType := outer }) rfl (by simp)
      (fun y => ⟨reads_string y, nofun⟩) rfl rfl
  have hmetadata : ProgramType.shape.ReadsPart
      ["enclosingMethodType", "innerTypes", "newName", "name"]
      ⟨some t.name, t.newName, t.innerTypes, t.enclosingMethodType, none, []⟩
      (optionalMember "metadata" (t.metadata.map Metadata.toJson))
      ["metadata", "enclosingMethodType", "innerTypes", "newName", "name"]
      ⟨some t.name, t.newName, t.innerTypes, t.enclosingMethodType, t.metadata, []⟩ :=
    .optional (fun r metadata => { r with metadata := metadata }) rfl (by simp)
      (fun m => ⟨m.reads_toJson, m.toJson_ne_null⟩) rfl rfl
  have hmembers : ProgramType.shape.ReadsPart
      ["metadata", "enclosingMethodType", "innerTypes", "newName", "name"]
      ⟨some t.name, t.newName, t.innerTypes, t.enclosingMethodType, t.metadata, []⟩
      (listMember "members" Member.toJson t.members)
      ["members", "metadata", "enclosingMethodType", "innerTypes", "newName", "name"]
      ⟨some t.name, t.newName, t.innerTypes, t.enclosingMethodType, t.metadata, t.members⟩ :=
    .list (fun r members => { r with members := members }) rfl (by simp) Member.reads_toJson
      rfl rfl
  have hrest := (((hnew.append hinner).append hmethod).append hmetadata).append hmembers
  exact (hname.append hrest).reads rfl

/-! ## Model files -/

namespace ModelFile

lemma nests_toJson (file : ModelFile) : file.toJson.Nests 6 := by
  refine .object ?_
  simp only [List.forall_mem_cons]
  refine ⟨.array ?_, .array ?_, .array ?_, fun _ h => absurd h List.not_mem_nil⟩
  · exact List.forall_mem_map.2 fun t _ => t.nests_toJson
  · exact List.forall_mem_map.2 fun n _ => n.nests_toJson 3
  · exact List.forall_mem_map.2 fun n _ => n.nests_toJson 3

theorem reads_toJson (file : ModelFile) : Reads ModelFile.shape.read file.toJson file := by
  have hprogram : ModelFile.shape.ReadsPart [] ⟨[], [], []⟩
      [("program", .array (file.program.map ProgramType.toJson))] ["program"]
      ⟨file.program, [], []⟩ :=
    .field (fun r types => { r with program := types }) rfl (by simp)
      (reads_list_map ProgramType.reads_toJson _) rfl
  have hlibrary : ModelFile.shape.ReadsPart ["program"] ⟨file.program, [], []⟩
      [("library", .array (file.library.map Named.toJson))] ["library", "program"]
      ⟨file.program, file.library, []⟩ :=
    .field (fun r types => { r with library := types }) rfl (by simp)
      (reads_list_map Named.reads_toJson _) rfl
  have hmodules : ModelFile.shape.ReadsPart ["library", "program"]
      ⟨file.program, file.library, []⟩ [("modules", .array (file.modules.map Named.toJson))]
      ["modules", "library", "program"] ⟨file.program, file.library, file.modules⟩ :=
    .field (fun r modules => { r with modules := modules }) rfl (by simp)
      (reads_list_map Named.reads_toJson _) rfl
  exact ((hprogram.append hlibrary).append hmodules).reads rfl

/-- The text of a model file is read back as the file. -/
theorem parse_print (file : ModelFile) : ModelFile.parse file.print = .ok file := by
  have htokens : tokens file.print = file.toJson.written := tokens_pretty file.nests_toJson
  have hread := file.reads_toJson []
  rw [List.append_nil] at hread
  simp only [ModelFile.parse, readText, htokens, hread, bind, Except.bind]
  rfl

end ModelFile

/-- A model file and its text determine each other.  The text of a file is read as that file,
printing what was read gives the same text, and no other file has this text. -/
theorem files_are_read_back (file : ModelFile) :
    ModelFile.parse file.print = .ok file ∧
      (ModelFile.parse file.print).map ModelFile.print = .ok file.print ∧
      ∀ other : ModelFile, other.print = file.print ↔ other = file := by
  have hread := file.parse_print
  refine ⟨hread, ?_, ?_⟩
  · rw [hread, Except.map]
  · intro other
    constructor
    · intro htext
      have hother := other.parse_print
      rw [htext] at hother
      exact Except.ok.inj (hother.symm.trans hread)
    · rintro rfl
      rfl

end Pseudonym
