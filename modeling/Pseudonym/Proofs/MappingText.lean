import Mathlib.Data.List.Basic
import Pseudonym.Renaming.Mapping
import Pseudonym.Text.Lines

/-!
# The text of a mapping determines the mapping

A line of the text is a number of words with one blank between any two, where an indentation of
four columns shows as four empty words in front.  The number of words tells what the line is about,
whatever the words are: three for a type, five for a module, eight for a member, and nine for a
type alias or a property, whose sort is the sixth.  Names such as `#` or `->`, names that end in a
colon and empty names do no harm.

So the text is cut into lines and the lines into words, every line is read by itself, and the lines
are put together from the last one backwards.  Whatever belongs to a type has then been met when
the line of the type is, and no mark is needed where its lists end.

What has to be known of the names is that none of them has a blank or a line feed in it, which is
less than having no white space.  The kind of a member is not written out: its descriptor shows it.
-/

namespace Pseudonym

/-! ## Cutting what was joined -/

namespace Text

/-- Cutting undoes joining, if the separator is in none of the parts. -/
lemma pieces_intercalate {separator : Char} {parts : List (List Char)} (hparts : parts ≠ [])
    (h : ∀ part ∈ parts, separator ∉ part) :
    pieces separator ([separator].intercalate parts) = parts := by
  rw [pieces_eq_splitOn]
  exact List.splitOn_intercalate separator h hparts

/-- Lines that each end in a line feed are cut apart, and an empty piece is left at the end. -/
lemma pieces_lines {lines : List (List Char)} (h : ∀ line ∈ lines, '\n' ∉ line) :
    pieces '\n' (lines.flatMap (· ++ ['\n'])) = lines ++ [[]] := by
  have hjoined : lines.flatMap (· ++ ['\n']) = ['\n'].intercalate (lines ++ [[]]) := by
    induction lines with
    | nil => simp
    | cons line rest ih =>
      rw [List.flatMap_cons, ih (fun l hl => h l (List.mem_cons_of_mem line hl)), List.cons_append,
        List.intercalate_cons_of_ne_nil (by simp)]
  rw [hjoined]
  apply pieces_intercalate (by simp)
  intro part hpart
  rcases List.mem_append.1 hpart with hline | hlast
  · exact h part hline
  · simp [List.mem_singleton.1 hlast]

lemma notMem_intercalate {c separator : Char} (hc : c ≠ separator) {parts : List (List Char)}
    (h : ∀ part ∈ parts, c ∉ part) : c ∉ [separator].intercalate parts := by
  induction parts with
  | nil => simp
  | cons part rest ih =>
    obtain ⟨hpart, hrest⟩ := List.forall_mem_cons.1 h
    by_cases hlast : rest = []
    · simpa [hlast] using hpart
    · rw [List.intercalate_cons_of_ne_nil hlast]
      simp [hpart, hc, ih hrest]

end Text

namespace Mapping

/-! ## Lines -/

/-- A line of the text. -/
inductive Line where
  | ofType (e : Entry)
  | ofMember (e : MemberEntry)
  | ofTypeAlias (e : Entry)
  | ofProperty (e : Entry)
  | ofModule (e : Entry)
  deriving DecidableEq, Repr

namespace Line

/-- The words of a line. -/
def words : Line → List String
  | .ofType e => [e.oldName, "->", e.newName ++ ":"]
  | .ofMember e => ["", "", "", "", e.descriptor, e.oldName, "->", e.newName]
  | .ofTypeAlias e => ["", "", "", "", "#", "typealias", e.oldName, "->", e.newName]
  | .ofProperty e => ["", "", "", "", "#", "property", e.oldName, "->", e.newName]
  | .ofModule e => ["#", "module", e.oldName, "->", e.newName]

/-- The line as it is printed. -/
def text (l : Line) : String := " ".intercalate l.words

lemma text_ofType (e : Entry) : (ofType e).text = arrow e.oldName e.newName ++ ":" := by
  simp [← String.toList_inj, text, words, arrow]

lemma text_ofMember (e : MemberEntry) : (ofMember e).text = e.line := by
  simp [← String.toList_inj, text, words, MemberEntry.line, arrow]

lemma text_ofTypeAlias (e : Entry) : (ofTypeAlias e).text = "    " ++ e.comment "typealias" := by
  simp [← String.toList_inj, text, words, Entry.comment, arrow]

lemma text_ofProperty (e : Entry) : (ofProperty e).text = "    " ++ e.comment "property" := by
  simp [← String.toList_inj, text, words, Entry.comment, arrow]

lemma text_ofModule (e : Entry) : (ofModule e).text = e.comment "module" := by
  simp [← String.toList_inj, text, words, Entry.comment, arrow]

end Line

/-- What the lines of a type say. -/
def TypeEntry.readings (t : TypeEntry) : List Line :=
  .ofType ⟨t.oldName, t.newName⟩ ::
    (t.members.map .ofMember ++ t.typeAliases.map .ofTypeAlias ++ t.properties.map .ofProperty)

/-- What the lines of a mapping say. -/
def readings (mapping : Mapping) : List Line :=
  mapping.types.flatMap TypeEntry.readings ++ mapping.modules.map .ofModule

lemma TypeEntry.lines_eq (t : TypeEntry) : t.lines = t.readings.map Line.text := by
  simp [TypeEntry.lines, TypeEntry.readings, Function.comp_def, Line.text_ofType,
    Line.text_ofMember, Line.text_ofTypeAlias, Line.text_ofProperty]

lemma lines_eq (mapping : Mapping) : mapping.lines = mapping.readings.map Line.text := by
  have htypes : mapping.types.flatMap TypeEntry.lines =
      (mapping.types.flatMap TypeEntry.readings).map Line.text := by
    rw [List.map_flatMap]
    exact congrArg mapping.types.flatMap (funext TypeEntry.lines_eq)
  rw [lines, readings, List.map_append, htypes, List.map_map]
  exact congrArg _ (List.map_congr_left fun e _ => (Line.text_ofModule e).symm)

/-! ## Names that can be told apart -/

/-- Whether a text has neither blanks nor line feeds. -/
def IsWord (text : String) : Prop := ' ' ∉ text.toList ∧ '\n' ∉ text.toList

instance (text : String) : Decidable (IsWord text) :=
  inferInstanceAs (Decidable (_ ∧ _))

/-- The kind that the descriptor of a member shows. -/
def kindShown (descriptor : String) : MemberKind :=
  if descriptor.toList.head? = some '(' then .method else .field

structure Entry.IsPlain (e : Entry) : Prop where
  oldName : IsWord e.oldName
  newName : IsWord e.newName

structure MemberEntry.IsPlain (e : MemberEntry) : Prop where
  descriptor : IsWord e.descriptor
  oldName : IsWord e.oldName
  newName : IsWord e.newName
  kind : e.kind = .method ↔ e.descriptor.toList.head? = some '('

structure TypeEntry.IsPlain (t : TypeEntry) : Prop where
  oldName : IsWord t.oldName
  newName : IsWord t.newName
  members : ∀ e ∈ t.members, e.IsPlain
  typeAliases : ∀ e ∈ t.typeAliases, e.IsPlain
  properties : ∀ e ∈ t.properties, e.IsPlain

/-- Whether no name or descriptor has blanks or line feeds, and the descriptors of the methods are
those that begin with a parenthesis. -/
structure IsPlain (mapping : Mapping) : Prop where
  types : ∀ t ∈ mapping.types, t.IsPlain
  modules : ∀ e ∈ mapping.modules, e.IsPlain

instance (e : Entry) : Decidable e.IsPlain :=
  decidable_of_iff (IsWord e.oldName ∧ IsWord e.newName) ⟨fun h => ⟨h.1, h.2⟩, fun h => ⟨h.1, h.2⟩⟩

instance (e : MemberEntry) : Decidable e.IsPlain :=
  decidable_of_iff (IsWord e.descriptor ∧ IsWord e.oldName ∧ IsWord e.newName ∧
      (e.kind = .method ↔ e.descriptor.toList.head? = some '('))
    ⟨fun h => ⟨h.1, h.2.1, h.2.2.1, h.2.2.2⟩, fun h => ⟨h.1, h.2, h.3, h.4⟩⟩

instance (t : TypeEntry) : Decidable t.IsPlain :=
  decidable_of_iff (IsWord t.oldName ∧ IsWord t.newName ∧ (∀ e ∈ t.members, e.IsPlain) ∧
      (∀ e ∈ t.typeAliases, e.IsPlain) ∧ ∀ e ∈ t.properties, e.IsPlain)
    ⟨fun h => ⟨h.1, h.2.1, h.2.2.1, h.2.2.2.1, h.2.2.2.2⟩, fun h => ⟨h.1, h.2, h.3, h.4, h.5⟩⟩

instance (mapping : Mapping) : Decidable mapping.IsPlain :=
  decidable_of_iff ((∀ t ∈ mapping.types, t.IsPlain) ∧ ∀ e ∈ mapping.modules, e.IsPlain)
    ⟨fun h => ⟨h.1, h.2⟩, fun h => ⟨h.1, h.2⟩⟩

lemma MemberEntry.IsPlain.kindShown_eq {e : MemberEntry} (h : e.IsPlain) :
    kindShown e.descriptor = e.kind := by
  rw [kindShown]
  by_cases hmethod : e.descriptor.toList.head? = some '('
  · rw [if_pos hmethod, h.kind.2 hmethod]
  · rw [if_neg hmethod]
    cases hkind : e.kind with
    | field => rfl
    | method => exact absurd (h.kind.1 hkind) hmethod

/-! ## Reading a line -/

namespace Line

variable {l : Line}

/-- Whether the entry of a line is plain. -/
def IsPlain : Line → Prop
  | .ofType e | .ofTypeAlias e | .ofProperty e | .ofModule e => e.IsPlain
  | .ofMember e => e.IsPlain

/-- The line that has some words. -/
def ofWords? : List String → Option Line
  | [oldName, _, newName] =>
    some (.ofType ⟨oldName, String.ofList newName.toList.dropLast⟩)
  | [_, _, oldName, _, newName] => some (.ofModule ⟨oldName, newName⟩)
  | [_, _, _, _, descriptor, oldName, _, newName] =>
    some (.ofMember ⟨kindShown descriptor, descriptor, oldName, newName⟩)
  | [_, _, _, _, _, sort, oldName, _, newName] =>
    if sort = "typealias" then some (.ofTypeAlias ⟨oldName, newName⟩)
    else some (.ofProperty ⟨oldName, newName⟩)
  | _ => none

/-- The line that has some text. -/
def ofText? (text : List Char) : Option Line :=
  ofWords? ((Text.pieces ' ' text).map String.ofList)

lemma words_ne_nil (l : Line) : l.words ≠ [] := by
  cases l <;> simp [words]

lemma IsPlain.isWord (h : l.IsPlain) : ∀ word ∈ l.words, IsWord word := by
  have hends : ∀ newName, IsWord newName → IsWord (newName ++ ":") := by
    intro newName hnew
    simpa [IsWord] using hnew
  cases l with
  | ofType e => simp [words, h.oldName, hends _ h.newName]; decide
  | ofMember e => simp [words, h.descriptor, h.oldName, h.newName]; decide
  | ofTypeAlias e => simp [words, h.oldName, h.newName]; decide
  | ofProperty e => simp [words, h.oldName, h.newName]; decide
  | ofModule e => simp [words, h.oldName, h.newName]; decide

lemma IsPlain.ofWords?_words (h : l.IsPlain) : ofWords? l.words = some l := by
  cases l with
  | ofType e => simp [words, ofWords?]
  | ofMember e => simp [words, ofWords?, MemberEntry.IsPlain.kindShown_eq h]
  | ofTypeAlias e => rfl
  | ofProperty e => rfl
  | ofModule e => rfl

lemma toList_text (l : Line) : l.text.toList = [' '].intercalate (l.words.map String.toList) := by
  simp [text]

lemma IsPlain.ofText?_text (h : l.IsPlain) : ofText? l.text.toList = some l := by
  have hpieces : Text.pieces ' ' l.text.toList = l.words.map String.toList := by
    rw [toList_text]
    apply Text.pieces_intercalate (by simpa using l.words_ne_nil)
    exact List.forall_mem_map.2 fun word hword => (h.isWord word hword).1
  have hwords : (l.words.map String.toList).map String.ofList = l.words := by
    simp [Function.comp_def]
  rw [ofText?, hpieces, hwords, h.ofWords?_words]

lemma IsPlain.notMem_text (h : l.IsPlain) : '\n' ∉ l.text.toList := by
  rw [toList_text]
  apply Text.notMem_intercalate (by decide)
  exact List.forall_mem_map.2 fun word hword => (h.isWord word hword).2

end Line

/-! ## Putting the lines together -/

/-- What is known of a mapping from some line on.  The lists are those of the type whose line has
not been met yet. -/
structure Draft where
  members : List MemberEntry
  typeAliases : List Entry
  properties : List Entry
  mapping : Mapping

namespace Draft

/-- Nothing is known after the last line. -/
def blank : Draft := ⟨[], [], [], ⟨[], []⟩⟩

/-- Takes the line in front. -/
def take : Line → Draft → Draft
  | .ofType e, d =>
    let t : TypeEntry := ⟨e.oldName, e.newName, d.members, d.typeAliases, d.properties⟩
    ⟨[], [], [], { d.mapping with types := t :: d.mapping.types }⟩
  | .ofMember e, d => { d with members := e :: d.members }
  | .ofTypeAlias e, d => { d with typeAliases := e :: d.typeAliases }
  | .ofProperty e, d => { d with properties := e :: d.properties }
  | .ofModule e, d => { d with mapping := { d.mapping with modules := e :: d.mapping.modules } }

lemma foldr_members (entries : List MemberEntry) (d : Draft) :
    (entries.map Line.ofMember).foldr take d = { d with members := entries ++ d.members } := by
  induction entries with
  | nil => rfl
  | cons e rest ih => rw [List.map_cons, List.foldr_cons, ih]; rfl

lemma foldr_typeAliases (entries : List Entry) (d : Draft) :
    (entries.map Line.ofTypeAlias).foldr take d =
      { d with typeAliases := entries ++ d.typeAliases } := by
  induction entries with
  | nil => rfl
  | cons e rest ih => rw [List.map_cons, List.foldr_cons, ih]; rfl

lemma foldr_properties (entries : List Entry) (d : Draft) :
    (entries.map Line.ofProperty).foldr take d =
      { d with properties := entries ++ d.properties } := by
  induction entries with
  | nil => rfl
  | cons e rest ih => rw [List.map_cons, List.foldr_cons, ih]; rfl

lemma foldr_modules (entries : List Entry) :
    (entries.map Line.ofModule).foldr take blank = ⟨[], [], [], ⟨[], entries⟩⟩ := by
  induction entries with
  | nil => rfl
  | cons e rest ih => rw [List.map_cons, List.foldr_cons, ih]; rfl

/-- The lines of a type add the type, if those behind them leave nothing to be put into a type. -/
lemma foldr_type (t : TypeEntry) (mapping : Mapping) :
    t.readings.foldr take ⟨[], [], [], mapping⟩ =
      ⟨[], [], [], { mapping with types := t :: mapping.types }⟩ := by
  rw [TypeEntry.readings, List.foldr_cons, List.foldr_append, List.foldr_append, foldr_properties,
    foldr_typeAliases, foldr_members]
  simp [take]

lemma foldr_types (types : List TypeEntry) (modules : List Entry) :
    (types.flatMap TypeEntry.readings).foldr take ⟨[], [], [], ⟨[], modules⟩⟩ =
      ⟨[], [], [], ⟨types, modules⟩⟩ := by
  induction types with
  | nil => rfl
  | cons t rest ih => rw [List.flatMap_cons, List.foldr_append, ih, foldr_type]

end Draft

/-- The mapping that has some lines. -/
def ofReadings (readings : List Line) : Mapping :=
  (readings.foldr Draft.take Draft.blank).mapping

lemma ofReadings_readings (mapping : Mapping) : ofReadings mapping.readings = mapping := by
  rw [ofReadings, readings, List.foldr_append, Draft.foldr_modules, Draft.foldr_types]

/-! ## Reading a text -/

variable {mapping : Mapping}

/-- The mapping that has some text. -/
def ofText? (text : String) : Option Mapping :=
  ((Text.pieces '\n' text.toList).dropLast.mapM Line.ofText?).map ofReadings

lemma IsPlain.readings (h : mapping.IsPlain) : ∀ l ∈ mapping.readings, l.IsPlain := by
  intro l hl
  simp only [Mapping.readings, TypeEntry.readings, List.mem_append, List.mem_flatMap,
    List.mem_cons, List.mem_map] at hl
  rcases hl with ⟨t, ht, hl⟩ | ⟨e, he, rfl⟩
  · have hplain := h.types t ht
    rcases hl with rfl | (⟨e, he, rfl⟩ | ⟨e, he, rfl⟩) | ⟨e, he, rfl⟩
    · exact ⟨hplain.oldName, hplain.newName⟩
    · exact hplain.members e he
    · exact hplain.typeAliases e he
    · exact hplain.properties e he
  · exact h.modules e he

lemma mapM_ofText? {readings : List Line} (h : ∀ l ∈ readings, l.IsPlain) :
    (readings.map fun l => l.text.toList).mapM Line.ofText? = some readings := by
  induction readings with
  | nil => rfl
  | cons l rest ih =>
    obtain ⟨hl, hrest⟩ := List.forall_mem_cons.1 h
    simp [hl.ofText?_text, ih hrest]

/-- The text of a mapping is read back. -/
theorem IsPlain.ofText?_print (h : mapping.IsPlain) : ofText? mapping.print = some mapping := by
  have hprint : mapping.print.toList =
      (mapping.readings.map fun l => l.text.toList).flatMap (· ++ ['\n']) := by
    rw [print, lines_eq, String.toList_join]
    simp [List.flatMap_map]
  have hpieces : Text.pieces '\n' mapping.print.toList =
      (mapping.readings.map fun l => l.text.toList) ++ [[]] := by
    rw [hprint]
    apply Text.pieces_lines
    exact List.forall_mem_map.2 fun l hl => (h.readings l hl).notMem_text
  rw [ofText?, hpieces, List.dropLast_concat, mapM_ofText? h.readings, Option.map_some,
    ofReadings_readings]

example :
    ofText? "Widget -> a.a:\n    ()V show -> b\n    # property size -> a\n# module app -> a\n" =
      some ⟨[⟨"Widget", "a.a", [⟨.method, "()V", "show", "b"⟩], [], [⟨"size", "a"⟩]⟩],
        [⟨"app", "a"⟩]⟩ := by decide

end Mapping

/-- The text of a mapping determines the mapping: the same types in the same order, with the same
members, type aliases and properties, and the same modules.  All that is asked is that no name and
no descriptor has a blank or a line feed in it, and that a member is a method exactly when its
descriptor begins with a parenthesis. -/
theorem text_determines_mapping (a b : Mapping) (ha : a.IsPlain) (hb : b.IsPlain) :
    a.print = b.print ↔ a = b := by
  constructor
  · intro htext
    have hread : some a = some b := by
      rw [← ha.ofText?_print, ← hb.ofText?_print, htext]
    exact Option.some.inj hread
  · rintro rfl
    rfl

/-- A type with a field `property` whose descriptor is `#`. -/
def Mapping.withField : Mapping :=
  ⟨[⟨"->", "a:", [⟨.field, "#", "property", "x"⟩], [], []⟩], [⟨"#", ""⟩]⟩

/-- The same type with a property that has no name. -/
def Mapping.withProperty : Mapping :=
  ⟨[⟨"->", "a:", [], [], [⟨"", "x"⟩]⟩], [⟨"#", ""⟩]⟩

theorem text_determines_mapping_property :
    Mapping.withField.IsPlain ∧ Mapping.withProperty.IsPlain ∧
      (Mapping.withField.print = Mapping.withProperty.print ↔
        Mapping.withField = Mapping.withProperty) :=
  ⟨by decide, by decide,
    text_determines_mapping Mapping.withField Mapping.withProperty (by decide) (by decide)⟩

end Pseudonym
