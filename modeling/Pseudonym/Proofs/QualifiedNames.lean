import Mathlib.Data.List.DropRight
import Mathlib.Data.Set.Function
import Pseudonym.Proofs.ByteOrder
import Pseudonym.Proofs.Name.Prefixes

/-!
# How qualified names come apart

The prefix of a name is the longest proper beginning of it that is empty or ends in a dot.  Nothing
is asked of the name but that it is not empty: its levels may be empty, and it may itself be a
prefix, in which case its final dot does not count.  So the walk outwards from a name meets each of
its enclosing prefixes once, the longest first, and ends at the root (`enclosingPrefixes_eq_map`,
`mem_enclosingPrefixes_iff`).

Going the other way, a prefix and a simple name put together come apart again, and so do a namespace
and the dot that makes a prefix of it.

Where a name is cut does not depend on whether it is taken as characters or as bytes.  No character
but the dot has the byte of the dot in it (`dotByte_mem_iff`), so the last dot is at the last such
byte (`bytesOf_throughLastDot`).
-/

namespace Pseudonym
namespace Name

variable {text beginning : List Char} {name outer : String} {c : Char}

/-! ## Beginnings that end in a dot -/

lemma throughLastDot_prefix (text : List Char) : throughLastDot text <+: text :=
  text.rdropWhile_prefix (· ≠ '.')

/-- What goes through the last dot is the longest beginning that is empty or ends in a dot. -/
lemma prefix_throughLastDot (h : beginning = [] ∨ beginning.getLast? = some '.')
    (hbegins : beginning <+: text) : beginning <+: throughLastDot text := by
  induction text using List.reverseRecOn with
  | nil => exact hbegins
  | append_singleton text c ih =>
    rw [throughLastDot_append_singleton]
    split
    · exact hbegins
    · rename_i hc
      rcases List.prefix_concat_iff.1 hbegins with rfl | hbegins
      · -- The whole text neither is empty nor ends in a dot.
        simp [hc] at h
      · exact ih hbegins

/-! ## Enclosing prefixes -/

/-- Whether a prefix encloses a name: it is a proper beginning of it. -/
structure Encloses (outer name : String) : Prop where
  isPrefix : IsPrefix outer
  begins : outer.toList <+: name.toList
  proper : outer ≠ name

lemma Encloses.ne_empty (h : Encloses outer name) : name ≠ "" := by
  rintro rfl
  exact h.proper (String.toList_eq_nil_iff.1 (List.prefix_nil.1 h.begins))

lemma Encloses.length_lt (h : Encloses outer name) : outer.length < name.length := by
  rw [← String.length_toList, ← String.length_toList]
  apply lt_of_le_of_ne h.begins.length_le
  intro hlength
  exact h.proper (String.toList_inj.1 (h.begins.eq_of_length hlength))

/-- A proper beginning of a text leaves out its last character. -/
lemma encloses_iff_of_toList (hname : name.toList = text ++ [c]) :
    Encloses outer name ↔ IsPrefix outer ∧ outer.toList <+: text := by
  constructor
  · rintro ⟨hends, hbegins, hproper⟩
    refine ⟨hends, ?_⟩
    rw [hname] at hbegins
    rcases List.prefix_concat_iff.1 hbegins with heq | hbegins
    · exact absurd (String.toList_inj.1 (heq.trans hname.symm)) hproper
    · exact hbegins
  · rintro ⟨hends, hbegins⟩
    refine ⟨hends, ?_, ?_⟩
    · rw [hname]
      exact hbegins.trans (List.prefix_append text [c])
    · rintro rfl
      have hle := hbegins.length_le
      rw [hname, List.length_append, List.length_singleton] at hle
      omega

lemma toList_namespacePrefix (hname : name.toList = text ++ [c]) :
    (namespacePrefix name).toList = throughLastDot text := by
  rw [namespacePrefix, hname, throughLastDot_dropFinalDot_append_singleton, String.toList_ofList]

lemma encloses_namespacePrefix (h : name ≠ "") : Encloses (namespacePrefix name) name := by
  obtain ⟨text, c, hname⟩ := exists_toList_eq_append_singleton h
  refine (encloses_iff_of_toList hname).2 ⟨isPrefix_namespacePrefix name, ?_⟩
  rw [toList_namespacePrefix hname]
  exact throughLastDot_prefix text

/-- Every prefix that encloses a name is a beginning of the prefix of the name. -/
theorem Encloses.prefix_namespacePrefix (h : Encloses outer name) :
    outer.toList <+: (namespacePrefix name).toList := by
  obtain ⟨text, c, hname⟩ := exists_toList_eq_append_singleton h.ne_empty
  obtain ⟨hends, hbegins⟩ := (encloses_iff_of_toList hname).1 h
  rw [toList_namespacePrefix hname]
  apply prefix_throughLastDot _ hbegins
  rcases hends with rfl | hlast
  · exact .inl rfl
  · exact .inr hlast

/-- Beyond its own prefix, a name is enclosed by what encloses the prefix. -/
lemma encloses_iff (h : name ≠ "") :
    Encloses outer name ↔ outer = namespacePrefix name ∨ Encloses outer (namespacePrefix name) := by
  constructor
  · intro houter
    by_cases heq : outer = namespacePrefix name
    · exact .inl heq
    · exact .inr ⟨houter.isPrefix, houter.prefix_namespacePrefix, heq⟩
  · have hself := encloses_namespacePrefix h
    rintro (rfl | houter)
    · exact hself
    · refine ⟨houter.isPrefix, houter.begins.trans hself.begins, ?_⟩
      rintro rfl
      exact absurd houter.length_lt (Nat.lt_asymm hself.length_lt)

/-! ## Walking outwards -/

/-- The walk outwards meets the prefixes that enclose the name. -/
theorem mem_enclosingPrefixes_iff : outer ∈ enclosingPrefixes name ↔ Encloses outer name := by
  induction name using walk_induction with
  | root =>
    rw [enclosingPrefixes_empty]
    exact iff_of_false List.not_mem_nil fun h => h.ne_empty rfl
  | step name h ih => rw [enclosingPrefixes_eq h, List.mem_cons, ih, encloses_iff h]

/-- What the walk outwards meets gets shorter and shorter. -/
theorem pairwise_enclosingPrefixes (name : String) :
    (name :: enclosingPrefixes name).Pairwise fun inner outer => outer.length < inner.length := by
  have hself : ∀ name, ∀ outer ∈ enclosingPrefixes name, outer.length < name.length :=
    fun name outer houter => (mem_enclosingPrefixes_iff.1 houter).length_lt
  induction name using walk_induction with
  | root => simp
  | step name h ih =>
    refine List.pairwise_cons.2 ⟨hself name, ?_⟩
    rw [enclosingPrefixes_eq h]
    exact ih

/-- The walk outwards takes the prefix of a name again and again, until the root is reached. -/
theorem enclosingPrefixes_eq_map (name : String) :
    ∃ steps, namespacePrefix^[steps] name = "" ∧
      enclosingPrefixes name = (List.range steps).map fun k => namespacePrefix^[k + 1] name := by
  induction name using walk_induction with
  | root => exact ⟨0, rfl, rfl⟩
  | step name h ih =>
    obtain ⟨steps, hroot, heq⟩ := ih
    refine ⟨steps + 1, hroot, ?_⟩
    rw [enclosingPrefixes_eq h, heq, List.range_succ_eq_map, List.map_cons, List.map_map]
    rfl

/-! ## Simple names -/

lemma afterLastDot_append (hlast : text = [] ∨ text.getLast? = some '.') (hdot : '.' ∉ beginning) :
    afterLastDot (text ++ beginning) = beginning := by
  have hall : ∀ c ∈ beginning.reverse, (decide (c ≠ '.')) = true := by
    intro c hc
    rw [decide_eq_true_eq]
    rintro rfl
    exact hdot (List.mem_reverse.1 hc)
  have hnone : text.reverse.takeWhile (· ≠ '.') = [] := by
    rcases hlast with rfl | hlast
    · rfl
    · obtain ⟨front, rfl⟩ := List.getLast?_eq_some_iff.1 hlast
      simp
  rw [afterLastDot, List.reverse_append, List.takeWhile_append_of_pos hall, hnone, List.append_nil,
    List.reverse_reverse]

/-- A prefix followed by a simple name is a name with this simple name. -/
theorem simpleName_append (houter : IsPrefix outer) (hdot : '.' ∉ name.toList) :
    simpleName (outer ++ name) = name := by
  rw [simpleName, String.toList_append, afterLastDot_append _ hdot, String.ofList_toList]
  rcases houter with rfl | hlast
  · exact .inl rfl
  · exact .inr hlast

/-! ## Namespaces and their prefixes -/

/-- Whether a text is the name of a namespace as it is written without the dot. -/
def IsNamespace (namespaceName : String) : Prop :=
  namespaceName.toList.getLast? ≠ some '.'

/-- Whether a prefix is the root or the name of a namespace and one dot. -/
def IsPlainPrefix (outer : String) : Prop :=
  outer = "" ∨ ∃ namespaceName, namespaceName ≠ "" ∧ IsNamespace namespaceName ∧
    outer = namespaceName ++ "."

lemma isNamespace_empty : IsNamespace "" := by
  intro h
  cases h

lemma namespaceOf_append_dot (name : String) : namespaceOf (name ++ ".") = name := by
  have htext : (name ++ ".").toList = name.toList ++ ['.'] := String.toList_append
  rw [namespaceOf, htext, dropFinalDot, List.getLast?_concat, if_pos rfl, List.dropLast_concat,
    String.ofList_toList]

lemma prefixOf_of_isNamespace (hne : name ≠ "") (h : IsNamespace name) :
    prefixOf name = name ++ "." := by
  rw [prefixOf, if_neg (not_or.2 ⟨hne, h⟩)]

lemma isPlainPrefix_prefixOf (h : IsNamespace name) : IsPlainPrefix (prefixOf name) := by
  by_cases hne : name = ""
  · subst name
    exact .inl rfl
  · exact .inr ⟨name, hne, h, prefixOf_of_isNamespace hne h⟩

lemma isNamespace_namespaceOf (h : IsPlainPrefix outer) : IsNamespace (namespaceOf outer) := by
  rcases h with rfl | ⟨name, -, hname, rfl⟩
  · exact isNamespace_empty
  · rwa [namespaceOf_append_dot]

lemma namespaceOf_prefixOf (h : IsNamespace name) : namespaceOf (prefixOf name) = name := by
  by_cases hne : name = ""
  · subst name
    rfl
  · rw [prefixOf_of_isNamespace hne h, namespaceOf_append_dot]

lemma prefixOf_namespaceOf (h : IsPlainPrefix outer) : prefixOf (namespaceOf outer) = outer := by
  rcases h with rfl | ⟨name, hne, hname, rfl⟩
  · rfl
  · rw [namespaceOf_append_dot, prefixOf_of_isNamespace hne hname]

/-! ## Bytes -/

/-- The byte of the dot. -/
def dotByte : UInt8 := '.'.toUInt8

/-- What bytes there are through the last dot; a dot at the very end is skipped. -/
def prefixBytes (bytes : List UInt8) : List UInt8 :=
  let searched := if bytes.getLast? = some dotByte then bytes.dropLast else bytes
  searched.rdropWhile (· ≠ dotByte)

/-- What bytes there are after the last dot. -/
def simpleBytes (bytes : List UInt8) : List UInt8 :=
  bytes.rtakeWhile (· ≠ dotByte)

lemma utf8EncodeChar_dot : String.utf8EncodeChar '.' = [dotByte] := by decide

/-- No character but the dot has the byte of the dot in it. -/
lemma ne_dotByte_of_mem (hc : c ≠ '.') :
    ∀ b ∈ (String.utf8EncodeChar c).reverse, decide (b ≠ dotByte) = true := by
  intro b hb
  rw [decide_eq_true_eq]
  rintro rfl
  exact hc ((Text.toUInt8_mem_utf8EncodeChar_iff (by decide)).1 (List.mem_reverse.1 hb))

lemma rdropWhile_append_utf8EncodeChar (hc : c ≠ '.') (bytes : List UInt8) :
    (bytes ++ String.utf8EncodeChar c).rdropWhile (· ≠ dotByte) =
      bytes.rdropWhile (· ≠ dotByte) := by
  rw [List.rdropWhile, List.reverse_append, List.dropWhile_append_of_pos (ne_dotByte_of_mem hc),
    List.rdropWhile]

lemma rtakeWhile_append_utf8EncodeChar (hc : c ≠ '.') (bytes : List UInt8) :
    (bytes ++ String.utf8EncodeChar c).rtakeWhile (· ≠ dotByte) =
      bytes.rtakeWhile (· ≠ dotByte) ++ String.utf8EncodeChar c := by
  rw [List.rtakeWhile, List.reverse_append, List.takeWhile_append_of_pos (ne_dotByte_of_mem hc),
    List.reverse_append, List.reverse_reverse, List.rtakeWhile]

lemma flatMap_throughLastDot (text : List Char) :
    (throughLastDot text).flatMap String.utf8EncodeChar =
      (text.flatMap String.utf8EncodeChar).rdropWhile (· ≠ dotByte) := by
  induction text using List.reverseRecOn with
  | nil => rfl
  | append_singleton text c ih =>
    rw [throughLastDot_append_singleton, List.flatMap_append, List.flatMap_singleton]
    by_cases hc : c = '.'
    · subst c
      rw [if_pos rfl, utf8EncodeChar_dot, List.rdropWhile_concat_neg _ _ _ (by simp),
        List.flatMap_append, List.flatMap_singleton, utf8EncodeChar_dot]
    · rw [if_neg hc, ih, rdropWhile_append_utf8EncodeChar hc]

lemma afterLastDot_append_singleton (text : List Char) (c : Char) :
    afterLastDot (text ++ [c]) = if c = '.' then [] else afterLastDot text ++ [c] := by
  by_cases hc : c = '.' <;> simp [afterLastDot, hc]

lemma flatMap_afterLastDot (text : List Char) :
    (afterLastDot text).flatMap String.utf8EncodeChar =
      (text.flatMap String.utf8EncodeChar).rtakeWhile (· ≠ dotByte) := by
  induction text using List.reverseRecOn with
  | nil => rfl
  | append_singleton text c ih =>
    rw [afterLastDot_append_singleton, List.flatMap_append, List.flatMap_singleton]
    by_cases hc : c = '.'
    · subst c
      rw [if_pos rfl, utf8EncodeChar_dot, List.rtakeWhile_concat_neg _ _ _ (by simp),
        List.flatMap_nil]
    · rw [if_neg hc, rtakeWhile_append_utf8EncodeChar hc, List.flatMap_append,
        List.flatMap_singleton, ih]

lemma bytesOf_eq_flatMap (name : String) :
    Text.bytesOf name = name.toList.flatMap String.utf8EncodeChar := by
  rw [← Text.bytesOf_ofList, String.ofList_toList]

/-- The bytes of a prefix are cut out of the bytes of the name. -/
theorem bytesOf_namespacePrefix (name : String) :
    Text.bytesOf (namespacePrefix name) = prefixBytes (Text.bytesOf name) := by
  by_cases h : name = ""
  · subst name
    rfl
  · obtain ⟨text, c, hname⟩ := exists_toList_eq_append_singleton h
    rw [bytesOf_eq_flatMap, bytesOf_eq_flatMap, toList_namespacePrefix hname, hname,
      flatMap_throughLastDot, List.flatMap_append, List.flatMap_singleton, prefixBytes]
    by_cases hc : c = '.'
    · subst c
      rw [utf8EncodeChar_dot, List.getLast?_concat, if_pos rfl, List.dropLast_concat]
    · have hlast : (text.flatMap String.utf8EncodeChar ++ String.utf8EncodeChar c).getLast? ≠
          some dotByte := by
        rw [List.getLast?_append_of_ne_nil _ String.utf8EncodeChar_ne_nil]
        intro hlast
        have hmem := List.mem_reverse.2 (List.mem_of_getLast? hlast)
        exact of_decide_eq_true (ne_dotByte_of_mem hc _ hmem) rfl
      rw [if_neg hlast]
      exact (rdropWhile_append_utf8EncodeChar hc _).symm

/-- The bytes of a simple name are cut out of the bytes of the name. -/
theorem bytesOf_simpleName (name : String) :
    Text.bytesOf (simpleName name) = simpleBytes (Text.bytesOf name) := by
  rw [simpleName, Text.bytesOf_ofList, flatMap_afterLastDot, bytesOf_eq_flatMap, simpleBytes]

/-! ## Names as a whole -/

/-- Names come apart at their dots, whatever else they are made of, and however many dots follow
one another or come first.

The prefix of a name, which may itself be a prefix, is the longest of the prefixes that enclose it.
Taking the prefix again and again visits all prefixes that enclose the name, from the longest to the
root, and nothing else.  A prefix and a simple name can be got back from the name that they make.
Namespaces that do not end in a dot and prefixes that end in just one correspond to each other, the
root to the root.  Bytes are cut where characters are. -/
theorem qualified_names_come_apart :
    (∀ name, name ≠ "" → Encloses (namespacePrefix name) name ∧
      ∀ outer, Encloses outer name → outer.toList <+: (namespacePrefix name).toList) ∧
    (∀ name, ∃ steps, namespacePrefix^[steps] name = "" ∧
      let visited := (List.range steps).map fun k => namespacePrefix^[k + 1] name
      (name :: visited).Pairwise (fun inner outer => outer.length < inner.length) ∧
        (∀ outer, outer ∈ visited ↔ Encloses outer name) ∧ enclosingPrefixes name = visited) ∧
    (∀ outer name, IsPrefix outer → name ≠ "" → '.' ∉ name.toList →
      namespacePrefix (outer ++ name) = outer ∧ simpleName (outer ++ name) = name) ∧
    (Set.InvOn namespaceOf prefixOf { name | IsNamespace name } { outer | IsPlainPrefix outer } ∧
      Set.MapsTo prefixOf { name | IsNamespace name } { outer | IsPlainPrefix outer } ∧
      Set.MapsTo namespaceOf { outer | IsPlainPrefix outer } { name | IsNamespace name }) ∧
    ∀ name, Text.bytesOf (namespacePrefix name) = prefixBytes (Text.bytesOf name) ∧
      Text.bytesOf (simpleName name) = simpleBytes (Text.bytesOf name) := by
  refine ⟨?longest, ?walk, ?together, ?inverse, ?bytes⟩
  case longest =>
    intro name h
    exact ⟨encloses_namespacePrefix h, fun outer => Encloses.prefix_namespacePrefix⟩
  case walk =>
    intro name
    obtain ⟨steps, hroot, hvisited⟩ := enclosingPrefixes_eq_map name
    refine ⟨steps, hroot, ?_⟩
    rw [← hvisited]
    exact ⟨pairwise_enclosingPrefixes name, fun outer => mem_enclosingPrefixes_iff, rfl⟩
  case together =>
    intro outer name houter hne hdot
    exact ⟨namespacePrefix_append houter hne hdot, simpleName_append houter hdot⟩
  case inverse =>
    refine ⟨⟨?_, ?_⟩, ?_, ?_⟩
    · exact fun name => namespaceOf_prefixOf
    · exact fun outer => prefixOf_namespaceOf
    · exact fun name => isPlainPrefix_prefixOf
    · exact fun outer => isNamespace_namespaceOf
  case bytes =>
    intro name
    exact ⟨bytesOf_namespacePrefix name, bytesOf_simpleName name⟩

example : enclosingPrefixes "..für.Größe" = ["..für.", "..", ".", ""] := by decide

end Name
end Pseudonym
