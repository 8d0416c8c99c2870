import Mathlib.Data.List.Basic
import Mathlib.Data.List.Induction
import Mathlib.Data.Nat.Basic
import Pseudonym.Name.Syntax

/-!
# Prefixes of qualified names

A prefix is empty or ends in a dot.  Walking outwards from a name leads from one prefix to the next
shorter one until the root, and `enclosingPrefixes` lists what the walk meets.  The list is built in
one pass from the front of the name, while each step of the walk looks at the end of the name;
`enclosingPrefixes_eq` says that both are the same.

A name is put together from a prefix and a simple name without dots, and taking the prefix of the
name gives it back (`namespacePrefix_append`).
-/

namespace Pseudonym
namespace Name

/-! ## The last dot of a text -/

@[simp] lemma throughLastDot_nil : throughLastDot [] = [] := rfl

lemma throughLastDot_append_singleton (text : List Char) (c : Char) :
    throughLastDot (text ++ [c]) = if c = '.' then text ++ [c] else throughLastDot text := by
  by_cases hc : c = '.' <;> simp [throughLastDot, hc]

/-- What has no dots adds nothing to the part up to the last dot. -/
lemma throughLastDot_append_of_notMem {text rest : List Char} (h : '.' ∉ rest) :
    throughLastDot (text ++ rest) = throughLastDot text := by
  induction rest using List.reverseRecOn with
  | nil => rw [List.append_nil]
  | append_singleton rest c ih =>
    rw [List.mem_append, List.mem_singleton, not_or] at h
    rw [← List.append_assoc, throughLastDot_append_singleton, if_neg (Ne.symm h.2), ih h.1]

lemma throughLastDot_of_getLast? {text : List Char} (h : text.getLast? = some '.') :
    throughLastDot text = text := by
  induction text using List.reverseRecOn with
  | nil => rfl
  | append_singleton text c _ =>
    rw [List.getLast?_append, List.getLast?_singleton, Option.some_or] at h
    rw [throughLastDot_append_singleton, if_pos (Option.some.inj h)]

lemma throughLastDot_eq_nil_or (text : List Char) :
    throughLastDot text = [] ∨ (throughLastDot text).getLast? = some '.' := by
  induction text using List.reverseRecOn with
  | nil => exact .inl rfl
  | append_singleton text c ih =>
    rw [throughLastDot_append_singleton]
    split
    · exact .inr (by simp [*])
    · exact ih

/-- One character at the end of a name does not count for its prefix, be it a dot or not. -/
lemma throughLastDot_dropFinalDot_append_singleton (text : List Char) (c : Char) :
    throughLastDot (dropFinalDot (text ++ [c])) = throughLastDot text := by
  by_cases hc : c = '.'
  · simp [dropFinalDot, hc]
  · simp [dropFinalDot, hc, throughLastDot_append_singleton]

/-! ## Prefixes -/

/-- Whether a text is a namespace prefix: the root, or something that ends in a dot. -/
def IsPrefix (outer : String) : Prop :=
  outer = "" ∨ outer.toList.getLast? = some '.'

lemma isPrefix_namespacePrefix (name : String) : IsPrefix (namespacePrefix name) := by
  rcases throughLastDot_eq_nil_or (dropFinalDot name.toList) with h | h
  · exact .inl (by rw [namespacePrefix, h])
  · exact .inr (by rw [namespacePrefix, String.toList_ofList, h])

lemma namespacePrefix_empty : namespacePrefix "" = "" := rfl

/-- A prefix followed by a simple name is a name with this prefix. -/
theorem namespacePrefix_append {outer name : String} (houter : IsPrefix outer)
    (hne : name ≠ "") (hdot : '.' ∉ name.toList) : namespacePrefix (outer ++ name) = outer := by
  have hlast : (outer ++ name).toList.getLast? ≠ some '.' := by
    rw [String.toList_append, List.getLast?_append]
    intro h
    rcases Option.or_eq_some_iff.1 h with h | ⟨h, -⟩
    · exact hdot (List.mem_of_getLast? h)
    · exact hne (String.toList_eq_nil_iff.1 (List.getLast?_eq_none_iff.1 h))
  rw [namespacePrefix, dropFinalDot, if_neg hlast, String.toList_append,
    throughLastDot_append_of_notMem hdot]
  rcases houter with rfl | houter
  · rfl
  · rw [throughLastDot_of_getLast? houter, String.ofList_toList]

/-! ## Walking outwards -/

/-- The pass over a name finds at its last character the text before it, if this is a prefix. -/
lemma prefixesAfter_append_singleton (passed : List Char) (found : List (List Char))
    (text : List Char) (c : Char) :
    prefixesAfter passed found (text ++ [c]) =
      if (text.reverse ++ passed).head?.all (· = '.')
      then (passed.reverse ++ text) :: prefixesAfter passed found text
      else prefixesAfter passed found text := by
  induction text generalizing passed found with
  | nil => simp [prefixesAfter]
  | cons d rest ih =>
    rw [List.cons_append, prefixesAfter, ih, prefixesAfter]
    simp

/-- Of two ways to tell a prefix, by its last character and by the first of its reversal. -/
lemma head?_reverse_all_iff (text : List Char) :
    text.reverse.head?.all (· = '.') ↔ text = [] ∨ text.getLast? = some '.' := by
  rw [List.head?_reverse]
  cases h : text.getLast? with
  | none => simpa using List.getLast?_eq_none_iff.1 h
  | some c =>
    have hne : text ≠ [] := fun hnil => by simp [hnil] at h
    simp [hne]

/-- The pass meets the same prefixes as the walk outwards. -/
lemma prefixesAfter_eq_cons (text : List Char) (c : Char) :
    prefixesAfter [] [] (text ++ [c]) =
      throughLastDot text :: prefixesAfter [] [] (throughLastDot text) := by
  induction text using List.reverseRecOn generalizing c with
  | nil => rfl
  | append_singleton text d ih =>
    rw [prefixesAfter_append_singleton, List.append_nil]
    by_cases hd : d = '.'
    · rw [if_pos ((head?_reverse_all_iff _).2 (.inr (by simp [hd]))),
        throughLastDot_append_singleton, if_pos hd]
      rfl
    · rw [if_neg (fun h => hd (by simpa using (head?_reverse_all_iff _).1 h)),
        throughLastDot_append_singleton, if_neg hd]
      exact ih d

lemma exists_toList_eq_append_singleton {name : String} (h : name ≠ "") :
    ∃ text c, name.toList = text ++ [c] := by
  rcases List.eq_nil_or_concat' name.toList with hnil | hlast
  · exact absurd (String.toList_eq_nil_iff.1 hnil) h
  · exact hlast

/-- Walking outwards from a name meets its prefix first, and then what the prefix meets. -/
theorem enclosingPrefixes_eq {name : String} (h : name ≠ "") :
    enclosingPrefixes name = namespacePrefix name :: enclosingPrefixes (namespacePrefix name) := by
  obtain ⟨text, c, htext⟩ := exists_toList_eq_append_singleton h
  rw [enclosingPrefixes, enclosingPrefixes, namespacePrefix, htext,
    throughLastDot_dropFinalDot_append_singleton, prefixesAfter_eq_cons, String.toList_ofList,
    List.map_cons]

@[simp] lemma enclosingPrefixes_empty : enclosingPrefixes "" = [] := rfl

/-- The prefix of a name is shorter than the name. -/
lemma length_namespacePrefix_lt {name : String} (h : name ≠ "") :
    (namespacePrefix name).length < name.length := by
  obtain ⟨text, c, htext⟩ := exists_toList_eq_append_singleton h
  have hle : (throughLastDot text).length ≤ text.length := by
    simpa [throughLastDot] using (List.dropWhile_sublist (l := text.reverse) (· ≠ '.')).length_le
  rw [← String.length_toList, ← String.length_toList, namespacePrefix, String.toList_ofList, htext,
    throughLastDot_dropFinalDot_append_singleton, List.length_append, List.length_singleton]
  omega

/-- What holds of a name if it holds of its prefix, and of the root, holds of every name. -/
theorem outwards_induction {motive : String → Prop}
    (step : ∀ name, (name ≠ "" → motive (namespacePrefix name)) → motive name) (name : String) :
    motive name := by
  induction hn : name.length using Nat.strong_induction_on generalizing name with
  | _ n ih =>
    subst hn
    exact step name fun hne => ih _ (length_namespacePrefix_lt hne) _ rfl

/-- An induction along the walk outwards. -/
theorem walk_induction {motive : String → Prop} (root : motive "")
    (step : ∀ name, name ≠ "" → motive (namespacePrefix name) → motive name) (name : String) :
    motive name := by
  induction name using outwards_induction with
  | step name ih =>
    rcases eq_or_ne name "" with rfl | hne
    · exact root
    · exact step name hne (ih hne)

/-- Everything that the walk outwards meets is a prefix. -/
lemma isPrefix_of_mem_enclosingPrefixes {name outer : String}
    (h : outer ∈ enclosingPrefixes name) : IsPrefix outer := by
  induction name using walk_induction with
  | root => exact nomatch h
  | step name hne ih =>
    rw [enclosingPrefixes_eq hne, List.mem_cons] at h
    rcases h with rfl | h
    · exact isPrefix_namespacePrefix name
    · exact ih h

end Name
end Pseudonym
