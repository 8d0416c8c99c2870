import Std.Data.ExtTreeSet
import Pseudonym.Text.Lines
import Pseudonym.Unicode.Alphabetic
import Pseudonym.Unicode.Numeric

/-!
# Word lists

A word list supplies names in an order of the user's choosing.  It holds no empty word and no word
twice, and the type says so; `WordList.ofWords` makes one from any words by dropping what is empty
and every repetition.

A list is read from a text in one of two ways.  Read for identifiers, a line counts up to its first
number sign, and a word begins at a letter, an underscore or a dollar sign and runs on through
letters, numbers, underscores and dollar signs; digits in front of a word are passed over.  Read by
lines, every line is a word, except that lines beginning with a number sign are comments.
-/

namespace Pseudonym
namespace Name

/-- Words in order, none empty and none repeated. -/
structure WordList where
  words : List String
  nodup : words.Nodup
  nonempty : "" ∉ words

/-! ## Dropping repetitions -/

/-- The words that are not in `seen`, each at its first occurrence. -/
def firstOccurrences (seen : Std.ExtTreeSet String) : List String → List String
  | [] => []
  | word :: rest =>
    if word ∈ seen then firstOccurrences seen rest
    else word :: firstOccurrences (seen.insert word) rest

theorem mem_firstOccurrences {seen : Std.ExtTreeSet String} {words : List String} {word : String} :
    word ∈ firstOccurrences seen words ↔ word ∈ words ∧ word ∉ seen := by
  induction words generalizing seen with
  | nil => simp [firstOccurrences]
  | cons first rest ih =>
    by_cases h : first ∈ seen
    · rw [firstOccurrences, if_pos h, ih, List.mem_cons]
      exact ⟨fun ⟨m, n⟩ => ⟨.inr m, n⟩, fun ⟨m, n⟩ => ⟨m.resolve_left fun e => n (e ▸ h), n⟩⟩
    · rw [firstOccurrences, if_neg h, List.mem_cons, ih, List.mem_cons, Std.ExtTreeSet.mem_insert]
      grind

theorem nodup_firstOccurrences (seen : Std.ExtTreeSet String) (words : List String) :
    (firstOccurrences seen words).Nodup := by
  induction words generalizing seen with
  | nil => exact List.nodup_nil
  | cons first rest ih =>
    rw [firstOccurrences]
    split
    · exact ih seen
    · refine List.nodup_cons.2 ⟨fun mem => ?_, ih _⟩
      exact (mem_firstOccurrences.1 mem).2 (by simp)

/-- What is left are the words that have not been seen, without their repetitions. -/
theorem firstOccurrences_eq (seen : Std.ExtTreeSet String) (words : List String) :
    firstOccurrences seen words = (words.filter (· ∉ seen)).eraseDups := by
  induction words generalizing seen with
  | nil => rfl
  | cons first rest ih =>
    by_cases h : first ∈ seen
    · rw [firstOccurrences, if_pos h, ih, List.filter_cons_of_neg (by simpa using h)]
    · have hlater : rest.filter (· ∉ seen.insert first) =
          (rest.filter (· ∉ seen)).filter fun word => !word == first := by
        rw [List.filter_filter]
        refine List.filter_congr fun word _ => ?_
        by_cases hword : word = first
        · simp [Std.ExtTreeSet.mem_insert, hword]
        · simp [Std.ExtTreeSet.mem_insert, hword, Ne.symm hword]
      rw [firstOccurrences, if_neg h, ih, List.filter_cons_of_pos (by simpa using h),
        List.eraseDups_cons, hlater]

namespace WordList

/-- The list without words. -/
def empty : WordList := ⟨[], List.nodup_nil, List.not_mem_nil⟩

instance : Inhabited WordList := ⟨empty⟩

/-- The words that are not empty, each at its first occurrence. -/
def ofWords (words : List String) : WordList where
  words := firstOccurrences ∅ (words.filter (· ≠ ""))
  nodup := nodup_firstOccurrences ∅ _
  nonempty mem := by simpa using (mem_firstOccurrences.1 mem).1

theorem words_ofWords (words : List String) :
    (ofWords words).words = (words.filter (· ≠ "")).eraseDups :=
  (firstOccurrences_eq ∅ _).trans (by simp)

/-- The number of words. -/
def size (list : WordList) : Nat := list.words.length

/-- The word at a position, counted from zero. -/
def get? (list : WordList) (k : Nat) : Option String := list.words[k]?

/-- Whether a word is in the list. -/
def contains (list : WordList) (word : String) : Bool := list.words.contains word

end WordList

/-! ## Reading -/

/-- Whether a character may begin a word. -/
def isWordStart (c : Char) : Bool :=
  Unicode.isAlphabetic c || c = '_' || c = '$'

/-- Whether a character may stand inside a word. -/
def isWordPart (c : Char) : Bool :=
  isWordStart c || Unicode.isNumeric c

/-- The words of a line.  `current` is the word being read, last character first, if one has
begun. -/
def scanWords : (current : Option (List Char)) → List Char → List (List Char)
  | none, [] => []
  | some word, [] => [word.reverse]
  | none, c :: rest => scanWords (if isWordStart c then some [c] else none) rest
  | some word, c :: rest =>
    if isWordPart c then scanWords (some (c :: word)) rest
    else word.reverse :: scanWords none rest

/-- The part of a line before its first number sign. -/
def withoutComment (line : List Char) : List Char :=
  line.takeWhile (· ≠ '#')

/-- The identifiers of a text in order. -/
def identifiers (text : List Char) : List (List Char) :=
  (Text.lines text).flatMap fun line => scanWords none (withoutComment line)

/-- The lines of a text that are not comments, without carriage returns at the end. -/
def plainLines (text : List Char) : List (List Char) :=
  ((Text.lines text).filter (·.head? ≠ some '#')).map (Text.dropLastWhile (· = '\r'))

/-- The two ways of reading a word list from a text. -/
inductive WordFormat where
  | identifiers
  | lines
  deriving DecidableEq

/-- Reads a word list from a text. -/
def WordList.parse (format : WordFormat) (text : String) : WordList :=
  let found := match format with
    | .identifiers => identifiers text.toList
    | .lines => plainLines text.toList
  .ofWords (found.map String.ofList)

end Name
end Pseudonym
