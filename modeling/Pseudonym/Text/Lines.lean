import Pseudonym.Unicode.WhiteSpace

/-!
# Cutting a text into pieces

Word lists are read line by line and retention lists are cut at commas.  Both are instances of
`pieces`, which cuts at every occurrence of a character and keeps the empty pieces, so that joining
the pieces again gives the text back (`intercalate_pieces`).

A line ends at a line feed or at a carriage return followed by a line feed.  A carriage return by
itself belongs to its line, and so does one at the very end of the text; text after the last line
feed is a line unless it is empty.
-/

namespace Pseudonym
namespace Text

/-- Puts a character in front of the first piece. -/
def consFirst (c : Char) : List (List Char) → List (List Char)
  | [] => [[c]]
  | piece :: rest => (c :: piece) :: rest

/-- The pieces between the occurrences of a separator; there is always at least one. -/
def pieces (separator : Char) (text : List Char) : List (List Char) :=
  text.foldr (fun c cut => if c = separator then [] :: cut else consFirst c cut) [[]]

@[simp] theorem pieces_nil (separator : Char) : pieces separator [] = [[]] := rfl

@[simp] theorem pieces_cons (separator c : Char) (text : List Char) :
    pieces separator (c :: text) =
      if c = separator then [] :: pieces separator text
      else consFirst c (pieces separator text) := rfl

theorem pieces_ne_nil (separator : Char) (text : List Char) : pieces separator text ≠ [] := by
  cases text with
  | nil => simp
  | cons c rest =>
    rw [pieces_cons]
    split
    · simp
    · cases pieces separator rest <;> simp [consFirst]

/-- Cutting into pieces is splitting. -/
theorem pieces_eq_splitOn (separator : Char) (text : List Char) :
    pieces separator text = text.splitOn separator := by
  induction text with
  | nil => simp
  | cons c rest ih =>
    have hne : rest.splitOn separator ≠ [] := ih ▸ pieces_ne_nil separator rest
    have hcons : consFirst c (rest.splitOn separator) =
        (rest.splitOn separator).modifyHead (List.cons c) := by
      cases h : rest.splitOn separator with
      | nil => exact absurd h hne
      | cons piece more => rfl
    rw [pieces_cons, ih, hcons]
    simp only [List.splitOn, List.splitOnP_cons_eq_if_modifyHead, beq_iff_eq]

/-- Cutting at one place and cutting both sides gives the same pieces as cutting everywhere. -/
theorem pieces_append_cons (separator : Char) (text rest : List Char) :
    pieces separator (text ++ separator :: rest) =
      pieces separator text ++ pieces separator rest := by
  rw [pieces_eq_splitOn, pieces_eq_splitOn, pieces_eq_splitOn]
  exact List.splitOnP_append_cons text rest (beq_self_eq_true separator)

/-- Joining the pieces with the separator between them gives the text back. -/
theorem intercalate_pieces (separator : Char) (text : List Char) :
    [separator].intercalate (pieces separator text) = text := by
  induction text with
  | nil => simp [List.intercalate]
  | cons c rest ih =>
    obtain ⟨piece, more, h⟩ : ∃ piece more, pieces separator rest = piece :: more := by
      cases h : pieces separator rest with
      | nil => exact absurd h (pieces_ne_nil separator rest)
      | cons piece more => exact ⟨piece, more, rfl⟩
    rw [h] at ih
    rw [pieces_cons, h]
    split
    · subst c
      cases more <;> simpa [List.intercalate, List.intersperse] using ih
    · cases more <;> simpa [List.intercalate, List.intersperse, consFirst] using ih

/-- Removes one carriage return from the end. -/
def dropReturn (line : List Char) : List Char :=
  if line.getLast? = some '\r' then line.dropLast else line

/-- The lines of a text, without their ends. -/
def lines (text : List Char) : List (List Char) :=
  let cut := pieces '\n' text
  cut.dropLast.map dropReturn ++ cut.getLast?.toList.filter (· ≠ [])

/-- Removes the characters of a class from the end. -/
def dropLastWhile (p : Char → Bool) (text : List Char) : List Char :=
  (text.reverse.dropWhile p).reverse

/-- Removes white space from both ends. -/
def trim (text : List Char) : List Char :=
  dropLastWhile Unicode.isWhiteSpace (text.dropWhile Unicode.isWhiteSpace)

end Text
end Pseudonym
