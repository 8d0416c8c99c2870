import Mathlib.Data.List.Basic
import Mathlib.Data.List.Forall2
import Mathlib.Data.List.TakeWhile
import Pseudonym.Name.WordList

/-!
# Texts that are read for identifiers

What a text holds for a word list is told by its runs.  A run of a line is a stretch of characters
that may stand inside a word, with no such character at either end of it; everything from the first
number sign of the line on does not count.  A run gives one word, from its first character on that
may begin a word, or none.  Reading a text comes to exactly the words of its runs, in order and
without repetitions.

`HasRuns` says what the runs of a line are, by cutting the line at their ends.  It does not say how
to find them, and the scanner, which goes through a line once, does not know of runs: it passes over
the beginning of a run until a word begins in it (`scanWords_run`).

Line ends are no part of a word, so where there is no number sign they do not matter either
(`identifiers_of_notMem`).  That is why a list of identifiers is read back from a text in which they
stand one after the other, whatever stands between them.
-/

namespace Pseudonym
namespace Name

variable {gap run rest line text : List Char} {runs : List (List Char)}

/-! ## Characters -/

lemma isWordStart_eq_false {c : Char} (h : isWordPart c = false) : isWordStart c = false :=
  (Bool.or_eq_false_iff.1 h).1

lemma isWordPart_lineFeed : isWordPart '\n' = false := by decide +kernel

lemma isWordPart_return : isWordPart '\r' = false := by decide +kernel

lemma isWordPart_sign : isWordPart '#' = false := by decide +kernel

/-! ## Runs -/

/-- Whether a line has these runs.  Between two of them, and on the outside, stand only characters
that are not part of a word. -/
inductive HasRuns : List Char → List (List Char) → Prop where
  | none {gap : List Char} (outside : ∀ c ∈ gap, isWordPart c = false) : HasRuns gap []
  | run {gap run rest : List Char} {runs : List (List Char)}
      (outside : ∀ c ∈ gap, isWordPart c = false) (nonempty : run ≠ [])
      (inside : ∀ c ∈ run, isWordPart c = true) (ends : ∀ c ∈ rest.head?, isWordPart c = false)
      (later : HasRuns rest runs) : HasRuns (gap ++ (run ++ rest)) (run :: runs)

/-- The word in a run: all from its first character on that may begin a word. -/
def fromWordStart (run : List Char) : List Char :=
  run.dropWhile fun c => !isWordStart c

/-- The words in runs. -/
def wordsOfRuns (runs : List (List Char)) : List (List Char) :=
  (runs.map fromWordStart).filter (· ≠ [])

lemma wordsOfRuns_append (runs runs' : List (List Char)) :
    wordsOfRuns (runs ++ runs') = wordsOfRuns runs ++ wordsOfRuns runs' := by
  rw [wordsOfRuns, List.map_append, List.filter_append]
  rfl

/-- Every line has runs. -/
lemma exists_hasRuns (line : List Char) : ∃ runs, HasRuns line runs := by
  induction hlength : line.length using Nat.strongRecOn generalizing line with
  | ind n ih =>
    have hline : line = line.takeWhile (fun c => !isWordPart c) ++
        line.dropWhile (fun c => !isWordPart c) := List.takeWhile_append_dropWhile.symm
    have hgap : ∀ c ∈ line.takeWhile (fun c => !isWordPart c), isWordPart c = false := by
      intro c hc
      simpa using List.mem_takeWhile_imp hc
    cases hrest : line.dropWhile (fun c => !isWordPart c) with
    | nil =>
      rw [hrest, List.append_nil] at hline
      exact ⟨[], .none fun c hc => hgap c (hline ▸ hc)⟩
    | cons c rest =>
      have hc : isWordPart c = true := by
        have hhead := List.head?_dropWhile_not (fun c => !isWordPart c) line
        rw [hrest] at hhead
        simpa using hhead
      have hsplit : c :: rest = (c :: rest.takeWhile isWordPart) ++ rest.dropWhile isWordPart := by
        rw [List.cons_append, List.takeWhile_append_dropWhile]
      have hshorter : (rest.dropWhile isWordPart).length < n := by
        have hle := (List.dropWhile_sublist isWordPart (l := rest)).length_le
        have hle' := (List.dropWhile_sublist (fun c => !isWordPart c) (l := line)).length_le
        rw [hrest, List.length_cons] at hle'
        omega
      obtain ⟨runs, hruns⟩ := ih _ hshorter (rest.dropWhile isWordPart) rfl
      refine ⟨(c :: rest.takeWhile isWordPart) :: runs, ?_⟩
      rw [hline, hrest, hsplit]
      refine .run hgap (List.cons_ne_nil _ _) ?_ ?_ hruns
      · intro d hd
        rcases List.mem_cons.1 hd with rfl | hd
        · exact hc
        · exact List.mem_takeWhile_imp hd
      · intro d hd
        have hhead := List.head?_dropWhile_not isWordPart rest
        rw [Option.mem_def.1 hd] at hhead
        simpa using hhead

/-! ## Scanning -/

/-- Outside of words, characters that are not part of one are passed over. -/
lemma scanWords_gap (h : ∀ c ∈ gap, isWordPart c = false) (rest : List Char) :
    scanWords none (gap ++ rest) = scanWords none rest := by
  induction gap with
  | nil => rfl
  | cons c gap ih =>
    obtain ⟨hc, hgap⟩ := List.forall_mem_cons.1 h
    rw [List.cons_append, scanWords, isWordStart_eq_false hc]
    exact ih hgap

/-- A word that has begun goes on to the end of its run. -/
lemma scanWords_some (hrun : ∀ c ∈ run, isWordPart c = true)
    (hends : ∀ c ∈ rest.head?, isWordPart c = false) (word : List Char) :
    scanWords (some word) (run ++ rest) = (word.reverse ++ run) :: scanWords none rest := by
  induction run generalizing word with
  | nil =>
    cases rest with
    | nil => simp [scanWords]
    | cons c rest =>
      have hc : isWordPart c = false := hends c rfl
      simp [scanWords, hc, isWordStart_eq_false hc]
  | cons c run ih =>
    obtain ⟨hc, hrun⟩ := List.forall_mem_cons.1 hrun
    rw [List.cons_append, scanWords, if_pos hc, ih hrun]
    simp

/-- A run is read as the word that is in it. -/
lemma scanWords_run (hrun : ∀ c ∈ run, isWordPart c = true)
    (hends : ∀ c ∈ rest.head?, isWordPart c = false) :
    scanWords none (run ++ rest) = wordsOfRuns [run] ++ scanWords none rest := by
  induction run with
  | nil => rfl
  | cons c run ih =>
    obtain ⟨-, hrun⟩ := List.forall_mem_cons.1 hrun
    rw [List.cons_append, scanWords]
    by_cases hc : isWordStart c = true
    · rw [if_pos hc, scanWords_some hrun hends]
      simp [wordsOfRuns, fromWordStart, hc]
    · have hsame : fromWordStart (c :: run) = fromWordStart run := by
        simp [fromWordStart, hc]
      rw [if_neg hc, ih hrun, wordsOfRuns, wordsOfRuns, List.map_singleton, List.map_singleton,
        hsame]

/-- A line is read as the words in its runs. -/
theorem scanWords_of_hasRuns (h : HasRuns line runs) : scanWords none line = wordsOfRuns runs := by
  induction h with
  | none outside =>
    have hgap := scanWords_gap outside []
    rwa [List.append_nil] at hgap
  | @run gap run rest runs outside _ inside ends _ ih =>
    rw [scanWords_gap outside, scanWords_run inside ends, ih, ← wordsOfRuns_append]
    rfl

/-- A character that is not part of a word can be left out at the end of any text. -/
lemma scanWords_append_cons {c : Char} (hc : isWordPart c = false) (current : Option (List Char))
    (before after : List Char) :
    scanWords current (before ++ c :: after) =
      scanWords current before ++ scanWords none after := by
  induction before generalizing current with
  | nil => cases current <;> simp [scanWords, hc, isWordStart_eq_false hc]
  | cons d before ih =>
    cases current with
    | none =>
      rw [List.cons_append, scanWords, scanWords]
      exact ih _
    | some word =>
      rw [List.cons_append, scanWords, scanWords]
      split
      · exact ih _
      · rw [ih, List.cons_append]

/-! ## Lines -/

/-- The part of each line that counts has these runs. -/
def LinesHaveRuns (lines : List (List Char)) (runs : List (List (List Char))) : Prop :=
  List.Forall₂ (fun line runs => HasRuns (line.takeWhile (· ≠ '#')) runs) lines runs

lemma exists_linesHaveRuns (lines : List (List Char)) : ∃ runs, LinesHaveRuns lines runs := by
  induction lines with
  | nil => exact ⟨[], .nil⟩
  | cons line rest ih =>
    obtain ⟨runs, hruns⟩ := exists_hasRuns (line.takeWhile (· ≠ '#'))
    obtain ⟨later, hlater⟩ := ih
    exact ⟨runs :: later, .cons hruns hlater⟩

lemma flatMap_scanWords {lines : List (List Char)} {runs : List (List (List Char))}
    (h : LinesHaveRuns lines runs) :
    lines.flatMap (fun line => scanWords none (withoutComment line)) =
      wordsOfRuns runs.flatten := by
  induction h with
  | nil => rfl
  | cons hruns _ ih =>
    rw [List.flatMap_cons, List.flatten_cons, wordsOfRuns_append, ih]
    exact congrArg (· ++ _) (scanWords_of_hasRuns hruns)

/-- A carriage return at the end of a line is no part of a word. -/
lemma scanWords_dropReturn (line : List Char) :
    scanWords none (Text.dropReturn line) = scanWords none line := by
  unfold Text.dropReturn
  split
  · rename_i hlast
    have hscan := scanWords_append_cons isWordPart_return none line.dropLast []
    rw [List.dropLast_append_getLast? '\r' hlast, scanWords, List.append_nil] at hscan
    exact hscan.symm
  · rfl

/-- Nor is the line feed between two pieces of a text. -/
lemma flatMap_scanWords_pieces (pieces : List (List Char)) :
    pieces.flatMap (scanWords none) = scanWords none (['\n'].intercalate pieces) := by
  induction pieces with
  | nil => rfl
  | cons piece rest ih =>
    by_cases hlast : rest = []
    · simp [hlast]
    · rw [List.intercalate_cons_of_ne_nil hlast, List.append_assoc, List.singleton_append,
        scanWords_append_cons isWordPart_lineFeed, ← ih, List.flatMap_cons]

/-- Line ends could as well be scanned. -/
lemma flatMap_scanWords_lines (text : List Char) :
    (Text.lines text).flatMap (scanWords none) = scanWords none text := by
  have hlines : (Text.lines text).flatMap (scanWords none) =
      (Text.pieces '\n' text).flatMap (scanWords none) := by
    obtain ⟨front, last, hcut⟩ : ∃ front last, Text.pieces '\n' text = front ++ [last] :=
      (List.eq_nil_or_concat' _).resolve_left (Text.pieces_ne_nil '\n' text)
    rw [Text.lines, hcut]
    by_cases hlast : last = []
    · simp [hlast, scanWords, List.flatMap_map, scanWords_dropReturn]
    · simp [hlast, List.flatMap_map, scanWords_dropReturn]
  rw [hlines, flatMap_scanWords_pieces, Text.intercalate_pieces]

lemma mem_intercalate {c separator : Char} {pieces : List (List Char)} {piece : List Char}
    (h : piece ∈ pieces) (hc : c ∈ piece) : c ∈ [separator].intercalate pieces := by
  induction pieces with
  | nil => exact absurd h List.not_mem_nil
  | cons first rest ih =>
    by_cases hlast : rest = []
    · subst hlast
      obtain rfl := List.mem_singleton.1 h
      simpa using hc
    · rw [List.intercalate_cons_of_ne_nil hlast]
      rcases List.mem_cons.1 h with rfl | h
      · simp [hc]
      · exact List.mem_append_right _ (ih h)

/-- The characters of lines are those of the text. -/
lemma mem_of_mem_lines {c : Char} (h : line ∈ Text.lines text) (hc : c ∈ line) : c ∈ text := by
  rw [← Text.intercalate_pieces '\n' text]
  rcases List.mem_append.1 h with h | h
  · obtain ⟨piece, hpiece, rfl⟩ := List.mem_map.1 h
    refine mem_intercalate (List.dropLast_subset _ hpiece) ?_
    unfold Text.dropReturn at hc
    split at hc
    · exact List.dropLast_subset _ hc
    · exact hc
  · have hlast := Option.mem_toList.1 (List.mem_filter.1 h).1
    exact mem_intercalate (List.mem_of_getLast? hlast) hc

/-- Without a number sign, a text is read as if it were one line. -/
theorem identifiers_of_notMem (h : '#' ∉ text) : identifiers text = scanWords none text := by
  rw [← flatMap_scanWords_lines, identifiers, List.flatMap_def, List.flatMap_def]
  congr 1
  refine List.map_congr_left fun line hline => ?_
  have hsign : '#' ∉ line := fun hmem => h (mem_of_mem_lines hline hmem)
  have hwhole : withoutComment line = line := by
    refine List.takeWhile_eq_self_iff.2 fun c hc => ?_
    simpa using fun heq : c = '#' => hsign (heq ▸ hc)
  rw [hwhole]

/-! ## Words that stand one after the other -/

/-- Whether a word is an identifier: it begins as a word may begin, and goes on as one may. -/
structure IsIdentifier (word : String) : Prop where
  nonempty : word ≠ ""
  start : ∀ c ∈ word.toList.head?, isWordStart c = true
  inside : ∀ c ∈ word.toList, isWordPart c = true

instance (word : String) : Decidable (IsIdentifier word) :=
  decidable_of_iff (word ≠ "" ∧ word.toList.head?.all isWordStart = true ∧
      word.toList.all isWordPart = true)
    ⟨fun ⟨hnonempty, hstart, hinside⟩ =>
        ⟨hnonempty, (Option.all_eq_true _ _).1 hstart, List.all_eq_true.1 hinside⟩,
      fun h => ⟨h.nonempty, (Option.all_eq_true _ _).2 h.start, List.all_eq_true.2 h.inside⟩⟩

/-- Whether a text may stand between identifiers. -/
structure IsSeparator (separator : String) : Prop where
  nonempty : separator ≠ ""
  outside : ∀ c ∈ separator.toList, isWordPart c = false
  noSign : '#' ∉ separator.toList

instance (separator : String) : Decidable (IsSeparator separator) :=
  decidable_of_iff (separator ≠ "" ∧ separator.toList.all (!isWordPart ·) = true ∧
      '#' ∉ separator.toList)
    ⟨fun ⟨hnonempty, houtside, hnoSign⟩ => ⟨hnonempty, by simpa using houtside, hnoSign⟩,
      fun h => ⟨h.nonempty, by simpa using h.outside, h.noSign⟩⟩

/-- Whether a text consists of words with a separator between any two. -/
inductive IsJoined : List String → String → Prop where
  | nil : IsJoined [] ""
  | single (word : String) : IsJoined [word] word
  | cons {word separator next text : String} {rest : List String} (between : IsSeparator separator)
      (later : IsJoined (next :: rest) text) :
      IsJoined (word :: next :: rest) (word ++ separator ++ text)

variable {words : List String} {joined : String}

lemma IsJoined.notMem_sign (h : IsJoined words joined)
    (hwords : ∀ word ∈ words, IsIdentifier word) : '#' ∉ joined.toList := by
  have hword : ∀ word, IsIdentifier word → '#' ∉ word.toList := by
    intro word hword hmem
    exact nomatch (hword.inside '#' hmem).symm.trans isWordPart_sign
  induction h with
  | nil => simp
  | single word => exact hword word (hwords word List.mem_cons_self)
  | @cons word separator next text rest between _ ih =>
    obtain ⟨hfirst, hlater⟩ := List.forall_mem_cons.1 hwords
    simp [hword word hfirst, between.noSign, ih hlater]

/-- Words with separators between them are scanned one by one. -/
lemma IsJoined.scanWords_eq (h : IsJoined words joined)
    (hwords : ∀ word ∈ words, IsIdentifier word) :
    scanWords none joined.toList = words.map String.toList := by
  have hword : ∀ word, IsIdentifier word → wordsOfRuns [word.toList] = [word.toList] := by
    intro word hword
    have hne : word.toList ≠ [] := by simpa using hword.nonempty
    obtain ⟨c, rest, hcons⟩ := List.exists_cons_of_ne_nil hne
    have hstart : isWordStart c = true := hword.start c (by rw [hcons]; rfl)
    rw [hcons]
    simp [wordsOfRuns, fromWordStart, hstart]
  induction h with
  | nil => rfl
  | single word =>
    have hfirst := hwords word List.mem_cons_self
    have hscan := @scanWords_run word.toList [] hfirst.inside (by simp)
    rw [List.append_nil, hword word hfirst] at hscan
    exact hscan
  | @cons word separator next text rest between _ ih =>
    obtain ⟨hfirst, hlater⟩ := List.forall_mem_cons.1 hwords
    have hne : separator.toList ≠ [] := by simpa using between.nonempty
    obtain ⟨c, gap, hcons⟩ := List.exists_cons_of_ne_nil hne
    have hends : ∀ d ∈ (separator.toList ++ text.toList).head?, isWordPart d = false := by
      rw [hcons]
      rintro d hd
      obtain rfl := Option.some.inj hd
      exact between.outside c (hcons ▸ List.mem_cons_self)
    rw [String.toList_append, String.toList_append, List.append_assoc,
      scanWords_run hfirst.inside hends, hword word hfirst, scanWords_gap between.outside,
      ih hlater]
    rfl

/-! ## The words of a text -/

lemma eraseDups_of_nodup (h : words.Nodup) : words.eraseDups = words := by
  induction words with
  | nil => rfl
  | cons word rest ih =>
    obtain ⟨hnew, hrest⟩ := List.nodup_cons.1 h
    have hkept : rest.filter (fun other => !other == word) = rest := by
      refine List.filter_eq_self.2 fun other hother => ?_
      simpa using fun heq : other = word => hnew (heq ▸ hother)
    rw [List.eraseDups_cons, hkept, ih hrest]

lemma words_parse (text : String) :
    (WordList.parse .identifiers text).words =
      (((identifiers text.toList).map String.ofList).filter (· ≠ "")).eraseDups :=
  WordList.words_ofWords _

/-- If the lines of a text have these runs, then their words are what is read from it. -/
lemma words_parse_of_runs {text : String} {runs : List (List (List Char))}
    (h : LinesHaveRuns (Text.lines text.toList) runs) :
    (WordList.parse .identifiers text).words =
      ((wordsOfRuns runs.flatten).map String.ofList).eraseDups := by
  have hnonempty : ∀ word ∈ (wordsOfRuns runs.flatten).map String.ofList, word ≠ "" := by
    intro word hword
    obtain ⟨letters, hletters, rfl⟩ := List.mem_map.1 hword
    have hne : letters ≠ [] := by simpa using (List.mem_filter.1 hletters).2
    simpa using hne
  rw [words_parse, identifiers, flatMap_scanWords h,
    List.filter_eq_self.2 fun word hword => by simpa using hnonempty word hword]

/-- Reading a text for identifiers gives the words in the maximal runs of its lines, up to the first
number sign of each, in order and each at its first occurrence.  So identifiers that are all
different are read back from a text in which they stand one after the other with separators between
them. -/
theorem identifiers_are_read_from_runs (text : String) (words : List String) :
    ((WordList.parse .identifiers text).words = words ↔
        ∃ runs, LinesHaveRuns (Text.lines text.toList) runs ∧
          words = ((wordsOfRuns runs.flatten).map String.ofList).eraseDups) ∧
      (IsJoined words text → (∀ word ∈ words, IsIdentifier word) → words.Nodup →
        (WordList.parse .identifiers text).words = words) := by
  refine ⟨⟨fun hread => ?_, fun hruns => ?_⟩, fun hjoined hwords hnodup => ?_⟩
  · obtain ⟨runs, hruns⟩ := exists_linesHaveRuns (Text.lines text.toList)
    exact ⟨runs, hruns, hread.symm.trans (words_parse_of_runs hruns)⟩
  · obtain ⟨runs, hruns, rfl⟩ := hruns
    exact words_parse_of_runs hruns
  · have hfound : (identifiers text.toList).map String.ofList = words := by
      rw [identifiers_of_notMem (hjoined.notMem_sign hwords), hjoined.scanWords_eq hwords]
      simp
    have hnonempty : words.filter (· ≠ "") = words :=
      List.filter_eq_self.2 fun word hword => by simpa using (hwords word hword).nonempty
    rw [words_parse, hfound, hnonempty, eraseDups_of_nodup hnodup]

/-- Digits in front of a word, comments, repetitions and words of other lines. -/
example : (WordList.parse .identifiers
    "# reserved\nalpha beta,2gamma\r\n17 delta#omega\n_beta beta\n").words =
      ["alpha", "beta", "gamma", "delta", "_beta"] := by
  decide +kernel

/-- Three words on three lines are read back, whatever separates them. -/
theorem identifiers_are_read_from_runs_lines :
    let words := ["alpha", "$2", "été"]
    let text := "alpha" ++ ", \n" ++ ("$2" ++ "\r\n\t-" ++ "été")
    IsJoined words text ∧ (∀ word ∈ words, IsIdentifier word) ∧ words.Nodup ∧
      (WordList.parse .identifiers text).words = words := by
  intro words text
  have hjoined : IsJoined words text :=
    .cons (by decide +kernel) (.cons (by decide +kernel) (.single "été"))
  have hwords : ∀ word ∈ words, IsIdentifier word := by decide +kernel
  have hnodup : words.Nodup := by decide
  exact ⟨hjoined, hwords, hnodup,
    (identifiers_are_read_from_runs text words).2 hjoined hwords hnodup⟩

end Name
end Pseudonym
