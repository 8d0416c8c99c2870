import Pseudonym.Proofs.Name.Draws

/-!
# Names given step by step

A source of names can also be seen as a machine with a counter in each of its layers (`Factory`).
One whose words are used up asks the machine below it for a name, and asks again as long as it gets
one of the words; nothing bounds how often.  `Factory.Gives` says what is asked for and given.

A position in a sequence stands for the counters of all layers (`factoryAt`), and one turn of the
machine is one draw from the sequence (`gives_iff`).  That a turn ends is seen there: a draw passes
over hidden entries, and asking again is passing over one (`next_words_of_mem`).  The names that a
machine gives are then those of its sequence.  So none comes twice, and none is the last.  What a
machine with words gives after them can be read off the turns themselves, without any positions
(`givesAll_behind_iff`).
-/

namespace Pseudonym
namespace Name

/-! ## Machines -/

/-- A source of names in use, with a counter in each layer. -/
inductive Factory where
  | short (mixedCase : Bool) (index : Nat)
  | numerals (index : Nat)
  | words (list : WordList) (index : Nat) (fallback : Factory)

namespace Factory

variable {f f' f'' g g' : Factory} {name name' word : String} {names : List String}
  {list : WordList} {index : Nat}

/-- Starts all layers again. -/
def reset : Factory → Factory
  | .short mixedCase _ => .short mixedCase 0
  | .numerals _ => .numerals 0
  | .words list _ fallback => .words list 0 fallback.reset

/-- Whether a machine that is asked for a name gives it, and how it is left. -/
inductive Gives : Factory → String → Factory → Prop where
  | short (mixedCase : Bool) (index : Nat) :
      Gives (.short mixedCase index) (Name.short mixedCase index) (.short mixedCase (index + 1))
  | numeral (index : Nat) : Gives (.numerals index) (toString (index + 1)) (.numerals (index + 1))
  | word {list : WordList} {index : Nat} {word : String} {fallback : Factory}
      (hword : list.get? index = some word) :
      Gives (.words list index fallback) word (.words list (index + 1) fallback)
  | fallback {list : WordList} {index : Nat} {name : String} {fallback fallback' : Factory}
      (hend : list.get? index = none) (hgives : Gives fallback name fallback')
      (hnew : list.contains name = false) :
      Gives (.words list index fallback) name (.words list index fallback')
  | again {list : WordList} {index : Nat} {word name : String} {fallback fallback' f' : Factory}
      (hend : list.get? index = none) (hgives : Gives fallback word fallback')
      (hword : list.contains word = true)
      (hrest : Gives (.words list index fallback') name f') :
      Gives (.words list index fallback) name f'

/-- Whether a machine gives some names one after the other, and how it is left. -/
inductive GivesAll : Factory → List String → Factory → Prop where
  | nil (f : Factory) : GivesAll f [] f
  | cons {f f' f'' : Factory} {name : String} {names : List String} (hgives : f.Gives name f')
      (hrest : GivesAll f' names f'') : GivesAll f (name :: names) f''

/-- A machine never has a choice. -/
lemma Gives.unique (h : f.Gives name f') (h' : f.Gives name' f'') : name = name' ∧ f' = f'' := by
  induction h generalizing name' f'' with
  | short => cases h'; exact ⟨rfl, rfl⟩
  | numeral => cases h'; exact ⟨rfl, rfl⟩
  | word hword =>
    cases h' with
    | word hword' => exact ⟨Option.some.inj (hword.symm.trans hword'), rfl⟩
    | fallback hend' => exact nomatch hword.symm.trans hend'
    | again hend' => exact nomatch hword.symm.trans hend'
  | fallback hend _ hnew ih =>
    cases h' with
    | word hword' => exact nomatch hword'.symm.trans hend
    | fallback _ hgives' =>
      obtain ⟨rfl, rfl⟩ := ih hgives'
      exact ⟨rfl, rfl⟩
    | again _ hgives' hword' =>
      obtain ⟨rfl, -⟩ := ih hgives'
      exact nomatch hword'.symm.trans hnew
  | again hend _ hword _ ih ihrest =>
    cases h' with
    | word hword' => exact nomatch hword'.symm.trans hend
    | fallback _ hgives' hnew' =>
      obtain ⟨rfl, -⟩ := ih hgives'
      exact nomatch hword.symm.trans hnew'
    | again _ hgives' _ hrest' =>
      obtain ⟨-, rfl⟩ := ih hgives'
      exact ihrest hrest'

/-- What a machine gives after some names is what it gives as these have left it. -/
lemma GivesAll.append_iff {later : List String} (h : f.GivesAll names f') :
    f.GivesAll (names ++ later) f'' ↔ f'.GivesAll later f'' := by
  induction h with
  | nil f => exact Iff.rfl
  | cons hgives _ ih =>
    rw [← ih]
    constructor
    · rintro (_ | ⟨hgives', hrest⟩)
      obtain ⟨-, rfl⟩ := hgives.unique hgives'
      exact hrest
    · exact .cons hgives

/-! ## Behind the words -/

/-- The words come in order, and nothing is asked of the machine below. -/
lemma givesAll_words (list : WordList) (g : Factory) :
    (words list 0 g).GivesAll list.words (words list list.size g) := by
  have hlater : ∀ count index, index + count = list.size →
      (words list index g).GivesAll (list.words.drop index) (words list list.size g) := by
    intro count
    induction count with
    | zero =>
      intro index hindex
      rw [Nat.add_zero] at hindex
      rw [hindex, WordList.size, List.drop_length]
      exact .nil _
    | succ count ih =>
      intro index hindex
      have hlt : index < list.words.length := by
        rw [← WordList.size]
        omega
      rw [List.drop_eq_getElem_cons hlt]
      exact .cons (.word (List.getElem?_eq_getElem hlt)) (ih (index + 1) (by omega))
  exact hlater list.size 0 (Nat.zero_add _)

lemma get?_size (list : WordList) : list.get? list.size = none :=
  List.getElem?_eq_none (Nat.le_refl _)

/-- A machine whose words are used up passes over words from below until it gets another name. -/
lemma Gives.exists_passed (h : (words list list.size g).Gives name f) :
    ∃ passed g', g.GivesAll (passed ++ [name]) g' ∧ (∀ word ∈ passed, list.contains word = true) ∧
      list.contains name = false ∧ f = words list list.size g' := by
  generalize hmachine : words list list.size g = machine at h
  induction h generalizing g with
  | short => exact nomatch hmachine
  | numeral => exact nomatch hmachine
  | word hword =>
    obtain ⟨rfl, rfl, rfl⟩ := words.inj hmachine
    exact nomatch (get?_size list).symm.trans hword
  | fallback _ hgives hnew =>
    obtain ⟨rfl, rfl, rfl⟩ := words.inj hmachine
    exact ⟨[], _, .cons hgives (.nil _), nofun, hnew, rfl⟩
  | again _ hgives hword _ _ ih =>
    obtain ⟨rfl, rfl, rfl⟩ := words.inj hmachine
    obtain ⟨passed, g', hpassed, hwords, hnew, rfl⟩ := ih rfl
    exact ⟨_ :: passed, g', .cons hgives hpassed, List.forall_mem_cons.2 ⟨hword, hwords⟩, hnew, rfl⟩

/-- Behind its words a machine gives what the machine below gives, without the words. -/
theorem givesAll_behind_iff : (∃ f, (words list list.size g).GivesAll names f) ↔
    ∃ behind g', g.GivesAll behind g' ∧ names = behind.filter fun name => !list.contains name := by
  constructor
  · rintro ⟨f, h⟩
    generalize hmachine : words list list.size g = machine at h
    induction h generalizing g with
    | nil => exact ⟨[], g, .nil g, rfl⟩
    | cons hgives _ ih =>
      subst hmachine
      obtain ⟨passed, g₁, hpassed, hwords, hnew, rfl⟩ := hgives.exists_passed
      obtain ⟨behind, g', hbehind, rfl⟩ := ih rfl
      refine ⟨passed ++ [_] ++ behind, g', hpassed.append_iff.2 hbehind, ?_⟩
      have hnone : passed.filter (fun name => !list.contains name) = [] := by
        simpa using hwords
      simp [List.filter_append, hnone, hnew]
  · rintro ⟨behind, g', h, rfl⟩
    induction h with
    | nil => exact ⟨_, .nil _⟩
    | @cons g₀ _ _ name _ hgives _ ih =>
      obtain ⟨f, hf⟩ := ih
      cases hword : list.contains name with
      | false =>
        rw [List.filter_cons_of_pos (by simpa using hword)]
        exact ⟨f, .cons (.fallback (get?_size list) hgives hword) hf⟩
      | true =>
        rw [List.filter_cons_of_neg (by simpa using hword)]
        -- The word is passed over by the turn that gives the next name, if there is one.
        generalize List.filter _ _ = kept at hf ⊢
        cases hf with
        | nil => exact ⟨_, .nil _⟩
        | cons hnext hrest =>
          exact ⟨f, .cons (.again (get?_size list) hgives hword hnext) hrest⟩

end Factory

/-! ## Positions -/

namespace Sequence

variable {s rest : Sequence} {list : WordList} {j k m : Nat} {name : String} {names : List String}
  {f f' : Factory} {drawn : Drawn}

/-- The machine for a sequence, not used yet. -/
def fresh : Sequence → Factory
  | .short mixedCase => .short mixedCase 0
  | .numerals => .numerals 0
  | .words list rest => .words list 0 rest.fresh

/-- The machine for a sequence at a position. -/
def factoryAt : Sequence → Nat → Factory
  | .short mixedCase, k => .short mixedCase k
  | .numerals, k => .numerals k
  | .words list rest, k => .words list (min k list.size) (rest.factoryAt (k - list.size))

lemma factoryAt_zero (s : Sequence) : s.factoryAt 0 = s.fresh := by
  induction s with
  | short => rfl
  | numerals => rfl
  | words list rest ih => rw [factoryAt, fresh, Nat.zero_min, Nat.zero_sub, ih]

/-- Starting again forgets the position. -/
lemma reset_factoryAt (s : Sequence) (k : Nat) : (s.factoryAt k).reset = s.fresh := by
  induction s generalizing k with
  | short => rfl
  | numerals => rfl
  | words list rest ih => rw [factoryAt, Factory.reset, fresh, ih]

lemma factoryAt_words_add (list : WordList) (rest : Sequence) (j : Nat) :
    (words list rest).factoryAt (list.size + j) = .words list list.size (rest.factoryAt j) := by
  rw [factoryAt, Nat.min_eq_right (Nat.le_add_right _ _), Nat.add_sub_cancel_left]

/-! ### Draws from a sequence with words -/

lemma next_eq (h : s.IsFirst (fun _ => true) k drawn) : s.next k = drawn :=
  (s.isFirst_next k).draws.unique h.draws

lemma next_of_entry (h : s.nameAt? k = some name) : s.next k = ⟨name, k + 1⟩ :=
  (s.isFirst_next k).draws.unique (.found h rfl)

lemma nameAt?_eq_none (hle : k ≤ j) (hlt : j < (s.next k).next - 1) : s.nameAt? j = none := by
  refine Option.eq_none_iff_forall_ne_some.2 fun name hentry => ?_
  exact nomatch (s.isFirst_next k).refused j hle hlt name hentry

/-- Where nothing stands in between, it does not matter where a draw begins. -/
lemma next_of_hidden (hle : k ≤ m) (h : ∀ j, k ≤ j → j < m → s.nameAt? j = none) :
    s.next k = s.next m := by
  have hfirst := s.isFirst_next m
  refine next_eq ⟨Nat.lt_of_le_of_lt hle hfirst.lt_next, hfirst.entry, rfl, ?_⟩
  intro j hj hlt name hentry
  rcases Nat.lt_or_ge j m with hbefore | hbehind
  · exact nomatch (h j hj hbefore).symm.trans hentry
  · exact hfirst.refused j hbehind hlt name hentry

/-- A draw behind the words gives the next name of the sequence behind them, unless it is a word. -/
lemma next_words_of_notMem (h : list.contains (rest.next j).name = false) :
    (words list rest).next (list.size + j) =
      ⟨(rest.next j).name, list.size + (rest.next j).next⟩ := by
  have hlt := rest.lt_next j
  refine next_eq ⟨Nat.add_lt_add_left hlt _, ?_, rfl, ?_⟩
  · rw [Nat.add_sub_assoc (Nat.one_le_of_lt hlt), nameAt?_words_add, rest.nameAt?_next j]
    exact Option.filter_some_pos (by simpa using h)
  · intro i hi hlast name hentry
    obtain ⟨i, rfl⟩ := Nat.exists_eq_add_of_le (Nat.le_of_add_right_le hi)
    dsimp only at hlast
    have hhidden : rest.nameAt? i = none := nameAt?_eq_none (k := j) (by omega) (by omega)
    rw [nameAt?_words_add, hhidden] at hentry
    exact nomatch hentry

/-- If it is a word, the draw goes on where that name has left the sequence behind the words. -/
lemma next_words_of_mem (h : list.contains (rest.next j).name = true) :
    (words list rest).next (list.size + j) =
      (words list rest).next (list.size + (rest.next j).next) := by
  have hlt := rest.lt_next j
  refine next_of_hidden (by omega) fun i hi hlast => ?_
  obtain ⟨i, rfl⟩ := Nat.exists_eq_add_of_le (Nat.le_of_add_right_le hi)
  rw [nameAt?_words_add]
  rcases Nat.lt_or_ge i ((rest.next j).next - 1) with hbefore | hthere
  · rw [nameAt?_eq_none (by omega) hbefore]
    rfl
  · obtain rfl : i = (rest.next j).next - 1 := by omega
    rw [rest.nameAt?_next j]
    exact Option.filter_some_neg (by simpa using h)

/-! ### Turns are draws -/

/-- A machine that has words left gives the next of them. -/
lemma gives_next_word (rest : Sequence) (hk : k < list.size) :
    ((words list rest).factoryAt k).Gives ((words list rest).next k).name
      ((words list rest).factoryAt ((words list rest).next k).next) := by
  have hword : list.words[k]? = some list.words[k] := List.getElem?_eq_getElem hk
  rw [next_of_entry (nameAt?_words_eq_some_iff.2 (.inl hword)), factoryAt, factoryAt,
    Nat.min_eq_left (Nat.le_of_lt hk), Nat.min_eq_left hk, Nat.sub_eq_zero_of_le (Nat.le_of_lt hk),
    Nat.sub_eq_zero_of_le hk]
  exact .word hword

/-- A machine without words left asks below until it gets a name that is no word. -/
lemma gives_next_behind
    (hrest : ∀ j, (rest.factoryAt j).Gives (rest.next j).name (rest.factoryAt (rest.next j).next)) :
    ((words list rest).factoryAt (list.size + j)).Gives
      ((words list rest).next (list.size + j)).name
      ((words list rest).factoryAt ((words list rest).next (list.size + j)).next) := by
  -- Every name from below brings the position nearer to the end of the draw.
  induction hleft : ((words list rest).next (list.size + j)).next - (list.size + j)
    using Nat.strongRecOn generalizing j with
  | ind left ih =>
    cases hword : list.contains (rest.next j).name with
    | false =>
      rw [next_words_of_notMem hword, factoryAt_words_add, factoryAt_words_add]
      exact .fallback (Factory.get?_size list) (hrest j) hword
    | true =>
      have hsame := next_words_of_mem hword
      have hlt := rest.lt_next j
      have hend := (words list rest).lt_next (list.size + (rest.next j).next)
      have hnearer : ((words list rest).next (list.size + (rest.next j).next)).next -
          (list.size + (rest.next j).next) < left := by
        rw [← hleft, hsame]
        omega
      have hlater := ih _ hnearer rfl
      rw [hsame, factoryAt_words_add]
      rw [factoryAt_words_add] at hlater
      exact .again (Factory.get?_size list) (hrest j) hword hlater

/-- A machine that is asked for a name ends its turn where the draw from its sequence ends. -/
theorem gives_next (s : Sequence) (k : Nat) :
    (s.factoryAt k).Gives (s.next k).name (s.factoryAt (s.next k).next) := by
  induction s generalizing k with
  | short mixedCase =>
    rw [next_of_entry rfl]
    exact .short mixedCase k
  | numerals =>
    rw [next_of_entry rfl]
    exact .numeral k
  | words list rest ih =>
    rcases Nat.lt_or_ge k list.size with hk | hk
    · exact gives_next_word rest hk
    · obtain ⟨j, rfl⟩ := Nat.exists_eq_add_of_le hk
      exact gives_next_behind ih

lemma gives_iff : (s.factoryAt k).Gives name f ↔
    name = (s.next k).name ∧ f = s.factoryAt (s.next k).next := by
  refine ⟨fun h => h.unique (s.gives_next k), ?_⟩
  rintro ⟨rfl, rfl⟩
  exact s.gives_next k

lemma givesAll_take (s : Sequence) (count k : Nat) :
    (s.factoryAt k).GivesAll (s.take count k).1 (s.factoryAt (s.take count k).2) := by
  induction count generalizing k with
  | zero => exact .nil _
  | succ count ih => exact .cons (s.gives_next k) (ih _)

/-- The names that a machine gives are the next names of its sequence. -/
lemma eq_take_of_givesAll (h : (s.factoryAt k).GivesAll names f) :
    names = (s.take names.length k).1 ∧ f = s.factoryAt (s.take names.length k).2 := by
  induction names generalizing k with
  | nil =>
    cases h
    exact ⟨rfl, rfl⟩
  | cons name rest ih =>
    cases h with
    | cons hgives hrest =>
      obtain ⟨rfl, rfl⟩ := gives_iff.1 hgives
      obtain ⟨hnames, hleft⟩ := ih hrest
      exact ⟨congrArg _ hnames, hleft⟩

/-! ### What machines give -/

lemma eq_take_of_fresh (h : s.fresh.GivesAll names f) :
    names = (s.take names.length 0).1 ∧ f = s.factoryAt (s.take names.length 0).2 :=
  eq_take_of_givesAll (s.factoryAt_zero ▸ h)

/-- No machine gives the empty name. -/
lemma ne_empty_of_givesAll (h : s.fresh.GivesAll names f) : ∀ name ∈ names, name ≠ "" := by
  intro name hname
  rw [(eq_take_of_fresh h).1] at hname
  obtain ⟨k, -, hentry⟩ := exists_nameAt?_of_mem_take hname
  exact entry_ne_empty hentry

/-- No machine gives a name again. -/
lemma notMem_of_gives (h : s.fresh.GivesAll names f) (hgives : f.Gives name f') :
    name ∉ names := by
  intro hname
  have hall := eq_take_of_fresh (h.append_iff.2 (.cons hgives (.nil f')))
  have hnodup : (names ++ [name]).Nodup := by
    rw [hall.1]
    exact s.nodup_take _ 0
  exact (List.nodup_append.1 hnodup).2.2 name hname name (List.mem_singleton_self name) rfl

/-- With words in front of it, a machine gives these, and behind them what it gives without them,
except the words. -/
lemma givesAll_ofWords_iff (s : Sequence) (ws names : List String) :
    (∃ f, (words (.ofWords ws) s).fresh.GivesAll
        ((ws.filter (· ≠ "")).eraseDups ++ names) f) ↔
      ∃ behind f, s.fresh.GivesAll behind f ∧ names = behind.filter (· ∉ ws) := by
  rw [← WordList.words_ofWords, fresh]
  simp only [(Factory.givesAll_words (.ofWords ws) s.fresh).append_iff]
  rw [Factory.givesAll_behind_iff]
  refine exists_congr fun behind => exists_congr fun f => and_congr_right fun h => ?_
  have hkept : behind.filter (fun name => !(WordList.ofWords ws).contains name) =
      behind.filter (· ∉ ws) := by
    refine List.filter_congr fun name hname => ?_
    have hne : name ≠ "" := ne_empty_of_givesAll h name hname
    simp [WordList.contains, WordList.words_ofWords, hne]
  rw [hkept]

/-- Machines that supply names, of short names or numerals, with any number of word lists in front
of them.  However many names a machine has given since it was made, the next turn ends, with one
outcome and a name that has not been given, and starting again makes the machine what it was.  The
names are those of the sequence that stands for the machine.  With words in front of it, a machine
gives these, each once and without the empty word, and behind them gives what it gives without
them, in the same order, except the words. -/
theorem factories_follow_their_sequences (s : Sequence) :
    (∀ count, s.fresh.GivesAll (s.take count 0).1 (s.factoryAt (s.take count 0).2)) ∧
      (∀ names f, s.fresh.GivesAll names f →
        (∃! given : String × Factory, f.Gives given.1 given.2) ∧
          (∀ name f', f.Gives name f' → name ∉ names) ∧ f.reset = s.fresh) ∧
      ∀ (ws : List String) (names : List String),
        (∃ f, (words (.ofWords ws) s).fresh.GivesAll
            ((ws.filter (· ≠ "")).eraseDups ++ names) f) ↔
          ∃ behind f, s.fresh.GivesAll behind f ∧ names = behind.filter (· ∉ ws) := by
  refine ⟨fun count => ?_, fun names f h => ⟨?_, fun _ _ => notMem_of_gives h, ?_⟩,
    s.givesAll_ofWords_iff⟩
  · rw [← factoryAt_zero]
    exact s.givesAll_take count 0
  · rw [(eq_take_of_fresh h).2]
    refine ⟨(_, _), s.gives_next _, fun given hgiven => ?_⟩
    obtain ⟨hname, hleft⟩ := gives_iff.1 hgiven
    exact Prod.ext hname hleft
  · rw [(eq_take_of_fresh h).2, reset_factoryAt]

example : ((words (.ofWords ["b", "", "x", "b"]) (.short false)).take 5 0).1 =
    ["b", "x", "a", "c", "d"] := by
  decide +kernel

end Sequence
end Name
end Pseudonym
