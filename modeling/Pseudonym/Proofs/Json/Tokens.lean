import Mathlib.Data.List.Basic
import Mathlib.Tactic.IntervalCases
import Pseudonym.Json.Printer
import Pseudonym.Json.Token

/-!
# A printed value is cut into its tokens

What a value is made of stands in its tokens (`written`): brackets, commas, and scalars as they are.
Printing puts them on lines and escapes what stands in strings, and cutting undoes both
(`tokens_pretty`).  Between two tokens the cutter knows nothing of what came before, so it is enough
to see what it makes of one piece of text at a time (`Cuts`).

Only values without numbers are considered, for there are no numbers in the files that are printed.
How deep the containers of a value lie in one another is part of `Nests`, because readers of trees
have a limit for it.
-/

namespace Pseudonym
namespace Json

/-! ## Tokens of a value -/

mutual

/-- The tokens of a value. -/
def written : Json → List Token
  | .null => [.null]
  | .bool value => [.bool value]
  | .number n => [.number n]
  | .string text => [.string (some text)]
  | .array [] => [.openArray, .closeArray]
  | .array (item :: items) => .openArray :: (item.written ++ writtenItems items ++ [.closeArray])
  | .object [] => [.openObject, .closeObject]
  | .object ((key, value) :: members) =>
    .openObject :: .string (some key) :: .colon ::
      (value.written ++ writtenMembers members ++ [.closeObject])

/-- The tokens of the items of an array after the first. -/
def writtenItems : List Json → List Token
  | [] => []
  | item :: items => .comma :: (item.written ++ writtenItems items)

/-- The tokens of the members of an object after the first. -/
def writtenMembers : List (String × Json) → List Token
  | [] => []
  | (key, value) :: members =>
    .comma :: .string (some key) :: .colon :: (value.written ++ writtenMembers members)

end

/-- Whether a value has no numbers, and no more than so many containers lie in one another. -/
inductive Nests : Nat → Json → Prop where
  | null (depth : Nat) : Nests depth .null
  | bool (depth : Nat) (value : Bool) : Nests depth (.bool value)
  | string (depth : Nat) (text : String) : Nests depth (.string text)
  | array {depth : Nat} {items : List Json} (h : ∀ item ∈ items, Nests depth item) :
      Nests (depth + 1) (.array items)
  | object {depth : Nat} {members : List (String × Json)}
      (h : ∀ member ∈ members, Nests depth member.2) : Nests (depth + 1) (.object members)

/-! ## Strings -/

namespace Quoted

/-- The string in which some characters have been read and nothing is pending. -/
def holding (content : List Char) : Quoted := ⟨content, true, none, .none⟩

end Quoted

/-- What comes of a string when all of some characters belong to it. -/
def State.inString : Quoted → List Char → Option Quoted
  | q, [] => some q
  | q, c :: rest =>
    match q.step c with
    | .more q => inString q rest
    | _ => none

lemma cutFrom_inString {q q' : Quoted} {cs : List Char} (h : State.inString q cs = some q')
    (found : List Token) (rest : List Char) :
    cutFrom found (.string q) (cs ++ rest) = cutFrom found (.string q') rest := by
  induction cs generalizing q with
  | nil =>
    obtain rfl := Option.some.inj h
    rfl
  | cons c cs ih =>
    rw [State.inString] at h
    split at h
    · rename_i next hstep
      have hcut : (State.string q).step c = ([], .string next) := by
        rw [State.step, hstep]
      rw [List.cons_append, cutFrom, hcut]
      exact ih h
    · exact nomatch h

/-- A character is read back from what is written for it. -/
lemma inString_escapeChar (content : List Char) (c : Char) :
    State.inString (.holding content) (escapeChar c) = some (.holding (c :: content)) := by
  by_cases hcontrol : c.toNat < 0x20
  · -- There are only thirty-two of them, each with an escape of its own.
    obtain ⟨n, hn⟩ : ∃ n, n = c.toNat := ⟨_, rfl⟩
    rw [← hn] at hcontrol
    have hc : c = Char.ofNat n := by rw [hn, Char.ofNat_toNat]
    subst hc
    interval_cases n <;> rfl
  · by_cases hquote : c = '"'
    · subst hquote
      rfl
    · by_cases hbackslash : c = '\\'
      · subst hbackslash
        rfl
      · have hstep : (Quoted.holding content).step c = .more (.holding (c :: content)) := by
          simp [Quoted.step, Quoted.holding, Quoted.push, hquote, hbackslash, hcontrol]
        simp only [escapeChar, if_neg hquote, if_neg hbackslash, if_neg hcontrol, State.inString,
          hstep]

lemma inString_append {q q' q'' : Quoted} {cs cs' : List Char}
    (h : State.inString q cs = some q') (h' : State.inString q' cs' = some q'') :
    State.inString q (cs ++ cs') = some q'' := by
  induction cs generalizing q with
  | nil =>
    obtain rfl := Option.some.inj h
    exact h'
  | cons c cs ih =>
    rw [State.inString] at h
    rw [List.cons_append, State.inString]
    split at h
    · exact ih h
    · exact nomatch h

lemma inString_flatMap (content cs : List Char) :
    State.inString (.holding content) (cs.flatMap escapeChar) =
      some (.holding (cs.reverse ++ content)) := by
  induction cs generalizing content with
  | nil => rfl
  | cons c cs ih =>
    rw [List.flatMap_cons, List.reverse_cons, List.append_assoc]
    exact inString_append (inString_escapeChar content c) (ih _)

/-! ## Pieces of text -/

/-- Whether a piece of text between two tokens is cut into some tokens, whatever stands around
it. -/
def Cuts (cs : List Char) (ts : List Token) : Prop :=
  ∀ found rest, cutFrom found .between (cs ++ rest) = cutFrom (ts.reverse ++ found) .between rest

namespace Cuts

variable {cs cs' : List Char} {ts ts' : List Token}

lemma nil : Cuts [] [] := fun _ _ => rfl

lemma append (h : Cuts cs ts) (h' : Cuts cs' ts') : Cuts (cs ++ cs') (ts ++ ts') := by
  intro found rest
  rw [List.append_assoc, h, h', List.reverse_append, List.append_assoc]

/-- A character that means nothing between tokens. -/
lemma blank {c : Char} (hbegin : begin c = ([], .between)) (h : Cuts cs ts) :
    Cuts (c :: cs) ts := by
  intro found rest
  have hstep : State.between.step c = ([], .between) := hbegin
  rw [List.cons_append, cutFrom, hstep]
  exact h found rest

/-- A character that is a token by itself. -/
lemma mark {c : Char} {token : Token} (hbegin : begin c = ([token], .between)) (h : Cuts cs ts) :
    Cuts (c :: cs) (token :: ts) := by
  intro found rest
  have hstep : State.between.step c = ([token], .between) := hbegin
  rw [List.cons_append, cutFrom, hstep, List.reverse_cons, List.append_assoc]
  exact h _ rest

lemma spaces (n : Nat) : Cuts (List.replicate n ' ') [] := by
  induction n with
  | zero => exact nil
  | succ n ih => exact blank rfl ih

lemma newLine (depth : Nat) : Cuts (Json.newLine depth) [] :=
  blank rfl (spaces _)

lemma quote (text : String) : Cuts (Json.quote text) [.string (some text)] := by
  intro found rest
  have hopen : State.between.step '"' = ([], .string .start) := rfl
  have hinside := inString_flatMap [] text.toList
  have hclose : (State.string (.holding (text.toList.reverse ++ []))).step '"' =
      ([.string (some text)], .between) := by
    simp [State.step, Quoted.step, Quoted.holding]
  rw [Json.quote, List.cons_append, cutFrom, hopen, List.append_assoc]
  exact (cutFrom_inString hinside _ _).trans (by rw [List.cons_append, cutFrom, hclose]; rfl)

end Cuts

/-! ## Values -/

variable {depth : Nat}

lemma cuts_printItems {items : List Json}
    (h : ∀ item ∈ items, ∀ depth, Cuts (item.print depth) item.written) (depth : Nat) :
    Cuts (printItems depth items) (writtenItems items) := by
  induction items with
  | nil => exact .nil
  | cons item items ih =>
    have hitem := h item List.mem_cons_self depth
    have hrest := ih fun other hother => h other (List.mem_cons_of_mem _ hother)
    rw [printItems, writtenItems]
    exact .mark rfl (((Cuts.newLine depth).append hitem).append hrest)

lemma cuts_key (key : String) : Cuts (quote key ++ [':', ' ']) [.string (some key), .colon] :=
  (Cuts.quote key).append (.mark rfl (Cuts.spaces 1))

lemma cuts_printMembers {members : List (String × Json)}
    (h : ∀ member ∈ members, ∀ depth, Cuts (member.2.print depth) member.2.written)
    (depth : Nat) : Cuts (printMembers depth members) (writtenMembers members) := by
  induction members with
  | nil => exact .nil
  | cons member members ih =>
    obtain ⟨key, value⟩ := member
    have hvalue := h (key, value) List.mem_cons_self depth
    have hrest := ih fun other hother => h other (List.mem_cons_of_mem _ hother)
    have hpiece := (((Cuts.newLine depth).append (cuts_key key)).append hvalue).append hrest
    rw [printMembers, writtenMembers]
    exact .mark rfl (by simpa using hpiece)

/-- A printed value is cut into its tokens, whatever stands around it and however deep it lies. -/
theorem cuts_print {v : Json} (h : v.Nests depth) : ∀ column, Cuts (v.print column) v.written := by
  induction h with
  | null => exact fun _ _ _ => rfl
  | bool _ value =>
    cases value with
    | true => exact fun _ _ _ => rfl
    | false => exact fun _ _ _ => rfl
  | string _ text =>
    intro column
    rw [print, written]
    exact Cuts.quote text
  | @array _ items _ ih =>
    intro column
    cases items with
    | nil =>
      rw [print, written]
      exact .mark rfl (.mark rfl .nil)
    | cons item items =>
      have hitem := ih item List.mem_cons_self (column + 1)
      have hitems := cuts_printItems (fun other hother =>
        ih other (List.mem_cons_of_mem _ hother)) (column + 1)
      have hclose : Cuts (newLine column ++ [']']) [.closeArray] :=
        (Cuts.newLine column).append (.mark rfl .nil)
      rw [print, written]
      refine .mark rfl ?_
      simpa using (((Cuts.newLine (column + 1)).append hitem).append hitems).append hclose
  | @object _ members _ ih =>
    intro column
    cases members with
    | nil =>
      rw [print, written]
      exact .mark rfl (.mark rfl .nil)
    | cons member members =>
      obtain ⟨key, value⟩ := member
      have hvalue := ih (key, value) List.mem_cons_self (column + 1)
      have hmembers := cuts_printMembers (fun other hother =>
        ih other (List.mem_cons_of_mem _ hother)) (column + 1)
      have hclose : Cuts (newLine column ++ ['\x7d']) [.closeObject] :=
        (Cuts.newLine column).append (.mark rfl .nil)
      have hfirst := (Cuts.newLine (column + 1)).append (cuts_key key)
      rw [print, written]
      refine .mark rfl ?_
      simpa using ((hfirst.append hvalue).append hmembers).append hclose

/-- The text of a value has its tokens and no others. -/
theorem tokens_pretty {v : Json} (h : v.Nests depth) : tokens v.pretty = v.written := by
  have hcut := cuts_print h 0 [] []
  rw [tokens, pretty, String.toList_ofList]
  simpa [cutFrom, State.atEnd] using hcut

end Json
end Pseudonym
