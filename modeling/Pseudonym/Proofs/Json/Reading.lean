import Mathlib.Data.List.Forall2
import Pseudonym.Json.Reader
import Pseudonym.Json.Tree
import Pseudonym.Proofs.Json.Tokens

/-!
# Written values are read back

`Reads read v x` says that a reader takes the tokens of `v` from the front of any tokens and makes
`x` of them.  There is one lemma for every reader.  Those of lists and records are about readers of
items and members, so that what is said of a record follows its shape (`ReadsMembers`).

Readers bound the number of rounds by the number of tokens.  Every item and every member has at
least one, so the bound is never met.
-/

namespace Pseudonym
namespace Json

variable {α σ : Type}

/-- Whether a reader takes a written value from the front of the tokens, and makes `x` of it. -/
def Reads (read : Reader α) (v : Json) (x : α) : Prop :=
  ∀ rest, read (v.written ++ rest) = .ok (x, rest)

/-! ## Scalars -/

lemma reads_string (text : String) : Reads readString (.string text) text := by
  intro rest
  rw [written]
  rfl

lemma reads_bool (value : Bool) : Reads readBool (.bool value) value := by
  intro rest
  rw [written]
  rfl

lemma reads_word {meaning : String → Option α} {word : String} {x : α} (h : meaning word = some x) :
    Reads (readWord meaning) (.string word) x := by
  intro rest
  have hread := reads_string word rest
  simp only [readWord, hread, bind, Except.bind, meant, h]
  rfl

lemma reads_case {meaning : String → Option α} {word : String} {x : α} (h : meaning word = some x) :
    Reads (readCase meaning) (.string word) x := by
  intro rest
  have hread := reads_word h rest
  rw [written] at hread ⊢
  exact hread

/-! ## Lists -/

/-- Whether a value can begin with a token. -/
def Token.beginsValue : Token → Bool
  | .closeObject | .closeArray | .colon | .comma => false
  | _ => true

lemma exists_written (v : Json) :
    ∃ token rest, v.written = token :: rest ∧ token.beginsValue = true := by
  cases v with
  | null | bool | number | string => exact ⟨_, _, rfl, rfl⟩
  | array items => cases items <;> exact ⟨_, _, by rw [written], rfl⟩
  | object members => cases members <;> exact ⟨_, _, by rw [written], rfl⟩

lemma length_written_pos (v : Json) : 0 < v.written.length := by
  obtain ⟨token, rest, hwritten, -⟩ := exists_written v
  simp [hwritten]

lemma length_le_writtenItems (items : List Json) : items.length ≤ (writtenItems items).length := by
  induction items with
  | nil => simp
  | cons item items ih =>
    rw [writtenItems]
    simp only [List.length_cons, List.length_append]
    omega

lemma nextItem_first (v : Json) (rest : List Token) :
    nextItem true (v.written ++ rest) = .ok (true, v.written ++ rest) := by
  obtain ⟨token, tokens, hwritten, hbegins⟩ := exists_written v
  rw [hwritten]
  cases token with
  | closeObject | closeArray | colon | comma => exact nomatch hbegins
  | _ => rfl

lemma nextItem_comma (v : Json) (rest : List Token) :
    nextItem false (.comma :: (v.written ++ rest)) = .ok (true, v.written ++ rest) := by
  obtain ⟨token, tokens, hwritten, hbegins⟩ := exists_written v
  rw [hwritten]
  cases token with
  | closeObject | closeArray | colon | comma => exact nomatch hbegins
  | _ => rfl

lemma readItems_written {read : Reader α} {vs : List Json} {xs : List α}
    (h : List.Forall₂ (Reads read) vs xs) {rounds : Nat} (hrounds : vs.length < rounds)
    (items : List α) (rest : List Token) :
    readItems read rounds false items (writtenItems vs ++ .closeArray :: rest) =
      .ok (items.reverse ++ xs, rest) := by
  induction h generalizing rounds items with
  | nil =>
    obtain ⟨rounds, rfl⟩ := Nat.exists_eq_add_of_lt hrounds
    rw [writtenItems, List.append_nil]
    rfl
  | @cons v x vs xs hv _ ih =>
    obtain ⟨rounds, rfl⟩ : ∃ n, rounds = n + 1 := ⟨rounds - 1, by omega⟩
    have hrest := ih (Nat.lt_of_succ_lt_succ hrounds) (x :: items)
    have hcomma := nextItem_comma v (writtenItems vs ++ .closeArray :: rest)
    rw [writtenItems, List.cons_append, List.append_assoc, readItems]
    simp only [hcomma, hv _, hrest, bind, Except.bind]
    simp

/-- A list is read if its items are. -/
theorem reads_list {read : Reader α} {vs : List Json} {xs : List α}
    (h : List.Forall₂ (Reads read) vs xs) : Reads (readList read) (.array vs) xs := by
  intro rest
  cases h with
  | nil =>
    rw [written]
    rfl
  | @cons v x vs xs hv hvs =>
    have hlength := length_le_writtenItems vs
    have hfirst := nextItem_first v (writtenItems vs ++ .closeArray :: rest)
    have hrest := fun rounds (hrounds : vs.length < rounds) =>
      readItems_written hvs hrounds [x] rest
    rw [written, List.cons_append, readList, List.append_assoc, List.append_assoc,
      List.singleton_append, readItems]
    simp only [hfirst, hv _, bind, Except.bind]
    refine hrest _ ?_
    simp only [List.length_append, List.length_cons]
    have hpos := length_written_pos v
    omega

lemma reads_list_map {read : Reader α} {encode : α → Json} (h : ∀ x, Reads read (encode x) x)
    (xs : List α) : Reads (readList read) (.array (xs.map encode)) xs := by
  refine reads_list ?_
  induction xs with
  | nil => exact .nil
  | cons x xs ih => exact .cons (h x) ih

/-! ## Values that may be null -/

lemma reads_some {read : Reader α} {v : Json} {x : α} (h : Reads read v x) (hv : v ≠ .null) :
    Reads (readOptional read) v (some x) := by
  intro rest
  have hread := h rest
  obtain ⟨token, tokens, hwritten, hbegins⟩ := exists_written v
  have htoken : token ≠ .null := by
    rintro rfl
    cases v with
    | null => exact hv rfl
    | bool | number | string => simp [written] at hwritten
    | array items => cases items <;> simp [written] at hwritten
    | object members => cases members <;> simp [written] at hwritten
  rw [hwritten, List.cons_append] at hread ⊢
  cases token with
  | null => exact absurd rfl htoken
  | _ =>
    simp only [readOptional, hread, bind, Except.bind]
    rfl

/-! ## Records -/

/-- Whether a member of an object is read into a record. -/
def ReadsMember (member : σ → String → Except Fault (Reader σ)) (record : σ)
    (entry : String × Json) (record' : σ) : Prop :=
  ∃ read, member record entry.1 = .ok read ∧ Reads read entry.2 record'

/-- Whether members of an object are read into a record one after the other. -/
inductive ReadsMembers (member : σ → String → Except Fault (Reader σ)) :
    σ → List (String × Json) → σ → Prop where
  | nil (record : σ) : ReadsMembers member record [] record
  | cons {record record' record'' : σ} {entry : String × Json} {rest : List (String × Json)}
      (hentry : ReadsMember member record entry record')
      (hrest : ReadsMembers member record' rest record'') :
      ReadsMembers member record (entry :: rest) record''

namespace ReadsMembers

variable {member : σ → String → Except Fault (Reader σ)} {record record' record'' : σ}
  {entries entries' : List (String × Json)}

lemma append (h : ReadsMembers member record entries record')
    (h' : ReadsMembers member record' entries' record'') :
    ReadsMembers member record (entries ++ entries') record'' := by
  induction h with
  | nil => exact h'
  | cons hentry _ ih => exact .cons hentry (ih h')

lemma single {entry : String × Json} (h : ReadsMember member record entry record') :
    ReadsMembers member record [entry] record' :=
  .cons h (.nil _)

end ReadsMembers

lemma length_le_writtenMembers (members : List (String × Json)) :
    members.length ≤ (writtenMembers members).length := by
  induction members with
  | nil => simp
  | cons entry members ih =>
    rw [writtenMembers]
    simp only [List.length_cons, List.length_append]
    omega

lemma readMembers_writtenMembers {member : σ → String → Except Fault (Reader σ)}
    {record record' : σ} {members : List (String × Json)}
    (h : ReadsMembers member record members record') {rounds : Nat}
    (hrounds : members.length < rounds) (rest : List Token) :
    readMembers member rounds false record (writtenMembers members ++ .closeObject :: rest) =
      .ok (record', rest) := by
  induction h generalizing rounds with
  | nil =>
    obtain ⟨rounds, rfl⟩ := Nat.exists_eq_add_of_lt hrounds
    rw [writtenMembers]
    rfl
  | @cons record record₁ record₂ entry members hentry _ ih =>
    obtain ⟨key, value⟩ := entry
    obtain ⟨read, hmember, hread⟩ := hentry
    obtain ⟨rounds, rfl⟩ : ∃ n, rounds = n + 1 := ⟨rounds - 1, by omega⟩
    have hrest := ih (Nat.lt_of_succ_lt_succ hrounds)
    have hkey : ∀ tokens, nextKey false (.comma :: .string (some key) :: tokens) =
        .ok (some key, tokens) := fun _ => rfl
    have hcolon : ∀ tokens, readColon (.colon :: tokens) = .ok tokens := fun _ => rfl
    simp only [writtenMembers, List.cons_append, List.append_assoc, readMembers, hkey, hmember,
      hcolon, hread _, hrest, bind, Except.bind]

/-- The members of a written object are read if each of them is. -/
theorem readMembers_written {member : σ → String → Except Fault (Reader σ)} {record record' : σ}
    {members : List (String × Json)} (h : ReadsMembers member record members record')
    (rest : List Token) :
    ∃ inner, (Json.object members).written ++ rest = .openObject :: inner ∧
      readMembers member (inner.length + 1) true record inner = .ok (record', rest) := by
  cases h with
  | nil => exact ⟨.closeObject :: rest, by rw [written]; rfl, rfl⟩
  | @cons _ record₁ _ entry members hentry hmembers =>
    obtain ⟨key, value⟩ := entry
    obtain ⟨read, hmember, hread⟩ := hentry
    refine ⟨.string (some key) :: .colon ::
      (value.written ++ (writtenMembers members ++ .closeObject :: rest)), ?_, ?_⟩
    · rw [written]
      simp
    · have hkey : ∀ tokens, nextKey true (.string (some key) :: tokens) =
          .ok (some key, tokens) := fun _ => rfl
      have hcolon : ∀ tokens, readColon (.colon :: tokens) = .ok tokens := fun _ => rfl
      have hlength := length_le_writtenMembers members
      simp only [readMembers, hkey, hmember, hcolon, hread _, bind, Except.bind]
      refine readMembers_writtenMembers hmembers ?_ rest
      simp only [List.length_append, List.length_cons]
      omega

namespace Shape

variable {shape : Shape σ α} {keys : List String} {record record' : σ} {x : α}

/-- A record is read from an object if the members of the object are, and nothing is missing. -/
theorem reads {members : List (String × Json)}
    (h : ReadsMembers shape.member ([], shape.blank) members (keys, record))
    (hfinish : shape.finish record = some x) : Reads shape.read (.object members) x := by
  intro rest
  obtain ⟨inner, hwritten, hread⟩ := readMembers_written h rest
  rw [hwritten]
  simp only [Shape.read, hread, bind, Except.bind, complete, hfinish]

/-- The member of a field that has not been read yet is read into the record. -/
lemma readsMember {β : Type} {key : String} {read : Reader β} {store : σ → β → σ} {v : Json} {y : β}
    (hfield : shape.fields.find? (·.key = key) = some (.of key read store)) (hkey : key ∉ keys)
    (hread : Reads read v y) :
    ReadsMember shape.member (keys, record) (key, v) (key :: keys, store record y) := by
  refine ⟨_, by simp only [member, hfield, if_neg hkey]; rfl, ?_⟩
  intro rest
  simp only [Field.of, hread rest, bind, Except.bind]
  rfl

/-- Whether members are read into a record of which no other fields than the known ones have been
read, after which there are more that are known. -/
def ReadsPart (shape : Shape σ α) (known : List String) (record : σ)
    (entries : List (String × Json)) (known' : List String) (record' : σ) : Prop :=
  ∀ keys ⊆ known, ∃ keys' ⊆ known',
    ReadsMembers shape.member (keys, record) entries (keys', record')

namespace ReadsPart

variable {known known' known'' : List String} {record'' : σ}
  {entries entries' : List (String × Json)} {β : Type} {key : String}

lemma append (h : shape.ReadsPart known record entries known' record')
    (h' : shape.ReadsPart known' record' entries' known'' record'') :
    shape.ReadsPart known record (entries ++ entries') known'' record'' := by
  intro keys hkeys
  obtain ⟨keys', hkeys', hread⟩ := h keys hkeys
  obtain ⟨keys'', hkeys'', hread'⟩ := h' keys' hkeys'
  exact ⟨keys'', hkeys'', hread.append hread'⟩

lemma field (store : σ → β → σ) {read : Reader β} {v : Json} {y : β}
    (hfield : shape.fields.find? (·.key = key) = some (.of key read store)) (hkey : key ∉ known)
    (hread : Reads read v y) (hrecord : store record y = record') :
    shape.ReadsPart known record [(key, v)] (key :: known) record' := by
  intro keys hkeys
  subst hrecord
  have hfresh : key ∉ keys := fun hmem => hkey (hkeys hmem)
  exact ⟨key :: keys, List.cons_subset_cons key hkeys, .single (readsMember hfield hfresh hread)⟩

lemma absent (known : List String) (key : String) :
    shape.ReadsPart known record [] (key :: known) record := by
  intro keys hkeys
  exact ⟨keys, List.subset_cons_of_subset key hkeys, .nil _⟩

/-- What is read from the beginning to the end makes up the record. -/
lemma reads (h : shape.ReadsPart [] shape.blank entries known record)
    (hfinish : shape.finish record = some x) : Reads shape.read (.object entries) x := by
  obtain ⟨keys, -, hread⟩ := h [] (List.Subset.refl [])
  exact Shape.reads hread hfinish

end ReadsPart

end Shape

/-! ## Trees -/

/-- What a value leads to that is complete: it is the tree, or lies in a container that goes on. -/
def resume (attention : Attention) (v : Json) (frames : List Frame) (rest : List Token) :
    Except Fault (Json × List Token) :=
  match frames with
  | [] => .ok (v, rest)
  | frame :: frames => readTreeFrom attention (.separator v) (frame :: frames) rest

section Tree

variable {attention : Attention} {what : Expected} {frames outer : List Frame} {token : Token}
  {v : Json} {depth n : Nat}

lemma readTreeFrom_cons (hstep : treeStep attention what frames token = .ok (.ofValue v outer))
    (rest : List Token) :
    readTreeFrom attention what frames (token :: rest) = resume attention v outer rest := by
  rw [readTreeFrom, hstep]
  cases outer <;> rfl

/-- A tree in which the values of some list come next. -/
lemma readTreeFrom_writtenItems {items : List Json}
    (h : ∀ item ∈ items, ∀ frames rest, frames.length = outer.length + 1 →
      readTreeFrom attention .value frames (item.written ++ rest) =
        resume attention item frames rest)
    (last : Json) (before : List Json) (rest : List Token) :
    readTreeFrom attention (.separator last) (.array before :: outer)
        (writtenItems items ++ .closeArray :: rest) =
      resume attention (.array ((last :: before).reverse ++ items)) outer rest := by
  induction items generalizing last before with
  | nil =>
    rw [writtenItems, List.append_nil]
    exact readTreeFrom_cons rfl rest
  | cons item items ih =>
    have hitem := h item List.mem_cons_self (.array (last :: before) :: outer)
      (writtenItems items ++ .closeArray :: rest) rfl
    have hrest := ih (fun other hother => h other (List.mem_cons_of_mem _ hother)) item
      (last :: before)
    have hcomma : ∀ tokens, readTreeFrom attention (.separator last) (.array before :: outer)
        (.comma :: tokens) =
          readTreeFrom attention .value (.array (last :: before) :: outer) tokens := fun _ => rfl
    rw [writtenItems, List.cons_append, List.append_assoc, hcomma, hitem, resume, hrest,
      List.reverse_cons, List.append_assoc, List.singleton_append]

lemma readTreeFrom_writtenMembers {members : List (String × Json)}
    (h : ∀ member ∈ members, ∀ frames rest, frames.length = outer.length + 1 →
      readTreeFrom attention .value frames (member.2.written ++ rest) =
        resume attention member.2 frames rest)
    (key : String) (last : Json) (before : List (String × Json)) (rest : List Token) :
    readTreeFrom attention (.separator last) (.object before key :: outer)
        (writtenMembers members ++ .closeObject :: rest) =
      resume attention (.object (((key, last) :: before).reverse ++ members)) outer rest := by
  induction members generalizing key last before with
  | nil =>
    rw [writtenMembers, List.append_nil]
    exact readTreeFrom_cons rfl rest
  | cons member members ih =>
    obtain ⟨next, value⟩ := member
    have hvalue := h (next, value) List.mem_cons_self
      (.object ((key, last) :: before) next :: outer)
      (writtenMembers members ++ .closeObject :: rest) rfl
    have hrest := ih (fun other hother => h other (List.mem_cons_of_mem _ hother)) next value
      ((key, last) :: before)
    have hcomma : ∀ tokens, readTreeFrom attention (.separator last) (.object before key :: outer)
        (.comma :: .string (some next) :: .colon :: tokens) =
          readTreeFrom attention .value (.object ((key, last) :: before) next :: outer) tokens :=
      fun _ => rfl
    rw [writtenMembers, List.cons_append, List.cons_append, List.cons_append, List.append_assoc,
      hcomma, hvalue, resume, hrest, List.reverse_cons, List.append_assoc, List.singleton_append]

lemma readTreeFrom_firstItem (before : List Json) (v : Json) (rest : List Token) :
    readTreeFrom attention .firstItem (.array before :: outer) (v.written ++ rest) =
      readTreeFrom attention .value (.array before :: outer) (v.written ++ rest) := by
  obtain ⟨token, tokens, hwritten, hbegins⟩ := exists_written v
  rw [hwritten]
  cases token with
  | closeObject | closeArray | colon | comma => exact nomatch hbegins
  | _ => rfl

/-- In a tree a written value is read as itself, as long as the limit for containers that lie in one
another leaves room for it. -/
theorem readTreeFrom_written (h : v.Nests n) (frames : List Frame) (rest : List Token)
    (hroom : depth + frames.length + n < nestingLimit) :
    readTreeFrom (.careful depth) .value frames (v.written ++ rest) =
      resume (.careful depth) v frames rest := by
  induction h generalizing frames rest with
  | null | bool | string =>
    rw [written]
    exact readTreeFrom_cons rfl rest
  | @array n items _ ih =>
    have hopen : ∀ tokens, readTreeFrom (.careful depth) .value frames (.openArray :: tokens) =
        readTreeFrom (.careful depth) .firstItem (.array [] :: frames) tokens := by
      intro tokens
      rw [readTreeFrom, treeStep, treeValue, openFrame, if_pos (by omega)]
    cases items with
    | nil =>
      rw [written, List.cons_append, hopen]
      exact readTreeFrom_cons rfl rest
    | cons item items =>
      have hitem := ih item List.mem_cons_self (.array [] :: frames)
        (writtenItems items ++ .closeArray :: rest) (by rw [List.length_cons]; omega)
      have hitems := readTreeFrom_writtenItems (fun other hother inner tokens
        (hinner : inner.length = frames.length + 1) =>
        ih other (List.mem_cons_of_mem _ hother) inner tokens (by omega)) item [] rest
      rw [written, List.cons_append, hopen, List.append_assoc, List.append_assoc,
        List.singleton_append, readTreeFrom_firstItem, hitem, resume, hitems]
      rfl
  | @object n members _ ih =>
    have hopen : ∀ tokens, readTreeFrom (.careful depth) .value frames (.openObject :: tokens) =
        readTreeFrom (.careful depth) .firstKey (.object [] "" :: frames) tokens := by
      intro tokens
      rw [readTreeFrom, treeStep, treeValue, openFrame, if_pos (by omega)]
    cases members with
    | nil =>
      rw [written, List.cons_append, hopen]
      exact readTreeFrom_cons rfl rest
    | cons member members =>
      obtain ⟨key, value⟩ := member
      have hvalue := ih (key, value) List.mem_cons_self (.object [] key :: frames)
        (writtenMembers members ++ .closeObject :: rest) (by rw [List.length_cons]; omega)
      have hmembers := readTreeFrom_writtenMembers (fun other hother inner tokens
        (hinner : inner.length = frames.length + 1) =>
        ih other (List.mem_cons_of_mem _ hother) inner tokens (by omega)) key value [] rest
      have hkey : ∀ tokens, readTreeFrom (.careful depth) .firstKey (.object [] "" :: frames)
          (.string (some key) :: .colon :: tokens) =
            readTreeFrom (.careful depth) .value (.object [] key :: frames) tokens := fun _ => rfl
      rw [written, List.cons_append, hopen, List.cons_append, List.cons_append, hkey,
        List.append_assoc, List.append_assoc, List.singleton_append, hvalue, resume, hmembers]
      rfl

/-- A written value is read as a tree. -/
theorem reads_tree (h : v.Nests n) (hroom : depth + n < nestingLimit) :
    Reads (readTree (.careful depth)) v v := by
  intro rest
  exact readTreeFrom_written h [] rest (by simpa using hroom)

end Tree

end Json
end Pseudonym
