import FrameGraph.Json.Value
import FrameGraph.Proofs.JsonLexemes

/-!
# JSON texts and their values

A JSON value in the sense of the grammar is a tree, whose numbers have any form and whose objects
may repeat a key. Every text of a tree is read as the value of the tree, and refused if it has none
because of a number that is not an unsigned integer (`parse?_of_text`): blanks, escapes and the
spelling of digits do not count.
-/

set_option autoImplicit false

namespace FrameGraph.Json

inductive Tree
  | null
  | bool (b : Bool)
  | number (n : Number)
  | string (s : String)
  | array (items : List Tree)
  | object (members : List (String × Tree))

namespace Tree

mutual

def lexemes : Tree → List Lexeme
  | null => [.word .null]
  | bool b => [.word (.bool b)]
  | number n => [.word (.number n)]
  | string s => [.string s]
  | array [] => [.mark .openArray, .mark .closeArray]
  | array (t :: ts) => .mark .openArray :: (lexemes t ++ moreItems ts)
  | object [] => [.mark .openObject, .mark .closeObject]
  | object ((k, t) :: ms) =>
    .mark .openObject :: .string k :: .mark .colon :: (lexemes t ++ moreMembers ms)

/-- What follows an item of an array. -/
def moreItems : List Tree → List Lexeme
  | [] => [.mark .closeArray]
  | t :: ts => .mark .comma :: (lexemes t ++ moreItems ts)

/-- What follows a member of an object. -/
def moreMembers : List (String × Tree) → List Lexeme
  | [] => [.mark .closeObject]
  | (k, t) :: ms => .mark .comma :: .string k :: .mark .colon :: (lexemes t ++ moreMembers ms)

end

mutual

/-- The value of a tree all of whose numbers are unsigned integers. -/
def value? : Tree → Option Value
  | null => some .null
  | bool b => some (.bool b)
  | number n => n.natural?.map .number
  | string s => some (.string s)
  | array ts => (values? ts).map .array
  | object ms => (memberValues? ms).map .object

def values? : List Tree → Option (List Value)
  | [] => some []
  | t :: ts => (value? t).bind fun v => (values? ts).map (v :: ·)

def memberValues? : List (String × Tree) → Option (List (String × Value))
  | [] => some []
  | (k, t) :: ms => (value? t).bind fun v => (memberValues? ms).map ((k, v) :: ·)

end

theorem forall₂_of_values? {ts : List Tree} {vs : List Value} (h : values? ts = some vs) :
    List.Forall₂ (fun t v => t.value? = some v) ts vs := by
  induction ts generalizing vs with
  | nil =>
    cases h
    exact .nil
  | cons t ts ih =>
    obtain ⟨v, hv, h⟩ := Option.bind_eq_some_iff.1 h
    obtain ⟨ws, hws, rfl⟩ := Option.map_eq_some_iff.1 h
    exact .cons hv (ih hws)

theorem forall₂_of_memberValues? {ms : List (String × Tree)} {vs : List (String × Value)}
    (h : memberValues? ms = some vs) :
    List.Forall₂ (fun m w => m.1 = w.1 ∧ m.2.value? = some w.2) ms vs := by
  induction ms generalizing vs with
  | nil =>
    cases h
    exact .nil
  | cons m ms ih =>
    obtain ⟨v, hv, h⟩ := Option.bind_eq_some_iff.1 h
    obtain ⟨ws, hws, rfl⟩ := Option.map_eq_some_iff.1 h
    exact .cons ⟨rfl, hv⟩ (ih hws)

theorem value?_array_eq_some_iff {ts : List Tree} {v : Value} :
    (array ts).value? = some v ↔ ∃ vs, values? ts = some vs ∧ .array vs = v :=
  Option.map_eq_some_iff

theorem value?_object_eq_some_iff {ms : List (String × Tree)} {v : Value} :
    (object ms).value? = some v ↔ ∃ vs, memberValues? ms = some vs ∧ .object vs = v :=
  Option.map_eq_some_iff

/-- Whether `cs` is a text of the tree. -/
def Text (t : Tree) (cs : List Char) : Prop := Row t.lexemes cs

/-- The text without blanks, and with as few escapes as there can be. -/
def plain (t : Tree) : List Char := t.lexemes.flatMap Lexeme.plain

/-- **Every tree has a text.** -/
theorem text_plain (t : Tree) : t.Text t.plain := row_plain t.lexemes

/-! ## No two words touch -/

theorem apart_append {xs ys : List Lexeme} {m : Mark} (hxs : Apart xs) (hys : Apart ys) :
    Apart (xs ++ .mark m :: ys) := by
  have hbehind : Apart (.mark m :: ys) := hys.cons fun l _ h => h.1
  exact hxs.append hbehind fun l _ l' hl' h => by
    cases hl'
    exact h.2

theorem apart_member {ls : List Lexeme} (k : String) (h : Apart ls) :
    Apart (.string k :: .mark .colon :: ls) := by
  have hkey : Apart [.string k] := .singleton _
  exact apart_append hkey h

mutual

theorem apart_lexemes : ∀ t : Tree, Apart t.lexemes
  | null | bool _ | number _ | string _ => .singleton _
  | array [] | object [] => apart_append .nil (.singleton _)
  | array (t :: ts) => apart_append .nil (apart_moreItems (apart_lexemes t) ts)
  | object ((k, t) :: ms) =>
    apart_append .nil (apart_member k (apart_moreMembers (apart_lexemes t) ms))

theorem apart_moreItems {xs : List Lexeme} (hxs : Apart xs) :
    ∀ ts : List Tree, Apart (xs ++ moreItems ts)
  | [] => apart_append hxs .nil
  | t :: ts => apart_append hxs (apart_moreItems (apart_lexemes t) ts)

theorem apart_moreMembers {xs : List Lexeme} (hxs : Apart xs) :
    ∀ ms : List (String × Tree), Apart (xs ++ moreMembers ms)
  | [] => apart_append hxs .nil
  | (k, t) :: ms =>
    apart_append hxs (apart_member k (apart_moreMembers (apart_lexemes t) ms))

end

end Tree

/-! ## What the lexemes are read as -/

/-- Reads the token of a lexeme. -/
def Parsing.readLexeme? (p : Parsing) (l : Lexeme) : Option Parsing := l.token?.bind p.read?

theorem foldlM_readLexeme? {p p' : Parsing} {l : Lexeme} (h : p.readLexeme? l = some p')
    (ls : List Lexeme) :
    (l :: ls).foldlM Parsing.readLexeme? p = ls.foldlM Parsing.readLexeme? p' := by
  rw [List.foldlM_cons, h]
  rfl

/-- To take the tokens first and then to read them is to read the lexemes one by one. -/
theorem foldlM_read?_tokens (ls : List Lexeme) (p : Parsing) :
    ((ls.mapM Lexeme.token?).bind fun ts => ts.foldlM Parsing.read? p) =
      ls.foldlM Parsing.readLexeme? p := by
  induction ls generalizing p with
  | nil => rfl
  | cons l ls ih =>
    rw [List.mapM_cons, List.foldlM_cons, Parsing.readLexeme?]
    cases l.token? with
    | none => rfl
    | some t =>
      cases hread : p.read? t with
      | none => cases htokens : ls.mapM Lexeme.token? <;> simp [hread]
      | some p' =>
        have hih := ih p'
        cases htokens : ls.mapM Lexeme.token? <;> simp_all

/-- Where an array may end, everything but its end is read as an item. -/
theorem readLexeme?_valueOrClose {l : Lexeme} (hl : l ≠ .mark .closeArray) (stack : List Frame) :
    Parsing.readLexeme? ⟨stack, .valueOrClose⟩ l = Parsing.readLexeme? ⟨stack, .value⟩ l := by
  cases l with
  | mark m =>
    cases m with
    | closeArray => exact absurd rfl hl
    | openObject | closeObject | openArray | colon | comma => rfl
  | string s => rfl
  | word w =>
    cases w with
    | null | bool b => rfl
    | number n =>
      simp only [Parsing.readLexeme?, Lexeme.token?, Word.token?]
      cases n.natural? <;> rfl

namespace Tree

theorem exists_first (t : Tree) : ∃ l ls, t.lexemes = l :: ls ∧ l ≠ .mark .closeArray := by
  cases t with
  | null | bool b | number n | string s => exact ⟨_, _, rfl, by simp⟩
  | array ts => cases ts <;> exact ⟨_, _, rfl, by simp⟩
  | object ms => cases ms <;> exact ⟨_, _, rfl, by simp⟩

/-- Where an item or the end of an array may come, a tree is read as an item. -/
theorem foldlM_first (t : Tree) (stack : List Frame) (rest : List Lexeme) :
    (t.lexemes ++ rest).foldlM Parsing.readLexeme? ⟨stack, .valueOrClose⟩ =
      (t.lexemes ++ rest).foldlM Parsing.readLexeme? ⟨stack, .value⟩ := by
  obtain ⟨l, ls, hlexemes, hl⟩ := t.exists_first
  rw [hlexemes, List.cons_append, List.foldlM_cons, List.foldlM_cons, readLexeme?_valueOrClose hl]

/-- A key is read with its colon. -/
theorem foldlM_key {p : Parsing} {stack : List Frame} {members : List (String × Value)} {k : String}
    (h : ∀ s, p.read? (.string s) = some ⟨stack, .colon members (String.ofList s)⟩)
    (ls : List Lexeme) :
    (.string k :: .mark .colon :: ls).foldlM Parsing.readLexeme? p =
      ls.foldlM Parsing.readLexeme? ⟨.object members k :: stack, .value⟩ := by
  have hkey : p.readLexeme? (.string k) = some ⟨stack, .colon members k⟩ := by
    have hread := h k.toList
    rwa [String.ofList_toList] at hread
  have hcolon : Parsing.readLexeme? ⟨stack, .colon members k⟩ (.mark .colon) =
      some ⟨.object members k :: stack, .value⟩ := rfl
  rw [foldlM_readLexeme? hkey, foldlM_readLexeme? hcolon]

-- By recursion on the tree. What follows it is arbitrary, so that an item is read with the rest of
-- its array behind it; the containers that are open keep what was read before.
mutual

/-- **A tree is read as its value**, whatever follows. -/
theorem foldlM_lexemes : ∀ (t : Tree) (stack : List Frame) (rest : List Lexeme),
    (t.lexemes ++ rest).foldlM Parsing.readLexeme? ⟨stack, .value⟩ =
      t.value?.bind fun v => rest.foldlM Parsing.readLexeme? (complete v stack)
  | null, _, _ => rfl
  | bool _, _, _ => rfl
  | string s, stack, rest => by
    have hread : Parsing.readLexeme? ⟨stack, .value⟩ (.string s) =
        some (complete (.string s) stack) := by
      have hbegin : beginValue? stack (.string s.toList) = some (complete (.string s) stack) := by
        rw [beginValue?, String.ofList_toList]
      exact hbegin
    exact foldlM_readLexeme? hread rest
  | number n, stack, rest => by
    rw [lexemes, value?, List.singleton_append, List.foldlM_cons, Parsing.readLexeme?,
      Lexeme.token?, Word.token?]
    cases n.natural? <;> rfl
  | array [], _, _ => rfl
  | array (t :: ts), stack, rest => by
    have hopen : Parsing.readLexeme? ⟨stack, .value⟩ (.mark .openArray) =
        some ⟨.array [] :: stack, .valueOrClose⟩ := rfl
    rw [lexemes, List.cons_append, foldlM_readLexeme? hopen, List.append_assoc, foldlM_first,
      foldlM_lexemes, value?, values?, Option.bind_map, Option.bind_assoc]
    refine Option.bind_congr fun v _ => ?_
    rw [Option.bind_map]
    exact foldlM_moreItems ts [v] stack rest
  | object [], _, _ => rfl
  | object ((k, t) :: ms), stack, rest => by
    have hopen : Parsing.readLexeme? ⟨stack, .value⟩ (.mark .openObject) =
        some ⟨stack, .keyOrClose⟩ := rfl
    rw [lexemes, List.cons_append, foldlM_readLexeme? hopen, List.cons_append, List.cons_append,
      foldlM_key fun _ => rfl, List.append_assoc, foldlM_lexemes, value?, memberValues?,
      Option.bind_map, Option.bind_assoc]
    refine Option.bind_congr fun v _ => ?_
    rw [Option.bind_map]
    exact foldlM_moreMembers ms [(k, v)] k stack rest

theorem foldlM_moreItems : ∀ (ts : List Tree) (items : List Value) (stack : List Frame)
    (rest : List Lexeme),
    (moreItems ts ++ rest).foldlM Parsing.readLexeme? ⟨.array items :: stack, .commaOrClose⟩ =
      (values? ts).bind fun vs =>
        rest.foldlM Parsing.readLexeme? (complete (.array (items.reverse ++ vs)) stack)
  | [], items, stack, rest => by
    have hclose : Parsing.readLexeme? ⟨.array items :: stack, .commaOrClose⟩ (.mark .closeArray) =
        some (complete (.array items.reverse) stack) := rfl
    rw [moreItems, List.singleton_append, foldlM_readLexeme? hclose, values?, Option.bind_some,
      List.append_nil]
  | t :: ts, items, stack, rest => by
    have hcomma : Parsing.readLexeme? ⟨.array items :: stack, .commaOrClose⟩ (.mark .comma) =
        some ⟨.array items :: stack, .value⟩ := rfl
    rw [moreItems, List.cons_append, foldlM_readLexeme? hcomma, List.append_assoc, foldlM_lexemes,
      values?, Option.bind_assoc]
    refine Option.bind_congr fun v _ => ?_
    rw [Option.bind_map]
    refine (foldlM_moreItems ts (v :: items) stack rest).trans ?_
    simp only [List.reverse_cons, List.append_assoc, List.singleton_append]
    rfl

theorem foldlM_moreMembers : ∀ (ms : List (String × Tree)) (members : List (String × Value))
    (k : String) (stack : List Frame) (rest : List Lexeme),
    (moreMembers ms ++ rest).foldlM Parsing.readLexeme?
        ⟨.object members k :: stack, .commaOrClose⟩ =
      (memberValues? ms).bind fun vs =>
        rest.foldlM Parsing.readLexeme? (complete (.object (members.reverse ++ vs)) stack)
  | [], members, k, stack, rest => by
    have hclose : Parsing.readLexeme? ⟨.object members k :: stack, .commaOrClose⟩
        (.mark .closeObject) = some (complete (.object members.reverse) stack) := rfl
    rw [moreMembers, List.singleton_append, foldlM_readLexeme? hclose, memberValues?,
      Option.bind_some, List.append_nil]
  | (k', t) :: ms, members, k, stack, rest => by
    have hcomma : Parsing.readLexeme? ⟨.object members k :: stack, .commaOrClose⟩ (.mark .comma) =
        some ⟨stack, .key members⟩ := rfl
    rw [moreMembers, List.cons_append, foldlM_readLexeme? hcomma, List.cons_append,
      List.cons_append, foldlM_key fun _ => rfl, List.append_assoc, foldlM_lexemes, memberValues?,
      Option.bind_assoc]
    refine Option.bind_congr fun v _ => ?_
    rw [Option.bind_map]
    refine (foldlM_moreMembers ms ((k', v) :: members) k' stack rest).trans ?_
    simp only [List.reverse_cons, List.append_assoc, List.singleton_append]
    rfl

end

end Tree

theorem ofTokens?_lexemes (t : Tree) :
    (t.lexemes.mapM Lexeme.token?).bind ofTokens? = t.value? := by
  have hread := t.foldlM_lexemes [] []
  rw [List.append_nil, ← foldlM_read?_tokens] at hread
  unfold ofTokens?
  cases htokens : t.lexemes.mapM Lexeme.token? with
  | none =>
    rw [htokens] at hread
    cases hvalue : t.value? with
    | none => rfl
    | some v =>
      rw [hvalue] at hread
      cases hread
  | some ts =>
    rw [htokens, Option.bind_some] at hread
    rw [Option.bind_some, hread]
    cases t.value? <;> rfl

/-- **Every text of a tree is read as the value of the tree.** -/
theorem parse?_of_text {t : Tree} {text : String} (h : t.Text text.toList) :
    parse? text = t.value? := by
  rw [parse?, tokens?_of_row h t.apart_lexemes, ofTokens?_lexemes]

end FrameGraph.Json
