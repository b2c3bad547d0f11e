/-
  Statements are read as the queries they mean.

  A statement is written from its criteria and keys, and read with no knowledge of them.  The
  proof goes up piece by piece: each piece of text is cut into certain tokens (`Lexes`), and
  these spell what the piece was written for (`Spells` and its kin).

  What makes this work for fields of any name is that a segment that is no plain word is quoted,
  and that the lexer takes an escaped text back to what it was.  What makes it work for trees of
  any shape is that every piece is written with parentheses where it could be misread, so each can
  be read as what stands under `NOT`.  The rest is bookkeeping about what follows a piece:
  `Separates` says of a piece that it does not go on with the word in front.

  1. `Lexes`: pieces of text and their tokens;
  2. fields, parameters and lists of them;
  3. `predicate_spelled`: the text of criteria spells their condition, as what stands under `NOT`;
  4. projection, condition and order;
  5. `ofText_ofQuery`: the whole statement.
-/
import DocQuery.Proofs.Grammar
import DocQuery.Proofs.Meaning
import DocQuery.Proofs.Rendering

namespace DocQuery.Dialect

open Statement (joinChars rootAlias)
open Text (isWordChar)

/-! ## Pieces of text -/

/-- A piece is read as some tokens, whatever follows, unless that goes on with a word. -/
def Lexes (piece : List Char) (ts : List Token) : Prop :=
  ∀ rest us, Ends rest → tokens rest = .ok us → tokens (piece ++ rest) = .ok (ts ++ us)

/-- A piece does not go on with a word in front of it. -/
def Separates (piece : List Char) : Prop :=
  ∀ rest, Ends rest → Ends (piece ++ rest)

variable {p q : List Char} {ts us : List Token}

/-- A piece that begins with no character of a word is set apart from a word before it. -/
theorem separates_cons {c : Char} (h : isWordChar c = false) : Separates (c :: q) :=
  fun _ _ => ends_cons h

/-- An empty piece has no tokens. -/
theorem lexes_nil : Lexes [] [] := fun _ _ _ ht => ht

/-- Two pieces one behind the other, if the second is set apart from the first. -/
theorem Lexes.append (hp : Lexes p ts) (hs : Separates q) (hq : Lexes q us) :
    Lexes (p ++ q) (ts ++ us) := by
  intro rest vs hr ht
  rw [List.append_assoc, List.append_assoc]
  exact hp _ _ (hs rest hr) (hq rest vs hr ht)

/-- A blank in front changes no tokens. -/
theorem Lexes.blank (hq : Lexes q us) : Lexes (' ' :: q) us := by
  intro rest vs hr ht
  rw [List.cons_append, tokens_blank]
  exact hq rest vs hr ht

/-- A symbol in front of a piece is one more token, with no blank between needed. -/
theorem Lexes.symbol {c : Char} {s : Symbol}
    (h : (c, s) ∈ [('(', Symbol.leftParen), (')', .rightParen), ('[', .leftBracket),
      (']', .rightBracket), (',', .comma), ('.', .dot), ('*', .star)])
    (hq : Lexes q us) : Lexes (c :: q) (.symbol s :: us) :=
  fun rest vs hr ht => tokens_symbol h (hq rest vs hr ht)

/-- A word in front of a piece is one more token, if the piece begins with something that ends a
word. -/
theorem Lexes.word {w : List Char} (hw : IsWord w) (hs : Separates q) (hq : Lexes q us) :
    Lexes (w ++ q) (.word (String.ofList w) :: us) := by
  intro rest vs hr ht
  rw [List.append_assoc]
  exact tokens_word hw (hs rest hr) (hq rest vs hr ht)

/-- A word by itself. -/
theorem lexes_word {w : List Char} (hw : IsWord w) : Lexes w [.word (String.ofList w)] :=
  fun _ _ hr ht => tokens_word hw hr ht

/-- A word and a blank, in front of another piece. -/
theorem Lexes.behind (hq : Lexes q us) (w : List Char) (hw : IsWord w) :
    Lexes (w ++ ' ' :: q) (.word (String.ofList w) :: us) :=
  .word hw (separates_cons (by decide)) hq.blank

/-- A piece in parentheses. -/
theorem Lexes.parens (hp : Lexes p ts) :
    Lexes ('(' :: (p ++ [')'])) (.symbol .leftParen :: (ts ++ [.symbol .rightParen])) :=
  .symbol (by simp) (hp.append (separates_cons (by decide)) (.symbol (by simp) lexes_nil))

/-- A piece is read as tokens that spell something. -/
def Written {β : Type} (S : List Token → β → Prop) (piece : List Char) (b : β) : Prop :=
  ∃ ts, Lexes piece ts ∧ S ts b

/-- The piece after a first one may be counted to it. -/
theorem joinChars_gather (separator p q : List Char) (parts : List (List Char)) :
    joinChars separator (p :: q :: parts)
      = joinChars separator ((p ++ separator ++ q) :: parts) := by
  cases parts with
  | nil => rfl
  | cons r parts => simp only [joinChars, List.append_assoc]

/-- Pieces between commas spell a list, if its parts do and commas make lists. -/
theorem written_commas {β : Type} {S : List Token → β → Prop} {L : List Token → List β → Prop}
    (one : ∀ {ts b}, S ts b → L ts [b])
    (cons : ∀ {ts us b c bs}, S ts b → L us (c :: bs) →
      L (ts ++ .symbol .comma :: us) (b :: c :: bs))
    {parts : List (List Char)} {bs : List β} (h : Paired (Written S) parts bs) (hne : bs ≠ []) :
    Written L (joinChars [',', ' '] parts) bs := by
  induction h with
  | nil => exact absurd rfl hne
  | cons hb hbs ih =>
    obtain ⟨ts, hlex, hspell⟩ := hb
    cases hbs with
    | nil => exact ⟨ts, hlex, one hspell⟩
    | cons hc hcs =>
      -- the part and a comma in front of all that is behind them
      obtain ⟨us, hlex', hspell'⟩ := ih (by simp)
      refine ⟨_, ?_, cons hspell hspell'⟩
      rw [joinChars, List.append_assoc]
      exact hlex.append (separates_cons (by decide)) (.symbol (by simp) hlex'.blank)

/-! ## Operands -/

/-- The tokens of segments spell their path, whichever way each is written. -/
theorem spellsPath_segments (segments : List (List Char)) :
    SpellsPath (segments.flatMap segmentTokens) (segments.map String.ofList) := by
  induction segments with
  | nil => exact .nil
  | cons segment segments ih =>
    rw [List.flatMap_cons, List.map_cons, segmentTokens]
    split
    · exact .plain _ ih
    · exact .bracketed _ ih

/-- A reference is written so that it spells its field. -/
theorem written_field {path : String} {cs : List Char} (h : Statement.fieldChars path = .ok cs) :
    Written SpellsOperand cs (.field path) := by
  refine ⟨fieldTokens path, fun rest us hr ht => tokens_fieldChars h hr ht, ?_⟩
  exact .path (spellsPath_segments _) (by simpa [segments, Text.split] using Text.pieces_ne_nil _ _)

/-- The field of a leaf is written as the reference is; the kinds differ only in how they fail. -/
theorem written_leafField {kind : Criteria.Kind} {f : String} {cs : List Char}
    (h : Statement.leafField kind f = .ok cs) : Written SpellsOperand cs (.field f) := by
  rw [Statement.leafField] at h
  split at h
  · cases h
  · exact written_field h

theorem written_parameter (n : Nat) :
    Written SpellsOperand (Statement.parameterChars n) (.numbered n) :=
  ⟨_, fun _ _ hr ht => tokens_parameter n hr ht, .parameter _⟩

/-- The parameters of a test for membership are numbered one after the other, from the number of the
node. -/
theorem written_parameters (next count : Nat) :
    Paired (Written SpellsOperand) (Statement.parameterList next count)
      ((List.range' next count).map Operand.numbered) := by
  induction count generalizing next with
  | zero => exact .nil
  | succ count ih => exact .cons (written_parameter next) (ih (next + 1))

/-- The name of a function is a word. -/
theorem isWord_functionWord (f : Function) : IsWord f.word.toList := by
  cases f <;> decide

/-- A call with its arguments. -/
theorem written_call (f : Function) {parts : List (List Char)} {os : List Operand}
    (h : Paired (Written SpellsOperand) parts os) (hne : os ≠ []) (harity : os.length = f.arity) :
    Written (Spells .atom) (Statement.callChars f.word parts) (.call f os) := by
  obtain ⟨ts, hlex, hspell⟩ := written_commas (L := SpellsList) .one .cons h hne
  have hword := Lexes.word (isWord_functionWord f) (separates_cons (by decide)) hlex.parens
  rw [String.ofList_toList] at hword
  exact ⟨_, hword, .call f (by cases f <;> decide) hspell harity⟩

/-! ## Groups -/

/-- Pieces with a word between neighbours spell what is gathered from the left, if a looser level
takes in one more condition behind that word. -/
theorem written_chain {l : Level} {word : List Char} {join : Condition → Condition → Condition}
    (hword : IsWord word)
    (step : ∀ {ts us a b}, Spells l ts a → Spells .negation us b →
      Spells l (ts ++ .word (String.ofList word) :: us) (join a b))
    {parts : List (List Char)} {cs : List Condition}
    (h : Paired (Written (Spells .negation)) parts cs) :
    ∀ {first a}, Written (Spells l) first a →
      Written (Spells l) (joinChars (' ' :: (word ++ [' '])) (first :: parts))
        (cs.foldl join a) := by
  induction h with
  | nil =>
    intro first a hfirst
    exact hfirst
  | cons hb _ ih =>
    intro first a hfirst
    obtain ⟨ts, hlex, hspell⟩ := hfirst
    obtain ⟨us, hlex', hspell'⟩ := hb
    -- the first two parts count as one: the condition gathered so far
    rw [joinChars_gather]
    refine ih ⟨_, ?_, step hspell hspell'⟩
    rw [List.append_assoc, List.cons_append, List.append_assoc]
    refine hlex.append (separates_cons (by decide)) (.blank ?_)
    exact hlex'.behind word hword

/-- A group in its parentheses. -/
theorem written_group {l : Level} (word : List Char) {join : Condition → Condition → Condition}
    {unit : Condition} (hword : IsWord word)
    (first : ∀ {ts a}, Spells .negation ts a → Spells l ts a)
    (step : ∀ {ts us a b}, Spells l ts a → Spells .negation us b →
      Spells l (ts ++ .word (String.ofList word) :: us) (join a b))
    (group : ∀ {ts c}, Spells l ts c → Spells .disjunction ts c)
    {parts : List (List Char)} {cs : List Condition}
    (h : Paired (Written (Spells .negation)) parts cs) (hne : cs ≠ []) :
    Written (Spells .negation) ('(' :: (joinChars (' ' :: (word ++ [' '])) parts ++ [')']))
      (.chain join unit cs) := by
  cases h with
  | nil => exact absurd rfl hne
  | cons hb hbs =>
    obtain ⟨ts, hlex, hspell⟩ := hb
    obtain ⟨us, hlex', hspell'⟩ := written_chain hword step hbs ⟨ts, hlex, first hspell⟩
    exact ⟨_, hlex'.parens, .atom (.group (group hspell'))⟩

/-! ## Predicates -/

/-- A condition behind `NOT`. -/
theorem written_not {piece : List Char} {c : Condition} (h : Written (Spells .negation) piece c) :
    Written (Spells .negation) ('N' :: 'O' :: 'T' :: ' ' :: piece) (.not c) := by
  obtain ⟨ts, hlex, hspell⟩ := h
  refine ⟨.word "NOT" :: ts, ?_, .not (by decide) hspell⟩
  exact hlex.behind ['N', 'O', 'T'] (by decide)

/-- A condition in parentheses. -/
theorem written_parens {piece : List Char} {c : Condition}
    (h : Written (Spells .negation) piece c) :
    Written (Spells .negation) ('(' :: (piece ++ [')'])) c := by
  obtain ⟨ts, hlex, hspell⟩ := h
  exact ⟨_, hlex.parens, .atom (.group (.conjunction (.negation hspell)))⟩

/-- A field compared with a parameter. -/
theorem written_compare {field : List Char} {o : Operand} (op : Comparison) (n : Nat)
    (h : Written SpellsOperand field o) :
    Written (Spells .atom)
      (field ++ ' ' :: (op.operator.toList ++ ' ' :: Statement.parameterChars n))
      (.compare o op (.numbered n)) := by
  obtain ⟨ts, hlex, hspell⟩ := h
  obtain ⟨us, hlex', hspell'⟩ := written_parameter n
  refine ⟨_, ?_, .compare op hspell hspell'⟩
  refine hlex.append (separates_cons (by decide)) (.blank ?_)
  intro rest vs hr ht
  rw [List.append_assoc]
  exact tokens_operator op (hlex' rest vs hr ht)

/-- A field looked for in a list. -/
theorem written_oneOf {field : List Char} {o : Operand} {parts : List (List Char)}
    {os : List Operand} (h : Written SpellsOperand field o)
    (hos : Paired (Written SpellsOperand) parts os) (hne : os ≠ []) :
    Written (Spells .atom)
      (field ++ [' ', 'I', 'N', ' ', '('] ++ joinChars [',', ' '] parts ++ [')'])
      (.oneOf o os) := by
  obtain ⟨ts, hlex, hspell⟩ := h
  obtain ⟨us, hlex', hspell'⟩ := written_commas (L := SpellsList) .one .cons hos hne
  refine ⟨_, ?_, .oneOf (w := "IN") (by decide) hspell hspell'⟩
  rw [List.append_assoc, List.append_assoc]
  refine hlex.append (separates_cons (by decide)) (.blank ?_)
  exact hlex'.parens.behind ['I', 'N'] (by decide)

/-- What takes every record is written as a truth value. -/
theorem written_true : Written (Spells .negation) "true".toList (.constant true) := by
  have hlex := lexes_word (w := "true".toList) (by decide)
  rw [String.ofList_toList] at hlex
  exact ⟨_, hlex, .atom (.operand (.true (by decide)))⟩

/-- An atom may stand under `NOT`. -/
theorem written_atom {piece : List Char} {c : Condition} (h : Written (Spells .atom) piece c) :
    Written (Spells .negation) piece c := by
  obtain ⟨ts, hlex, hspell⟩ := h
  exact ⟨ts, hlex, .atom hspell⟩

mutual

/-- **Written criteria spell their condition.**  Induction on the criteria: the text of a child is
a condition as it may stand under `NOT`, so a group only has to gather its children. -/
theorem predicate_written : ∀ (c : Criteria) (next : Nat) {piece : List Char},
    Statement.predicate next c = .ok piece →
      Written (Spells .negation) piece (c.condition next)
  | .all, next, piece, h => by
    cases h
    exact written_true
  | .and [], next, piece, h => by cases h
  | .and (c :: cs), next, piece, h => by
    obtain ⟨parts, hparts, h⟩ := ok_of_bind h
    cases h
    -- a child is written so that it may stand under `NOT`, hence also within a conjunction
    have hchildren := predicates_written (c :: cs) next hparts
    exact written_group ['A', 'N', 'D'] (by decide)
      .negation (.and (by decide)) .conjunction hchildren (by simp [Criteria.conditions])
  | .or [], next, piece, h => by cases h
  | .or (c :: cs), next, piece, h => by
    obtain ⟨parts, hparts, h⟩ := ok_of_bind h
    cases h
    have hchildren := predicates_written (c :: cs) next hparts
    exact written_group ['O', 'R'] (by decide)
      (fun ha => .conjunction (.negation ha)) (fun ha hb => .or (by decide) ha (.negation hb)) id
      hchildren (by simp [Criteria.conditions])
  | .not c, next, piece, h => by
    obtain ⟨part, hpart, h⟩ := ok_of_bind h
    cases h
    exact written_not (written_parens (predicate_written c next hpart))
  | .compare op f v, next, piece, h => by
    obtain ⟨field, hfield, h⟩ := ok_of_bind h
    cases h
    exact written_atom (written_compare op next (written_leafField hfield))
  | .oneOf f vs, next, piece, h => by
    obtain ⟨field, hfield, h⟩ := ok_of_bind h
    split at h
    · cases h
    · rename_i hvs
      cases h
      have hne : (List.range' next vs.length).map Operand.numbered ≠ [] := by
        simpa using hvs
      exact written_atom
        (written_oneOf (written_leafField hfield) (written_parameters next vs.length) hne)
  | .startsWith f s, next, piece, h => by
    obtain ⟨field, hfield, h⟩ := ok_of_bind h
    cases h
    have hargs := Paired.cons (written_leafField hfield) (.cons (written_parameter next) .nil)
    exact written_atom (written_call .startsWith hargs (by simp) rfl)
  | .contains f s, next, piece, h => by
    obtain ⟨field, hfield, h⟩ := ok_of_bind h
    cases h
    have hargs := Paired.cons (written_leafField hfield) (.cons (written_parameter next) .nil)
    exact written_atom (written_call .contains hargs (by simp) rfl)
  | .isNull f, next, piece, h => by
    obtain ⟨field, hfield, h⟩ := ok_of_bind h
    cases h
    have hargs := Paired.cons (written_leafField hfield) .nil
    exact written_atom (written_call .isNull hargs (by simp) rfl)
  | .isNotNull f, next, piece, h => by
    obtain ⟨field, hfield, h⟩ := ok_of_bind h
    cases h
    have hargs := Paired.cons (written_leafField hfield) .nil
    -- a test for what is not null is the negation of one for null
    exact written_not (written_atom (written_call .isNull hargs (by simp) rfl))

/-- `predicate_written` for a list of trees, each counting on from where the one before it ended. -/
theorem predicates_written : ∀ (cs : List Criteria) (next : Nat) {parts : List (List Char)},
    Statement.predicates next cs = .ok parts →
      Paired (Written (Spells .negation)) parts (Criteria.conditions next cs)
  | [], next, parts, h => by
    cases h
    exact .nil
  | c :: cs, next, parts, h => by
    obtain ⟨part, hpart, h⟩ := ok_of_bind h
    obtain ⟨rest, hrest, h⟩ := ok_of_bind h
    cases h
    exact .cons (predicate_written c next hpart) (predicates_written cs _ hrest)

end

/-! ## The parts of a statement -/

/-- The tokens of the beginning of a statement. -/
def projectionTokens : Statement.Shape → List Token
  | .find => [.word "SELECT", .symbol .star, .word "FROM", .word "ROOT", .word rootAlias]
  | .count => [.word "SELECT", .word "COUNT", .symbol .leftParen, .integer 1, .symbol .rightParen,
      .word "AS", .word Statement.countAlias, .word "FROM", .word "ROOT", .word rootAlias]

/-- The one that is counted, and its parenthesis. -/
theorem lexes_one : Lexes ['1', ')'] [.integer 1, .symbol .rightParen] := by
  intro rest ts _ ht
  have hclose : tokens (')' :: rest) = .ok (.symbol .rightParen :: ts) := tokens_symbol (by simp) ht
  have hscan : scan '1' (')' :: rest) = .ok (.integer 1, ')' :: rest) := rfl
  exact tokens_cons (by decide) hscan hclose

/-- The beginning of a statement, for records and for their number. -/
theorem lexes_projection (shape : Statement.Shape) :
    Lexes (Statement.projection shape) (projectionTokens shape) := by
  -- both beginnings end alike
  have hroot : Lexes ['F', 'R', 'O', 'M', ' ', 'R', 'O', 'O', 'T', ' ', 'r']
      [.word "FROM", .word "ROOT", .word rootAlias] :=
    ((lexes_word (w := ['r']) (by decide)).behind ['R', 'O', 'O', 'T'] (by decide)).behind
      ['F', 'R', 'O', 'M'] (by decide)
  cases shape with
  | find =>
    have hstar : Lexes ('*' :: ' ' :: _) (.symbol .star :: _) := .symbol (by simp) hroot.blank
    exact hstar.behind ['S', 'E', 'L', 'E', 'C', 'T'] (by decide)
  | count =>
    have hname : Lexes _ (.word "AS" :: .word Statement.countAlias :: _) :=
      (hroot.behind ['_', 'a', 'g', 'g', 'r', 'e', 'g', 'a', 't', 'e'] (by decide)).behind
        ['A', 'S'] (by decide)
    have hnumber : Lexes ('(' :: '1' :: ')' :: ' ' :: _)
        (.symbol .leftParen :: .integer 1 :: .symbol .rightParen :: _) :=
      .symbol (by simp) (lexes_one.append (separates_cons (by decide)) hname.blank)
    have hcount : Lexes ('C' :: 'O' :: 'U' :: 'N' :: 'T' :: '(' :: _) (.word "COUNT" :: _) :=
      Lexes.word (w := ['C', 'O', 'U', 'N', 'T']) (by decide) (separates_cons (by decide)) hnumber
    exact hcount.behind ['S', 'E', 'L', 'E', 'C', 'T'] (by decide)

/-- Which tokens spell the condition of a query, if it has one. -/
inductive SpellsWhere : List Token → Option Condition → Prop
  | none : SpellsWhere [] none
  | condition {ts c} : Spells .negation ts c → SpellsWhere (.word "WHERE" :: ts) (some c)

/-- Which tokens spell the order that ends a query, if it has one. -/
inductive SpellsEnd : List Token → List (List String × Direction) → Prop
  | none : SpellsEnd [] []
  | order {ts es} : SpellsOrder ts es → SpellsEnd (.word "ORDER" :: .word "BY" :: ts) es

/-- The condition is read up to the order. -/
theorem readWhere_spelled {ts us : List Token} {c : Option Condition}
    {order : List (List String × Direction)} (h : SpellsWhere ts c) (hend : SpellsEnd us order) :
    readWhere rootAlias (ts ++ us) = .ok (c, us) := by
  cases h with
  | none => cases hend <;> rfl
  | @condition ts c hspell =>
    have hread : readCondition rootAlias (ts ++ us) = .ok (c, us) := by
      -- the end of the query and `ORDER` go on with no part of a condition
      refine readCondition_spelled (.conjunction (.negation hspell)) ?_ ?_ ?_
      all_goals cases hend
      · trivial
      · exact (by decide : Text.sameWord "ORDER" "IN" = false)
      · rfl
      · exact word?_miss (by decide)
      · rfl
      · exact word?_miss (by decide)
    rw [List.cons_append, readWhere, word?_hit (by decide)]
    simp only [bind, Except.bind, hread]

/-- The order of a statement is read to its end. -/
theorem readOrder_end {us : List Token} {order : List (List String × Direction)}
    (h : SpellsEnd us order) : readOrder rootAlias us = .ok (order, []) := by
  cases h with
  | none => rfl
  | order hspell => exact readOrder_spelled (by decide) (by decide) hspell

/-- The condition of a statement spells that of its query. -/
theorem whereChars_written {c : Criteria} {piece : List Char}
    (h : Statement.whereChars c = .ok piece) :
    ∃ ts, Lexes piece ts ∧ Separates piece ∧ SpellsWhere ts c.rootCondition := by
  by_cases hall : c = .all
  · subst hall
    cases h
    exact ⟨[], lexes_nil, fun _ hr => hr, .none⟩
  · have hwhere : Statement.whereChars c
        = (Statement.predicate 0 c >>= fun p => .ok (" WHERE ".toList ++ p)) := by
      cases c <;> first | exact absurd rfl hall | rfl
    rw [hwhere] at h
    obtain ⟨p, hp, h⟩ := ok_of_bind h
    cases h
    obtain ⟨ts, hlex, hspell⟩ := predicate_written c 0 hp
    rw [rootCondition_of_ne_all hall]
    exact ⟨.word "WHERE" :: ts, (hlex.behind ['W', 'H', 'E', 'R', 'E'] (by decide)).blank,
      separates_cons (by decide), .condition hspell⟩

/-- A sort key is written so that it spells the entry it stands for. -/
theorem orderEntry_written {k : SortKey} {piece : List Char}
    (h : Statement.orderEntry k = .ok piece) : Written SpellsEntry piece k.entry := by
  obtain ⟨field, hfield, h⟩ := ok_of_bind h
  cases h
  obtain ⟨ts, hlex, hspell⟩ := written_field hfield
  obtain ⟨path, direction⟩ := k
  cases direction with
  | ascending =>
    show Written _ (field ++ " ASC".toList) _
    refine ⟨ts ++ [.word "ASC"], ?_, .ascending (by decide) hspell⟩
    have hword := (lexes_word (w := ['A', 'S', 'C']) (by decide)).blank
    exact hlex.append (q := [' ', 'A', 'S', 'C']) (separates_cons (by decide)) hword
  | descending =>
    show Written _ (field ++ " DESC".toList) _
    refine ⟨ts ++ [.word "DESC"], ?_, .descending (by decide) hspell⟩
    have hword := (lexes_word (w := ['D', 'E', 'S', 'C']) (by decide)).blank
    exact hlex.append (q := [' ', 'D', 'E', 'S', 'C']) (separates_cons (by decide)) hword

/-- The order of a statement spells the sort of its query, and nothing if there is none. -/
theorem orderChars_written {keys : List SortKey} {piece : List Char}
    (h : Statement.orderChars keys = .ok piece) :
    ∃ ts, Lexes piece ts ∧ Separates piece ∧ SpellsEnd ts (keys.map SortKey.entry) := by
  cases keys with
  | nil =>
    cases h
    exact ⟨[], lexes_nil, fun _ hr => hr, .none⟩
  | cons k keys =>
    obtain ⟨entries, hentries, h⟩ := ok_of_bind h
    have hpiece : piece = ' ' :: 'O' :: 'R' :: 'D' :: 'E' :: 'R' :: ' ' :: 'B' :: 'Y' :: ' ' ::
        joinChars [',', ' '] entries := (Except.ok.inj h).symm
    -- each entry is written by itself, and commas make them an order
    have hpaired : Paired (Written SpellsEntry) entries ((k :: keys).map SortKey.entry) :=
      (paired_of_mapM hentries).mapSwap fun h => orderEntry_written h
    obtain ⟨ts, hlex, hspell⟩ := written_commas (L := SpellsOrder) .one .cons hpaired (by simp)
    rw [hpiece]
    refine ⟨.word "ORDER" :: .word "BY" :: ts, ?_, separates_cons (by decide), .order hspell⟩
    have hby : Lexes ('B' :: 'Y' :: ' ' :: _) (.word "BY" :: ts) :=
      hlex.behind ['B', 'Y'] (by decide)
    have horder : Lexes ('O' :: 'R' :: 'D' :: 'E' :: 'R' :: ' ' :: _) (.word "ORDER" :: _) :=
      hby.behind ['O', 'R', 'D', 'E', 'R'] (by decide)
    exact horder.blank

/-! ## Whole statements -/

/-- A query from tokens: the beginning, then what the readers of condition and order make of the
rest. -/
theorem ofTokens_parts (shape : Statement.Shape) {ts us : List Token} {c : Option Condition}
    {order : List (List String × Direction)}
    (hc : readWhere rootAlias (ts ++ us) = .ok (c, us))
    (ho : readOrder rootAlias us = .ok (order, [])) :
    Select.ofTokens (projectionTokens shape ++ (ts ++ us)) = .ok ⟨shape.projection, c, order⟩ := by
  cases shape with
  | find =>
    have hstar : ∀ vs, readProjection (.symbol .star :: vs) = .ok (.all, vs) := fun _ => rfl
    simp only [projectionTokens, List.cons_append, List.nil_append, Select.ofTokens, bind,
      Except.bind, expectWord_hit (by decide : Text.sameWord "SELECT" "SELECT" = true), hstar,
      expectWord_hit (by decide : Text.sameWord "FROM" "FROM" = true),
      expectWord_hit (by decide : Text.sameWord "ROOT" "ROOT" = true), readName, hc, ho]
    rfl
  | count =>
    have hcount : ∀ vs, readProjection (.word "COUNT" :: .symbol .leftParen :: .integer 1 ::
        .symbol .rightParen :: .word "AS" :: .word Statement.countAlias :: vs)
          = .ok (.count Statement.countAlias, vs) := fun _ => rfl
    simp only [projectionTokens, List.cons_append, List.nil_append, Select.ofTokens, bind,
      Except.bind, expectWord_hit (by decide : Text.sameWord "SELECT" "SELECT" = true), hcount,
      expectWord_hit (by decide : Text.sameWord "FROM" "FROM" = true),
      expectWord_hit (by decide : Text.sameWord "ROOT" "ROOT" = true), readName, hc, ho]
    rfl

/-- A statement is made of three pieces, and of the operands with their names. -/
theorem ofQuery_parts {shape : Statement.Shape} {q : Query} {s : Statement}
    (h : Statement.ofQuery shape q = .ok s) : ∃ condition order,
      Statement.whereChars q.criteria = .ok condition
        ∧ (match shape with
          | .find => Statement.orderChars q.effectiveSort
          | .count => .ok []) = .ok order
        ∧ s = ⟨String.ofList (Statement.projection shape ++ condition ++ order),
          Statement.numbered 0 q.criteria.allOperands⟩ := by
  rw [Statement.ofQuery_eq] at h
  obtain ⟨condition, hcondition, h⟩ := ok_of_bind h
  cases shape with
  | find =>
    obtain ⟨order, horder, h⟩ := ok_of_bind h
    exact ⟨condition, order, hcondition, horder, (Except.ok.inj h).symm⟩
  | count => exact ⟨condition, [], hcondition, rfl, (Except.ok.inj h).symm⟩

/-- The tokens of a statement: its beginning, then what spells condition and order. -/
theorem tokens_ofQuery {shape : Statement.Shape} {q : Query} {s : Statement}
    (h : Statement.ofQuery shape q = .ok s) :
    ∃ ts us, tokens s.text.toList = .ok (projectionTokens shape ++ (ts ++ us))
      ∧ SpellsWhere ts (q.select shape).condition ∧ SpellsEnd us (q.select shape).order := by
  obtain ⟨condition, order, hcondition, horder, rfl⟩ := ofQuery_parts h
  obtain ⟨ts, hlex, hsep, hwhere⟩ := whereChars_written hcondition
  obtain ⟨us, hlex', hsep', hend⟩ : ∃ us, Lexes order us ∧ Separates order
      ∧ SpellsEnd us (q.select shape).order := by
    cases shape with
    | find => exact orderChars_written horder
    | count =>
      cases horder
      exact ⟨[], lexes_nil, fun _ hr => hr, .none⟩
  have hall : Lexes (Statement.projection shape ++ (condition ++ order))
      (projectionTokens shape ++ (ts ++ us)) := by
    refine (lexes_projection shape).append ?_ (hlex.append hsep' hlex')
    intro rest hr
    rw [List.append_assoc]
    exact hsep _ (hsep' rest hr)
  have htokens := hall [] [] ends_nil tokens_nil
  rw [List.append_nil, List.append_nil] at htokens
  refine ⟨ts, us, ?_, hwhere, hend⟩
  rw [String.toList_ofList, List.append_assoc, htokens]

/-- The text of a statement is read as the query that it was written from. -/
theorem ofText_written {shape : Statement.Shape} {q : Query} {s : Statement}
    (h : Statement.ofQuery shape q = .ok s) : Select.ofText s.text = .ok (q.select shape) := by
  obtain ⟨ts, us, htokens, hwhere, hend⟩ := tokens_ofQuery h
  rw [Select.ofText, htokens]
  exact ofTokens_parts shape (readWhere_spelled hwhere hend) (readOrder_end hend)

/-! ## Parameters -/

/-- Two parameters never share a name. -/
theorem parameterName_injective : Function.Injective Statement.parameterName := by
  intro m n h
  have hchars : Statement.parameterChars m = Statement.parameterChars n := congrArg String.toList h
  rw [parameterChars_eq, parameterChars_eq] at hchars
  have hdigits : Text.natChars m = Text.natChars n := (List.cons.inj (List.cons.inj hchars).2).2
  exact Text.ofNat_injective (congrArg String.ofList hdigits)

/-- A parameter has the value of the operand that was given its number. -/
theorem get?_numbered (vs : List Value) (next k : Nat) :
    Fields.get? (Statement.numbered next vs) (Statement.parameterName (next + k)) = vs[k]? := by
  induction vs generalizing next k with
  | nil => rfl
  | cons v vs ih =>
    rw [Statement.numbered, Fields.get?]
    cases k with
    | zero => rw [if_pos (by rw [Nat.add_zero]), List.getElem?_cons_zero]
    | succ k =>
      have hne : Statement.parameterName next ≠ Statement.parameterName (next + (k + 1)) := by
        intro h
        have := parameterName_injective h
        omega
      have hnext : next + (k + 1) = next + 1 + k := by omega
      rw [if_neg hne, hnext, ih, List.getElem?_cons_succ]

/-- A parameter that is looked up by its name has the operand of its number. -/
theorem parameter?_written {shape : Statement.Shape} {q : Query} {s : Statement}
    (h : Statement.ofQuery shape q = .ok s) (k : Nat) :
    s.parameter? (Statement.parameterName k) = q.criteria.allOperands[k]? := by
  obtain ⟨_, _, _, _, rfl⟩ := ofQuery_parts h
  have hget := get?_numbered q.criteria.allOperands 0 k
  rwa [Nat.zero_add] at hget

/-- **What is written is what is read.**  Whatever the criteria, the names of fields and the sort
of a query are, the text of its statement is read as the query that it means, and the parameter
with the number `k` has the value of its operand `k`. -/
theorem ofText_ofQuery {shape : Statement.Shape} {q : Query} {s : Statement}
    (h : Statement.ofQuery shape q = .ok s) :
    Select.ofText s.text = .ok (q.select shape)
      ∧ ∀ k, s.parameter? (Statement.parameterName k) = q.criteria.allOperands[k]? :=
  ⟨ofText_written h, parameter?_written h⟩

/-- Quotes, brackets, keywords and a parameter as fields, in nested groups. -/
def oddQuery : Query where
  criteria := .and [.or [.compare .ge "sel\"ect.order" (.int32 1), .not (.isNull "[\\]")],
    .oneOf "@p1 $" [.text "a", .null], .isNotNull "r.null"]
  sort := [⟨"by.x", .descending⟩]

/-- None of the odd names is taken for anything but a field, and the third parameter has the third
operand. -/
theorem ofText_ofQuery_oddQuery : ∃ s, Statement.ofQuery .find oddQuery = .ok s
    ∧ Select.ofText s.text = .ok
      ⟨.all, some (.and (.and
        (.or (.compare (.path ["sel\"ect", "order"]) .ge (.parameter "@p0"))
          (.not (.call .isNull [.path ["[\\]"]])))
        (.oneOf (.path ["@p1 $"]) [.parameter "@p1", .parameter "@p2"]))
        (.not (.call .isNull [.path ["r", "null"]]))), [(["by", "x"], .descending)]⟩
    ∧ s.parameter? (Statement.parameterName 2) = some .null := by
  obtain ⟨s, hs⟩ : ∃ s, Statement.ofQuery .find oddQuery = .ok s := ⟨_, rfl⟩
  obtain ⟨hread, hparameters⟩ := ofText_ofQuery hs
  exact ⟨s, hs, hread, hparameters 2⟩

end DocQuery.Dialect
