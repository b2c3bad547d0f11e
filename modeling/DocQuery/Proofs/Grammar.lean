/-
  The grammar of the dialect, and the readers that follow it.

  The readers of conditions call each other and carry fuel; what they accept is hard to see in
  them.  Here the same language is given by rules: `Spells` says which tokens spell which
  condition, at one of four levels that bind more and more loosely.  One theorem ties the two
  together, and a law about written text then only has to derive its tokens by the rules.

  Fuel is the only thing in the readers that the rules do not have.  It is spent once at every
  call, on the way down as well as along a tail, and a derivation says how many tokens it has; so
  the claim that is proved by induction gives the reader any fuel from four units a token on.
  Where `AND` and `OR` gather to the left, the reader is in the middle of a loop with the left
  side in hand, and the claim has to be about that point too.

  1. paths, operands and lists of operands;
  2. `Spells`: atoms, conditions under `NOT`, conjunctions, disjunctions;
  3. `reads_spelled`: the reader of each level gives back what its tokens spell, and leaves the
     tokens behind it.  Four units of fuel for a token suffice;
  4. `SpellsOrder`: paths with directions, and `readOrderEntries`.
-/
import DocQuery.Proofs.Lexemes

namespace DocQuery.Dialect

open Statement (rootAlias)
open Text (sameWord)

variable {ts us rest : List Token}

/-! ## Words in any case -/

/-- A word that reads as `a` does not read as another word. -/
theorem sameWord_of_other {w a b : String} (h : sameWord w a = true) (hab : sameWord a b = false) :
    sameWord w b = false := by
  have hw : Text.lower w = Text.lower a := by simpa [sameWord] using h
  rw [sameWord, hw]
  exact hab

/-- `word?` reads its word in any letter case. -/
theorem word?_hit {w a : String} (h : sameWord w a = true) : word? a (.word w :: ts) = some ts := by
  show (if sameWord w a = true then some ts else none) = some ts
  rw [if_pos h]

/-- `word?` reads no other word. -/
theorem word?_miss {w a : String} (h : sameWord w a = false) : word? a (.word w :: ts) = none := by
  show (if sameWord w a = true then some ts else none) = none
  rw [h]
  rfl

theorem expectWord_hit {w a : String} (h : sameWord w a = true) :
    expectWord a (.word w :: ts) = .ok ts := by
  rw [expectWord, word?_hit h]

/-! ## Paths and operands -/

/-- The path in front of these tokens does not go on with them. -/
def PathEnds : List Token → Prop
  | .symbol .dot :: _ => False
  | .symbol .leftBracket :: _ => False
  | _ => True

/-- Which tokens spell the segments of a path: plain ones behind a dot, any in brackets. -/
inductive SpellsPath : List Token → List String → Prop
  | nil : SpellsPath [] []
  | plain {ts path} (w : String) : SpellsPath ts path →
      SpellsPath (.symbol .dot :: .word w :: ts) (w :: path)
  | bracketed {ts path} (s : String) : SpellsPath ts path →
      SpellsPath (.symbol .leftBracket :: .text s :: .symbol .rightBracket :: ts) (s :: path)

/-- Which tokens spell an operand. -/
inductive SpellsOperand : List Token → Operand → Prop
  | path {ts path} : SpellsPath ts path → path ≠ [] →
      SpellsOperand (.word rootAlias :: ts) (.path path)
  | parameter (name : String) : SpellsOperand [.parameter name] (.parameter name)
  | text (s : String) : SpellsOperand [.text s] (.literal (.text s))
  | integer (n : Int64) : SpellsOperand [.integer n] (.literal (.int64 n))
  | true {w} : sameWord w "true" = true → SpellsOperand [.word w] (.literal (.bool true))
  | false {w} : sameWord w "false" = true → SpellsOperand [.word w] (.literal (.bool false))
  | null {w} : sameWord w "null" = true → SpellsOperand [.word w] (.literal .null)

/-- Every operand takes a token. -/
theorem spellsOperand_length_pos {o : Operand} (h : SpellsOperand ts o) : 1 ≤ ts.length := by
  cases h <;> simp

/-- The names behind a path are read up to what does not go on with it. -/
theorem readPathTail_spelled {path : List String} (h : SpellsPath ts path) (hr : PathEnds rest) :
    readPathTail (ts ++ rest) = .ok (path, rest) := by
  induction h with
  | nil =>
    rw [List.nil_append, readPathTail.eq_def]
    split
    · exact hr.elim
    · exact hr.elim
    · exact hr.elim
    · exact hr.elim
    · exact hr.elim
    · rfl
  | plain w _ ih =>
    simp only [List.cons_append, readPathTail, ih]
    rfl
  | bracketed s _ ih =>
    simp only [List.cons_append, readPathTail, ih]
    rfl

/-- What spells an operand is read as it, and what stands behind it is left. -/
theorem readOperand_spelled {o : Operand} (h : SpellsOperand ts o) (hr : PathEnds rest) :
    readOperand rootAlias (ts ++ rest) = .ok (o, rest) := by
  cases h with
  | @path segs path hp hne =>
    rw [List.cons_append, readOperand, if_neg (by decide), if_neg (by decide),
      if_neg (by decide), if_pos rfl, readPath, readPathTail_spelled hp hr]
    have hempty : path.isEmpty = false := by simpa using hne
    show (if path.isEmpty = true then _ else _) = _
    rw [hempty]
    rfl
  | parameter name => rfl
  | text s => rfl
  | integer n => rfl
  | true hw =>
    rw [List.cons_append, readOperand, if_pos hw]
    rfl
  | false hw =>
    -- a word is tried against the names of literals in turn, and is one of them at most
    have h1 := sameWord_of_other (b := "true") hw (by decide)
    rw [List.cons_append, readOperand, if_neg (by simp [h1]), if_pos hw]
    rfl
  | null hw =>
    have h1 := sameWord_of_other (b := "true") hw (by decide)
    have h2 := sameWord_of_other (b := "false") hw (by decide)
    rw [List.cons_append, readOperand, if_neg (by simp [h1]), if_neg (by simp [h2]), if_pos hw]
    rfl

/-- An operand begins neither with a parenthesis nor with `NOT`, and is no call. -/
theorem operand_front {o : Operand} (h : SpellsOperand ts o) (rest : List Token) :
    symbol? .leftParen (ts ++ rest) = none ∧ symbol? .rightParen (ts ++ rest) = none
      ∧ word? "NOT" (ts ++ rest) = none ∧ function? (ts ++ rest) = none := by
  -- the words that are operands begin nothing else
  have hword : ∀ {w a : String}, sameWord w a = true →
      sameWord a "NOT" = false → sameWord a Function.startsWith.word = false →
      sameWord a Function.contains.word = false → sameWord a Function.isNull.word = false →
      word? "NOT" (.word w :: rest) = none ∧ function? (.word w :: rest) = none := by
    intro w a hw h1 h2 h3 h4
    refine ⟨word?_miss (sameWord_of_other hw h1), ?_⟩
    rw [function?.eq_def]
    split
    · rename_i heq
      have hwords := Token.word.inj (List.cons.inj heq).1
      rw [← hwords, sameWord_of_other hw h2, sameWord_of_other hw h3, sameWord_of_other hw h4]
      rfl
    · rfl
  cases h with
  | path hp hne =>
    refine ⟨rfl, rfl, word?_miss (by decide), ?_⟩
    cases hp with
    | nil => exact absurd rfl hne
    | plain w hp => rfl
    | bracketed s hp => rfl
  | parameter name => exact ⟨rfl, rfl, rfl, rfl⟩
  | text s => exact ⟨rfl, rfl, rfl, rfl⟩
  | integer n => exact ⟨rfl, rfl, rfl, rfl⟩
  | true hw => exact ⟨rfl, rfl, hword hw (by decide) (by decide) (by decide) (by decide)⟩
  | false hw => exact ⟨rfl, rfl, hword hw (by decide) (by decide) (by decide) (by decide)⟩
  | null hw => exact ⟨rfl, rfl, hword hw (by decide) (by decide) (by decide) (by decide)⟩

/-! ## Lists of operands -/

/-- Which tokens spell operands between commas. -/
inductive SpellsList : List Token → List Operand → Prop
  | nil : SpellsList [] []
  | one {ts o} : SpellsOperand ts o → SpellsList ts [o]
  | cons {ts us o p os} : SpellsOperand ts o → SpellsList us (p :: os) →
      SpellsList (ts ++ .symbol .comma :: us) (o :: p :: os)

/-- Operands between commas are read up to the parenthesis.  One unit of fuel for an operand
suffices. -/
theorem readOperands_spelled {os : List Operand} (h : SpellsList ts os) (hne : os ≠ []) :
    ∀ fuel, os.length ≤ fuel →
      readOperands rootAlias fuel (ts ++ .symbol .rightParen :: rest) = .ok (os, rest) := by
  induction h with
  | nil => exact absurd rfl hne
  | one ho =>
    intro fuel hf
    obtain ⟨fuel, rfl⟩ := Nat.exists_eq_add_one.mpr (show 0 < fuel by simp at hf; omega)
    rw [readOperands, readOperand_spelled ho (by trivial)]
    rfl
  | @cons ts us o p os ho _ ih =>
    intro fuel hf
    obtain ⟨fuel, rfl⟩ := Nat.exists_eq_add_one.mpr (show 0 < fuel by simp at hf; omega)
    have hrest := ih (by simp) fuel (by simp at hf ⊢; omega)
    rw [readOperands, List.append_assoc, readOperand_spelled ho (by trivial)]
    show (readOperands rootAlias fuel (us ++ .symbol .rightParen :: rest) >>= _) = _
    rw [hrest]
    rfl

/-- A list has no more operands than tokens, so a fuel of as many units as there are tokens suffices
to read it. -/
theorem length_le_of_spellsList {os : List Operand} (h : SpellsList ts os) :
    os.length ≤ ts.length := by
  induction h with
  | nil => simp
  | one ho => exact spellsOperand_length_pos ho
  | cons ho _ ih =>
    have := spellsOperand_length_pos ho
    simp only [List.length_cons, List.length_append] at ih ⊢
    omega

/-- so the fuel that the reader takes from the tokens suffices. -/
theorem readOperandList_spelled {os : List Operand} (h : SpellsList ts os) :
    readOperandList rootAlias (ts ++ .symbol .rightParen :: rest) = .ok (os, rest) := by
  have hfuel : os.length ≤ (ts ++ .symbol .rightParen :: rest).length + 1 := by
    have := length_le_of_spellsList h
    simp only [List.length_append]
    omega
  rw [readOperandList]
  cases h with
  | nil => rfl
  | one ho =>
    rw [(operand_front ho _).2.1]
    exact readOperands_spelled (.one ho) (by simp) _ hfuel
  | @cons ts us o p os ho hos =>
    have hfront := (operand_front ho (.symbol .comma :: us ++ .symbol .rightParen :: rest)).2.1
    rw [← List.append_assoc] at hfront
    rw [hfront]
    exact readOperands_spelled (.cons ho hos) (by simp) _ hfuel

/-! ## Conditions -/

/-- These tokens may stand behind a condition: nothing, a closing parenthesis, or a word that
does not go on with the last operand. -/
def Follows : List Token → Prop
  | [] => True
  | .symbol .rightParen :: _ => True
  | .word w :: _ => sameWord w "IN" = false
  | _ => False

/-- What follows a condition does not go on with a path. -/
theorem Follows.pathEnds (h : Follows rest) : PathEnds rest := by
  unfold Follows at h
  split at h
  · trivial
  · trivial
  · trivial
  · exact h.elim

/-- Behind a condition stands no comparison and no test of membership. -/
theorem Follows.stops (h : Follows rest) : word? "IN" rest = none ∧ comparison? rest = none := by
  unfold Follows at h
  split at h
  · exact ⟨rfl, rfl⟩
  · exact ⟨rfl, rfl⟩
  · exact ⟨word?_miss h, rfl⟩
  · exact h.elim

/-- How closely the parts of a condition are bound. -/
inductive Level where
  | atom | negation | conjunction | disjunction

/-- Which tokens spell a condition at a level. -/
inductive Spells : Level → List Token → Condition → Prop
  | operand {ts o} : SpellsOperand ts o → Spells .atom ts (.operand o)
  | compare {ts us a b} (op : Comparison) : SpellsOperand ts a → SpellsOperand us b →
      Spells .atom (ts ++ .symbol (symbolOf op) :: us) (.compare a op b)
  | oneOf {ts us a os w} : sameWord w "IN" = true → SpellsOperand ts a → SpellsList us os →
      Spells .atom (ts ++ .word w :: .symbol .leftParen :: (us ++ [.symbol .rightParen]))
        (.oneOf a os)
  | call {ts os w} (f : Function) : sameWord w f.word = true → SpellsList ts os →
      os.length = f.arity →
      Spells .atom (.word w :: .symbol .leftParen :: (ts ++ [.symbol .rightParen])) (.call f os)
  | group {ts c} : Spells .disjunction ts c →
      Spells .atom (.symbol .leftParen :: (ts ++ [.symbol .rightParen])) c
  | atom {ts c} : Spells .atom ts c → Spells .negation ts c
  | not {ts c w} : sameWord w "NOT" = true → Spells .negation ts c →
      Spells .negation (.word w :: ts) (.not c)
  | negation {ts c} : Spells .negation ts c → Spells .conjunction ts c
  | and {ts us a b w} : sameWord w "AND" = true → Spells .conjunction ts a → Spells .negation us b →
      Spells .conjunction (ts ++ .word w :: us) (.and a b)
  | conjunction {ts c} : Spells .conjunction ts c → Spells .disjunction ts c
  | or {ts us a b w} : sameWord w "OR" = true → Spells .disjunction ts a →
      Spells .conjunction us b → Spells .disjunction (ts ++ .word w :: us) (.or a b)

/-- A test reads as a bare operand where no operator follows it. -/
theorem readTest_operand {o : Operand} (h : SpellsOperand ts o) (hr : Follows rest) :
    readTest rootAlias (ts ++ rest) = .ok (.operand o, rest) := by
  rw [readTest, readOperand_spelled h hr.pathEnds]
  simp only [bind, Except.bind, hr.stops.1, hr.stops.2]

/-- A test reads as a comparison where an operator follows the first operand. -/
theorem readTest_compare {a b : Operand} (op : Comparison) (ha : SpellsOperand ts a)
    (hb : SpellsOperand us b) (hr : Follows rest) :
    readTest rootAlias (ts ++ .symbol (symbolOf op) :: (us ++ rest))
      = .ok (.compare a op b, rest) := by
  have hpath : PathEnds (.symbol (symbolOf op) :: (us ++ rest)) := by cases op <;> trivial
  have hop : comparison? (.symbol (symbolOf op) :: (us ++ rest)) = some (op, us ++ rest) := by
    cases op <;> rfl
  have hword : word? "IN" (.symbol (symbolOf op) :: (us ++ rest)) = none := rfl
  rw [readTest, readOperand_spelled ha hpath]
  simp only [bind, Except.bind, hword, hop, readOperand_spelled hb hr.pathEnds]

/-- A test reads as a membership where `IN` and a parenthesis follow the first operand. -/
theorem readTest_oneOf {a : Operand} {os : List Operand} {w : String} (hw : sameWord w "IN" = true)
    (ha : SpellsOperand ts a) (hos : SpellsList us os) :
    readTest rootAlias (ts ++ .word w :: .symbol .leftParen :: (us ++ .symbol .rightParen :: rest))
      = .ok (.oneOf a os, rest) := by
  have hparen : expectSymbol .leftParen
      (.symbol .leftParen :: (us ++ .symbol .rightParen :: rest))
        = .ok (us ++ .symbol .rightParen :: rest) := rfl
  rw [readTest, readOperand_spelled ha (by trivial)]
  simp only [bind, Except.bind, word?_hit hw, hparen, readOperandList_spelled hos]

/-- The name of a function is read as it if a parenthesis follows. -/
theorem function?_word {w : String} {f : Function} (hw : sameWord w f.word = true) :
    function? (.word w :: .symbol .leftParen :: ts) = some (f, ts) := by
  cases f with
  | startsWith => rw [function?, if_pos hw]
  | contains =>
    have h1 := sameWord_of_other (b := Function.startsWith.word) hw (by decide)
    rw [function?, if_neg (by simp [h1]), if_pos hw]
  | isNull =>
    have h1 := sameWord_of_other (b := Function.startsWith.word) hw (by decide)
    have h2 := sameWord_of_other (b := Function.contains.word) hw (by decide)
    rw [function?, if_neg (by simp [h1]), if_neg (by simp [h2]), if_pos hw]

/-- A function takes as many arguments as it has places. -/
theorem readCall_spelled {f : Function} {os : List Operand} (hos : SpellsList ts os)
    (hf : os.length = f.arity) :
    readCall rootAlias f (ts ++ .symbol .rightParen :: rest) = .ok (.call f os, rest) := by
  rw [readCall, readOperandList_spelled hos]
  exact if_pos hf

/-! ## The readers of the levels -/

/-- What the reader of a level makes of tokens that spell a condition.  The two loose levels are
read by a first part and a tail that gathers to the left; there the reader arrives at the tail
with the whole condition gathered, and with fuel left. -/
def Reads : Level → List Token → Condition → Prop
  | .atom, ts, c => ∀ fuel rest, 4 * ts.length ≤ fuel + 1 → Follows rest →
      readAtom rootAlias fuel (ts ++ rest) = .ok (c, rest) ∧ word? "NOT" (ts ++ rest) = none
  | .negation, ts, c => ∀ fuel rest, 4 * ts.length ≤ fuel → Follows rest →
      readNot rootAlias fuel (ts ++ rest) = .ok (c, rest)
  | .conjunction, ts, c => ∀ fuel rest, 4 * ts.length < fuel → Follows rest →
      ∃ left, fuel ≤ left + ts.length
        ∧ readAnd rootAlias fuel (ts ++ rest) = readAndTail rootAlias left c rest
  | .disjunction, ts, c => ∀ fuel rest, 4 * ts.length + 1 < fuel → Follows rest →
      word? "AND" rest = none → ∃ left, fuel ≤ left + ts.length
        ∧ readOr rootAlias fuel (ts ++ rest) = readOrTail rootAlias left c rest

/-- Every condition takes a token. -/
theorem spells_length_pos {l : Level} {c : Condition} (h : Spells l ts c) : 1 ≤ ts.length := by
  induction h with
  | operand ho => exact spellsOperand_length_pos ho
  | atom _ ih => exact ih
  | negation _ ih => exact ih
  | conjunction _ ih => exact ih
  | _ => simp only [List.length_append, List.length_cons]; omega

/-- A tail at which no further `AND` follows gives back what it gathered. -/
theorem readAndTail_stop {fuel : Nat} {c : Condition} (hf : 1 ≤ fuel)
    (h : word? "AND" rest = none) : readAndTail rootAlias fuel c rest = .ok (c, rest) := by
  obtain ⟨fuel, rfl⟩ := Nat.exists_eq_add_one.mpr (show 0 < fuel by omega)
  rw [readAndTail, h]

theorem readOrTail_stop {fuel : Nat} {c : Condition} (hf : 1 ≤ fuel)
    (h : word? "OR" rest = none) : readOrTail rootAlias fuel c rest = .ok (c, rest) := by
  obtain ⟨fuel, rfl⟩ := Nat.exists_eq_add_one.mpr (show 0 < fuel by omega)
  rw [readOrTail, h]

/-- What begins with an operand is read as a test. -/
theorem readAtom_operand {o : Operand} {fuel : Nat} {c : Condition} (ho : SpellsOperand ts o)
    (h : readTest rootAlias (ts ++ us) = .ok (c, rest)) :
    readAtom rootAlias (fuel + 1) (ts ++ us) = .ok (c, rest)
      ∧ word? "NOT" (ts ++ us) = none := by
  obtain ⟨hleft, -, hnot, hcall⟩ := operand_front ho us
  refine ⟨?_, hnot⟩
  rw [readAtom, hleft, hcall]
  exact h

/-- Parentheses around a disjunction make an atom of it. -/
theorem reads_group {c : Condition} (ih : Reads .disjunction ts c) :
    Reads .atom (.symbol .leftParen :: (ts ++ [.symbol .rightParen])) c := by
  intro fuel rest hf _
  simp only [List.length_cons, List.length_append, List.length_nil] at hf
  obtain ⟨fuel, rfl⟩ := Nat.exists_eq_add_one.mpr (show 0 < fuel by omega)
  -- inside, the condition ends at the closing parenthesis
  obtain ⟨left, hleft, hread⟩ := ih fuel (.symbol .rightParen :: rest) (by omega) trivial rfl
  refine ⟨?_, rfl⟩
  have hstop : readOrTail rootAlias left c (.symbol .rightParen :: rest)
      = .ok (c, .symbol .rightParen :: rest) := readOrTail_stop (by omega) rfl
  rw [hstop] at hread
  rw [List.cons_append, List.append_assoc, readAtom]
  show (readOr rootAlias fuel (ts ++ .symbol .rightParen :: rest) >>= _) = _
  rw [hread]
  rfl

/-- An atom is what `NOT` may stand before; that it is no `NOT` itself its first token tells. -/
theorem reads_negation {c : Condition} (hpos : 1 ≤ ts.length) (ih : Reads .atom ts c) :
    Reads .negation ts c := by
  intro fuel rest hf hr
  obtain ⟨fuel, rfl⟩ := Nat.exists_eq_add_one.mpr (show 0 < fuel by omega)
  obtain ⟨hread, hnot⟩ := ih fuel rest hf hr
  rw [readNot, hnot]
  exact hread

/-- `NOT` may stand before itself. -/
theorem reads_not {c : Condition} {w : String} (hw : sameWord w "NOT" = true)
    (ih : Reads .negation ts c) : Reads .negation (.word w :: ts) (.not c) := by
  intro fuel rest hf hr
  rw [List.length_cons] at hf
  obtain ⟨fuel, rfl⟩ := Nat.exists_eq_add_one.mpr (show 0 < fuel by omega)
  rw [List.cons_append, readNot, word?_hit hw]
  show (readNot rootAlias fuel (ts ++ rest) >>= _) = _
  rw [ih fuel rest (by omega) hr]
  rfl

/-- A negation is a conjunction of one: no `AND` follows, so the tail of the loop stops at once. -/
theorem reads_conjunction {c : Condition} (hpos : 1 ≤ ts.length) (ih : Reads .negation ts c) :
    Reads .conjunction ts c := by
  intro fuel rest hf hr
  obtain ⟨fuel, rfl⟩ := Nat.exists_eq_add_one.mpr (show 0 < fuel by omega)
  refine ⟨fuel, by omega, ?_⟩
  rw [readAnd, ih fuel rest (by omega) hr]
  rfl

/-- `AND` with a conjunction in front of it.  The reader gathers from the left, as the rule of the
grammar does. -/
theorem reads_and {a b : Condition} {w : String} (hw : sameWord w "AND" = true)
    (iha : Reads .conjunction ts a) (ihb : Reads .negation us b) :
    Reads .conjunction (ts ++ .word w :: us) (.and a b) := by
  intro fuel rest hf hr
  simp only [List.length_append, List.length_cons] at hf
  have hfollows : Follows (.word w :: (us ++ rest)) := sameWord_of_other hw (by decide)
  -- the left side leaves its reader at the tail, in front of the word
  obtain ⟨left, hleft, hread⟩ := iha fuel (.word w :: (us ++ rest)) (by omega) hfollows
  obtain ⟨left, rfl⟩ := Nat.exists_eq_add_one.mpr (show 0 < left by omega)
  refine ⟨left, by simp only [List.length_append, List.length_cons]; omega, ?_⟩
  rw [List.append_assoc, List.cons_append, hread, readAndTail, word?_hit hw]
  -- the tail takes in the right side, and goes on from there
  show (readNot rootAlias left (us ++ rest) >>= _) = _
  rw [ihb left rest (by omega) hr]
  rfl

/-- A conjunction is a disjunction of one. -/
theorem reads_disjunction {c : Condition} (hpos : 1 ≤ ts.length) (ih : Reads .conjunction ts c) :
    Reads .disjunction ts c := by
  intro fuel rest hf hr hand
  obtain ⟨fuel, rfl⟩ := Nat.exists_eq_add_one.mpr (show 0 < fuel by omega)
  obtain ⟨left, hleft, hread⟩ := ih fuel rest (by omega) hr
  refine ⟨fuel, by omega, ?_⟩
  -- no further `AND` follows, so the inner tail stops
  rw [readOr, hread, readAndTail_stop (by omega) hand]
  rfl

/-- `OR` with a disjunction in front of it, gathered from the left as well. -/
theorem reads_or {a b : Condition} {w : String} (hw : sameWord w "OR" = true)
    (iha : Reads .disjunction ts a) (ihb : Reads .conjunction us b) :
    Reads .disjunction (ts ++ .word w :: us) (.or a b) := by
  intro fuel rest hf hr hand
  simp only [List.length_append, List.length_cons] at hf
  have hfollows : Follows (.word w :: (us ++ rest)) := sameWord_of_other hw (by decide)
  -- in front of `OR` the tail of conjunctions has nothing to take in
  have hno : word? "AND" (.word w :: (us ++ rest)) = none :=
    word?_miss (sameWord_of_other hw (by decide))
  obtain ⟨left, hleft, hread⟩ := iha fuel (.word w :: (us ++ rest)) (by omega) hfollows hno
  obtain ⟨left, rfl⟩ := Nat.exists_eq_add_one.mpr (show 0 < left by omega)
  obtain ⟨left', hleft', hread'⟩ := ihb left rest (by omega) hr
  refine ⟨left, by simp only [List.length_append, List.length_cons]; omega, ?_⟩
  rw [List.append_assoc, List.cons_append, hread, readOrTail, word?_hit hw]
  show (readAnd rootAlias left (us ++ rest) >>= _) = _
  -- nor has it behind the right side, which is closed there
  rw [hread', readAndTail_stop (by omega) hand]
  rfl

/-- **The readers follow the grammar.**  Induction on the derivation, one case for each rule. -/
theorem reads_spelled {l : Level} {c : Condition} (h : Spells l ts c) : Reads l ts c := by
  induction h with
  | operand ho =>
    intro fuel rest hf hr
    have hpos := spells_length_pos (.operand ho)
    obtain ⟨fuel, rfl⟩ := Nat.exists_eq_add_one.mpr (show 0 < fuel by omega)
    exact readAtom_operand ho (readTest_operand ho hr)
  | compare op ha hb =>
    intro fuel rest hf hr
    simp only [List.length_append, List.length_cons] at hf
    obtain ⟨fuel, rfl⟩ := Nat.exists_eq_add_one.mpr (show 0 < fuel by omega)
    rw [List.append_assoc]
    exact readAtom_operand ha (readTest_compare op ha hb hr)
  | oneOf hw ha hos =>
    intro fuel rest hf hr
    simp only [List.length_append, List.length_cons] at hf
    obtain ⟨fuel, rfl⟩ := Nat.exists_eq_add_one.mpr (show 0 < fuel by omega)
    rw [List.append_assoc, List.cons_append, List.cons_append, List.append_assoc]
    exact readAtom_operand ha (readTest_oneOf hw ha hos)
  | @call ts os w f hw hos harity =>
    intro fuel rest hf hr
    simp only [List.length_append, List.length_cons] at hf
    obtain ⟨fuel, rfl⟩ := Nat.exists_eq_add_one.mpr (show 0 < fuel by omega)
    have hnot : sameWord w "NOT" = false := by
      cases f <;> exact sameWord_of_other hw (by decide)
    rw [List.cons_append, List.cons_append, List.append_assoc]
    refine ⟨?_, word?_miss hnot⟩
    have hparen : symbol? .leftParen (.word w :: .symbol .leftParen ::
      (ts ++ ([.symbol .rightParen] ++ rest))) = none := rfl
    rw [readAtom, hparen, function?_word hw]
    exact readCall_spelled hos harity
  | group _ ih => exact reads_group ih
  | atom h ih => exact reads_negation (spells_length_pos h) ih
  | not hw _ ih => exact reads_not hw ih
  | negation h ih => exact reads_conjunction (spells_length_pos h) ih
  | and hw _ _ iha ihb => exact reads_and hw iha ihb
  | conjunction h ih => exact reads_disjunction (spells_length_pos h) ih
  | or hw _ _ iha ihb => exact reads_or hw iha ihb

/-- A whole condition, with tokens behind it that do not go on with it. -/
theorem readCondition_spelled {c : Condition} (h : Spells .disjunction ts c) (hr : Follows rest)
    (hand : word? "AND" rest = none) (hor : word? "OR" rest = none) :
    readCondition rootAlias (ts ++ rest) = .ok (c, rest) := by
  have hfuel : 4 * ts.length + 1 < conditionFuel (ts ++ rest) := by
    simp only [conditionFuel, List.length_append]
    omega
  obtain ⟨left, hleft, hread⟩ := reads_spelled h _ rest hfuel hr hand
  rw [readCondition, hread]
  exact readOrTail_stop (by omega) hor

/-! ## Orders -/

/-- Which tokens spell an entry of an order. -/
inductive SpellsEntry : List Token → List String × Direction → Prop
  | bare {ts path} : SpellsOperand ts (.path path) → SpellsEntry ts (path, .ascending)
  | ascending {ts path w} : sameWord w "ASC" = true → SpellsOperand ts (.path path) →
      SpellsEntry (ts ++ [.word w]) (path, .ascending)
  | descending {ts path w} : sameWord w "DESC" = true → SpellsOperand ts (.path path) →
      SpellsEntry (ts ++ [.word w]) (path, .descending)

/-- Which tokens spell an order. -/
inductive SpellsOrder : List Token → List (List String × Direction) → Prop
  | one {ts e} : SpellsEntry ts e → SpellsOrder ts [e]
  | cons {ts us e es} : SpellsEntry ts e → SpellsOrder us es →
      SpellsOrder (ts ++ .symbol .comma :: us) (e :: es)

/-- These tokens may stand behind an entry of an order. -/
def EntryEnds (rest : List Token) : Prop :=
  PathEnds rest ∧ word? "DESC" rest = none ∧ word? "ASC" rest = none

/-- An entry is a path, and then its direction. -/
theorem readEntry_spelled {e : List String × Direction} (h : SpellsEntry ts e)
    (hr : EntryEnds rest) : ∃ us, readOperand rootAlias (ts ++ rest) = .ok (.path e.1, us)
      ∧ readDirection us = (e.2, rest) := by
  obtain ⟨hpath, hdesc, hasc⟩ := hr
  cases h with
  | bare ho =>
    refine ⟨rest, readOperand_spelled ho hpath, ?_⟩
    rw [readDirection, hdesc, hasc]
  | @ascending ts path w hw ho =>
    refine ⟨.word w :: rest, ?_, ?_⟩
    · rw [List.append_assoc]
      exact readOperand_spelled ho trivial
    · rw [readDirection, word?_miss (sameWord_of_other hw (by decide)), word?_hit hw]
  | @descending ts path w hw ho =>
    refine ⟨.word w :: rest, ?_, ?_⟩
    · rw [List.append_assoc]
      exact readOperand_spelled ho trivial
    · rw [readDirection, word?_hit hw]

/-- Entries between commas are read up to what is no comma.  One unit of fuel for an entry suffices.
-/
theorem readOrderEntries_spelled {es : List (List String × Direction)} (h : SpellsOrder ts es)
    (hr : EntryEnds rest) (hcomma : symbol? .comma rest = none) :
    ∀ fuel, es.length ≤ fuel →
      readOrderEntries rootAlias fuel (ts ++ rest) = .ok (es, rest) := by
  induction h with
  | @one ts e he =>
    intro fuel hf
    obtain ⟨fuel, rfl⟩ := Nat.exists_eq_add_one.mpr (show 0 < fuel by simp at hf; omega)
    obtain ⟨us, hread, hdir⟩ := readEntry_spelled he hr
    rw [readOrderEntries, hread]
    simp only [bind, Except.bind, hdir, hcomma]
  | @cons ts us e es he _ ih =>
    intro fuel hf
    rw [List.length_cons] at hf
    obtain ⟨fuel, rfl⟩ := Nat.exists_eq_add_one.mpr (show 0 < fuel by omega)
    have hends : EntryEnds (.symbol .comma :: (us ++ rest)) := ⟨trivial, rfl, rfl⟩
    -- a comma ends the entry, and the rest has one fewer
    obtain ⟨vs, hread, hdir⟩ := readEntry_spelled he hends
    have hmore : symbol? .comma (.symbol .comma :: (us ++ rest)) = some (us ++ rest) := rfl
    rw [List.append_assoc, List.cons_append, readOrderEntries, hread]
    simp only [bind, Except.bind, hdir, hmore, ih fuel (by omega)]

/-- There are no more entries than tokens. -/
theorem length_le_of_spellsOrder {es : List (List String × Direction)} (h : SpellsOrder ts es) :
    es.length ≤ ts.length := by
  have hentry : ∀ {ts : List Token} {e : List String × Direction}, SpellsEntry ts e →
      1 ≤ ts.length := by
    intro ts e h
    cases h with
    | bare ho => exact spellsOperand_length_pos ho
    | _ => simp
  induction h with
  | one he => exact hentry he
  | cons he _ ih =>
    have := hentry he
    simp only [List.length_cons, List.length_append]
    omega

/-- The order that ends a query. -/
theorem readOrder_spelled {es : List (List String × Direction)} {v w : String}
    (hv : sameWord v "ORDER" = true) (hw : sameWord w "BY" = true) (h : SpellsOrder ts es) :
    readOrder rootAlias (.word v :: .word w :: ts) = .ok (es, []) := by
  have hfuel : es.length ≤ ts.length + 1 := by
    have := length_le_of_spellsOrder h
    omega
  have hends : EntryEnds [] := ⟨trivial, rfl, rfl⟩
  have hentries := readOrderEntries_spelled h hends rfl _ hfuel
  rw [List.append_nil] at hentries
  rw [readOrder, word?_hit hv]
  simp only [bind, Except.bind, expectWord_hit hw, hentries]

end DocQuery.Dialect
