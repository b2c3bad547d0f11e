/-
  Written pieces of a statement are read as the tokens they stand for.

  A text is cut into tokens from the front, and a token is as long as it can be.  So a law about
  one piece must say what may follow it.  Here every law has the form

    if `rest` is read as `ts`, then `piece ++ rest` is read as `t :: ts`,

  where a piece that ends in a word asks in addition that `rest` does not go on with the word
  (`Ends`).

  1. `tokens_cons`: one token, then the others;
  2. the pieces: blanks, symbols, operators, words, parameters, quoted texts;
  3. `tokens_fieldChars`: references to fields, plain or in brackets.
-/
import DocQuery.Dialect.Parser
import DocQuery.Proofs.Numerals
import DocQuery.Statement

namespace DocQuery.Text

/-- Characters are ordered as their numbers are. -/
theorem toNat_le_of_le {c d : Char} (h : c ≤ d) : c.toNat ≤ d.toNat := by
  rw [Char.le_def, UInt32.le_iff_toNat_le] at h
  exact h

/-- No white space stands in a word: all that words are made of lies in two stretches of ASCII. -/
theorem isWhite_of_isWordChar {c : Char} (h : isWordChar c = true) : isWhite c = false := by
  have hrange : (48 ≤ c.toNat ∧ c.toNat ≤ 57) ∨ (65 ≤ c.toNat ∧ c.toNat ≤ 122) := by
    simp only [isWordChar, isLetter, isDigit, Bool.or_eq_true, Bool.and_eq_true,
      decide_eq_true_eq, beq_iff_eq] at h
    rcases h with ((⟨hl, hu⟩ | ⟨hl, hu⟩) | ⟨hl, hu⟩) | rfl
    · have h1 := toNat_le_of_le hl
      have h2 := toNat_le_of_le hu
      exact Or.inr ⟨Nat.le_trans (by decide) h1, h2⟩
    · have h1 := toNat_le_of_le hl
      have h2 := toNat_le_of_le hu
      exact Or.inr ⟨h1, Nat.le_trans h2 (by decide)⟩
    · exact Or.inl ⟨toNat_le_of_le hl, toNat_le_of_le hu⟩
    · exact Or.inr (by decide)
  simp only [isWhite, Bool.or_eq_false_iff, Bool.and_eq_false_iff, decide_eq_false_iff_not,
    beq_eq_false_iff_ne]
  omega

end DocQuery.Text

namespace DocQuery.Dialect

open Text (isWordChar isWhite)

variable {rest : List Char} {ts : List Token}

/-! ## One token, then the others -/

/-- What follows does not go on with a word. -/
def Ends (rest : List Char) : Prop :=
  ∀ c ∈ rest.head?, isWordChar c = false

/-- At the end of a text no word goes on. -/
theorem ends_nil : Ends [] := by
  intro c hc
  cases hc

/-- A text that begins with a character of no word is the end of a word in front of it. -/
theorem ends_cons {c : Char} (h : isWordChar c = false) : Ends (c :: rest) := by
  intro d hd
  rw [List.head?_cons, Option.mem_some_iff] at hd
  rw [← hd]
  exact h

/-- A word with an end behind it is what the lexer cuts off. -/
theorem takeWhile_word {w : List Char} (hw : ∀ c ∈ w, isWordChar c = true) (hr : Ends rest) :
    (w ++ rest).takeWhile isWordChar = w := by
  rw [List.takeWhile_append_of_pos hw]
  cases rest with
  | nil => simp
  | cons c cs => simp [hr c rfl]

/-- Behind a word the lexer goes on with what follows it. -/
theorem dropWhile_word {w : List Char} (hw : ∀ c ∈ w, isWordChar c = true) (hr : Ends rest) :
    (w ++ rest).dropWhile isWordChar = rest := by
  rw [List.dropWhile_append_of_pos hw]
  cases rest with
  | nil => rfl
  | cons c cs => simp [hr c rfl]

/-- An empty text has no tokens. -/
theorem tokens_nil : tokens [] = .ok [] := by
  unfold tokens
  rfl

/-- A token that is scanned, then the tokens of what is left. -/
theorem tokens_cons {c : Char} {cs : List Char} {t : Token} (hc : isWhite c = false)
    (hs : scan c cs = .ok (t, rest)) (ht : tokens rest = .ok ts) :
    tokens (c :: cs) = .ok (t :: ts) := by
  unfold tokens
  rw [if_neg (by rw [hc]; decide)]
  split
  · rename_i e he
    rw [hs] at he
    cases he
  · rename_i t' rest' he
    rw [hs] at he
    injection he with he
    injection he with h1 h2
    rw [← h1, ← h2, ht]
    rfl

/-- A blank makes no token. -/
theorem tokens_blank (rest : List Char) : tokens (' ' :: rest) = tokens rest := by
  rw [tokens.eq_def]
  exact if_pos (by decide)

/-! ## Symbols and operators -/

/-- The symbol of a comparison. -/
def symbolOf : Comparison → Symbol
  | .eq => .eq
  | .ne => .ne
  | .gt => .gt
  | .ge => .ge
  | .lt => .lt
  | .le => .le

/-- The symbols that no longer symbol begins with. -/
theorem tokens_symbol {c : Char} {s : Symbol}
    (h : (c, s) ∈ [('(', Symbol.leftParen), (')', .rightParen), ('[', .leftBracket),
      (']', .rightBracket), (',', .comma), ('.', .dot), ('*', .star)])
    (ht : tokens rest = .ok ts) : tokens (c :: rest) = .ok (.symbol s :: ts) := by
  have hscan : isWhite c = false ∧ scan c rest = .ok (.symbol s, rest) := by
    simp only [List.mem_cons, Prod.mk.injEq, List.not_mem_nil, or_false] at h
    rcases h with ⟨rfl, rfl⟩ | ⟨rfl, rfl⟩ | ⟨rfl, rfl⟩ | ⟨rfl, rfl⟩ | ⟨rfl, rfl⟩ | ⟨rfl, rfl⟩ |
      ⟨rfl, rfl⟩ <;>
    · refine ⟨by decide, ?_⟩
      cases rest <;> rfl
  exact tokens_cons hscan.1 hscan.2 ht

/-- An operator, with the blank behind it. -/
theorem tokens_operator (op : Comparison) (ht : tokens rest = .ok ts) :
    tokens (op.operator.toList ++ ' ' :: rest) = .ok (.symbol (symbolOf op) :: ts) := by
  have hb : tokens (' ' :: rest) = .ok ts := by rw [tokens_blank, ht]
  cases op
  all_goals exact tokens_cons (by decide) (by rfl) hb

/-! ## Words, parameters and quoted texts -/

/-- A word: a letter or an underscore, then letters, digits and underscores. -/
def IsWord : List Char → Prop
  | [] => False
  | c :: cs => (Text.isLetter c || c == '_') = true ∧ ∀ d ∈ cs, isWordChar d = true

instance : DecidablePred IsWord
  | [] => .isFalse id
  | c :: cs =>
    have hiff : ((Text.isLetter c || c == '_') && cs.all isWordChar) = true ↔ IsWord (c :: cs) := by
      rw [Bool.and_eq_true, List.all_eq_true]
      exact Iff.rfl
    decidable_of_decidable_of_iff hiff

/-- A word is one token, if what follows does not go on with it.  It starts with no digit, so it is
not taken for a number. -/
theorem tokens_word {w : List Char} (hw : IsWord w) (hr : Ends rest) (ht : tokens rest = .ok ts) :
    tokens (w ++ rest) = .ok (.word (String.ofList w) :: ts) := by
  obtain ⟨c, cs, rfl⟩ : ∃ c cs, w = c :: cs := by
    cases w with
    | nil => exact hw.elim
    | cons c cs => exact ⟨c, cs, rfl⟩
  obtain ⟨hc, hcs⟩ := hw
  have hword : isWordChar c = true := by
    rw [Bool.or_eq_true] at hc
    rcases hc with h | h
    · simp [isWordChar, h]
    · simp [isWordChar, h]
  have hscan : scan c (cs ++ rest) = .ok (.word (String.ofList (c :: cs)), rest) := by
    rw [scan, if_pos hc, takeWhile_word hcs hr, dropWhile_word hcs hr]
  exact tokens_cons (Text.isWhite_of_isWordChar hword) hscan ht

/-- A parameter is written as its mark and the digits of its number. -/
theorem parameterChars_eq (n : Nat) :
    Statement.parameterChars n = '@' :: 'p' :: Text.natChars n := by
  have hnat : (Text.ofNat n).toList = Text.natChars n := String.toList_ofList
  rw [Statement.parameterChars, Statement.parameterName, String.toList_append, hnat]
  rfl

/-- A parameter is one token, if what follows does not go on with its name. -/
theorem tokens_parameter (n : Nat) (hr : Ends rest) (ht : tokens rest = .ok ts) :
    tokens (Statement.parameterChars n ++ rest)
      = .ok (.parameter (Statement.parameterName n) :: ts) := by
  have hname : ∀ c ∈ 'p' :: Text.natChars n, isWordChar c = true := by
    intro c hc
    rcases List.mem_cons.mp hc with rfl | hc
    · decide
    · exact Text.isWordChar_of_isDigit (Text.isDigit_of_mem_natChars hc)
  have hback : String.ofList ('@' :: 'p' :: Text.natChars n) = Statement.parameterName n := by
    rw [← parameterChars_eq, Statement.parameterChars, String.ofList_toList]
  have hscan : scan '@' ('p' :: Text.natChars n ++ rest)
      = .ok (.parameter (Statement.parameterName n), rest) := by
    rw [scan, if_neg (by decide), if_pos rfl, takeWhile_word hname hr, dropWhile_word hname hr]
    show Except.ok (Token.parameter (String.ofList ('@' :: 'p' :: Text.natChars n)), rest) = _
    rw [hback]
  rw [parameterChars_eq]
  exact tokens_cons (by decide) hscan ht

/-- Escaping is undone: every quote and backslash inside stands behind a backslash, so the quote
behind the text is the first one that is not escaped. -/
theorem scanText_escape (cs rest : List Char) :
    scanText '"' (cs.flatMap Statement.escape ++ '"' :: rest) = .ok (cs, rest) := by
  induction cs with
  | nil => rfl
  | cons c cs ih =>
    rw [List.flatMap_cons, List.append_assoc, Statement.escape]
    -- escaped or not, one character of the text is read back at each step
    by_cases hc : c = '"' ∨ c = '\\'
    · rw [if_pos hc]
      show (scanText '"' (cs.flatMap Statement.escape ++ '"' :: rest)).map _ = _
      rw [ih]
      rfl
    · rw [if_neg hc]
      have hq : c ≠ '"' := fun h => hc (Or.inl h)
      have hb : c ≠ '\\' := fun h => hc (Or.inr h)
      show scanText '"' (c :: (cs.flatMap Statement.escape ++ '"' :: rest)) = _
      -- neither quote nor backslash: only the last pattern of the scanner is left
      rw [scanText.eq_def]
      split
      · rename_i heq
        cases heq
      · rename_i heq
        injection heq with h1
        exact absurd h1 hb
      · rename_i heq
        injection heq with h1
        exact absurd h1 hb
      · rename_i d ds _ _ heq
        injection heq with h1 h2
        rw [← h1, ← h2, if_neg hq, ih]
        rfl

/-- Between quotes any characters make one token, once those with a meaning are escaped. -/
theorem tokens_quoted (cs : List Char) (ht : tokens rest = .ok ts) :
    tokens ('"' :: (cs.flatMap Statement.escape ++ '"' :: rest))
      = .ok (.text (String.ofList cs) :: ts) := by
  refine tokens_cons (by decide) ?_ ht
  show (scanText '"' _).map _ = _
  rw [scanText_escape]
  rfl

/-! ## References to fields -/

/-- The tokens of one segment of a path. -/
def segmentTokens (segment : List Char) : List Token :=
  if Statement.isPlain segment then [.symbol .dot, .word (String.ofList segment)]
  else [.symbol .leftBracket, .text (String.ofList segment), .symbol .rightBracket]

/-- The tokens of the reference to the field at a path. -/
def fieldTokens (path : String) : List Token :=
  .word Statement.rootAlias :: (Text.pieces (· == '.') path.toList).flatMap segmentTokens

/-- A plain segment is a word. -/
theorem isWord_of_isPlain {segment : List Char} (h : Statement.isPlain segment = true) :
    IsWord segment := by
  cases segment with
  | nil => cases h
  | cons c cs =>
    simp only [Statement.isPlain, Bool.and_eq_true, List.all_eq_true] at h
    exact ⟨h.1.1, h.1.2⟩

/-- Behind a word a reference goes on with a dot or a bracket, so the word is at its end. -/
theorem ends_segment (segment rest : List Char) :
    Ends (Statement.segmentChars segment ++ rest) := by
  rw [Statement.segmentChars]
  split
  · exact ends_cons (by decide)
  · exact ends_cons (by decide)

/-- A segment behind a dot, or in brackets and quotes. -/
theorem tokens_segment (segment : List Char) (hr : Ends rest) (ht : tokens rest = .ok ts) :
    tokens (Statement.segmentChars segment ++ rest) = .ok (segmentTokens segment ++ ts) := by
  rw [Statement.segmentChars, segmentTokens]
  -- plain segments are words behind a dot, all others are quoted in brackets
  by_cases hp : Statement.isPlain segment = true
  · rw [if_pos hp, if_pos hp]
    exact tokens_symbol (by simp) (tokens_word (isWord_of_isPlain hp) hr ht)
  · rw [if_neg hp, if_neg hp]
    have hclose : tokens (']' :: rest) = .ok (.symbol .rightBracket :: ts) :=
      tokens_symbol (by simp) ht
    have hquoted := tokens_quoted segment hclose
    simp only [List.cons_append, List.append_assoc, List.nil_append]
    exact tokens_symbol (by simp) hquoted

/-- The segments of a reference, be they none, end a word in front of them: each begins with a dot
or a bracket. -/
theorem ends_segments (segments : List (List Char)) (hr : Ends rest) :
    Ends (segments.flatMap Statement.segmentChars ++ rest) := by
  cases segments with
  | nil => exact hr
  | cons segment segments =>
    rw [List.flatMap_cons, List.append_assoc]
    exact ends_segment _ _

/-- One segment after the other.  Induction on the segments. -/
theorem tokens_segments (segments : List (List Char)) (hr : Ends rest) (ht : tokens rest = .ok ts) :
    tokens (segments.flatMap Statement.segmentChars ++ rest)
      = .ok (segments.flatMap segmentTokens ++ ts) := by
  induction segments with
  | nil => exact ht
  | cons segment segments ih =>
    rw [List.flatMap_cons, List.flatMap_cons, List.append_assoc, List.append_assoc]
    exact tokens_segment segment (ends_segments segments hr) ih

/-- A reference to a field is read as the tokens of its path, whatever stands in the path. -/
theorem tokens_fieldChars {path : String} {cs : List Char} (h : Statement.fieldChars path = .ok cs)
    (hr : Ends rest) (ht : tokens rest = .ok ts) :
    tokens (cs ++ rest) = .ok (fieldTokens path ++ ts) := by
  rw [Statement.fieldChars] at h
  split at h
  · cases h
  · dsimp only at h
    split at h
    · cases h
    · injection h with h
      have hroot : IsWord Statement.rootAlias.toList := by decide
      rw [← h, List.append_assoc]
      exact tokens_word hroot (ends_segments _ hr) (tokens_segments _ hr ht)

end DocQuery.Dialect
