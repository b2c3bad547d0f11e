/-
  Printed queries are read back.

  The tokens of a printed query stand for its lexemes, one for one.  So whatever those lexemes
  are, the tokens are cut at the same places, and the rules of the grammar apply to the pieces:

  Parentheses are left out wherever a level allows it, so the level at which a condition is
  printed is not the level it has.  The induction is therefore over a condition and its place:
  what is printed for a place spells the condition at that place, with the rules that lead from a
  tighter level to a looser one filled in, and with parentheses, which make an atom of anything,
  where there are no such rules.

  1. `isPrintable`: the queries that can be printed; `lexemes_sound`: their lexemes can be written,
     and `prints_print`: with blanks between them they make a text;
  2. `spellsOperand_of_lexemes`, `spellsList_of_lexemes`: operands and lists of them;
  3. `spells_of_lexemes`: conditions.  Where parentheses are left out, the level of the condition
     is one that its place allows; elsewhere they make an atom of it;
  4. `ofTokens_of_lexemes`: whole queries;
  5. `ofText_of_prints`: whatever way a query is printed, its text is read as that query.
-/
import DocQuery.Proofs.Printing

namespace DocQuery.Dialect

open Lexeme (Stands)
open Statement (rootAlias)
open Text (sameWord)

/-! ## What can be printed -/

/-- A path with a segment, a parameter, or a literal that a text has a word for. -/
def Operand.isPrintable : Operand → Bool
  | path segments => !segments.isEmpty
  | parameter p => (Lexeme.parameter p).isSound
  | literal (.text _) | literal (.int64 _) | literal (.bool _) | literal .null => true
  | literal _ => false

/-- Calls have as many arguments as their function takes. -/
def Condition.isPrintable : Condition → Bool
  | operand o => o.isPrintable
  | compare a _ b => a.isPrintable && b.isPrintable
  | oneOf a os => a.isPrintable && os.all Operand.isPrintable
  | call f os => os.length == f.arity && os.all Operand.isPrintable
  | not c => c.isPrintable
  | and a b | or a b => a.isPrintable && b.isPrintable

/-- The name of a count is a word, and records are put in order by fields. -/
def Select.isPrintable (q : Select) : Bool :=
  (match q.projection with
    | .all => true
    | .count name => (Lexeme.name name).isSound)
  && q.condition.all Condition.isPrintable
  && q.order.all fun e => !e.1.isEmpty

/-! ## Lexemes that can be written -/

/-- The lexemes of a path can be written: its segments stand between quotes, so they may be any
texts. -/
theorem pathLexemes_sound (segments : List String) :
    ∀ l ∈ pathLexemes segments, l.isSound = true := by
  intro l hl
  rw [pathLexemes, List.mem_cons, List.mem_flatMap] at hl
  rcases hl with rfl | ⟨s, -, hl⟩
  · decide
  · simp only [segmentLexemes, List.mem_cons, List.not_mem_nil, or_false] at hl
    rcases hl with rfl | rfl | rfl <;> rfl

theorem commaed_sound {lss : List (List Lexeme)} (h : ∀ ls ∈ lss, ∀ l ∈ ls, l.isSound = true) :
    ∀ l ∈ commaed lss, l.isSound = true := by
  fun_induction commaed lss with
  | case1 => exact fun l hl => absurd hl List.not_mem_nil
  | case2 ls => exact h ls List.mem_cons_self
  | case3 ls ms rest ih =>
    obtain ⟨hls, hrest⟩ := List.forall_mem_cons.mp h
    rw [List.forall_mem_append, List.forall_mem_cons]
    exact ⟨hls, rfl, ih hrest⟩

namespace Operand

/-- The lexemes of a printable operand can be written. -/
theorem lexemes_sound {o : Operand} (h : o.isPrintable = true) :
    ∀ l ∈ o.lexemes, l.isSound = true := by
  unfold Operand.lexemes
  split
  · exact pathLexemes_sound _
  · exact List.forall_mem_singleton.mpr h
  all_goals first
    | exact List.forall_mem_singleton.mpr rfl
    | exact List.forall_mem_singleton.mpr (by decide)
    | exact fun l hl => absurd hl List.not_mem_nil

theorem listLexemes_sound {os : List Operand} (h : os.all isPrintable = true) :
    ∀ l ∈ listLexemes os, l.isSound = true := by
  rw [List.all_eq_true] at h
  rw [listLexemes, List.forall_mem_cons, List.forall_mem_append]
  refine ⟨rfl, commaed_sound ?_, List.forall_mem_singleton.mpr rfl⟩
  intro ls hls
  obtain ⟨o, ho, rfl⟩ := List.mem_map.mp hls
  exact lexemes_sound (h o ho)

end Operand

/-- Parentheses around lexemes that can be written leave them so. -/
theorem enclose_sound {own place : Level} {ls : List Lexeme} (h : ∀ l ∈ ls, l.isSound = true) :
    ∀ l ∈ enclose own place ls, l.isSound = true := by
  rw [enclose]
  split
  · exact h
  · rw [List.forall_mem_cons, List.forall_mem_append]
    exact ⟨rfl, h, List.forall_mem_singleton.mpr rfl⟩

/-- The lexemes of a printable condition can be written, in whatever place it stands.  Induction on
the condition. -/
theorem Condition.lexemes_sound (c : Condition) (place : Level) (h : c.isPrintable = true) :
    ∀ l ∈ c.lexemes place, l.isSound = true := by
  have hword : ∀ w ∈ ["NOT", "AND", "OR", "IN"], (Lexeme.keyword w).isSound = true := by decide
  induction c generalizing place with
  | operand o => exact o.lexemes_sound h
  | compare a op b =>
    rw [isPrintable, Bool.and_eq_true] at h
    rw [lexemes, List.forall_mem_append, List.forall_mem_cons]
    exact ⟨a.lexemes_sound h.1, rfl, b.lexemes_sound h.2⟩
  | oneOf a os =>
    rw [isPrintable, Bool.and_eq_true] at h
    rw [lexemes, List.forall_mem_append, List.forall_mem_cons]
    exact ⟨a.lexemes_sound h.1, hword _ (by simp), Operand.listLexemes_sound h.2⟩
  | call f os =>
    rw [isPrintable, Bool.and_eq_true] at h
    rw [lexemes, List.forall_mem_cons]
    refine ⟨?_, Operand.listLexemes_sound h.2⟩
    cases f <;> decide
  | not c ih =>
    refine enclose_sound (List.forall_mem_cons.mpr ⟨hword _ (by simp), ih _ h⟩)
  | and a b iha ihb =>
    rw [isPrintable, Bool.and_eq_true] at h
    refine enclose_sound ?_
    rw [List.forall_mem_append, List.forall_mem_cons]
    exact ⟨iha _ h.1, hword _ (by simp), ihb _ h.2⟩
  | or a b iha ihb =>
    rw [isPrintable, Bool.and_eq_true] at h
    refine enclose_sound ?_
    rw [List.forall_mem_append, List.forall_mem_cons]
    exact ⟨iha _ h.1, hword _ (by simp), ihb _ h.2⟩

/-- The lexemes of an order can be written. -/
theorem orderLexemes_sound (es : List (List String × Direction)) :
    ∀ l ∈ orderLexemes es, l.isSound = true := by
  unfold orderLexemes
  split
  · exact fun l hl => absurd hl List.not_mem_nil
  · rw [List.forall_mem_cons, List.forall_mem_cons]
    refine ⟨by decide, by decide, commaed_sound ?_⟩
    intro ls hls
    obtain ⟨⟨path, direction⟩, -, rfl⟩ := List.mem_map.mp hls
    rw [List.forall_mem_append]
    refine ⟨pathLexemes_sound path, List.forall_mem_singleton.mpr ?_⟩
    have hdirections : ∀ d, (directionLexeme d).isSound = true := by
      rintro (_ | _) <;> decide
    exact hdirections direction

/-- The lexemes of a printable query can be written. -/
theorem Select.lexemes_sound {q : Select} (h : q.isPrintable = true) :
    ∀ l ∈ q.lexemes, l.isSound = true := by
  obtain ⟨projection, condition, order⟩ := q
  simp only [isPrintable, Bool.and_eq_true] at h
  obtain ⟨⟨hprojection, hcondition⟩, -⟩ := h
  simp only [lexemes, List.forall_mem_cons, List.forall_mem_append]
  refine ⟨by decide, ?_, by decide, by decide, by decide, ?_, orderLexemes_sound order⟩
  · cases projection with
    | all => exact List.forall_mem_singleton.mpr rfl
    | count name =>
      simp only [Projection.lexemes, List.forall_mem_cons]
      exact ⟨by decide, rfl, rfl, rfl, by decide, hprojection,
        fun l hl => absurd hl List.not_mem_nil⟩
  · cases condition with
    | none => exact fun l hl => absurd hl List.not_mem_nil
    | some c =>
      rw [whereLexemes, List.forall_mem_cons]
      exact ⟨by decide, c.lexemes_sound .disjunction hcondition⟩

/-! ## One way to write lexemes -/

/-- Escaping a text puts it between quotes, character by character. -/
theorem quoted_escape (cs : List Char) : Quoted '"' cs (cs.flatMap Statement.escape) := by
  induction cs with
  | nil => exact .nil
  | cons c cs ih =>
    rw [List.flatMap_cons, Statement.escape]
    by_cases hc : c = '"' ∨ c = '\\'
    · rw [if_pos hc]
      exact .escaped c ih
    · rw [if_neg hc]
      exact .plain c (fun h => hc (.inl h)) (fun h => hc (.inr h)) ih

/-- The characters of a lexeme are one way to write it. -/
theorem Lexeme.written_chars (l : Lexeme) : l.Written l.chars := by
  cases l with
  | keyword w =>
    refine .keyword ?_
    rw [chars, String.ofList_toList, sameWord, beq_self_eq_true]
  | name w => exact .name w
  | parameter p => exact .parameter p
  | text s => exact .text (.inl rfl) (quoted_escape s.toList)
  | integer n => exact .integer n
  | symbol s => exact .symbol s

/-- Lexemes with blanks between them. -/
theorem laid_joined (l : Lexeme) (ls : List Lexeme) :
    Laid (l :: ls) (Statement.joinChars [' '] ((l :: ls).map Lexeme.chars)) := by
  induction ls generalizing l with
  | nil => exact .last l.written_chars
  | cons m ls ih =>
    have hblank := Laid.blank l.written_chars (ih m)
    rwa [List.append_cons] at hblank

/-- Every query is printed with blanks between all its lexemes. -/
theorem Select.prints_print (q : Select) : q.Prints q.print := by
  rw [Prints, print, String.toList_ofList, lexemes]
  exact laid_joined _ _

/-! ## Tokens cut where their lexemes are -/

section Spelling

variable {ts : List Token}

/-- Tokens for two runs of lexemes fall into tokens for the first and tokens for the second. -/
theorem paired_append {ls ms : List Lexeme} (h : Paired Stands (ls ++ ms) ts) :
    ∃ us vs, ts = us ++ vs ∧ Paired Stands ls us ∧ Paired Stands ms vs := by
  induction ls generalizing ts with
  | nil => exact ⟨[], ts, rfl, .nil, h⟩
  | cons l ls ih =>
    cases h with
    | cons hl hls =>
      obtain ⟨us, vs, rfl, hus, hvs⟩ := ih hls
      exact ⟨_ :: us, vs, rfl, .cons hl hus, hvs⟩

theorem paired_cons {l : Lexeme} {ls : List Lexeme} (h : Paired Stands (l :: ls) ts) :
    ∃ t us, ts = t :: us ∧ l.Stands t ∧ Paired Stands ls us := by
  cases h with
  | cons hl hls => exact ⟨_, _, rfl, hl, hls⟩

/-- A symbol stands for itself. -/
theorem paired_symbol {s : Symbol} {ls : List Lexeme} (h : Paired Stands (.symbol s :: ls) ts) :
    ∃ us, ts = .symbol s :: us ∧ Paired Stands ls us := by
  obtain ⟨t, us, rfl, ⟨⟩, hus⟩ := paired_cons h
  exact ⟨us, rfl, hus⟩

/-- A keyword stands in some letter case. -/
theorem paired_keyword {w : String} {ls : List Lexeme} (h : Paired Stands (.keyword w :: ls) ts) :
    ∃ v us, ts = .word v :: us ∧ sameWord v w = true ∧ Paired Stands ls us := by
  obtain ⟨t, us, rfl, ht, hus⟩ := paired_cons h
  cases ht with
  | keyword hv => exact ⟨_, us, rfl, hv, hus⟩

/-- A name stands as it is written, in its own letter case. -/
theorem paired_name {w : String} {ls : List Lexeme} (h : Paired Stands (.name w :: ls) ts) :
    ∃ us, ts = .word w :: us ∧ Paired Stands ls us := by
  obtain ⟨t, us, rfl, ⟨⟩, hus⟩ := paired_cons h
  exact ⟨us, rfl, hus⟩

/-- What stands before a last symbol. -/
theorem paired_closed {s : Symbol} {ls : List Lexeme} (h : Paired Stands (ls ++ [.symbol s]) ts) :
    ∃ us, ts = us ++ [.symbol s] ∧ Paired Stands ls us := by
  obtain ⟨us, vs, rfl, hus, hvs⟩ := paired_append h
  obtain ⟨ws, rfl, ⟨⟩⟩ := paired_symbol hvs
  exact ⟨us, rfl, hus⟩

/-! ## Operands -/

/-- Tokens that stand for segments spell the path behind its root. -/
theorem spellsPath_of_lexemes {segments : List String}
    (h : Paired Stands (segments.flatMap segmentLexemes) ts) : SpellsPath ts segments := by
  induction segments generalizing ts with
  | nil =>
    cases h
    exact .nil
  | cons s segments ih =>
    obtain ⟨us, rfl, hus⟩ := paired_symbol h
    obtain ⟨t, vs, rfl, ⟨⟩, hvs⟩ := paired_cons hus
    obtain ⟨ws, rfl, hws⟩ := paired_symbol hvs
    exact .bracketed s (ih hws)

/-- Tokens that stand for a path spell it as an operand, if it has a segment: the root alone is no
operand. -/
theorem spellsOperand_of_path {path : List String} (hne : path ≠ [])
    (h : Paired Stands (pathLexemes path) ts) : SpellsOperand ts (.path path) := by
  obtain ⟨us, rfl, hus⟩ := paired_name h
  exact .path (spellsPath_of_lexemes hus) hne

/-- Tokens that stand for a printable operand spell it. -/
theorem spellsOperand_of_lexemes {o : Operand} (ho : o.isPrintable = true)
    (h : Paired Stands o.lexemes ts) : SpellsOperand ts o := by
  cases o with
  | path segments => exact spellsOperand_of_path (by simpa [Operand.isPrintable] using ho) h
  | parameter p =>
    obtain ⟨t, us, rfl, ⟨⟩, ⟨⟩⟩ := paired_cons h
    exact .parameter p
  | literal v =>
    cases v with
    | text s =>
      obtain ⟨t, us, rfl, ⟨⟩, ⟨⟩⟩ := paired_cons h
      exact .text s
    | int64 n =>
      obtain ⟨t, us, rfl, ⟨⟩, ⟨⟩⟩ := paired_cons h
      exact .integer n
    | bool b =>
      cases b with
      | true =>
        obtain ⟨w, us, rfl, hw, ⟨⟩⟩ := paired_keyword h
        exact .true hw
      | false =>
        obtain ⟨w, us, rfl, hw, ⟨⟩⟩ := paired_keyword h
        exact .false hw
    | null =>
      obtain ⟨w, us, rfl, hw, ⟨⟩⟩ := paired_keyword h
      exact .null hw
    | _ => exact absurd ho Bool.false_ne_true

/-- Tokens that stand for operands between commas spell the list of them. -/
theorem spellsList_of_lexemes {os : List Operand} (hos : os.all Operand.isPrintable = true)
    (h : Paired Stands (commaed (os.map Operand.lexemes)) ts) : SpellsList ts os := by
  induction os generalizing ts with
  | nil =>
    cases h
    exact .nil
  | cons o os ih =>
    rw [List.all_cons, Bool.and_eq_true] at hos
    cases os with
    | nil => exact .one (spellsOperand_of_lexemes hos.1 h)
    | cons p os =>
      obtain ⟨us, vs, rfl, hus, hvs⟩ := paired_append h
      obtain ⟨ws, rfl, hws⟩ := paired_symbol hvs
      exact .cons (spellsOperand_of_lexemes hos.1 hus) (ih hos.2 hws)

/-- The list behind `IN` stands in parentheses. -/
theorem spellsList_of_listLexemes {os : List Operand} (hos : os.all Operand.isPrintable = true)
    (h : Paired Stands (listLexemes os) ts) :
    ∃ us, ts = .symbol .leftParen :: (us ++ [.symbol .rightParen]) ∧ SpellsList us os := by
  obtain ⟨us, rfl, hus⟩ := paired_symbol h
  obtain ⟨vs, rfl, hvs⟩ := paired_closed hus
  exact ⟨vs, rfl, spellsList_of_lexemes hos hvs⟩

/-! ## Conditions -/

/-- What is spelled at a level is spelled at every looser one. -/
theorem Spells.loosen {own place : Level} {c : Condition} (h : Spells own ts c)
    (hle : own.looseness ≤ place.looseness) : Spells place ts c := by
  -- one rule of the grammar for each level on the way
  have hnegation (h : Spells .atom ts c) : Spells .negation ts c := .atom h
  have hconjunction (h : Spells .negation ts c) : Spells .conjunction ts c := .negation h
  have hdisjunction (h : Spells .conjunction ts c) : Spells .disjunction ts c := .conjunction h
  cases place with
  | atom => cases own <;> first | exact h | exact absurd hle (by decide)
  | negation => cases own <;> first | exact h | exact hnegation h | exact absurd hle (by decide)
  | conjunction =>
    cases own with
    | atom => exact hconjunction (hnegation h)
    | negation => exact hconjunction h
    | conjunction => exact h
    | disjunction => exact absurd hle (by decide)
  | disjunction =>
    cases own with
    | atom => exact hdisjunction (hconjunction (hnegation h))
    | negation => exact hdisjunction (hconjunction h)
    | conjunction => exact hdisjunction h
    | disjunction => exact h

/-- With parentheses where its place asks for them, a condition is spelled at its place. -/
theorem spells_of_enclose {own place : Level} {ls : List Lexeme} {c : Condition}
    (hown : ∀ {us}, Paired Stands ls us → Spells own us c)
    (h : Paired Stands (enclose own place ls) ts) : Spells place ts c := by
  rw [enclose] at h
  split at h
  · rename_i hle
    exact (hown h).loosen hle
  · obtain ⟨us, rfl, hus⟩ := paired_symbol h
    obtain ⟨vs, rfl, hvs⟩ := paired_closed hus
    have hloosest : own.looseness ≤ Level.disjunction.looseness := by cases own <;> decide
    have hinside : Spells .disjunction vs c := (hown hvs).loosen hloosest
    exact (Spells.group hinside).loosen (Nat.zero_le _)

/-- **The tokens of a condition spell it at its place.**  Induction on the condition. -/
theorem spells_of_lexemes {c : Condition} {place : Level} (hc : c.isPrintable = true)
    (h : Paired Stands (c.lexemes place) ts) : Spells place ts c := by
  induction c generalizing place ts with
  | operand o => exact (Spells.operand (spellsOperand_of_lexemes hc h)).loosen (Nat.zero_le _)
  | compare a op b =>
    rw [Condition.isPrintable, Bool.and_eq_true] at hc
    obtain ⟨us, vs, rfl, hus, hvs⟩ := paired_append h
    obtain ⟨ws, rfl, hws⟩ := paired_symbol hvs
    have ha := spellsOperand_of_lexemes hc.1 hus
    have hb := spellsOperand_of_lexemes hc.2 hws
    exact (Spells.compare op ha hb).loosen (Nat.zero_le _)
  | oneOf a os =>
    rw [Condition.isPrintable, Bool.and_eq_true] at hc
    obtain ⟨us, vs, rfl, hus, hvs⟩ := paired_append h
    obtain ⟨w, ws, rfl, hw, hws⟩ := paired_keyword hvs
    obtain ⟨xs, rfl, hxs⟩ := spellsList_of_listLexemes hc.2 hws
    exact (Spells.oneOf hw (spellsOperand_of_lexemes hc.1 hus) hxs).loosen (Nat.zero_le _)
  | call f os =>
    rw [Condition.isPrintable, Bool.and_eq_true, beq_iff_eq] at hc
    obtain ⟨w, us, rfl, hw, hus⟩ := paired_keyword h
    obtain ⟨vs, rfl, hvs⟩ := spellsList_of_listLexemes hc.2 hus
    exact (Spells.call f hw hvs hc.1).loosen (Nat.zero_le _)
  | not c ih =>
    -- with parentheses around it or without, what is inside spells the negation
    refine spells_of_enclose (fun hls => ?_) h
    obtain ⟨w, us, rfl, hw, hus⟩ := paired_keyword hls
    exact .not hw (ih hc hus)
  | and a b iha ihb =>
    rw [Condition.isPrintable, Bool.and_eq_true] at hc
    refine spells_of_enclose (fun hls => ?_) h
    obtain ⟨us, vs, rfl, hus, hvs⟩ := paired_append hls
    obtain ⟨w, ws, rfl, hw, hws⟩ := paired_keyword hvs
    exact .and hw (iha hc.1 hus) (ihb hc.2 hws)
  | or a b iha ihb =>
    rw [Condition.isPrintable, Bool.and_eq_true] at hc
    refine spells_of_enclose (fun hls => ?_) h
    obtain ⟨us, vs, rfl, hus, hvs⟩ := paired_append hls
    obtain ⟨w, ws, rfl, hw, hws⟩ := paired_keyword hvs
    exact .or hw (iha hc.1 hus) (ihb hc.2 hws)

/-! ## Orders -/

/-- Tokens that stand for a path and a direction spell an entry of an order. -/
theorem spellsEntry_of_lexemes {e : List String × Direction} (he : (!e.1.isEmpty) = true)
    (h : Paired Stands (pathLexemes e.1 ++ [directionLexeme e.2]) ts) : SpellsEntry ts e := by
  obtain ⟨path, direction⟩ := e
  have hne : path ≠ [] := by simpa using he
  obtain ⟨us, vs, rfl, hus, hvs⟩ := paired_append h
  have hpath := spellsOperand_of_path hne hus
  cases direction with
  | ascending =>
    obtain ⟨w, ws, rfl, hw, ⟨⟩⟩ := paired_keyword hvs
    exact .ascending hw hpath
  | descending =>
    obtain ⟨w, ws, rfl, hw, ⟨⟩⟩ := paired_keyword hvs
    exact .descending hw hpath

/-- Tokens that stand for entries between commas spell the order, which has one entry at least. -/
theorem spellsOrder_of_lexemes {e : List String × Direction} {es : List (List String × Direction)}
    (hes : ((e :: es).all fun e => !e.1.isEmpty) = true)
    (h : Paired Stands (commaed ((e :: es).map fun e => pathLexemes e.1 ++ [directionLexeme e.2]))
      ts) : SpellsOrder ts (e :: es) := by
  induction es generalizing e ts with
  | nil =>
    rw [List.all_cons, Bool.and_eq_true] at hes
    exact .one (spellsEntry_of_lexemes hes.1 h)
  | cons e' es ih =>
    rw [List.all_cons, Bool.and_eq_true] at hes
    obtain ⟨us, vs, rfl, hus, hvs⟩ := paired_append h
    obtain ⟨ws, rfl, hws⟩ := paired_symbol hvs
    exact .cons (spellsEntry_of_lexemes hes.1 hus) (ih hes.2 hws)

/-! ## Queries -/

/-- Behind a condition stands nothing, or a word that reads as `ORDER`. -/
def OrderNext (us : List Token) : Prop :=
  us = [] ∨ ∃ w vs, us = .word w :: vs ∧ sameWord w "ORDER" = true

/-- The next word is no other one. -/
theorem OrderNext.word? {us : List Token} (h : OrderNext us) {a : String}
    (ha : sameWord "ORDER" a = false) : word? a us = none := by
  rcases h with rfl | ⟨w, vs, rfl, hw⟩
  · rfl
  · exact word?_miss (sameWord_of_other hw ha)

/-- In front of an order, or of the end, an operand is at its end. -/
theorem OrderNext.follows {us : List Token} (h : OrderNext us) : Follows us := by
  rcases h with rfl | ⟨w, vs, rfl, hw⟩
  · trivial
  · exact sameWord_of_other hw (by decide)

/-- Tokens that stand for a projection are read as it, up to whatever comes next. -/
theorem readProjection_of_lexemes {p : Projection} {us : List Token}
    (h : Paired Stands p.lexemes ts) : readProjection (ts ++ us) = .ok (p, us) := by
  cases p with
  | all =>
    obtain ⟨_, rfl, ⟨⟩⟩ := paired_symbol h
    rfl
  | count name =>
    obtain ⟨v, _, rfl, hv, hopen⟩ := paired_keyword h
    obtain ⟨_, rfl, hone⟩ := paired_symbol hopen
    obtain ⟨_, _, rfl, ⟨⟩, hclose⟩ := paired_cons hone
    obtain ⟨_, rfl, has⟩ := paired_symbol hclose
    obtain ⟨w, _, rfl, hw, hname⟩ := paired_keyword has
    obtain ⟨_, rfl, ⟨⟩⟩ := paired_name hname
    have hstar : ∀ vs, symbol? .star (.word v :: vs) = none := fun _ => rfl
    have hparen : ∀ s vs, expectSymbol s (.symbol s :: vs) = .ok vs := fun s vs => by
      rw [expectSymbol, symbol?, if_pos rfl]
    simp only [List.cons_append, List.nil_append, readProjection, hstar, expectWord_hit hv, hparen,
      expectWord_hit hw, readName, bind, Except.bind]

/-- Tokens that stand for a condition are read as it, up to an order or the end; without a condition
nothing is read. -/
theorem readWhere_of_lexemes {condition : Option Condition} {us : List Token}
    (hcondition : condition.all Condition.isPrintable = true)
    (h : Paired Stands (whereLexemes condition) ts) (hus : OrderNext us) :
    readWhere rootAlias (ts ++ us) = .ok (condition, us) := by
  cases condition with
  | none =>
    cases h
    rw [List.nil_append, readWhere, hus.word? (by decide)]
  | some c =>
    obtain ⟨w, vs, rfl, hw, hvs⟩ := paired_keyword h
    have hread := readCondition_spelled (spells_of_lexemes hcondition hvs) hus.follows
      (hus.word? (by decide)) (hus.word? (by decide))
    rw [List.cons_append, readWhere, word?_hit hw]
    simp only [bind, Except.bind, hread]

/-- Tokens that stand for an order are read as it, and they begin where a condition may end. -/
theorem readOrder_of_lexemes {es : List (List String × Direction)}
    (hes : (es.all fun e => !e.1.isEmpty) = true) (h : Paired Stands (orderLexemes es) ts) :
    OrderNext ts ∧ readOrder rootAlias ts = .ok (es, []) := by
  cases es with
  | nil =>
    cases h
    exact ⟨.inl rfl, rfl⟩
  | cons e es =>
    obtain ⟨v, us, rfl, hv, hus⟩ := paired_keyword h
    obtain ⟨w, vs, rfl, hw, hvs⟩ := paired_keyword hus
    exact ⟨.inr ⟨v, _, rfl, hv⟩, readOrder_spelled hv hw (spellsOrder_of_lexemes hes hvs)⟩

/-- Tokens that stand for the lexemes of a query are read as that query. -/
theorem ofTokens_of_lexemes {q : Select} (hq : q.isPrintable = true)
    (h : Paired Stands q.lexemes ts) : Select.ofTokens ts = .ok q := by
  obtain ⟨projection, condition, order⟩ := q
  simp only [Select.isPrintable, Bool.and_eq_true] at hq
  obtain ⟨⟨-, hcondition⟩, horder⟩ := hq
  -- the words in front of the parts, and the parts
  obtain ⟨select, _, rfl, hselect, hfirst⟩ := paired_keyword h
  obtain ⟨ps, _, rfl, hps, hsecond⟩ := paired_append hfirst
  obtain ⟨source, _, rfl, hsource, hthird⟩ := paired_keyword hsecond
  obtain ⟨root, _, rfl, hroot, hfourth⟩ := paired_keyword hthird
  obtain ⟨_, rfl, hlast⟩ := paired_name hfourth
  obtain ⟨cs, os, rfl, hcs, hos⟩ := paired_append hlast
  obtain ⟨hnext, hread⟩ := readOrder_of_lexemes horder hos
  simp only [Select.ofTokens, bind, Except.bind, expectWord_hit hselect,
    readProjection_of_lexemes hps, expectWord_hit hsource, expectWord_hit hroot, readName,
    readWhere_of_lexemes hcondition hcs hnext, hread]

end Spelling

/-- **The reader of the dialect undoes printing.**  Every query that can be printed has a text, and
however it is printed, its text is read as exactly that query. -/
theorem ofText_of_prints (q : Select) (hq : q.isPrintable = true) :
    q.Prints q.print ∧ ∀ s, q.Prints s → Select.ofText s = .ok q := by
  refine ⟨q.prints_print, fun s hs => ?_⟩
  obtain ⟨ts, hts, htokens⟩ := tokens_laid hs (Select.lexemes_sound hq)
  rw [Select.ofText, htokens]
  exact ofTokens_of_lexemes hq hts

/-- A query that needs some parentheses and not others, with a quote and backslashes in its texts,
the lowest integer, and a membership without members. -/
def knottedQuery : Select where
  projection := .count "n"
  condition := some (.and
    (.or (.not (.not (.oneOf (.path ["a\"b\\", "tags"]) [])))
      (.compare (.path ["k"]) .ne (.literal (.int64 Int64.minValue))))
    (.not (.and (.call .startsWith [.path ["s"], .literal (.text "\\")])
      (.or (.operand (.literal (.bool true))) (.call .isNull [.parameter "@p0"])))))
  order := [(["k"], .descending), (["a", "b"], .ascending)]

/-- A query with negations twice over, parentheses that are needed, an empty list, the least integer
and names of awkward characters comes back from its text. -/
theorem ofText_of_prints_knotted : knottedQuery.isPrintable = true
    ∧ knottedQuery.print = "SELECT COUNT ( 1 ) AS n FROM ROOT r WHERE ( NOT NOT r "
      ++ "[ \"a\\\"b\\\\\" ] [ \"tags\" ] IN ( ) OR r [ \"k\" ] != -9223372036854775808 ) AND "
      ++ "NOT ( STARTSWITH ( r [ \"s\" ] , \"\\\\\" ) AND ( true OR IS_NULL ( @p0 ) ) ) ORDER BY "
      ++ "r [ \"k\" ] DESC , r [ \"a\" ] [ \"b\" ] ASC"
    ∧ Select.ofText knottedQuery.print = .ok knottedQuery := by
  have hprintable : knottedQuery.isPrintable = true := by decide
  obtain ⟨hprints, hread⟩ := ofText_of_prints knottedQuery hprintable
  exact ⟨hprintable, by decide +kernel, hread _ hprints⟩

end DocQuery.Dialect
