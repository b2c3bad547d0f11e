/-
  JSON text that is read back.

  What is written without blanks is read again as the same value, member for member, if no number
  in it has a fraction and it does not nest too deep.  Fractions are left out: they are rounded
  when they are read.

  The reader has fuel, and a depth at which it gives up, and works on what is left of the text.
  So the claim is about a value with a rest behind it: with two steps for every character, and as
  much depth as the value nests, the value comes out and the rest stays.  Containers read a first
  item and then commas with further ones; by putting the comma in front of an item instead of
  behind, both cases become one (`joined`).

  1. `depth` and `isWhole`: how deep a value nests, and values without fractions;
  2. `readString_quoted`: strings, escape by escape;
  3. `readNumber_natChars`: numbers, up to where the digits end;
  4. `readItems_item`, `readMembers_member`: one item or member, and then the others behind commas;
  5. `readValue_chars`: values, by induction, with steps to spare;
  6. `readAs_compact`: whole texts.
-/
import DocQuery.Json.Reader
import DocQuery.Proofs.Numerals

namespace DocQuery.Json

/-! ## Values -/

mutual

/-- Containers that a value nests. -/
def depth : Json → Nat
  | .arr xs => itemsDepth xs + 1
  | .obj ms => membersDepth ms + 1
  | _ => 0

def itemsDepth : List Json → Nat
  | [] => 0
  | x :: xs => max x.depth (itemsDepth xs)

def membersDepth : List (String × Json) → Nat
  | [] => 0
  | (_, v) :: ms => max v.depth (membersDepth ms)

end

mutual

/-- Whether all numbers in a value are integers of 64 bits, with or without a sign. -/
def isWhole : Json → Bool
  | .int n => Int64.minValue.toInt ≤ n && n ≤ maxWord
  | .float _ => false
  | .arr xs => areWhole xs
  | .obj ms => membersAreWhole ms
  | _ => true

def areWhole : List Json → Bool
  | [] => true
  | x :: xs => x.isWhole && areWhole xs

def membersAreWhole : List (String × Json) → Bool
  | [] => true
  | (_, v) :: ms => v.isWhole && membersAreWhole ms

end

/-! ## Strings -/

/-- A character without a short escape is read by its number. -/
theorem readUnicode_escaped {c : Char} (h : c.toNat < 0x20) (rest : List Char) :
    readUnicode ('0' :: '0' :: Text.digitChar (c.toNat / 16) :: Text.digitChar (c.toNat % 16)
      :: rest) = .ok (c, rest) := by
  have hzero : Text.hexValue '0' = some 0 := rfl
  have hhigh := Text.hexValue_digitChar (show c.toNat / 16 < 16 by omega)
  have hlow := Text.hexValue_digitChar (show c.toNat % 16 < 16 by omega)
  have hvalue : ((0 * 16 + 0) * 16 + c.toNat / 16) * 16 + c.toNat % 16 = c.toNat := by omega
  have hread : readHex4 ('0' :: '0' :: Text.digitChar (c.toNat / 16)
      :: Text.digitChar (c.toNat % 16) :: rest) = .ok (c.toNat, rest) := by
    rw [readHex4]
    simp only [hzero, hhigh, hlow, hvalue]
  have hcloses : isLowSurrogate c.toNat = false := by
    rw [isLowSurrogate, decide_eq_false (by omega : ¬ 0xDC00 ≤ c.toNat)]
    rfl
  have hopens : isHighSurrogate c.toNat = false := by
    rw [isHighSurrogate, decide_eq_false (by omega : ¬ 0xD800 ≤ c.toNat)]
    rfl
  rw [readUnicode, hread]
  show (if isLowSurrogate c.toNat = true then _ else _) = _
  rw [hcloses, if_neg Bool.false_ne_true, hopens, if_neg Bool.false_ne_true, Char.ofNat_toNat]

section Strings

variable {fuel : Nat} {cs xs rest : List Char}

/-- A backslash and a letter. -/
theorem readChars_short {e c : Char} (he : e ≠ 'u') (hc : shortEscape e = some c)
    (h : readChars fuel cs = .ok (xs, rest)) :
    readChars (fuel + 1) ('\\' :: e :: cs) = .ok (c :: xs, rest) := by
  rw [readChars, if_neg (by decide), if_pos rfl, hc, h]
  · rfl
  · exact he

/-- The escaped form of a character is read as the character. -/
theorem readChars_escape (c : Char) (h : readChars fuel cs = .ok (xs, rest)) :
    readChars (fuel + 1) (escape c ++ cs) = .ok (c :: xs, rest) := by
  rw [escape]
  split
  · rename_i hc
    rw [hc]
    exact readChars_short (by decide) rfl h
  rename_i hquote
  split
  · rename_i hc
    rw [hc]
    exact readChars_short (by decide) rfl h
  rename_i hback
  split
  · rename_i hc
    rw [hc]
    exact readChars_short (by decide) rfl h
  split
  · rename_i hc
    rw [hc]
    exact readChars_short (by decide) rfl h
  split
  · rename_i hc
    rw [hc]
    exact readChars_short (by decide) rfl h
  split
  · rename_i hc
    rw [hc]
    exact readChars_short (by decide) rfl h
  split
  · rename_i hc
    rw [hc]
    exact readChars_short (by decide) rfl h
  split
  · -- any other control character is written by its number
    rename_i hlow
    show readChars (fuel + 1) ('\\' :: 'u' :: '0' :: '0' :: Text.digitChar (c.toNat / 16)
      :: Text.digitChar (c.toNat % 16) :: cs) = _
    rw [readChars, if_neg (by decide), if_pos rfl, readUnicode_escaped hlow]
    show (readChars fuel cs >>= _) = _
    rw [h]
    rfl
  · rename_i hlow
    show readChars (fuel + 1) (c :: cs) = _
    rw [readChars.eq_def]
    dsimp only
    rw [if_neg hquote, if_neg hback, if_neg hlow, h]
    rfl

/-- **The characters of a string are read back**, up to the quote behind them. -/
theorem readChars_escaped : ∀ (xs : List Char) {fuel : Nat}, xs.length < fuel →
    readChars fuel (xs.flatMap escape ++ '"' :: rest) = .ok (xs, rest)
  | [], fuel + 1, _ => by
    rw [List.flatMap_nil, List.nil_append, readChars.eq_def]
    rfl
  | c :: xs, fuel + 1, h => by
    rw [List.flatMap_cons, List.append_assoc]
    exact readChars_escape c (readChars_escaped xs (Nat.lt_of_succ_lt_succ h))

theorem escape_ne_nil (c : Char) : escape c ≠ [] := by
  unfold escape
  repeat' split
  all_goals exact List.cons_ne_nil _ _

/-- Escaping makes no string shorter. -/
theorem length_le_escaped (xs : List Char) : xs.length ≤ (xs.flatMap escape).length := by
  induction xs with
  | nil => exact Nat.le_refl 0
  | cons c xs ih =>
    have hpos : 0 < (escape c).length := List.length_pos_iff.mpr (escape_ne_nil c)
    rw [List.flatMap_cons, List.length_append, List.length_cons]
    omega

/-- A string between quotes reads back as itself, however its characters were escaped. -/
theorem readString_quoted (s : String) :
    readString (s.toList.flatMap escape ++ '"' :: rest) = .ok (s, rest) := by
  have hlen := length_le_escaped s.toList
  have hfuel : s.toList.length < (s.toList.flatMap escape ++ '"' :: rest).length + 1 := by
    rw [List.length_append]
    omega
  rw [readString, readChars_escaped s.toList hfuel]
  show Except.ok (String.ofList s.toList, rest) = _
  rw [String.ofList_toList]

end Strings

/-! ## Numbers -/

/-- Whether a number ends in front of a text. -/
def endsNumber : List Char → Bool
  | [] => true
  | c :: _ => !Text.isDigit c && c != '.' && c != 'e' && c != 'E'

section Numbers

variable {rest : List Char}

/-- What ends a number goes on with no digit, no point and no exponent. -/
theorem endsNumber_cons {c : Char} {cs : List Char} (h : endsNumber (c :: cs) = true) :
    Text.isDigit c = false ∧ c ≠ '.' ∧ ¬ (c = 'e' ∨ c = 'E') := by
  simp only [endsNumber, Bool.and_eq_true, bne_iff_ne, ne_eq, Bool.not_eq_true'] at h
  obtain ⟨⟨⟨hdigit, hpoint⟩, he⟩, hE⟩ := h
  exact ⟨hdigit, hpoint, not_or.mpr ⟨he, hE⟩⟩

/-- Digits that follow only make a number larger, so the reader notices in time when it grows too
large. -/
theorem le_foldl_digits (ds : List Char) (n : Nat) :
    n ≤ ds.foldl (fun n c => n * 10 + Text.digitValue c) n := by
  induction ds generalizing n with
  | nil => exact Nat.le_refl n
  | cons d ds ih =>
    have hstep : n ≤ n * 10 + Text.digitValue d := by omega
    exact Nat.le_trans hstep (ih _)

/-- Digits are gathered up to where they end, if the number they make fits. -/
theorem gather_digits (hrest : endsNumber rest = true) : ∀ (ds : List Char) (n count : Nat),
    (∀ c ∈ ds, Text.isDigit c = true) →
    ds.foldl (fun n c => n * 10 + Text.digitValue c) n ≤ maxWord →
    ∃ count', gather n count (ds ++ rest)
      = (ds.foldl (fun n c => n * 10 + Text.digitValue c) n, count', rest)
  | [], n, count, _, _ => by
    refine ⟨count, ?_⟩
    cases rest with
    | nil => rfl
    | cons c cs =>
      rw [List.nil_append, gather, (endsNumber_cons hrest).1]
      rfl
  | d :: ds, n, count, hds, hfit => by
    have hd : Text.isDigit d = true := hds d List.mem_cons_self
    have hnext : n * 10 + Text.digitValue d ≤ maxWord :=
      Nat.le_trans (le_foldl_digits ds _) hfit
    rw [List.cons_append, gather, if_pos hd]
    dsimp only
    rw [if_pos hnext]
    exact gather_digits hrest ds _ _ (fun c hc => hds c (List.mem_cons_of_mem d hc)) hfit

/-- Where a number ends, it is the integer of its digits. -/
theorem readPoint_end (hrest : endsNumber rest = true) (negative : Bool) (n : Nat) :
    readPoint negative n 0 rest = .ok (integer negative n, rest) := by
  cases rest with
  | nil => rfl
  | cons c cs =>
    obtain ⟨-, hpoint, hexponent⟩ := endsNumber_cons hrest
    rw [readPoint, if_neg hpoint, if_neg hexponent, if_pos rfl]

/-- **Digits are read back**, behind a sign or without one. -/
theorem readNumber_natChars (hrest : endsNumber rest = true) (negative : Bool) {n : Nat}
    (hn : n ≤ maxWord) :
    readNumber negative (Text.natChars n ++ rest) = .ok (integer negative n, rest) := by
  rcases Nat.eq_zero_or_pos n with rfl | hpos
  · show readNumber negative ('0' :: rest) = _
    rw [readNumber.eq_def]
    dsimp only
    rw [if_pos rfl]
    cases rest with
    | nil => rfl
    | cons c cs =>
      dsimp only
      rw [(endsNumber_cons hrest).1, if_neg Bool.false_ne_true]
      exact readPoint_end hrest negative 0
  · obtain ⟨d, ds, hds, hd⟩ := Text.natChars_head hpos
    obtain ⟨-, hdigits, hvalue⟩ := Text.natChars_spec n
    rw [hds] at hdigits hvalue ⊢
    have hfold : ds.foldl (fun n c => n * 10 + Text.digitValue c) (Text.digitValue d) = n := by
      rw [← hvalue, Text.digitsValue, List.foldl_cons, Nat.zero_mul, Nat.zero_add]
    obtain ⟨count, hgather⟩ := gather_digits hrest ds (Text.digitValue d) 1
      (fun c hc => hdigits c (List.mem_cons_of_mem d hc)) (by rw [hfold]; exact hn)
    rw [hfold] at hgather
    -- nothing is left of the digits
    have hnone : rest.takeWhile Text.isDigit = [] ∧ rest.dropWhile Text.isDigit = rest := by
      cases rest with
      | nil => exact ⟨rfl, rfl⟩
      | cons c cs =>
        have hc := Bool.eq_false_iff.mp (endsNumber_cons hrest).1
        exact ⟨List.takeWhile_cons_of_neg hc, List.dropWhile_cons_of_neg hc⟩
    rw [List.cons_append, readNumber.eq_def]
    dsimp only
    rw [if_neg hd, if_pos (hdigits d List.mem_cons_self), hgather]
    dsimp only
    rw [hnone.1, hnone.2]
    exact readPoint_end hrest negative n

end Numbers

/-! ## Values without parts -/

section Scalars

variable {rest : List Char}

/-- A scalar that starts with a quote reads as a string. -/
theorem readScalar_text (s : String) :
    readScalar '"' (s.toList.flatMap escape ++ '"' :: rest) = .ok (.str s, rest) := by
  rw [readScalar, if_pos rfl, readString_quoted]
  rfl

/-- The digits of an integer, behind its sign. -/
theorem intChars (n : Int) : (Text.ofInt n).toList
    = if n < 0 then '-' :: Text.natChars n.natAbs else Text.natChars n.natAbs := by
  have hdigits : (Text.ofNat n.natAbs).toList = Text.natChars n.natAbs := String.toList_ofList
  rw [Text.ofInt]
  split
  · rw [String.toList_append, hdigits]
    rfl
  · exact hdigits

/-- An integer of 64 bits is read back, with its sign. -/
theorem readScalar_int {n : Int} (hlow : Int64.minValue.toInt ≤ n) (hhigh : n ≤ maxWord)
    (hrest : endsNumber rest = true) {c : Char} {cs : List Char}
    (hchars : (Text.ofInt n).toList = c :: cs) :
    readScalar c (cs ++ rest) = .ok (.int n, rest) := by
  rw [intChars] at hchars
  by_cases hn : n < 0
  · rw [if_pos hn] at hchars
    obtain ⟨rfl, rfl⟩ := List.cons.inj hchars
    have hmin : Int64.minValue.toInt = -9223372036854775808 := rfl
    have hfits : n.natAbs ≤ Int64.minValue.toInt.natAbs := by omega
    have hread := readNumber_natChars hrest true (Nat.le_trans hfits (by decide))
    have hsign : integer true n.natAbs = .int n := by
      rw [integer, if_neg (by decide), if_neg (by omega)]
      have habs : -(n.natAbs : Int) = n := by omega
      rw [habs]
    rw [hsign] at hread
    exact hread
  · rw [if_neg hn] at hchars
    have hword : n.natAbs ≤ maxWord := by omega
    have hread := readNumber_natChars hrest false hword
    have hsign : integer false n.natAbs = .int n := by
      rw [integer, if_pos (by decide)]
      have habs : (n.natAbs : Int) = n := by omega
      rw [habs]
    rw [hsign, hchars] at hread
    have hdigit : Text.isDigit c = true :=
      Text.isDigit_of_mem_natChars (n := n.natAbs) (by rw [hchars]; exact List.mem_cons_self)
    -- a digit is none of the characters that other scalars begin with
    have hother : ∀ x, Text.isDigit x = false → c ≠ x := by
      rintro x hx rfl
      rw [hdigit] at hx
      cases hx
    rw [readScalar, if_neg (hother _ rfl), if_neg (hother _ rfl), if_neg (hother _ rfl),
      if_neg (hother _ rfl), if_neg (hother _ rfl), if_pos hdigit]
    exact hread

end Scalars

/-! ## Containers -/

/-- A character that a value may begin with. -/
def opens (c : Char) : Bool :=
  !isBlank c && c != ']'

theorem opens_of_startsInteger {c : Char} (h : Text.startsInteger c = true) :
    opens c = true := by
  have hother : ∀ x, Text.startsInteger x = false → (c == x) = false := by
    intro x hx
    refine beq_eq_false_iff_ne.mpr ?_
    rintro rfl
    rw [h] at hx
    cases hx
  rw [opens, isBlank, bne, hother ' ' rfl, hother '\n' rfl, hother '\t' rfl, hother '\x0d' rfl,
    hother ']' rfl]
  rfl

/-- Every value starts with a character that is neither a blank nor a closing one, so the reader of
containers takes it for an item. -/
theorem chars_head : ∀ j : Json, j.isWhole = true → ∃ c cs, j.chars = c :: cs ∧ opens c = true
  | .null, _ => ⟨'n', _, rfl, rfl⟩
  | .bool true, _ => ⟨'t', _, rfl, rfl⟩
  | .bool false, _ => ⟨'f', _, rfl, rfl⟩
  | .str _, _ => ⟨'"', _, rfl, rfl⟩
  | .arr _, _ => ⟨'[', _, rfl, rfl⟩
  | .obj _, _ => ⟨'\x7b', _, rfl, rfl⟩
  | .int n, _ => by
    obtain ⟨c, cs, hcs, hc⟩ := Text.ofInt_head n
    exact ⟨c, cs, hcs, opens_of_startsInteger hc⟩

theorem skipBlanks_of_opens {c : Char} (h : opens c = true) (cs : List Char) :
    skipBlanks (c :: cs) = c :: cs := by
  rw [opens, Bool.and_eq_true, Bool.not_eq_true'] at h
  rw [skipBlanks, h.1]
  rfl

/-- What stands in front of an item or a member: a comma, unless it is the first. -/
def lead : Bool → List Char
  | true => []
  | false => [',']

/-- Readers of items and of members look behind the comma, and there must be something. -/
theorem lead_append (first : Bool) {c : Char} (hc : opens c = true) (cs : List Char) :
    ∃ d ds, lead first ++ c :: cs = d :: ds ∧ skipBlanks (d :: ds) = d :: ds
      ∧ d ≠ ']' ∧ (c ≠ '\x7d' → d ≠ '\x7d')
      ∧ (if first then some (d :: ds) else if d = ',' then some ds else none) = some (c :: cs) := by
  cases first with
  | true =>
    refine ⟨c, cs, rfl, skipBlanks_of_opens hc cs, ?_, id, rfl⟩
    rintro rfl
    cases hc
  | false => exact ⟨',', c :: cs, rfl, rfl, by decide, fun _ => by decide, rfl⟩

section Front

variable {fuel depth : Nat} {c : Char} {cs cs₁ rest : List Char}

/-- An item, and those behind it. -/
theorem readItems_item (first : Bool) {x : Json} {xs : List Json} (hc : opens c = true)
    (hx : readValue fuel depth (c :: cs) = .ok (x, cs₁))
    (hxs : readItems fuel depth false cs₁ = .ok (xs, rest)) :
    readItems (fuel + 1) depth first (lead first ++ c :: cs) = .ok (x :: xs, rest) := by
  obtain ⟨d, ds, htext, hskip, hclose, -, hhere⟩ := lead_append first hc cs
  rw [htext, readItems.eq_def]
  dsimp only
  rw [hskip]
  split
  · rename_i heq
    cases heq
  · rename_i heq
    exact absurd (List.cons.inj heq).1 hclose
  · rename_i heq
    obtain ⟨rfl, rfl⟩ := List.cons.inj heq
    rw [hhere]
    dsimp only
    rw [skipBlanks_of_opens hc]
    split
    · rename_i heq
      obtain ⟨rfl, -⟩ := List.cons.inj heq
      cases hc
    · rw [hx]
      show (readItems fuel depth false cs₁ >>= _) = _
      rw [hxs]
      rfl

/-- A key reads back as itself, with the colon behind it. -/
theorem readKey_quoted (k : String) (cs : List Char) :
    readKey (k.toList.flatMap escape ++ '"' :: ':' :: cs) = .ok (k, cs) := by
  rw [readKey, readString_quoted]
  rfl

theorem quote_append (k : String) (cs : List Char) :
    quote k ++ cs = '"' :: (k.toList.flatMap escape ++ '"' :: cs) := by
  rw [quote, List.cons_append, List.append_assoc]
  rfl

/-- A member, and those behind it. -/
theorem readMembers_member (first : Bool) {v : Json} {ms : List (String × Json)} (k : String)
    (hv : readValue fuel depth cs = .ok (v, cs₁))
    (hms : readMembers fuel depth false cs₁ = .ok (ms, rest)) :
    readMembers (fuel + 1) depth first (lead first ++ (quote k ++ ':' :: cs))
      = .ok ((k, v) :: ms, rest) := by
  rw [quote_append]
  obtain ⟨d, ds, htext, hskip, -, hclose, hhere⟩ :=
    lead_append first (show opens '"' = true from rfl)
      (k.toList.flatMap escape ++ '"' :: ':' :: cs)
  have hquote : ∀ cs, skipBlanks ('"' :: cs) = '"' :: cs := fun _ => rfl
  rw [htext, readMembers.eq_def]
  dsimp only
  rw [hskip]
  split
  · rename_i heq
    cases heq
  · rename_i heq
    exact absurd (List.cons.inj heq).1 (hclose (by decide))
  · rename_i heq
    obtain ⟨rfl, rfl⟩ := List.cons.inj heq
    rw [hhere]
    dsimp only
    rw [hquote]
    split
    · rename_i heq
      cases heq
    · rename_i heq
      obtain ⟨-, rfl⟩ := List.cons.inj heq
      rw [readKey_quoted]
      show (readValue fuel depth cs >>= _) = _
      rw [hv]
      show (readMembers fuel depth false cs₁ >>= _) = _
      rw [hms]
      rfl
    · rename_i hno
      exact absurd rfl (hno _)

/-- A value that starts with a bracket is a list. -/
theorem readValue_arr {xs : List Json} (h : readItems fuel depth true cs = .ok (xs, rest)) :
    readValue (fuel + 1) (depth + 1) ('[' :: cs) = .ok (.arr xs, rest) := by
  rw [readValue.eq_def]
  show (readItems fuel depth true cs >>= _) = _
  rw [h]
  rfl

/-- A value that starts with a brace is an object. -/
theorem readValue_obj {ms : List (String × Json)}
    (h : readMembers fuel depth true cs = .ok (ms, rest)) :
    readValue (fuel + 1) (depth + 1) ('\x7b' :: cs) = .ok (.obj ms, rest) := by
  rw [readValue.eq_def]
  show (readMembers fuel depth true cs >>= _) = _
  rw [h]
  rfl

/-- Any other value is a scalar. -/
theorem readValue_scalar (hc : opens c = true) (harr : c ≠ '[') (hobj : c ≠ '\x7b') :
    readValue (fuel + 1) depth (c :: cs) = readScalar c cs := by
  rw [readValue.eq_def]
  dsimp only
  rw [skipBlanks_of_opens hc]
  split
  · rename_i heq
    cases heq
  · rename_i heq
    exact absurd (List.cons.inj heq).1 harr
  · rename_i heq
    exact absurd (List.cons.inj heq).1 hobj
  · rename_i heq
    obtain ⟨rfl, rfl⟩ := List.cons.inj heq
    rfl

end Front

/-! ## All values -/

/-- Texts with commas between them, and one in front unless they are the first. -/
def joined : Bool → List (List Char) → List Char
  | _, [] => []
  | first, t :: ts => lead first ++ (t ++ joined false ts)

/-- Writing between commas is joining, with nothing in front of the first. -/
theorem commas_eq_joined : ∀ ts : List (List Char), commas ts = joined true ts
  | [] => rfl
  | [t] => (List.append_nil t).symm
  | t :: t' :: ts => by
    rw [commas, commas_eq_joined (t' :: ts)]
    rfl

/-- Behind a value in a container comes a comma or the closing character, and either ends a number.
-/
theorem endsNumber_joined (ts : List (List Char)) {close : Char}
    (h : endsNumber [close] = true) (rest : List Char) :
    endsNumber (joined false ts ++ close :: rest) = true := by
  cases ts with
  | nil => exact h
  | cons t ts => rfl

mutual

/-- **The text of a value is read back**, with two steps for each character. -/
theorem readValue_chars : ∀ (j : Json) {fuel d : Nat} {rest : List Char}, j.isWhole = true →
    j.depth ≤ d → 2 * j.chars.length ≤ fuel → endsNumber rest = true →
    readValue fuel d (j.chars ++ rest) = .ok (j, rest)
  | .null, fuel + 1, _, _, _, _, _, _ => readValue_scalar rfl (by decide) (by decide)
  | .bool true, fuel + 1, _, _, _, _, _, _ => readValue_scalar rfl (by decide) (by decide)
  | .bool false, fuel + 1, _, _, _, _, _, _ => readValue_scalar rfl (by decide) (by decide)
  | .str s, fuel + 1, _, rest, _, _, _, _ => by
    rw [chars, quote_append]
    exact (readValue_scalar rfl (by decide) (by decide)).trans (readScalar_text s)
  | .int n, 0, _, _, _, _, hfuel, _ => by
    obtain ⟨c, cs, hcs, -⟩ := Text.ofInt_head n
    rw [chars, hcs] at hfuel
    cases hfuel
  | .int n, fuel + 1, _, rest, hwhole, _, _, hrest => by
    rw [isWhole, Bool.and_eq_true, decide_eq_true_eq, decide_eq_true_eq] at hwhole
    obtain ⟨c, cs, hcs, hc⟩ := Text.ofInt_head n
    -- an integer begins with neither bracket nor brace
    have hother : ∀ x, Text.startsInteger x = false → c ≠ x := by
      rintro x hx rfl
      rw [hc] at hx
      cases hx
    rw [chars, hcs, List.cons_append,
      readValue_scalar (opens_of_startsInteger hc) (hother _ rfl) (hother _ rfl)]
    exact readScalar_int hwhole.1 hwhole.2 hrest hcs
  | .arr xs, fuel + 1, d + 1, rest, hwhole, hdepth, hfuel, _ => by
    rw [chars, commas_eq_joined, List.length_cons, List.length_append] at hfuel
    rw [chars, commas_eq_joined, List.cons_append, List.append_assoc]
    exact readValue_arr (readItems_joined xs true hwhole (Nat.le_of_succ_le_succ hdepth)
      (by omega))
  | .obj ms, fuel + 1, d + 1, rest, hwhole, hdepth, hfuel, _ => by
    rw [chars, commas_eq_joined, List.length_cons, List.length_append] at hfuel
    rw [chars, commas_eq_joined, List.cons_append, List.append_assoc]
    exact readValue_obj (readMembers_joined ms true hwhole (Nat.le_of_succ_le_succ hdepth)
      (by omega))

/-- The items of a list are read back up to its bracket.  Two units of fuel for a character suffice:
one for its item and one for the loop. -/
theorem readItems_joined : ∀ (xs : List Json) (first : Bool) {fuel d : Nat} {rest : List Char},
    areWhole xs = true → itemsDepth xs ≤ d →
    2 * (joined first (itemChars xs)).length + 1 ≤ fuel →
    readItems fuel d first (joined first (itemChars xs) ++ ']' :: rest) = .ok (xs, rest)
  | [], first, fuel + 1, d, rest, _, _, _ => by
    rw [readItems.eq_def]
    rfl
  | x :: xs, first, fuel + 1, d, rest, hwhole, hdepth, hfuel => by
    rw [areWhole, Bool.and_eq_true] at hwhole
    obtain ⟨hx, hxs⟩ := hwhole
    obtain ⟨c, cs, hcs, hc⟩ := chars_head x hx
    rw [itemChars, joined, List.length_append, List.length_append] at hfuel
    have hpos : 0 < x.chars.length := by
      rw [hcs]
      exact Nat.succ_pos _
    have hvalue : readValue fuel d (x.chars ++ (joined false (itemChars xs) ++ ']' :: rest))
        = .ok (x, _) :=
      readValue_chars x hx (Nat.le_trans (Nat.le_max_left _ _) hdepth) (by omega)
        (endsNumber_joined _ rfl rest)
    have hitems : readItems fuel d false (joined false (itemChars xs) ++ ']' :: rest)
        = .ok (xs, rest) :=
      readItems_joined xs false hxs (Nat.le_trans (Nat.le_max_right _ _) hdepth) (by omega)
    rw [itemChars, joined, List.append_assoc, List.append_assoc]
    rw [hcs, List.cons_append] at hvalue ⊢
    exact readItems_item first hc hvalue hitems

/-- The members of an object are read back up to its brace. -/
theorem readMembers_joined : ∀ (ms : List (String × Json)) (first : Bool) {fuel d : Nat}
    {rest : List Char}, membersAreWhole ms = true → membersDepth ms ≤ d →
    2 * (joined first (memberChars ms)).length + 1 ≤ fuel →
    readMembers fuel d first (joined first (memberChars ms) ++ '\x7d' :: rest) = .ok (ms, rest)
  | [], first, fuel + 1, d, rest, _, _, _ => by
    rw [readMembers.eq_def]
    rfl
  | (k, v) :: ms, first, fuel + 1, d, rest, hwhole, hdepth, hfuel => by
    rw [membersAreWhole, Bool.and_eq_true] at hwhole
    obtain ⟨hv, hms⟩ := hwhole
    rw [memberChars, joined, List.length_append, List.length_append, List.length_append,
      List.length_cons] at hfuel
    have hvalue : readValue fuel d (v.chars ++ (joined false (memberChars ms) ++ '\x7d' :: rest))
        = .ok (v, _) :=
      readValue_chars v hv (Nat.le_trans (Nat.le_max_left _ _) hdepth) (by omega)
        (endsNumber_joined _ rfl rest)
    have hmembers : readMembers fuel d false (joined false (memberChars ms) ++ '\x7d' :: rest)
        = .ok (ms, rest) :=
      readMembers_joined ms false hms (Nat.le_trans (Nat.le_max_right _ _) hdepth) (by omega)
    rw [memberChars, joined, List.append_assoc, List.append_assoc, List.append_assoc,
      List.cons_append]
    exact readMembers_member first k hvalue hmembers

end

/-! ## Whole texts -/

/-- **What is written is read back.**  Whatever is made of the value is made of its text. -/
theorem readAs_compact {α : Type} {shape : Json → Option α} {j : Json} {a : α}
    (hwhole : j.isWhole = true) (hdepth : j.depth ≤ maxDepth) (hshape : shape j = some a) :
    readAs shape j.compact = .ok a := by
  have hfuel : 2 * j.chars.length ≤ steps j.chars := by
    rw [steps]
    omega
  have hread : readFront j.compact.toList = .ok (j, []) := by
    have hfront := readValue_chars j hwhole hdepth hfuel (show endsNumber [] = true from rfl)
    rw [List.append_nil] at hfront
    rw [compact, String.toList_ofList]
    exact hfront
  simp only [readAs, hread, bind, Except.bind, hshape]
  rfl

end DocQuery.Json
