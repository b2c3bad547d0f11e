/-
  Records read straight from text.

  A reader of a shape is given the text of a value and whatever stands behind it.  What is written
  without blanks it gives back, and what it gives at all keeps to the bounds of its parts.

  There is no value in between: the record is filled while the text is read, as a derived reader
  would do it.  So the laws speak of a reader, a value that was written, and a rest that is left
  alone, and are put together along the shape of the record.  Only a number needs to know what
  follows, for digits behind it would be its own (`endsNumber`).

  1. `Reads`: a reader gives back what a value was written for; numbers, strings, lists, choices;
  2. `Fills`: the members of an object fill a record one after the other, and `reads_record`;
  3. `Keeps`: a reader of one field keeps a property of the record, and `readRecord_keeps`: so does
     the reader of the record, be it written as an object or as an array;
  4. `word64_le`: numbers that are read fit in 64 bits.
-/
import DocQuery.Page.Json
import DocQuery.Proofs.Outcome
import DocQuery.Proofs.Transcription

namespace DocQuery.Json

/-! ## What is written is read back -/

/-- A reader makes `a` of the text of `j`, and leaves what stands behind it. -/
def Reads {α : Type} (item : Reading α) (j : Json) (a : α) : Prop :=
  ∀ rest, endsNumber rest = true → item (j.chars ++ rest) = .ok (a, rest)

section Written

variable {α : Type} {rest : List Char}

/-- A number of 64 bits reads back as itself: the reader looks for a sign or a digit first, and
every numeral begins with one. -/
theorem reads_word64 {n : Nat} (h : n ≤ maxWord) : Reads readWord64 (.int n) n := by
  intro rest hrest
  obtain ⟨c, cs, hcs, hc⟩ := Text.ofInt_head n
  have hread := readScalar_int (Int.le_trans (by decide) (Int.natCast_nonneg n))
    (Int.ofNat_le.mpr h) hrest hcs
  have hsign : c = '-' ∨ Text.isDigit c = true := by
    rw [Text.startsInteger, Bool.or_eq_true, beq_iff_eq] at hc
    exact hc
  rw [chars, hcs, List.cons_append, readWord64, skipBlanks_of_opens (opens_of_startsInteger hc)]
  dsimp only
  rw [if_pos hsign, hread]
  dsimp only
  rw [if_pos (Int.natCast_nonneg n), Int.toNat_natCast]

/-- A string reads back as itself, escapes and all. -/
theorem reads_text (s : String) : Reads readText (.str s) s := by
  intro rest _
  rw [chars, quote_append]
  exact readString_quoted s

/-- A name with a meaning reads back as that meaning. -/
theorem reads_choice {names : Fields α} {name : String} {a : α} (h : names.get? name = some a) :
    Reads (readChoice names) (.str name) a := by
  intro rest _
  rw [chars, quote_append]
  show (readString _ >>= _) = _
  rw [readString_quoted]
  show (named names name >>= _) = _
  rw [named, h]
  rfl

/-- `null` is read as nothing, by any reader of something that may be missing. -/
theorem reads_null {item : Reading α} : Reads (readOptional item) .null none := by
  intro rest _
  rfl

/-- A string that may be missing is read as a string where it is there. -/
theorem reads_some (s : String) : Reads (readOptional readText) (.str s) (some s) := by
  intro rest hrest
  have hread := reads_text s rest hrest
  rw [chars, quote_append] at hread ⊢
  show (readText ('"' :: _) >>= _) = _
  rw [hread]
  rfl

/-! ## Lists -/

/-- An item is found behind its comma. -/
theorem nextEntry_lead {close c : Char} (hclose : close = ']' ∨ close = '\x7d') (first : Bool)
    (hc : opens c = true) (hne : c ≠ close) (cs : List Char) :
    nextEntry close first (lead first ++ c :: cs) = .ok (some (c :: cs)) := by
  have hskip := skipBlanks_of_opens hc cs
  have hcomma : ',' ≠ close := by rcases hclose with rfl | rfl <;> decide
  cases first with
  | true =>
    show nextEntry close true (c :: cs) = _
    rw [nextEntry, hskip]
    dsimp only
    rw [if_neg hne, if_pos rfl]
  | false =>
    have hfront : skipBlanks (',' :: c :: cs) = ',' :: c :: cs := rfl
    show nextEntry close false (',' :: c :: cs) = _
    rw [nextEntry, hfront]
    dsimp only
    rw [if_neg hcomma, if_neg Bool.false_ne_true, if_pos rfl, hskip]
    exact if_neg hne

/-- A closing character ends a list or an object, and the reader goes on behind it. -/
theorem nextEntry_close {close : Char} (hclose : close = ']' ∨ close = '\x7d') (first : Bool)
    (rest : List Char) :
    nextEntry close first (close :: rest) = .ok none ∧ behindClose (close :: rest) = rest := by
  rcases hclose with rfl | rfl <;> exact ⟨rfl, rfl⟩

/-- Items between commas, up to the closing bracket. -/
theorem readEntries_joined {item : Reading α} {js : List Json} {as : List α}
    (h : Paired (fun j a => j.isWhole = true ∧ Reads item j a) js as) :
    ∀ {fuel : Nat} (first : Bool), js.length < fuel →
      readEntries item fuel first (joined first (itemChars js) ++ ']' :: rest)
        = .ok (as, rest) := by
  induction h with
  | nil =>
    rintro (_ | fuel) first hfuel
    · cases hfuel
    · obtain ⟨hnone, hbehind⟩ := nextEntry_close (.inl rfl) first rest
      show readEntries item (fuel + 1) first (']' :: rest) = _
      rw [readEntries, hnone]
      show Except.ok ([], behindClose (']' :: rest)) = _
      rw [hbehind]
  | @cons j a js as hja _ ih =>
    rintro (_ | fuel) first hfuel
    · cases hfuel
    · obtain ⟨hwhole, hread⟩ := hja
      -- an item begins with no closing bracket, so the reader does not take it for the end
      obtain ⟨c, cs, hcs, hc⟩ := chars_head j hwhole
      have hne : c ≠ ']' := by
        rintro rfl
        cases hc
      have hitem : item (j.chars ++ (joined false (itemChars js) ++ ']' :: rest)) = .ok (a, _) :=
        hread _ (endsNumber_joined _ rfl rest)
      have hitems := ih false (Nat.lt_of_succ_lt_succ hfuel)
      rw [itemChars, joined, List.append_assoc, List.append_assoc]
      rw [hcs, List.cons_append] at hitem ⊢
      rw [readEntries, nextEntry_lead (.inl rfl) first hc hne]
      show (item _ >>= _) = _
      rw [hitem]
      show (readEntries item fuel false _ >>= _) = _
      rw [hitems]
      rfl

/-- Texts that are not empty take up a character each, so a fuel of as many units as there are
characters suffices to read them. -/
theorem length_le_joined (first : Bool) {ts : List (List Char)} (h : ∀ t ∈ ts, t ≠ []) :
    ts.length ≤ (joined first ts).length := by
  induction ts generalizing first with
  | nil => exact Nat.zero_le _
  | cons t ts ih =>
    obtain ⟨ht, hts⟩ := List.forall_mem_cons.mp h
    have hpos := List.length_pos_iff.mpr ht
    have := ih false hts
    rw [joined, List.length_append, List.length_append, List.length_cons]
    omega

theorem itemChars_eq (js : List Json) : itemChars js = js.map chars := by
  induction js with
  | nil => rfl
  | cons j js ih => rw [itemChars, ih, List.map_cons]

/-- Members are written as their quoted key, a colon and their value. -/
theorem memberChars_eq (ms : List (String × Json)) :
    memberChars ms = ms.map fun m => quote m.1 ++ ':' :: m.2.chars := by
  induction ms with
  | nil => rfl
  | cons m ms ih => rw [memberChars, ih, List.map_cons]

/-- A list reads back item by item, whatever the reader of an item is. -/
theorem reads_listOf {item : Reading α} {js : List Json} {as : List α}
    (h : Paired (fun j a => j.isWhole = true ∧ Reads item j a) js as) :
    Reads (readListOf item) (.arr js) as := by
  intro rest _
  have hlength : js.length ≤ (joined true (itemChars js)).length := by
    have htexts : ∀ t ∈ itemChars js, t ≠ [] := by
      intro t ht
      rw [itemChars_eq] at ht
      obtain ⟨j, hj, rfl⟩ := List.mem_map.mp ht
      obtain ⟨c, cs, hcs, -⟩ := chars_head j (h.forall_left (fun _ _ hja => hja.1) j hj)
      rw [hcs]
      exact List.cons_ne_nil c cs
    have hjoined := length_le_joined true htexts
    rwa [itemChars_eq, List.length_map, ← itemChars_eq] at hjoined
  rw [chars, commas_eq_joined, List.cons_append, List.append_assoc]
  show readEntries item (_ + 1) true _ = _
  refine readEntries_joined h true ?_
  rw [List.length_append]
  omega

end Written

/-! ## Records -/

/-- The members of an object fill a record: each has the name of a field that has not been met,
and the reader of that field takes the record on. -/
inductive Fills {σ : Type} (fields : Fields (σ → Reading σ)) :
    List String → σ → List (String × Json) → σ → Prop
  | done (seen s) : Fills fields seen s [] s
  | member {seen s s' s'' k j ms field} : fields.get? k = some field → seen.contains k = false →
      Reads (field s) j s' → Fills fields (k :: seen) s' ms s'' →
      Fills fields seen s ((k, j) :: ms) s''

section Records

variable {σ α : Type} {rest : List Char}

/-- A field that is put into a record reads back if its value does. -/
theorem reads_putting {item : Reading α} {put : σ → α → σ} {j : Json} {a : α} (s : σ)
    (h : Reads item j a) : Reads (putting item put s) j (put s a) := by
  intro rest hrest
  rw [putting, h rest hrest]
  rfl

/-- The members of an object, up to its closing brace. -/
theorem readFields_joined {fields : Fields (σ → Reading σ)} {seen : List String} {s s' : σ}
    {ms : List (String × Json)} (h : Fills fields seen s ms s') :
    ∀ {fuel : Nat} (first : Bool), ms.length < fuel →
      readFields fields fuel first seen s (joined first (memberChars ms) ++ '\x7d' :: rest)
        = .ok (s', rest) := by
  induction h with
  | done seen s =>
    rintro (_ | fuel) first hfuel
    · cases hfuel
    · obtain ⟨hnone, hbehind⟩ := nextEntry_close (.inr rfl) first rest
      show readFields fields (fuel + 1) first seen s ('\x7d' :: rest) = _
      rw [readFields, hnone]
      show Except.ok (s, behindClose ('\x7d' :: rest)) = _
      rw [hbehind]
  | @member seen s s' s'' k j ms field hfield hseen hread _ ih =>
    rintro (_ | fuel) first hfuel
    · cases hfuel
    · have hvalue : field s (j.chars ++ (joined false (memberChars ms) ++ '\x7d' :: rest))
          = .ok (s', _) := hread _ (endsNumber_joined _ rfl rest)
      have hmembers := ih false (Nat.lt_of_succ_lt_succ hfuel)
      rw [memberChars, joined, List.append_assoc, List.append_assoc, List.append_assoc,
        List.cons_append, quote_append, readFields,
        nextEntry_lead (.inr rfl) first rfl (by decide)]
      show (readString _ >>= _) = _
      rw [readString_quoted]
      -- the key is known and was not met before, so its reader takes the record on
      simp only [bind, Except.bind, hfield, hseen, Bool.false_eq_true, if_false]
      show (field s _ >>= _) = _
      rw [hvalue]
      exact hmembers

/-- A record is read back from an object that fills it. -/
theorem reads_record {shape : RecordShape σ} {start s : σ} {finish : σ → Option α} {a : α}
    {ms : List (String × Json)} (h : Fills shape.fields [] start ms s) (ha : finish s = some a) :
    Reads (readRecord shape start finish) (.obj ms) a := by
  intro rest _
  have hlength : ms.length ≤ (joined true (memberChars ms)).length := by
    have htexts : ∀ t ∈ memberChars ms, t ≠ [] := by
      intro t ht
      rw [memberChars_eq] at ht
      obtain ⟨m, -, rfl⟩ := List.mem_map.mp ht
      exact List.cons_ne_nil _ _
    have hjoined := length_le_joined true htexts
    rwa [memberChars_eq, List.length_map, ← memberChars_eq] at hjoined
  have hfields : readFields shape.fields
      ((joined true (memberChars ms) ++ '\x7d' :: rest).length + 1) true [] start
      (joined true (memberChars ms) ++ '\x7d' :: rest) = .ok (s, rest) := by
    refine readFields_joined h true ?_
    rw [List.length_append]
    omega
  rw [chars, commas_eq_joined, List.cons_append, List.append_assoc, readRecord]
  show (readFields shape.fields _ true [] start _ >>= _) = _
  rw [List.cons_append, List.nil_append, hfields]
  simp only [bind, Except.bind, ha]

/-- A whole text. -/
theorem readWhole_compact {item : Reading α} {j : Json} {a : α} (h : Reads item j a) :
    readWhole item j.compact = .ok a := by
  have hread := h [] rfl
  rw [List.append_nil] at hread
  rw [readWhole, compact, String.toList_ofList, hread]
  rfl

end Records

/-! ## Numbers that are read -/

section Bounds

variable {cs rest : List Char} {negative : Bool} {n : Nat}

/-- Spelling out `true`, `false` or `null` leads to the value asked for and to no other. -/
theorem readWord_value {α : Type} {word : List Char} {value a : α}
    (h : readWord word value cs = .ok (a, rest)) : a = value := by
  induction word generalizing cs with
  | nil => exact (Prod.mk.inj (Except.ok.inj h)).1.symm
  | cons w ws ih =>
    cases cs with
    | nil => cases h
    | cons c cs =>
      rw [readWord] at h
      dsimp only at h
      split at h
      · exact ih h
      · cases h

/-- Digits are gathered as long as the number fits in 64 bits, and no longer. -/
theorem gather_le (count : Nat) (h : n ≤ maxWord) : (gather n count cs).1 ≤ maxWord := by
  induction cs generalizing n count with
  | nil => exact h
  | cons c cs ih =>
    rw [gather]
    dsimp only
    split
    · split
      · rename_i hnext
        exact ih _ hnext
      · exact h
    · exact h

/-- A number that was scaled is a double. -/
theorem scaled_float {e : Int} {j : Json}
    (h : (scale n e >>= fun x => .ok (withSign negative x, cs)) = .ok (j, rest)) :
    ∃ x, j = .float x := by
  obtain ⟨x, -, h⟩ := ok_of_bind h
  exact ⟨_, (Prod.mk.inj (Except.ok.inj h)).1.symm⟩

/-- A number with a fraction or an exponent is no integer. -/
theorem readExponent_float {e : Int} {j : Json}
    (h : readExponent negative n e cs = .ok (j, rest)) : ∃ x, j = .float x := by
  unfold readExponent at h
  split at h
  rename_i down digits _
  cases digits with
  | nil => cases h
  | cons c ds =>
    dsimp only at h
    by_cases hdigit : (!Text.isDigit c) = true
    · rw [if_pos hdigit] at h
      cases h
    rw [if_neg hdigit] at h
    split at h
    · split at h
      · cases h
      · exact ⟨_, (Prod.mk.inj (Except.ok.inj h)).1.symm⟩
    · exact scaled_float h

/-- The part behind the digits of a fraction makes a double, exponent or not. -/
theorem readTail_float {e : Int} {j : Json}
    (h : readTail negative n e cs = .ok (j, rest)) : ∃ x, j = .float x := by
  unfold readTail at h
  split at h
  · split at h
    · exact readExponent_float h
    · exact scaled_float h
  · exact scaled_float h

/-- A number with a point in it reads as a double, however many digits stand behind the point. -/
theorem readFraction_float {e : Int} {j : Json}
    (h : readFraction negative n e cs = .ok (j, rest)) : ∃ x, j = .float x := by
  rw [readFraction] at h
  dsimp only at h
  split at h
  · split at h
    · exact readTail_float h
    · split at h
      · cases h
      · exact readTail_float h
  · split at h
    · cases h
    · exact readTail_float h

/-- An integer whose magnitude fits in 64 bits is at most the largest number that does, minus or
not. -/
theorem integer_le {m : Int} (hn : n ≤ maxWord) (h : integer negative n = .int m) :
    m ≤ maxWord := by
  rw [integer] at h
  split at h
  · obtain rfl := Json.int.inj h
    exact Int.ofNat_le.mpr hn
  · split at h
    · cases h
    · obtain rfl := Json.int.inj h
      omega

/-- An integer has the digits that were gathered, and no more. -/
theorem readPoint_le {extra : Nat} {m : Int} (hn : n ≤ maxWord)
    (h : readPoint negative n extra cs = .ok (.int m, rest)) : m ≤ maxWord := by
  unfold readPoint at h
  split at h
  · split at h
    · obtain ⟨x, hx⟩ := readFraction_float h
      cases hx
    · split at h
      · obtain ⟨x, hx⟩ := readExponent_float h
        cases hx
      · split at h
        · exact integer_le hn (Prod.mk.inj (Except.ok.inj h)).1
        · obtain ⟨x, hx⟩ := scaled_float h
          cases hx
  · split at h
    · exact integer_le hn (Prod.mk.inj (Except.ok.inj h)).1
    · obtain ⟨x, hx⟩ := scaled_float h
      cases hx

/-- A number that reads as an integer fits in 64 bits. -/
theorem readNumber_le {m : Int} (h : readNumber negative cs = .ok (.int m, rest)) :
    m ≤ maxWord := by
  unfold readNumber at h
  split at h
  · cases h
  · split at h
    · split at h
      · split at h
        · cases h
        · exact readPoint_le (Nat.zero_le _) h
      · exact readPoint_le (Nat.zero_le _) h
    · split at h
      · rename_i c cs _ _
        split at h
        rename_i s count left hgather
        have hfirst : Text.digitValue c ≤ maxWord :=
          calc Text.digitValue c ≤ c.toNat := Nat.sub_le _ _
            _ ≤ UInt32.size := Nat.le_of_lt c.val.toNat_lt
            _ ≤ maxWord := by decide
        have hs : s ≤ maxWord := by
          have : (gather (Text.digitValue c) 1 cs).1 ≤ maxWord := gather_le 1 hfirst
          rwa [hgather] at this
        exact readPoint_le hs h
      · cases h

/-- Of the scalars that are read, an integer fits in 64 bits. -/
theorem readScalar_le {c : Char} {m : Int} (h : readScalar c cs = .ok (.int m, rest)) :
    m ≤ maxWord := by
  unfold readScalar at h
  split at h
  · obtain ⟨x, -, h⟩ := ok_of_bind h
    cases (Prod.mk.inj (Except.ok.inj h)).1
  split at h
  · cases readWord_value h
  split at h
  · cases readWord_value h
  split at h
  · cases readWord_value h
  split at h
  · exact readNumber_le h
  split at h
  · exact readNumber_le h
  · cases h

theorem refuse_fails {α : Type} {a : α} : refuse cs ≠ .ok (a, rest) := by
  intro h
  unfold refuse at h
  repeat' split at h
  all_goals cases h

/-- **A number that is read fits in 64 bits.** -/
theorem word64_le (h : readWord64 cs = .ok (n, rest)) : n ≤ maxWord := by
  unfold readWord64 at h
  split at h
  · cases h
  · split at h
    · split at h
      · cases h
      · rename_i m _ hread
        split at h
        · have hle := readScalar_le hread
          have hn := (Prod.mk.inj (Except.ok.inj h)).1
          omega
        · cases h
      · cases h
    · exact absurd h refuse_fails

end Bounds

/-! ## What a record keeps -/

/-- The reader of a field keeps a property of the record. -/
def Keeps {σ : Type} (I : σ → Prop) (field : σ → Reading σ) : Prop :=
  ∀ s cs s' rest, I s → field s cs = .ok (s', rest) → I s'

section Keeping

variable {σ α : Type} {I : σ → Prop}

/-- A field keeps a property of the record if every value its reader gives may be put there. -/
theorem keeps_putting {item : Reading α} {put : σ → α → σ}
    (h : ∀ s a, I s → (∃ cs rest, item cs = .ok (a, rest)) → I (put s a)) :
    Keeps I (putting item put) := by
  intro s cs s' rest hs hread
  obtain ⟨⟨a, left⟩, ha, hput⟩ := ok_of_bind hread
  obtain ⟨rfl, -⟩ := Prod.mk.inj (Except.ok.inj hput)
  exact h s a hs ⟨cs, left, ha⟩

/-- Reading the members of an object keeps what each field keeps.  Induction on the fuel, with the
record read so far. -/
theorem readFields_keeps {fields : Fields (σ → Reading σ)}
    (hfields : ∀ k field, fields.get? k = some field → Keeps I field) :
    ∀ (fuel : Nat) (first : Bool) (seen : List String) (s : σ) (cs : List Char) {s' rest}, I s →
      readFields fields fuel first seen s cs = .ok (s', rest) → I s'
  | 0, _, _, _, _, _, _, _, h => by cases h
  | fuel + 1, first, seen, s, cs, s', rest, hs, h => by
    rw [readFields] at h
    obtain ⟨entry, -, h⟩ := ok_of_bind h
    cases entry with
    | none =>
      obtain ⟨rfl, -⟩ := Prod.mk.inj (Except.ok.inj h)
      exact hs
    | some cs =>
      obtain ⟨cs, -, h⟩ := ok_of_bind h
      obtain ⟨⟨key, cs⟩, -, h⟩ := ok_of_bind h
      dsimp only at h
      split at h
      · -- a field of an unknown name leaves the record alone
        obtain ⟨cs, -, h⟩ := ok_of_bind h
        obtain ⟨cs, -, h⟩ := ok_of_bind h
        exact readFields_keeps hfields fuel _ _ _ _ hs h
      · rename_i field hfield
        split at h
        · cases h
        · obtain ⟨cs, -, h⟩ := ok_of_bind h
          obtain ⟨⟨s₁, cs⟩, hread, h⟩ := ok_of_bind h
          exact readFields_keeps hfields fuel _ _ _ _ (hfields key field hfield _ _ _ _ hs hread) h

/-- Reading an array by position keeps what each field keeps, in the order in which the fields are
declared. -/
theorem readPositions_keeps {fields : List (String × (σ → Reading σ))}
    (hfields : ∀ f ∈ fields, Keeps I f.2) (required : Nat) (first : Bool) (s : σ) (cs : List Char)
    {s' : σ} {rest : List Char} (hs : I s)
    (h : readPositions fields required first s cs = .ok (s', rest)) : I s' := by
  induction fields generalizing required first s cs with
  | nil =>
    unfold readPositions at h
    repeat' split at h
    all_goals cases h
    exact hs
  | cons f fields ih =>
    obtain ⟨hf, hrest⟩ := List.forall_mem_cons.mp hfields
    rw [readPositions] at h
    obtain ⟨entry, -, h⟩ := ok_of_bind h
    cases entry with
    | none =>
      dsimp only at h
      split at h
      · obtain ⟨rfl, -⟩ := Prod.mk.inj (Except.ok.inj h)
        exact hs
      · cases h
    | some cs =>
      obtain ⟨⟨s₁, cs⟩, hread, h⟩ := ok_of_bind h
      exact ih hrest _ _ _ _ (hf _ _ _ _ hs hread) h

/-- **What its fields keep, a record keeps**, whether it is an object or an array. -/
theorem readRecord_keeps {shape : RecordShape σ} {start : σ} {finish : σ → Option α} {a : α}
    {cs rest : List Char} (hstart : I start) (hfields : ∀ f ∈ shape.fields, Keeps I f.2)
    (h : readRecord shape start finish cs = .ok (a, rest)) : ∃ s, I s ∧ finish s = some a := by
  have hknown : ∀ k field, shape.fields.get? k = some field → Keeps I field :=
    fun _ _ hfield => hfields _ (Fields.mem_of_get? hfield)
  rw [readRecord] at h
  split at h
  · cases h
  · obtain ⟨⟨s, left⟩, hread, h⟩ := ok_of_bind h
    refine ⟨s, readFields_keeps hknown _ _ _ _ _ hstart hread, ?_⟩
    dsimp only at h
    split at h
    · cases h
    · rename_i hfinish
      rw [hfinish, (Prod.mk.inj (Except.ok.inj h)).1]
  · obtain ⟨⟨s, left⟩, hread, h⟩ := ok_of_bind h
    refine ⟨s, readPositions_keeps hfields _ _ _ _ hstart hread, ?_⟩
    dsimp only at h
    split at h
    · cases h
    · rename_i hfinish
      rw [hfinish, (Prod.mk.inj (Except.ok.inj h)).1]
  · obtain ⟨_, hread, -⟩ := ok_of_bind h
    exact absurd hread refuse_fails

end Keeping

end DocQuery.Json
