/-
  Sort keys, however they are written.

  One list of sort keys has many texts: white space may stand around every field, direction and
  entry, a direction may be in any case, or be left out if it is ascending, and between the commas
  there may be nothing at all.  `Writes` says which texts these are, without cutting or trimming
  anything.  They are the texts that are read as the list.

  The reader cuts at commas, trims, cuts at the first colon, and trims again.  A relation that did
  the same would say nothing, so `Writes` puts white space on where the reader takes it off.  The
  two meet in `trimChars_eq_iff`, a law of trimming that holds of every text.  That a text is read
  only if it is written so needs the other direction as well: the pieces that a cut leaves have no
  separator in them, and put together again they are the text.

  1. `Text.Padded` and `Text.Tight`: white space around something, and none at its ends;
     `trimChars_eq_iff`: trimming undoes the padding;
  2. `SortKey.Written`: the entries of a key, and `ofEntry_ok_iff`: what is read as the key;
  3. `SortKey.Writes`: entries between commas, and `ofText_iff_writes`: what reads as the list;
  4. `SortKey.print`: one of the texts.
-/
import DocQuery.Proofs.Printing
import Mathlib.Data.List.DropRight

namespace DocQuery

/-! ## White space around something -/

namespace Text

/-- White space and nothing else. -/
def Blank (cs : List Char) : Prop :=
  ∀ c ∈ cs, isWhite c = true

/-- Something with white space around it. -/
def Padded (core cs : List Char) : Prop :=
  ∃ before behind, cs = before ++ (core ++ behind) ∧ Blank before ∧ Blank behind

/-- No white space at either end. -/
structure Tight (cs : List Char) : Prop where
  first : ∀ c ∈ cs.head?, isWhite c = false
  last : ∀ c ∈ cs.getLast?, isWhite c = false

instance : DecidablePred Blank :=
  fun cs => List.decidableBAll (isWhite · = true) cs

instance : DecidablePred Tight :=
  fun cs =>
    have := Option.decidableForallMem (p := (isWhite · = false)) cs.head?
    have := Option.decidableForallMem (p := (isWhite · = false)) cs.getLast?
    decidable_of_iff' _ ⟨fun h => And.intro h.first h.last, fun h => ⟨h.1, h.2⟩⟩

variable {core cs ds : List Char}

theorem Blank.append (h : Blank cs) (h' : Blank ds) : Blank (cs ++ ds) :=
  List.forall_mem_append.mpr ⟨h, h'⟩

theorem Blank.not_mem (h : Blank cs) {c : Char} (hc : isWhite c = false) : c ∉ cs := by
  intro hmem
  rw [h c hmem] at hc
  cases hc

/-- White space around something adds no other characters to it. -/
theorem Padded.mem_iff (h : Padded core cs) {c : Char} (hc : isWhite c = false) :
    c ∈ cs ↔ c ∈ core := by
  obtain ⟨before, behind, rfl, hbefore, hbehind⟩ := h
  simp [hbefore.not_mem hc, hbehind.not_mem hc]

theorem Padded.refl (cs : List Char) : Padded cs cs :=
  ⟨[], [], (List.append_nil cs).symm, nofun, nofun⟩

/-- More white space in front. -/
theorem Padded.behind (h : Padded core cs) (hds : Blank ds) : Padded core (ds ++ cs) := by
  obtain ⟨before, behind, rfl, hbefore, hbehind⟩ := h
  exact ⟨ds ++ before, behind, (List.append_assoc ds _ _).symm, hds.append hbefore, hbehind⟩

/-- More white space at the end. -/
theorem Padded.before (h : Padded core cs) (hds : Blank ds) : Padded core (cs ++ ds) := by
  obtain ⟨before, behind, rfl, hbefore, hbehind⟩ := h
  refine ⟨before, behind ++ ds, ?_, hbefore, hbehind.append hds⟩
  rw [List.append_assoc, List.append_assoc]

/-- Trimming takes off white space and no more, so what is left stands in the text between white
space. -/
theorem padded_trimChars (cs : List Char) : Padded (trimChars cs) cs := by
  have htrim : trimChars cs = (cs.dropWhile isWhite).rdropWhile isWhite := rfl
  refine ⟨cs.takeWhile isWhite, (cs.dropWhile isWhite).rtakeWhile isWhite, ?_,
    fun c hc => List.mem_takeWhile_imp hc, fun c hc => List.mem_rtakeWhile_imp hc⟩
  rw [htrim, List.rdropWhile_append_rtakeWhile, List.takeWhile_append_dropWhile]

/-- What is left of white space being dropped in front begins with something else. -/
theorem head_dropWhile {c : Char} (h : (cs.dropWhile isWhite).head? = some c) :
    isWhite c = false := by
  have hnot := List.head?_dropWhile_not isWhite cs
  rw [h] at hnot
  exact hnot

/-- Behind trimming there is no white space at either end. -/
theorem tight_trimChars (cs : List Char) : Tight (trimChars cs) := by
  refine ⟨fun c hc => ?_, fun c hc => ?_⟩
  · -- what is dropped at the end leaves the first character
    obtain ⟨rest, hrest⟩ := List.rdropWhile_prefix isWhite (cs.dropWhile isWhite)
    have hfirst : (cs.dropWhile isWhite).head? = some c := by
      rw [← hrest, List.head?_append, show (List.rdropWhile isWhite _).head? = some c from hc]
      rfl
    exact head_dropWhile hfirst
  · rw [trimChars, List.getLast?_reverse] at hc
    exact head_dropWhile hc

/-- Leading white space is dropped up to something that does not begin with any. -/
theorem dropWhile_blank (hds : Blank ds) (hcs : ∀ c, cs.head? = some c → isWhite c = false) :
    (ds ++ cs).dropWhile isWhite = cs := by
  rw [List.dropWhile_append_of_pos hds]
  cases cs with
  | nil => rfl
  | cons c cs => exact List.dropWhile_cons_of_neg (Bool.eq_false_iff.mp (hcs c rfl))

theorem trimChars_blank (h : Blank cs) : trimChars cs = [] := by
  rw [trimChars, List.dropWhile_eq_nil_iff.mpr h]
  rfl

/-- **Trimming takes away the padding**, all of it and nothing else. -/
theorem trimChars_eq_iff : trimChars cs = core ↔ Padded core cs ∧ Tight core := by
  constructor
  · rintro rfl
    exact ⟨padded_trimChars cs, tight_trimChars cs⟩
  · rintro ⟨⟨before, behind, rfl, hbefore, hbehind⟩, htight⟩
    cases core with
    | nil => exact trimChars_blank (hbefore.append hbehind)
    | cons c core =>
      have hfirst : ∀ x, (c :: core ++ behind).head? = some x → isWhite x = false :=
        fun x hx => htight.first x hx
      have hblank : Blank behind.reverse := fun x hx => hbehind x (List.mem_reverse.mp hx)
      have hlast : ∀ x, (c :: core).reverse.head? = some x → isWhite x = false := by
        intro x hx
        rw [List.head?_reverse] at hx
        exact htight.last x hx
      rw [trimChars, dropWhile_blank hbefore hfirst, List.reverse_append,
        dropWhile_blank hblank hlast, List.reverse_reverse]

/-- What stands between does not matter to the ends. -/
theorem Tight.around (h : Tight cs) (h' : Tight ds) (hcs : cs ≠ []) (hds : ds ≠ [])
    (between : List Char) : Tight (cs ++ (between ++ ds)) := by
  refine ⟨fun c hc => h.first c ?_, fun c hc => h'.last c ?_⟩
  · rwa [List.head?_append_of_ne_nil _ hcs] at hc
  · rwa [List.getLast?_append_of_ne_nil _ (List.append_ne_nil_of_right_ne_nil _ hds),
      List.getLast?_append_of_ne_nil _ hds] at hc

/-- Trimming leaves nothing exactly if there was nothing but white space. -/
theorem trimChars_eq_nil_iff : trimChars cs = [] ↔ Blank cs := by
  refine ⟨fun h => ?_, trimChars_blank⟩
  obtain ⟨before, behind, rfl, hbefore, hbehind⟩ := (trimChars_eq_iff.mp h).1
  exact hbefore.append hbehind

/-! ## Cutting and joining -/

/-- Cutting at separators is that of the library. -/
theorem pieces_eq_splitOnP (cut : Char → Bool) (cs : List Char) :
    pieces cut cs = cs.splitOnP cut := by
  induction cs with
  | nil => rfl
  | cons c cs ih =>
    rw [pieces, List.splitOnP_cons_eq_if_modifyHead, ih]
    split
    · rfl
    · cases h : cs.splitOnP cut with
      | nil => exact absurd h (List.splitOnP_ne_nil cut cs)
      | cons p ps => rfl

/-- There are no separators within what is cut out. -/
theorem cut_of_mem_pieces {cut : Char → Bool} {cs : List Char} :
    ∀ p ∈ pieces cut cs, ∀ c ∈ p, cut c = false := by
  induction cs with
  | nil => exact List.forall_mem_singleton.mpr nofun
  | cons c cs ih =>
    rw [pieces]
    split
    · exact List.forall_mem_cons.mpr ⟨nofun, ih⟩
    · rename_i hc
      have hc : cut c = false := Bool.eq_false_iff.mpr hc
      cases hpieces : pieces cut cs with
      | nil => exact List.forall_mem_singleton.mpr (List.forall_mem_singleton.mpr hc)
      | cons p ps =>
        rw [hpieces] at ih
        obtain ⟨hp, hps⟩ := List.forall_mem_cons.mp ih
        exact List.forall_mem_cons.mpr ⟨List.forall_mem_cons.mpr ⟨hc, hp⟩, hps⟩

/-- Joining texts is that of the library. -/
theorem toList_join (sep : String) (ss : List String) :
    (join sep ss).toList = sep.toList.intercalate (ss.map String.toList) := by
  induction ss with
  | nil => rfl
  | cons s ss ih =>
    cases ss with
    | nil => simp [join]
    | cons t ss =>
      rw [join, String.toList_append, String.toList_append, ih]
      simp

end Text

/-! ## One key -/

/-- A word of a query consists of word characters. -/
theorem Dialect.IsWord.isWordChar {cs : List Char} (h : IsWord cs) :
    ∀ c ∈ cs, Text.isWordChar c = true := by
  cases cs with
  | nil => exact h.elim
  | cons c cs =>
    obtain ⟨hc, hcs⟩ := h
    refine List.forall_mem_cons.mpr ⟨?_, hcs⟩
    rw [Text.isWordChar, Bool.or_right_comm, hc, Bool.true_or]

/-- The word of a direction. -/
def Direction.word : Direction → String
  | ascending => "asc"
  | descending => "desc"

namespace SortKey

/-- A field that can be named in a list of keys: there is something to it, without white space at
its ends, and nothing that separates. -/
structure Nameable (field : String) : Prop where
  nonempty : field ≠ ""
  tight : Text.Tight field.toList
  commaless : ',' ∉ field.toList
  colonless : ':' ∉ field.toList

instance : DecidablePred Nameable :=
  fun _ => decidable_of_iff' _
    ⟨fun h => And.intro h.nonempty (And.intro h.tight (And.intro h.commaless h.colonless)),
      fun h => ⟨h.1, h.2.1, h.2.2.1, h.2.2.2⟩⟩

/-- The entries of a key: its field, and behind a colon its direction in any case; nothing need be
said of what is ascending. -/
inductive Written : SortKey → List Char → Prop
  | plain {field : String} {entry : List Char} (h : Text.Padded field.toList entry) :
      Written ⟨field, .ascending⟩ entry
  | directed {field word : String} {direction : Direction} {left right : List Char}
      (hfield : Text.Padded field.toList left) (hword : Text.Padded word.toList right)
      (hsame : Text.sameWord word direction.word = true) :
      Written ⟨field, direction⟩ (left ++ ':' :: right)

variable {key : SortKey} {keys : List SortKey} {entry left rest : List Char}

/-- A direction is read from its word in any letter case, and from nothing else. -/
theorem directionOf_ok_iff {word : String} {d : Direction} :
    directionOf word = .ok d ↔ Text.sameWord word d.word = true := by
  have hlower : Text.sameWord word d.word = true ↔ Text.lower word = d.word := by
    rw [Text.sameWord, beq_iff_eq]
    cases d <;> rfl
  rw [hlower, directionOf]
  split
  · rename_i h
    rw [h]
    cases d <;> decide
  · rename_i h
    rw [h]
    cases d <;> decide
  · rename_i hasc hdesc
    refine iff_of_false (fun h => by cases h) ?_
    cases d with
    | ascending => exact hasc
    | descending => exact hdesc

/-- The word of a direction is written in letters. -/
theorem word_of_sameWord {word : String} {d : Direction}
    (h : Text.sameWord word d.word = true) :
    word.toList ≠ [] ∧ Text.Tight word.toList ∧ ',' ∉ word.toList := by
  have hdirection : Dialect.IsWord d.word.toList := by cases d <;> decide
  have hword : Dialect.IsWord word.toList := by
    refine Dialect.isWord_of_sameWord hdirection ?_
    rw [String.ofList_toList]
    exact h
  have hchars : ∀ c ∈ word.toList, Text.isWordChar c = true := hword.isWordChar
  have hwhite : ∀ c ∈ word.toList, Text.isWhite c = false :=
    fun c hc => Text.isWhite_of_isWordChar (hchars c hc)
  refine ⟨?_, ⟨fun c hc => hwhite c (List.mem_of_head? hc),
    fun c hc => hwhite c (List.mem_of_getLast? hc)⟩, fun hcomma => ?_⟩
  · intro hnil
    rw [hnil] at hword
    exact hword
  · have hnot := hchars _ hcomma
    revert hnot
    decide

theorem trim_ofList (cs : List Char) :
    Text.trim (String.ofList cs) = String.ofList (Text.trimChars cs) := by
  rw [Text.trim, String.toList_ofList]

/-- The word behind a field; what is ascending need not be said so. -/
def said : List Char → String
  | [] => "asc"
  | _ :: cs => Text.trim (String.ofList cs)

/-- **What is read as a key**: a field that is not empty, up to the first colon, and the direction
behind it. -/
theorem ofEntry_ok_iff (hleft : ':' ∉ left) (hrest : ∀ c, rest.head? = some c → c = ':') :
    ofEntry (left ++ rest) = .ok key ↔ key.field ≠ ""
      ∧ key.field = String.ofList (Text.trimChars left)
      ∧ Text.sameWord (said rest) key.direction.word = true := by
  have hall : ∀ c ∈ left, decide (c ≠ ':') = true :=
    fun c hc => decide_eq_true fun heq => hleft (heq ▸ hc)
  have htake : (left ++ rest).takeWhile (· ≠ ':') = left := by
    rw [List.takeWhile_append_of_pos hall]
    cases rest with
    | nil => exact List.append_nil left
    | cons c d =>
      rw [hrest c rfl, List.takeWhile_cons_of_neg (by decide), List.append_nil]
  have hdrop : (left ++ rest).dropWhile (· ≠ ':') = rest := by
    rw [List.dropWhile_append_of_pos hall]
    cases rest with
    | nil => rfl
    | cons c d => rw [hrest c rfl, List.dropWhile_cons_of_neg (by decide)]
  -- so the field is in `left`, and the direction behind the colon if there is one
  have hread : ofEntry (left ++ rest) = if (String.ofList (Text.trimChars left)).isEmpty
      then .error (.emptySortField (String.ofList (left ++ rest)))
      else (directionOf (said rest)).map (SortKey.mk (String.ofList (Text.trimChars left))) := by
    have hmap : ∀ r : Except ArgumentFault Direction,
        (do
          let direction ← r
          Except.ok ⟨String.ofList (Text.trimChars left), direction⟩)
        = r.map (SortKey.mk (String.ofList (Text.trimChars left))) := by
      intro r
      cases r <;> rfl
    rw [ofEntry, htake, hdrop, trim_ofList, ← hmap]
    cases rest <;> rfl
  rw [hread, ← directionOf_ok_iff]
  split
  · rename_i hempty
    refine iff_of_false nofun ?_
    rintro ⟨hne, hfield, -⟩
    exact hne (hfield.trans (String.isEmpty_iff.mp hempty))
  · rename_i hne
    constructor
    · intro h
      obtain ⟨d, hd, rfl⟩ := ok_of_map h
      exact ⟨fun hempty => hne (String.isEmpty_iff.mpr hempty), rfl, hd⟩
    · rintro ⟨-, hfield, hdirection⟩
      rw [hdirection, ← hfield]
      rfl

/-- An entry of a key is read as the key. -/
theorem ofEntry_of_written (h : Written key entry) (hkey : Nameable key.field) :
    ofEntry (Text.trimChars entry) = .ok key := by
  cases h with
  | @plain field entry hpadded =>
    have htrim : Text.trimChars entry = field.toList :=
      Text.trimChars_eq_iff.mpr ⟨hpadded, hkey.tight⟩
    have hself : Text.trimChars field.toList = field.toList :=
      Text.trimChars_eq_iff.mpr ⟨.refl _, hkey.tight⟩
    rw [htrim, ← List.append_nil field.toList, ofEntry_ok_iff hkey.colonless (by simp), hself,
      String.ofList_toList]
    exact ⟨hkey.nonempty, rfl, (by decide : Text.sameWord "asc" "asc" = true)⟩
  | @directed field word d left right hfield hword hsame =>
    obtain ⟨outer, inner, rfl, houter, hinner⟩ := hfield
    obtain ⟨inner', outer', rfl, hinner', houter'⟩ := hword
    obtain ⟨hne, htight, -⟩ := word_of_sameWord hsame
    have hfields : field.toList ≠ [] := fun hnil => hkey.nonempty (String.toList_eq_nil_iff.mp hnil)
    -- the white space at the ends goes first, that around the colon is trimmed from the pieces
    have htrim : Text.trimChars (outer ++ (field.toList ++ inner)
        ++ ':' :: (inner' ++ (word.toList ++ outer')))
        = field.toList ++ inner ++ ':' :: (inner' ++ word.toList) := by
      refine Text.trimChars_eq_iff.mpr ⟨⟨outer, outer', by simp, houter, houter'⟩, ?_⟩
      have haround := hkey.tight.around htight hfields hne (inner ++ ':' :: inner')
      simpa using haround
    have hleft : Text.trimChars (field.toList ++ inner) = field.toList :=
      Text.trimChars_eq_iff.mpr ⟨(Text.Padded.refl _).before hinner, hkey.tight⟩
    have hright : Text.trimChars (inner' ++ word.toList) = word.toList :=
      Text.trimChars_eq_iff.mpr ⟨(Text.Padded.refl _).behind hinner', htight⟩
    have hcolon : ':' ∉ field.toList ++ inner := by
      rw [List.mem_append]
      rintro (h | h)
      · exact hkey.colonless h
      · exact hinner.not_mem (by decide) h
    have hfirst : ∀ c, (':' :: (inner' ++ word.toList)).head? = some c → c = ':' :=
      fun c hc => (Option.some.inj hc).symm
    rw [htrim, ofEntry_ok_iff hcolon hfirst, hleft, String.ofList_toList, said, trim_ofList,
      hright, String.ofList_toList]
    exact ⟨hkey.nonempty, rfl, hsame⟩

/-- What is read as a key is an entry of it, and its field can be named. -/
theorem written_of_ofEntry (h : ofEntry (Text.trimChars entry) = .ok key) (hcomma : ',' ∉ entry) :
    Written key entry ∧ Nameable key.field := by
  have hcomma' : ',' ∉ Text.trimChars entry :=
    fun hmem => hcomma (((Text.padded_trimChars entry).mem_iff (by decide)).mpr hmem)
  -- the entry up to the first colon, and what is left
  obtain ⟨left, rest, hparts, hleft, hrest⟩ : ∃ left rest, Text.trimChars entry = left ++ rest
      ∧ ':' ∉ left ∧ ∀ c, rest.head? = some c → c = ':' := by
    by_cases hcolon : ':' ∈ Text.trimChars entry
    · obtain ⟨left, right, hparts, hleft⟩ := List.eq_append_cons_of_mem hcolon
      exact ⟨left, ':' :: right, hparts, hleft, fun c hc => (Option.some.inj hc).symm⟩
    · exact ⟨_, [], (List.append_nil _).symm, hcolon, nofun⟩
  rw [hparts] at h hcomma'
  obtain ⟨hne, hfield, hsame⟩ := (ofEntry_ok_iff hleft hrest).mp h
  have hchars : key.field.toList = Text.trimChars left := by rw [hfield, String.toList_ofList]
  have hmem : ∀ c, Text.isWhite c = false → c ∉ left → c ∉ key.field.toList := by
    intro c hc hnot hin
    rw [hchars] at hin
    exact hnot (((Text.padded_trimChars left).mem_iff hc).mpr hin)
  refine ⟨?_, hne, hchars ▸ Text.tight_trimChars left,
    hmem ',' (by decide) fun hin => hcomma' (List.mem_append_left _ hin),
    hmem ':' (by decide) hleft⟩
  obtain ⟨field, direction⟩ := key
  dsimp only at hchars hsame
  obtain ⟨outer, outer', hentry, houter, houter'⟩ := Text.padded_trimChars entry
  have hpadded : Text.Padded field.toList left := hchars ▸ Text.padded_trimChars left
  cases rest with
  | nil =>
    cases direction with
    | descending => exact absurd hsame (by decide)
    | ascending =>
      rw [hentry, hparts, List.append_nil]
      exact .plain ((hpadded.before houter').behind houter)
  | cons c right =>
    obtain rfl := hrest c rfl
    have hword : Text.Padded (Text.trim (String.ofList right)).toList right := by
      rw [trim_ofList, String.toList_ofList]
      exact Text.padded_trimChars right
    have hsplit : entry = outer ++ left ++ ':' :: (right ++ outer') := by
      rw [hentry, hparts]
      simp
    rw [hsplit]
    exact .directed (hpadded.behind houter) (hword.before houter') hsame

/-! ## All keys -/

/-- The entries of some keys, and blank ones anywhere between them. -/
inductive Listed : List SortKey → List (List Char) → Prop
  | nil : Listed [] []
  | blank {keys : List SortKey} {entry : List Char} {entries : List (List Char)}
      (h : Text.Blank entry) (hrest : Listed keys entries) : Listed keys (entry :: entries)
  | key {key : SortKey} {keys : List SortKey} {entry : List Char} {entries : List (List Char)}
      (h : Written key entry) (hrest : Listed keys entries) :
      Listed (key :: keys) (entry :: entries)

/-- A text writes a list of keys: their entries in order, and blank ones, with commas between. -/
def Writes (keys : List SortKey) (s : String) : Prop :=
  ∃ entries, Listed keys entries ∧ s.toList = [','].intercalate entries

variable {es : List (List Char)}

/-- The entries that are read, out of those between the commas. -/
theorem entries_eq (s : String) :
    entries s = ((s.toList.splitOn ',').map Text.trimChars).filter fun e => !e.isEmpty := by
  rw [entries, Text.pieces_eq_splitOnP, List.splitOn_eq_splitOnP]

/-- An entry whose field could be written has no comma in it, so the cut at commas leaves it whole.
-/
theorem commaless_of_written (h : Written key entry) (hkey : Nameable key.field) :
    ',' ∉ entry := by
  cases h with
  | plain hpadded =>
    rw [hpadded.mem_iff (by decide)]
    exact hkey.commaless
  | directed hfield hword hsame =>
    rw [List.mem_append, List.mem_cons, hfield.mem_iff (by decide), hword.mem_iff (by decide)]
    rintro (h | h | h)
    · exact hkey.commaless h
    · cases h
    · exact (word_of_sameWord hsame).2.2 h

theorem commaless_of_listed (h : Listed keys es) (hkeys : ∀ k ∈ keys, Nameable k.field) :
    ∀ e ∈ es, ',' ∉ e := by
  induction h with
  | nil => exact nofun
  | blank hblank _ ih =>
    exact List.forall_mem_cons.mpr ⟨hblank.not_mem (by decide), ih hkeys⟩
  | key hwritten _ ih =>
    obtain ⟨hkey, hrest⟩ := List.forall_mem_cons.mp hkeys
    exact List.forall_mem_cons.mpr ⟨commaless_of_written hwritten hkey, ih hrest⟩

/-- Entries of keys are read as the keys, and blank ones are passed over. -/
theorem mapM_of_listed (h : Listed keys es) (hkeys : ∀ k ∈ keys, Nameable k.field) :
    ((es.map Text.trimChars).filter fun e => !e.isEmpty).mapM ofEntry = .ok keys := by
  induction h with
  | nil => rfl
  | blank hblank _ ih =>
    rw [List.map_cons, Text.trimChars_blank hblank]
    exact ih hkeys
  | @key key keys entry entries hwritten _ ih =>
    obtain ⟨hkey, hrest⟩ := List.forall_mem_cons.mp hkeys
    have hread := ofEntry_of_written hwritten hkey
    have hne : Text.trimChars entry ≠ [] := by
      intro hnil
      rw [hnil] at hread
      cases hread
    rw [List.map_cons, List.filter_cons_of_pos (by simpa using hne)]
    exact mapM_cons_ok.mpr ⟨key, keys, hread, ih hrest, rfl⟩

/-- What is read as keys are entries of them, and blank ones. -/
theorem listed_of_mapM (hcomma : ∀ e ∈ es, ',' ∉ e)
    (h : ((es.map Text.trimChars).filter fun e => !e.isEmpty).mapM ofEntry = .ok keys) :
    Listed keys es ∧ ∀ k ∈ keys, Nameable k.field := by
  induction es generalizing keys with
  | nil =>
    obtain rfl : [] = keys := Except.ok.inj h
    exact ⟨.nil, nofun⟩
  | cons entry es ih =>
    obtain ⟨hentry, hes⟩ := List.forall_mem_cons.mp hcomma
    rw [List.map_cons] at h
    by_cases hnil : Text.trimChars entry = []
    · rw [hnil] at h
      obtain ⟨hlisted, hkeys⟩ := ih hes h
      exact ⟨.blank (Text.trimChars_eq_nil_iff.mp hnil) hlisted, hkeys⟩
    · rw [List.filter_cons_of_pos (by simpa using hnil)] at h
      obtain ⟨key, keys, hkey, hrest, rfl⟩ := mapM_cons_ok.mp h
      obtain ⟨hwritten, hnameable⟩ := written_of_ofEntry hkey hentry
      obtain ⟨hlisted, hkeys⟩ := ih hes hrest
      exact ⟨.key hwritten hlisted, List.forall_mem_cons.mpr ⟨hnameable, hkeys⟩⟩

/-- **A text is read as a list of keys exactly if it writes them**, and they have fields that can
be named. -/
theorem ofText_iff_writes {s : String} : ofText s = .ok keys
    ↔ Writes keys s ∧ ∀ k ∈ keys, Nameable k.field := by
  rw [ofText, entries_eq]
  constructor
  · intro h
    have hcomma : ∀ e ∈ s.toList.splitOn ',', ',' ∉ e := by
      intro e he hmem
      rw [List.splitOn_eq_splitOnP, ← Text.pieces_eq_splitOnP] at he
      cases Text.cut_of_mem_pieces e he ',' hmem
    obtain ⟨hlisted, hkeys⟩ := listed_of_mapM hcomma h
    exact ⟨⟨_, hlisted, (List.intercalate_splitOn ',').symm⟩, hkeys⟩
  · rintro ⟨⟨es, hlisted, hs⟩, hkeys⟩
    rw [hs]
    by_cases hes : es = []
    · subst hes
      cases hlisted
      rfl
    · rw [List.splitOn_intercalate ',' (commaless_of_listed hlisted hkeys) hes]
      exact mapM_of_listed hlisted hkeys

/-! ## Printing -/

/-- Keys with their directions, nothing but commas between them. -/
def print (keys : List SortKey) : String :=
  Text.join "," (keys.map fun k => k.field ++ ":" ++ k.direction.word)

/-- What is printed for some keys lists them, each with its direction spelled out. -/
theorem listed_print (keys : List SortKey) :
    Listed keys (keys.map fun k => (k.field ++ ":" ++ k.direction.word).toList) := by
  induction keys with
  | nil => exact .nil
  | cons k keys ih =>
    obtain ⟨field, direction⟩ := k
    refine .key ?_ ih
    show Written ⟨field, direction⟩ (field ++ ":" ++ direction.word).toList
    rw [String.toList_append, String.toList_append, List.append_assoc]
    exact .directed (.refl _) (.refl _) (by cases direction <;> decide)

/-- What is printed for some keys is one of the texts that write them. -/
theorem writes_print (keys : List SortKey) : Writes keys (print keys) := by
  refine ⟨_, listed_print keys, ?_⟩
  rw [print, Text.toList_join, List.map_map]
  rfl

/-- **Reading undoes writing.**  Keys whose fields can be named are read from every text that writes
them.  Whatever is read from a text are keys like that, which the text writes, and which are read
again from what is printed of them. -/
theorem ofText_undoes_writes :
    (∀ keys s, (∀ k ∈ keys, Nameable k.field) → Writes keys s → ofText s = .ok keys)
    ∧ ∀ s keys, ofText s = .ok keys → (∀ k ∈ keys, Nameable k.field) ∧ Writes keys s
      ∧ ofText (print keys) = .ok keys := by
  refine ⟨fun keys s hkeys hwrites => ofText_iff_writes.mpr ⟨hwrites, hkeys⟩, fun s keys h => ?_⟩
  obtain ⟨hwrites, hkeys⟩ := ofText_iff_writes.mp h
  exact ⟨hkeys, hwrites, ofText_iff_writes.mpr ⟨writes_print keys, hkeys⟩⟩

/-- By name downwards, then by shelf and by price. -/
def byName : List SortKey :=
  [⟨"name", .descending⟩, ⟨"top shelf", .ascending⟩, ⟨"price", .ascending⟩]

/-- White space of several kinds, two entries of nothing else, and directions in mixed case. -/
def loosely : String :=
  "\u3000name :\tdEsC ,,top shelf, \u00a0,price:ASC"

/-- What is written loosely is read, printed without a blank too many, and read again. -/
theorem ofText_undoes_writes_loosely :
    ofText loosely = .ok byName ∧ print byName = "name:desc,top shelf:asc,price:asc"
      ∧ ofText (print byName) = .ok byName := by
  have hkeys : ∀ k ∈ byName, Nameable k.field := by decide
  have hname : Written ⟨"name", .descending⟩ "\u3000name :\tdEsC ".toList :=
    @Written.directed "name" "dEsC" .descending "\u3000name ".toList "\tdEsC ".toList
      ⟨['\u3000'], [' '], rfl, by decide, by decide⟩ ⟨['\t'], [' '], rfl, by decide, by decide⟩
      (by decide)
  have hshelf : Written ⟨"top shelf", .ascending⟩ "top shelf".toList := .plain (.refl _)
  have hprice : Written ⟨"price", .ascending⟩ "price:ASC".toList :=
    @Written.directed "price" "ASC" .ascending "price".toList "ASC".toList (.refl _) (.refl _)
      (by decide)
  have hnothing : Text.Blank [] := by decide
  have hspace : Text.Blank " \u00a0".toList := by decide
  have hlisted := Listed.nil.key hprice |>.blank hspace |>.key hshelf |>.blank hnothing |>.key hname
  have hwrites : Writes byName loosely := ⟨_, hlisted, by decide⟩
  have hread := ofText_undoes_writes.1 byName loosely hkeys hwrites
  exact ⟨hread, by decide, (ofText_undoes_writes.2 loosely byName hread).2.2⟩

end SortKey

end DocQuery
