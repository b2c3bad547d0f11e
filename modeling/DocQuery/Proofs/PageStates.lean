/-
  Page states survive the client.

  A client keeps the state between two requests as text and hands it back.  What is written for a
  state whose numbers fit in 64 bits is read as that state: the continuation and the fields to sort
  by may hold any characters, quotes and control characters among them.  And whatever text a state
  was read from, as an object or as an array, its numbers fit.

  The two directions go through different parts of the reader.  What is written is always an
  object, with its fields in one order, and is followed through member by member.  What is read
  may have the fields in any order, or none of their names at all, so there the argument is an
  invariant of the record that is being filled: each field that puts a number there has just read
  it, and a number that is read fits.

  1. `reads_sortKey`, `reads_sort`: sort keys;
  2. `reads_pageState`: states;
  3. `fits_of_ofText`: states that were read;
  4. `ofText_compact`: nothing is lost on the way.
-/
import DocQuery.Proofs.RecordText

namespace DocQuery

open Json (Fills Keeps Reads maxWord)

/-! ## Sort keys -/

/-- A direction is read by its name. -/
theorem Direction.get?_name (d : Direction) : Direction.names.get? d.name = some d := by
  cases d <;> rfl

/-- A sort key is read back from the object it is written as. -/
theorem reads_sortKey (k : SortKey) : Reads SortKey.read k.toJson k := by
  have hfills : Fills PartialSortKey.shape.fields [] {}
      [("field", .str k.field), ("order", .str k.direction.name)]
      ⟨some k.field, some k.direction⟩ :=
    .member rfl rfl (Json.reads_putting _ (Json.reads_text k.field)) <|
    .member rfl rfl (Json.reads_putting _ (Json.reads_choice k.direction.get?_name)) (.done _ _)
  exact Json.reads_record hfills rfl

theorem reads_sort (keys : List SortKey) : Reads readSort (sortToJson keys) keys := by
  have hpaired : Paired (fun j k => j.isWhole = true ∧ Reads SortKey.read j k)
      (keys.map SortKey.toJson) keys := by
    induction keys with
    | nil => exact .nil
    | cons k keys ih => exact .cons ⟨rfl, reads_sortKey k⟩ ih
  have hfills : Fills sortShape.fields [] none [("orders", .arr (keys.map SortKey.toJson))]
      (some keys) :=
    .member rfl rfl (Json.reads_putting none (Json.reads_listOf hpaired)) (.done _ _)
  exact Json.reads_record hfills rfl

/-! ## States -/

/-- The numbers of a state fit in 64 bits. -/
structure PageState.Fits (s : PageState) : Prop where
  number : s.number ≤ maxWord
  size : s.size ≤ maxWord
  offset : s.offset ≤ maxWord

/-- A continuation may be missing; it may hold any characters. -/
theorem reads_continuation (o : Option String) :
    Reads (Json.readOptional Json.readText) (optionToJson o) o := by
  cases o with
  | none => exact Json.reads_null
  | some s => exact Json.reads_some s

/-- **A state is read back from its object**, if its numbers fit in 64 bits. -/
theorem reads_pageState {s : PageState} (h : s.Fits) :
    Reads (Json.readRecord PartialPageState.shape {} PartialPageState.finish) s.toJson s := by
  have hfills : Fills PartialPageState.shape.fields [] {}
      [("page_number", .int s.number), ("size", .int s.size), ("offset", .int s.offset),
        ("continuation", optionToJson s.continuation), ("sort", sortToJson s.sort)]
      ⟨some s.number, some s.size, some s.offset, s.continuation, s.sort⟩ :=
    .member rfl rfl (Json.reads_putting _ (Json.reads_word64 h.number)) <|
    .member rfl rfl (Json.reads_putting _ (Json.reads_word64 h.size)) <|
    .member rfl rfl (Json.reads_putting _ (Json.reads_word64 h.offset)) <|
    .member rfl rfl (Json.reads_putting _ (reads_continuation s.continuation)) <|
    .member rfl rfl (Json.reads_putting _ (reads_sort s.sort)) (.done _ _)
  exact Json.reads_record hfills rfl

/-! ## States that were read -/

/-- The numbers that have been read fit in 64 bits. -/
structure PartialPageState.Fits (s : PartialPageState) : Prop where
  number : ∀ n ∈ s.number, n ≤ maxWord
  size : ∀ n ∈ s.size, n ≤ maxWord
  offset : ∀ n ∈ s.offset, n ≤ maxWord

/-- No field of a state that is read has a number that does not fit, in whichever order they come.
-/
theorem PartialPageState.fields_keep :
    ∀ f ∈ PartialPageState.shape.fields, Keeps PartialPageState.Fits f.2 := by
  -- a number that is put into the record has just been read
  have hput : ∀ {n m : Nat}, (∃ cs rest, Json.readWord64 cs = .ok (n, rest)) → m ∈ some n →
      m ≤ maxWord := by
    rintro n m ⟨cs, rest, hread⟩ ⟨⟩
    exact Json.word64_le hread
  simp only [shape, List.forall_mem_cons]
  refine ⟨?_, ?_, ?_, ?_, ?_, fun f hf => absurd hf List.not_mem_nil⟩
  · exact Json.keeps_putting fun s n hs hn => ⟨fun m => hput hn, hs.size, hs.offset⟩
  · exact Json.keeps_putting fun s n hs hn => ⟨hs.number, fun m => hput hn, hs.offset⟩
  · exact Json.keeps_putting fun s n hs hn => ⟨hs.number, hs.size, fun m => hput hn⟩
  · exact Json.keeps_putting fun s _ hs _ => ⟨hs.number, hs.size, hs.offset⟩
  · exact Json.keeps_putting fun s _ hs _ => ⟨hs.number, hs.size, hs.offset⟩

/-- A state that is finished has the numbers that were read. -/
theorem PartialPageState.fits_of_finish {p : PartialPageState} {s : PageState} (hp : p.Fits)
    (h : p.finish = some s) : s.Fits := by
  obtain ⟨number, hnumber, h⟩ := Option.bind_eq_some_iff.mp h
  obtain ⟨size, hsize, h⟩ := Option.bind_eq_some_iff.mp h
  obtain ⟨offset, hoffset, h⟩ := Option.bind_eq_some_iff.mp h
  obtain rfl := Option.some.inj h
  exact ⟨hp.number _ hnumber, hp.size _ hsize, hp.offset _ hoffset⟩

/-- The numbers of a state that was read fit. -/
theorem PageState.fits_of_ofText {t : String} {s : PageState} (h : PageState.ofText t = .ok s) :
    s.Fits := by
  obtain ⟨⟨a, rest⟩, hread, h⟩ := ok_of_bind h
  obtain ⟨_, -, h⟩ := ok_of_bind h
  have hempty : PartialPageState.Fits {} :=
    ⟨fun _ h => (nomatch h), fun _ h => (nomatch h), fun _ h => (nomatch h)⟩
  obtain ⟨p, hp, hfinish⟩ := Json.readRecord_keeps hempty PartialPageState.fields_keep hread
  rw [Except.ok.inj h] at hfinish
  exact PartialPageState.fits_of_finish hp hfinish

/-! ## The way to the client and back -/

/-- **A page state survives the client.**  Every state whose numbers fit is read back from its text
as it was, and every state that was read from any text is read back from its own. -/
theorem PageState.ofText_compact :
    (∀ s : PageState, s.Fits → PageState.ofText s.toJson.compact = .ok s)
    ∧ ∀ t s, PageState.ofText t = .ok s → s.Fits ∧ PageState.ofText s.toJson.compact = .ok s := by
  have hwritten : ∀ s : PageState, s.Fits → PageState.ofText s.toJson.compact = .ok s :=
    fun s h => Json.readWhole_compact (reads_pageState h)
  refine ⟨hwritten, fun t s h => ?_⟩
  have hfits := PageState.fits_of_ofText h
  exact ⟨hfits, hwritten s hfits⟩

/-- The highest numbers, a continuation with a quote and a control character, and sort keys of odd
names. -/
def farState : PageState where
  number := 18446744073709551615
  size := 18446744073709551615
  offset := 0
  continuation := some "a\"\\\x00"
  sort := [⟨"", .descending⟩, ⟨"\n.", .ascending⟩]

/-- The highest numbers survive, and a continuation with a quote and a control character; a state
that came as an array goes on as an object. -/
theorem PageState.ofText_compact_far :
    PageState.ofText farState.toJson.compact = .ok farState
    ∧ PageState.ofText "[7, 2, 14, \"mem:14\"]" = .ok ⟨7, 2, 14, some "mem:14", []⟩
    ∧ PageState.ofText (PageState.toJson ⟨7, 2, 14, some "mem:14", []⟩).compact
        = .ok ⟨7, 2, 14, some "mem:14", []⟩ := by
  obtain ⟨hwritten, hread⟩ := PageState.ofText_compact
  have hfits : farState.Fits := ⟨by decide, by decide, by decide⟩
  have harray : PageState.ofText "[7, 2, 14, \"mem:14\"]" = .ok ⟨7, 2, 14, some "mem:14", []⟩ :=
    rfl
  exact ⟨hwritten farState hfits, harray, (hread _ _ harray).2⟩

end DocQuery
