/-
  Pages of a result.

  A request for a page says how many elements it wants and where to go on.  A backend may answer
  with fewer; the page then takes the size it got, and the request for the next page asks for
  that size.

  An empty page keeps the size that was asked for, because nobody can ask for a page of no
  elements.  The number of pages is reckoned by the size asked for, the offset by the elements
  delivered.

  1. `PageState`: what a request carries, and what comes back to ask for the next page;
  2. `Page`: the elements delivered, with the total.
-/
import DocQuery.SortKey

namespace DocQuery

/-- How far a walk over the pages of a result has come. -/
inductive PageStatus where
  | first | inProgress | exhausted
deriving DecidableEq, Repr

/-! ## Asking for a page -/

/-- A request for a page. -/
structure PageState where
  /-- number of the page, from zero -/
  number : Nat
  /-- elements asked for -/
  size : Nat
  /-- elements delivered before -/
  offset : Nat
  /-- where to go on; none at the beginning -/
  continuation : Option String
  sort : List SortKey
deriving DecidableEq, Repr

namespace PageState

/-- The request for the first page. -/
def first (size : Nat) : PageState where
  number := 0
  size := size
  offset := 0
  continuation := none
  sort := []

def withSort (s : PageState) (sort : List SortKey) : PageState :=
  { s with sort }

def status (s : PageState) : PageStatus :=
  if s.continuation.isSome then .inProgress else .first

end PageState

/-! ## A delivered page -/

/-- A page of elements. -/
structure Page (α : Type) where
  content : List α
  requested : PageState
  /-- where the next page begins; none on the last page -/
  continuation : Option String
  /-- elements on all pages together -/
  totalElements : Nat
deriving Repr

namespace Page

variable {α : Type} (p : Page α)

def number : Nat := p.requested.number

/-- The size asked for, or that of a page with fewer elements, unless it is empty. -/
def size : Nat :=
  if p.content.isEmpty then p.requested.size else min p.content.length p.requested.size

/-- Pages of the size asked for that hold all elements. -/
def totalPages : Nat :=
  if p.requested.size = 0 then 0
  else (p.totalElements + p.requested.size - 1) / p.requested.size

def hasNext : Bool := p.continuation.isSome

def status : PageStatus :=
  if p.hasNext then .inProgress else .exhausted

/-- The request for the page that follows. -/
def next? : Option PageState :=
  p.continuation.map fun token =>
    { number := p.number + 1
      size := p.size
      offset := p.requested.offset + p.content.length
      continuation := some token
      sort := p.requested.sort }

end Page

example : (Page.mk [1, 2, 3] (.first 5) (some "t") 12).size = 3
    ∧ (Page.mk [1, 2, 3] (.first 5) (some "t") 12).totalPages = 3
    ∧ (Page.mk ([] : List Nat) (.first 4) none 0).size = 4 := by decide

end DocQuery
