/-
  Queries: criteria, a page to deliver, and a sort.

  A query that no explicit sort orders takes the sort of its page.  A query fans out over all
  partitions unless its criteria pin every field that the partition key is taken from.

  Pinning is read off the tree without any record: below `OR` and `NOT` nothing is pinned, and of
  several equalities with one field the first counts.
-/
import DocQuery.Page

namespace DocQuery

/-- What to look for, which page of it, and in which order. -/
structure Query where
  criteria : Criteria
  page : Option PageState := none
  sort : List SortKey := []
deriving Repr

namespace Query

/-- The explicit sort if there is one, the sort of the page otherwise. -/
def effectiveSort (q : Query) : List SortKey :=
  if q.sort.isEmpty then (q.page.map PageState.sort).getD [] else q.sort

/-- The value that every match holds in a field of the partition key. -/
def pinned? (q : Query) (field : String) : Option Value :=
  q.criteria.pinned? field

/-- Whether matches may lie in several partitions, given the fields of the partition key. -/
def isCrossPartition (q : Query) (fields : List String) : Bool :=
  fields.isEmpty || fields.any fun f => (q.pinned? f).isNone

end Query

end DocQuery
