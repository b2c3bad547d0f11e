/-
  The JSON form of criteria.

  A filter is `true`, `false` or an object.  An object holds one of `$and`, `$or`, `$not`, or a
  field with one comparison; `null` under a key counts as absence.  An array stands for an
  object whose keys are left out: its items belong to the keys in their fixed order.

  1. `Filter`: the form, with whatever keys are present;
  2. reading it from JSON, where a key that is unknown or repeated is refused;
  3. writing it, keys in their fixed order;
  4. the criteria of a filter, and the filter of some criteria.
-/
import DocQuery.Fault
import DocQuery.Json.Reader
import DocQuery.Value.Json

namespace DocQuery

/-- A field and what it is compared with. -/
structure Filter.Test where
  field : Option String := none
  eq : Option Value := none
  ne : Option Value := none
  gt : Option Value := none
  ge : Option Value := none
  lt : Option Value := none
  le : Option Value := none
  oneOf : Option (List Value) := none
  startsWith : Option String := none
  contains : Option String := none
  isNull : Option Bool := none
deriving Repr, Inhabited

/-- A filter as written. -/
inductive Filter where
  | literal (b : Bool)
  | node (and or : Option (List Filter)) (not : Option Filter) (test : Filter.Test)
deriving Repr, Inhabited

namespace Filter

/-! ## Keys -/

/-- Keys that hold no filter. -/
inductive TestKey where
  | field | eq | ne | gt | ge | lt | le | oneOf | startsWith | contains | isNull
deriving DecidableEq, Repr

/-- Keys of an object. -/
inductive Key where
  | and | or | not
  | test (k : TestKey)
deriving DecidableEq, Repr

/-- The keys in their fixed order, as written. -/
def keys : List (String × Key) :=
  [("$and", .and), ("$or", .or), ("$not", .not), ("field", .test .field), ("$eq", .test .eq),
   ("$ne", .test .ne), ("$gt", .test .gt), ("$gte", .test .ge), ("$lt", .test .lt),
   ("$lte", .test .le), ("$in", .test .oneOf), ("$startsWith", .test .startsWith),
   ("$contains", .test .contains), ("$null", .test .isNull)]

/-! ## Reading -/

/-- Read what a key holds that holds no filter. -/
def Test.put (t : Test) (k : TestKey) (j : Json) : Option Test :=
  match k, j with
  | .field, .str s => some { t with field := some s }
  | .eq, j => (Value.ofJson? j).map fun v => { t with eq := some v }
  | .ne, j => (Value.ofJson? j).map fun v => { t with ne := some v }
  | .gt, j => (Value.ofJson? j).map fun v => { t with gt := some v }
  | .ge, j => (Value.ofJson? j).map fun v => { t with ge := some v }
  | .lt, j => (Value.ofJson? j).map fun v => { t with lt := some v }
  | .le, j => (Value.ofJson? j).map fun v => { t with le := some v }
  | .oneOf, .arr xs => (Value.ofItems? xs).map fun vs => { t with oneOf := some vs }
  | .startsWith, .str s => some { t with startsWith := some s }
  | .contains, .str s => some { t with contains := some s }
  | .isNull, .bool b => some { t with isNull := some b }
  | _, _ => none

/-- The parts of an object read so far. -/
structure Parts where
  and : Option (List Filter) := none
  or : Option (List Filter) := none
  not : Option Filter := none
  test : Test := {}

/-- The object made of some parts. -/
def Parts.filter (p : Parts) : Filter :=
  node p.and p.or p.not p.test

mutual

/-- Read what a key holds.  The key `$not` holds one filter, so reading a filter is reading the
content of that key. -/
def readPart (k : Key) (p : Parts) : Json → Option Parts
  | .null => some p
  | .bool b =>
    match k with
    | .not => some { p with not := some (.literal b) }
    | .test k => (p.test.put k (.bool b)).map fun t => { p with test := t }
    | _ => none
  | .obj ms =>
    match k with
    | .not => (readMembers [] {} ms).map fun q => { p with not := some q.filter }
    | .test k => (p.test.put k (.obj ms)).map fun t => { p with test := t }
    | _ => none
  | .arr xs =>
    match k with
    | .and => (readList xs).map fun cs => { p with and := some cs }
    | .or => (readList xs).map fun cs => { p with or := some cs }
    | .not => (readItems (keys.map Prod.snd) {} xs).map fun q => { p with not := some q.filter }
    | .test k => (p.test.put k (.arr xs)).map fun t => { p with test := t }
  | j =>
    match k with
    | .test k => (p.test.put k j).map fun t => { p with test := t }
    | _ => none

/-- Read the members of an object; the keys before them are `seen`. -/
def readMembers (seen : List String) (p : Parts) : List (String × Json) → Option Parts
  | [] => some p
  | (name, j) :: ms =>
    if seen.contains name then none
    else
      match Fields.get? keys name with
      | none => none
      | some k => do
        let q ← readPart k p j
        readMembers (name :: seen) q ms

/-- Read the items of an array that stands for an object; `left` are the keys still free. -/
def readItems (left : List Key) (p : Parts) : List Json → Option Parts
  | [] => some p
  | j :: js =>
    match left with
    | [] => none
    | k :: left => do
      let q ← readPart k p j
      readItems left q js

/-- Read a list of filters. -/
def readList : List Json → Option (List Filter)
  | [] => some []
  | j :: js => do
    let q ← readPart .not {} j
    let c ← q.not
    let cs ← readList js
    some (c :: cs)

end

/-- The filter of a JSON value. -/
def ofJson? (j : Json) : Option Filter :=
  (readPart .not {} j).bind Parts.not

/-- Read the text of a filter. -/
def ofText (s : String) : Except Json.Fault Filter :=
  Json.readAs ofJson? s

/-! ## Writing -/

/-- A member, if there is something to hold. -/
def member (name : String) : Option Json → List (String × Json)
  | none => []
  | some j => [(name, j)]

/-- The members that hold no filter. -/
def Test.members (t : Test) : List (String × Json) :=
  member "field" (t.field.map .str) ++ member "$eq" (t.eq.map Value.toJson)
    ++ member "$ne" (t.ne.map Value.toJson) ++ member "$gt" (t.gt.map Value.toJson)
    ++ member "$gte" (t.ge.map Value.toJson) ++ member "$lt" (t.lt.map Value.toJson)
    ++ member "$lte" (t.le.map Value.toJson)
    ++ member "$in" (t.oneOf.map fun vs => .arr (Value.itemsToJson vs))
    ++ member "$startsWith" (t.startsWith.map .str) ++ member "$contains" (t.contains.map .str)
    ++ member "$null" (t.isNull.map .bool)

mutual

/-- The JSON value of a filter. -/
def toJson : Filter → Json
  | .literal b => .bool b
  | .node and or not test =>
    .obj (member "$and" (listToJson? and) ++ member "$or" (listToJson? or)
      ++ member "$not" (toJson? not) ++ test.members)

/-- The JSON value of a filter that may be missing. -/
def toJson? : Option Filter → Option Json
  | none => none
  | some f => some f.toJson

/-- The JSON value of a list that may be missing. -/
def listToJson? : Option (List Filter) → Option Json
  | none => none
  | some fs => some (.arr (listToJson fs))

/-- The JSON values of some filters. -/
def listToJson : List Filter → List Json
  | [] => []
  | f :: fs => f.toJson :: listToJson fs

end

/-! ## Criteria -/

/-- The leaf of a field and its comparison; of several comparisons the first in order counts. -/
def Test.toCriteria (t : Test) : Except QueryFault Criteria :=
  match t.field with
  | none => .error .noField
  | some f =>
    if Text.isBlank f then .error .blankField
    else if let some v := t.eq then .ok (.compare .eq f v)
    else if let some v := t.ne then .ok (.compare .ne f v)
    else if let some v := t.gt then .ok (.compare .gt f v)
    else if let some v := t.ge then .ok (.compare .ge f v)
    else if let some v := t.lt then .ok (.compare .lt f v)
    else if let some v := t.le then .ok (.compare .le f v)
    else if let some vs := t.oneOf then .ok (.oneOf f vs)
    else if let some s := t.startsWith then .ok (.startsWith f s)
    else if let some s := t.contains then .ok (.contains f s)
    else if let some b := t.isNull then .ok (if b then .isNull f else .isNotNull f)
    else .error .noOperator

mutual

/-- The criteria of a filter.  A combinator counts before a field, and of several combinators
the first in order. -/
def toCriteria : Filter → Except QueryFault Criteria
  | .literal b => .ok (if b then .all else .not .all)
  | .node (some fs) _ _ _ => (listToCriteria fs).map .and
  | .node none (some fs) _ _ => (listToCriteria fs).map .or
  | .node none none (some f) _ => f.toCriteria.map .not
  | .node none none none test => test.toCriteria

/-- The criteria of some filters. -/
def listToCriteria : List Filter → Except QueryFault (List Criteria)
  | [] => .ok []
  | f :: fs => do
    let c ← f.toCriteria
    let cs ← listToCriteria fs
    .ok (c :: cs)

end

/-- An object with a field and one comparison. -/
def leaf (t : Test) : Filter :=
  node none none none t

mutual

/-- The filter of some criteria. -/
def ofCriteria : Criteria → Filter
  | .all => .literal true
  | .and cs => .node (some (ofCriteriaList cs)) none none {}
  | .or cs => .node none (some (ofCriteriaList cs)) none {}
  | .not c => .node none none (some (ofCriteria c)) {}
  | .compare .eq f v => leaf { field := some f, eq := some v }
  | .compare .ne f v => leaf { field := some f, ne := some v }
  | .compare .gt f v => leaf { field := some f, gt := some v }
  | .compare .ge f v => leaf { field := some f, ge := some v }
  | .compare .lt f v => leaf { field := some f, lt := some v }
  | .compare .le f v => leaf { field := some f, le := some v }
  | .oneOf f vs => leaf { field := some f, oneOf := some vs }
  | .startsWith f s => leaf { field := some f, startsWith := some s }
  | .contains f s => leaf { field := some f, contains := some s }
  | .isNull f => leaf { field := some f, isNull := some true }
  | .isNotNull f => leaf { field := some f, isNull := some false }

/-- The filters of some criteria. -/
def ofCriteriaList : List Criteria → List Filter
  | [] => []
  | c :: cs => ofCriteria c :: ofCriteriaList cs

end

end Filter

end DocQuery
