/-
  Statements: query text with numbered parameters.

  Operands never enter the text.  They are bound to `@p0`, `@p1`, … in the order in which they
  stand in the criteria, so the text depends on the kinds and fields of a query alone.  Text and
  parameters are written in one pass: the renderer carries the parameters that are bound so far,
  and their number is the number of the next one.

  1. field references: a plain name behind a dot, any other in brackets and quotes;
  2. `Renderer`, `bindValue`: the parameters so far, and binding one more;
  3. `render`: predicates, in which every group stands in parentheses;
  4. `ofQuery`: the statement of a query that asks for records, and of one that asks for their
     number.
-/
import DocQuery.Query

namespace DocQuery

/-- Query text and the values of its parameters. -/
structure Statement where
  text : String
  parameters : List (String × Value)
deriving Repr

namespace Statement

/-- The value of a parameter, the first of its name. -/
def parameter? (s : Statement) (name : String) : Option Value :=
  Fields.get? s.parameters name

/-- Name of the parameter with a number. -/
def parameterName (n : Nat) : String :=
  "@p" ++ Text.ofNat n

/-- What a statement asks for. -/
inductive Shape where
  | find | count
deriving DecidableEq, Repr

/-- The name that stands for a record in the text. -/
def rootAlias : String := "r"

/-- The name under which a number of records is delivered. -/
def countAlias : String := "_aggregate"

/-! ## Field references -/

/-- Words with a meaning of their own. -/
def keywords : List String :=
  ["AND", "AS", "ASC", "BETWEEN", "BY", "COUNT", "DESC", "FALSE", "FROM", "IN", "JOIN", "LIKE",
   "NOT", "NULL", "OR", "ORDER", "ROOT", "SELECT", "TOP", "TRUE", "UNDEFINED", "VALUE", "WHERE"]

/-- A word that may stand behind a dot. -/
def isPlain (segment : List Char) : Bool :=
  match segment with
  | [] => false
  | c :: cs =>
    (Text.isLetter c || c == '_') && cs.all Text.isWordChar
      && !keywords.any fun k => Text.sameWord k (String.ofList segment)

/-- Quotes and backslashes stand behind a backslash. -/
def escape (c : Char) : List Char :=
  if c = '"' ∨ c = '\\' then ['\\', c] else [c]

/-- The reference to one segment of a path. -/
def segmentChars (segment : List Char) : List Char :=
  if isPlain segment then '.' :: segment
  else '[' :: '"' :: (segment.flatMap escape ++ ['"', ']'])

/-- The reference to the field at a path. -/
def fieldChars (path : String) : Except QueryFault (List Char) :=
  if Text.isBlank path then .error .emptyPath
  else
    let segments := Text.pieces (· == '.') path.toList
    if segments.any List.isEmpty then .error (.emptySegment path)
    else .ok (rootAlias.toList ++ segments.flatMap segmentChars)

/-! ## Predicates -/

/-- Texts with `separator` between neighbours. -/
def joinChars (separator : List Char) : List (List Char) → List Char
  | [] => []
  | [x] => x
  | x :: y :: rest => x ++ separator ++ joinChars separator (y :: rest)

/-- A parameter. -/
def parameterChars (n : Nat) : List Char :=
  (parameterName n).toList

/-- The field of a leaf. -/
def leafField (kind : Criteria.Kind) (field : String) : Except QueryFault (List Char) :=
  if Text.isBlank field then .error (.noSubject kind) else fieldChars field

/-- A call of a function. -/
def callChars (name : String) (arguments : List (List Char)) : List Char :=
  name.toList ++ '(' :: (joinChars ", ".toList arguments ++ [')'])

/-- What writes a text carries the parameters bound so far. -/
abbrev Renderer := StateT (List (String × Value)) (Except QueryFault)

/-- Bind a value to the next parameter, and write that. -/
def bindValue (v : Value) : Renderer (List Char) := do
  let parameters ← get
  set (parameters ++ [(parameterName parameters.length, v)])
  pure (parameterChars parameters.length)

mutual

/-- The predicate of some criteria. -/
def render : Criteria → Renderer (List Char)
  | .all => pure "true".toList
  | .and [] => throw (.emptyGroup .and)
  | .and (c :: cs) => do
    let parts ← renderAll (c :: cs)
    pure ('(' :: (joinChars " AND ".toList parts ++ [')']))
  | .or [] => throw (.emptyGroup .or)
  | .or (c :: cs) => do
    let parts ← renderAll (c :: cs)
    pure ('(' :: (joinChars " OR ".toList parts ++ [')']))
  | .not c => do
    let part ← render c
    pure ("NOT (".toList ++ part ++ [')'])
  | .compare op f v => do
    let field ← leafField op.kind f
    let p ← bindValue v
    pure (field ++ ' ' :: (op.operator.toList ++ ' ' :: p))
  | .oneOf f vs => do
    let field ← leafField .oneOf f
    if vs.isEmpty then throw (.noValues f)
    else
      let ps ← vs.mapM bindValue
      pure (field ++ " IN (".toList ++ joinChars ", ".toList ps ++ [')'])
  | .startsWith f s => do
    let field ← leafField .startsWith f
    let p ← bindValue (.text s)
    pure (callChars "STARTSWITH" [field, p])
  | .contains f s => do
    let field ← leafField .contains f
    let p ← bindValue (.text s)
    pure (callChars "CONTAINS" [field, p])
  | .isNull f => do
    let field ← leafField .isNull f
    pure (callChars "IS_NULL" [field])
  | .isNotNull f => do
    let field ← leafField .isNotNull f
    pure ("NOT ".toList ++ callChars "IS_NULL" [field])

/-- The predicates of some criteria, one after the other. -/
def renderAll : List Criteria → Renderer (List (List Char))
  | [] => pure []
  | c :: cs => do
    let part ← render c
    let parts ← renderAll cs
    pure (part :: parts)

end

/-! ## Statements -/

/-- The beginning of a statement. -/
def projection : Shape → List Char
  | .find => ("SELECT * FROM ROOT " ++ rootAlias).toList
  | .count => ("SELECT COUNT(1) AS " ++ countAlias ++ " FROM ROOT " ++ rootAlias).toList

/-- The condition; none where every record is wanted. -/
def renderWhere : Criteria → Renderer (List Char)
  | .all => pure []
  | c => do
    let p ← render c
    pure (" WHERE ".toList ++ p)

/-- One entry of the order. -/
def orderEntry (k : SortKey) : Except QueryFault (List Char) := do
  let field ← fieldChars k.field
  .ok (field ++ (match k.direction with
    | .ascending => " ASC"
    | .descending => " DESC").toList)

/-- The order; none where no sort is asked for. -/
def orderChars : List SortKey → Except QueryFault (List Char)
  | [] => .ok []
  | keys => do
    let entries ← keys.mapM orderEntry
    .ok (" ORDER BY ".toList ++ joinChars ", ".toList entries)

/-- The statement of a query.  A number of records has no order. -/
def ofQuery (shape : Shape) (q : Query) : Except QueryFault Statement := do
  let (condition, parameters) ← (renderWhere q.criteria).run []
  let order ← match shape with
    | .find => orderChars q.effectiveSort
    | .count => .ok []
  .ok ⟨String.ofList (projection shape ++ condition ++ order), parameters⟩

example : (ofQuery .find ⟨.not (.compare .lt "a.first-name" (.int32 18)), none, []⟩).toOption.map
    Statement.text = some "SELECT * FROM ROOT r WHERE NOT (r.a[\"first-name\"] < @p0)" := by
  decide +kernel

end Statement

end DocQuery
