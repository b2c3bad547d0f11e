/-
  Queries on a store.

  The statement is read, the matches are collected, and either their number is delivered or,
  sorted, a slice of them.  A continuation is the place where the next slice begins, so a walk
  along continuations goes through all matches as long as nothing is written.

  Whether a query stays within one partition is decided on all its matches, before they are
  sorted and cut, and by how their partitions read.  A continuation names a place and nothing
  else: the whole query is run again for every slice, and the slices fit together because the
  same matches are sorted the same way each time.
-/
import DocQuery.Dialect.Parser
import DocQuery.Store

namespace DocQuery.Store

open Dialect (Select)

/-! ## Continuations -/

/-- What every continuation begins with. -/
def tokenStart : String := "mem:"

/-- The largest place a continuation can name. -/
def maxPlace : Nat := UInt64.size - 1

/-- The continuation at a place. -/
def tokenOf (place : Nat) : String :=
  tokenStart ++ Text.ofNat place

/-- The place that a continuation names. -/
def placeOf? (token : String) : Option Nat :=
  if Text.startsWith token tokenStart then
    Text.readNat maxPlace (token.toList.drop tokenStart.length)
  else none

/-- The place where a slice begins: at the front without a continuation. -/
def placeOf (token : Option String) : Except Fault Nat :=
  match token with
  | none => .ok 0
  | some t =>
    match placeOf? t with
    | some n => .ok n
    | none => .error (.badContinuation t)

/-! ## Slices -/

/-- The smaller of two limits, where there are any. -/
def smallerLimit : Option Nat → Option Nat → Option Nat
  | some a, some b => some (min a b)
  | some a, none => some a
  | none, b => b

/-- Some elements of a list, and the place behind them. -/
structure Slice (α : Type) where
  content : List α
  next : Option Nat
deriving Repr

/-- At most `limit` elements from a place on; the place behind them if there are more. -/
def slice {α : Type} (xs : List α) (place : Nat) (limit : Option Nat) : Slice α :=
  let stop := match limit with
    | none => xs.length
    | some n => min (place + n) xs.length
  let start := min place stop
  { content := (xs.take stop).drop start
    next := if stop < xs.length then some stop else none }

/-! ## Answers -/

/-- What every query costs. -/
def baseCharge : Binary64 := .ofDecimal false 25 (-1)

/-- What a query costs for each record of the collection. -/
def chargePerRecord : Binary64 := .ofDecimal false 1 (-1)

def queryCharge (scanned : Nat) : Binary64 :=
  baseCharge.add (chargePerRecord.mul (.ofNat scanned))

/-- Whether some texts are not all alike. -/
def differ : List String → Bool
  | [] => false
  | t :: ts => ts.any (· ≠ t)

/-- Whether the partitions of some records read differently. -/
def spansPartitions (c : Collection) (matched : List Document) : Bool :=
  differ (matched.map fun d => (c.partitionOf d).display)

/-- Matches in the order of a query; none given, in order of insertion. -/
def sorted (q : Select) (matched : List Document) : List Document :=
  match q.order with
  | [] => matched
  | keys => sortBy (Document.order keys) matched

/-- The record that holds a number of matches. -/
def countRecord (name : String) (n : Nat) : Document :=
  [(name, .int64 (Int64.ofNat n))]

/-- The matches of a query in a collection. -/
def matching (c : Collection) (q : Select) (s : Statement) : Except Fault (List Document) :=
  match q.matching s.parameter? c.records with
  | .ok ds => .ok ds
  | .error u => .error (.unbound u)

/-- The part of the matches that is delivered, and where to go on. -/
def deliver (settings : Settings) (q : Select) (options : QueryOptions) (matched : List Document) :
    Except Fault (List Document × Option String) :=
  match q.projection with
  | .count name => .ok ([countRecord name matched.length], none)
  | .all => do
    let place ← placeOf options.continuation
    let part := slice (sorted q matched) place (smallerLimit options.maxItems settings.maxItems)
    .ok (part.content, part.next.map tokenOf)

/-- Answer a query. -/
def query (settings : Settings) (name : String) (statement : Statement) (options : QueryOptions)
    (s : Store) : Except Fault QueryAnswer := do
  let q ← match Select.ofText statement.text with
    | .ok q => .ok q
    | .error f => .error (.badText f)
  match s.collection? name with
  | none => .error (.noCollection name)
  | some c => do
    let matched ← matching c q statement
    if !options.crossPartition && c.isPartitioned && spansPartitions c matched then
      .error .manyPartitions
    else do
      let (records, continuation) ← deliver settings q options matched
      .ok
        { records, continuation
          charge := queryCharge c.records.length
          metrics := if options.metrics then some ⟨c.records.length, records.length⟩ else none }

end DocQuery.Store
