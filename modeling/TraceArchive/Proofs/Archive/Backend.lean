import TraceArchive.Call.Session
import TraceArchive.Text.Split

/-!
# A backend that searches documents in memory

A search names partitions by patterns, has a body in the query language, and is answered from the
documents in storage order.  Of the language there is what the lookups of a span store use: terms
and ranges and their conjunction, buckets for the values of a field with the least value of another
one for each bucket.  Anything else is refused.

* `Pattern.fits`: patterns of partition names.
* `meets`: a document meets a query.
* `aggregate`: the buckets of an aggregation.
* `search`, `backend`: the answer to a search.
-/

set_option autoImplicit false

namespace TraceArchive
namespace Archive

/-! ### Patterns -/

/-- A part of a pattern: a character, any character, any characters, or one of a class. -/
inductive Pattern.Part where
  | char (c : Char)
  | one
  | many
  | among (negated : Bool) (ranges : List (Char × Char))
  deriving DecidableEq, Repr

namespace Pattern

/-- The ranges that the text between brackets stands for. -/
def ranges : List Char → List (Char × Char)
  | least :: '-' :: most :: rest => (least, most) :: ranges rest
  | c :: rest => (c, c) :: ranges rest
  | [] => []

/-- What is between brackets and what follows them.  A bracket that closes at once is a member of
the class itself. -/
def class? (text : List Char) : Option (List Char × List Char) :=
  match text with
  | ']' :: rest => (Text.cut? [']'] rest).map fun sides => (']' :: sides.1, sides.2)
  | _ => Text.cut? [']'] text

theorem length_of_class?
    {text inside after : List Char}
    (h : class? text = some (inside, after)) :
    after.length < text.length := by
  unfold class? at h
  split at h
  · obtain ⟨sides, hcut, heq⟩ := Option.map_eq_some_iff.mp h
    have hlt := Text.cut?_length_lt (by decide) hcut
    cases heq
    exact Nat.lt_succ_of_lt hlt
  · exact Text.cut?_length_lt (by decide) h

/-- The parts of a pattern; a bracket that is never closed stands for itself. -/
def parts : List Char → List Part
  | [] => []
  | '*' :: rest => .many :: parts rest
  | '?' :: rest => .one :: parts rest
  | '[' :: '!' :: rest =>
      match _h : class? rest with
      | some (inside, after) => .among true (ranges inside) :: parts after
      | none => .char '[' :: parts ('!' :: rest)
  | '[' :: rest =>
      match _h : class? rest with
      | some (inside, after) => .among false (ranges inside) :: parts after
      | none => .char '[' :: parts rest
  | c :: rest => .char c :: parts rest
termination_by text => text.length
decreasing_by
  all_goals first
    | (have hlt := length_of_class? _h; simp only [List.length_cons]; omega)
    | simp

/-- A text fits the parts of a pattern. -/
def fits : List Part → List Char → Bool
  | [], text => text.isEmpty
  | .many :: rest, text => (List.range (text.length + 1)).any fun n => fits rest (text.drop n)
  | .char c :: rest, text => text.head? = some c && fits rest text.tail
  | .one :: rest, text => !text.isEmpty && fits rest text.tail
  | .among negated ranges :: rest, text =>
      match text with
      | [] => false
      | c :: text => (ranges.any fun range => range.1 ≤ c && c ≤ range.2) != negated && fits rest text

end Pattern

/-- A partition is one of those that a search is sent to. -/
def isTarget (target partition : String) : Bool :=
  (target.toList.splitOn ',').any fun pattern => Pattern.fits (Pattern.parts pattern) partition.toList

/-! ### Values -/

/-- What a request of another kind than those of a span store comes to. -/
def refused {α : Type} (request : Json) : Except Failure α :=
  .error (.raised "AssertionError" ("unsupported " ++ request.literal))

/-- What is reached by a path of member names. -/
def follow : List String → Json → Option Json
  | [], value => some value
  | name :: rest, value => (value.member? name).bind (follow rest)

/-- The values of a field, whose name is a path with dots: the items of an array, or one value. -/
def valuesAt (field : String) (document : Json) : List Json :=
  match follow ((field.toList.splitOn '.').map String.ofList) document with
  | none => []
  | some (.arr items) => items
  | some value => [value]

/-- A number: a quotient with a positive divisor, between the two infinities. -/
structure Magnitude where
  side : Int
  num : Int
  den : Nat
  deriving DecidableEq, Repr

/-- The number that a value is, if it is one; a flag is zero or one. -/
def Magnitude.of? : Json → Option Magnitude
  | .int n => some ⟨0, n, 1⟩
  | .bool b => some ⟨0, if b then 1 else 0, 1⟩
  | .float (.infinite negative) => some ⟨if negative then -1 else 1, 0, 1⟩
  | .float value => value.quotient?.map fun quotient => ⟨0, quotient.1, quotient.2⟩
  | _ => none

/-- A number is not above another one. -/
def Magnitude.atMost (a b : Magnitude) : Bool :=
  a.side < b.side || (a.side = b.side && a.num * b.den ≤ b.num * a.den)

/-- Values are equal; numbers are equal when none is above the other. -/
def same : Json → Json → Bool
  | .str a, .str b => a = b
  | a, b => match Magnitude.of? a, Magnitude.of? b with
      | some x, some y => x.atMost y && y.atMost x
      | none, none => a == b
      | _, _ => false

/-- Two numbers are compared; values that are no numbers cannot be. -/
def compare
    (symbol : String)
    (holds : Magnitude → Magnitude → Bool)
    (value bound : Json) :
    Except Failure Bool :=
  match Magnitude.of? value, Magnitude.of? bound with
  | some a, some b => .ok (holds a b)
  | _, _ => .error (.raised "TypeError" ("'" ++ symbol ++ "' not supported between instances of '" ++
      value.kindWord ++ "' and '" ++ bound.kindWord ++ "'"))

/-- A value is compared with the bounds that there are, the lower one first. -/
def isWithin (least most : Option Json) (value : Json) : Except Failure Bool := do
  let above ← match least with
    | some bound => compare ">=" (fun a b => b.atMost a) value bound
    | none => .ok true
  if above then
    match most with
    | some bound => compare "<=" Magnitude.atMost value bound
    | none => .ok true
  else return false

/-! ### Queries -/

/-- A document meets a condition on one field. -/
def meetsClause (document : Json) : Json → Except Failure Bool
  | .obj [(kind, .obj [(field, expected)])] =>
      let values := valuesAt field document
      match kind, expected with
      | "term", value => .ok (values.any (same value))
      | "terms", .arr items => .ok (values.any fun value => items.any (same value))
      | "range", .obj bounds =>
          values.anyM (isWithin (Entries.get? "gte" bounds) (Entries.get? "lte" bounds))
      | _, _ => refused (.single kind (.single field expected))
  | query => refused query

/-- A document meets a query, if there is one: all conditions of a conjunction, which are looked at
up to the first that it does not meet. -/
def meets (query : Option Json) (document : Json) : Except Failure Bool :=
  match query with
  | none => .ok true
  | some (.obj [("bool", .obj [("filter", .arr clauses)])]) => clauses.allM (meetsClause document)
  | some clause => meetsClause document clause

/-! ### Aggregations -/

/-- The text that a value has to be. -/
def textIn (value : Json) : Except Failure String :=
  match value with
  | .str text => .ok text
  | _ => refused value

/-- The integer that a value has to be. -/
def integerIn (value : Json) : Except Failure Int :=
  match value with
  | .int n => .ok n
  | _ => refused value

/-- The member that an object has to have. -/
def memberIn (name : String) (value : Json) : Except Failure Json :=
  match value.member? name with
  | some found => .ok found
  | none => refused value

/-- The first items of a list; of a negative number of items, all but so many of the last. -/
def firstOnes {α : Type} (size : Int) (list : List α) : List α :=
  if 0 ≤ size then list.take size.toNat else list.take (list.length - size.natAbs)

/-- The least value of a field, null without one. -/
def least (definition : Json) (documents : List Json) : Except Failure Json := do
  let settings ← memberIn "min" definition
  let field ← (memberIn "field" settings).bind textIn
  let values ← (documents.flatMap (valuesAt field)).mapM integerIn
  return .obj [("value", values.min?.elim .null .int)]

/-- The bucket of the documents with a key. -/
def bucketOf
    (inner : List (String × Json))
    (key : String) (documents : List Json) :
    Except Failure Json := do
  let metrics ← inner.mapM fun metric => do
    let value ← least metric.2 documents
    return (metric.1, value)
  return .obj ([("key", .str key), ("doc_count", .int documents.length)] ++ metrics)

/-- What buckets are ordered by, and whether the largest comes first. -/
def rankOf (order : Option Json) (bucket : Json) : Except Failure (Int × Bool) :=
  match order with
  | none => do
      let count ← (memberIn "doc_count" bucket).bind integerIn
      return (count, true)
  | some (.obj [(name, direction)]) => do
      let metric ← memberIn name bucket
      let value ← (memberIn "value" metric).bind integerIn
      return (value, same direction (.str "desc"))
  | some value => refused value

/-- One rank does not come after another one. -/
def inOrder (a b : Int × Bool) : Bool :=
  if a.2 then b.1 ≤ a.1 else a.1 ≤ b.1

/-- A document with the values of a field, which have to be texts. -/
def keyed (field : String) (document : Json) : Except Failure (List String × Json) := do
  let keys ← (valuesAt field document).mapM textIn
  return (keys, document)

/-- The bucket of a key, from documents with their keys, and what it is ordered by. -/
def rankedBucket
    (inner : List (String × Json))
    (order : Option Json)
    (documents : List (List String × Json))
    (key : String) :
    Except Failure ((Int × Bool) × Json) := do
  let bucket ← bucketOf inner key
    ((documents.filter fun entry => entry.1.contains key).map Prod.snd)
  let rank ← rankOf order bucket
  return (rank, bucket)

/-- The buckets of the values of a field, those that are equal in order as they are first seen. -/
def aggregate (definition : Json) (documents : List Json) : Except Failure Json := do
  let settings ← memberIn "terms" definition
  let field ← (memberIn "field" settings).bind textIn
  let size ← (memberIn "size" settings).bind integerIn
  let inner ← match definition.member? "aggs" with
    | none => .ok []
    | some (.obj members) => .ok members
    | some value => refused value
  let keyed ← documents.mapM (keyed field)
  let keys := (keyed.flatMap Prod.fst).eraseDups
  let ranked ← keys.mapM (rankedBucket inner (settings.member? "order") keyed)
  let buckets := (ranked.mergeSort fun a b => inOrder a.1 b.1).map Prod.snd
  return .obj [("buckets", .arr (firstOnes size buckets))]

/-! ### Searches -/

/-- The answer to a search: the documents found, at most as many as asked for, and the aggregations
of all of them. -/
def search
    (documents : List (String × Json))
    (target : String) (body : Json) :
    Except Failure Json := do
  let found ← ((documents.filter fun document => isTarget target document.1).map Prod.snd).filterM
    (meets (body.member? "query"))
  let size ← (memberIn "size" body).bind integerIn
  let hits := Json.obj [
    ("total", .single "value" (.int found.length)),
    ("hits", .arr ((firstOnes size found).map (.single "_source")))]
  match body.member? "aggs" with
  | none => return .obj [("hits", hits)]
  | some (.obj definitions) =>
      let aggregations ← definitions.mapM fun definition => do
        let aggregation ← aggregate definition.2 found
        return (definition.1, aggregation)
      return .obj [("hits", hits), ("aggregations", .obj aggregations)]
  | some value => refused value

/-- The backend with documents, each in a partition. -/
def backend (documents : List (String × Json)) : Backend :=
  fun _ asked => ⟨none, search documents asked.request.target (asked.request.toJson asked.maxHits)⟩

end Archive
end TraceArchive
