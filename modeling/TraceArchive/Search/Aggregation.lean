import TraceArchive.Json

/-!
# Aggregations

An aggregation is named after the field that it aggregates.  One that puts documents into buckets
has a size, may be ordered by one of its own aggregations, and may hold aggregations of each
bucket.  Sizes and directions go to the backend as they are.
-/

set_option autoImplicit false

namespace TraceArchive

/-- A bucket or metric aggregation of a field. -/
inductive Aggregation where
  | mk
      (kind : String)
      (field : String)
      (size : Option Json)
      (order : Option (String × Json))
      (inner : List Aggregation)
  deriving Repr, Inhabited

namespace Aggregation

/-- The field that is aggregated, which also names the aggregation. -/
def field : Aggregation → String
  | .mk _ field _ _ _ => field

/-- Buckets for the values of a field. -/
def terms (field : String) (size : Int) : Aggregation :=
  .mk "terms" field (some (.int size)) none []

/-- The least value of a field. -/
def least (field : String) : Aggregation :=
  .mk "min" field none none []

/-- An aggregation with one more aggregation of each bucket. -/
def within (outer inner : Aggregation) : Aggregation :=
  match outer with
  | .mk kind field size order innerOnes => .mk kind field size order (innerOnes ++ [inner])

/-- An aggregation whose buckets are ordered by one of its own aggregations. -/
def orderedBy (aggregation : Aggregation) (name direction : String) : Aggregation :=
  match aggregation with
  | .mk kind field size _ inner => .mk kind field size (some (name, .str direction)) inner

/-- The settings of an aggregation, those within it aside. -/
def settings (field : String) (size : Option Json) (order : Option (String × Json)) : Json :=
  let sizeMember := match size with
    | some value => [("size", value)]
    | none => []
  let orderMember := match order with
    | some (name, direction) => [("order", .single name direction)]
    | none => []
  .obj (("field", .str field) :: sizeMember ++ orderMember)

mutual

/-- An aggregation in the query language of the backend. -/
def toJson : Aggregation → Json
  | .mk kind field size order inner =>
      let own := [(kind, settings field size order)]
      match inner with
      | [] => .obj own
      | first :: rest => .obj (Entries.put "aggs" (.obj (membersOf (first :: rest) [])) own)

/-- Aggregations as the members of an object that starts with `members`; of two with one name the
later one stays, at the place of the earlier. -/
def membersOf : List Aggregation → List (String × Json) → List (String × Json)
  | [], members => members
  | aggregation :: rest, members =>
      membersOf rest (Entries.put aggregation.field (toJson aggregation) members)

end

end Aggregation
end TraceArchive
