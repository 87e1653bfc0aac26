import TraceArchive.Json.Text

/-!
# Queries

A query asks for documents by the values of their fields.  Clauses are joined by conjunction; a term
asks for one value, terms for any of several, and a range for values between closed bounds.  Values
and bounds go to the backend as they are.
-/

set_option autoImplicit false

namespace TraceArchive

/-- A condition on one field of a document. -/
inductive Clause where
  | range (field : String) (least : Json) (most : Option Json)
  | term (field : String) (value : Json)
  deriving Repr, BEq

/-- Which documents a search looks for. -/
inductive Query where
  | every (clauses : List Clause)
  | term (field : String) (value : Json)
  | terms (field : String) (values : List Json)
  deriving Repr, BEq

namespace Clause

/-- A field holds a number that is not below one bound, nor above the other if there is one. -/
def between (field : String) (least : Int) (most : Option Int) : Clause :=
  .range field (.int least) (most.map .int)

/-- A field holds a text. -/
def equals (field text : String) : Clause :=
  .term field (.str text)

end Clause

/-- A clause in the query language of the backend. -/
def Clause.toJson : Clause → Json
  | .range field least most =>
      let upper := match most with
        | some bound => [("lte", bound)]
        | none => []
      .single "range" (.single field (.obj (("gte", least) :: upper)))
  | .term field value => .single "term" (.single field value)

/-- A query in the query language of the backend. -/
def Query.toJson : Query → Json
  | .every clauses => .single "bool" (.single "filter" (.arr (clauses.map Clause.toJson)))
  | .term field value => .single "term" (.single field value)
  | .terms field values => .single "terms" (.single field (.arr values))

end TraceArchive
