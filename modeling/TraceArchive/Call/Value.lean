import TraceArchive.Json.Text
import TraceArchive.Response

/-!
# Values of calls

A call yields a JSON value, a span, a dependency link, or a list of such values.

* `texts_ofTexts`, `spans_ofSpans`, `ofTraces_inj`: lists of texts, of spans and of traces are read
  back.
-/

set_option autoImplicit false

namespace TraceArchive

/-- What a call yields. -/
inductive Value where
  | datum (value : Json)
  | span (value : Span)
  | link (value : DependencyLink)
  | list (items : List Value)
  deriving Repr, Inhabited

namespace Value

/-- The value that stands for nothing. -/
def null : Value := .datum .null

/-- A JSON value; an array becomes a list. -/
def ofJson : Json → Value
  | .arr items => .list (items.map .datum)
  | value => .datum value

/-- A list of texts. -/
def ofTexts (texts : List String) : Value :=
  .list (texts.map fun text => .datum (.str text))

/-- A list of spans. -/
def ofSpans (spans : List Span) : Value :=
  .list (spans.map .span)

/-- A list of traces. -/
def ofTraces (traces : List Trace) : Value :=
  .list (traces.map ofSpans)

/-- A list of dependency links. -/
def ofLinks (links : List DependencyLink) : Value :=
  .list (links.map .link)

/-- The text that a value is, if it is one. -/
def text? : Value → Option String
  | .datum value => value.text?
  | _ => none

/-- The span that a value is, if it is one. -/
def span? : Value → Option Span
  | .span value => some value
  | _ => none

/-- The texts of a list. -/
def texts : Value → List String
  | .list items => items.filterMap text?
  | _ => []

/-- The spans of a list. -/
def spans : Value → List Span
  | .list items => items.filterMap span?
  | _ => []

@[simp] theorem texts_ofTexts (list : List String) : (ofTexts list).texts = list := by
  simp [ofTexts, texts, List.filterMap_map, Function.comp_def, text?, Json.text?]

@[simp] theorem spans_ofSpans (list : List Span) : (ofSpans list).spans = list := by
  simp [ofSpans, spans, List.filterMap_map, Function.comp_def, span?]

theorem ofTraces_inj {traces others : List Trace} (h : ofTraces traces = ofTraces others) :
    traces = others := by
  have hspans := congrArg (List.map spans) (list.inj h)
  simpa [List.map_map, Function.comp_def] using hspans

mutual

/-- The literal form of a value; spans and links are shown by what identifies them. -/
def literal : Value → String
  | .datum value => value.literal
  | .span value => "Span(" ++ Text.quoted value.id ++ ")"
  | .link value =>
      "DependencyLink(" ++ Text.quoted value.parent ++ ", " ++ Text.quoted value.child ++ ")"
  | .list items => "[" ++ literals items ++ "]"

/-- The literal forms of values, parted by commas. -/
def literals : List Value → String
  | [] => ""
  | [item] => literal item
  | item :: rest => literal item ++ ", " ++ literals rest

end

/-- The items of a list, the code points of a text, or the member names of an object. -/
def elements? : Value → Option (List Value)
  | .list items => some items
  | .datum value => value.elements?.map (·.map .datum)
  | _ => none

/-- A value that counts as empty: a list without items, or such a JSON value. -/
def isEmpty : Value → Bool
  | .list items => items.isEmpty
  | .datum value => value.isEmpty
  | _ => false

end Value

/-- What a response is read as. -/
def Response.Reading.read : Response.Reading → Json → Except ResponseError Value
  | .traceIds, body => (Response.traceIds body).map Value.ofTexts
  | .sortedKeys, body => (Response.sortedKeys body).map Value.ofTexts
  | .spans, body => (Response.spans body).map Value.ofSpans
  | .dependencyLinks, body => (Response.dependencyLinks body).map Value.ofLinks

end TraceArchive
