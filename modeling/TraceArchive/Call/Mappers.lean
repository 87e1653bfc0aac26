import TraceArchive.Call.Plan

/-!
# Mappers

Ready-made mappers on lists, and flat mappers that choose a second stage.
-/

set_option autoImplicit false

namespace TraceArchive

namespace Mapper

/-- A mapper that cancels nothing. -/
def ofFunction (f : Value → Except Failure Value) (value : Value) : Mapping Value :=
  ⟨[], f value⟩

/-- The elements of a value that has any. -/
def elements (value : Value) : Except Failure (List Value) :=
  match value.elements? with
  | some items => .ok items
  | none => .error .notAList

/-- A list with one more item at its end. -/
def extended (item value : Value) : Except Failure Value :=
  match value with
  | .list items => .ok (.list (items ++ [item]))
  | _ => .error .notAList

/-- The value itself. -/
def identity : Value → Mapping Value :=
  ofFunction .ok

/-- The number of elements. -/
def length : Value → Mapping Value :=
  ofFunction fun value => (elements value).map fun items => .datum (.int items.length)

/-- The elements in reverse order. -/
def reverse : Value → Mapping Value :=
  ofFunction fun value => (elements value).map fun items => .list items.reverse

/-- No value at all. -/
def fail : Value → Mapping Value :=
  ofFunction fun _ => .error .mapperFailed

/-- The list with one more item at its end. -/
def append (item : Value) : Value → Mapping Value :=
  ofFunction (extended item)

/-- The value itself, after a call was canceled. -/
def canceling (label : String) (value : Value) : Mapping Value :=
  ⟨[label], .ok value⟩

end Mapper

namespace FlatMapper

/-- A flat mapper that cancels nothing. -/
def ofFunction (f : Value → Except Failure (Stage Plan)) (value : Value) : Mapping (Stage Plan) :=
  ⟨[], f value⟩

/-- A call that yields the value. -/
def constant : Value → Mapping (Stage Plan) :=
  ofFunction fun value => .ok (.fresh (.constant value))

/-- A call that yields an empty list. -/
def empty : Value → Mapping (Stage Plan) :=
  ofFunction fun _ => .ok (.fresh .emptyList)

/-- No call at all. -/
def fail : Value → Mapping (Stage Plan) :=
  ofFunction fun _ => .error .mapperFailed

/-- A call that yields the list with one more item at its end. -/
def append (item : Value) : Value → Mapping (Stage Plan) :=
  ofFunction fun value => (Mapper.extended item value).map fun list => .fresh (.constant list)

/-- A known call. -/
def known (label : String) : Value → Mapping (Stage Plan) :=
  ofFunction fun _ => .ok (.known label)

/-- A clone of a known call. -/
def cloneOf (label : String) : Value → Mapping (Stage Plan) :=
  ofFunction fun _ => .ok (.cloneOf label)

/-- A known call, or a call that yields an empty list if the value is empty. -/
def unlessEmpty (label : String) : Value → Mapping (Stage Plan) :=
  ofFunction fun value => .ok (if value.isEmpty then .fresh .emptyList else .known label)

/-- A known call, after another one was canceled. -/
def canceling (canceled label : String) : Value → Mapping (Stage Plan) :=
  fun _ => ⟨[canceled], .ok (.known label)⟩

end FlatMapper

end TraceArchive
