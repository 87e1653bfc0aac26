import TraceArchive.Calendar.Instant
import TraceArchive.Store.Config

/-!
# Span stores

A span store is opened with a configuration, or with members that nobody has checked.  Those are
taken as they are: texts in their plain form, a flag by whether it counts as empty, the lookback as
any number, and the number of hits as the backend is to get it.
-/

set_option autoImplicit false

namespace TraceArchive

/-- What the lookups of a span store go by; without a lookback no names can be looked up. -/
structure SpanStore where
  naming : Naming
  strictTraceId : Bool
  namesLookback : Option Millis
  maxHits : Json

/-- The span store of a configuration. -/
def StoreConfig.store (config : StoreConfig) : SpanStore where
  naming := ⟨config.index, config.dateSeparator⟩
  strictTraceId := config.strictTraceId
  namesLookback := some (.whole config.namesLookback)
  maxHits := .int config.maxHits

namespace SpanStore

/-- The number of milliseconds that an unchecked value stands for, if any. -/
def lookbackOf? : Json → Option Millis
  | .int n => some (.whole n)
  | .bool b => some (.whole (if b then 1 else 0))
  | .float value => some (.real value)
  | _ => none

/-- The span store of unchecked members. -/
def ofMembers (members : Members) : SpanStore :=
  let get (name : String) (default : Json) : Json := (Entries.get? name members).getD default
  { naming := ⟨(get "index" (.str "zipkin")).plain, (get "date_separator" (.str "-")).plain⟩
    strictTraceId := !(get "strict_trace_id" (.bool true)).isEmpty
    namesLookback := lookbackOf? (get "names_lookback" (.int 86400000))
    maxHits := get "max_hits" (.int 10000) }

end SpanStore
end TraceArchive
