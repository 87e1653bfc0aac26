import TraceArchive.Document.Member
import TraceArchive.Partition.Name

/-!
# Configuration of a span store

How partitions are named, whether the high half of a trace ID counts, how far back names are
looked up (in milliseconds), and how many hits a search may give.
-/

set_option autoImplicit false

namespace TraceArchive

/-- The configuration of a span store. -/
structure StoreConfig where
  index : String
  dateSeparator : String
  strictTraceId : Bool
  namesLookback : Int
  maxHits : Int
  deriving DecidableEq, Repr

namespace StoreConfig

open Document

/-- Reads a configuration from its members: the lookback is positive, and so is the number of hits,
which is at most ten thousand. -/
def ofMembers (members : Members) : Checked StoreConfig :=
  StoreConfig.mk
    <$> optional ["index"] "zipkin" text members
    <*> optional ["date_separator"] "-" text members
    <*> optional ["strict_trace_id"] true flag members
    <*> optional ["names_lookback"] 86400000 (integerAbove 0) members
    <*> optional ["max_hits"] 10000 (integerWithin 0 10000) members

/-- Reads a configuration. -/
def read : Json → Checked StoreConfig :=
  record "SpanStoreConfig" ofMembers

end StoreConfig
end TraceArchive
