import TraceArchive.Calendar
import TraceArchive.Text.Numeral

/-!
# Names of partitions

Documents of one type are stored in one partition a day.  A partition is named after the index, the
document type and its date, for example `zipkin-span-2016-03-01`.  A pattern ends in an asterisk and
stands for every partition whose name starts with what is before it.
-/

set_option autoImplicit false

namespace TraceArchive

/-- How the partitions of a store are named. -/
structure Naming where
  index : String
  separator : String
  deriving DecidableEq, Repr

/-- The days that one entry of a list of partitions stands for. -/
inductive Block where
  | day (date : Date)
  | month (year : Int) (month : Nat)
  | year (year : Int)
  deriving DecidableEq, Repr

namespace Naming

/-- A number with at least a given count of digits, as text. -/
def padded (width n : Nat) : String :=
  String.ofList (Text.decimal width n)

/-- What the names of all partitions of a document type start with. -/
def stem (naming : Naming) (docType : String) : String :=
  naming.index ++ "-" ++ docType ++ "-"

/-- The pattern of all partitions of a document type. -/
def allPattern (naming : Naming) (docType : String) : String :=
  naming.stem docType ++ "*"

/-- The name of the partition of a date. -/
def ofDate (naming : Naming) (docType : String) (date : Date) : String :=
  naming.stem docType ++ padded 4 date.year.toNat ++ naming.separator ++ padded 2 date.month ++
    naming.separator ++ padded 2 date.day

/-- The name or the pattern of a block of days. -/
def ofBlock (naming : Naming) (docType : String) : Block → String
  | .day date => naming.ofDate docType date
  | .month year month =>
      naming.stem docType ++ padded 4 year.toNat ++ naming.separator ++ padded 2 month ++
        naming.separator ++ "*"
  | .year year => naming.stem docType ++ padded 4 year.toNat ++ naming.separator ++ "*"

end Naming
end TraceArchive
