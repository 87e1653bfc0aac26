import TraceArchive.Text.Quoted

/-!
# Logging

A logger shows lines from its level on, and one whose level is not set shows them all.  A level goes
by its name in capitals; two levels have a second name.

* `shows_unset`: a logger whose level is not set shows every line.
-/

set_option autoImplicit false

namespace TraceArchive

/-- How important a line is, or from where on lines are shown. -/
inductive LogLevel where
  | unset
  | debug
  | info
  | warning
  | error
  | critical
  deriving DecidableEq, Repr, Inhabited

namespace LogLevel

/-- The name of a level. -/
def name : LogLevel → String
  | .unset => "NOTSET"
  | .debug => "DEBUG"
  | .info => "INFO"
  | .warning => "WARNING"
  | .error => "ERROR"
  | .critical => "CRITICAL"

/-- The level with a name. -/
def ofName? : String → Option LogLevel
  | "NOTSET" => some .unset
  | "DEBUG" => some .debug
  | "INFO" => some .info
  | "WARN" => some .warning
  | "WARNING" => some .warning
  | "ERROR" => some .error
  | "FATAL" => some .critical
  | "CRITICAL" => some .critical
  | _ => none

/-- The importance of a level. -/
def rank : LogLevel → Nat
  | .unset => 0
  | .debug => 10
  | .info => 20
  | .warning => 30
  | .error => 40
  | .critical => 50

/-- A logger of this level shows lines of another level. -/
def shows (own line : LogLevel) : Bool :=
  own.rank ≤ line.rank

@[simp] theorem shows_unset (line : LogLevel) : shows .unset line = true := by
  simp [shows, rank]

@[simp] theorem ofName?_name (level : LogLevel) : ofName? level.name = some level := by
  cases level <;> rfl

end LogLevel

/-- The logger of the library. -/
structure Logger where
  level : LogLevel
  handlers : Nat
  deriving DecidableEq, Repr

namespace Logger

/-- The name of the logger. -/
def name : String := "trace_query"

/-- How a line is laid out. -/
def layout : String := "%(asctime)s - %(name)s - %(levelname)s - %(message)s"

/-- A logger that nobody has set up. -/
def untouched : Logger := ⟨.info, 0⟩

/-- The wording for a name that is no level. -/
def unknownLevelMessage (name : String) : String :=
  "Unknown level: " ++ Text.quoted name

/-- Sets the level by its name, `INFO` when the name is missing or empty, and adds the first
handler.  An unknown name is given back and changes nothing. -/
def setUp (logger : Logger) (name : Option String) : Except String Logger :=
  let wanted := (name.filter (· ≠ "")).getD LogLevel.info.name
  match LogLevel.ofName? wanted with
  | some level => .ok ⟨level, max 1 logger.handlers⟩
  | none => .error wanted

end Logger
end TraceArchive
