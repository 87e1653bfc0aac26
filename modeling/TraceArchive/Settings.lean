import TraceArchive.Settings.Options
import TraceArchive.Store.Config

/-!
# Settings

Settings come from the variables of an environment and from values that are given directly, which
win.  Given names may be in any case, and so may those of variables, unless an option says
otherwise.  Of several variables for one setting the last one counts, of several given values the
first one.  Each backend has an account of its own.

* `Settings.read`: the settings of an environment and given values, and which values are left.
* `Settings.storeConfig`: the configuration of the span store that they describe.
-/

set_option autoImplicit false

namespace TraceArchive

/-- The kinds of search backends. -/
inductive Engine where
  | elasticsearch
  | opensearch
  deriving DecidableEq, Repr, Inhabited

/-- The name of a kind of backend. -/
def Engine.name : Engine → String
  | .elasticsearch => "elasticsearch"
  | .opensearch => "opensearch"

/-- Where a backend is and who is known there. -/
structure Account where
  host : String
  username : String
  password : String
  deriving DecidableEq, Repr, Inhabited

/-- The settings of the library. -/
structure Settings where
  engine : Engine
  elastic : Account
  openSearch : Account
  caCertPath : Option String
  indexPrefix : String
  dateSeparator : String
  strictTraceId : Bool
  namesLookback : Int
  maxHits : Int
  logLevel : String
  deriving DecidableEq, Repr, Inhabited

/-- Why settings cannot be read. -/
inductive SettingsError where
  | option (error : OptionError)
  | invalid (issues : List Issue)
  deriving Repr

namespace Settings

open Document

/-- The names of the settings, in order. -/
def names : List String := [
  "STORE_TYPE", "ES_HOST", "ES_USERNAME", "ES_PASSWORD", "OS_HOST", "OS_USERNAME", "OS_PASSWORD",
  "CA_CERT_PATH", "INDEX_PREFIX", "INDEX_DATE_SEPARATOR", "STRICT_TRACE_ID", "NAMES_LOOKBACK",
  "SEARCH_MAX_HITS", "LOG_LEVEL"]

/-- Reads the kind of a backend. -/
def readEngine : Json → Checked Engine
  | .str "elasticsearch" => .ok .elasticsearch
  | .str "opensearch" => .ok .opensearch
  | _ => .fail .unknownBackend

/-- The value of the last variable for a setting that is not skipped. -/
def fromEnvironment?
    (options : SettingsOptions)
    (environment : Members)
    (name : String) :
    Option Json :=
  let found := environment.findRev? fun entry =>
    options.standsFor entry.1 name && !options.skips entry.2
  found.map fun entry => options.variableValue entry.2

/-- The first value that is given for a setting. -/
def fromGiven? (given : Members) (name : String) : Option Json :=
  (given.find? fun entry => SettingsOptions.sameName entry.1 name).map Prod.snd

/-- The values of the settings that are present, given ones before those of the environment. -/
def gather (options : SettingsOptions) (environment given : Members) : Members :=
  if options.hasSources then
    names.filterMap fun name =>
      ((fromGiven? given name).or (fromEnvironment? options environment name)).map (name, ·)
  else []

/-- The given values that are neither settings nor options; none without sources. -/
def extras (options : SettingsOptions) (given : Members) : Members :=
  if options.hasSources then
    given.filter fun entry =>
      !SettingsOptions.names.contains entry.1 && !names.any (SettingsOptions.sameName entry.1)
  else []

/-- Reads settings from their members. -/
def ofMembers (members : Members) : Checked Settings :=
  (fun engine elasticHost elasticUser elasticPassword openHost openUser openPassword =>
      Settings.mk engine ⟨elasticHost, elasticUser, elasticPassword⟩
        ⟨openHost, openUser, openPassword⟩)
    <$> optional ["STORE_TYPE"] .elasticsearch readEngine members
    <*> optional ["ES_HOST"] "localhost:9200" text members
    <*> optional ["ES_USERNAME"] "elastic" text members
    <*> optional ["ES_PASSWORD"] "password" text members
    <*> optional ["OS_HOST"] "localhost:9200" text members
    <*> optional ["OS_USERNAME"] "admin" text members
    <*> optional ["OS_PASSWORD"] "admin" text members
    <*> optional ["CA_CERT_PATH"] none (nullable text) members
    <*> optional ["INDEX_PREFIX"] "zipkin" text members
    <*> optional ["INDEX_DATE_SEPARATOR"] "-" text members
    <*> optional ["STRICT_TRACE_ID"] true flag members
    <*> optional ["NAMES_LOOKBACK"] 86400000 integer members
    <*> optional ["SEARCH_MAX_HITS"] 10000 integer members
    <*> optional ["LOG_LEVEL"] "INFO" text members

/-- Reads settings from an environment and given values, with the given values that are left. -/
def read (environment given : Members) : Except SettingsError (Settings × Members) := do
  let options ← (SettingsOptions.ofGiven given).mapError .option
  match ofMembers (gather options environment given) with
  | .ok settings => return (settings, extras options given)
  | .refused issues => throw (.invalid issues)

/-- The configuration of the span store, within its bounds. -/
def storeConfig (settings : Settings) : Checked StoreConfig :=
  StoreConfig.ofMembers [
    ("index", .str settings.indexPrefix),
    ("date_separator", .str settings.dateSeparator),
    ("strict_trace_id", .bool settings.strictTraceId),
    ("names_lookback", .int settings.namesLookback),
    ("max_hits", .int settings.maxHits)]

/-- The account of the backend that is in use. -/
def account (settings : Settings) : Account :=
  match settings.engine with
  | .elasticsearch => settings.elastic
  | .opensearch => settings.openSearch

end Settings
end TraceArchive
