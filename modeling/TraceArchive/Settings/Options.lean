import TraceArchive.Document.Member

/-!
# Options of settings

Options stand among the values that are given for settings.  They say how the variables of an
environment are taken: whether the case of their names matters, what comes before the names, whether
empty variables are skipped, and which text stands for nothing.  With an option of its own the
sources of settings can be left out altogether.

* `ofGiven`: the options among given values, or the first one that cannot be used.
* `sameName_refl`: a name stands for its own setting.
-/

set_option autoImplicit false

namespace TraceArchive

/-- Why an option cannot be used. -/
inductive OptionError where
  | wrongKind
  | fewParts (count : Nat)
  | manyParts
  | wrongArguments (value : Json)
  | unusablePrefix
  deriving Repr

/-- The wording of an error, where it has one. -/
def OptionError.message? : OptionError → Option String
  | .wrongKind => none
  | .fewParts count =>
      some ("not enough values to unpack (expected 2, got " ++ toString count ++ ")")
  | .manyParts => some "too many values to unpack (expected 2)"
  | .wrongArguments value =>
      some ("cli_parse_args must be a list or tuple of strings, received <class " ++
        Text.quoted value.kindWord ++ ">")
  | .unusablePrefix =>
      some ("error getting value for field \x22STORE_TYPE\x22 from source " ++
        "\x22EnvSettingsSource\x22")

/-- How the variables of an environment are taken, if settings have sources at all. -/
structure SettingsOptions where
  caseSensitive : Bool
  variablePrefix : String
  skipsEmpty : Bool
  nullWord : Option String
  hasSources : Bool
  deriving DecidableEq, Repr, Inhabited

namespace SettingsOptions

/-- The names of all options.  Most of them change nothing about settings that are plain values. -/
def names : List String := [
  "_case_sensitive", "_nested_model_default_partial_update", "_env_prefix", "_env_prefix_target",
  "_env_file", "_env_file_depth", "_env_file_encoding", "_env_ignore_empty",
  "_env_nested_delimiter", "_env_nested_max_split", "_env_parse_none_str", "_env_parse_enums",
  "_cli_prog_name", "_cli_parse_args", "_cli_settings_source", "_cli_parse_none_str",
  "_cli_hide_none_type", "_cli_avoid_json", "_cli_enforce_required",
  "_cli_use_class_docs_for_groups", "_cli_exit_on_error", "_cli_prefix", "_cli_flag_prefix_char",
  "_cli_implicit_flags", "_cli_ignore_unknown_args", "_cli_kebab_case", "_cli_shortcuts",
  "_cli_show_env_vars", "_secrets_dir", "_build_sources"]

/-- The value of an option, unless it is null. -/
def value? (given : Members) (name : String) : Option Json :=
  (Entries.get? name given).filter (· != .null)

/-- The text that an option is. -/
def text? (given : Members) (name : String) : Option String :=
  (value? given name).bind Json.text?

/-- The value of an option does not count as empty. -/
def isOn (given : Members) (name : String) : Bool :=
  (value? given name).any fun value => !value.isEmpty

/-- The option for sources is a pair whose first part lists them.  There are none to choose from, so
that the list can only be empty. -/
def leavesOutSources (given : Members) : Except OptionError Bool :=
  match value? given "_build_sources" with
  | none => .ok false
  | some value => match value.elements? with
      | none => .error .wrongKind
      | some [sources, _] => if sources.isEmpty then .ok true else .error .wrongKind
      | some parts => .error (if parts.length < 2 then .fewParts parts.length else .manyParts)

/-- The value names files or folders: it is a text or has texts as elements. -/
def namesPaths (value : Json) : Bool :=
  match value.elements? with
  | some parts => parts.all fun part => part.text?.isSome
  | none => false

/-- The value counts as empty or is a number. -/
def isCount (value : Json) : Bool :=
  value.isEmpty || value.elements?.isNone

/-- The value lists arguments, or is a flag or zero, which say that there are none. -/
def listsArguments : Json → Bool
  | .arr _ => true
  | .bool _ => true
  | .int n => n = 0
  | .float value => value.isZero
  | _ => false

/-- What comes before names of variables goes before the names of settings, unless it is meant for
other names only, which settings do not have. -/
def prefixApplies (given : Members) : Bool :=
  (value? given "_env_prefix_target").all fun target =>
    target == .str "variable" || target == .str "all"

/-- What comes before the names of variables.  It has a length in any case, and is a text where it
applies. -/
def prefixOf (given : Members) : Except OptionError String :=
  match value? given "_env_prefix" with
  | none => .ok ""
  | some value =>
      if !prefixApplies given then .ok ""
      else match value with
        | .str text => .ok text
        | _ => .error .unusablePrefix

/-- The options among given values, or the first one that cannot be used. -/
def ofGiven (given : Members) : Except OptionError SettingsOptions := do
  if ← leavesOutSources given then return { (default : SettingsOptions) with hasSources := false }
  let fits (name : String) (test : Json → Bool) : Bool := (value? given name).all test
  if !(fits "_env_prefix" (·.elements?.isSome) && fits "_env_nested_max_split" isCount &&
      fits "_env_file" namesPaths) then
    throw .wrongKind
  match (value? given "_cli_parse_args").filter (!listsArguments ·) with
  | some value => throw (.wrongArguments value)
  | none =>
      let variablePrefix ← prefixOf given
      if !fits "_secrets_dir" namesPaths then throw .wrongKind
      return {
        caseSensitive := isOn given "_case_sensitive"
        variablePrefix := variablePrefix
        skipsEmpty := isOn given "_env_ignore_empty"
        nullWord := text? given "_env_parse_none_str"
        hasSources := true }

/-- Two names are the same, whatever the case of their letters. -/
def sameName (a b : String) : Bool :=
  Text.lower a = Text.lower b

@[simp] theorem sameName_refl (name : String) : sameName name name = true := by
  simp [sameName]

/-- A variable stands for a setting. -/
def standsFor (options : SettingsOptions) (variableName setting : String) : Bool :=
  let wanted := options.variablePrefix ++ setting
  if options.caseSensitive then variableName = wanted else sameName variableName wanted

/-- A variable with this value counts as absent. -/
def skips (options : SettingsOptions) (value : Json) : Bool :=
  options.skipsEmpty && value == .str ""

/-- What the value of a variable stands for. -/
def variableValue (options : SettingsOptions) (value : Json) : Json :=
  match value with
  | .str text => if options.nullWord = some text then .null else .str text
  | value => value

end SettingsOptions
end TraceArchive
