/-
  EventCalendar.Config.Basic

  Configuration: the settings, what counts as a value of each, and the
  environment variables that go before a configuration file.  A value that
  makes no sense is replaced and remarked upon.
-/

import EventCalendar.Text.Case
import EventCalendar.Text.Integer
import EventCalendar.Value
import EventCalendar.Zone.Names

namespace EventCalendar

open EventCalendar.Number EventCalendar.Text

/-! ## Settings -/

/-- The settings. -/
inductive Setting where
  /-- The number of occurrences of one series that are shown at most. -/
  | maxInstances
  /-- The zone of times that name none. -/
  | defaultTimezone
  /-- How many years a rule without an end goes on. -/
  | horizonYears
  /-- The first record that cannot be used ends an import. -/
  | strictImport
  /-- How much is logged. -/
  | logLevel
  deriving DecidableEq, Repr

namespace Setting

/-- All settings, in order. -/
def all : List Setting :=
  [.maxInstances, .defaultTimezone, .horizonYears, .strictImport, .logLevel]

/-- The key of a setting in a configuration file. -/
def key : Setting → String
  | .maxInstances => "max_instances"
  | .defaultTimezone => "default_timezone"
  | .horizonYears => "recurrence_horizon_years"
  | .strictImport => "strict_import"
  | .logLevel => "log_level"

/-- The environment variable of a setting. -/
def variableName : Setting → String
  | .maxInstances => "RECURRENCE_LITE_MAX_INSTANCES"
  | .defaultTimezone => "RECURRENCE_LITE_DEFAULT_TIMEZONE"
  | .horizonYears => "RECURRENCE_LITE_RECURRENCE_HORIZON_YEARS"
  | .strictImport => "RECURRENCE_LITE_STRICT_IMPORT"
  | .logLevel => "RECURRENCE_LITE_LOG_LEVEL"

/-- The value of a setting among some entries. -/
def find? (s : Setting) (entries : List (Value × Value)) : Option Value :=
  Value.lookup s.key entries

end Setting

/-- A configuration. -/
structure Config where
  maxInstances : Int
  defaultTimezone : String
  horizonYears : Int
  strictImport : Bool
  logLevel : String
  deriving DecidableEq, Repr

/-- Why entries give no configuration. -/
inductive ConfigError where
  /-- The value of a setting that is a whole number is infinite. -/
  | infinite (setting : Setting)
  /-- The value of a setting that is text holds a whole number that is too long to be written. -/
  | unwritable (setting : Setting)
  deriving DecidableEq, Repr

/-- The wording of an error. -/
def ConfigError.message : ConfigError → String
  | .infinite _ => "cannot convert float infinity to integer"
  | .unwritable _ =>
    s!"Exceeds the limit ({integerDigitLimit} digits) for integer string conversion; use " ++
      "sys.set_int_max_str_digits() to increase the limit"

namespace Config

/-! ## Whole numbers -/

/-- The range of a setting that is a whole number, and its value where none is given. -/
structure Range where
  setting : Setting
  default : Int
  least : Int
  most : Int

/-- The range of the number of occurrences. -/
def instancesRange : Range := ⟨.maxInstances, 1000, 1, 100000⟩

/-- The range of the horizon. -/
def horizonRange : Range := ⟨.horizonYears, 5, 1, 100⟩

/-- What a value is as a whole number. -/
inductive Whole where
  | number (n : Int)
  | infinite
  | notWhole
  deriving DecidableEq, Repr

/-- What a value is as a whole number: of a number with a fraction the whole part, of text or bytes
    the number that they spell. -/
def Whole.ofValue : Value → Whole
  | .bool b => .number (if b then 1 else 0)
  | .int n => .number n
  | .float (.finite negative mantissa exponent) =>
    .number (Binary64.truncate negative mantissa exponent)
  | .float (.infinite _) => .infinite
  | .text s =>
    match readInteger s with
    | .ok n => .number n
    | .error _ => .notWhole
  | .bytes b =>
    match readBytes b with
    | .ok n => .number n
    | .error _ => .notWhole
  | _ => .notWhole

namespace Range

variable (r : Range)

/-- The number of the range that is nearest to a number. -/
def nearest (n : Int) : Int := if n < r.least then r.least else if r.most < n then r.most else n

/-- What is remarked on a value. -/
def notes (raw : Value) : List Note :=
  match Whole.ofValue raw with
  | .infinite => []
  | .notWhole =>
    [.warning (s!"Config {r.setting.key}={raw.written} is not an int; " ++
      s!"using default {r.default}")]
  | .number n =>
    if n < r.least then
      [.warning s!"{r.setting.key} {n} below minimum; coercing to {r.least}"]
    else if r.most < n then
      [.warning s!"{r.setting.key} {n} above maximum; coercing to {r.most}"]
    else []

/-- The setting that a value gives. -/
def ofValue (raw : Value) : Except ConfigError Int :=
  match Whole.ofValue raw with
  | .infinite => .error (.infinite r.setting)
  | .notWhole => .ok r.default
  | .number n => .ok (r.nearest n)

/-- The setting among some entries. -/
def read (entries : List (Value × Value)) : Traced ConfigError Int := do
  let raw := (r.setting.find? entries).getD (.int r.default)
  Traced.noteAll (r.notes raw)
  Traced.ofExcept (r.ofValue raw)

end Range

/-! ## Other settings -/

/-- The text that the value of a setting stands for. -/
def textOfValue (s : Setting) (raw : Value) : Except ConfigError String :=
  if raw.isWritable then .ok raw.plain else .error (.unwritable s)

/-- The zone that a name stands for. -/
def zoneOfName (name : String) : String :=
  (Zone.canonical? (some name)).getD Zone.defaultName

/-- The zone among some entries. A value that counts as false is as good as none. -/
def readZone (entries : List (Value × Value)) : Traced ConfigError String := do
  let raw := ((Setting.defaultTimezone.find? entries).filter Value.isTruthy).getD
    (.text Zone.defaultName)
  let name ← Traced.ofExcept (textOfValue .defaultTimezone raw)
  if (← Zone.askCanonical (some name)).isNone then
    Traced.note (.warning
      s!"Config default_timezone={raw.written} is unknown; using {Zone.defaultName}")
  return zoneOfName name

/-- The words that count as true. -/
def trueWords : List String := ["true", "1", "yes", "on"]

/-- Strictness as a value gives it: of text only certain words count as true. -/
def strictOfValue : Value → Bool
  | .text s => trueWords.contains (lower (trim s))
  | v => v.isTruthy

/-- Strictness among some entries. -/
def readStrict (entries : List (Value × Value)) : Bool :=
  match Setting.strictImport.find? entries with
  | none => false
  | some v => strictOfValue v

/-- The log level where none is given. -/
def defaultLevel : String := "INFO"

/-- The log level among some entries, in capital letters. -/
def readLevel (entries : List (Value × Value)) : Except ConfigError String :=
  match Setting.logLevel.find? entries with
  | none | some .null => .ok defaultLevel
  | some v => (textOfValue .logLevel v).map upper

/-! ## Configurations -/

/-- The configuration where nothing is said. -/
def default : Config where
  maxInstances := instancesRange.default
  defaultTimezone := Zone.defaultName
  horizonYears := horizonRange.default
  strictImport := false
  logLevel := defaultLevel

/-- The configuration that some entries give. -/
def ofEntries (entries : List (Value × Value)) : Traced ConfigError Config := do
  let maxInstances ← instancesRange.read entries
  let horizonYears ← horizonRange.read entries
  let defaultTimezone ← readZone entries
  let logLevel ← Traced.ofExcept (readLevel entries)
  return { maxInstances, defaultTimezone, horizonYears, strictImport := readStrict entries
           logLevel }

/-- The value of a setting. -/
def value (c : Config) : Setting → Value
  | .maxInstances => .int c.maxInstances
  | .defaultTimezone => .text c.defaultTimezone
  | .horizonYears => .int c.horizonYears
  | .strictImport => .bool c.strictImport
  | .logLevel => .text c.logLevel

/-- The text of a configuration. -/
def text (c : Config) : String :=
  let part (s : Setting) : String := s.key ++ "=" ++ (c.value s).written
  "Config(" ++ Value.commaSeparated (Setting.all.map part) ++ ")"

/-! ## The environment -/

/-- The variables of an environment. -/
abbrev Environment := List (String × String)

/-- What a variable says about a setting; an empty one says nothing. -/
def override? (environment : Environment) (s : Setting) : Option String :=
  (environment.lookup s.variableName).filter (· != "")

/-- The settings that an environment has a say in. -/
def overridden (environment : Environment) : List Setting :=
  Setting.all.filter fun s => (override? environment s).isSome

/-- The entries of a configuration, with what an environment says in place of its settings. -/
def entries (c : Config) (environment : Environment) : List (Value × Value) :=
  Setting.all.map fun s =>
    (.text s.key, ((override? environment s).map .text).getD (c.value s))

/-- The configuration after an environment has had its say. -/
def override (c : Config) (environment : Environment) : Traced ConfigError Config := do
  if (overridden environment).isEmpty then return c
  let keys := ((overridden environment).map Setting.key).mergeSort
  Traced.note (.debug
    s!"Applying environment overrides: {(Value.list (keys.map .text)).written}")
  ofEntries (c.entries environment)

end Config

end EventCalendar
