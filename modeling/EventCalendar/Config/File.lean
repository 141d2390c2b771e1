/-
  EventCalendar.Config.File

  Configuration files: the path of the file, and the configuration that its
  text gives.
-/

import EventCalendar.Config.Basic
import EventCalendar.Text.Split
import EventCalendar.Yaml.Reader

namespace EventCalendar

open EventCalendar.Text

/-! ## Paths -/

/-- What stands at a path. -/
inductive FileContent where
  | absent
  | directory
  | text (content : String)
  deriving DecidableEq, Repr

/-- The content of a text file, with one character for each end of line. -/
def newlines : List Char → List Char
  | '\r' :: '\n' :: rest => '\n' :: newlines rest
  | '\r' :: rest => '\n' :: newlines rest
  | c :: rest => c :: newlines rest
  | [] => []

/-- The shortest form of a path: without empty segments and those that stand for the same
    directory. -/
def shortPath (path : String) : String :=
  let segments := (splitAt '/' path.toList).filter fun s => s != [] && s != ['.']
  let joined := String.intercalate "/" (segments.map String.ofList)
  if path.startsWith "/" then "/" ++ joined else if joined = "" then "." else joined

/-! ## Loading -/

/-- Why there is no configuration. -/
inductive LoadError where
  /-- The text cannot be read. -/
  | unreadable
  /-- The text holds something else than settings. -/
  | notSettings
  /-- A directory stands at the path. -/
  | directory
  | config (cause : ConfigError)
  deriving DecidableEq, Repr

/-- The wording of an error. -/
def LoadError.message : LoadError → String
  | .unreadable => "Unable to parse config file"
  | .notSettings => "Config file must contain a mapping at top level"
  | .directory | .config _ => ""

namespace Config

/-- The name of the configuration file where no path is given. -/
def defaultPath : String := "recurrence_lite.yaml"

/-- The path of the configuration file; an empty one is as good as none. -/
def path (given : Option String) : String := shortPath ((given.filter (· != "")).getD defaultPath)

/-- The configuration in the text of a file. -/
def ofText (path text : String) : Traced LoadError Config := do
  match Yaml.read? (String.ofList (newlines text.toList)) with
  | none => throw .unreadable
  | some value =>
    let entries ← match value with
      | .null => pure []
      | .map entries => pure entries
      | other => do
        Traced.note (.warning
          s!"Config file {path} parsed but top-level is not a mapping: {other.written}")
        throw .notSettings
    let config ← (ofEntries entries).mapError .config
    Traced.note (.info s!"Loaded configuration from {path}")
    Traced.note (.debug s!"Configuration values: {config.text}")
    return config

/-- The configuration in what stands at a path. -/
def load (path : String) (content : FileContent) : Traced LoadError Config := do
  Traced.note (.debug s!"Attempting to load config from {path}")
  match content with
  | .absent =>
    Traced.note (.info s!"Config file {path} not found; using defaults")
    Traced.note (.debug s!"Default Config in use: {default.text}")
    return default
  | .directory => throw .directory
  | .text content => ofText path content

end Config

end EventCalendar
