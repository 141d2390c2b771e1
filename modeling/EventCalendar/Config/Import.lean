/-
  EventCalendar.Config.Import

  Imports as a configuration wants them.
-/

import EventCalendar.Config.Basic
import EventCalendar.Record.Import

namespace EventCalendar.Config

/-- The interpreter of records that a configuration wants. -/
def interpreter (c : Config) : Interpreter where
  reader := .withZone (some c.defaultTimezone)
  horizonYears := c.horizonYears

/-- The importer that a configuration wants. -/
def importer (c : Config) : Importer where
  interpreter := c.interpreter
  strict := c.strictImport

end EventCalendar.Config
