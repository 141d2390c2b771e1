/-
  EventCalendar.Proofs.Record.ZoneNames

  The zone that a record is said to be in, and the zone that its start is read
  in.  Both are the zone that the start tells, where it tells one that is known.
  Where it does not, the start is read in the zone that the interpreter's own
  zone name stands for, and that name is reported as it was given: under a
  display name, an old name or an unknown one the two have different names.
-/

import EventCalendar.Proofs.Record.InlineZones
import EventCalendar.Proofs.Record.WholeDays
import EventCalendar.Proofs.Zone.Names

namespace EventCalendar

open EventCalendar.Text EventCalendar.Time EventCalendar.DateToken

/-- The canonical name of the zone that the start of a record tells, if it tells one that is known:
    a day tells none, a universal time `UTC`, and a local time the zone named for it. -/
def RawRecord.toldZone (r : RawRecord) : Option String :=
  r.start.bind fun rawStart =>
    let value := (splitZone (trim rawStart)).2
    if isDay value then none
    else if value.endsWith "Z" then some Zone.defaultName
    else Zone.canonical? r.startName

theorem RawRecord.isCanonical_of_toldZone {r : RawRecord} {name : String}
    (h : r.toldZone = some name) : Zone.isCanonical name = true := by
  obtain ⟨rawStart, -, h⟩ := Option.bind_eq_some_iff.mp h
  dsimp only at h
  split at h
  · cases h
  split at h
  · cases h
    exact Zone.isCanonical_iff.mpr (.inl rfl)
  · exact Zone.isCanonical_of_canonical? h

namespace DateToken.Reader

variable {r : Reader} {token : String} {zone : Option String} {m : Moment}

/-! ## The zone of a token -/

/-- The canonical name of a reader's own zone. -/
def zoneName (r : Reader) : String := (Zone.canonical? (some r.defaultZone)).getD Zone.defaultName

theorem name_zone (r : Reader) : r.zone.name = r.zoneName := by
  rw [zone, Zone.name_resolve, zoneName, Zone.resolvedName, Zone.canonical?_defaultName]
  cases Zone.canonical? (some r.defaultZone) <;> rfl

/-- A zone that is named has its canonical name, or the name of the reader's own zone. -/
theorem name_zoneFor (r : Reader) (name : Option String) :
    (r.zoneFor name).name = (Zone.canonical? name).getD r.zoneName := by
  cases name with
  | none => exact r.name_zone
  | some name =>
    rw [zoneFor, Zone.name_resolve, Zone.resolvedName, zoneName]
    cases Zone.canonical? (some name) <;> rfl

/-- A reader's own zone goes by its canonical name exactly if that is the name it is given by. -/
theorem defaultZone_eq_zoneName_iff (r : Reader) :
    r.defaultZone = r.zoneName ↔ Zone.canonical? (some r.defaultZone) = some r.defaultZone := by
  rw [zoneName]
  cases h : Zone.canonical? (some r.defaultZone) with
  | none =>
    refine iff_of_false (fun hname => ?_) nofun
    rw [Option.getD_none] at hname
    rw [hname, Zone.canonical?_defaultName] at h
    cases h
  | some name => exact eq_comm.trans Option.some_inj.symm

theorem isCanonical_zoneName (r : Reader) : Zone.isCanonical r.zoneName = true := by
  rw [← r.name_zone, zone, Zone.name_resolve]
  exact Zone.isCanonical_resolvedName _ _

theorem firstName_firstName (a b : Option String) : firstName (firstName a b) b = firstName a b := by
  cases a with
  | none =>
    cases b with
    | none => rfl
    | some name => exact ite_self (some name)
  | some name =>
    by_cases hname : name = ""
    · rw [firstName, if_pos hname]
      cases b with
      | none => rfl
      | some name => exact ite_self (some name)
    · rw [firstName_some hname, firstName_some hname]

theorem zone_of_readDay {value : String} (h : (r.readDay value).outcome = .ok m) :
    m.zone = r.zone := by
  unfold readDay at h
  dsimp only at h
  split at h
  · cases h
  · rw [Traced.outcome_bind] at h
    obtain ⟨wall, -, h⟩ := bind_eq_ok_iff.mp h
    cases h
    rfl

/-- The zone of a token that is read: that of its form. -/
theorem zone_of_read (h : (r.read token zone).outcome = .ok m) :
    m.zone =
      let (inner, value) := splitZone (trim token)
      if isDay value = true then r.zone
      else if value.endsWith "Z" = true then .utc
      else r.zoneFor (firstName zone inner) := by
  rw [outcome_read] at h
  generalize splitZone (trim token) = parts at h ⊢
  obtain ⟨inner, value⟩ := parts
  dsimp only at h ⊢
  split at h
  · cases h
  split at h
  · cases h
  split at h
  · rename_i hday
    rw [if_pos hday]
    exact zone_of_readDay h
  rename_i hday
  rw [if_neg hday]
  split at h
  · rename_i huniversal
    obtain ⟨wall, -, rfl⟩ := map_eq_ok_iff.mp h
    rw [if_pos huniversal]
  · rename_i hlocal
    obtain ⟨wall, -, rfl⟩ := map_eq_ok_iff.mp h
    rw [if_neg hlocal]

end DateToken.Reader

theorem Readings.zone_first (x : Readings) : x.first.zone = x.start.zone := by
  unfold Readings.first
  split <;> rfl

namespace Interpreter

variable {i : Interpreter} {r : RawRecord} {x : Readings} {dates : RecordDates}

/-! ## The zone of a record -/

theorem outcome_zoneName (i : Interpreter) {ε : Type} (value : String) (zone : Option String)
    (allDay : Bool) :
    (i.zoneName (ε := ε) value zone allDay).outcome =
      .ok (if allDay = true then i.reader.defaultZone
        else if value.endsWith "Z" = true then Zone.defaultName
        else (Zone.canonical? (Reader.givenName zone)).getD i.reader.defaultZone) := by
  unfold zoneName
  split
  · rfl
  split
  · rfl
  cases Reader.givenName zone <;> rfl

/-- The zone that is reported and the zone of the start, both from what the start tells. -/
theorem zones_of_readings (h : i.readings r = .ok x) :
    x.zoneName = r.toldZone.getD i.reader.defaultZone ∧
      x.start.zone.name = r.toldZone.getD i.reader.zoneName := by
  unfold readings at h
  obtain ⟨rawStart, hrawStart, h⟩ := bind_eq_ok_iff.mp h
  obtain ⟨rawFinish, -, h⟩ := bind_eq_ok_iff.mp h
  have hstart := eq_some_of_given hrawStart
  rw [RawRecord.toldZone, RawRecord.startName, hstart]
  simp only [Option.bind_some]
  generalize hsplit : splitZone (trim rawStart) = parts at h ⊢
  obtain ⟨inner, value⟩ := parts
  dsimp only at h ⊢
  obtain ⟨start, hread, h⟩ := bind_eq_ok_iff.mp h
  obtain ⟨finish, -, h⟩ := bind_eq_ok_iff.mp h
  obtain ⟨zoneName, hzoneName, h⟩ := bind_eq_ok_iff.mp h
  cases h
  rw [dateOf, mapError_eq_ok_iff] at hread
  have hzone := Reader.zone_of_read hread
  rw [hsplit] at hzone
  dsimp only at hzone
  rw [Reader.firstName_firstName] at hzone
  rw [outcome_zoneName, Except.ok.injEq] at hzoneName
  rw [← hzoneName, hzone]
  split
  · exact ⟨rfl, i.reader.name_zone⟩
  split
  · exact ⟨rfl, rfl⟩
  · refine ⟨rfl, ?_⟩
    rw [← Reader.zoneFor_givenName, Reader.name_zoneFor]

theorem zoneName_of_dates (h : i.dates x = .ok dates) : dates.zoneName = x.zoneName := by
  obtain ⟨last, -, h⟩ := bind_eq_ok_iff.mp h
  unfold withRecurrence at h
  split at h
  · cases h
    rfl
  · obtain ⟨bound, -, h⟩ := bind_eq_ok_iff.mp h
    cases h
    rfl

/-- The start of a record is in a zone with a canonical name.  That name is reported exactly if the
    start tells its zone or the interpreter's own zone goes by its canonical name. -/
theorem zoneName_eq_name_iff (h : (i.interpret r).outcome = .ok dates) :
    Zone.isCanonical dates.start.zone.name = true ∧
      (dates.zoneName = dates.start.zone.name ↔
        r.toldZone ≠ none ∨
          Zone.canonical? (some i.reader.defaultZone) = some i.reader.defaultZone) := by
  rw [outcome_interpret] at h
  obtain ⟨x, hreadings, h⟩ := bind_eq_ok_iff.mp h
  rw [mapError_eq_ok_iff] at hreadings h
  obtain ⟨hreported, hname⟩ := zones_of_readings hreadings
  rw [zoneName_of_dates h, (dates_spec h).1, x.zone_first, hreported, hname]
  cases htold : r.toldZone with
  | some name => exact ⟨r.isCanonical_of_toldZone htold, iff_of_true rfl (.inl nofun)⟩
  | none =>
    refine ⟨i.reader.isCanonical_zoneName, ?_⟩
    simp only [Option.getD_none, ne_eq, not_true_eq_false, false_or]
    exact i.reader.defaultZone_eq_zoneName_iff

/-- A morning in a zone that goes by its display name, for an interpreter with an unknown zone. -/
theorem zoneName_wEurope :
    let i : Interpreter := ⟨.withZone (some "Nowhere/Special"), defaultHorizon⟩
    let r : RawRecord := ⟨some "20240101T090000", some "20240101T100000", none,
      some "\x22W. Europe Standard Time\x22", none⟩
    ∃ dates, (i.interpret r).outcome = .ok dates ∧ r.toldZone = some "Europe/Berlin" ∧
      dates.zoneName = dates.start.zone.name := by
  intro i r
  have htold : r.toldZone = some "Europe/Berlin" := by decide +kernel
  have hok : (i.interpret r).outcome.toOption.isSome = true := by decide +kernel
  obtain ⟨dates, hdates⟩ := Option.isSome_iff_exists.mp hok
  have h := toOption_eq_some_iff.mp hdates
  exact ⟨dates, h, htold, (zoneName_eq_name_iff h).2.mpr (.inl (by rw [htold]; nofun))⟩

/-- Under a display name or an unknown one the zone of the interpreter is reported by that name,
    for times and for days. -/
theorem zoneName_ne_pacific :
    let morning : RawRecord := ⟨some "20240101T090000", some "20240101T100000", none, none, none⟩
    let day : RawRecord := ⟨some "20240101", some "20240102", none, none, none⟩
    let zones (name : String) (r : RawRecord) : Option (String × String) :=
      (Interpreter.result ⟨.withZone (some name), defaultHorizon⟩ r).map fun dates =>
        (dates.zoneName, dates.start.zone.name)
    zones "Pacific Standard Time" morning = some ("Pacific Standard Time", "America/Los_Angeles") ∧
      zones "Pacific Standard Time" day = some ("Pacific Standard Time", "America/Los_Angeles") ∧
      zones "Nowhere/Special" morning = some ("Nowhere/Special", "UTC") := by
  decide +kernel

end Interpreter

end EventCalendar
