/-
  EventCalendar.Proofs.Record.InlineZones

  Zones in front of the dates of a record and zones beside them.  For the start
  the two say the same.  For the end a zone in front counts only if the start
  has no zone: the zone of the start serves the end as if it stood beside it,
  and what stands beside a token goes before what stands in front.
-/

import EventCalendar.Proofs.DateToken.InlineZone
import EventCalendar.Proofs.Record.Readings
import EventCalendar.Proofs.Time.Distance

namespace EventCalendar

open EventCalendar.Text EventCalendar.Time EventCalendar.DateToken

/-- The name of the zone that a record gives for its start, beside it or in front of it. -/
def RawRecord.startName (r : RawRecord) : Option String :=
  r.start.bind fun rawStart =>
    Reader.givenName (Reader.firstName r.startZone (splitZone (trim rawStart)).1)

theorem RawRecord.startName_ne_empty {r : RawRecord} {name : String}
    (h : r.startName = some name) : name ≠ "" := by
  obtain ⟨rawStart, -, h⟩ := Option.bind_eq_some_iff.mp h
  exact bne_iff_ne.mp (Option.filter_eq_some_iff.mp h).2

/-! ## Names -/

theorem DateToken.trim_ne_empty {z : String} (hz : isBlankText z = false) : trim z ≠ "" := by
  rw [ne_eq, trim_eq_empty_iff, hz]
  exact Bool.false_ne_true

namespace DateToken.Reader

variable {name : String} {a b : Option String}

theorem firstName_some (h : name ≠ "") (b : Option String) : firstName (some name) b = some name :=
  if_neg h

theorem givenName_some (h : name ≠ "") : givenName (some name) = some name := by
  rw [givenName, Option.filter_some, if_pos (bne_iff_ne.mpr h)]

theorem firstName_givenName (a b : Option String) : firstName (givenName a) b = firstName a b := by
  cases a with
  | none => rfl
  | some name =>
    by_cases h : name = ""
    · rw [givenName, Option.filter_some, if_neg (by simp [h]), firstName, firstName, if_pos h]
    · rw [givenName_some h]

/-- Two names stand for one zone, whatever name comes after them. -/
def SameZone (r : Reader) (a b : Option String) : Prop :=
  ∀ inner, r.zoneFor (firstName a inner) = r.zoneFor (firstName b inner)

theorem sameZone_trim (r : Reader) {z : String} (hz : isBlankText z = false) :
    r.SameZone (some (trim z)) (some z) := by
  intro inner
  rw [firstName_some (trim_ne_empty hz), firstName_some (ne_empty_of_not_blank hz),
    r.zoneFor_trim hz]

theorem SameZone.firstName {r : Reader} (h : r.SameZone a b) (zone : Option String) :
    r.SameZone (firstName zone a) (firstName zone b) := by
  intro inner
  cases zone with
  | none => exact h inner
  | some name =>
    by_cases hname : name = ""
    · simp only [Reader.firstName, if_pos hname]
      exact h inner
    · simp only [Reader.firstName, if_neg hname]

/-- An empty name is none at all. -/
theorem sameZone_givenName (r : Reader) (a : Option String) : r.SameZone (givenName a) a := by
  intro inner
  rw [firstName_givenName]

/-- What is read from a token depends on the zone beside it only. -/
theorem SameZone.outcome_read {r : Reader} (h : r.SameZone a b) (token : String) :
    (r.read token a).outcome = (r.read token b).outcome := by
  rw [Reader.outcome_read, Reader.outcome_read]
  simp only [h _]

end DateToken.Reader

namespace Interpreter

variable {i : Interpreter} {r : RawRecord} {rawStart rawFinish v z : String}

/-! ## The result of a record -/

/-- The dates of a record, if they can be told. -/
def result (i : Interpreter) (r : RawRecord) : Option RecordDates :=
  (i.interpret r).outcome.toOption

theorem result_eq (i : Interpreter) (r : RawRecord) :
    i.result r = (i.readings r).toOption.bind fun x => (i.dates x).toOption := by
  rw [result, outcome_interpret]
  cases i.readings r with
  | error e => rfl
  | ok x =>
    simp only [mapError_ok, ok_bind]
    cases h : i.dates x <;> simp [Except.toOption, h]

theorem given_of_not_blank {text : String} (h : isBlankText text = false) (missing : RecordError) :
    given (some text) missing = .ok text := by
  simp only [given]
  rw [if_neg (Bool.eq_false_iff.mp h)]

theorem eq_some_of_given {property : Option String} {missing : RecordError} {text : String}
    (h : given property missing = .ok text) : property = some text := by
  cases property with
  | none => cases h
  | some s =>
    simp only [given] at h
    split at h
    · cases h
    · cases h
      rfl

section

variable {start finish rule startZone finishZone inner zone : Option String} {value : String}

theorem result_of_no_start {e : RecordError} (h : given start .noStart = .error e) :
    i.result ⟨start, finish, rule, startZone, finishZone⟩ = none := by
  rw [result_eq, readings, h]
  rfl

theorem result_of_no_finish {e : RecordError} (h : given finish .noFinish = .error e) :
    i.result ⟨start, finish, rule, startZone, finishZone⟩ = none := by
  rw [result_eq, readings, h]
  cases given start .noStart <;> rfl

/-- The result of a record from what is read of its start, its end and its zone. -/
theorem result_of_texts (hstart : given start .noStart = .ok rawStart)
    (hfinish : given finish .noFinish = .ok rawFinish)
    (hsplit : splitZone (trim rawStart) = (inner, value))
    (hzone : Reader.firstName startZone inner = zone) :
    i.result ⟨start, finish, rule, startZone, finishZone⟩ =
      (i.reader.read rawStart zone).outcome.toOption.bind fun start =>
      (i.reader.read rawFinish (Reader.firstName finishZone zone)).outcome.toOption.bind
        fun finish =>
      (i.zoneName (ε := RecordError) value zone (isDay value)).outcome.toOption.bind fun zoneName =>
      (i.dates ⟨start, finish, isDay value, zoneName, i.recurrenceOf rule⟩).toOption := by
  rw [result_eq, readings, hstart, hfinish]
  simp only [ok_bind, hsplit, hzone, dateOf]
  cases (i.reader.read rawStart zone).outcome with
  | error e => rfl
  | ok start =>
    simp only [mapError_ok, ok_bind]
    generalize (i.reader.read rawFinish _).outcome = finish
    cases finish with
    | error e => rfl
    | ok finish =>
      simp only [mapError_ok, ok_bind]
      cases (i.zoneName (ε := RecordError) value zone (isDay value)).outcome with
      | error e => rfl
      | ok zoneName => simp only [ok_bind, pure_eq_ok, Except.toOption, Option.bind_some]

end

/-! ## A zone in front of the start -/

theorem isBlankText_inZone (hv : IsLocalTime v) (z : String) :
    isBlankText (inZone z v) = false := by
  rw [← Bool.not_eq_true, ← trim_eq_empty_iff]
  intro hempty
  have hsplit := splitZone_inZone hv z
  rw [hempty] at hsplit
  cases hsplit

theorem isBlankText_localTime (hv : IsLocalTime v) : isBlankText v = false := by
  rw [← Bool.not_eq_true, ← trim_eq_empty_iff, hv.trim_eq]
  rintro rfl
  exact hv.ne_nil rfl

/-- The name of the zone of a record is that of its start, with or without blanks around it. -/
theorem outcome_zoneName_trim (hv : IsLocalTime v) (hz : isBlankText z = false) :
    (i.zoneName (ε := RecordError) v (some (trim z)) (isDay v)).outcome =
      (i.zoneName (ε := RecordError) v (some z) (isDay v)).outcome := by
  rw [zoneName, zoneName, hv.isDay_eq_false, hv.endsWith_eq_false,
    Reader.givenName_some (trim_ne_empty hz), Reader.givenName_some (ne_empty_of_not_blank hz)]
  simp only [Bool.false_eq_true, if_false, Traced.outcome_bind, Zone.askCanonical, ok_bind,
    Zone.canonical?_trim hz]

/-- A zone in front of a start that is a local time says the same as one beside it. -/
theorem result_inZone_start (hv : IsLocalTime v) (hz : isBlankText z = false) (r : RawRecord) :
    i.result { r with start := some (inZone z v), startZone := none } =
      i.result { r with start := some v, startZone := some z } := by
  have hsame := i.reader.sameZone_trim hz
  have hname := Reader.firstName_some (ne_empty_of_not_blank hz)
  have hfront := given_of_not_blank (isBlankText_inZone hv z) .noStart
  have hbeside := given_of_not_blank (isBlankText_localTime hv) .noStart
  cases hfinish : given r.finish .noFinish with
  | error e => rw [result_of_no_finish hfinish, result_of_no_finish hfinish]
  | ok rawFinish =>
    have hstart : (i.reader.read (inZone z v) (some (trim z))).outcome =
        (i.reader.read v (some z)).outcome := by
      rw [i.reader.outcome_read_localTime hv (splitZone_inZone hv z),
        i.reader.outcome_read_localTime hv hv.splitZone_trim, hsame, hname, hname]
    have hend := (hsame.firstName r.finishZone).outcome_read rawFinish
    have hinner : Reader.firstName none (some (trim z)) = some (trim z) := rfl
    rw [result_of_texts hfront hfinish (splitZone_inZone hv z) hinner,
      result_of_texts hbeside hfinish hv.splitZone_trim (hname none), hstart, hend,
      outcome_zoneName_trim hv hz]

/-! ## A zone in front of the end -/

/-- Ends that are read alike make no difference to a record. -/
theorem result_congr_finish {a b : String} {az bz : Option String}
    (ha : isBlankText a = false) (hb : isBlankText b = false) (r : RawRecord)
    (h : (i.reader.read a (Reader.firstName az r.startName)).outcome =
      (i.reader.read b (Reader.firstName bz r.startName)).outcome) :
    i.result { r with finish := some a, finishZone := az } =
      i.result { r with finish := some b, finishZone := bz } := by
  have hgivenA := given_of_not_blank ha .noFinish
  have hgivenB := given_of_not_blank hb .noFinish
  cases hstart : given r.start .noStart with
  | error e => rw [result_of_no_start hstart, result_of_no_start hstart]
  | ok rawStart =>
    rcases hsplit : splitZone (trim rawStart) with ⟨inner, value⟩
    have hname : r.startName = Reader.givenName (Reader.firstName r.startZone inner) := by
      rw [RawRecord.startName, eq_some_of_given hstart, Option.bind_some, hsplit]
    have hsame := i.reader.sameZone_givenName (Reader.firstName r.startZone inner)
    rw [hname, (hsame.firstName az).outcome_read, (hsame.firstName bz).outcome_read] at h
    rw [result_of_texts hstart hgivenA hsplit rfl, result_of_texts hstart hgivenB hsplit rfl, h]

/-- A zone in front of an end that is a local time counts if the start has no zone; else the end is
    read in the zone of the start. -/
theorem result_inZone_finish (hv : IsLocalTime v) (hz : isBlankText z = false) (r : RawRecord) :
    i.result { r with finish := some (inZone z v), finishZone := none } =
      i.result { r with finish := some v, finishZone := some (r.startName.getD z) } := by
  refine result_congr_finish (isBlankText_inZone hv z) (isBlankText_localTime hv) r ?_
  rw [i.reader.outcome_read_localTime hv (splitZone_inZone hv z),
    i.reader.outcome_read_localTime hv hv.splitZone_trim]
  have hinner (a b : Option String) : Reader.firstName (Reader.firstName none a) b =
      Reader.firstName a b := rfl
  cases hname : r.startName with
  | none =>
    have hne := ne_empty_of_not_blank hz
    rw [hinner, Option.getD_none, Reader.firstName_some hne, Reader.firstName_some hne,
      ← i.reader.zoneFor_trim hz]
    rfl
  | some name =>
    have hne : name ≠ "" := r.startName_ne_empty hname
    rw [hinner, Option.getD_some, Reader.firstName_some hne, Reader.firstName_some hne,
      Reader.firstName_some hne]

/-- Ends that stand in one zone are read alike. -/
theorem result_congr_finishZone (hv : IsLocalTime v) {name name' : String} (hname : name ≠ "")
    (hname' : name' ≠ "") (h : i.reader.zoneFor (some name) = i.reader.zoneFor (some name'))
    (r : RawRecord) :
    i.result { r with finish := some v, finishZone := some name } =
      i.result { r with finish := some v, finishZone := some name' } := by
  refine result_congr_finish (isBlankText_localTime hv) (isBlankText_localTime hv) r ?_
  rw [i.reader.outcome_read_localTime hv hv.splitZone_trim,
    i.reader.outcome_read_localTime hv hv.splitZone_trim, Reader.firstName_some hname,
    Reader.firstName_some hname, Reader.firstName_some hname', Reader.firstName_some hname', h]

/-- A record that starts with the year 2024 in one zone and ends with it in another. -/
def wholeYear (startZone : String) (finishZone : Option String) : RawRecord :=
  ⟨some "20240101T000000", some "20250101T000000", none, some startZone, finishZone⟩

theorem isLocalTime_newYear : IsLocalTime "20240101T000000" ∧ IsLocalTime "20250101T000000" :=
  ⟨⟨by decide, by decide⟩, by decide, by decide⟩

/-- Whatever the zones are, the record ends after it starts, in the zone named for its end. -/
theorem exists_result_wholeYear {name name' : String} (hname : name ≠ "") (hname' : name' ≠ "") :
    ∃ dates, i.result (wholeYear name (some name')) = some dates ∧
      dates.finish.zone = i.reader.zoneFor (some name') := by
  obtain ⟨hstart, hfinish⟩ := isLocalTime_newYear
  obtain ⟨zoneName, hzoneName⟩ := i.exists_outcome_zoneName "20240101T000000" (some name)
    (isDay "20240101T000000")
  let newYear : Wall := Wall.on ⟨2024, 1, 1, by decide, by decide, by decide, by decide, by decide,
    by decide⟩ 0 (by decide)
  let nextNewYear : Wall := Wall.on ⟨2025, 1, 1, by decide, by decide, by decide, by decide,
    by decide, by decide⟩ 0 (by decide)
  have hread : readForm .local "20240101T000000" = .ok newYear := by decide +kernel
  have hread' : readForm .local "20250101T000000" = .ok nextNewYear := by decide +kernel
  let x : Readings := ⟨⟨newYear, false, i.reader.zoneFor (some name)⟩,
    ⟨nextNewYear, false, i.reader.zoneFor (some name')⟩, false, zoneName, none⟩
  -- a whole year is more than any two clocks can be apart, so that the end comes after the start
  have hlast : x.last = .ok x.finish := by
    have hsince := (Moment.since_bounds x.finish x.first).1
    have hyear : (nextNewYear.micros : Int) - newYear.micros = 366 * microsPerDay := by
      decide +kernel
    have hafter : x.finish.before x.first = false := by
      rw [Moment.before, decide_eq_false_iff_not]
      rw [show x.finish.wall = nextNewYear from rfl, show x.first.wall = newYear from rfl,
        hyear] at hsince
      simp only [microsPerDay] at hsince
      omega
    rw [Readings.last, if_neg Bool.false_ne_true, hafter]
    rfl
  refine ⟨.once x.first x.finish false zoneName, ?_, rfl⟩
  rw [wholeYear, result_of_texts rfl rfl hstart.splitZone_trim (Reader.firstName_some hname none),
    i.reader.outcome_read_localTime hstart hstart.splitZone_trim,
    i.reader.outcome_read_localTime hfinish hfinish.splitZone_trim, hread, hread', hzoneName,
    Reader.firstName_some hname, Reader.firstName_some hname', Reader.firstName_some hname',
    hstart.isDay_eq_false]
  show (i.dates x).toOption = _
  rw [dates, hlast]
  rfl

/-- A zone in front of a date of a record that is a local time, beside which no zone is named, says
    for the start what it says beside it.  For the end it does so if the start has no zone; else
    the end is read in the zone of the start, so that the two say the same, whatever the record,
    exactly if both names stand for one zone. -/
theorem result_inZone (i : Interpreter) (hz : isBlankText z = false) :
    (∀ (v : String) (r : RawRecord), IsLocalTime v →
      i.result { r with start := some (inZone z v), startZone := none } =
        i.result { r with start := some v, startZone := some z }) ∧
    (∀ (v : String) (r : RawRecord), IsLocalTime v →
      i.result { r with finish := some (inZone z v), finishZone := none } =
        i.result { r with finish := some v, finishZone := some (r.startName.getD z) }) ∧
    ∀ name : String, name ≠ "" →
      ((∀ (v : String) (r : RawRecord), IsLocalTime v → r.startName = some name →
        i.result { r with finish := some (inZone z v), finishZone := none } =
          i.result { r with finish := some v, finishZone := some z }) ↔
        Zone.resolve (some name) i.reader.defaultZone =
          Zone.resolve (some z) i.reader.defaultZone) := by
  have hne := ne_empty_of_not_blank hz
  refine ⟨fun v r hv => result_inZone_start hv hz r, fun v r hv => result_inZone_finish hv hz r,
    fun name hname => ⟨fun hsame => ?_, fun hzones v r hv hr => ?_⟩⟩
  · -- the record of a whole year tells the two zones apart
    have hyear : (wholeYear name none).startName = some name := by
      show Reader.givenName (Reader.firstName (some name) _) = some name
      rw [Reader.firstName_some hname, Reader.givenName_some hname]
    have heq := hsame "20250101T000000" (wholeYear name none) isLocalTime_newYear.2 hyear
    rw [result_inZone_finish isLocalTime_newYear.2 hz, hyear, Option.getD_some] at heq
    obtain ⟨dates, hdates, hzone⟩ := exists_result_wholeYear (i := i) hname hname
    obtain ⟨dates', hdates', hzone'⟩ := exists_result_wholeYear (i := i) hname hne
    obtain rfl : dates = dates' := Option.some.inj (hdates.symm.trans (heq.trans hdates'))
    exact hzone.symm.trans hzone'
  · rw [result_inZone_finish hv hz, hr, Option.getD_some]
    exact result_congr_finishZone hv hname hne hzones r

/-- The old display name of Tokyo counts in front of the start, in front of an end whose start has
    no zone, and in front of one whose start is in Tokyo as well. -/
theorem result_inZone_tokyo :
    let z := "Tokyo Standard Time"
    let v := "20240101T200000"
    let r : RawRecord := ⟨some "20240101T090000", some "20240102T090000", none, none, none⟩
    let inTokyo : RawRecord := { r with startZone := some "Asia/Tokyo" }
    isBlankText z = false ∧ IsLocalTime v ∧ r.startName = none ∧
      inTokyo.startName = some "Asia/Tokyo" ∧
      universal.result { r with start := some (inZone z v), startZone := none } =
        universal.result { r with start := some v, startZone := some z } ∧
      universal.result { r with finish := some (inZone z v), finishZone := none } =
        universal.result { r with finish := some v, finishZone := some z } ∧
      universal.result { inTokyo with finish := some (inZone z v), finishZone := none } =
        universal.result { inTokyo with finish := some v, finishZone := some z } ∧
      universal.result { inTokyo with finish := some v, finishZone := some z } ≠ none := by
  intro z v r inTokyo
  have hz : isBlankText z = false := by decide
  have hv : IsLocalTime v := ⟨by decide, by decide⟩
  have hname : r.startName = none := by decide
  have hname' : inTokyo.startName = some "Asia/Tokyo" := by decide
  obtain ⟨hstart, hfinish, hsame⟩ := result_inZone universal hz
  have hend := hfinish v r hv
  rw [hname] at hend
  have hzones := (hsame "Asia/Tokyo" (by decide)).mpr (by decide +kernel)
  exact ⟨hz, hv, hname, hname', hstart v r hv, hend, hzones v inTokyo hv hname', by decide +kernel⟩

/-- An end in Tokyo for a start in Berlin is read in Berlin if its zone stands in front of it. -/
theorem result_berlin_to_tokyo :
    let z := "Asia/Tokyo"
    let v := "20240101T200000"
    let r : RawRecord := ⟨some "20240101T090000", none, none, some "Europe/Berlin", none⟩
    let front := universal.result { r with finish := some (inZone z v), finishZone := none }
    let beside := universal.result { r with finish := some v, finishZone := some z }
    isBlankText z = false ∧ IsLocalTime v ∧ front ≠ none ∧ beside ≠ none ∧ front ≠ beside :=
  ⟨by decide, ⟨by decide, by decide⟩, by decide +kernel, by decide +kernel, by decide +kernel⟩

end Interpreter

end EventCalendar
