/-
  EventCalendar.Proofs.Time.Distance

  Sums on the wall clock and the distances between date-times.  A sum moves the
  wall clock exactly; the distance to a date-time of another zone follows it up
  to the two hours by which clocks are put forward and back at most.
-/

import EventCalendar.Time.Moment

namespace EventCalendar.Time

/-- One hour. -/
def microsPerHour : Nat := 3600000000

/-! ## Sums -/

theorem Wall.plus?_eq_some_iff {w w' : Wall} {duration : Int} :
    w.plus? duration = some w' ↔ (w'.micros : Int) = w.micros + duration := by
  unfold plus? ofMicros?
  constructor
  · intro h
    split at h
    · simp only [Option.some.injEq] at h
      subst h
      simp only
      omega
    · cases h
  · intro h
    have hw' := w'.inCalendar
    rw [dif_pos (by omega)]
    congr 1
    apply ext_micros
    simp only
    omega

namespace Moment

/-- A date-time is its reading, its choice of the reading and its zone. -/
theorem ext_micros {a b : Moment} (hwall : a.wall.micros = b.wall.micros)
    (hlater : a.later = b.later) (hzone : a.zone = b.zone) : a = b := by
  have h := Wall.ext_micros hwall
  cases a
  cases b
  simp only at h hlater hzone
  rw [h, hlater, hzone]

theorem plus_eq_ok_iff {m m' : Moment} {duration : Int} :
    m.plus duration = .ok m' ↔
      (m'.wall.micros : Int) = m.wall.micros + duration ∧ m'.later = false ∧
        m'.zone = m.zone := by
  unfold plus
  constructor
  · intro h
    split at h
    · rename_i wall hwall
      cases h
      exact ⟨Wall.plus?_eq_some_iff.mp hwall, rfl, rfl⟩
    · cases h
  · rintro ⟨hmicros, hlater, hzone⟩
    rw [Wall.plus?_eq_some_iff.mpr hmicros]
    simp only [Except.ok.injEq]
    exact ext_micros rfl hlater.symm hzone.symm

/-- A sum exists if it lies in the calendar. -/
theorem exists_plus_eq_ok_iff {m : Moment} {duration : Int} :
    (∃ m', m.plus duration = .ok m') ↔
      0 ≤ m.wall.micros + duration ∧ m.wall.micros + duration < calendarMicros := by
  constructor
  · rintro ⟨m', h⟩
    have hmicros := (plus_eq_ok_iff.mp h).1
    have hm' := m'.wall.inCalendar
    omega
  · rintro ⟨hlow, hhigh⟩
    have hlt : (m.wall.micros + duration).toNat < calendarMicros := by omega
    refine ⟨⟨⟨_, hlt⟩, false, m.zone⟩, plus_eq_ok_iff.mpr ⟨?_, rfl, rfl⟩⟩
    simp only
    omega

theorem plusDays_eq_ok_iff {m m' : Moment} {days : Int} :
    m.plusDays days = .ok m' ↔
      (m'.wall.micros : Int) = m.wall.micros + days * microsPerDay ∧ m'.later = false ∧
        m'.zone = m.zone :=
  plus_eq_ok_iff

/-! ## Readings at one time of day -/

/-- Two date-times of one zone show the same time of day. -/
def Alike (a b : Moment) : Prop :=
  a.zone = b.zone ∧ a.wall.timeOfDay = b.wall.timeOfDay

instance (a b : Moment) : Decidable (Alike a b) := inferInstanceAs (Decidable (_ ∧ _))

theorem Alike.refl (a : Moment) : Alike a a := ⟨rfl, rfl⟩

theorem Alike.symm {a b : Moment} (h : Alike a b) : Alike b a := ⟨h.1.symm, h.2.symm⟩

theorem Alike.trans {a b c : Moment} (h : Alike a b) (h' : Alike b c) : Alike a c :=
  ⟨h.1.trans h'.1, h.2.trans h'.2⟩

/-- A reading is counted from its day and its time of day. -/
theorem micros_eq (m : Moment) :
    m.wall.micros = m.wall.dayNumber * microsPerDay + m.wall.timeOfDay := by
  simp only [Wall.dayNumber, Wall.timeOfDay]
  rw [Nat.mul_comm]
  exact (Nat.div_add_mod _ _).symm

/-- Date-times that show the same time of day are whole days apart. -/
theorem Alike.micros_sub {a b : Moment} (h : Alike a b) :
    (a.wall.micros : Int) - b.wall.micros =
      ((a.wall.dayNumber : Int) - b.wall.dayNumber) * microsPerDay := by
  have ha := a.micros_eq
  have hb := b.micros_eq
  have htime := h.2
  rw [Int.sub_mul]
  omega

/-- Readings that lie days apart are less than a day closer to each other. -/
theorem micros_add_lt {a b : Moment} {days : Nat} (h : a.wall.dayNumber + days ≤ b.wall.dayNumber) :
    a.wall.micros + days * microsPerDay < b.wall.micros + microsPerDay := by
  have ha := a.micros_eq
  have hb := b.micros_eq
  have htime := a.wall.timeOfDay_lt
  simp only [microsPerDay] at ha hb htime ⊢
  omega

/-- Readings at one time of day that lie days apart do so to the microsecond. -/
theorem Alike.micros_add_le {a b : Moment} {days : Nat} (h : Alike a b)
    (hdays : a.wall.dayNumber + days ≤ b.wall.dayNumber) :
    a.wall.micros + days * microsPerDay ≤ b.wall.micros := by
  have ha := a.micros_eq
  have hb := b.micros_eq
  have htime := h.2
  simp only [microsPerDay] at ha hb ⊢
  omega

/-- Days are added to the day's number, and the time of day stays. -/
theorem plusDays_dayNumber {m m' : Moment} {days : Int} (h : m.plusDays days = .ok m') :
    (m'.wall.dayNumber : Int) = m.wall.dayNumber + days ∧ Alike m' m := by
  obtain ⟨hmicros, -, hzone⟩ := plusDays_eq_ok_iff.mp h
  simp only [Alike, Wall.dayNumber, Wall.timeOfDay, microsPerDay] at hmicros ⊢
  exact ⟨by omega, hzone, by omega⟩

/-- A sum of days exists if its day lies in the calendar. -/
theorem exists_plusDays_eq_ok_iff {m : Moment} {days : Int} :
    (∃ m', m.plusDays days = .ok m') ↔
      0 ≤ m.wall.dayNumber + days ∧ m.wall.dayNumber + days < dayCount := by
  refine exists_plus_eq_ok_iff.trans ?_
  have hmicros := m.micros_eq
  have htime := m.wall.timeOfDay_lt
  simp only [microsPerDay] at hmicros htime ⊢
  simp only [calendarMicros, dayCount]
  omega

/-! ## Distances -/

theorem since_of_zone_eq {a b : Moment} (h : a.zone = b.zone) :
    a.since b = (a.wall.micros : Int) - b.wall.micros := by
  simp [since, h]

theorem since_of_zone_ne {a b : Moment} (h : a.zone ≠ b.zone) :
    a.since b = a.instant - b.instant := by
  simp [since, h]

/-- From a date-time in universal time distances are those of the instants. -/
theorem since_of_zone_eq_utc {a b : Moment} (h : a.zone = .utc) :
    a.since b = (a.wall.micros : Int) - b.instant := by
  unfold since
  split
  · rename_i hzone
    simp [instant, offset, ← hzone, h]
  · simp [instant, offset, h]

@[simp] theorem wall_zoned (m : Moment) : m.zoned.wall = m.wall := by
  unfold zoned
  split <;> rfl

theorem zone_zoned (m : Moment) :
    m.zoned.zone = if m.zone = .floating then .utc else m.zone := by
  unfold zoned
  split <;> rfl

@[simp] theorem instant_zoned (m : Moment) : m.zoned.instant = m.instant := by
  unfold zoned
  split
  · rename_i hzone
    simp only [instant, offset, hzone, Zone.offset_utc]
    rfl
  · rfl

/-- Distances are the same when date-times without a zone are taken in universal time. -/
@[simp] theorem since_zoned (a b : Moment) : a.zoned.since b.zoned = a.since b := by
  by_cases hzone : a.zone = b.zone
  · have hzoned : a.zoned.zone = b.zoned.zone := by rw [zone_zoned, zone_zoned, hzone]
    rw [since_of_zone_eq hzone, since_of_zone_eq hzoned, wall_zoned, wall_zoned]
  · rw [since_of_zone_ne hzone]
    by_cases hzoned : a.zoned.zone = b.zoned.zone
    · -- one of the two has no zone, so both are taken in universal time
      have hutc : a.zoned.zone = .utc := by
        by_cases ha : a.zone = .floating
        · rw [zone_zoned, if_pos ha]
        · rw [zone_zoned, zone_zoned, if_neg ha] at hzoned
          split at hzoned
          · rw [zone_zoned, if_neg ha, hzoned]
          · exact absurd hzoned hzone
      have hinstant : (a.zoned.wall.micros : Int) = a.zoned.instant := by
        simp [instant, offset, hutc]
      rw [since_of_zone_eq_utc hutc, hinstant, instant_zoned, instant_zoned]
    · rw [since_of_zone_ne hzoned, instant_zoned, instant_zoned]

/-- In one zone instants are as far apart as the readings, give or take two hours. -/
theorem instant_sub_le {a b : Moment} (h : a.zone = b.zone) :
    a.instant - b.instant ≤ (a.wall.micros : Int) - b.wall.micros + 2 * microsPerHour := by
  have hoffset := a.zone.offset_sub_offset_le b.wall a.wall b.later a.later
  simp only [instant, offset, ← h, microsPerHour, microsPerMinute]
  omega

/-- The distances of a date-time to two date-times of one zone differ as their readings do, give
    or take two hours. -/
theorem since_sub_since_le {a b : Moment} (h : a.zone = b.zone) (t : Moment) :
    t.since a - t.since b ≤ (b.wall.micros : Int) - a.wall.micros + 2 * microsPerHour := by
  by_cases ht : t.zone = a.zone
  · rw [since_of_zone_eq ht, since_of_zone_eq (ht.trans h)]
    omega
  · rw [since_of_zone_ne ht, since_of_zone_ne (fun hb => ht (hb.trans h.symm))]
    have := instant_sub_le h.symm
    omega

/-- Whatever the zones, a distance is within two days of that on the wall clocks. -/
theorem since_bounds (a b : Moment) :
    (a.wall.micros : Int) - b.wall.micros - 2 * microsPerDay ≤ a.since b ∧
      a.since b ≤ (a.wall.micros : Int) - b.wall.micros + 2 * microsPerDay := by
  have ha := a.zone.natAbs_offset_lt a.wall a.later
  have hb := b.zone.natAbs_offset_lt b.wall b.later
  simp only [since, instant, offset, microsPerMinute, microsPerDay]
  split <;> omega

/-- If one end of a span is moved forward and the other one back on the wall clock, the distance
    stays the same, give or take four hours. -/
theorem since_plus_bounds {start finish first target : Moment} {duration : Int}
    (hfinish : start.plus duration = .ok finish) (htarget : first.plus (-duration) = .ok target) :
    target.since start - 4 * microsPerHour ≤ first.since finish ∧
      first.since finish ≤ target.since start + 4 * microsPerHour := by
  obtain ⟨hf, -, hfz⟩ := plus_eq_ok_iff.mp hfinish
  obtain ⟨ht, -, htz⟩ := plus_eq_ok_iff.mp htarget
  by_cases h : first.zone = start.zone
  · rw [since_of_zone_eq (htz.trans h), since_of_zone_eq (h.trans hfz.symm)]
    simp only [microsPerHour]
    omega
  · rw [since_of_zone_ne (fun h' => h (htz.symm.trans h')),
      since_of_zone_ne (fun h' => h (h'.trans hfz))]
    have h₁ := instant_sub_le htz
    have h₂ := instant_sub_le htz.symm
    have h₃ := instant_sub_le hfz
    have h₄ := instant_sub_le hfz.symm
    omega

/-! ## Universal time -/

/-- A full hour of a day in universal time. -/
def onTheHour (day hour : Nat) (h : day < dayCount ∧ hour < 24) : Moment where
  wall.micros := day * microsPerDay + hour * microsPerHour
  wall.inCalendar := by
    simp only [dayCount] at h
    simp only [microsPerDay, microsPerHour, calendarMicros]
    omega
  later := false
  zone := .utc

/-- A full hour of a day in January 2024 in universal time, for days up to 31 and hours up to 23. -/
def inJanuary (day hour : Nat) : Moment :=
  onTheHour (738884 + day % 32) (hour % 24) ⟨by simp only [dayCount]; omega, by omega⟩

theorem toUniversal_eq_ok {m u : Moment} (h : m.toUniversal = .ok u) :
    u.zone = .utc ∧ (u.wall.micros : Int) = m.instant := by
  unfold toUniversal at h
  split at h
  · rename_i hzone
    cases h
    exact ⟨hzone, by simp [instant, offset, hzone]⟩
  · split at h
    · rename_i wall hwall
      cases h
      refine ⟨rfl, ?_⟩
      rw [Wall.plus?_eq_some_iff.mp hwall, instant]
      omega
    · cases h

end Moment

end EventCalendar.Time
