/-
  EventCalendar.Proofs.Time.FixedClocks

  Clocks that are never put forward or back.  Date-times on such clocks stand to
  each other as their instants do, whatever the zones.
-/

import EventCalendar.Proofs.Time.Distance

namespace EventCalendar

open EventCalendar.Time

/-! ## Zones -/

/-- The clock of the zone is never put forward or back. -/
def Zone.isFixed : Zone → Bool
  | .fixed .. => true
  | _ => false

theorem Zone.offset_of_isFixed {zone : Zone} (h : zone.isFixed = true) (w w' : Wall)
    (later later' : Bool) : zone.offset w later = zone.offset w' later' := by
  cases zone with
  | fixed minutes inDay => rfl
  | floating => cases h
  | region place => cases h

/-! ## Date-times -/

namespace Time.Moment

variable {a b : Moment}

theorem instant_sub_of_zone_eq (ha : a.zone.isFixed = true) (h : a.zone = b.zone) :
    a.instant - b.instant = (a.wall.micros : Int) - b.wall.micros := by
  have hoffset := Zone.offset_of_isFixed ha a.wall b.wall a.later b.later
  simp only [instant, offset, ← h, hoffset]
  omega

theorem before_of_isFixed (ha : a.zone.isFixed = true) :
    a.before b = decide (a.instant < b.instant) := by
  rw [before, decide_eq_decide]
  by_cases h : a.zone = b.zone
  · -- wall clocks are compared, which are equally far ahead of their instants
    have hsub := instant_sub_of_zone_eq ha h
    rw [since_of_zone_eq h]
    omega
  · rw [since_of_zone_ne h]
    omega

theorem same_of_isFixed (ha : a.zone.isFixed = true) (hb : b.zone.isFixed = true) :
    a.same b = decide (a.instant = b.instant) := by
  -- such a clock shows no reading twice
  have hzoned {t : Moment} (ht : t.zone.isFixed = true) :
      t.isZoned = true ∧ t.isAmbiguous = false := by
    constructor
    · rw [isZoned, bne_iff_ne]
      intro hfloating
      rw [hfloating] at ht
      cases ht
    · rw [isAmbiguous, Zone.offset_of_isFixed ht t.wall t.wall false true]
      exact bne_self_eq_false _
  unfold same
  split
  · rename_i h
    have hsub := instant_sub_of_zone_eq ha h
    rw [decide_eq_decide]
    constructor
    · intro hwall
      rw [hwall] at hsub
      omega
    · intro hinstant
      exact Wall.ext_micros (by omega)
  · rw [(hzoned ha).1, (hzoned ha).2, (hzoned hb).1, (hzoned hb).2, Bool.eq_iff_iff]
    simp

end Time.Moment

end EventCalendar
