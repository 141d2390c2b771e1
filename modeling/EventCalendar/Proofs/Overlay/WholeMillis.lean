/-
  EventCalendar.Proofs.Overlay.WholeMillis

  Exceptions that are stored under a number of milliseconds.  A start on a whole
  millisecond has such a number, but its key is another one where the number
  falls short; then a deletion or a modification under the number does not find
  the occurrence.
-/

import EventCalendar.Proofs.OrderedMap
import EventCalendar.Proofs.Time.WholeMillis
import EventCalendar.Overlay

namespace EventCalendar

open EventCalendar.Time

/-! ## Exceptions under a number -/

theorem ExceptionKey.mem_deletionKeys_millis {key n : Int} :
    key ∈ deletionKeys [.millis n] ↔ key = n := by
  simp [deletionKeys, ExceptionKey.key]

theorem Modifications.find?_index_millis {key n : Int} {change : Modification} :
    (Modifications.keyed [(.millis n, change)]).index.find? key = some change ↔ key = n := by
  have hindex : (Modifications.keyed [(.millis n, change)]).index =
      OrderedMap.empty.put n change := rfl
  rw [hindex, OrderedMap.find?_put]
  split
  · simp_all
  · rename_i hne
    simp [hne, OrderedMap.find?, OrderedMap.empty]

/-! ## Starts on a whole millisecond -/

theorem Time.Moment.epochKey_eq_millis_iff {m : Moment} {millis : Int}
    (h : m.instant - epochMicros = 1000 * millis) :
    m.epochKey = millis ↔ ¬ FallsShort millis := by
  rw [Moment.epochKey_of_millis h]
  constructor
  · intro hkey hfalls
    rw [if_pos hfalls] at hkey
    -- zero does not fall short, so that there is a sign to be taken off
    have hzero : millis = 0 := Int.sign_eq_zero_iff_zero.mp (by omega)
    subst hzero
    exact absurd hfalls (by decide)
  · intro hkept
    rw [if_neg hkept]

/-- The key of a start on a whole millisecond is its number of milliseconds since the beginning of
    1970, or one nearer to zero if that number falls short.  Exceptions that are stored under the
    number find the occurrence that starts then in the first case, and in the second they do
    not. -/
theorem Time.Moment.epochKey_wholeMillis {m : Moment} (h : m.wall.micros % 1000 = 0) :
    ∃ millis : Int, m.instant - epochMicros = 1000 * millis ∧
      m.epochKey = (if FallsShort millis then millis - millis.sign else millis) ∧
      (m.epochKey = millis ↔ ¬ FallsShort millis) ∧
      ∀ o : Occurrence, o.originalStart = m →
        (o.key ∈ deletionKeys [.millis millis] ↔ ¬ FallsShort millis) ∧
        ∀ change, (Modifications.keyed [(.millis millis, change)]).index.find? o.key =
          some change ↔ ¬ FallsShort millis := by
  obtain ⟨millis, hmillis⟩ := Moment.exists_millis h
  have hkey := Moment.epochKey_eq_millis_iff hmillis
  refine ⟨millis, hmillis, Moment.epochKey_of_millis hmillis, hkey, ?_⟩
  rintro o rfl
  exact ⟨ExceptionKey.mem_deletionKeys_millis.trans hkey,
    fun change => Modifications.find?_index_millis.trans hkey⟩

/-- A date-time in universal time, some milliseconds into the year 1970. -/
def Time.Moment.inSeventy (millis : Nat) (h : millis < 31536000000) : Moment where
  wall.micros := 719162 * microsPerDay + 1000 * millis
  wall.inCalendar := by
    simp only [microsPerDay, calendarMicros]
    omega
  later := false
  zone := .utc

/-- A second and two milliseconds: rounding takes the seconds up, and the key is exact. -/
theorem Time.Moment.epochKey_inSeventy_exact :
    (inSeventy 1002 (by decide)).wall.micros % 1000 = 0 ∧
      (inSeventy 1002 (by decide)).epochKey = 1002 := by
  have hwhole : (inSeventy 1002 (by decide)).wall.micros % 1000 = 0 := by decide
  obtain ⟨millis, hmillis, -, hkey, -⟩ := epochKey_wholeMillis hwhole
  have hinstant : (inSeventy 1002 (by decide)).instant - epochMicros = 1000 * 1002 := by decide
  obtain rfl : millis = 1002 := by omega
  exact ⟨hwhole, hkey.mpr (by decide)⟩

/-- A second and one millisecond: the key is the whole second, and a deletion under the number of
    milliseconds does not find the occurrence. -/
theorem Time.Moment.epochKey_inSeventy_short :
    let m := inSeventy 1001 (by decide)
    m.isZoned = true ∧ m.wall.micros % 1000 = 0 ∧ m.instant - epochMicros = 1000 * 1001 ∧
      m.epochKey = 1000 ∧
      ∀ o : Occurrence, o.originalStart = m → o.key ∉ deletionKeys [.millis 1001] := by
  have hkey : (inSeventy 1001 (by decide)).epochKey = 1000 := by decide +kernel
  refine ⟨by decide, by decide, by decide, hkey, ?_⟩
  intro o ho
  rw [ExceptionKey.mem_deletionKeys_millis, Occurrence.key, ho, hkey]
  decide

end EventCalendar
