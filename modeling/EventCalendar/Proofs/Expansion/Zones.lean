/-
  EventCalendar.Proofs.Expansion.Zones

  All occurrences of a series start in the zone of its anchor, whatever the zones
  of the window.
-/

import EventCalendar.Proofs.Expansion.Periods

namespace EventCalendar

open EventCalendar.Time

namespace Series

variable {s : Series} {duration : Int} {w : Window} {week : Moment}

theorem zone_of_listDays {days : List Nat} {room : Nat} {occurrences : List Occurrence}
    {left : Option Nat} (h : s.listDays duration w week days room = .ok (occurrences, left)) :
    ∀ o ∈ occurrences, o.start.zone = week.zone := by
  induction days generalizing room occurrences left with
  | nil =>
    cases h
    simp
  | cons day days ih =>
    unfold listDays at h
    obtain ⟨start, hstart, h⟩ := bind_eq_ok_iff.mp h
    obtain ⟨finish, -, h⟩ := bind_eq_ok_iff.mp h
    split at h
    · exact ih h
    · cases room with
      | zero =>
        cases h
        simp
      | succ room =>
        obtain ⟨⟨rest, left'⟩, hrest, h⟩ := bind_eq_ok_iff.mp h
        cases h
        intro o ho
        rcases List.mem_cons.mp ho with rfl | ho
        · exact (Moment.plusDays_eq_ok_iff.mp hstart).2.2
        · exact ih hrest o ho

theorem zone_of_listWeeks {weeks room : Nat} {occurrences : List Occurrence} {more : Bool}
    (h : s.listWeeks duration w weeks room week = .ok (occurrences, more)) :
    ∀ o ∈ occurrences, o.start.zone = week.zone := by
  induction weeks generalizing room week occurrences more with
  | zero =>
    rw [listWeeks] at h
    cases h
  | succ weeks ih =>
    unfold listWeeks at h
    split at h
    · cases h
      simp
    · obtain ⟨⟨here, left⟩, hhere, h⟩ := bind_eq_ok_iff.mp h
      obtain ⟨next, hnext, h⟩ := bind_eq_ok_iff.mp h
      cases left with
      | none =>
        cases h
        exact zone_of_listDays hhere
      | some left =>
        obtain ⟨⟨rest, more'⟩, hrest, h⟩ := bind_eq_ok_iff.mp h
        cases h
        intro o ho
        rcases List.mem_append.mp ho with ho | ho
        · exact zone_of_listDays hhere o ho
        · rw [ih hrest o ho, (Moment.plusDays_eq_ok_iff.mp hnext).2.2]

theorem zone_of_listListed {cap : Int} {e : Expansion} (h : s.listListed w cap = .ok e) :
    ∀ o ∈ e.occurrences, o.start.zone = s.start.zone := by
  unfold listListed at h
  obtain ⟨duration, -, h⟩ := bind_eq_ok_iff.mp h
  obtain ⟨sunday, hsunday, h⟩ := bind_eq_ok_iff.mp h
  have hzone := (Moment.plusDays_eq_ok_iff.mp hsunday).2.2
  dsimp only at h
  obtain ⟨week, hweek, h⟩ : ∃ week : Moment, week.zone = sunday.zone ∧
      ((s.listWeeks duration w calendarWeeks cap.toNat week >>= fun listed =>
        .ok ⟨s.seriesId, listed.1, if listed.2 then .capped else .complete⟩) = .ok e) := by
    split at h
    · obtain ⟨week, hweek, h⟩ := bind_eq_ok_iff.mp h
      exact ⟨week, (Moment.plusDays_eq_ok_iff.mp hweek).2.2, h⟩
    · exact ⟨sunday, rfl, h⟩
  obtain ⟨⟨occurrences, more⟩, hlist, h⟩ := bind_eq_ok_iff.mp h
  cases h
  intro o ho
  rw [zone_of_listWeeks hlist o ho, hweek, hzone]

/-- All occurrences start in the zone of the anchor. -/
theorem zone_of_expand {cap : Int} {e : Expansion} (h : s.expand w cap = .ok e) :
    ∀ o ∈ e.occurrences, o.start.zone = s.anchorStart.zone := by
  rw [← s.zone_start]
  cases hwindow : (w.clip s).isEmpty with
  | true =>
    simp only [expand, expandWithin, hwindow, if_true, Except.ok.injEq] at h
    simp [← h]
  | false =>
    by_cases hkind : s.kind = .customWeekly
    · have hlist : s.listListed (w.clip s) cap = .ok e := by
        simpa [expand, expandWithin, hwindow, hkind] using h
      exact zone_of_listListed hlist
    · rw [expand_eq_listPeriods hkind hwindow] at h
      obtain ⟨duration, -, hlisted, -⟩ := listPeriods_spec hkind (by decide) h
      intro o ho
      obtain ⟨start, hstart, hplain⟩ := (mem_of_mapM_eq_ok hlisted).mp ho
      obtain ⟨finish, -, hplain⟩ := bind_eq_ok_iff.mp hplain
      cases hplain
      exact (alike_of_mem_allStarts (List.mem_filter.mp (List.mem_of_mem_take hstart)).1).1

end Series

end EventCalendar
