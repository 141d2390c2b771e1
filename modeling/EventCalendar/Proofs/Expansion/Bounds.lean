/-
  EventCalendar.Proofs.Expansion.Bounds

  The bounds between which a series recurs.  An expansion with a bound is held
  against the one of the same series without it: the bounds only cut the window,
  so that they take away what the cut window does not show.
-/

import EventCalendar.Proofs.Expansion.WeekRuns

namespace EventCalendar

open EventCalendar.Time

/-! ## Series without a bound -/

namespace Series

/-- The series without its first bound. -/
def withoutFirst (s : Series) : Series where
  toSeriesFields := { s.toSeriesFields with firstInstance := none }
  zones := by
    intro m hm
    apply s.zones
    simp only [SeriesFields.moments, List.mem_cons, List.mem_append] at hm ⊢
    simp only [Option.toList_none, List.not_mem_nil, or_false] at hm
    rcases hm with h | h | h
    · exact .inl h
    · exact .inr (.inl (.inl h))
    · exact .inr (.inr h)
  ends := s.ends
  bounds := rfl
  listed := s.listed

/-- The series without its last bound. -/
def withoutLast (s : Series) : Series where
  toSeriesFields := { s.toSeriesFields with lastInstance := none }
  zones := by
    intro m hm
    apply s.zones
    simp only [SeriesFields.moments, List.mem_cons, List.mem_append] at hm ⊢
    simp only [Option.toList_none, List.not_mem_nil, or_false] at hm
    rcases hm with h | h
    · exact .inl h
    · exact .inr (.inl h)
  ends := s.ends
  bounds := by
    unfold SeriesFields.lastBeforeFirst
    cases s.firstInstance <;> rfl
  listed := s.listed

variable {s : Series} {w : Window} {cap : Int} {e e' : Expansion} {first last : Moment}

/-! ## The last bound -/

section

variable (hfirst : s.firstInstance = none) (hlast : s.lastInstance = some last)
  (hzone : w.first.zone = s.anchorStart.zone) (hzone' : w.last.zone = s.anchorStart.zone)

include hfirst hzone hzone'

theorem clip_withoutLast : w.clip s.withoutLast = w := by
  simp only [Window.clip, withoutLast, hfirst, s.zoned_of_zone_eq hzone,
    s.zoned_of_zone_eq hzone']

include hlast

theorem clip_lastInstance :
    w.clip s = { w with last := if last.before w.last then last else w.last } := by
  simp only [Window.clip, hfirst, hlast, s.zoned_of_zone_eq hzone, s.zoned_of_zone_eq hzone']

/-- The cut window is empty if the whole one is, or if the bound comes before all of it. -/
theorem isEmpty_clip_lastInstance (hbound : last.zone = s.anchorStart.zone ∨ w.InStepWith s) :
    (w.clip s).isEmpty = (w.isEmpty || last.before w.first && last.before w.last) := by
  obtain ⟨hends, hfirstEnd, hlastEnd, -⟩ := orderedBy_rank hzone hzone' hbound
  rw [clip_lastInstance hfirst hlast hzone hzone']
  cases hearly : last.before w.last with
  | false => rw [Bool.and_false, Bool.or_false, if_neg Bool.false_ne_true]
  | true =>
    -- a window that is empty as a whole begins after the bound
    have hwhole : w.isEmpty = true → last.before w.first = true := by
      rw [Window.isEmpty, hends.symm.before_iff, hfirstEnd.before_iff]
      rw [hlastEnd.before_iff] at hearly
      omega
    rw [Bool.and_true, if_pos rfl, Bool.eq_iff_iff, Bool.or_eq_true]
    exact ⟨.inr, fun h => h.elim hwhole id⟩

/-- What starts by the end of the cut window starts by the bound and by the end of the whole one. -/
theorem upTo_last_clip (hbound : last.zone = s.anchorStart.zone ∨ w.InStepWith s) {m : Moment}
    (hm : s.Passes m) : m.upTo (w.clip s).last = (m.upTo w.last && m.upTo last) := by
  obtain ⟨-, -, hlastEnd, hpassed⟩ := orderedBy_rank hzone hzone' hbound
  obtain ⟨hmBound, -, hmLast⟩ := hpassed m hm
  have hearly := hlastEnd.before_iff
  rw [clip_lastInstance hfirst hlast hzone hzone', Bool.eq_iff_iff, Bool.and_eq_true, hmLast.1,
    hmBound.1]
  dsimp only
  split
  · rename_i hbefore
    rw [hearly] at hbefore
    rw [hmBound.1]
    omega
  · rename_i hbefore
    rw [hearly] at hbefore
    rw [hmLast.1]
    omega

/-- If the cut window is open, it has the occurrences that start up to the bound. -/
theorem exists_expand_filter_upTo (hkind : s.kind ≠ .customWeekly)
    (hbound : last.zone = s.anchorStart.zone ∨ w.InStepWith s)
    (hcut : (w.clip s).isEmpty = false)
    (h : s.withoutLast.expand w cap = .ok e) (hcomplete : e.truncated = false) :
    ∃ e', s.expand w cap = .ok e' ∧ e'.truncated = false ∧
      e'.occurrences = e.occurrences.filter (·.start.upTo last) := by
  have hempty := isEmpty_clip_lastInstance hfirst hlast hzone hzone' hbound
  rw [hcut, eq_comm, Bool.or_eq_false_iff] at hempty
  have hopen : (w.clip s.withoutLast).isEmpty = false := by
    rw [clip_withoutLast hfirst hzone hzone', hempty.1]
  rw [expand_eq_listPeriods (show s.withoutLast.kind ≠ .customWeekly from hkind) hopen,
    clip_withoutLast hfirst hzone hzone'] at h
  change s.listPeriods w cap skipBudget = .ok e at h
  have hupTo : ∀ m ∈ s.allStarts, m.upTo (w.clip s).last = (m.upTo w.last && m.upTo last) :=
    fun m hm => upTo_last_clip hfirst hlast hzone hzone' hbound
      (.start (visits_of_mem_allStarts hkind hm))
  have hsame : w.clip s = { w with last := (w.clip s).last } := by
    rw [clip_lastInstance hfirst hlast hzone hzone']
  rw [expand_eq_listPeriods hkind hcut, hsame]
  -- listing up to the end of the cut window goes no further than up to that of the whole one
  have hearlier : ∀ m ∈ s.allStarts, m.upTo (w.clip s).last = true → m.upTo w.last = true := by
    intro m hm hmUpTo
    rw [hupTo m hm, Bool.and_eq_true] at hmUpTo
    exact hmUpTo.1
  obtain ⟨e', he'⟩ := exists_listPeriods_of_earlier hkind (by decide) hearlier h
  obtain ⟨duration, hduration⟩ := exists_duration_of_listPeriods h
  refine ⟨e', he', listPeriods_filter (P := (·.upTo last)) hkind (by decide) hduration ?_ ?_ h
    hcomplete he'⟩
  · intro start o ho
    obtain ⟨finish, -, rfl⟩ := Occurrence.startingAt_eq_ok_iff.mp ho
    rfl
  · intro m hm
    rw [Window.shows, Window.shows, hupTo m hm, Bool.and_assoc]

end

/-- With a last bound an expansion has the occurrences that start up to it, unless the bound comes
    before the whole window.  Then it has none, not even those that are still going on. -/
theorem expand_lastInstance (hkind : s.kind ≠ .customWeekly) (hfirst : s.firstInstance = none)
    (hlast : s.lastInstance = some last) (hzone : w.first.zone = s.anchorStart.zone)
    (hzone' : w.last.zone = s.anchorStart.zone)
    (hbound : last.zone = s.anchorStart.zone ∨ w.InStepWith s)
    (h : s.withoutLast.expand w cap = .ok e) (hcomplete : e.truncated = false) :
    ∃ e', s.expand w cap = .ok e' ∧ e'.truncated = false ∧
      e'.occurrences = if last.before w.first && last.before w.last then []
        else e.occurrences.filter (·.start.upTo last) := by
  have hempty := isEmpty_clip_lastInstance hfirst hlast hzone hzone' hbound
  cases hwhole : w.isEmpty with
  | true =>
    -- nothing is listed with the bound or without it
    have hopen : (w.clip s.withoutLast).isEmpty = true := by
      rwa [clip_withoutLast hfirst hzone hzone']
    rw [expand_of_isEmpty hopen, Except.ok.injEq] at h
    subst h
    rw [hwhole, Bool.true_or] at hempty
    refine ⟨_, expand_of_isEmpty hempty, rfl, ?_⟩
    split <;> rfl
  | false =>
    rw [hwhole, Bool.false_or] at hempty
    cases hearly : last.before w.first && last.before w.last with
    | true => exact ⟨_, expand_of_isEmpty (hempty.trans hearly), rfl, rfl⟩
    | false =>
      exact exists_expand_filter_upTo hfirst hlast hzone hzone' hkind hbound
        (hempty.trans hearly) h hcomplete

/-- The Mondays up to 5 January 2024. -/
def mondaysUntil : Series where
  toSeriesFields := { mondays.toSeriesFields with lastInstance := some (.inJanuary 5 12) }
  zones := by decide
  ends := by decide
  bounds := by decide
  listed := by decide

/-- Of the first two Mondays the bound leaves one. -/
theorem expand_mondaysUntil_eq_filter :
    let w := fortnight 738885 (by decide)
    ∃ e e', mondaysUntil.withoutLast.expand w 10 = .ok e ∧ e.occurrences.length = 2 ∧
      mondaysUntil.expand w 10 = .ok e' ∧ e'.truncated = false ∧ e'.occurrences.length = 1 ∧
      e'.occurrences =
        if (Moment.inJanuary 5 12).before w.first && (Moment.inJanuary 5 12).before w.last then []
        else e.occurrences.filter (·.start.upTo (.inJanuary 5 12)) := by
  intro w
  have h : mondaysUntil.withoutLast.expand w 10 =
      .ok ⟨"mondays", [.plain (.inJanuary 1 9) (.inJanuary 1 10),
        .plain (.inJanuary 8 9) (.inJanuary 8 10)], .complete⟩ := rfl
  obtain ⟨e', he', hcomplete, hfilter⟩ :=
    expand_lastInstance (by decide) rfl
      (show mondaysUntil.lastInstance = some (.inJanuary 5 12) from rfl) rfl rfl (.inl rfl) h rfl
  exact ⟨_, e', h, rfl, he', hcomplete, by rw [hfilter]; rfl, hfilter⟩

/-- Two days from every Monday morning on, up to noon of the first Monday. -/
def longMondaysUntil : Series where
  toSeriesFields := { mondays.toSeriesFields with
    anchorEnd := some (.inJanuary 3 9)
    lastInstance := some (.inJanuary 1 12) }
  zones := by decide
  ends := by decide
  bounds := by decide
  listed := by decide

/-- The nights up to two o'clock, winter time, of the night in which the clock is put back. -/
def nightlyUntil : Series where
  toSeriesFields := { nightly.toSeriesFields with
    lastInstance := some (.inOctober 27 1) }
  zones := by decide
  ends := by decide
  bounds := by decide
  listed := by decide

/-- A bound before a window also takes away what has started by the bound and is still going on in
    the window.  A bound of another zone can also add what a window ends before, by the clock that
    is put back, though not by the instants. -/
theorem expand_lastInstance_ne_filter :
    (let w : Window := ⟨.inJanuary 2 0, .inJanuary 5 0⟩
     longMondaysUntil.kind ≠ .customWeekly ∧ longMondaysUntil.firstInstance = none ∧
      longMondaysUntil.lastInstance = some (.inJanuary 1 12) ∧
      w.first.zone = longMondaysUntil.anchorStart.zone ∧
      w.last.zone = longMondaysUntil.anchorStart.zone ∧
      ∃ e e', longMondaysUntil.withoutLast.expand w 10 = .ok e ∧ e.truncated = false ∧
        longMondaysUntil.expand w 10 = .ok e' ∧ e'.truncated = false ∧
        e'.occurrences ≠ e.occurrences.filter (·.start.upTo (.inJanuary 1 12))) ∧
    (let w : Window := ⟨.inBerlin 0 false, .inBerlin 130 true⟩
     nightlyUntil.kind ≠ .customWeekly ∧ nightlyUntil.firstInstance = none ∧
      nightlyUntil.lastInstance = some (.inOctober 27 1) ∧
      w.first.zone = nightlyUntil.anchorStart.zone ∧ w.last.zone = nightlyUntil.anchorStart.zone ∧
      ∃ e e', nightlyUntil.withoutLast.expand w 10 = .ok e ∧ e.truncated = false ∧
        nightlyUntil.expand w 10 = .ok e' ∧ e'.truncated = false ∧
        e'.occurrences ≠ e.occurrences.filter (·.start.upTo (.inOctober 27 1))) := by
  refine ⟨⟨by decide, rfl, rfl, rfl, rfl, ?_⟩, by decide, rfl, rfl, rfl, rfl, ?_⟩
  · exact ⟨⟨"mondays", [.plain (.inJanuary 1 9) (.inJanuary 3 9)], .complete⟩,
      ⟨"mondays", [], .emptyWindow⟩, rfl, rfl, rfl, rfl, by decide⟩
  · exact ⟨⟨"nightly", [], .complete⟩,
      ⟨"nightly", [.plain (.inBerlin 155 false) (.inBerlin 165 false)], .complete⟩, rfl, rfl, rfl,
      rfl, by decide⟩

/-! ## The first bound -/

/-- An occurrence reaches a bound if it does not end before it; with listed weekdays, if it does
    not start before it. -/
def reaches (s : Series) (bound : Moment) (o : Occurrence) : Bool :=
  if s.kind = .customWeekly then !o.start.before bound else !o.finish.before bound

/-- On the scale of a bound no occurrence ends before it starts. -/
def SpansForward (s : Series) (bound : Moment) : Prop :=
  ∀ m duration finish, s.Visits m → s.duration = .ok duration → m.plus duration = .ok finish →
    s.rank bound m ≤ s.rank bound finish

theorem spansForward_of_nonneg (hbound : first.zone = s.anchorStart.zone)
    (h : ∀ duration, s.duration = .ok duration → 0 ≤ duration) : s.SpansForward first := by
  intro m duration finish _ hduration hfinish
  have hmicros := (Moment.plus_eq_ok_iff.mp hfinish).1
  have hnonneg := h duration hduration
  rw [rank, rank, if_pos hbound, if_pos hbound]
  omega

theorem clip_withoutFirst (hzone : w.first.zone = s.anchorStart.zone) :
    w.clip s.withoutFirst = ⟨w.first, (w.clip s).last⟩ := by
  simp only [Window.clip, withoutFirst, s.zoned_of_zone_eq hzone]

theorem first_clip (hfirst : s.firstInstance = some first)
    (hzone : w.first.zone = s.anchorStart.zone) :
    (w.clip s).first = if w.first.before first then first else w.first := by
  simp only [Window.clip, hfirst, s.zoned_of_zone_eq hzone]

/-- The last bound does not come before the first one, so that only the window can end before it. -/
theorem last_clip_of_before (hfirst : s.firstInstance = some first)
    (hzone : w.last.zone = s.anchorStart.zone) (h : (w.clip s).last.before first = true) :
    (w.clip s).last = w.last := by
  have hbounds := s.bounds
  unfold SeriesFields.lastBeforeFirst at hbounds
  rw [hfirst, Option.any_some] at hbounds
  simp only [Window.clip, s.zoned_of_zone_eq hzone] at h ⊢
  cases hlast : s.lastInstance with
  | none => rfl
  | some last =>
    rw [hlast, Option.any_some] at hbounds
    rw [hlast] at h
    dsimp only at h ⊢
    split at h
    · rw [hbounds] at h
      cases h
    · rename_i hlate
      rw [if_neg hlate]

/-- Without its first bound a series lists its days as with it. -/
theorem listDays_withoutFirst (s : Series) (duration : Int) (w : Window) (week : Moment)
    (days : List Nat) (room : Nat) : s.withoutFirst.listDays duration w week days room =
      s.listDays duration w week days room := by
  induction days generalizing room with
  | nil => rfl
  | cons day days ih =>
    unfold listDays
    simp only [ih]
    rfl

theorem listWeeks_withoutFirst (s : Series) (duration : Int) (w : Window) (weeks room : Nat)
    (week : Moment) : s.withoutFirst.listWeeks duration w weeks room week =
      s.listWeeks duration w weeks room week := by
  induction weeks generalizing room week with
  | zero => rfl
  | succ weeks ih =>
    unfold listWeeks
    simp only [ih, listDays_withoutFirst]
    rfl

theorem listListed_withoutFirst (s : Series) (w : Window) (cap : Int) :
    s.withoutFirst.listListed w cap = s.listListed w cap := by
  unfold listListed
  simp only [listWeeks_withoutFirst]
  rfl

/-- An occurrence that starts from the bound on reaches it. -/
theorem reaches_of_upTo (hzone : w.first.zone = s.anchorStart.zone)
    (hzone' : w.last.zone = s.anchorStart.zone)
    (hbound : first.zone = s.anchorStart.zone ∨ w.InStepWith s) (hspans : s.SpansForward first)
    (h : s.withoutFirst.expand w cap = .ok e) {o : Occurrence} (ho : o ∈ e.occurrences)
    (hreach : first.upTo o.start = true) : s.reaches first o = true := by
  have hopen := isEmpty_clip_of_mem h ho
  unfold reaches
  split
  · rw [Moment.before_eq_not_upTo, hreach]
    rfl
  · rename_i hkind
    rw [expand_eq_listPeriods (show s.withoutFirst.kind ≠ .customWeekly from hkind) hopen] at h
    obtain ⟨hvisits, ⟨duration, hduration, hfinish⟩, -⟩ := isShown_of_listPeriods hkind
      (by decide) (show s.listPeriods (w.clip s.withoutFirst) cap skipBudget = .ok e from h) o ho
    obtain ⟨-, -, -, hpassed⟩ := orderedBy_rank hzone hzone' hbound
    have hspan := hspans o.start duration o.finish hvisits hduration hfinish
    rw [(hpassed o.start (.start hvisits)).1.2] at hreach
    rw [Bool.not_eq_true', ← Bool.not_eq_true,
      (hpassed o.finish (.finish hvisits hduration hfinish)).1.before_iff]
    omega

/-- In the zone of the series a window that is cut to a bound is listed if an occurrence of the
    whole one starts from the bound on. -/
theorem exists_listPeriods_of_upTo {budget : Int} (hkind : s.kind ≠ .customWeekly)
    (hbudget : 20 ≤ budget) (hzone : w.first.zone = s.anchorStart.zone)
    (hbound : first.zone = s.anchorStart.zone) (hspans : s.SpansForward first)
    (h : s.listPeriods w cap budget = .ok e) (hcomplete : e.truncated = false) {o : Occurrence}
    (ho : o ∈ e.occurrences) (hreach : first.upTo o.start = true) :
    ∃ e', s.listPeriods { w with first := if w.first.before first then first else w.first } cap
      budget = .ok e' := by
  split
  · rename_i hearly
    obtain ⟨hvisits, ⟨duration, hduration, hfinish⟩, hend, hlast⟩ :=
      isShown_of_listPeriods hkind hbudget h o ho
    have hstartZone := hvisits.alike.1.trans s.zone_start
    rw [Moment.before, Moment.since_of_zone_eq (hzone.trans hbound.symm),
      decide_eq_true_eq] at hearly
    rw [Moment.upTo, Moment.since_of_zone_eq (hbound.trans hstartZone.symm),
      decide_eq_true_eq] at hreach
    -- on the clock of the series the duration is not negative
    have hspan := hspans o.start duration o.finish hvisits hduration hfinish
    have hmicros := (Moment.plus_eq_ok_iff.mp hfinish).1
    rw [rank, rank, if_pos hbound, if_pos hbound] at hspan
    have hshown : w.shows duration o.start = true := by
      rw [Window.shows, Moment.endsBefore_of_plus hfinish, hend, hlast]
      rfl
    rw [Visits, if_neg hkind] at hvisits
    exact exists_listPeriods_of_later hkind hbudget h hcomplete hzone hbound (by omega) hduration
      (by omega) hvisits hshown (by omega)
  · -- the bound cuts nothing
    exact ⟨e, h⟩

section

variable (hfirst : s.firstInstance = some first) (hzone : w.first.zone = s.anchorStart.zone)
  (hzone' : w.last.zone = s.anchorStart.zone)

include hfirst hzone hzone'

/-- What does not come before the cut window does not come before the bound either. -/
theorem before_first_clip (hbound : first.zone = s.anchorStart.zone ∨ w.InStepWith s) {m : Moment}
    (hm : s.Passes m) :
    m.before (w.clip s).first = (m.before w.first || m.before first) := by
  obtain ⟨-, hfirstEnd, -, hpassed⟩ := orderedBy_rank hzone hzone' hbound
  obtain ⟨hmBound, hmFirst, -⟩ := hpassed m hm
  have hearly := hfirstEnd.symm.before_iff
  rw [first_clip hfirst hzone, Bool.eq_iff_iff, Bool.or_eq_true, hmFirst.before_iff,
    hmBound.before_iff]
  split
  · rename_i hbefore
    rw [hearly] at hbefore
    rw [hmBound.before_iff]
    omega
  · rename_i hbefore
    rw [hearly] at hbefore
    rw [hmFirst.before_iff]
    omega

/-- Every occurrence of the cut window reaches the bound. -/
theorem reaches_of_expand (hbound : first.zone = s.anchorStart.zone ∨ w.InStepWith s)
    (h : s.expand w cap = .ok e) : ∀ o ∈ e.occurrences, s.reaches first o = true := by
  intro o ho
  cases hcut : (w.clip s).isEmpty with
  | true =>
    rw [expand_of_isEmpty hcut, Except.ok.injEq] at h
    subst h
    cases ho
  | false =>
    unfold reaches
    split
    · rename_i hkind
      rw [expand_eq_listListed hkind hcut] at h
      obtain ⟨hvisits, -, hopen, -⟩ := isListed_of_listListed hkind h o ho
      rw [before_first_clip hfirst hzone hzone' hbound (.start hvisits),
        Bool.or_eq_false_iff] at hopen
      rw [hopen.2]
      rfl
    · rename_i hkind
      rw [expand_eq_listPeriods hkind hcut] at h
      obtain ⟨hvisits, ⟨duration, hduration, hfinish⟩, hopen, -⟩ :=
        isShown_of_listPeriods hkind (by decide) h o ho
      rw [before_first_clip hfirst hzone hzone' hbound (.finish hvisits hduration hfinish),
        Bool.or_eq_false_iff] at hopen
      rw [hopen.2]
      rfl

/-- Where an occurrence reaches the bound with its start, the bound does not empty the window. -/
theorem isEmpty_clip_of_upTo (hbound : first.zone = s.anchorStart.zone ∨ w.InStepWith s)
    (hspans : s.SpansForward first)
    (h : s.withoutFirst.expand w cap = .ok e) {o : Occurrence} (ho : o ∈ e.occurrences)
    (hreach : first.upTo o.start = true) : (w.clip s).isEmpty = false := by
  have hwhole := s.clip_withoutFirst hzone
  obtain ⟨-, -, hlastEnd, hpassed⟩ := orderedBy_rank hzone hzone' hbound
  rw [← Bool.not_eq_true]
  intro hcut
  have hopen := isEmpty_clip_of_mem h ho
  -- the window ends before the bound, which only its own end can do
  have hearly : (w.clip s).last.before first = true := by
    rw [Window.isEmpty, first_clip hfirst hzone] at hcut
    rw [hwhole, Window.isEmpty] at hopen
    split at hcut
    · exact hcut
    · rw [hopen] at hcut
      cases hcut
  have hlast := last_clip_of_before hfirst hzone' hearly
  rw [hlast, hlastEnd.symm.before_iff] at hearly
  by_cases hkind : s.kind = .customWeekly
  · rw [expand_eq_listListed (show s.withoutFirst.kind = .customWeekly from hkind) hopen,
      listListed_withoutFirst] at h
    obtain ⟨hvisits, ⟨duration, hduration, hfinish⟩, -, hend⟩ :=
      isListed_of_listListed hkind h o ho
    have hspan := hspans o.start duration o.finish hvisits hduration hfinish
    rw [(hpassed o.start (.start hvisits)).1.2] at hreach
    rw [hwhole, hlast, ← Bool.not_eq_true,
      (hpassed o.finish (.finish hvisits hduration hfinish)).2.2.symm.before_iff] at hend
    omega
  · rw [expand_eq_listPeriods (show s.withoutFirst.kind ≠ .customWeekly from hkind) hopen] at h
    obtain ⟨hvisits, -, -, hend⟩ := isShown_of_listPeriods hkind (by decide)
      (show s.listPeriods (w.clip s.withoutFirst) cap skipBudget = .ok e from h) o ho
    rw [(hpassed o.start (.start hvisits)).1.2] at hreach
    rw [hwhole, hlast, (hpassed o.start (.start hvisits)).2.2.1] at hend
    omega

/-- Where both windows are open, the cut one has the occurrences that reach the bound. -/
theorem filter_reaches_of_expand (hbound : first.zone = s.anchorStart.zone ∨ w.InStepWith s)
    (hcut : (w.clip s).isEmpty = false) (hopen : (w.clip s.withoutFirst).isEmpty = false)
    (h : s.withoutFirst.expand w cap = .ok e) (hcomplete : e.truncated = false)
    (h' : s.expand w cap = .ok e') :
    e'.occurrences = e.occurrences.filter (s.reaches first) := by
  have hwhole := s.clip_withoutFirst hzone
  have hbefore {m : Moment} (hm : s.Passes m) := before_first_clip hfirst hzone hzone' hbound hm
  -- listed days are held against the bound by their starts, the other kinds by their ends
  by_cases hkind : s.kind = .customWeekly
  · rw [expand_eq_listListed (show s.withoutFirst.kind = .customWeekly from hkind) hopen,
      listListed_withoutFirst, hwhole] at h
    rw [expand_eq_listListed hkind hcut] at h'
    rw [(listListed_filter hkind h hcomplete h' rfl fun m hm => hbefore (.start hm)).2]
    apply List.filter_congr
    intro o _
    rw [reaches, if_pos hkind]
  · rw [expand_eq_listPeriods (show s.withoutFirst.kind ≠ .customWeekly from hkind) hopen,
      hwhole] at h
    rw [expand_eq_listPeriods hkind hcut] at h'
    obtain ⟨duration, hduration⟩ := exists_duration_of_listPeriods h
    refine (listPeriods_filter (P := fun m => !m.endsBefore duration first) hkind (by decide)
      hduration ?_ ?_ h hcomplete h').2
    · intro start o ho
      obtain ⟨finish, hfinish, rfl⟩ := Occurrence.startingAt_eq_ok_iff.mp ho
      rw [Moment.endsBefore_of_plus hfinish, reaches, if_neg hkind]
      rfl
    · intro m hm
      cases hplus : m.plus duration with
      | error error => simp [Window.shows, Moment.endsBefore, hplus, Except.toOption]
      | ok finish =>
        rw [Window.shows, Window.shows, Moment.endsBefore_of_plus hplus,
          Moment.endsBefore_of_plus hplus, Moment.endsBefore_of_plus hplus,
          hbefore (.finish (visits_of_mem_allStarts hkind hm) hduration hplus), Bool.not_or,
          Bool.and_assoc, Bool.and_assoc, Bool.and_comm (!finish.before first)]

/-- In the zone of the series the expansion with the bound returns if an occurrence reaches it. -/
theorem exists_expand_of_upTo (hbound : first.zone = s.anchorStart.zone)
    (hspans : s.SpansForward first)
    (h : s.withoutFirst.expand w cap = .ok e) (hcomplete : e.truncated = false) {o : Occurrence}
    (ho : o ∈ e.occurrences) (hreach : first.upTo o.start = true) :
    ∃ e', s.expand w cap = .ok e' := by
  have hcut := isEmpty_clip_of_upTo hfirst hzone hzone' (.inl hbound) hspans h ho hreach
  have hwhole := s.clip_withoutFirst hzone
  have hopen := isEmpty_clip_of_mem h ho
  have hclip := first_clip hfirst hzone
  by_cases hkind : s.kind = .customWeekly
  · rw [expand_eq_listListed (show s.withoutFirst.kind = .customWeekly from hkind) hopen,
      listListed_withoutFirst, hwhole] at h
    have hlater : (w.clip s).first.zone = s.anchorStart.zone ∧
        w.first.wall.micros ≤ (w.clip s).first.wall.micros := by
      rw [hclip]
      split
      · rename_i hearly
        rw [Moment.before, Moment.since_of_zone_eq (hzone.trans hbound.symm),
          decide_eq_true_eq] at hearly
        exact ⟨hbound, by omega⟩
      · exact ⟨hzone, Nat.le_refl _⟩
    rw [expand_eq_listListed hkind hcut]
    exact exists_listListed_of_later hkind h hcomplete hzone hlater.1 hlater.2 rfl fun m hm =>
      before_first_clip hfirst hzone hzone' (.inl hbound) (.start hm)
  · rw [expand_eq_listPeriods (show s.withoutFirst.kind ≠ .customWeekly from hkind) hopen,
      hwhole] at h
    change s.listPeriods ⟨w.first, (w.clip s).last⟩ cap skipBudget = .ok e at h
    have hsame : w.clip s =
        ⟨if w.first.before first then first else w.first, (w.clip s).last⟩ := by rw [← hclip]
    rw [expand_eq_listPeriods hkind hcut, hsame]
    exact exists_listPeriods_of_upTo hkind (show 20 ≤ skipBudget by decide)
      (show (Window.mk w.first (w.clip s).last).first.zone = s.anchorStart.zone from hzone)
      hbound hspans h hcomplete ho hreach

/-- With a first bound an expansion has no occurrence that ends before it, or with listed weekdays
    none that starts before it, and it keeps all that start from the bound on. -/
theorem expand_firstInstance (hbound : first.zone = s.anchorStart.zone ∨ w.InStepWith s) :
    (∀ e, s.expand w cap = .ok e → ∀ o ∈ e.occurrences, s.reaches first o = true) ∧
    (s.SpansForward first → ∀ e, s.withoutFirst.expand w cap = .ok e → e.truncated = false →
      ∀ o ∈ e.occurrences, first.upTo o.start = true →
        (first.zone = s.anchorStart.zone → ∃ e', s.expand w cap = .ok e') ∧
          ∀ e', s.expand w cap = .ok e' → o ∈ e'.occurrences) := by
  refine ⟨fun e h => reaches_of_expand hfirst hzone hzone' hbound h, ?_⟩
  intro hspans e h hcomplete o ho hreach
  constructor
  · intro hown
    exact exists_expand_of_upTo hfirst hzone hzone' hown hspans h hcomplete ho hreach
  · intro e' h'
    have hcut := isEmpty_clip_of_upTo hfirst hzone hzone' hbound hspans h ho hreach
    rw [filter_reaches_of_expand hfirst hzone hzone' hbound hcut (isEmpty_clip_of_mem h ho) h
      hcomplete h', List.mem_filter]
    exact ⟨ho, reaches_of_upTo hzone hzone' hbound hspans h ho hreach⟩

end

/-- The Mondays from a Monday at ten on, when the first of them ends. -/
def mondaysFrom : Series where
  toSeriesFields := { mondays.toSeriesFields with firstInstance := some (.inJanuary 1 10) }
  zones := by decide
  ends := by decide
  bounds := by decide
  listed := by decide

theorem spansForward_mondaysFrom : mondaysFrom.SpansForward (.inJanuary 1 10) := by
  refine spansForward_of_nonneg rfl fun duration hduration => ?_
  have hhour : mondaysFrom.duration = .ok (microsPerHour : Int) := rfl
  rw [hhour, Except.ok.injEq] at hduration
  omega

/-- The Monday that starts before the bound and ends with it is kept, and so is the next one. -/
theorem expand_mondaysFrom_keeps :
    let w := fortnight 738885 (by decide)
    ∃ e e', mondaysFrom.withoutFirst.expand w 10 = .ok e ∧ e.truncated = false ∧
      mondaysFrom.expand w 10 = .ok e' ∧ e'.occurrences.length = 2 ∧
      (∀ o ∈ e'.occurrences, mondaysFrom.reaches (.inJanuary 1 10) o = true) ∧
      ∀ o ∈ e.occurrences, (Moment.inJanuary 1 10).upTo o.start = true → o ∈ e'.occurrences := by
  intro w
  obtain ⟨hreaches, hkeeps⟩ :=
    @expand_firstInstance mondaysFrom w 10 (.inJanuary 1 10) rfl rfl rfl (.inl rfl)
  have h : mondaysFrom.withoutFirst.expand w 10 =
      .ok ⟨"mondays", [.plain (.inJanuary 1 9) (.inJanuary 1 10),
        .plain (.inJanuary 8 9) (.inJanuary 8 10)], .complete⟩ := rfl
  have h' : mondaysFrom.expand w 10 =
      .ok ⟨"mondays", [.plain (.inJanuary 1 9) (.inJanuary 1 10),
        .plain (.inJanuary 8 9) (.inJanuary 8 10)], .complete⟩ := rfl
  exact ⟨_, _, h, rfl, h', rfl, hreaches _ h', fun o ho hreach =>
    (hkeeps spansForward_mondaysFrom _ h rfl o ho hreach).2 _ h'⟩

/-- The nights from two o'clock on, winter time, of the night in which the clock is put back. -/
def nightlyFrom : Series where
  toSeriesFields := { nightly.toSeriesFields with
    firstInstance := some (.inOctober 27 1) }
  zones := by decide
  ends := by decide
  bounds := by decide
  listed := by decide

/-- Every Tuesday by a clock that is five hours ahead, with an end that is given by another clock,
    on whose calendar it is still Monday. -/
def tuesdaysBackward : Series where
  toSeriesFields := { mondays.toSeriesFields with
    anchorStart := { Moment.inJanuary 2 0 with zone := .fixed 300 }
    anchorEnd := some (.inJanuary 1 20)
    allDay := true
    firstInstance := some { Moment.inJanuary 2 0 with zone := .fixed 300 } }
  zones := by decide
  ends := by decide
  bounds := by decide
  listed := by decide

/-- An occurrence that starts before the bound is kept if it has not ended by then; with a bound of
    another zone even one that has ended is, where the clock is put back.  An occurrence that
    starts with the bound is lost if its end comes before its start. -/
theorem expand_firstInstance_keeps_earlier_loses_later :
    (let w := fortnight 738885 (by decide)
     mondaysFrom.firstInstance = some (.inJanuary 1 10) ∧
      w.first.zone = mondaysFrom.anchorStart.zone ∧ w.last.zone = mondaysFrom.anchorStart.zone ∧
      ∃ e, mondaysFrom.expand w 10 = .ok e ∧ e.truncated = false ∧
        ∃ o ∈ e.occurrences, o.start.before (.inJanuary 1 10) = true) ∧
    (let w : Window := ⟨.inBerlin 150 true, .inBerlin 720 false⟩
     nightlyFrom.firstInstance = some (.inOctober 27 1) ∧
      w.first.zone = nightlyFrom.anchorStart.zone ∧ w.last.zone = nightlyFrom.anchorStart.zone ∧
      ∃ e, nightlyFrom.expand w 10 = .ok e ∧ e.truncated = false ∧
        ∃ o ∈ e.occurrences, o.finish.before (.inOctober 27 1) = true) ∧
    (let w : Window := ⟨{ Moment.inJanuary 1 0 with zone := .fixed 300 },
        { Moment.inJanuary 5 0 with zone := .fixed 300 }⟩
     let first : Moment := { Moment.inJanuary 2 0 with zone := .fixed 300 }
     tuesdaysBackward.firstInstance = some first ∧
      w.first.zone = tuesdaysBackward.anchorStart.zone ∧
      w.last.zone = tuesdaysBackward.anchorStart.zone ∧
      ∃ e e', tuesdaysBackward.withoutFirst.expand w 10 = .ok e ∧ e.truncated = false ∧
        tuesdaysBackward.expand w 10 = .ok e' ∧ e'.truncated = false ∧
        ∃ o ∈ e.occurrences, first.upTo o.start = true ∧ o ∉ e'.occurrences) := by
  refine ⟨⟨rfl, rfl, rfl, ?_⟩, ⟨rfl, rfl, rfl, ?_⟩, rfl, rfl, rfl, ?_⟩
  · exact ⟨⟨"mondays", [.plain (.inJanuary 1 9) (.inJanuary 1 10),
      .plain (.inJanuary 8 9) (.inJanuary 8 10)], .complete⟩, rfl, rfl, _, List.mem_cons_self,
      by decide⟩
  · exact ⟨⟨"nightly", [.plain (.inBerlin 155 false) (.inBerlin 165 false)], .complete⟩, rfl, rfl,
      _, List.mem_cons_self, by decide⟩
  · exact ⟨⟨"mondays", [.plain { Moment.inJanuary 2 0 with zone := .fixed 300 }
        { Moment.inJanuary 1 0 with zone := .fixed 300 }], .complete⟩,
      ⟨"mondays", [], .complete⟩, rfl, rfl, rfl, rfl, _, List.mem_cons_self, by decide, by decide⟩

end Series

end EventCalendar
