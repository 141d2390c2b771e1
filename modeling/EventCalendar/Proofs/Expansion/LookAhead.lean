/-
  EventCalendar.Proofs.Expansion.LookAhead

  What listing period by period needs of the calendar.  Besides the occurrences
  that it lists it looks at the end of the first one, at a place before the
  window and at one more start.  Where all of these are in the calendar it
  returns, and nowhere else.
-/

import EventCalendar.Proofs.Expansion.Windows

namespace EventCalendar

open EventCalendar.Time

/-- There are occurrences at all of some starts if all of them have ends. -/
theorem Occurrence.exists_mapM_startingAt_iff {duration : Int} {starts : List Moment} :
    (∃ r, starts.mapM (Occurrence.startingAt duration) = .ok r) ↔
      ∀ m ∈ starts, ∃ finish, m.plus duration = .ok finish := by
  simp only [exists_mapM_eq_ok_iff, startingAt_eq_ok_iff]
  exact forall₂_congr fun m _ => ⟨fun ⟨_, finish, h, _⟩ => ⟨finish, h⟩,
    fun ⟨finish, h⟩ => ⟨_, finish, h, rfl⟩⟩

namespace Pattern

variable {p : Pattern} {duration : Int} {last cursor : Moment}

/-- Listing returns if the starts that are listed have ends, and if there is one more start after
    them: to go on, the next one is looked at. -/
theorem exists_list_eq_ok_iff {room : Nat} :
    (∃ r, p.list duration last room cursor = .ok r) ↔
      (∀ m ∈ ((p.startsFrom cursor).takeWhile (·.upTo last)).take room,
        ∃ finish, m.plus duration = .ok finish) ∧
      (((p.startsFrom cursor).takeWhile (·.upTo last)).take room).length <
        (p.startsFrom cursor).length := by
  -- by induction on the room: without room the cursor itself is the start after those listed
  induction room generalizing cursor with
  | zero =>
    unfold list
    constructor
    · intro _
      simp [startsFrom]
    · intro _
      split <;> exact ⟨_, rfl⟩
  | succ room ih =>
    cases hstop : cursor.upTo last with
    | false =>
      rw [list_of_after hstop, startsFrom, List.takeWhile_cons_of_neg (by simp [hstop])]
      simp
    | true =>
      have hlist : p.list duration last (room + 1) cursor = cursor.plus duration >>= fun finish =>
          p.step cursor >>= fun next => p.list duration last room next >>= fun listed =>
            .ok (.plain cursor finish :: listed.1, listed.2) := by
        conv_lhs => unfold list
        rw [hstop]
        rfl
      simp only [hlist, bind_eq_ok_iff]
      cases hstep : p.step cursor with
      | error e =>
        -- there is no next start to look at
        rw [startsFrom_of_step_error hstep, List.takeWhile_cons_of_pos (by simpa using hstop)]
        simp
      | ok next =>
        rw [startsFrom_of_step_ok hstep, List.takeWhile_cons_of_pos (by simpa using hstop),
          List.take_succ_cons, List.forall_mem_cons, List.length_cons, List.length_cons,
          Nat.add_lt_add_iff_right, and_assoc, ← ih]
        constructor
        · rintro ⟨-, finish, hfinish, next', hnext, r, hr, -⟩
          cases hnext
          exact ⟨⟨finish, hfinish⟩, r, hr⟩
        · rintro ⟨⟨finish, hfinish⟩, r, hr⟩
          exact ⟨_, finish, hfinish, next, rfl, r, hr, rfl⟩

end Pattern

namespace Series

variable {s : Series} {w : Window} {duration cap budget : Int} {e : Expansion}

/-- These are the starts that are found in a window period by period, as far as they are asked for:
    all that it shows, where the calendar has what is looked at on the way. -/
structure FindsByPeriods (s : Series) (w : Window) (duration : Int) (room : Nat)
    (starts : List Moment) : Prop where
  shown : starts = s.allStarts.filter (w.shows duration)
  /-- The first occurrence has an end, and the window, if that lies before it, a place that far
      ahead of it. -/
  entered : ∃ start finish, s.firstStart = .ok start ∧ start.plus duration = .ok finish ∧
    (finish.before w.first = true → ∃ target, w.first.plus (-duration) = .ok target)
  /-- There is one more start than are listed, with an end if none are. -/
  ahead : ∃ m ∈ s.allStarts, m.endsBefore duration w.first = false ∧ m ∉ starts.take room ∧
    (starts.take room = [] → ∃ finish, m.plus duration = .ok finish)

/-- What is listed are the first of the starts from where the window is entered. -/
private theorem listed_startsFrom (cursor last : Moment) (room : Nat) :
    ((s.pattern.startsFrom cursor).takeWhile (·.upTo last)).take room <+:
      s.pattern.startsFrom cursor := by
  have htaken := List.take_prefix room ((s.pattern.startsFrom cursor).takeWhile (·.upTo last))
  have hlisted := List.takeWhile_prefix (l := s.pattern.startsFrom cursor) (·.upTo last)
  exact htaken.trans hlisted

/-- One more start than are listed is one that has not ended before the window. -/
theorem exists_ahead_of_list {start finish : Moment} {room : Nat}
    (hfinish : start.plus duration = .ok finish) (hopen : finish.before w.first = false)
    (hmore : (((s.pattern.startsFrom start).takeWhile (·.upTo w.last)).take room).length <
      (s.pattern.startsFrom start).length) :
    ∃ m ∈ s.pattern.startsFrom start, m.endsBefore duration w.first = false ∧
      m ∉ ((s.pattern.startsFrom start).takeWhile (·.upTo w.last)).take room ∧
      (((s.pattern.startsFrom start).takeWhile (·.upTo w.last)).take room = [] →
        ∃ finish, m.plus duration = .ok finish) := by
  obtain ⟨left, hleft⟩ := listed_startsFrom (s := s) start w.last room
  generalize ((s.pattern.startsFrom start).takeWhile (·.upTo w.last)).take room = taken
    at hmore hleft ⊢
  have hascending := s.pattern.startsFrom_ascending start
  cases left with
  | nil =>
    rw [← hleft, List.append_nil] at hmore
    exact absurd hmore (Nat.lt_irrefl _)
  | cons m left =>
    have hm : m ∈ s.pattern.startsFrom start := hleft ▸ List.mem_append_right _ List.mem_cons_self
    refine ⟨m, hm, ?_, ?_, ?_⟩
    · -- either the one at which the window is entered, or one of a later day
      rw [Pattern.startsFrom] at hm hascending
      rcases List.mem_cons.mp hm with rfl | hlater
      · rw [Moment.endsBefore_of_plus hfinish, hopen]
      · exact Moment.endsBefore_eq_false_of_dayNumber_lt (Pattern.alike_of_mem_startsFrom hm).1
          ((List.pairwise_cons.mp hascending).1 m hlater) hfinish hopen
    · intro htaken
      rw [← hleft, List.pairwise_append] at hascending
      exact Nat.lt_irrefl _ (hascending.2.2 m htaken m List.mem_cons_self)
    · rintro rfl
      rw [Pattern.startsFrom, List.nil_append, List.cons.injEq] at hleft
      rw [hleft.1]
      exact ⟨finish, hfinish⟩

/-- Among the starts that are looked at there is one whose occurrence has an end, which does not lie
    before the window. -/
theorem FindsByPeriods.exists_open {room : Nat} {starts : List Moment}
    (h : s.FindsByPeriods w duration room starts)
    (hends : ∀ m ∈ starts.take room, ∃ finish, m.plus duration = .ok finish) :
    ∃ m ending, m ∈ s.allStarts ∧ m.plus duration = .ok ending ∧
      ending.before w.first = false := by
  obtain ⟨hshown, -, m, hm, hopen, -, hend⟩ := h
  cases hfirst : starts.take room with
  | nil =>
    obtain ⟨ending, hending⟩ := hend hfirst
    rw [Moment.endsBefore_of_plus hending] at hopen
    exact ⟨m, ending, hm, hending, hopen⟩
  | cons m₀ rest =>
    have hm₀ : m₀ ∈ starts.take room := hfirst ▸ List.mem_cons_self
    obtain ⟨ending, hending⟩ := hends m₀ hm₀
    have hmem := List.mem_of_mem_take hm₀
    rw [hshown, List.mem_filter, Window.shows, Moment.endsBefore_of_plus hending,
      Bool.and_eq_true, Bool.not_eq_true'] at hmem
    exact ⟨m₀, ending, hmem.1, hending, hmem.2.1⟩

/-- A list is made period by period exactly where the calendar has what is looked at for it. -/
theorem listPeriods_eq_ok_iff (hkind : s.kind ≠ .customWeekly) (hbudget : 20 ≤ budget)
    (hzoned : w.first.isZoned = true) : s.listPeriods w cap budget = .ok e ↔
      ∃ duration starts, s.duration = .ok duration ∧
        s.FindsByPeriods w duration cap.toNat starts ∧
        (starts.take cap.toNat).mapM (Occurrence.startingAt duration) = .ok e.occurrences ∧
        e = ⟨s.seriesId, e.occurrences,
          if cap.toNat < starts.length then .capped else .complete⟩ := by
  have hsteps : 20 ≤ budget.toNat := by omega
  constructor
  · intro h
    obtain ⟨duration, start, occurrences, more, hduration, henter, hlist, rfl⟩ :=
      listPeriods_cases hkind hbudget h
    obtain ⟨_, before, finish, hstart, hsplit, hended, hfinish, hopen⟩ :=
      allStarts_of_enter hkind hsteps henter
    cases hstart
    have hshown := filter_shows_eq_takeWhile hsplit hended hfinish hopen
    obtain ⟨hlisted, hmore⟩ := Pattern.mapM_startingAt_of_list hlist
    obtain ⟨-, hlength⟩ := Pattern.exists_list_eq_ok_iff.mp ⟨_, hlist⟩
    obtain ⟨m, hm, hahead⟩ := exists_ahead_of_list hfinish hopen hlength
    refine ⟨duration, _, hduration, ⟨rfl, exists_firstStart_of_enter henter, m, ?_, ?_⟩, ?_, ?_⟩
    · rw [hsplit]
      exact List.mem_append_right _ hm
    · rw [hshown]
      exact hahead
    · rw [hshown]
      exact hlisted
    · rw [hshown]
      simp only [hmore]
  · rintro ⟨duration, starts, hduration, hfinds, hlisted, he⟩
    have hends := Occurrence.exists_mapM_startingAt_iff.mp ⟨_, hlisted⟩
    -- that occurrence keeps the jump and the steps towards the window in the calendar
    obtain ⟨m₀, ending, hm₀, hending, hopen₀⟩ := hfinds.exists_open hends
    obtain ⟨rfl, ⟨cursor, finish, hcursor, hfinish, htarget⟩, m, hm, hopen, hnew, -⟩ := hfinds
    obtain ⟨result, henter⟩ := exists_enter_eq_ok budget.toNat hkind hzoned hm₀ hending hopen₀
      hcursor hfinish htarget
    obtain ⟨start, before, finish', rfl, hsplit, hended, hfinish', hbefore⟩ :=
      allStarts_of_enter hkind hsteps henter
    have hmem := mem_startsFrom_of_enter hkind hbudget henter hm hopen
    rw [filter_shows_eq_takeWhile hsplit hended hfinish' hbefore] at hlisted he hends hnew
    -- the start that is not listed makes all starts more than those that are
    have hmore : (((s.pattern.startsFrom start).takeWhile (·.upTo w.last)).take cap.toNat).length <
        (s.pattern.startsFrom start).length := by
      rw [← Nat.not_le]
      intro hle
      rw [(listed_startsFrom start w.last cap.toNat).eq_of_length_le hle] at hnew
      exact hnew hmem
    obtain ⟨⟨occurrences, more⟩, hlist⟩ := Pattern.exists_list_eq_ok_iff.mpr ⟨hends, hmore⟩
    obtain ⟨hlisted', hcapped⟩ := Pattern.mapM_startingAt_of_list hlist
    rw [hlisted', Except.ok.injEq] at hlisted
    rw [listPeriods_of_enter hduration henter hlist, he, hlisted]
    simp only [hcapped]

end Series

end EventCalendar
