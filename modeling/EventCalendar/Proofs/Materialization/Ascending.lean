/-
  EventCalendar.Proofs.Materialization.Ascending

  Events of all zones in one order.  The starts of two events are held against
  each other by the readings of their clock or, in two zones, by their instants,
  so that three of them may stand in a circle.  Sorted events nevertheless stand
  in order with their neighbours: they ascend by instants, except for neighbours
  on one clock that skips or repeats a time there.
-/

import EventCalendar.Proofs.Materialization.Shares
import EventCalendar.Proofs.Materialization.Sorting

namespace EventCalendar

open EventCalendar.Time

/-! ## Events of several requests -/

namespace Materialization

variable {requests : List SeriesRequest} {w : Window} {cap : Int} {m : Materialization}

/-- The events that a window shows are those of all requests, and each of them starts no later than
    the next one: on their clock if they are in one zone, and as an instant if they are not.  As an
    instant it starts later only where their one clock is put forward or back between them. -/
theorem ofRequests_ascending (h : (ofRequests requests w cap).outcome = .ok m) :
    (∃ shares, requests.mapM (·.share w cap) = .ok shares ∧
      m.instances.Perm (shares.flatMap (·.instances))) ∧
    m.instances.IsChain fun a b =>
      (if a.start.zone = b.start.zone then a.start.wall.micros ≤ b.start.wall.micros
        else a.start.instant ≤ b.start.instant) ∧
      (b.start.instant < a.start.instant ↔ a.start.Reversed b.start) := by
  obtain ⟨shares, hshares, rfl⟩ := ofRequests_eq_ok_iff.mp h
  rw [instances_foldl_join, empty, List.nil_append]
  refine ⟨⟨shares, hshares, EventInstance.sorted_perm _⟩, ?_⟩
  refine (EventInstance.isChain_sorted _).imp fun a b hab => ?_
  exact ⟨Moment.upTo_eq_true_iff.mp hab, Moment.instant_lt_iff_reversed hab⟩

/-- Every day at the time of a start, for half an hour. -/
def everyDay (name : String) (start : Moment) (hzone : start.isZoned = true) : Series where
  seriesId := name
  title := none
  description := none
  anchorStart := start
  anchorEnd := none
  allDay := false
  kind := .daily
  weekdays := .empty
  firstInstance := none
  lastInstance := none
  zones := by simp [SeriesFields.moments, hzone]
  ends := rfl
  bounds := rfl
  listed := rfl

/-- Every day at half past two in Berlin. -/
def halfPastTwo : SeriesRequest :=
  ⟨everyDay "half past two" (.inMarch 30 150) rfl, [], .none⟩

/-- Every day at three o'clock in Berlin. -/
def three : SeriesRequest := ⟨everyDay "three" (.inMarch 30 180) rfl, [], .none⟩

/-- Every day at half past midnight in universal time. -/
def halfPastMidnight : SeriesRequest :=
  ⟨everyDay "half past midnight" { Moment.inMarch 30 30 with zone := .utc } rfl, [], .none⟩

/-- The morning on which the clock is put forward in Berlin. -/
def marchMorning : Window := ⟨.inMarch 31 0, .inMarch 31 720⟩

/-- Events of two zones ascend with those of a clock that skips half past two. -/
theorem ofRequests_marchMorning_ascending :
    ∃ m, (ofRequests [three, halfPastMidnight, halfPastTwo] marchMorning 10).outcome = .ok m ∧
      m.instances.length = 3 ∧
      m.instances.IsChain fun a b =>
        (if a.start.zone = b.start.zone then a.start.wall.micros ≤ b.start.wall.micros
          else a.start.instant ≤ b.start.instant) ∧
        (b.start.instant < a.start.instant ↔ a.start.Reversed b.start) := by
  have hruns : ([three, halfPastMidnight, halfPastTwo].mapM
      (SeriesRequest.share · marchMorning 10)).map
        (fun shares => (shares.flatMap (·.instances)).length) = .ok 3 := by decide +kernel
  obtain ⟨shares, hshares, hlength⟩ := map_eq_ok_iff.mp hruns
  have h := ofRequests_eq_ok_iff.mpr ⟨shares, hshares, rfl⟩
  obtain ⟨⟨shares', hshares', hperm⟩, hchain⟩ := ofRequests_ascending h
  rw [hshares, Except.ok.injEq] at hshares'
  subst hshares'
  exact ⟨_, h, hperm.length_eq.trans hlength, hchain⟩

/-- Half past two, which the clock skips, comes before three o'clock, and is the later instant. -/
theorem ofRequests_marchMorning_not_ascending :
    ∃ m, (ofRequests [halfPastTwo, three] marchMorning 10).outcome = .ok m ∧
      ¬ m.instances.IsChain fun a b => a.start.instant ≤ b.start.instant := by
  have hruns : ([halfPastTwo, three].mapM (SeriesRequest.share · marchMorning 10)).map
      (fun shares => (shares.flatMap (·.instances)).map (·.start)) =
        .ok [.inMarch 31 150, .inMarch 31 180] := by decide +kernel
  obtain ⟨shares, hshares, hstarts⟩ := map_eq_ok_iff.mp hruns
  obtain ⟨x, rest, hevents, hx, hrest⟩ := List.map_eq_cons_iff.mp hstarts
  obtain ⟨y, rest, rfl, hy, hrest⟩ := List.map_eq_cons_iff.mp hrest
  rw [List.map_eq_nil_iff.mp hrest] at hevents
  refine ⟨_, ofRequests_eq_ok_iff.mpr ⟨shares, hshares, rfl⟩, ?_⟩
  have hascends : RunSort.Ascends EventInstance.before [x, y] := by
    refine List.IsChain.cons_cons (EventInstance.asymmetric_before x y ?_) (.singleton y)
    rw [EventInstance.before, hx, hy, if_neg (by decide)]
    decide
  rw [instances_foldl_join, empty, List.nil_append, hevents,
    EventInstance.sorted_of_ascends hascends, List.isChain_cons_cons, hx, hy]
  rintro ⟨h, -⟩
  exact absurd h (by decide)

end Materialization

end EventCalendar
