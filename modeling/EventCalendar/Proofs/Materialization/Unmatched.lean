/-
  EventCalendar.Proofs.Materialization.Unmatched

  The modifications that are reported to have found no occurrence.  They are
  kept by the names of the series, so that of several requests for one name only
  the last that leaves any has them reported.
-/

import EventCalendar.Proofs.Expansion.Periods
import EventCalendar.Proofs.Materialization.Shares
import Mathlib.Algebra.GroupWithZero.Nat
import Mathlib.Data.List.Nodup

namespace EventCalendar

open EventCalendar.Time

namespace Materialization

variable {w : Window} {cap : Int} {m : Materialization} {requests : List SeriesRequest}
  {shares : List Share}

/-! ## What is left over -/

/-- Shares without such modifications contribute none. -/
theorem flatMap_leftOver (shares : List Share) :
    (leftOver shares).flatMap (·.unmatched) = shares.flatMap (·.unmatched) := by
  induction shares with
  | nil => rfl
  | cons x shares ih =>
    rw [leftOver] at ih ⊢
    rw [List.filter_cons, List.flatMap_cons, ← ih]
    cases hx : x.unmatched with
    | nil => simp
    | cons first rest => simp [hx]

theorem length_unmatched_pos {x : Share} (h : x ∈ leftOver shares) : 0 < x.unmatched.length := by
  have hx := (List.mem_filter.mp h).2
  rw [List.length_pos_iff]
  simpa using hx

/-- If one share accounts for all that is left over, it is the only one. -/
theorem length_le_one_of_getLast? (hall : ∀ x ∈ shares, 0 < x.unmatched.length)
    (h : ((shares.getLast?.map (·.unmatched)).getD []).length =
      (shares.flatMap (·.unmatched)).length) : shares.length ≤ 1 := by
  cases hlast : shares.getLast? with
  | none => simp [List.getLast?_eq_none_iff.mp hlast]
  | some z =>
    obtain ⟨others, rfl⟩ := List.getLast?_eq_some_iff.mp hlast
    rw [hlast, Option.map_some, Option.getD_some, List.flatMap_append, List.length_append,
      List.flatMap_singleton] at h
    cases others with
    | nil => simp
    | cons x others =>
      -- any share before the last one would add to the sum
      have hx := hall x (List.mem_append_left _ List.mem_cons_self)
      rw [List.flatMap_cons, List.length_append] at h
      omega

theorem getLast?_of_length_le_one (h : shares.length ≤ 1) :
    (shares.getLast?.map (·.unmatched)).getD [] = shares.flatMap (·.unmatched) := by
  cases shares with
  | nil => rfl
  | cons x others =>
    cases others with
    | nil => exact (List.flatMap_singleton ..).symm
    | cons => simp at h

/-! ## What is reported -/

theorem values_unmatched (hdistinct : ((leftOver shares).map (·.seriesId)).Nodup) :
    (shares.foldl join empty).unmatched.values = (leftOver shares).map (·.unmatched) := by
  rw [unmatched_foldl_join, OrderedMap.values,
    entries_foldl_put hdistinct fun _ _ => List.not_mem_nil]
  simp [empty, OrderedMap.empty]

/-- The modifications that are reported for a series are those that its last request with any
    leaves over.  All of them are reported, for every series, if and only if no two requests for
    one series leave any over. -/
theorem ofRequests_reports_all_iff (h : (ofRequests requests w cap).outcome = .ok m) :
    ∃ shares, requests.mapM (·.share w cap) = .ok shares ∧
      (∀ id, m.unmatched.find? id =
        ((leftOver shares).filter (·.seriesId = id)).getLast?.map (·.unmatched)) ∧
      (((∀ id, ((m.unmatched.find? id).getD []).Perm
          ((shares.filter (·.seriesId = id)).flatMap (·.unmatched))) ∧
        m.unmatchedCount = (shares.map (·.unmatched.length)).sum) ↔
      ((leftOver shares).map (·.seriesId)).Nodup) := by
  obtain ⟨shares, hshares, rfl⟩ := ofRequests_eq_ok_iff.mp h
  refine ⟨shares, hshares, find?_unmatched shares, ?_⟩
  simp only [find?_unmatched]
  constructor
  · rintro ⟨hall, -⟩
    rw [nodup_seriesId_iff]
    intro id
    have hlength := (hall id).length_eq
    rw [← flatMap_leftOver, ← filter_leftOver] at hlength
    exact length_le_one_of_getLast?
      (fun x hx => length_unmatched_pos (List.mem_filter.mp hx).1) hlength
  · intro hdistinct
    constructor
    · intro id
      rw [← flatMap_leftOver, ← filter_leftOver]
      exact .of_eq (getLast?_of_length_le_one (nodup_seriesId_iff.mp hdistinct id))
    · rw [unmatchedCount, values_unmatched hdistinct, ← List.flatMap_def, flatMap_leftOver,
        List.length_flatMap]

/-- A change to a Tuesday, on which there is no Monday. -/
def tuesdayTitle (title : String) : Modification :=
  ⟨.inJanuary 2 9, none, none, some title, none⟩

/-- If only one of two requests for the Mondays has a change to a Tuesday, it is reported. -/
theorem ofRequests_mondays_reports_all :
    let requests : List SeriesRequest :=
      [⟨mondays, [], .listed [tuesdayTitle "first"]⟩, ⟨mondays, [], .none⟩]
    let w := fortnight 738885 (by decide)
    ∃ m shares, (ofRequests requests w 10).outcome = .ok m ∧
      requests.mapM (·.share w 10) = .ok shares ∧
      (leftOver shares).map (·.seriesId) = ["mondays"] ∧
      (∀ id, ((m.unmatched.find? id).getD []).Perm
        ((shares.filter (·.seriesId = id)).flatMap (·.unmatched))) ∧
      m.unmatchedCount = (shares.map (·.unmatched.length)).sum := by
  intro requests w
  have hruns : (requests.mapM (SeriesRequest.share · w 10)).map
      (fun shares => (leftOver shares).map (·.seriesId)) = .ok ["mondays"] := by decide +kernel
  obtain ⟨shares, hshares, hnames⟩ := map_eq_ok_iff.mp hruns
  have h := ofRequests_eq_ok_iff.mpr ⟨shares, hshares, rfl⟩
  obtain ⟨shares', hshares', -, hall⟩ := ofRequests_reports_all_iff h
  rw [hshares, Except.ok.injEq] at hshares'
  subst hshares'
  have hdistinct : ((leftOver shares).map (·.seriesId)).Nodup := hnames ▸ List.nodup_singleton _
  exact ⟨_, shares, h, hshares, hnames, hall.mpr hdistinct⟩

/-- If both requests have a change to a Tuesday, only that of the second one is reported. -/
theorem ofRequests_mondays_loses_first :
    let requests : List SeriesRequest :=
      [⟨mondays, [], .listed [tuesdayTitle "first"]⟩,
        ⟨mondays, [], .listed [tuesdayTitle "second"]⟩]
    let w := fortnight 738885 (by decide)
    ∃ m shares, (ofRequests requests w 10).outcome = .ok m ∧
      requests.mapM (·.share w 10) = .ok shares ∧
      (shares.filter (·.seriesId = "mondays")).flatMap (·.unmatched) =
        [tuesdayTitle "first", tuesdayTitle "second"] ∧
      m.unmatched.find? "mondays" = some [tuesdayTitle "second"] ∧ m.unmatchedCount = 1 := by
  intro requests w
  have hruns : (requests.mapM (SeriesRequest.share · w 10)).map (fun shares =>
      ((shares.filter (·.seriesId = "mondays")).flatMap (·.unmatched),
        (shares.foldl join empty).unmatched.find? "mondays",
        (shares.foldl join empty).unmatchedCount)) =
      .ok ([tuesdayTitle "first", tuesdayTitle "second"], some [tuesdayTitle "second"], 1) := by
    decide +kernel
  obtain ⟨shares, hshares, hreport⟩ := map_eq_ok_iff.mp hruns
  rw [Prod.mk.injEq, Prod.mk.injEq] at hreport
  obtain ⟨hleft, hfound, hcount⟩ := hreport
  exact ⟨_, shares, ofRequests_eq_ok_iff.mpr ⟨shares, hshares, rfl⟩, hshares, hleft, hfound,
    hcount⟩

end Materialization

end EventCalendar
