/-
  EventCalendar.Proofs.Materialization.Shares

  Each request has its share in what a window shows, and has it whatever the
  other requests are.  A run collects the shares one after the other and then
  sorts the events.
-/

import EventCalendar.Materialization
import EventCalendar.Proofs.Overlay.Steps

namespace EventCalendar

open EventCalendar.Time

/-! ## One request -/

/-- What a request adds to a window: the events of its series, the modifications that found no
    occurrence, and whether occurrences may be missing. -/
structure Share where
  seriesId : String
  instances : List EventInstance
  unmatched : List Modification
  truncated : Bool
  deriving DecidableEq, Repr

/-- The share of a request. -/
def SeriesRequest.share (r : SeriesRequest) (w : Window) (cap : Int) :
    Except CalendarError Share := do
  let expansion ← r.series.expand w cap
  let overlay ← (Overlay.apply expansion.occurrences (ExceptionKey.distinct r.deletions)
    r.modifications (some r.series)).outcome
  let instances ← overlay.occurrences.mapM (EventInstance.ofOccurrence r.series)
  return ⟨r.series.seriesId, instances, overlay.unmatched, expansion.truncated⟩

theorem SeriesRequest.share_eq_ok_iff {r : SeriesRequest} {w : Window} {cap : Int} {x : Share} :
    r.share w cap = .ok x ↔ ∃ expansion overlay instances,
      r.series.expand w cap = .ok expansion ∧
      (Overlay.apply expansion.occurrences (ExceptionKey.distinct r.deletions) r.modifications
        (some r.series)).outcome = .ok overlay ∧
      overlay.occurrences.mapM (EventInstance.ofOccurrence r.series) = .ok instances ∧
      x = ⟨r.series.seriesId, instances, overlay.unmatched, expansion.truncated⟩ := by
  unfold share
  simp only [bind_eq_ok_iff, pure_eq_ok, Except.ok.injEq, eq_comm (b := x)]
  constructor
  · rintro ⟨expansion, hexpansion, overlay, hoverlay, instances, hinstances, hx⟩
    exact ⟨expansion, overlay, instances, hexpansion, hoverlay, hinstances, hx⟩
  · rintro ⟨expansion, overlay, instances, hexpansion, hoverlay, hinstances, hx⟩
    exact ⟨expansion, hexpansion, overlay, hoverlay, instances, hinstances, hx⟩

theorem SeriesRequest.seriesId_of_share {r : SeriesRequest} {w : Window} {cap : Int} {x : Share}
    (h : r.share w cap = .ok x) : x.seriesId = r.series.seriesId := by
  obtain ⟨-, -, -, -, -, -, rfl⟩ := share_eq_ok_iff.mp h
  rfl

theorem EventInstance.of_ofOccurrence {s : Series} {o : Occurrence} {i : EventInstance}
    (h : ofOccurrence s o = .ok i) : i.seriesId = s.seriesId ∧ i.start = o.start := by
  unfold ofOccurrence at h
  obtain ⟨after, -, h⟩ := bind_eq_ok_iff.mp h
  cases h
  exact ⟨rfl, rfl⟩

/-- The events of a share carry the name of its series. -/
theorem SeriesRequest.seriesId_of_mem_instances {r : SeriesRequest} {w : Window} {cap : Int}
    {x : Share} (h : r.share w cap = .ok x) : ∀ i ∈ x.instances, i.seriesId = x.seriesId := by
  obtain ⟨-, overlay, instances, -, -, hinstances, rfl⟩ := share_eq_ok_iff.mp h
  intro i hi
  obtain ⟨o, -, ho⟩ := (mem_of_mapM_eq_ok hinstances).mp hi
  exact (EventInstance.of_ofOccurrence ho).1

theorem map_seriesId_of_mapM_share {requests : List SeriesRequest} {w : Window} {cap : Int}
    {shares : List Share} (h : requests.mapM (·.share w cap) = .ok shares) :
    shares.map (·.seriesId) = requests.map (·.series.seriesId) :=
  map_eq_of_mapM_eq_ok (fun _ _ _ hx => SeriesRequest.seriesId_of_share hx) h

/-- The names of series are different if no name belongs to more than one share. -/
theorem nodup_seriesId_iff {shares : List Share} : (shares.map (·.seriesId)).Nodup ↔
    ∀ id, (shares.filter (·.seriesId = id)).length ≤ 1 := by
  have hcount (id : String) :
      (shares.map (·.seriesId)).count id = (shares.filter (·.seriesId = id)).length := by
    rw [List.count_eq_countP, List.countP_map, List.countP_eq_length_filter]
    rfl
  simp only [List.nodup_iff_count, hcount]

namespace Materialization

variable {w : Window} {cap : Int} {m : Materialization} {r : SeriesRequest}
  {requests : List SeriesRequest} {shares : List Share}

/-! ## Runs -/

/-- What is shown with the share of one more request. -/
def join (m : Materialization) (x : Share) : Materialization where
  instances := m.instances ++ x.instances
  unmatched := if x.unmatched.isEmpty then m.unmatched else m.unmatched.put x.seriesId x.unmatched
  truncatedSeries :=
    if x.truncated then m.truncatedSeries ++ [x.seriesId] else m.truncatedSeries

/-- One more request adds its share. -/
theorem outcome_add (w : Window) (cap : Int) (m : Materialization) (r : SeriesRequest) :
    (add w cap m r).outcome = r.share w cap >>= fun x => .ok (m.join x) := by
  simp only [add, SeriesRequest.share, Series.expandNoting, Series.expand, Traced.outcome_bind,
    Traced.outcome_ofExcept, Traced.outcome_noteAll, Traced.outcome_pure, bind_assoc, ok_bind,
    pure_eq_ok]
  rfl

theorem foldlM_join (m : Materialization) (requests : List SeriesRequest) :
    requests.foldlM (fun m r => r.share w cap >>= fun x => .ok (m.join x)) m =
      requests.mapM (·.share w cap) >>= fun shares => .ok (shares.foldl join m) := by
  induction requests generalizing m with
  | nil => rfl
  | cons r requests ih =>
    rw [List.foldlM_cons, List.mapM_cons]
    cases r.share w cap with
    | error e => rfl
    | ok x =>
      rw [ok_bind, ok_bind, ok_bind, ih, bind_assoc]
      rfl

/-- A run shows all shares, with the events in order. -/
theorem ofRequests_eq_ok_iff : (ofRequests requests w cap).outcome = .ok m ↔
    ∃ shares, requests.mapM (·.share w cap) = .ok shares ∧
      m = { shares.foldl join empty with
        instances := EventInstance.sorted (shares.foldl join empty).instances } := by
  have hrun : (ofRequests requests w cap).outcome =
      requests.mapM (·.share w cap) >>= fun shares =>
        .ok { shares.foldl join empty with
          instances := EventInstance.sorted (shares.foldl join empty).instances } := by
    simp only [ofRequests, Traced.outcome_bind, Traced.outcome_foldlM, outcome_add, foldlM_join,
      Traced.outcome_note, Traced.outcome_pure, bind_assoc, ok_bind]
  rw [hrun, bind_eq_ok_iff]
  simp only [Except.ok.injEq, eq_comm]

/-! ## What has been collected -/

theorem instances_foldl_join (m : Materialization) (shares : List Share) :
    (shares.foldl join m).instances = m.instances ++ shares.flatMap (·.instances) := by
  induction shares generalizing m with
  | nil => simp
  | cons x shares ih => rw [List.foldl_cons, ih, join, List.flatMap_cons, List.append_assoc]

theorem truncatedSeries_foldl_join (m : Materialization) (shares : List Share) :
    (shares.foldl join m).truncatedSeries =
      m.truncatedSeries ++ (shares.filter (·.truncated)).map (·.seriesId) := by
  induction shares generalizing m with
  | nil => simp
  | cons x shares ih =>
    rw [List.foldl_cons, ih, join, List.filter_cons]
    cases x.truncated <;> simp

/-- The shares with modifications that found no occurrence. -/
def leftOver (shares : List Share) : List Share := shares.filter (!·.unmatched.isEmpty)

theorem filter_leftOver (P : Share → Bool) (shares : List Share) :
    (leftOver shares).filter P = leftOver (shares.filter P) :=
  List.filter_comm ..

theorem unmatched_foldl_join (m : Materialization) (shares : List Share) :
    (shares.foldl join m).unmatched =
      (leftOver shares).foldl (fun u x => u.put x.seriesId x.unmatched) m.unmatched := by
  induction shares generalizing m with
  | nil => rfl
  | cons x shares ih =>
    rw [List.foldl_cons, ih, join, leftOver, leftOver, List.filter_cons]
    cases x.unmatched.isEmpty <;> rfl

/-- Lists that are put under keys of their own all stay. -/
theorem entries_foldl_put {u : OrderedMap String (List Modification)} {shares : List Share}
    (hdistinct : (shares.map (·.seriesId)).Nodup) (hnew : ∀ x ∈ shares, x.seriesId ∉ u.keys) :
    (shares.foldl (fun u x => u.put x.seriesId x.unmatched) u).entries =
      u.entries ++ shares.map fun x => (x.seriesId, x.unmatched) := by
  induction shares generalizing u with
  | nil => simp
  | cons x shares ih =>
    -- the keys that are taken stay apart from those that are still to come
    obtain ⟨hfirst, hdistinct⟩ := List.nodup_cons.mp hdistinct
    have hx := hnew x List.mem_cons_self
    rw [List.foldl_cons, ih hdistinct, OrderedMap.entries_put_of_not_mem hx, List.append_assoc]
    · rfl
    · intro y hy hmem
      rw [OrderedMap.keys_put, if_neg hx, List.mem_append, List.mem_singleton] at hmem
      rcases hmem with hmem | hmem
      · exact hnew y (List.mem_cons_of_mem _ hy) hmem
      · exact hfirst (List.mem_map.mpr ⟨y, hy, hmem⟩)

/-- Of several lists that are put under one key the last one stays. -/
theorem find?_foldl_put (u : OrderedMap String (List Modification)) (shares : List Share)
    (id : String) :
    (shares.foldl (fun u x => u.put x.seriesId x.unmatched) u).find? id =
      ((shares.filter (·.seriesId = id)).getLast?.map (·.unmatched)).or (u.find? id) := by
  induction shares generalizing u with
  | nil => rfl
  | cons x shares ih =>
    rw [List.foldl_cons, ih, OrderedMap.find?_put, List.filter_cons]
    by_cases hid : x.seriesId = id
    · simp only [hid, decide_true, if_true, List.getLast?_cons, Option.map_some, Option.some_or]
      cases (shares.filter (·.seriesId = id)).getLast? <;> rfl
    · simp only [hid, decide_false, Bool.false_eq_true, if_false, Ne.symm hid]

theorem find?_unmatched (shares : List Share) (id : String) :
    (shares.foldl join empty).unmatched.find? id =
      ((leftOver shares).filter (·.seriesId = id)).getLast?.map (·.unmatched) := by
  rw [unmatched_foldl_join, find?_foldl_put]
  exact Option.or_none

end Materialization

end EventCalendar
