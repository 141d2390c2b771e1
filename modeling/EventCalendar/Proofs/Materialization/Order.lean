/-
  EventCalendar.Proofs.Materialization.Order

  Events of several series in one order.  On clocks that are never put forward
  or back the events are ordered by instants and names, so that the order of the
  requests makes no difference, and the events of each series stand as they do
  when it is shown alone.
-/

import EventCalendar.Proofs.Expansion.Zones
import EventCalendar.Proofs.Materialization.Shares
import EventCalendar.Proofs.Materialization.Sorting
import EventCalendar.Proofs.Time.FixedClocks
import Mathlib.Data.List.Perm.Basic

namespace EventCalendar

open EventCalendar.Time

/-! ## The order of events -/

namespace EventInstance

variable {a b : EventInstance} {events : List EventInstance}

/-- An event starts at an earlier instant than another one, or at the same instant with a name that
    does not come after that of the other one. -/
def notAfter (a b : EventInstance) : Bool :=
  decide (a.start.instant < b.start.instant ∨
    a.start.instant = b.start.instant ∧ a.seriesId ≤ b.seriesId)

theorem isPreorder_notAfter : IsPreorder notAfter where
  trans a b c hab hbc := by
    simp only [notAfter, decide_eq_true_eq] at hab hbc ⊢
    rcases hab with hab | ⟨hab, hname⟩ <;> rcases hbc with hbc | ⟨hbc, hname'⟩
    · exact .inl (by omega)
    · exact .inl (by omega)
    · exact .inl (by omega)
    · exact .inr ⟨hab.trans hbc, String.le_trans hname hname'⟩
  total a b := by
    simp only [notAfter, Bool.or_eq_true, decide_eq_true_eq]
    rcases Int.lt_trichotomy a.start.instant b.start.instant with hlt | heq | hlt
    · exact .inl (.inl hlt)
    · rcases String.le_total a.seriesId b.seriesId with hname | hname
      · exact .inl (.inr ⟨heq, hname⟩)
      · exact .inr (.inr ⟨heq.symm, hname⟩)
    · exact .inr (.inl hlt)

theorem seriesId_eq_of_tied (h : tied notAfter a b = true) : a.seriesId = b.seriesId := by
  obtain ⟨hab, hba⟩ := Bool.and_eq_true_iff.mp h
  simp only [notAfter, decide_eq_true_eq] at hab hba
  rcases hab with hab | ⟨heq, hab⟩ <;> rcases hba with hba | ⟨heq', hba⟩
  · omega
  · omega
  · omega
  · exact String.le_antisymm hab hba

theorem not_before_of_isFixed (ha : a.start.zone.isFixed = true)
    (hb : b.start.zone.isFixed = true) : (!b.before a) = notAfter a b := by
  rw [EventInstance.before, Moment.same_of_isFixed hb ha, Moment.before_of_isFixed hb, notAfter]
  by_cases hinstant : b.start.instant = a.start.instant
  · simp only [hinstant, decide_true, if_true, Int.lt_irrefl, true_and, false_or]
    rw [← decide_not, decide_eq_decide, String.not_lt]
  · have hne : a.start.instant ≠ b.start.instant := Ne.symm hinstant
    simp only [hinstant, hne, decide_false, Bool.false_eq_true, if_false, false_and, or_false]
    rw [← decide_not, decide_eq_decide]
    omega

theorem sorted_of_isFixed (h : ∀ i ∈ events, i.start.zone.isFixed = true) :
    sorted events = events.mergeSort notAfter :=
  RunSort.sort_eq_mergeSort isPreorder_notAfter asymmetric_before fun a ha b hb =>
    not_before_of_isFixed (h a ha) (h b hb)

end EventInstance

/-! ## The events of one request -/

/-- The events of a request start on clocks that are never put forward or back. -/
structure SeriesRequest.OnFixedClocks (r : SeriesRequest) : Prop where
  anchor : r.series.anchorStart.zone.isFixed = true
  moved : ∀ entry ∈ r.modifications.entries, ∀ start ∈ entry.2.start, start.zone.isFixed = true

theorem SeriesRequest.isFixed_of_mem_instances {r : SeriesRequest} {w : Window} {cap : Int}
    {x : Share} (hr : r.OnFixedClocks) (h : r.share w cap = .ok x) :
    ∀ i ∈ x.instances, i.start.zone.isFixed = true := by
  obtain ⟨expansion, overlay, instances, hexpansion, hoverlay, hinstances, rfl⟩ :=
    share_eq_ok_iff.mp h
  obtain ⟨p, hp, rfl⟩ := Overlay.apply_eq_ok_iff.mp hoverlay
  intro i hi
  obtain ⟨o, ho, hevent⟩ := (mem_of_mapM_eq_ok hinstances).mp hi
  rw [(EventInstance.of_ofOccurrence hevent).2]
  rcases Overlay.start_of_mem_kept hp o ho with ⟨raw, hraw, hstart⟩ | ⟨entry, hentry, hstart⟩
  · rw [hstart, Series.zone_of_expand hexpansion raw hraw]
    exact hr.anchor
  · exact hr.moved entry (OrderedMap.mem_entries_of_mem_ofList hentry) o.start hstart

/-! ## Requests in any order -/

namespace Materialization

variable {w : Window} {cap : Int} {m : Materialization} {requests requests' : List SeriesRequest}
  {shares shares' : List Share} {x : Share}

theorem filter_seriesId_flatMap (howns : ∀ x ∈ shares, ∀ i ∈ x.instances, i.seriesId = x.seriesId)
    (id : String) : (shares.flatMap (·.instances)).filter (·.seriesId = id) =
      (shares.filter (·.seriesId = id)).flatMap (·.instances) := by
  induction shares with
  | nil => rfl
  | cons x shares ih =>
    have hx := howns x List.mem_cons_self
    rw [List.flatMap_cons, List.filter_append, List.filter_cons,
      ih fun y hy => howns y (List.mem_cons_of_mem _ hy)]
    by_cases hid : x.seriesId = id
    · rw [if_pos (decide_eq_true hid), List.flatMap_cons, List.filter_eq_self.mpr]
      intro i hi
      exact decide_eq_true ((hx i hi).trans hid)
    · rw [if_neg (by simpa using hid), List.filter_eq_nil_iff.mpr, List.nil_append]
      intro i hi
      simpa [hx i hi] using hid

theorem filter_seriesId_of_mem (hdistinct : (shares.map (·.seriesId)).Nodup) (hx : x ∈ shares) :
    shares.filter (·.seriesId = x.seriesId) = [x] :=
  filter_key_of_mem hdistinct hx

/-- Each name has the same share in any order. -/
theorem filter_seriesId_of_perm (hdistinct : (shares.map (·.seriesId)).Nodup)
    (hperm : shares.Perm shares') (id : String) :
    shares'.filter (·.seriesId = id) = shares.filter (·.seriesId = id) := by
  have hfiltered := (hperm.filter (·.seriesId = id)).symm
  have hone := nodup_seriesId_iff.mp hdistinct id
  cases hshares : shares.filter (·.seriesId = id) with
  | nil =>
    rw [hshares] at hfiltered
    exact List.perm_nil.mp hfiltered
  | cons x others =>
    rw [hshares] at hfiltered hone
    cases others with
    | nil => exact List.perm_singleton.mp hfiltered
    | cons => simp at hone

/-- Events that tie belong to one share, so that sorting does not see the order of the shares. -/
theorem mergeSort_flatMap_of_perm (hdistinct : (shares.map (·.seriesId)).Nodup)
    (howns : ∀ x ∈ shares, ∀ i ∈ x.instances, i.seriesId = x.seriesId)
    (hperm : shares.Perm shares') :
    (shares'.flatMap (·.instances)).mergeSort EventInstance.notAfter =
      (shares.flatMap (·.instances)).mergeSort EventInstance.notAfter := by
  apply mergeSort_eq_of_filter_tied_eq EventInstance.isPreorder_notAfter
  intro a
  have hnames (events : List EventInstance) : events.filter (tied EventInstance.notAfter a) =
      (events.filter (·.seriesId = a.seriesId)).filter (tied EventInstance.notAfter a) := by
    rw [List.filter_filter]
    apply List.filter_congr
    intro b _
    cases htied : tied EventInstance.notAfter a b with
    | false => rfl
    | true => simp [EventInstance.seriesId_eq_of_tied htied]
  rw [hnames, hnames (shares.flatMap (·.instances)), filter_seriesId_flatMap howns,
    filter_seriesId_flatMap fun x hx => howns x (hperm.mem_iff.mpr hx),
    filter_seriesId_of_perm hdistinct hperm]

/-- What has been collected from shares, with the events in order. -/
def collected (shares : List Share) : Materialization :=
  { shares.foldl join empty with
    instances := (shares.flatMap (·.instances)).mergeSort EventInstance.notAfter }

theorem collected_of_perm (hdistinct : (shares.map (·.seriesId)).Nodup)
    (howns : ∀ x ∈ shares, ∀ i ∈ x.instances, i.seriesId = x.seriesId)
    (hperm : shares.Perm shares') :
    (collected shares').instances = (collected shares).instances ∧
    (∀ id, (collected shares').unmatched.find? id = (collected shares).unmatched.find? id) ∧
    (collected shares').truncatedSeries.Perm (collected shares).truncatedSeries := by
  refine ⟨mergeSort_flatMap_of_perm hdistinct howns hperm, fun id => ?_, ?_⟩
  · simp only [collected, find?_unmatched, filter_leftOver,
      filter_seriesId_of_perm hdistinct hperm]
  · simp only [collected, truncatedSeries_foldl_join]
    exact .append_left _ ((hperm.symm.filter _).map _)

/-- The events of one name are those that its share has alone. -/
theorem filter_seriesId_collected (hdistinct : (shares.map (·.seriesId)).Nodup)
    (howns : ∀ x ∈ shares, ∀ i ∈ x.instances, i.seriesId = x.seriesId) (hx : x ∈ shares) :
    (collected shares).instances.filter (·.seriesId = x.seriesId) = (collected [x]).instances := by
  rw [collected, filter_mergeSort EventInstance.isPreorder_notAfter,
    filter_seriesId_flatMap howns, filter_seriesId_of_mem hdistinct hx, collected]

theorem instances_collected_perm (shares : List Share) :
    (collected shares).instances.Perm
      ((shares.map fun x => collected [x]).flatMap (·.instances)) := by
  rw [collected, List.flatMap_map]
  refine (List.mergeSort_perm _ _).trans (List.Perm.flatMap_left _ fun x _ => ?_)
  rw [collected, List.flatMap_singleton]
  exact (List.mergeSort_perm _ _).symm

theorem pairwise_collected (shares : List Share) :
    (collected shares).instances.Pairwise fun a b => a.start.instant < b.start.instant ∨
      a.start.instant = b.start.instant ∧ a.seriesId ≤ b.seriesId :=
  (List.pairwise_mergeSort EventInstance.isPreorder_notAfter.trans
    EventInstance.isPreorder_notAfter.total _).imp of_decide_eq_true

theorem ofRequests_eq_collected_iff (hfixed : ∀ r ∈ requests, r.OnFixedClocks) :
    (ofRequests requests w cap).outcome = .ok m ↔
      ∃ shares, requests.mapM (·.share w cap) = .ok shares ∧ m = collected shares := by
  rw [ofRequests_eq_ok_iff]
  refine exists_congr fun shares => and_congr_right fun hshares => ?_
  rw [collected, instances_foldl_join, empty, List.nil_append, EventInstance.sorted_of_isFixed]
  intro i hi
  obtain ⟨x, hx, hi⟩ := List.mem_flatMap.mp hi
  obtain ⟨r, hr, hshare⟩ := (mem_of_mapM_eq_ok hshares).mp hx
  exact SeriesRequest.isFixed_of_mem_instances (hfixed r hr) hshare i hi

/-- On clocks that are never put forward or back, requests for different series show the same in
    any order.  The events are those that the requests show alone, ordered by instants and then by
    names, and the events of each series keep the order that they have alone. -/
theorem ofRequests_order_independent (hdistinct : (requests.map (·.series.seriesId)).Nodup)
    (hfixed : ∀ r ∈ requests, r.OnFixedClocks) (h : (ofRequests requests w cap).outcome = .ok m) :
    (∀ requests', requests.Perm requests' → ∃ m', (ofRequests requests' w cap).outcome = .ok m' ∧
      m'.instances = m.instances ∧ (∀ id, m'.unmatched.find? id = m.unmatched.find? id) ∧
      m'.truncatedSeries.Perm m.truncatedSeries) ∧
    (∃ alone, List.Forall₂ (fun r part => (ofRequests [r] w cap).outcome = .ok part ∧
        m.instances.filter (·.seriesId = r.series.seriesId) = part.instances) requests alone ∧
      m.instances.Perm (alone.flatMap (·.instances))) ∧
    m.instances.Pairwise fun a b => a.start.instant < b.start.instant ∨
      a.start.instant = b.start.instant ∧ a.seriesId ≤ b.seriesId := by
  obtain ⟨shares, hshares, rfl⟩ := (ofRequests_eq_collected_iff hfixed).mp h
  rw [← map_seriesId_of_mapM_share hshares] at hdistinct
  have howns : ∀ x ∈ shares, ∀ i ∈ x.instances, i.seriesId = x.seriesId := fun x hx =>
    have ⟨_, _, hshare⟩ := (mem_of_mapM_eq_ok hshares).mp hx
    SeriesRequest.seriesId_of_mem_instances hshare
  refine ⟨fun requests' hperm => ?_, ⟨shares.map fun x => collected [x], ?_,
    instances_collected_perm shares⟩, pairwise_collected shares⟩
  · -- in another order the requests have the same shares
    obtain ⟨shares', hshares', hperm'⟩ := exists_mapM_eq_ok_of_perm hperm hshares
    have hfixed' : ∀ r ∈ requests', r.OnFixedClocks := fun r hr =>
      hfixed r (hperm.mem_iff.mpr hr)
    exact ⟨collected shares', (ofRequests_eq_collected_iff hfixed').mpr ⟨shares', hshares', rfl⟩,
      collected_of_perm hdistinct howns hperm'⟩
  · -- each share is all that its request shows alone
    rw [List.forall₂_map_right_iff]
    have hrun : List.Forall₂ (fun r x => x ∈ shares ∧ r ∈ requests ∧ r.share w cap = .ok x)
        requests shares :=
      .flip <| (List.forall₂_and_left ..).mpr ⟨fun _ hx => hx, .flip <|
        (List.forall₂_and_left ..).mpr ⟨fun _ hr => hr, mapM_eq_ok_iff_forall₂.mp hshares⟩⟩
    refine hrun.imp fun r x ⟨hx, hr, hshare⟩ => ⟨?_, ?_⟩
    · have hfixed' : ∀ r' ∈ [r], r'.OnFixedClocks := fun r' hr' =>
        List.mem_singleton.mp hr' ▸ hfixed r hr
      exact (ofRequests_eq_collected_iff hfixed').mpr
        ⟨[x], mapM_singleton_eq_ok_iff.mpr ⟨x, hshare, rfl⟩, rfl⟩
    · rw [← SeriesRequest.seriesId_of_share hshare]
      exact filter_seriesId_collected hdistinct howns hx

/-- The Mondays as a clock shows them that is two hours ahead. -/
def mondaysAhead : Series where
  seriesId := "mondays ahead"
  title := none
  description := none
  anchorStart := { Moment.inJanuary 1 11 with zone := .fixed 120 }
  anchorEnd := some { Moment.inJanuary 1 12 with zone := .fixed 120 }
  allDay := false
  kind := .weekly
  weekdays := .empty
  firstInstance := none
  lastInstance := none
  zones := by decide
  ends := by decide
  bounds := by decide
  listed := by decide

/-- The first Monday moves to the second one, where the other clock has an event as well. -/
def mondayPutOff : Modifications :=
  .listed [⟨.inJanuary 1 9, some (.inJanuary 8 9), none, none, none⟩]

/-- With three of the four events at one instant, it makes no difference which request is first. -/
theorem ofRequests_mondays_order_independent :
    let here : SeriesRequest := ⟨mondays, [], mondayPutOff⟩
    let ahead : SeriesRequest := ⟨mondaysAhead, [], .none⟩
    let w := fortnight 738885 (by decide)
    ∃ m m', (ofRequests [here, ahead] w 10).outcome = .ok m ∧ m.instances.length = 4 ∧
      (ofRequests [ahead, here] w 10).outcome = .ok m' ∧ m'.instances = m.instances ∧
      (∀ id, m'.unmatched.find? id = m.unmatched.find? id) ∧
      m'.truncatedSeries.Perm m.truncatedSeries ∧
      m.instances.Pairwise fun a b => a.start.instant < b.start.instant ∨
        a.start.instant = b.start.instant ∧ a.seriesId ≤ b.seriesId := by
  intro here ahead w
  have hfixed : ∀ r ∈ [here, ahead], r.OnFixedClocks := by
    rw [List.forall_mem_cons, List.forall_mem_singleton]
    exact ⟨⟨rfl, by decide⟩, ⟨rfl, by decide⟩⟩
  have hruns : ([here, ahead].mapM (SeriesRequest.share · w 10)).map
      (fun shares => (shares.flatMap (·.instances)).length) = .ok 4 := by decide +kernel
  obtain ⟨shares, hshares, hlength⟩ := map_eq_ok_iff.mp hruns
  have h := (ofRequests_eq_collected_iff hfixed).mpr ⟨shares, hshares, rfl⟩
  obtain ⟨hperm, -, hordered⟩ := ofRequests_order_independent (by decide) hfixed h
  obtain ⟨m', hm', hinstances, hunmatched, htruncated⟩ := hperm [ahead, here] (.swap ..)
  exact ⟨_, m', h, (List.length_mergeSort _).trans hlength, hm', hinstances, hunmatched,
    htruncated, hordered⟩

end Materialization

end EventCalendar
