/-
  EventCalendar.Proofs.Record.Accounts

  What an import makes of a document, if it lets records pass that cannot be
  read.  Of the components with one identifier it tries the one that leads them.
  Each of those that it tries gives an event or an error, in their order, and
  all others are duplicates.
-/

import EventCalendar.Proofs.OrderedMap
import EventCalendar.Proofs.Record.Candidates

namespace EventCalendar

open EventCalendar.Ics

/-! ## Outcomes -/

namespace ImportedEvent

variable {i : Interpreter} {uid : String} {c : Component} {event : ImportedEvent}

theorem uid_of_ofComponent (h : (ofComponent i uid c).outcome = .ok event) : event.uid = uid := by
  rw [outcome_ofComponent] at h
  obtain ⟨dates, -, h⟩ := bind_eq_ok_iff.mp h
  obtain ⟨series, -, h⟩ := bind_eq_ok_iff.mp h
  cases h
  rfl

/-- Only a rule makes an event recur. -/
theorem isRecurrent_of_ofComponent (hrule : c.named "RRULE" = [])
    (h : (ofComponent i uid c).outcome = .ok event) : event.dates.isRecurrent = false := by
  rw [outcome_ofComponent, Interpreter.outcome_interpret] at h
  obtain ⟨dates, hdates, h⟩ := bind_eq_ok_iff.mp h
  obtain ⟨series, -, h⟩ := bind_eq_ok_iff.mp h
  cases h
  cases hread : i.readings (.ofComponent c) with
  | error cause =>
    rw [hread] at hdates
    cases hdates
  | ok x =>
    have hnone : x.recurrence = none := by
      rw [Interpreter.recurrence_of_readings hread, RawRecord.ofComponent, hrule]
      rfl
    rw [hread, mapError_ok, ok_bind, Interpreter.dates, hnone] at hdates
    cases hlast : x.last with
    | error cause =>
      rw [hlast] at hdates
      cases hdates
    | ok last =>
      rw [hlast] at hdates
      cases hdates
      rfl

end ImportedEvent

namespace Candidate

variable {i : Interpreter} {e : Candidate} {event : ImportedEvent} {uid : String}
  {cause : RecordError}

/-- What comes of a candidate. -/
def outcome (i : Interpreter) (e : Candidate) : Except EventError ImportedEvent :=
  (ImportedEvent.ofComponent i e.uid e.component).outcome

/-- The event of a candidate. -/
def event? (i : Interpreter) (e : Candidate) : Option ImportedEvent := (e.outcome i).toOption

/-- The error of a candidate that is reported, under its identifier. -/
def error? (i : Interpreter) (e : Candidate) : Option (String × RecordError) :=
  match e.outcome i with
  | .error (.interpretation (.record cause)) => some (e.uid, cause)
  | _ => none

theorem event?_eq_some_iff : e.event? i = some event ↔ e.outcome i = .ok event := by
  unfold event?
  cases e.outcome i <;> simp [Except.toOption]

theorem error?_eq_some_iff : e.error? i = some (uid, cause) ↔
    uid = e.uid ∧ e.outcome i = .error (.interpretation (.record cause)) := by
  unfold error?
  split
  · rename_i cause' h
    rw [h]
    simp [eq_comm]
  · rename_i h
    simp only [reduceCtorEq, false_iff, not_and]
    intro _ hcause
    exact h cause hcause

theorem uid_of_event? (h : e.event? i = some event) : event.uid = e.uid :=
  ImportedEvent.uid_of_ofComponent (event?_eq_some_iff.mp h)

end Candidate

/-! ## Accounts -/

/-- An import goes on to try some candidates and to pass over others. -/
structure Import.Settles (r r' : Import) (i : Interpreter) (fresh again : List Candidate) :
    Prop where
  events : r'.events = r.events ++ fresh.filterMap (·.event? i)
  errors : r'.errors.entries = r.errors.entries ++ fresh.filterMap (·.error? i)
  duplicates : r'.duplicates = r.duplicates ++ again.map (·.uid)
  total : r'.total = r.total
  either : ∀ e ∈ fresh, (e.error? i).isSome = !(e.event? i).isSome

/-- An import takes each component of a document once: as an event, as an error or as a duplicate.
    It tries those that lead the components with one identifier, in their order. -/
structure Import.TakesOnce (r : Import) (i : Interpreter) (components : List Component) :
    Prop where
  components_once :
    ((candidates components).map fun e => (e.component, e.place)).Perm components.zipIdx
  total : r.total = components.length
  total_eq : r.events.length + r.duplicates.length + r.errors.entries.length = r.total
  events_distinct : (r.events.map (·.uid)).Nodup
  events_not_errors : ∀ event ∈ r.events, event.uid ∉ r.errors.keys
  duplicates : ∀ uid ∈ r.duplicates, uid ∈ r.events.map (·.uid) ∨ uid ∈ r.errors.keys
  /-- Each identifier has the event or the error of the candidate that leads. -/
  leaders : ∃ leaders : List Candidate,
    leaders.Pairwise Candidate.Precedes ∧
    (∀ e, e ∈ leaders ↔ e.Leads (candidates components)) ∧
    (∀ e ∈ candidates components, ∃ leader ∈ leaders, leader.uid = e.uid) ∧
    (∀ e ∈ leaders, (e.error? i).isSome = !(e.event? i).isSome) ∧
    r.events = leaders.filterMap (·.event? i) ∧ r.errors.entries = leaders.filterMap (·.error? i)

namespace Import.Settles

variable {r r' r'' : Import} {i : Interpreter} {fresh fresh' again again' : List Candidate}

theorem refl (r : Import) (i : Interpreter) : r.Settles r i [] [] :=
  ⟨by simp, by simp, by simp, rfl, by simp⟩

theorem trans (h : r.Settles r' i fresh again) (h' : r'.Settles r'' i fresh' again') :
    r.Settles r'' i (fresh ++ fresh') (again ++ again') where
  events := by rw [h'.events, h.events, List.filterMap_append, List.append_assoc]
  errors := by rw [h'.errors, h.errors, List.filterMap_append, List.append_assoc]
  duplicates := by rw [h'.duplicates, h.duplicates, List.map_append, List.append_assoc]
  total := h'.total.trans h.total
  either e he := (List.mem_append.mp he).elim (h.either e) (h'.either e)

/-- A duplicate. -/
theorem duplicate (r : Import) (i : Interpreter) (e : Candidate) :
    r.Settles { r with duplicates := r.duplicates ++ [e.uid] } i [] [e] :=
  ⟨by simp, by simp, rfl, rfl, by simp⟩

/-- An import from the start keeps one event or one error for each candidate that it tries, under
    the identifier of that candidate. -/
theorem uids_perm {total : Nat} (h : (Import.empty total).Settles r i fresh again) :
    (r.events.map (·.uid) ++ r.errors.keys).Perm (fresh.map (·.uid)) := by
  obtain ⟨hevents, herrors, -, -, heither⟩ := h
  rw [OrderedMap.keys, hevents, herrors]
  simp only [Import.empty, OrderedMap.empty, List.nil_append]
  clear hevents herrors
  -- each candidate puts its identifier in front of one of the two lists
  induction fresh with
  | nil => exact .refl _
  | cons e l ih =>
    have hrest := ih fun e' he' => heither e' (List.mem_cons_of_mem e he')
    have he := heither e List.mem_cons_self
    cases hevent : e.event? i with
    | some event =>
      have herror : e.error? i = none := by simpa [hevent] using he
      rw [List.filterMap_cons_some hevent, List.filterMap_cons_none herror, List.map_cons,
        List.map_cons, Candidate.uid_of_event? hevent]
      exact hrest.cons e.uid
    | none =>
      obtain ⟨⟨uid, cause⟩, herror⟩ : ∃ entry, e.error? i = some entry := by
        simpa [hevent, Option.isSome_iff_exists] using he
      rw [List.filterMap_cons_none hevent, List.filterMap_cons_some herror, List.map_cons,
        List.map_cons, (Candidate.error?_eq_some_iff.mp herror).1]
      exact List.perm_middle.trans (hrest.cons e.uid)

end Import.Settles

/-! ## Runs -/

namespace Importer

variable {i : Importer} {r r' : Import} {seen seen' : List String} {e : Candidate}
  {l : List Candidate} {components : List Component}

/-- A candidate that is tried gives an event, or an error that is reported. -/
theorem settles_of_record (hstrict : i.strict = false) (hnew : e.uid ∉ r.errors.keys)
    (h : (i.record r e.uid (e.outcome i.interpreter)).outcome = .ok r') :
    r.Settles r' i.interpreter [e] [] ∧
      ∀ key ∈ r'.errors.keys, key = e.uid ∨ key ∈ r.errors.keys := by
  unfold record at h
  split at h
  · rename_i event houtcome
    cases h
    refine ⟨⟨?_, ?_, ?_, rfl, ?_⟩, fun key hkey => .inr hkey⟩
    · simp [Candidate.event?, houtcome, Except.toOption]
    · simp [Candidate.error?, houtcome]
    · simp
    · simp [Candidate.event?, Candidate.error?, houtcome, Except.toOption]
  · rename_i cause houtcome
    rw [hstrict] at h
    cases h
    refine ⟨⟨?_, ?_, ?_, rfl, ?_⟩, fun key hkey => ?_⟩
    · simp [Candidate.event?, houtcome, Except.toOption]
    · simp [Candidate.error?, houtcome, OrderedMap.entries_put_of_not_mem hnew]
    · simp
    · simp [Candidate.event?, Candidate.error?, houtcome, Except.toOption]
    · rw [OrderedMap.keys_put, if_neg hnew, List.mem_append, List.mem_singleton] at hkey
      exact hkey.symm
  · cases h

/-- A run that ends tries the candidates whose identifiers are new, and passes over the others. -/
theorem settles_of_foldlM_take (hstrict : i.strict = false)
    (hseen : ∀ key ∈ r.errors.keys, key ∈ seen)
    (h : (l.map fun e => (e.uid, e.component)).foldlM i.take (r, seen) = .ok (r', seen')) :
    r.Settles r' i.interpreter (tried seen l) (passedOver seen l) := by
  -- an identifier with an error was met before, so that no error is ever replaced
  induction l generalizing r seen with
  | nil =>
    cases h
    exact .refl _ i.interpreter
  | cons e l ih =>
    rw [List.map_cons, List.foldlM_cons] at h
    unfold tried passedOver
    by_cases hmem : e.uid ∈ seen
    · rw [take_of_mem hmem, ok_bind] at h
      rw [if_pos hmem, if_pos hmem]
      exact (Import.Settles.duplicate r i.interpreter e).trans
        (ih (r := { r with duplicates := r.duplicates ++ [e.uid] }) hseen h)
    · rw [take_of_not_mem hmem, bind_assoc] at h
      obtain ⟨r₁, hr₁, h⟩ := bind_eq_ok_iff.mp h
      obtain ⟨hsettles, hkeys⟩ :=
        settles_of_record hstrict (fun hkey => hmem (hseen e.uid hkey)) hr₁
      rw [if_neg hmem, if_neg hmem]
      refine hsettles.trans (ih ?_ h)
      intro key hkey
      rcases hkeys key hkey with rfl | hkey
      · exact List.mem_cons_self
      · exact List.mem_cons_of_mem _ (hseen key hkey)

/-- An import that gives a result has tried the candidates that lead, and has passed over the
    others. -/
theorem settles_of_ofComponents (hstrict : i.strict = false)
    (h : (i.ofComponents components).outcome = .ok r) :
    (Import.empty components.length).Settles r i.interpreter
      (tried [] (candidates components)) (passedOver [] (candidates components)) := by
  rw [outcome_ofComponents, ← map_candidates] at h
  obtain ⟨⟨r', seen⟩, hstate, h⟩ := bind_eq_ok_iff.mp h
  cases h
  exact settles_of_foldlM_take hstrict (fun _ hkey => hkey) hstate

/-- No identifier has two events, or an event and an error. -/
theorem nodup_uids_of_ofComponents (hstrict : i.strict = false)
    (h : (i.ofComponents components).outcome = .ok r) :
    (r.events.map (·.uid) ++ r.errors.keys).Nodup :=
  (settles_of_ofComponents hstrict h).uids_perm.nodup_iff.mpr
    (nodup_uid_tried [] (candidates components))

/-- An import that lets unreadable records pass takes each component once. -/
theorem ofComponents_takesOnce (hstrict : i.strict = false)
    (h : (i.ofComponents components).outcome = .ok r) :
    r.TakesOnce i.interpreter components := by
  have hsettles := settles_of_ofComponents hstrict h
  have huids := hsettles.uids_perm
  have hlength : (tried [] (candidates components)).length +
      (passedOver [] (candidates components)).length = components.length := by
    rw [length_tried_add_passedOver, length_candidates]
  obtain ⟨hevents, -, hdisjoint⟩ := List.nodup_append.mp (nodup_uids_of_ofComponents hstrict h)
  -- the identifier of each candidate is that of one that is tried
  have huid (e : Candidate) (he : e ∈ candidates components) :
      e.uid ∈ (tried [] (candidates components)).map (·.uid) :=
    (uid_mem_or_mem_tried [] he).resolve_left List.not_mem_nil
  refine ⟨candidates_perm components, hsettles.total, ?_, hevents, ?_, ?_,
    tried [] (candidates components),
    (pairwise_candidates components).sublist (tried_sublist [] (candidates components)),
    ?_, ?_, hsettles.either, hsettles.events, hsettles.errors⟩
  · have hcount := huids.length_eq
    have hduplicates := congrArg List.length hsettles.duplicates
    simp only [OrderedMap.keys, Import.empty, List.length_append, List.length_map,
      List.length_nil] at hcount hduplicates
    have htotal : r.total = components.length := hsettles.total
    omega
  · intro event hevent hkey
    exact hdisjoint event.uid (List.mem_map_of_mem hevent) event.uid hkey rfl
  · intro uid hmem
    rw [hsettles.duplicates] at hmem
    obtain ⟨e, he, rfl⟩ := List.mem_map.mp hmem
    have htried := huid e ((passedOver_sublist [] (candidates components)).mem he)
    exact List.mem_append.mp (huids.mem_iff.mpr htried)
  · intro e
    rw [mem_tried_iff (pairwise_candidates components)]
    exact and_iff_right List.not_mem_nil
  · intro e he
    exact List.mem_map.mp (huid e he)

/-- An hour of the morning of a day. -/
def standup (day : String) : Component :=
  .mk eventName
    [⟨"UID", [], "standup"⟩, ⟨"DTSTART", [], day ++ "T090000Z"⟩,
      ⟨"DTEND", [], day ++ "T100000Z"⟩]
    []

/-- A component without any property, and two with one identifier, the later one of which comes
    first. -/
def standups : List Component := [standup "20240103", .mk eventName [] [], standup "20240102"]

/-- One of them is an event, one an error and one a duplicate. -/
theorem ofComponents_standups_takesOnce :
    lenient.strict = false ∧
      ∃ r, (lenient.ofComponents standups).outcome = .ok r ∧ r.events.length = 1 ∧
        r.errors.keys = ["no-uid-0"] ∧ r.duplicates = ["standup"] ∧
        r.TakesOnce lenient.interpreter standups := by
  have horder : importOrder standups =
      [.mk eventName [] [], standup "20240102", standup "20240103"] := by
    have h₁ : ¬ (standup "20240103").startText ≤ (Component.mk eventName [] []).startText := by
      decide +kernel
    have h₂ : ¬ (standup "20240103").startText ≤ (standup "20240102").startText := by
      decide +kernel
    have h₃ : (Component.mk eventName [] []).startText ≤ (standup "20240102").startText := by
      decide +kernel
    simp [importOrder, standups, List.mergeSort, h₁, h₂, h₃]
  have hfacts : (lenient.ofComponents standups).outcome.toOption.map
      (fun r => (r.events.length, r.errors.keys, r.duplicates)) =
        some (1, ["no-uid-0"], ["standup"]) := by
    rw [outcome_ofComponents, identified, horder]
    decide +kernel
  cases hr : (lenient.ofComponents standups).outcome with
  | error cause =>
    rw [hr] at hfacts
    cases hfacts
  | ok r =>
    rw [hr] at hfacts
    obtain ⟨hevents, herrors, hduplicates⟩ : r.events.length = 1 ∧ r.errors.keys = ["no-uid-0"] ∧
        r.duplicates = ["standup"] := by
      simpa [Except.toOption] using hfacts
    exact ⟨rfl, r, rfl, hevents, herrors, hduplicates, ofComponents_takesOnce rfl hr⟩

end Importer

end EventCalendar
