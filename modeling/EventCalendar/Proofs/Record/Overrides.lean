/-
  EventCalendar.Proofs.Record.Overrides

  A document gives a series and what changes single occurrences of it under one
  identifier.  Only the series has a rule.  An import keeps one event for the
  identifier, and which one is decided by the texts of the starts: it is that of
  the series only if none of the others has a start text that comes before.
-/

import EventCalendar.Proofs.Record.Accounts

namespace EventCalendar

open EventCalendar.Ics

namespace Importer

variable {i : Importer} {r : Import} {components : List Component} {uid : String}
  {event : ImportedEvent} {c : Component} {p : Nat}

/-! ## What is kept -/

/-- An import has the events of the candidates that lead. -/
theorem mem_events_iff (hstrict : i.strict = false)
    (h : (i.ofComponents components).outcome = .ok r) :
    event ∈ r.events ↔
      ∃ e : Candidate, e.Leads (candidates components) ∧
        e.outcome i.interpreter = .ok event := by
  have hevents : r.events = (tried [] (candidates components)).filterMap
      (·.event? i.interpreter) := (settles_of_ofComponents hstrict h).events
  simp only [hevents, List.mem_filterMap, mem_tried_iff (pairwise_candidates components),
    List.not_mem_nil, not_false_eq_true, true_and, Candidate.event?_eq_some_iff]

/-- The event that an import keeps for an identifier is that of the candidate that leads. -/
theorem filter_events_eq_singleton_iff (hstrict : i.strict = false)
    (h : (i.ofComponents components).outcome = .ok r) (huid : event.uid = uid) :
    r.events.filter (·.uid = uid) = [event] ↔
      ∃ e : Candidate, e.Leads (candidates components) ∧
        e.outcome i.interpreter = .ok event := by
  rw [← mem_events_iff hstrict h]
  constructor
  · intro hfilter
    have hmem : event ∈ r.events.filter (·.uid = uid) := by
      rw [hfilter]
      exact List.mem_cons_self
    exact List.mem_of_mem_filter hmem
  · intro hmem
    have hdistinct := (List.nodup_append.mp (nodup_uids_of_ofComponents hstrict h)).1
    rw [← huid]
    exact filter_key_of_mem hdistinct hmem

/-! ## A series and its changes -/

/-- Where no other component with an identifier has a rule, an import keeps the event of a component
    for that identifier if and only if the component leads those with it, or the one that leads them
    gives the same event.  This can only be where the event does not recur, or where that one has
    no identifier of its own and was given this one. -/
theorem ofComponents_keeps_rule_iff (hstrict : i.strict = false)
    (h : (i.ofComponents components).outcome = .ok r) (hplace : components[p]? = some c)
    (honly : ∀ q c', components[q]? = some c' → c'.text? "UID" = some uid →
      c'.named "RRULE" ≠ [] → q = p)
    (hevent : (ImportedEvent.ofComponent i.interpreter uid c).outcome = .ok event) :
    r.events.filter (·.uid = uid) = [event] ↔
      Candidate.Leads ⟨uid, c, p⟩ (candidates components) ∨
      ∃ e : Candidate, e.Leads (candidates components) ∧ e.uid = uid ∧
        e.outcome i.interpreter = .ok event ∧
        (event.dates.isRecurrent = true → e.component.text? "UID" ≠ some uid) := by
  have huid := ImportedEvent.uid_of_ofComponent hevent
  rw [filter_events_eq_singleton_iff hstrict h huid]
  constructor
  · rintro ⟨e, hleads, he⟩
    have hsame : e.uid = uid := (ImportedEvent.uid_of_ofComponent he).symm.trans huid
    by_cases hown : event.dates.isRecurrent = true ∧ e.component.text? "UID" = some uid
    · refine .inl ?_
      obtain ⟨hrecurs, htext⟩ := hown
      -- an event that recurs has a rule, so that it is the one of the component
      have hrule : e.component.named "RRULE" ≠ [] := by
        intro hnone
        rw [ImportedEvent.isRecurrent_of_ofComponent hnone he] at hrecurs
        cases hrecurs
      have hat := getElem?_of_mem_candidates hleads.1
      have heq : e.place = p := honly e.place e.component hat htext hrule
      rw [heq, hplace, Option.some.injEq] at hat
      obtain ⟨euid, component, place⟩ := e
      simp only at hsame heq hat
      rw [← hsame, hat, ← heq]
      exact hleads
    · exact .inr ⟨e, hleads, hsame, he, fun hrecurs htext => hown ⟨hrecurs, htext⟩⟩
  · rintro (hleads | ⟨e, hleads, -, he, -⟩)
    · exact ⟨_, hleads, hevent⟩
    · exact ⟨e, hleads, he⟩

/-- An hour of every Monday from the eighth of January 2024 on. -/
def mondays : Component :=
  .mk eventName
    [⟨"UID", [], "mondays"⟩, ⟨"DTSTART", [], "20240108T090000Z"⟩,
      ⟨"DTEND", [], "20240108T100000Z"⟩, ⟨"RRULE", [], "FREQ=WEEKLY"⟩]
    []

/-- The first of these Mondays, moved to other hours. -/
def firstMonday (start finish : String) : Component :=
  .mk eventName
    [⟨"UID", [], "mondays"⟩, ⟨"RECURRENCE-ID", [], "20240108T090000Z"⟩,
      ⟨"DTSTART", [], "20240108T" ++ start ++ "Z"⟩, ⟨"DTEND", [], "20240108T" ++ finish ++ "Z"⟩]
    []

theorem exists_event_of_mondays : ∃ event,
    (ImportedEvent.ofComponent lenient.interpreter "mondays" mondays).outcome = .ok event ∧
      event.dates.isRecurrent = true := by
  have hrecurs : (ImportedEvent.ofComponent lenient.interpreter "mondays" mondays).outcome.map
      (·.dates.isRecurrent) = .ok true := by decide +kernel
  exact map_eq_ok_iff.mp hrecurs

/-- The series is kept if the Monday is moved to a later hour. -/
theorem ofComponents_mondays_later :
    lenient.strict = false ∧ ∃ r event,
      (lenient.ofComponents [mondays, firstMonday "110000" "120000"]).outcome = .ok r ∧
      (ImportedEvent.ofComponent lenient.interpreter "mondays" mondays).outcome = .ok event ∧
      r.events.filter (·.uid = "mondays") = [event] := by
  have hbefore : mondays.startText < (firstMonday "110000" "120000").startText := by
    decide +kernel
  have horder : importOrder [mondays, firstMonday "110000" "120000"] =
      [mondays, firstMonday "110000" "120000"] := by
    simp [importOrder, List.mergeSort, String.not_lt.mp (String.lt_asymm hbefore)]
  have hends : ∃ r, (lenient.ofComponents
      [mondays, firstMonday "110000" "120000"]).outcome = .ok r ∧ r.total = 2 := by
    refine map_eq_ok_iff.mp ?_
    rw [outcome_ofComponents, identified, horder]
    decide +kernel
  obtain ⟨r, hr, -⟩ := hends
  obtain ⟨event, hevent, -⟩ := exists_event_of_mondays
  refine ⟨rfl, r, event, hr, hevent, ?_⟩
  refine (ofComponents_keeps_rule_iff (p := 0) rfl hr rfl ?_ hevent).mpr (.inl ?_)
  · intro q c' hq _ hrule
    rcases q with - | - | q
    · rfl
    · cases hq
      exact absurd rfl hrule
    · cases hq
  · refine ⟨mem_candidates_of_getElem? rfl rfl (by decide), fun e he huid => ?_⟩
    have hat := getElem?_of_mem_candidates he
    obtain ⟨euid, component, place⟩ := e
    rcases place with - | - | place
    · cases hat
      cases huid
      exact .inl rfl
    · cases hat
      exact .inr (.inl hbefore)
    · cases hat

/-- The series is lost if the Monday is moved to an earlier hour, although both components can be
    imported. -/
theorem ofComponents_mondays_earlier :
    lenient.strict = false ∧
    (∀ c ∈ [mondays, firstMonday "070000" "080000"], c.text? "UID" = some "mondays" ∧
      ∃ event, (ImportedEvent.ofComponent lenient.interpreter "mondays" c).outcome = .ok event) ∧
    mondays.named "RRULE" ≠ [] ∧ (firstMonday "070000" "080000").named "RRULE" = [] ∧
    ∃ r, (lenient.ofComponents [mondays, firstMonday "070000" "080000"]).outcome = .ok r ∧
      ¬ ∃ event,
        (ImportedEvent.ofComponent lenient.interpreter "mondays" mondays).outcome = .ok event ∧
        r.events.filter (·.uid = "mondays") = [event] := by
  have horder : importOrder [mondays, firstMonday "070000" "080000"] =
      [firstMonday "070000" "080000", mondays] := by
    have hafter : ¬ mondays.startText ≤ (firstMonday "070000" "080000").startText := by
      decide +kernel
    simp [importOrder, List.mergeSort, hafter]
  have hends : ∃ r, (lenient.ofComponents
      [mondays, firstMonday "070000" "080000"]).outcome = .ok r ∧
        r.events.map (·.dates.isRecurrent) = [false] := by
    refine map_eq_ok_iff.mp ?_
    rw [outcome_ofComponents, identified, horder]
    decide +kernel
  have hmoved : ∃ event, (ImportedEvent.ofComponent lenient.interpreter "mondays"
      (firstMonday "070000" "080000")).outcome = .ok event ∧ event.dates.isRecurrent = false := by
    refine map_eq_ok_iff.mp ?_
    decide +kernel
  obtain ⟨r, hr, honce⟩ := hends
  obtain ⟨event, hevent, hrecurs⟩ := exists_event_of_mondays
  obtain ⟨moved, hmoved, -⟩ := hmoved
  refine ⟨rfl, ?_, by decide, rfl, r, hr, ?_⟩
  · rw [List.forall_mem_cons, List.forall_mem_singleton]
    exact ⟨⟨rfl, event, hevent⟩, rfl, moved, hmoved⟩
  · rintro ⟨event', hevent', hfilter⟩
    cases hevent.symm.trans hevent'
    have hmem : event ∈ r.events.filter (·.uid = "mondays") := by
      rw [hfilter]
      exact List.mem_cons_self
    -- the only event of the import does not recur
    have hfalse := List.mem_map_of_mem (f := (·.dates.isRecurrent)) (List.mem_of_mem_filter hmem)
    rw [honce, List.mem_singleton, hrecurs] at hfalse
    cases hfalse

end Importer

end EventCalendar
