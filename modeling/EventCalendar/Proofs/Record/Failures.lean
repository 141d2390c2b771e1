/-
  EventCalendar.Proofs.Record.Failures

  What records that cannot be used do to an import.  An import that lets them
  pass takes them for the records with their identifiers, so that a later record
  with the same identifier counts as a duplicate also if it could be used.
  Where none may pass, the import takes the same steps, up to the first of them.
-/

import EventCalendar.Proofs.Record.Overrides

namespace EventCalendar

open EventCalendar.Ics

/-! ## Leaders -/

namespace Candidate

variable {a b : Candidate} {l : List Candidate}

/-- No two candidates with one identifier lead. -/
theorem Leads.eq (ha : a.Leads l) (hb : b.Leads l) (huid : a.uid = b.uid) : a = b := by
  rcases ha.2 b hb.1 huid.symm with heq | hab
  · exact heq.symm
  · rcases hb.2 a ha.1 huid with heq | hba
    · exact heq
    · exact absurd hba hab.asymm

/-- A candidate is the first in the order of import that leads and cannot be used. -/
structure FailsFirst (e : Candidate) (i : Interpreter) (cause : RecordError)
    (l : List Candidate) : Prop where
  leads : e.Leads l
  fails : e.outcome i = .error (.interpretation (.record cause))
  before : ∀ e' : Candidate, e'.Leads l → e'.Precedes e → ∃ event, e'.outcome i = .ok event

end Candidate

theorem mem_tried_or_mem_passedOver (seen : List String) {e : Candidate} {l : List Candidate}
    (h : e ∈ l) : e ∈ tried seen l ∨ e ∈ passedOver seen l := by
  induction l generalizing seen with
  | nil => cases h
  | cons a l ih =>
    unfold tried passedOver
    by_cases hseen : a.uid ∈ seen
    · rw [if_pos hseen, if_pos hseen]
      rcases List.mem_cons.mp h with rfl | h
      · exact .inr List.mem_cons_self
      · exact (ih seen h).imp_right (List.mem_cons_of_mem a)
    · rw [if_neg hseen, if_neg hseen]
      rcases List.mem_cons.mp h with rfl | h
      · exact .inl List.mem_cons_self
      · exact (ih (a.uid :: seen) h).imp_left (List.mem_cons_of_mem a)

namespace Importer

variable {i : Importer} {r r' : Import} {seen seen' : List String} {e : Candidate}
  {l : List Candidate} {components : List Component} {text : String} {document : Component}

theorem mem_tried_iff_leads :
    e ∈ tried [] (candidates components) ↔ e.Leads (candidates components) := by
  rw [mem_tried_iff (pairwise_candidates components)]
  exact and_iff_right List.not_mem_nil

/-- The candidates with an identifier are led by one of them. -/
theorem exists_leads (he : e ∈ candidates components) :
    ∃ first : Candidate, first.Leads (candidates components) ∧ first.uid = e.uid := by
  have huid := (uid_mem_or_mem_tried [] he).resolve_left List.not_mem_nil
  obtain ⟨first, hfirst, heq⟩ := List.mem_map.mp huid
  exact ⟨first, mem_tried_iff_leads.mp hfirst, heq⟩

/-! ## Records that are hidden -/

/-- A candidate that leads gives its event to the import, or its error. -/
theorem outcome_of_leads (hlenient : i.strict = false)
    (h : (i.ofComponents components).outcome = .ok r) (he : e.Leads (candidates components)) :
    (∃ event, e.outcome i.interpreter = .ok event ∧ event ∈ r.events) ∨
      ∃ cause, e.outcome i.interpreter = .error (.interpretation (.record cause)) ∧
        (e.uid, cause) ∈ r.errors.entries := by
  have hsettles := settles_of_ofComponents hlenient h
  have htried := mem_tried_iff_leads.mpr he
  have heither := hsettles.either e htried
  cases hevent : e.event? i.interpreter with
  | some event =>
    have houtcome := Candidate.event?_eq_some_iff.mp hevent
    exact .inl ⟨event, houtcome, (mem_events_iff hlenient h).mpr ⟨e, he, houtcome⟩⟩
  | none =>
    obtain ⟨⟨uid, cause⟩, herror⟩ : ∃ entry, e.error? i.interpreter = some entry := by
      simpa [hevent, Option.isSome_iff_exists] using heither
    have houtcome := Candidate.error?_eq_some_iff.mp herror
    refine .inr ⟨cause, houtcome.2, ?_⟩
    rw [← houtcome.1, hsettles.errors]
    exact List.mem_append_right _ (List.mem_filterMap.mpr ⟨e, htried, herror⟩)

/-- Where the candidate that leads those with an identifier cannot be used, there is no event with
    that identifier. -/
theorem filter_events_eq_nil (hlenient : i.strict = false)
    (h : (i.ofComponents components).outcome = .ok r) (he : e.Leads (candidates components))
    {cause : EventError} (hfails : e.outcome i.interpreter = .error cause) :
    r.events.filter (·.uid = e.uid) = [] := by
  rw [List.filter_eq_nil_iff]
  intro event hevent huid
  obtain ⟨e', hleads, houtcome⟩ := (mem_events_iff hlenient h).mp hevent
  have hsame : e'.uid = e.uid := by
    rw [← ImportedEvent.uid_of_ofComponent houtcome]
    exact of_decide_eq_true huid
  rw [hleads.eq he hsame, hfails] at houtcome
  cases houtcome

/-- A candidate that does not lead is counted as a duplicate. -/
theorem uid_mem_duplicates (hlenient : i.strict = false)
    (h : (i.ofComponents components).outcome = .ok r) (he : e ∈ candidates components)
    (hnot : ¬ e.Leads (candidates components)) : e.uid ∈ r.duplicates := by
  rw [(settles_of_ofComponents hlenient h).duplicates]
  apply List.mem_append_right
  rcases mem_tried_or_mem_passedOver [] he with htried | hpassed
  · exact absurd (mem_tried_iff_leads.mp htried) hnot
  · exact List.mem_map_of_mem hpassed

theorem outcome_ofText (i : Importer) (text : String) :
    (i.ofText text).outcome = (readDocument text).mapError .unparseable >>= fun document =>
      (i.ofComponents (document.withName eventName)).outcome := by
  unfold ofText
  rw [Traced.outcome_bind, Traced.outcome_mapError, Traced.outcome_ofExcept]

theorem outcome_ofText_of_read (i : Importer) (hdocument : readDocument text = .ok document) :
    (i.ofText text).outcome = (i.ofComponents (document.withName eventName)).outcome := by
  rw [outcome_ofText, hdocument, mapError_ok, ok_bind]

/-- If a record can be used, an import that lets others pass has one event for its identifier,
    provided that the first record with that identifier can be used.  If that one cannot, the
    identifier has its error and no event, and the record is a duplicate. -/
theorem ofText_usable_kept_or_hidden {event : ImportedEvent} (hlenient : i.strict = false)
    (hdocument : readDocument text = .ok document) (h : (i.ofText text).outcome = .ok r)
    (he : e ∈ candidates (document.withName eventName))
    (hevent : e.outcome i.interpreter = .ok event) :
    ∃ first : Candidate, first.Leads (candidates (document.withName eventName)) ∧
      first.uid = e.uid ∧
      ((∃ kept, first.outcome i.interpreter = .ok kept ∧
          r.events.filter (·.uid = e.uid) = [kept]) ∨
        ∃ cause, first.outcome i.interpreter = .error (.interpretation (.record cause)) ∧
          r.errors.find? e.uid = some cause ∧ e.uid ∈ r.duplicates ∧
          r.events.filter (·.uid = e.uid) = []) := by
  rw [outcome_ofText_of_read i hdocument] at h
  obtain ⟨first, hfirst, huid⟩ := exists_leads he
  refine ⟨first, hfirst, huid, ?_⟩
  rcases outcome_of_leads hlenient h hfirst with ⟨kept, hkept, -⟩ | ⟨cause, hfails, herror⟩
  · left
    refine ⟨kept, hkept, ?_⟩
    have hsame := (ImportedEvent.uid_of_ofComponent hkept).trans huid
    exact (filter_events_eq_singleton_iff hlenient h hsame).mpr ⟨first, hfirst, hkept⟩
  · right
    -- what fails is another record, for this one can be used
    have hnot : ¬ e.Leads (candidates (document.withName eventName)) := by
      intro hleads
      rw [hleads.eq hfirst huid.symm, hfails] at hevent
      cases hevent
    refine ⟨cause, hfails, ?_, uid_mem_duplicates hlenient h he hnot, ?_⟩
    · rw [← huid]
      exact OrderedMap.find?_eq_some_iff.mpr herror
    · rw [← huid]
      exact filter_events_eq_nil hlenient h hfirst hfails

/-- A record without a start. -/
def startless : Component := .mk eventName [⟨"UID", [], "standup"⟩] []

/-- A record without an end, that starts on 3 January 2024. -/
def endless : Component :=
  .mk eventName [⟨"UID", [], "standup"⟩, ⟨"DTSTART", [], "20240103T090000Z"⟩] []

/-- A record without a start, and with the same identifier an hour of 2 January 2024. -/
def startlessText : String :=
  "BEGIN:VCALENDAR\nBEGIN:VEVENT\nUID:standup\nEND:VEVENT\n" ++
    "BEGIN:VEVENT\nUID:standup\nDTSTART:20240102T090000Z\nDTEND:20240102T100000Z\n" ++
    "END:VEVENT\nEND:VCALENDAR\n"

/-- A record without an end, and with the same identifier an hour of the day before. -/
def endlessText : String :=
  "BEGIN:VCALENDAR\nBEGIN:VEVENT\nUID:standup\nDTSTART:20240103T090000Z\nEND:VEVENT\n" ++
    "BEGIN:VEVENT\nUID:standup\nDTSTART:20240102T090000Z\nDTEND:20240102T100000Z\n" ++
    "END:VEVENT\nEND:VCALENDAR\n"

set_option maxRecDepth 1000 in
theorem read_startlessText : readDocument startlessText =
    .ok (.mk "VCALENDAR" [] [startless, standup "20240102"]) :=
  rfl

set_option maxRecDepth 1000 in
theorem read_endlessText : readDocument endlessText =
    .ok (.mk "VCALENDAR" [] [endless, standup "20240102"]) :=
  rfl

/-- The import of the record without a start has its error alone. -/
theorem exists_ofText_startlessText : ∃ r, (lenient.ofText startlessText).outcome = .ok r ∧
    (r.errors.entries, r.duplicates, r.events.length) =
      ([("standup", .noStart)], ["standup"], 0) := by
  have hstart : startless.startText ≤ (standup "20240102").startText := by decide +kernel
  have horder : importOrder [startless, standup "20240102"] = [startless, standup "20240102"] := by
    simp [importOrder, List.mergeSort, hstart]
  refine map_eq_ok_iff.mp ?_
  rw [outcome_ofText_of_read _ read_startlessText, outcome_ofComponents]
  have hnamed : (Component.mk "VCALENDAR" [] [startless, standup "20240102"]).withName eventName =
      [startless, standup "20240102"] := rfl
  rw [hnamed, identified, horder]
  decide +kernel

theorem exists_event_of_standup : ∃ event,
    Candidate.outcome lenient.interpreter ⟨"standup", standup "20240102", 1⟩ = .ok event ∧
      event.uid = "standup" := by
  refine map_eq_ok_iff.mp ?_
  decide +kernel

/-- An hour of 2 January is kept where the other record with its identifier starts a day later. -/
theorem ofText_endlessText_keeps_standup :
    let e : Candidate := ⟨"standup", standup "20240102", 1⟩
    ∃ document r event, lenient.strict = false ∧ readDocument endlessText = .ok document ∧
      (lenient.ofText endlessText).outcome = .ok r ∧
      e ∈ candidates (document.withName eventName) ∧ e.outcome lenient.interpreter = .ok event ∧
      ∃ first : Candidate, first.Leads (candidates (document.withName eventName)) ∧
        first.uid = e.uid ∧
        ((∃ kept, first.outcome lenient.interpreter = .ok kept ∧
            r.events.filter (·.uid = e.uid) = [kept]) ∨
          ∃ cause, first.outcome lenient.interpreter =
              .error (.interpretation (.record cause)) ∧
            r.errors.find? e.uid = some cause ∧ e.uid ∈ r.duplicates ∧
            r.events.filter (·.uid = e.uid) = []) := by
  intro e
  have hstart : ¬ endless.startText ≤ (standup "20240102").startText := by decide +kernel
  have horder : importOrder [endless, standup "20240102"] = [standup "20240102", endless] := by
    simp [importOrder, List.mergeSort, hstart]
  have hends : ∃ r, (lenient.ofComponents [endless, standup "20240102"]).outcome = .ok r ∧
      r.events.length = 1 := by
    refine map_eq_ok_iff.mp ?_
    rw [outcome_ofComponents, identified, horder]
    decide +kernel
  obtain ⟨r, hr, -⟩ := hends
  obtain ⟨event, hevent, -⟩ := exists_event_of_standup
  have he : e ∈ candidates [endless, standup "20240102"] :=
    mem_candidates_of_getElem? rfl rfl (by decide)
  have h : (lenient.ofText endlessText).outcome = .ok r :=
    (outcome_ofText_of_read lenient read_endlessText).trans hr
  exact ⟨_, r, event, rfl, read_endlessText, h, he, hevent,
    ofText_usable_kept_or_hidden rfl read_endlessText h he hevent⟩

/-- It is lost where the other record has no start, although it can be imported. -/
theorem ofText_startlessText_loses_standup :
    let e : Candidate := ⟨"standup", standup "20240102", 1⟩
    ∃ document r event, lenient.strict = false ∧ readDocument startlessText = .ok document ∧
      (lenient.ofText startlessText).outcome = .ok r ∧
      e ∈ candidates (document.withName eventName) ∧ e.outcome lenient.interpreter = .ok event ∧
      ¬ ∃ kept ∈ r.events, kept.uid = e.uid := by
  intro e
  obtain ⟨r, hr, hfacts⟩ := exists_ofText_startlessText
  obtain ⟨event, hevent, -⟩ := exists_event_of_standup
  have he : e ∈ candidates [startless, standup "20240102"] :=
    mem_candidates_of_getElem? rfl rfl (by decide)
  refine ⟨_, r, event, rfl, read_startlessText, hr, he, hevent, ?_⟩
  rintro ⟨kept, hkept, -⟩
  have hnone : r.events.length = 0 := (Prod.ext_iff.mp (Prod.ext_iff.mp hfacts).2).2
  rw [List.length_eq_zero_iff.mp hnone] at hkept
  cases hkept

/-! ## Imports that let no record pass -/

/-- The same importer, whose imports end with the first record that cannot be used. -/
def strictly (i : Importer) : Importer := { i with strict := true }

/-- It makes no difference to a candidate without an error to report whether such errors are let
    pass. -/
theorem take_strictly_of_not_fails (herror : e.error? i.interpreter = none)
    (state : Import × List String) :
    i.strictly.take state (e.uid, e.component) = i.take state (e.uid, e.component) := by
  have hrecord : i.strictly.record state.1 e.uid (e.outcome i.interpreter) =
      i.record state.1 e.uid (e.outcome i.interpreter) := by
    unfold record
    split
    · rfl
    · rename_i cause hcause
      rw [Candidate.error?, hcause] at herror
      cases herror
    · rfl
  unfold take
  split
  · rfl
  · exact congrArg (fun x : Traced ImportError Import => x.outcome >>= fun r =>
      pure (r, e.uid :: state.2)) hrecord

/-- A candidate that is tried and cannot be used ends an import that lets none pass. -/
theorem take_strictly_of_fails (hmem : e.uid ∉ seen) {uid : String} {cause : RecordError}
    (herror : e.error? i.interpreter = some (uid, cause)) :
    i.strictly.take (r, seen) (e.uid, e.component) =
      .error (.event (.interpretation (.record cause))) := by
  have houtcome := (Candidate.error?_eq_some_iff.mp herror).2
  have hinterpreter : i.strictly.interpreter = i.interpreter := rfl
  rw [Candidate.outcome] at houtcome
  rw [take_of_not_mem hmem, hinterpreter, houtcome]
  rfl

/-- A run that lets no record pass goes as one that does, up to the first candidate that is tried
    and cannot be used. -/
theorem foldlM_take_strictly
    (h : (l.map fun e => (e.uid, e.component)).foldlM i.take (r, seen) = .ok (r', seen')) :
    (l.map fun e => (e.uid, e.component)).foldlM i.strictly.take (r, seen) =
      match (tried seen l).findSome? (·.error? i.interpreter) with
      | none => .ok (r', seen')
      | some (_, cause) => .error (.event (.interpretation (.record cause))) := by
  induction l generalizing r seen with
  | nil => exact h
  | cons e l ih =>
    rw [List.map_cons, List.foldlM_cons] at h ⊢
    obtain ⟨⟨r₁, seen₁⟩, htake, h⟩ := bind_eq_ok_iff.mp h
    unfold tried
    by_cases hmem : e.uid ∈ seen
    -- both runs pass over a duplicate
    · rw [take_of_mem hmem] at htake ⊢
      cases htake
      rw [ok_bind, if_pos hmem]
      exact ih h
    -- a candidate that is tried makes a difference only if it cannot be used
    · rw [if_neg hmem, List.findSome?_cons]
      cases herror : e.error? i.interpreter with
      | none =>
        rw [take_strictly_of_not_fails herror, htake, ok_bind]
        rw [take_of_not_mem hmem] at htake
        obtain ⟨r₂, -, hstate⟩ := bind_eq_ok_iff.mp htake
        cases hstate
        exact ih h
      | some entry =>
        obtain ⟨uid, cause⟩ := entry
        rw [take_strictly_of_fails hmem herror]
        rfl

/-- An import that lets no record pass gives what one that does gives, if that has no errors, and
    otherwise ends with the first of them. -/
theorem ofComponents_strictly (hlenient : i.strict = false)
    (h : (i.ofComponents components).outcome = .ok r) :
    (i.strictly.ofComponents components).outcome =
      match r.errors.entries.head? with
      | none => .ok r
      | some (_, cause) => .error (.event (.interpretation (.record cause))) := by
  have herrors := (settles_of_ofComponents hlenient h).errors
  have hhead : r.errors.entries.head? =
      (tried [] (candidates components)).findSome? (·.error? i.interpreter) := by
    rw [herrors]
    exact List.head?_filterMap
  rw [outcome_ofComponents, ← map_candidates] at h ⊢
  obtain ⟨⟨r', seen⟩, hrun, h⟩ := bind_eq_ok_iff.mp h
  cases h
  rw [foldlM_take_strictly hrun, hhead]
  cases (tried [] (candidates components)).findSome? (·.error? i.interpreter) <;> rfl

/-- The first error of an import is that of the first candidate that is tried and cannot be
    used. -/
theorem exists_failsFirst (hlenient : i.strict = false)
    (h : (i.ofComponents components).outcome = .ok r) {uid : String} {cause : RecordError}
    (hhead : r.errors.entries.head? = some (uid, cause)) :
    ∃ e : Candidate, e.uid = uid ∧
      e.FailsFirst i.interpreter cause (candidates components) := by
  have hsettles := settles_of_ofComponents hlenient h
  have hfind : (tried [] (candidates components)).findSome? (·.error? i.interpreter) =
      some (uid, cause) := by
    rw [← List.head?_filterMap, ← hhead, hsettles.errors]
    rfl
  obtain ⟨before, e, after, hsplit, herror, hbefore⟩ := List.findSome?_eq_some_iff.mp hfind
  obtain ⟨huid, houtcome⟩ := Candidate.error?_eq_some_iff.mp herror
  have horder : (tried [] (candidates components)).Pairwise Candidate.Precedes :=
    (pairwise_candidates components).sublist (tried_sublist [] (candidates components))
  rw [hsplit, List.pairwise_append] at horder
  refine ⟨e, huid.symm, ?_, houtcome, ?_⟩
  · apply mem_tried_iff_leads.mp
    rw [hsplit]
    exact List.mem_append_right _ List.mem_cons_self
  · intro e' hleads hprecedes
    have htried := mem_tried_iff_leads.mpr hleads
    have hevent := hsettles.either e' htried
    rw [hsplit, List.mem_append, List.mem_cons] at htried
    -- those before it gave events, and those after it do not precede it
    rcases htried with hmem | rfl | hmem
    · rw [hbefore e' hmem, Option.isSome_none, eq_comm, Bool.not_eq_false',
        Option.isSome_iff_exists] at hevent
      obtain ⟨event, hevent⟩ := hevent
      exact ⟨event, Candidate.event?_eq_some_iff.mp hevent⟩
    · exact absurd hprecedes hprecedes.asymm
    · have hafter := (List.pairwise_cons.mp horder.2.1).1 e' hmem
      exact absurd hprecedes hafter.asymm

/-- If an import that lets records pass gives a result, one that lets none pass gives the same
    where there are no errors, and otherwise ends with the error that is kept for the first record
    that is tried and cannot be used. -/
theorem ofText_strictly (hlenient : i.strict = false) (h : (i.ofText text).outcome = .ok r) :
    (r.errors.entries = [] ∧ (i.strictly.ofText text).outcome = .ok r) ∨
    ∃ (document : Component) (first : Candidate) (cause : RecordError),
      readDocument text = .ok document ∧
      first.FailsFirst i.interpreter cause (candidates (document.withName eventName)) ∧
      r.errors.find? first.uid = some cause ∧
      (i.strictly.ofText text).outcome =
        .error (.event (.interpretation (.record cause))) := by
  have hread := h
  rw [outcome_ofText] at hread
  obtain ⟨document, hdocument, -⟩ := bind_eq_ok_iff.mp hread
  rw [mapError_eq_ok_iff] at hdocument
  rw [outcome_ofText_of_read i hdocument] at h
  rw [outcome_ofText_of_read i.strictly hdocument]
  have hstrict := ofComponents_strictly hlenient h
  cases hhead : r.errors.entries.head? with
  | none =>
    rw [hhead] at hstrict
    exact .inl ⟨List.head?_eq_none_iff.mp hhead, hstrict⟩
  | some entry =>
    obtain ⟨uid, cause⟩ := entry
    rw [hhead] at hstrict
    obtain ⟨first, rfl, hfirst⟩ := exists_failsFirst hlenient h hhead
    refine .inr ⟨document, first, cause, hdocument, hfirst, ?_, hstrict⟩
    exact OrderedMap.find?_eq_some_iff.mpr (List.mem_of_mem_head? hhead)

/-- The record without a start ends the import of its document, if none may pass. -/
theorem ofText_startlessText_strictly :
    ∃ r, lenient.strict = false ∧ (lenient.ofText startlessText).outcome = .ok r ∧
      r.errors.entries = [("standup", .noStart)] ∧
      ((r.errors.entries = [] ∧ (lenient.strictly.ofText startlessText).outcome = .ok r) ∨
      ∃ (document : Component) (first : Candidate) (cause : RecordError),
        readDocument startlessText = .ok document ∧
        first.FailsFirst lenient.interpreter cause (candidates (document.withName eventName)) ∧
        r.errors.find? first.uid = some cause ∧
        (lenient.strictly.ofText startlessText).outcome =
          .error (.event (.interpretation (.record cause)))) := by
  obtain ⟨r, hr, hfacts⟩ := exists_ofText_startlessText
  exact ⟨r, rfl, hr, (Prod.ext_iff.mp hfacts).1, ofText_strictly rfl hr⟩

end Importer

end EventCalendar
