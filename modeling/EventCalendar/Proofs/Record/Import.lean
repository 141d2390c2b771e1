/-
  EventCalendar.Proofs.Record.Import

  Imports that let records pass which cannot be read.  Such an import gives a
  result that accounts for every record it tries, unless a record is read and
  its dates then break the import off.
-/

import EventCalendar.Proofs.Record.Event
import EventCalendar.Record.Import

namespace EventCalendar

open EventCalendar.Ics EventCalendar.Time

/-! ## Accounts -/

theorem mem_putEntry {κ α : Type} [DecidableEq κ] {key : κ} {value : α} {l : List (κ × α)}
    (h : key ∉ l.map (·.1)) {p : κ × α} :
    p ∈ putEntry key value l ↔ p ∈ l ∨ p = (key, value) := by
  induction l with
  | nil => simp [putEntry]
  | cons entry rest ih =>
    obtain ⟨k, v⟩ := entry
    rw [List.map_cons, List.mem_cons, not_or] at h
    rw [putEntry, if_neg (fun hk => h.1 hk.symm), List.mem_cons, List.mem_cons, ih h.2, or_assoc]

namespace Import

/-- The event of a component was imported, or the reason why there is none was kept. -/
def accountsFor (r : Import) (i : Interpreter) (uid : String) (c : Component) : Prop :=
  match (ImportedEvent.ofComponent i uid c).outcome with
  | .ok event => event ∈ r.events
  | .error (.interpretation (.record cause)) => (uid, cause) ∈ r.errors.entries
  | .error _ => False

/-- The events, errors and duplicates of an import stay. -/
structure Extends (r r' : Import) : Prop where
  events : ∀ event ∈ r.events, event ∈ r'.events
  errors : ∀ entry ∈ r.errors.entries, entry ∈ r'.errors.entries
  duplicates : ∀ uid ∈ r.duplicates, uid ∈ r'.duplicates

variable {r r' r'' : Import}

theorem Extends.refl (r : Import) : Extends r r := ⟨fun _ h => h, fun _ h => h, fun _ h => h⟩

theorem Extends.trans (h : Extends r r') (h' : Extends r' r'') : Extends r r'' :=
  ⟨fun _ he => h'.events _ (h.events _ he), fun _ he => h'.errors _ (h.errors _ he),
    fun _ hd => h'.duplicates _ (h.duplicates _ hd)⟩

/-- What is accounted for stays so. -/
theorem Extends.accountsFor (h : Extends r r') {i : Interpreter} {uid : String} {c : Component}
    (hr : r.accountsFor i uid c) : r'.accountsFor i uid c := by
  unfold Import.accountsFor at hr ⊢
  split at hr
  · exact h.events _ hr
  · exact h.errors _ hr
  · exact hr.elim

theorem extends_event (r : Import) (event : ImportedEvent) :
    Extends r { r with events := r.events ++ [event] } :=
  ⟨fun _ he => List.mem_append_left _ he, fun _ he => he, fun _ hd => hd⟩

theorem extends_error {uid : String} {cause : RecordError} (h : uid ∉ r.errors.keys) :
    Extends r { r with errors := r.errors.put uid cause } :=
  ⟨fun _ he => he, fun _ he => (mem_putEntry h).mpr (.inl he), fun _ hd => hd⟩

theorem extends_duplicate (r : Import) (uid : String) :
    Extends r { r with duplicates := r.duplicates ++ [uid] } :=
  ⟨fun _ he => he, fun _ he => he, fun _ hd => List.mem_append_left _ hd⟩

end Import

/-! ## The components that are tried -/

/-- The components in the order of import, with their identifiers. -/
def identified (components : List Component) : List (String × Component) :=
  (importOrder components).zipIdx.map fun (c, place) => (c.uid place, c)

/-- A component is the first with its identifier, which was not met before. -/
def Tried (seen : List String) (l : List (String × Component)) (uid : String) (c : Component) :
    Prop :=
  uid ∉ seen ∧ l.lookup uid = some c

section Tried

variable {seen : List String} {l : List (String × Component)} {uid uid' : String} {c c' : Component}

theorem tried_cons_of_mem (h : uid ∈ seen) :
    Tried seen ((uid, c) :: l) uid' c' ↔ Tried seen l uid' c' := by
  unfold Tried
  refine and_congr_right fun hfresh => ?_
  have hne : uid' ≠ uid := by
    rintro rfl
    exact hfresh h
  rw [List.lookup_cons, beq_eq_false_iff_ne.mpr hne]

theorem tried_cons_of_not_mem (h : uid ∉ seen) :
    Tried seen ((uid, c) :: l) uid' c' ↔
      (uid' = uid ∧ c' = c) ∨ Tried (uid :: seen) l uid' c' := by
  unfold Tried
  rw [List.lookup_cons, List.mem_cons, not_or]
  by_cases heq : uid' = uid
  · subst heq
    simp [h, eq_comm]
  · rw [beq_eq_false_iff_ne.mpr heq]
    simp [heq]

end Tried

/-! ## Steps -/

namespace Importer

variable {i : Importer} {r r' : Import} {seen seen' : List String} {uid : String} {c : Component}

/-- The outcome of importing one more component. -/
def take (i : Importer) (state : Import × List String) (entry : String × Component) :
    Except ImportError (Import × List String) :=
  if state.2.contains entry.1 then
    .ok ({ state.1 with duplicates := state.1.duplicates ++ [entry.1] }, state.2)
  else do
    let event := (ImportedEvent.ofComponent i.interpreter entry.1 entry.2).outcome
    return (← (i.record state.1 entry.1 event).outcome, entry.1 :: state.2)

theorem outcome_add (state : Import × List String) (entry : Component × Nat) :
    (i.add state entry).outcome = i.take state (entry.1.uid entry.2, entry.1) := by
  unfold add take
  simp only
  split
  · rfl
  · simp only [Traced.outcome_bind, Traced.outcome_attempt, Traced.outcome_pure, ok_bind,
      pure_eq_ok]

theorem outcome_ofComponents (components : List Component) :
    (i.ofComponents components).outcome =
      (identified components).foldlM i.take (.empty components.length, []) >>= fun state =>
        .ok state.1 := by
  unfold ofComponents identified
  rw [List.foldlM_map, Traced.outcome_bind, Traced.outcome_foldlM]
  simp only [outcome_add]
  rfl

theorem take_of_mem (h : uid ∈ seen) :
    i.take (r, seen) (uid, c) = .ok ({ r with duplicates := r.duplicates ++ [uid] }, seen) := by
  rw [take, if_pos (List.contains_iff_mem.mpr h)]

theorem take_of_not_mem (h : uid ∉ seen) :
    i.take (r, seen) (uid, c) =
      (i.record r uid (ImportedEvent.ofComponent i.interpreter uid c).outcome).outcome >>= fun r =>
        .ok (r, uid :: seen) := by
  rw [take, if_neg (fun hmem => h (List.contains_iff_mem.mp hmem))]
  rfl

/-- Importing a component with a new identifier fails if it breaks off, and otherwise accounts for
    the component. -/
theorem take_cases (hstrict : i.strict = false) (hyears : 1 ≤ i.interpreter.horizonYears)
    (hseen : ∀ key ∈ r.errors.keys, key ∈ seen) (h : uid ∉ seen) :
    (¬ i.interpreter.breaksOff c ∧ ∃ r', i.take (r, seen) (uid, c) = .ok (r', uid :: seen) ∧
      r.Extends r' ∧ r'.accountsFor i.interpreter uid c ∧
      ∀ key ∈ r'.errors.keys, key ∈ uid :: seen) ∨
    (i.interpreter.breaksOff c ∧ ∃ e, i.take (r, seen) (uid, c) = .error e) := by
  rw [take_of_not_mem h]
  rcases ImportedEvent.ofComponent_cases hyears uid c with
    ⟨hgoes, event, hevent, -⟩ | ⟨hgoes, cause, hcause⟩ | ⟨hbreaks, cause, hcause, hother⟩
  · rw [hevent]
    refine .inl ⟨hgoes, { r with events := r.events ++ [event] }, rfl,
      r.extends_event event, ?_,
      fun key hkey => List.mem_cons_of_mem _ (hseen key hkey)⟩
    simp [Import.accountsFor, hevent]
  -- no error is kept under a new identifier yet, so that none is replaced
  · have hnew : uid ∉ r.errors.keys := fun hmem => h (hseen uid hmem)
    rw [hcause, record, hstrict]
    refine .inl ⟨hgoes, { r with errors := r.errors.put uid cause }, rfl,
      Import.extends_error hnew, ?_, ?_⟩
    · simp only [Import.accountsFor, hcause]
      exact (mem_putEntry hnew).mpr (.inr rfl)
    · intro key hkey
      rw [OrderedMap.keys_put, if_neg hnew, List.mem_append, List.mem_singleton] at hkey
      rcases hkey with hkey | rfl
      · exact List.mem_cons_of_mem _ (hseen key hkey)
      · exact List.mem_cons_self
  · refine .inr ⟨hbreaks, .event cause, ?_⟩
    rw [hcause, record]
    · rfl
    · exact hother

/-! ## Runs -/

/-- A run over some components ends, unless one that it tries breaks off. -/
theorem exists_foldlM_take_eq_ok_iff (hstrict : i.strict = false)
    (hyears : 1 ≤ i.interpreter.horizonYears) {l : List (String × Component)}
    (hseen : ∀ key ∈ r.errors.keys, key ∈ seen) :
    (∃ state, l.foldlM i.take (r, seen) = .ok state) ↔
      ∀ uid c, Tried seen l uid c → ¬ i.interpreter.breaksOff c := by
  -- identifiers with an error were met before, in every state of the run
  induction l generalizing r seen with
  | nil => simp [Tried]
  | cons entry l ih =>
    obtain ⟨uid, c⟩ := entry
    rw [List.foldlM_cons]
    by_cases hmem : uid ∈ seen
    · simp only [take_of_mem hmem, ok_bind, tried_cons_of_mem hmem]
      exact ih hseen
    · rcases take_cases hstrict hyears hseen hmem with
        ⟨hgoes, r', hr', -, -, hseen'⟩ | ⟨hbreaks, e, he⟩
      · rw [hr', ok_bind, ih hseen']
        simp only [tried_cons_of_not_mem hmem]
        constructor
        · rintro h uid' c' (⟨rfl, rfl⟩ | htried)
          · exact hgoes
          · exact h uid' c' htried
        · intro h uid' c' htried
          exact h uid' c' (.inr htried)
      · rw [he, error_bind]
        constructor
        · rintro ⟨state, h⟩
          cases h
        · intro h
          exact absurd hbreaks (h uid c ((tried_cons_of_not_mem hmem).mpr (.inl ⟨rfl, rfl⟩)))

/-- A run that ends accounts for the components that it tries, and has the others as duplicates. -/
theorem accountsFor_of_foldlM_take (hstrict : i.strict = false)
    (hyears : 1 ≤ i.interpreter.horizonYears) {l : List (String × Component)}
    (hseen : ∀ key ∈ r.errors.keys, key ∈ seen) (h : l.foldlM i.take (r, seen) = .ok (r', seen')) :
    r.Extends r' ∧ ∀ uid c, (uid, c) ∈ l →
      (Tried seen l uid c ∧ r'.accountsFor i.interpreter uid c) ∨
      (¬ Tried seen l uid c ∧ uid ∈ r'.duplicates) := by
  induction l generalizing r seen with
  | nil =>
    cases h
    exact ⟨.refl _, by simp⟩
  | cons entry l ih =>
    obtain ⟨uid, c⟩ := entry
    rw [List.foldlM_cons] at h
    by_cases hmem : uid ∈ seen
    · rw [take_of_mem hmem, ok_bind] at h
      obtain ⟨hextends, hrest⟩ :=
        ih (r := { r with duplicates := r.duplicates ++ [uid] }) hseen h
      refine ⟨(r.extends_duplicate uid).trans hextends, fun uid' c' hentry => ?_⟩
      rw [tried_cons_of_mem hmem]
      rcases List.mem_cons.mp hentry with heq | hentry
      · cases heq
        exact .inr ⟨fun htried => htried.1 hmem,
          hextends.duplicates uid (List.mem_append_right _ List.mem_cons_self)⟩
      · exact hrest uid' c' hentry
    · rcases take_cases hstrict hyears hseen hmem with
        ⟨-, r₁, hr₁, hextends₁, haccounts₁, hseen₁⟩ | ⟨-, e, he⟩
      · rw [hr₁, ok_bind] at h
        obtain ⟨hextends, hrest⟩ := ih hseen₁ h
        refine ⟨hextends₁.trans hextends, fun uid' c' hentry => ?_⟩
        rw [tried_cons_of_not_mem hmem]
        by_cases hsame : uid' = uid ∧ c' = c
        · obtain ⟨rfl, rfl⟩ := hsame
          exact .inl ⟨.inl ⟨rfl, rfl⟩, hextends.accountsFor haccounts₁⟩
        · have hlater : (uid', c') ∈ l := by
            rcases List.mem_cons.mp hentry with heq | hlater
            · exact absurd (Prod.ext_iff.mp heq) hsame
            · exact hlater
          rw [or_iff_right hsame]
          exact hrest uid' c' hlater
      · rw [he, error_bind] at h
        cases h

/-- An import that lets unreadable records pass gives a result that accounts for every record, if
    and only if none of those it tries is read and then leaves the calendar or has a rule that ends
    before it starts.  It tries the first record with each identifier; all others are duplicates. -/
theorem ofComponents_accounts_iff (hstrict : i.strict = false)
    (hyears : 1 ≤ i.interpreter.horizonYears) (components : List Component) :
    (∃ r, (i.ofComponents components).outcome = .ok r ∧
      ∀ uid c, (uid, c) ∈ identified components →
        ((identified components).lookup uid = some c ∧ r.accountsFor i.interpreter uid c) ∨
        ((identified components).lookup uid ≠ some c ∧ uid ∈ r.duplicates)) ↔
    ∀ uid c, (identified components).lookup uid = some c → ¬ i.interpreter.breaksOff c := by
  have htried (uid : String) (c : Component) :
      (identified components).lookup uid = some c ↔ Tried [] (identified components) uid c :=
    (and_iff_right List.not_mem_nil).symm
  have hseen : ∀ key ∈ (Import.empty components.length).errors.keys, key ∈ ([] : List String) :=
    fun _ h => h
  simp only [ne_eq, htried, ← exists_foldlM_take_eq_ok_iff hstrict hyears hseen]
  rw [outcome_ofComponents]
  constructor
  · rintro ⟨r, hr, -⟩
    obtain ⟨state, hstate, -⟩ := bind_eq_ok_iff.mp hr
    exact ⟨state, hstate⟩
  · rintro ⟨⟨r, seen⟩, hstate⟩
    refine ⟨r, bind_eq_ok_iff.mpr ⟨(r, seen), hstate, rfl⟩, ?_⟩
    exact (accountsFor_of_foldlM_take hstrict hyears hseen hstate).2

/-- An importer that lets records pass, with times in universal time. -/
def lenient : Importer := ⟨⟨.withZone none, Interpreter.defaultHorizon⟩, false⟩

/-- An event from nine to ten o'clock on the first of January 2024 and every day after it, up to a
    given end. -/
def dailyUntil (ending : String) : Component :=
  .mk eventName
    [⟨"UID", [], "daily"⟩, ⟨"DTSTART", [], "20240101T090000Z"⟩,
      ⟨"DTEND", [], "20240101T100000Z"⟩, ⟨"RRULE", [], "FREQ=DAILY;UNTIL=" ++ ending⟩]
    []

/-- The event is imported if it ends in the year after its start. -/
theorem ofComponents_dailyUntil_yearAfter :
    lenient.strict = false ∧ 1 ≤ lenient.interpreter.horizonYears ∧
      ∃ r, (lenient.ofComponents [dailyUntil "20250101T000000Z"]).outcome = .ok r ∧
        ∀ uid c, (uid, c) ∈ identified [dailyUntil "20250101T000000Z"] →
          ((identified [dailyUntil "20250101T000000Z"]).lookup uid = some c ∧
            r.accountsFor lenient.interpreter uid c) ∨
          ((identified [dailyUntil "20250101T000000Z"]).lookup uid ≠ some c ∧
            uid ∈ r.duplicates) := by
  have huid : (dailyUntil "20250101T000000Z").uid 0 = "daily" := by decide +kernel
  have hidentified : identified [dailyUntil "20250101T000000Z"] =
      [("daily", dailyUntil "20250101T000000Z")] := by
    simp [identified, importOrder, huid]
  have hread : lenient.interpreter.readings (.ofComponent (dailyUntil "20250101T000000Z")) =
      .ok
        { start := .onTheHour 738885 9 (by decide), finish := .onTheHour 738885 10 (by decide)
          allDay := false, zoneName := "UTC"
          recurrence := some ("daily", some (.onTheHour 739251 0 (by decide))) } := by
    decide +kernel
  refine ⟨rfl, by decide, (ofComponents_accounts_iff rfl (by decide) _).mpr ?_⟩
  intro uid c hc
  rw [hidentified, List.lookup_cons] at hc
  split at hc
  · cases hc
    rintro ⟨x, hx, hbreaks⟩
    rw [hread, Except.ok.injEq] at hx
    subst hx
    rcases hbreaks with (⟨hday, -⟩ | ⟨-, hbefore, -⟩ | ⟨⟨tag, htag⟩, -⟩) |
      ⟨tag, ending, hrecurrence, -, hbefore⟩
    · cases hday
    · exact absurd hbefore (by decide)
    · cases htag
    · cases hrecurrence
      exact absurd hbefore (by decide)
  · cases hc

/-- The import breaks off if the event ends in the year before its start. -/
theorem ofComponents_dailyUntil_yearBefore :
    lenient.strict = false ∧ 1 ≤ lenient.interpreter.horizonYears ∧
      ¬ ∃ r, (lenient.ofComponents [dailyUntil "20230101T000000Z"]).outcome = .ok r := by
  refine ⟨rfl, by decide, ?_⟩
  have hfails : (lenient.ofComponents [dailyUntil "20230101T000000Z"]).outcome.isOk = false := by
    decide +kernel
  rintro ⟨r, hr⟩
  rw [hr] at hfails
  cases hfails

end Importer

end EventCalendar
