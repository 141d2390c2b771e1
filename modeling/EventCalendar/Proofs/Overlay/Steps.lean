/-
  EventCalendar.Proofs.Overlay.Steps

  Exceptions laid over one occurrence after the other.  What one occurrence
  does to the modifications that wait for theirs is said once; what is kept,
  under which keys, and what is left waiting follows for whole runs.
-/

import EventCalendar.Overlay
import EventCalendar.Proofs.OrderedMap
import EventCalendar.Proofs.Outcome

namespace EventCalendar

open EventCalendar.Time

/-! ## One occurrence -/

namespace Occurrence

variable {o o' : Occurrence} {m : Modification} {s : Option Series}

/-- The end of an occurrence that a modification has changed. -/
def mergedEnd (o : Occurrence) (m : Modification) (s : Option Series) :
    Except CalendarError Moment :=
  match m.finish with
  | some finish => .ok finish
  | none =>
    if (m.start.getD o.start).same o.start then .ok o.finish
    else (m.start.getD o.start).guessEnd (s.elim false (·.allDay))

theorem merge_eq_ok_iff : o.merge m s = .ok o' ↔ ∃ finish, o.mergedEnd m s = .ok finish ∧
    o' = ⟨m.start.getD o.start, finish, o.originalStart, .modified,
      pickText m.title (s.bind (·.title)), pickText m.description (s.bind (·.description))⟩ := by
  have hmerge : o.merge m s = o.mergedEnd m s >>= fun finish => .ok ⟨m.start.getD o.start, finish,
      o.originalStart, .modified, pickText m.title (s.bind (·.title)),
      pickText m.description (s.bind (·.description))⟩ := by
    unfold merge mergedEnd
    cases m.finish with
    | some finish => rfl
    | none => dsimp only; split <;> rfl
  rw [hmerge, bind_eq_ok_iff]
  simp only [Except.ok.injEq, eq_comm]

theorem originalStart_of_merge (h : o.merge m s = .ok o') :
    o'.originalStart = o.originalStart := by
  obtain ⟨finish, -, rfl⟩ := merge_eq_ok_iff.mp h
  rfl

theorem state_of_merge (h : o.merge m s = .ok o') : o'.state = .modified := by
  obtain ⟨finish, -, rfl⟩ := merge_eq_ok_iff.mp h
  rfl

theorem start_of_merge (h : o.merge m s = .ok o') : o'.start = m.start.getD o.start := by
  obtain ⟨finish, -, rfl⟩ := merge_eq_ok_iff.mp h
  rfl

/-- A modification that is merged once more changes nothing: the start has already moved, so that
    its end stays. -/
theorem merge_of_merge (h : o.merge m s = .ok o') : o'.merge m s = .ok o' := by
  have hstart : m.start.getD o'.start = o'.start := by
    rw [start_of_merge h]
    cases m.start <;> rfl
  obtain ⟨finish, hfinish, ho'⟩ := merge_eq_ok_iff.mp h
  refine merge_eq_ok_iff.mpr ⟨finish, ?_, ?_⟩
  · unfold mergedEnd at hfinish ⊢
    rw [hstart]
    cases hend : m.finish with
    | some given => simpa [hend] using hfinish
    | none =>
      have hsame : o'.start.same o'.start = true := by simp [Moment.same]
      simp only [hsame, if_true, Except.ok.injEq]
      rw [ho']
  · rw [hstart, ho']

/-- The occurrence as its modification makes it, if it has one. -/
def adjust (o : Occurrence) (m : Option Modification) (s : Option Series) :
    Except CalendarError Occurrence :=
  m.elim (.ok o) (o.merge · s)

theorem originalStart_of_adjust {m : Option Modification} (h : o.adjust m s = .ok o') :
    o'.originalStart = o.originalStart := by
  cases m with
  | none =>
    cases h
    rfl
  | some m => exact originalStart_of_merge h

theorem key_of_adjust {m : Option Modification} (h : o.adjust m s = .ok o') : o'.key = o.key :=
  congrArg Moment.epochKey (originalStart_of_adjust h)

theorem adjust_of_adjust {m : Option Modification} (h : o.adjust m s = .ok o') :
    o'.adjust m s = .ok o' := by
  cases m with
  | none => rfl
  | some m => exact merge_of_merge h

end Occurrence

namespace Overlay

variable {deleted : List Int} {s : Option Series} {pending pending' : Modifications.Index}
  {o : Occurrence} {raw : List Occurrence} {p : Progress}

/-! ## Steps -/

/-- What becomes of one occurrence. -/
theorem outcome_applyFrom_cons (deleted : List Int) (s : Option Series)
    (pending : Modifications.Index) (o : Occurrence) (raw : List Occurrence) :
    (applyFrom deleted s pending (o :: raw)).outcome =
      if o.key ∈ deleted then
        (applyFrom deleted s (pending.erase o.key) raw).outcome >>= fun p =>
          .ok { p with dropped := p.dropped + 1 }
      else
        o.adjust (pending.find? o.key) s >>= fun here =>
          (applyFrom deleted s (pending.erase o.key) raw).outcome >>= fun p =>
            .ok { p with kept := here :: p.kept } := by
  rw [applyFrom]
  by_cases hdeleted : o.key ∈ deleted
  · simp only [List.contains_iff_mem.mpr hdeleted, hdeleted, if_true]
    cases pending.find? o.key <;> simp
  · have hnot : deleted.contains o.key = false := by simpa using hdeleted
    simp only [hnot, hdeleted, if_false, Bool.false_eq_true]
    cases pending.find? o.key <;> simp [Occurrence.adjust]

/-- What is kept and what is left of the modifications after one occurrence and some others. -/
theorem applyFrom_cons_cases (h : (applyFrom deleted s pending (o :: raw)).outcome = .ok p) :
    ∃ p', (applyFrom deleted s (pending.erase o.key) raw).outcome = .ok p' ∧
      p.pending = p'.pending ∧
      (o.key ∈ deleted ∧ p.kept = p'.kept ∨
        o.key ∉ deleted ∧ ∃ here, o.adjust (pending.find? o.key) s = .ok here ∧
          p.kept = here :: p'.kept) := by
  rw [outcome_applyFrom_cons] at h
  split at h
  · rename_i hdeleted
    obtain ⟨p', hp', h⟩ := bind_eq_ok_iff.mp h
    cases h
    exact ⟨p', hp', rfl, .inl ⟨hdeleted, rfl⟩⟩
  · rename_i hdeleted
    obtain ⟨here, hhere, h⟩ := bind_eq_ok_iff.mp h
    obtain ⟨p', hp', h⟩ := bind_eq_ok_iff.mp h
    cases h
    exact ⟨p', hp', rfl, .inr ⟨hdeleted, here, hhere, rfl⟩⟩

/-! ## Runs -/

/-- The modifications that are left waiting are those of no occurrence, in their order. -/
theorem pending_of_applyFrom (h : (applyFrom deleted s pending raw).outcome = .ok p) :
    p.pending.entries = pending.entries.filter (·.1 ∉ raw.map Occurrence.key) := by
  induction raw generalizing pending p with
  | nil =>
    cases h
    exact (List.filter_eq_self.mpr (by simp)).symm
  | cons o raw ih =>
    obtain ⟨p', hp', hpending, -⟩ := applyFrom_cons_cases h
    rw [hpending, ih hp', OrderedMap.entries_erase, List.filter_filter]
    apply List.filter_congr
    intro entry _
    by_cases hkey : entry.1 = o.key <;> simp [hkey]

/-- What is kept has the keys of the occurrences that are not deleted, in their order. -/
theorem keys_of_applyFrom (h : (applyFrom deleted s pending raw).outcome = .ok p) :
    p.kept.map Occurrence.key = (raw.map Occurrence.key).filter (· ∉ deleted) := by
  induction raw generalizing pending p with
  | nil =>
    cases h
    rfl
  | cons o raw ih =>
    obtain ⟨p', hp', -, ⟨hdeleted, hkept⟩ | ⟨hdeleted, here, hhere, hkept⟩⟩ :=
      applyFrom_cons_cases h
    · rw [hkept, ih hp', List.map_cons, List.filter_cons_of_neg (by simpa using hdeleted)]
    · rw [hkept, List.map_cons, ih hp', List.map_cons,
        List.filter_cons_of_pos (by simpa using hdeleted), Occurrence.key_of_adjust hhere]

/-- What is kept starts where an occurrence starts or where a modification moves one. -/
theorem start_of_mem_kept (h : (applyFrom deleted s pending raw).outcome = .ok p) :
    ∀ o' ∈ p.kept, (∃ o ∈ raw, o'.start = o.start) ∨
      ∃ entry ∈ pending.entries, entry.2.start = some o'.start := by
  induction raw generalizing pending p with
  | nil =>
    cases h
    simp
  | cons o raw ih =>
    obtain ⟨p', hp', -, hcases⟩ := applyFrom_cons_cases h
    have hrest : ∀ o' ∈ p'.kept, (∃ o₁ ∈ o :: raw, o'.start = o₁.start) ∨
        ∃ entry ∈ pending.entries, entry.2.start = some o'.start := by
      intro o' ho'
      rcases ih hp' o' ho' with ⟨o₁, ho₁, hstart⟩ | ⟨entry, hentry, hstart⟩
      · exact .inl ⟨o₁, List.mem_cons_of_mem _ ho₁, hstart⟩
      · exact .inr ⟨entry, (List.mem_filter.mp hentry).1, hstart⟩
    rcases hcases with ⟨-, hkept⟩ | ⟨-, here, hhere, hkept⟩
    · rwa [hkept]
    · intro o' ho'
      rw [hkept] at ho'
      rcases List.mem_cons.mp ho' with rfl | ho'
      · -- it stays where it is unless its modification has a start
        cases hfind : pending.find? o.key with
        | none =>
          rw [hfind] at hhere
          cases hhere
          exact .inl ⟨o, List.mem_cons_self, rfl⟩
        | some m =>
          rw [hfind] at hhere
          have hstart := Occurrence.start_of_merge hhere
          cases hmoved : m.start with
          | none =>
            rw [hmoved] at hstart
            exact .inl ⟨o, List.mem_cons_self, hstart⟩
          | some start =>
            rw [hmoved, Option.getD_some] at hstart
            exact .inr ⟨(o.key, m), OrderedMap.find?_eq_some_iff.mp hfind, hstart ▸ hmoved⟩
      · exact hrest o' ho'

/-- What is kept is kept again as it is, also if the modifications of deleted occurrences are still
    waiting. -/
theorem exists_applyFrom_kept (h : (applyFrom deleted s pending raw).outcome = .ok p)
    (hsame : ∀ key ∉ deleted, pending'.find? key = pending.find? key) :
    ∃ p', (applyFrom deleted s pending' p.kept).outcome = .ok p' ∧ p'.kept = p.kept := by
  -- a step takes one key away from the modifications of both runs, so that they keep agreeing on
  -- the keys that are not deleted
  induction raw generalizing pending pending' p with
  | nil =>
    cases h
    exact ⟨_, rfl, rfl⟩
  | cons o raw ih =>
    obtain ⟨p₁, hp₁, -, ⟨hdeleted, hkept⟩ | ⟨hdeleted, here, hhere, hkept⟩⟩ :=
      applyFrom_cons_cases h
    · rw [hkept]
      refine ih hp₁ fun key hkey => ?_
      rw [hsame key hkey, OrderedMap.find?_erase_of_ne]
      rintro rfl
      exact hkey hdeleted
    · have hkey := Occurrence.key_of_adjust hhere
      have hrest : ∀ key ∉ deleted,
          (pending'.erase o.key).find? key = (pending.erase o.key).find? key := by
        intro key hkey
        by_cases heq : key = o.key
        · rw [heq, OrderedMap.find?_erase_self, OrderedMap.find?_erase_self]
        · rw [OrderedMap.find?_erase_of_ne _ heq, OrderedMap.find?_erase_of_ne _ heq,
            hsame key hkey]
      obtain ⟨p', hp', hkept'⟩ := ih hp₁ hrest
      refine ⟨{ p' with kept := here :: p'.kept }, ?_, ?_⟩
      · -- the second run finds the same modification, and merging it again changes nothing
        rw [hkept, outcome_applyFrom_cons, hkey, if_neg hdeleted, hsame _ hdeleted,
          Occurrence.adjust_of_adjust hhere, ok_bind, hp', ok_bind]
      · rw [hkept, hkept']

/-- If no two occurrences have the same key, each is kept as the modification under its key makes
    it. -/
theorem kept_applyFrom_of_nodup (deleted : List Int) (s : Option Series)
    (pending : Modifications.Index) (hkeys : (raw.map Occurrence.key).Nodup) :
    (applyFrom deleted s pending raw).outcome >>= (fun p => .ok p.kept) =
      (raw.filter (·.key ∉ deleted)).mapM fun o => o.adjust (pending.find? o.key) s := by
  -- the modifications that the occurrences ahead find do not change
  suffices hrun : ∀ (waiting : Modifications.Index),
      (∀ o ∈ raw, waiting.find? o.key = pending.find? o.key) →
        (applyFrom deleted s waiting raw).outcome >>= (fun p => .ok p.kept) =
          (raw.filter (·.key ∉ deleted)).mapM fun o => o.adjust (pending.find? o.key) s from
    hrun pending fun _ _ => rfl
  induction raw with
  | nil => exact fun _ _ => rfl
  | cons o raw ih =>
    intro waiting hwaiting
    obtain ⟨hnew, hkeys⟩ := List.nodup_cons.mp hkeys
    have hrest : ∀ o' ∈ raw, (waiting.erase o.key).find? o'.key = pending.find? o'.key := by
      intro o' ho'
      rw [OrderedMap.find?_erase_of_ne, hwaiting o' (List.mem_cons_of_mem _ ho')]
      intro heq
      exact hnew (heq ▸ List.mem_map_of_mem ho')
    rw [outcome_applyFrom_cons, hwaiting o List.mem_cons_self]
    by_cases hdeleted : o.key ∈ deleted
    · rw [if_pos hdeleted, List.filter_cons_of_neg (by simpa using hdeleted),
        ← ih hkeys _ hrest, bind_assoc]
      rfl
    · rw [if_neg hdeleted, List.filter_cons_of_pos (by simpa using hdeleted), List.mapM_cons,
        ← ih hkeys _ hrest]
      simp only [bind_assoc, ok_bind, pure_eq_ok]

/-! ## The overlay -/

theorem outcome_apply (raw : List Occurrence) (deletions : List ExceptionKey)
    (modifications : Modifications) (s : Option Series) :
    (apply raw deletions modifications s).outcome =
      (applyFrom (deletionKeys deletions) s modifications.index raw).outcome >>= fun p =>
        .ok ⟨p.kept, p.pending.values⟩ := by
  simp only [apply, Traced.outcome_bind, Traced.outcome_noteAll, Traced.outcome_pure, ok_bind]

theorem apply_eq_ok_iff {deletions : List ExceptionKey} {modifications : Modifications}
    {overlay : Overlay} : (apply raw deletions modifications s).outcome = .ok overlay ↔
      ∃ p, (applyFrom (deletionKeys deletions) s modifications.index raw).outcome = .ok p ∧
        overlay = ⟨p.kept, p.pending.values⟩ := by
  rw [outcome_apply, bind_eq_ok_iff]
  simp only [Except.ok.injEq, eq_comm]

end Overlay

end EventCalendar
