/-
  EventCalendar.Proofs.Outcome

  Chains of computations that may fail: a chain gives a result if and only if
  all its links do.
-/

import EventCalendar.Traced
import Mathlib.Data.List.Forall2

namespace EventCalendar

variable {ε ε' α β γ : Type}

instance decidableEqExcept [DecidableEq ε] [DecidableEq α] : DecidableEq (Except ε α)
  | .ok _, .ok _ => decidable_of_iff _ (Except.ok.injEq ..).symm.to_iff
  | .error _, .error _ => decidable_of_iff _ (Except.error.injEq ..).symm.to_iff
  | .ok _, .error _ => isFalse fun h => by cases h
  | .error _, .ok _ => isFalse fun h => by cases h

@[simp] theorem pure_eq_ok (a : α) : (pure a : Except ε α) = .ok a := rfl

@[simp] theorem ok_bind (a : α) (f : α → Except ε β) : (Except.ok a >>= f) = f a := rfl

@[simp] theorem error_bind (e : ε) (f : α → Except ε β) : (Except.error e >>= f) = .error e := rfl

theorem not_exists_eq_ok {x : Except ε α} {e : ε} (h : x = .error e) : ¬ ∃ a, x = .ok a := by
  simp [h]

/-- A chain gives a result if its first link gives one and the rest goes on from there. -/
theorem bind_eq_ok_iff {x : Except ε α} {f : α → Except ε β} {b : β} :
    x >>= f = .ok b ↔ ∃ a, x = .ok a ∧ f a = .ok b := by
  cases x <;> simp

/-- A chain gives a result if its first link does, where the rest always does. -/
theorem exists_bind_eq_ok_iff {x : Except ε α} {f : α → Except ε β}
    (h : ∀ a, x = .ok a → ∃ b, f a = .ok b) :
    (∃ b, x >>= f = .ok b) ↔ ∃ a, x = .ok a := by
  constructor
  · rintro ⟨b, hb⟩
    obtain ⟨a, ha, -⟩ := bind_eq_ok_iff.mp hb
    exact ⟨a, ha⟩
  · rintro ⟨a, ha⟩
    obtain ⟨b, hb⟩ := h a ha
    exact ⟨b, bind_eq_ok_iff.mpr ⟨a, ha, hb⟩⟩

/-- What is made of a result is made of one that there is. -/
theorem map_eq_ok_iff {x : Except ε α} {f : α → β} {b : β} :
    x.map f = .ok b ↔ ∃ a, x = .ok a ∧ f a = b := by
  cases x <;> simp [Except.map]

@[simp] theorem mapError_ok (f : ε → ε') (a : α) :
    (Except.ok a : Except ε α).mapError f = .ok a := rfl

@[simp] theorem mapError_error (f : ε → ε') (e : ε) :
    (Except.error e : Except ε α).mapError f = .error (f e) := rfl

theorem mapError_eq_ok_iff {f : ε → ε'} {x : Except ε α} {a : α} :
    x.mapError f = .ok a ↔ x = .ok a := by
  cases x <;> simp

theorem toOption_eq_some_iff {x : Except ε α} {a : α} : x.toOption = some a ↔ x = .ok a := by
  cases x <;> simp [Except.toOption]

theorem mapError_bind (f : ε → ε') (x : Except ε α) (g : α → Except ε β) :
    (x >>= g).mapError f = x.mapError f >>= fun a => (g a).mapError f := by
  cases x <;> rfl

/-- The results of a list are those of its elements. -/
theorem mem_of_mapM_eq_ok {f : α → Except ε β} {l : List α} {r : List β} (h : l.mapM f = .ok r)
    {b : β} : b ∈ r ↔ ∃ a ∈ l, f a = .ok b := by
  induction l generalizing r with
  | nil =>
    cases h
    simp
  | cons a l ih =>
    rw [List.mapM_cons] at h
    obtain ⟨b', hb', h⟩ := bind_eq_ok_iff.mp h
    obtain ⟨r', hr', h⟩ := bind_eq_ok_iff.mp h
    cases h
    rw [List.mem_cons, ih hr']
    constructor
    · rintro (rfl | ⟨a', ha', hf⟩)
      · exact ⟨a, List.mem_cons_self, hb'⟩
      · exact ⟨a', List.mem_cons_of_mem a ha', hf⟩
    · rintro ⟨a', ha', hf⟩
      rcases List.mem_cons.mp ha' with rfl | ha'
      · rw [hb', Except.ok.injEq] at hf
        exact .inl hf.symm
      · exact .inr ⟨a', ha', hf⟩

/-- A list of one element gives the result of that element. -/
theorem mapM_singleton_eq_ok_iff {f : α → Except ε β} {a : α} {r : List β} :
    [a].mapM f = .ok r ↔ ∃ b, f a = .ok b ∧ r = [b] := by
  rw [List.mapM_cons, bind_eq_ok_iff]
  simp [eq_comm]

/-- A list gives results if all its elements do. -/
theorem exists_mapM_eq_ok_iff {f : α → Except ε β} {l : List α} :
    (∃ r, l.mapM f = .ok r) ↔ ∀ a ∈ l, ∃ b, f a = .ok b := by
  induction l with
  | nil => simp
  | cons a l ih =>
    rw [List.forall_mem_cons, ← ih, List.mapM_cons]
    constructor
    · rintro ⟨r, h⟩
      obtain ⟨b, hb, h⟩ := bind_eq_ok_iff.mp h
      obtain ⟨r', hr', -⟩ := bind_eq_ok_iff.mp h
      exact ⟨⟨b, hb⟩, r', hr'⟩
    · rintro ⟨⟨b, hb⟩, r', hr'⟩
      exact ⟨b :: r', by rw [hb, ok_bind, hr', ok_bind, pure_eq_ok]⟩

/-- The results of a list stand behind those of the list before it. -/
theorem mapM_append_eq_ok_iff {f : α → Except ε β} {l l' : List α} {r : List β} :
    (l ++ l').mapM f = .ok r ↔
      ∃ r₁ r₂, l.mapM f = .ok r₁ ∧ l'.mapM f = .ok r₂ ∧ r = r₁ ++ r₂ := by
  rw [List.mapM_append]
  simp only [bind_eq_ok_iff, pure_eq_ok, Except.ok.injEq, eq_comm (b := r)]
  exact exists_congr fun r₁ => by simp

/-- The results of a list stand in the places of its elements. -/
theorem mapM_eq_ok_iff_forall₂ {f : α → Except ε β} {l : List α} {r : List β} :
    l.mapM f = .ok r ↔ List.Forall₂ (fun a b => f a = .ok b) l r := by
  induction l generalizing r with
  | nil => simp [eq_comm]
  | cons a l ih =>
    rw [List.mapM_cons, bind_eq_ok_iff, List.forall₂_cons_left_iff]
    constructor
    · rintro ⟨b, hb, h⟩
      obtain ⟨r', hr', h⟩ := bind_eq_ok_iff.mp h
      cases h
      exact ⟨b, r', hb, ih.mp hr', rfl⟩
    · rintro ⟨b, r', hb, hr', rfl⟩
      exact ⟨b, hb, bind_eq_ok_iff.mpr ⟨r', ih.mpr hr', rfl⟩⟩

/-- What each result has of its element the results have of the list. -/
theorem map_eq_of_mapM_eq_ok {f : α → Except ε β} {g : β → γ} {k : α → γ} {l : List α} {r : List β}
    (hsame : ∀ a ∈ l, ∀ b, f a = .ok b → g b = k a) (h : l.mapM f = .ok r) :
    r.map g = l.map k := by
  induction l generalizing r with
  | nil =>
    cases h
    rfl
  | cons a l ih =>
    rw [List.mapM_cons] at h
    obtain ⟨b, hb, h⟩ := bind_eq_ok_iff.mp h
    obtain ⟨r', hr', h⟩ := bind_eq_ok_iff.mp h
    cases h
    rw [List.map_cons, List.map_cons, hsame a List.mem_cons_self b hb,
      ih (fun a' ha' => hsame a' (List.mem_cons_of_mem a ha')) hr']

/-- The elements that pass a test give the results that do, if each result passes with its
    element. -/
theorem mapM_filter_eq_ok {f : α → Except ε β} {l : List α} {r : List β} {P : α → Bool}
    {Q : β → Bool} (hsame : ∀ a ∈ l, ∀ b, f a = .ok b → Q b = P a) (h : l.mapM f = .ok r) :
    (l.filter P).mapM f = .ok (r.filter Q) := by
  induction l generalizing r with
  | nil =>
    cases h
    rfl
  | cons a l ih =>
    rw [List.mapM_cons] at h
    obtain ⟨b, hb, h⟩ := bind_eq_ok_iff.mp h
    obtain ⟨r', hr', h⟩ := bind_eq_ok_iff.mp h
    cases h
    have hrest := ih (fun a' ha' => hsame a' (List.mem_cons_of_mem a ha')) hr'
    have hhead := hsame a List.mem_cons_self b hb
    cases hP : P a with
    | false =>
      rw [List.filter_cons_of_neg (by simp [hP]), List.filter_cons_of_neg (by simp [hhead, hP])]
      exact hrest
    | true =>
      rw [List.filter_cons_of_pos hP, List.filter_cons_of_pos (hhead.trans hP), List.mapM_cons,
        hb, ok_bind, hrest]
      rfl

/-- Two computations on each element, one list after the other, are one chain on each element. -/
theorem mapM_bind_eq_ok {f : α → Except ε β} {g : β → Except ε γ} {l : List α} {r : List β}
    {t : List γ} (hf : l.mapM f = .ok r) (hg : r.mapM g = .ok t) :
    l.mapM (fun a => f a >>= g) = .ok t := by
  induction l generalizing r t with
  | nil =>
    cases hf
    exact hg
  | cons a l ih =>
    rw [List.mapM_cons] at hf
    obtain ⟨b, hb, hf⟩ := bind_eq_ok_iff.mp hf
    obtain ⟨r', hr', hf⟩ := bind_eq_ok_iff.mp hf
    cases hf
    rw [List.mapM_cons] at hg
    obtain ⟨c, hc, hg⟩ := bind_eq_ok_iff.mp hg
    obtain ⟨t', ht', hg⟩ := bind_eq_ok_iff.mp hg
    cases hg
    rw [List.mapM_cons, hb, ok_bind, hc, ok_bind, ih hr' ht']
    rfl

/-- In another order a list gives the same results in that order. -/
theorem exists_mapM_eq_ok_of_perm {f : α → Except ε β} {l l' : List α} {r : List β}
    (hperm : l.Perm l') (h : l.mapM f = .ok r) : ∃ r', l'.mapM f = .ok r' ∧ r.Perm r' := by
  induction hperm generalizing r with
  | nil => exact ⟨r, h, .refl r⟩
  | cons a _ ih =>
    rw [List.mapM_cons] at h
    obtain ⟨b, hb, h⟩ := bind_eq_ok_iff.mp h
    obtain ⟨r', hr', h⟩ := bind_eq_ok_iff.mp h
    cases h
    obtain ⟨r'', hr'', hsame⟩ := ih hr'
    exact ⟨b :: r'', by rw [List.mapM_cons, hb, ok_bind, hr'']; rfl, hsame.cons b⟩
  | swap a a' l =>
    simp only [List.mapM_cons] at h
    obtain ⟨b', hb', h⟩ := bind_eq_ok_iff.mp h
    obtain ⟨r', hr', h⟩ := bind_eq_ok_iff.mp h
    obtain ⟨b, hb, hr'⟩ := bind_eq_ok_iff.mp hr'
    obtain ⟨r'', hr'', hr'⟩ := bind_eq_ok_iff.mp hr'
    cases hr'
    cases h
    refine ⟨b :: b' :: r'', ?_, .swap b b' r''⟩
    simp only [List.mapM_cons, hb, hb', hr'', ok_bind]
    rfl
  | trans _ _ ih ih' =>
    obtain ⟨r', hr', hsame⟩ := ih h
    obtain ⟨r'', hr'', hsame'⟩ := ih' hr'
    exact ⟨r'', hr'', hsame.trans hsame'⟩

/-- The outcome of a run is the run of the outcomes. -/
theorem Traced.outcome_foldlM (f : β → α → Traced ε β) (b : β) (l : List α) :
    (l.foldlM f b).outcome = l.foldlM (fun b a => (f b a).outcome) b := by
  induction l generalizing b with
  | nil => rfl
  | cons a l ih =>
    rw [List.foldlM_cons, List.foldlM_cons, Traced.outcome_bind]
    cases (f b a).outcome with
    | error e => rfl
    | ok b' => exact ih b'

end EventCalendar
