/-
  EventCalendar.Proofs.StableSort

  Sorting by an order in which different elements can tie.  Tied elements keep
  their order, and a sorted list is determined by the order in which it has
  those that tie.
-/

import Mathlib.Data.List.Basic

namespace EventCalendar

variable {α : Type}

/-- Neither of two elements comes before the other. -/
def tied (le : α → α → Bool) (a b : α) : Bool := le a b && le b a

/-- Any two elements are in order, one way round at least, and so are the first and the last of
    three. -/
structure IsPreorder (le : α → α → Bool) : Prop where
  trans : ∀ a b c, le a b = true → le b c = true → le a c = true
  total : ∀ a b, (le a b || le b a) = true

section

variable {le : α → α → Bool} (hle : IsPreorder le)

include hle

theorem le_self (a : α) : le a a = true := by
  have htotal := hle.total a a
  rwa [Bool.or_self] at htotal

theorem tied_self (a : α) : tied le a a = true := by
  rw [tied, le_self hle, Bool.and_self]

theorem le_of_mem_head? {l : List α} (hl : l.Pairwise fun a b => le a b = true) {a b : α}
    (ha : a ∈ l.head?) (hb : b ∈ l) : le a b = true := by
  obtain ⟨rest, rfl⟩ := List.head?_eq_some_iff.mp ha
  rcases List.mem_cons.mp hb with rfl | hb
  · exact le_self hle b
  · exact List.rel_of_pairwise_cons hl hb

theorem le_of_mem_getLast? {l : List α} (hl : l.Pairwise fun a b => le a b = true) {a b : α}
    (ha : a ∈ l) (hb : b ∈ l.getLast?) : le a b = true := by
  obtain ⟨front, rfl⟩ := List.getLast?_eq_some_iff.mp hb
  rcases List.mem_append.mp ha with ha | ha
  · exact (List.pairwise_append.mp hl).2.2 a ha b (List.mem_singleton_self b)
  · rw [List.mem_singleton.mp ha]
    exact le_self hle b

/-- Tied elements stand in their old order. -/
theorem filter_tied_mergeSort (a : α) (l : List α) :
    (l.mergeSort le).filter (tied le a) = l.filter (tied le a) := by
  -- they are in order as they stand, so that they are found in the sorted list
  have hordered : (l.filter (tied le a)).Pairwise fun b c => le b c = true := by
    apply List.pairwise_of_forall_mem_list
    intro b hb c hc
    have hba := (Bool.and_eq_true_iff.mp (List.mem_filter.mp hb).2).2
    have hac := (Bool.and_eq_true_iff.mp (List.mem_filter.mp hc).2).1
    exact hle.trans b a c hba hac
  have hsub : (l.filter (tied le a)).Sublist (l.mergeSort le) :=
    List.sublist_mergeSort hle.trans hle.total hordered List.filter_sublist
  have hfiltered : (l.filter (tied le a)).Sublist ((l.mergeSort le).filter (tied le a)) := by
    have hsub := hsub.filter (tied le a)
    rwa [List.filter_filter, List.filter_congr fun b _ => Bool.and_self _] at hsub
  exact (hfiltered.eq_of_length
    (((List.mergeSort_perm l le).filter (tied le a)).length_eq).symm).symm

/-- Two sorted lists are equal if they have tied elements in the same order. -/
theorem eq_of_filter_tied_eq {l l' : List α} (h : l.Pairwise fun a b => le a b = true)
    (h' : l'.Pairwise fun a b => le a b = true)
    (hties : ∀ a, l.filter (tied le a) = l'.filter (tied le a)) : l = l' := by
  have hsubset {l l' : List α} (hties : ∀ a, l.filter (tied le a) = l'.filter (tied le a)) {a : α}
      (ha : a ∈ l) : a ∈ l' := by
    have hmem : a ∈ l'.filter (tied le a) :=
      hties a ▸ List.mem_filter.mpr ⟨ha, tied_self hle a⟩
    exact (List.mem_filter.mp hmem).1
  induction l generalizing l' with
  | nil =>
    cases l' with
    | nil => rfl
    | cons b l' => exact absurd (hsubset (fun a => (hties a).symm) List.mem_cons_self) (by simp)
  | cons a l ih =>
    cases l' with
    | nil => exact absurd (hsubset hties List.mem_cons_self) (by simp)
    | cons b l' =>
      -- each of the two heads comes first, so that they tie
      have hab : tied le a b = true := by
        rw [tied, Bool.and_eq_true]
        exact ⟨le_of_mem_head? hle h rfl (hsubset (fun a => (hties a).symm) List.mem_cons_self),
          le_of_mem_head? hle h' rfl (hsubset hties List.mem_cons_self)⟩
      have hheads := hties a
      rw [List.filter_cons_of_pos (tied_self hle a), List.filter_cons_of_pos hab,
        List.cons.injEq] at hheads
      obtain ⟨rfl, -⟩ := hheads
      rw [ih (List.pairwise_cons.mp h).2 (List.pairwise_cons.mp h').2 fun c => ?_]
      have htail := hties c
      rw [List.filter_cons, List.filter_cons] at htail
      split at htail
      · exact (List.cons.inj htail).2
      · exact htail

/-- Lists that have tied elements in the same order are sorted alike. -/
theorem mergeSort_eq_of_filter_tied_eq {l l' : List α}
    (hties : ∀ a, l.filter (tied le a) = l'.filter (tied le a)) :
    l.mergeSort le = l'.mergeSort le := by
  refine eq_of_filter_tied_eq hle (List.pairwise_mergeSort hle.trans hle.total l)
    (List.pairwise_mergeSort hle.trans hle.total l') fun a => ?_
  rw [filter_tied_mergeSort hle, filter_tied_mergeSort hle, hties]

/-- It makes no difference whether some elements are left out before or after sorting. -/
theorem filter_mergeSort (P : α → Bool) (l : List α) :
    (l.mergeSort le).filter P = (l.filter P).mergeSort le := by
  refine eq_of_filter_tied_eq hle
    ((List.pairwise_mergeSort hle.trans hle.total l).sublist List.filter_sublist)
    (List.pairwise_mergeSort hle.trans hle.total _) fun a => ?_
  rw [List.filter_comm, filter_tied_mergeSort hle, filter_tied_mergeSort hle, List.filter_comm]

end

/-- An order of the elements of a list goes on to all others if they all come last. -/
theorem exists_isPreorder (le : α → α → Bool) {l : List α}
    (htrans : ∀ a ∈ l, ∀ b ∈ l, ∀ c ∈ l, le a b = true → le b c = true → le a c = true)
    (htotal : ∀ a ∈ l, ∀ b ∈ l, (le a b || le b a) = true) :
    ∃ le', IsPreorder le' ∧ ∀ a ∈ l, ∀ b ∈ l, le a b = le' a b := by
  classical
  refine ⟨fun a b => decide (b ∈ l → a ∈ l ∧ le a b = true), ⟨?_, ?_⟩, ?_⟩
  · intro a b c hab hbc
    rw [decide_eq_true_eq] at hab hbc ⊢
    intro hc
    obtain ⟨hb, hbc⟩ := hbc hc
    obtain ⟨ha, hab⟩ := hab hb
    exact ⟨ha, htrans a ha b hb c hc hab hbc⟩
  · intro a b
    rw [Bool.or_eq_true, decide_eq_true_eq, decide_eq_true_eq]
    by_cases ha : a ∈ l
    · by_cases hb : b ∈ l
      · have htotal := Bool.or_eq_true_iff.mp (htotal a ha b hb)
        exact htotal.imp (fun h _ => ⟨ha, h⟩) fun h _ => ⟨hb, h⟩
      · exact .inl fun h => absurd h hb
    · exact .inr fun h => absurd h ha
  · intro a ha b hb
    simp [ha, hb]

end EventCalendar
