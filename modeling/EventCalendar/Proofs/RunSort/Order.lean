/-
  EventCalendar.Proofs.RunSort.Order

  Sorting where the elements of a list can be put in one order.  Neighbours in
  order are then all elements in order, and an exchange never passes two tied
  elements by each other, so that sorting by runs gives what merge sort does.
-/

import EventCalendar.Proofs.RunSort.Runs
import EventCalendar.Proofs.StableSort

namespace EventCalendar.RunSort

variable {α : Type} {lt le : α → α → Bool} {l l' : List α}

section

variable (hle : IsPreorder le)

include hle

theorem Ascends.pairwise (hl : Ascends lt l)
    (h : ∀ a ∈ l, ∀ b ∈ l, (!lt b a) = le a b) : l.Pairwise fun a b => le a b = true := by
  have hchain : l.IsChain fun a b => le a b = true := by
    refine List.IsChain.imp_of_mem_imp (fun a b ha hb hab => ?_) hl
    rw [← h a ha b hb, hab, Bool.not_false]
  have : Trans (fun a b => le a b = true) (fun a b => le a b = true) fun a b => le a b = true :=
    ⟨hle.trans _ _ _⟩
  exact List.isChain_iff_pairwise.mp hchain

/-- All elements of one of two parts come before all of the other one, if its last element comes
    before the first one. -/
theorem not_le_of_cross {first second : List α} (hfirst : first.Pairwise fun a b => le a b = true)
    (hsecond : second.Pairwise fun a b => le a b = true)
    (hcross : ∀ b ∈ second.getLast?, ∀ a ∈ first.head?, le a b = false) :
    ∀ a ∈ first, ∀ b ∈ second, le a b = false := by
  intro a ha b hb
  have htop := List.head?_eq_some_head (List.ne_nil_of_mem ha)
  have hbottom := List.getLast?_eq_some_getLast (List.ne_nil_of_mem hb)
  rw [← Bool.not_eq_true]
  intro hab
  have hahead := hle.trans _ _ _ (le_of_mem_head? hle hfirst htop ha) hab
  have hends := hle.trans _ _ _ hahead (le_of_mem_getLast? hle hsecond hb hbottom)
  rw [hcross _ hbottom _ htop] at hends
  cases hends

/-- Of two parts only one has elements that tie with a given one. -/
theorem filter_tied_append_comm {first second : List α}
    (hsplit : ∀ a ∈ first, ∀ b ∈ second, le a b = false) (c : α) :
    (second ++ first).filter (tied le c) = (first ++ second).filter (tied le c) := by
  rw [List.filter_append, List.filter_append]
  rcases eq_or_ne (first.filter (tied le c)) [] with hnone | hsome
  · rw [hnone, List.append_nil, List.nil_append]
  · obtain ⟨a, ha⟩ := List.exists_mem_of_ne_nil _ hsome
    rw [List.mem_filter, tied, Bool.and_eq_true] at ha
    have hnone : second.filter (tied le c) = [] := by
      rw [List.filter_eq_nil_iff]
      intro b hb hcb
      have hab := hle.trans a c b ha.2.2 (Bool.and_eq_true_iff.mp hcb).1
      rw [hsplit a ha.1 b hb] at hab
      cases hab
    rw [hnone, List.append_nil, List.nil_append]

/-- An exchange leaves tied elements in their order. -/
theorem Exchange.filter_tied (hexchange : Exchange lt l l')
    (h : ∀ a ∈ l, ∀ b ∈ l, (!lt b a) = le a b) (c : α) :
    l'.filter (tied le c) = l.filter (tied le c) := by
  obtain @⟨before, after, first, second, hfirst, hsecond, hcross⟩ := hexchange
  have hcross' : ∀ b ∈ second.getLast?, ∀ a ∈ first.head?, le a b = false := by
    intro b hb a ha
    have hmem : a ∈ first ∧ b ∈ second := ⟨List.mem_of_mem_head? ha, List.mem_of_mem_getLast? hb⟩
    rw [← h a (by simp [hmem]) b (by simp [hmem]), hcross b hb a ha, Bool.not_true]
  have hsplit := not_le_of_cross hle
    (hfirst.pairwise hle fun a ha b hb => h a (by simp [ha]) b (by simp [hb]))
    (hsecond.pairwise hle fun a ha b hb => h a (by simp [ha]) b (by simp [hb])) hcross'
  have hparts := filter_tied_append_comm hle hsplit c
  simp only [List.append_assoc before]
  simp only [List.filter_append before, List.filter_append _ after, hparts]

theorem Rearranges.filter_tied (hreached : Rearranges lt l l')
    (h : ∀ a ∈ l, ∀ b ∈ l, (!lt b a) = le a b) (c : α) :
    l'.filter (tied le c) = l.filter (tied le c) := by
  induction hreached with
  | refl => rfl
  | tail hreached hexchange ih =>
    refine (hexchange.filter_tied hle (fun a ha b hb => ?_) c).trans ih
    have hperm := Rearranges.perm hreached
    exact h a (hperm.mem_iff.mp ha) b (hperm.mem_iff.mp hb)

/-- Sorting by runs gives what merge sort does, if the elements can be put in one order. -/
theorem sort_eq_mergeSort (hasymm : Asymmetric lt)
    (h : ∀ a ∈ l, ∀ b ∈ l, (!lt b a) = le a b) : sort lt l = l.mergeSort le := by
  obtain ⟨hascends, hreached⟩ := sort_spec hasymm l
  have hsorted := hascends.pairwise hle fun a ha b hb =>
    h a (hreached.perm.mem_iff.mp ha) b (hreached.perm.mem_iff.mp hb)
  refine eq_of_filter_tied_eq hle hsorted (List.pairwise_mergeSort hle.trans hle.total l) ?_
  intro a
  rw [hreached.filter_tied hle h, filter_tied_mergeSort hle]

end

/-- It makes no difference whether some elements are left out before or after sorting, if the
    elements of the list can be put in one order, whatever holds of others. -/
theorem filter_sort (hasymm : Asymmetric lt)
    (htrans : ∀ a ∈ l, ∀ b ∈ l, ∀ c ∈ l, lt b a = false → lt c b = false → lt c a = false)
    (P : α → Bool) : (sort lt l).filter P = sort lt (l.filter P) := by
  have htotal : ∀ a ∈ l, ∀ b ∈ l, (!lt b a || !lt a b) = true := by
    intro a _ b _
    cases hba : lt b a with
    | false => rfl
    | true =>
      rw [hasymm b a hba]
      rfl
  obtain ⟨le, hle, h⟩ := exists_isPreorder (fun a b => !lt b a)
    (by simpa only [Bool.not_eq_true'] using htrans) htotal
  rw [sort_eq_mergeSort hle hasymm h, filter_mergeSort hle]
  refine (sort_eq_mergeSort hle hasymm fun a ha b hb => ?_).symm
  exact h a (List.mem_of_mem_filter ha) b (List.mem_of_mem_filter hb)

end EventCalendar.RunSort
