/-
  EventCalendar.Proofs.RunSort.Exchange

  How a list is put in order.  Neighbouring parts that are in order themselves
  change places where the last element of the second one comes before the first
  element of the first one.  Nothing is asked of the other elements; where an
  order can be relied on, all of the second part come before all of the first.
-/

import Mathlib.Data.List.Chain
import Mathlib.Logic.Relation

namespace EventCalendar.RunSort

variable {α : Type} {lt : α → α → Bool} {l l' : List α}

/-! ## Ascending lists -/

/-- No element of a list comes before the one in front of it. -/
def Ascends (lt : α → α → Bool) (l : List α) : Prop := l.IsChain fun a b => lt b a = false

/-- Of two elements at most one comes before the other. -/
def Asymmetric (lt : α → α → Bool) : Prop := ∀ a b, lt a b = true → lt b a = false

theorem Ascends.nil : Ascends lt [] := List.IsChain.nil

theorem Ascends.singleton (a : α) : Ascends lt [a] := List.IsChain.singleton a

theorem ascends_append : Ascends lt (l ++ l') ↔ Ascends lt l ∧ Ascends lt l' ∧
    ∀ a ∈ l.getLast?, ∀ b ∈ l'.head?, lt b a = false :=
  List.isChain_append

theorem ascends_reverse : Ascends (fun a b => lt b a) l.reverse ↔ Ascends lt l :=
  List.isChain_reverse

/-! ## Exchanges -/

/-- Two neighbouring parts of a list change places. -/
inductive Exchange (lt : α → α → Bool) : List α → List α → Prop where
  | intro (before after : List α) {first second : List α} (hfirst : Ascends lt first)
      (hsecond : Ascends lt second)
      (h : ∀ b ∈ second.getLast?, ∀ a ∈ first.head?, lt b a = true) :
      Exchange lt (before ++ first ++ second ++ after) (before ++ second ++ first ++ after)

/-- A list is made of another one by exchanges. -/
def Rearranges (lt : α → α → Bool) : List α → List α → Prop := Relation.ReflTransGen (Exchange lt)

namespace Rearranges

theorem refl (l : List α) : Rearranges lt l l := Relation.ReflTransGen.refl

theorem trans {l₁ l₂ l₃ : List α} (h : Rearranges lt l₁ l₂) (h' : Rearranges lt l₂ l₃) :
    Rearranges lt l₁ l₃ :=
  Relation.ReflTransGen.trans h h'

theorem exchange {first second : List α} (hfirst : Ascends lt first) (hsecond : Ascends lt second)
    (h : ∀ b ∈ second.getLast?, ∀ a ∈ first.head?, lt b a = true) :
    Rearranges lt (first ++ second) (second ++ first) := by
  have hexchange := Exchange.intro [] [] hfirst hsecond h
  rw [List.nil_append, List.nil_append, List.append_nil, List.append_nil] at hexchange
  exact .single hexchange

/-- What stands around a part of a list does not matter. -/
theorem within (h : Rearranges lt l l') (before after : List α) :
    Rearranges lt (before ++ l ++ after) (before ++ l' ++ after) := by
  refine Relation.ReflTransGen.lift (fun l => before ++ l ++ after) ?_ l l' h
  rintro _ _ ⟨before', after', hfirst, hsecond, hcross⟩
  have hexchange := Exchange.intro (before ++ before') (after' ++ after) hfirst hsecond hcross
  simpa only [Function.onFun, List.append_assoc] using hexchange

theorem append_left (h : Rearranges lt l l') (before : List α) :
    Rearranges lt (before ++ l) (before ++ l') := by
  have hwithin := h.within before []
  rwa [List.append_nil, List.append_nil] at hwithin

theorem append_right (h : Rearranges lt l l') (after : List α) :
    Rearranges lt (l ++ after) (l' ++ after) := h.within [] after

/-- Seen from the back, elements come before each other the other way round. -/
theorem reverse (h : Rearranges lt l l') :
    Rearranges (fun a b => lt b a) l.reverse l'.reverse := by
  refine Relation.ReflTransGen.lift List.reverse ?_ l l' h
  rintro _ _ ⟨before, after, hfirst, hsecond, hcross⟩
  have hexchange := Exchange.intro after.reverse before.reverse (ascends_reverse.mpr hsecond)
    (ascends_reverse.mpr hfirst) (by
      intro a ha b hb
      rw [List.getLast?_reverse] at ha
      rw [List.head?_reverse] at hb
      exact hcross b hb a ha)
  simpa only [Function.onFun, List.reverse_append, List.append_assoc] using hexchange

theorem perm (h : Rearranges lt l l') : l'.Perm l := by
  induction h with
  | refl => exact .refl _
  | tail _ hexchange ih =>
    obtain ⟨before, after, -, -, -⟩ := hexchange
    refine .trans (.append_right _ ?_) ih
    rw [List.append_assoc, List.append_assoc]
    exact .append_left _ List.perm_append_comm

end Rearranges

end EventCalendar.RunSort
