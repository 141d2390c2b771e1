/-
  EventCalendar.Proofs.Record.Candidates

  The components of a document in the order in which an import takes them: by
  the texts of their starts, and in the order of the document where these are
  the same.  Of the components with one identifier the one that comes before all
  others leads them, and it alone is tried.
-/

import EventCalendar.Proofs.Record.Import
import Mathlib.Data.List.Nodup

namespace EventCalendar

open EventCalendar.Ics

/-! ## Candidates -/

/-- A component of a document, with its place there and the identifier it is imported under. -/
structure Candidate where
  uid : String
  component : Component
  place : Nat

namespace Candidate

variable {a b : Candidate}

/-- The start text of a candidate comes before that of another one, or the texts are the same and
    its place does. -/
def Precedes (a b : Candidate) : Prop :=
  a.component.startText < b.component.startText ∨
    a.component.startText = b.component.startText ∧ a.place < b.place

/-- A candidate precedes all others with its identifier. -/
def Leads (e : Candidate) (l : List Candidate) : Prop :=
  e ∈ l ∧ ∀ e' ∈ l, e'.uid = e.uid → e' = e ∨ e.Precedes e'

theorem Precedes.asymm (h : a.Precedes b) : ¬ b.Precedes a := by
  rintro (hlt | ⟨heq, hplace⟩)
  · rcases h with hlt' | ⟨heq', -⟩
    · exact String.lt_asymm hlt hlt'
    · rw [heq'] at hlt
      exact String.lt_irrefl _ hlt
  · rcases h with hlt' | ⟨-, hplace'⟩
    · rw [heq] at hlt'
      exact String.lt_irrefl _ hlt'
    · omega

end Candidate

/-! ## The order of import -/

/-- The components of a document with their places, in the order of import. -/
def ranked (components : List Component) : List (Component × Nat) :=
  components.zipIdx.mergeSort
    (List.zipIdxLE fun a b => decide (a.startText ≤ b.startText))

/-- The candidates of a document, in the order of import. -/
def candidates (components : List Component) : List Candidate :=
  (ranked components).zipIdx.map fun (entry, rank) => ⟨entry.1.uid rank, entry.1, entry.2⟩

section Order

variable {components : List Component} {p : Nat} {c : Component}

theorem map_fst_ranked (components : List Component) :
    (ranked components).map (·.1) = importOrder components :=
  List.mergeSort_zipIdx

theorem ranked_perm (components : List Component) :
    (ranked components).Perm components.zipIdx :=
  List.mergeSort_perm _ _

/-- The candidates are what an import takes. -/
theorem map_candidates (components : List Component) :
    (candidates components).map (fun e => (e.uid, e.component)) = identified components := by
  rw [identified, ← map_fst_ranked, List.zipIdx_map, candidates, List.map_map, List.map_map]
  rfl

/-- The candidates are the components of the document, each of them once. -/
theorem candidates_perm (components : List Component) :
    ((candidates components).map fun e => (e.component, e.place)).Perm components.zipIdx := by
  have hmap : ((candidates components).map fun e => (e.component, e.place)) =
      (ranked components).zipIdx.map Prod.fst := by
    rw [candidates, List.map_map]
    rfl
  rw [hmap, List.zipIdx_map_fst]
  exact ranked_perm components

theorem length_candidates (components : List Component) :
    (candidates components).length = components.length := by
  have hlength := (candidates_perm components).length_eq
  rwa [List.length_map, List.length_zipIdx] at hlength

/-- A candidate stands in the document at its place. -/
theorem getElem?_of_mem_candidates {e : Candidate} (h : e ∈ candidates components) :
    components[e.place]? = some e.component := by
  have hmem := (candidates_perm components).mem_iff.mp (List.mem_map_of_mem h)
  exact List.mem_zipIdx_iff_getElem?.mp hmem

theorem uid_of_text? {uid : String} (huid : c.text? "UID" = some uid) (hnonempty : uid ≠ "")
    (rank : Nat) : c.uid rank = uid := by
  rw [Component.uid, huid]
  exact if_neg hnonempty

/-- A component with an identifier of its own is a candidate under it. -/
theorem mem_candidates_of_getElem? {uid : String} (hplace : components[p]? = some c)
    (huid : c.text? "UID" = some uid) (hnonempty : uid ≠ "") :
    ⟨uid, c, p⟩ ∈ candidates components := by
  have hzip : (c, p) ∈ components.zipIdx := List.mem_zipIdx_iff_getElem?.mpr hplace
  have hranked := (ranked_perm components).mem_iff.mpr hzip
  obtain ⟨rank, hrank⟩ := List.mem_iff_getElem?.mp hranked
  have hentry : ((c, p), rank) ∈ (ranked components).zipIdx :=
    List.mem_zipIdx_iff_getElem?.mpr hrank
  exact List.mem_map.mpr
    ⟨_, hentry, congrArg (Candidate.mk · c p) (uid_of_text? huid hnonempty rank)⟩

/-- The components stand in the order of their start texts and, where these are the same, in that of
    their places. -/
theorem pairwise_ranked (components : List Component) :
    (ranked components).Pairwise fun x y => x.1.startText < y.1.startText ∨
      x.1.startText = y.1.startText ∧ x.2 < y.2 := by
  have htrans : ∀ a b c : Component, decide (a.startText ≤ b.startText) = true →
      decide (b.startText ≤ c.startText) = true → decide (a.startText ≤ c.startText) = true := by
    intro a b c hab hbc
    rw [decide_eq_true_eq] at hab hbc ⊢
    exact String.le_trans hab hbc
  have htotal : ∀ a b : Component,
      (decide (a.startText ≤ b.startText) || decide (b.startText ≤ a.startText)) = true := by
    intro a b
    rw [Bool.or_eq_true, decide_eq_true_eq, decide_eq_true_eq]
    exact String.le_total _ _
  have hsorted := List.pairwise_mergeSort (List.zipIdxLE_trans htrans)
    (List.zipIdxLE_total htotal) components.zipIdx
  -- no two components have one place, so that places decide where start texts do not
  have hplaces : (ranked components).Pairwise fun x y => x.2 ≠ y.2 := by
    have hnodup : ((ranked components).map Prod.snd).Nodup := by
      rw [((ranked_perm components).map Prod.snd).nodup_iff, List.zipIdx_map_snd]
      exact List.nodup_range'
    exact List.pairwise_map.mp hnodup
  refine (hsorted.and hplaces).imp ?_
  rintro x y ⟨hle, hplace⟩
  simp only [List.zipIdxLE, decide_eq_true_eq] at hle
  split at hle
  · rename_i hxy
    split at hle
    · rename_i hyx
      rw [decide_eq_true_eq] at hle
      exact .inr ⟨String.le_antisymm hxy hyx, by omega⟩
    · rename_i hyx
      exact .inl (String.not_le.mp hyx)
  · cases hle

/-- The candidates stand in the order of import. -/
theorem pairwise_candidates (components : List Component) :
    (candidates components).Pairwise Candidate.Precedes := by
  have hranked := pairwise_ranked components
  rw [← List.zipIdx_map_fst 0 (ranked components), List.pairwise_map] at hranked
  exact List.pairwise_map.mpr hranked

end Order

/-! ## Those that are tried -/

/-- The candidates whose identifiers are new, given those that were met before. -/
def tried (seen : List String) : List Candidate → List Candidate
  | [] => []
  | e :: rest => if e.uid ∈ seen then tried seen rest else e :: tried (e.uid :: seen) rest

/-- The candidates whose identifiers were met before. -/
def passedOver (seen : List String) : List Candidate → List Candidate
  | [] => []
  | e :: rest =>
    if e.uid ∈ seen then e :: passedOver seen rest else passedOver (e.uid :: seen) rest

section Tried

variable {seen : List String} {l : List Candidate} {e : Candidate}

theorem tried_sublist (seen : List String) (l : List Candidate) : (tried seen l).Sublist l := by
  induction l generalizing seen with
  | nil => exact .slnil
  | cons a l ih =>
    unfold tried
    split
    · exact (ih seen).cons a
    · exact (ih (a.uid :: seen)).cons_cons a

theorem length_tried_add_passedOver (seen : List String) (l : List Candidate) :
    (tried seen l).length + (passedOver seen l).length = l.length := by
  induction l generalizing seen with
  | nil => rfl
  | cons a l ih =>
    unfold tried passedOver
    split
    · have hrest := ih seen
      rw [List.length_cons, List.length_cons]
      omega
    · have hrest := ih (a.uid :: seen)
      rw [List.length_cons, List.length_cons]
      omega

/-- A candidate is tried if it leads those with its identifier, which is new. -/
theorem mem_tried_iff (hl : l.Pairwise Candidate.Precedes) :
    e ∈ tried seen l ↔ e.uid ∉ seen ∧ e.Leads l := by
  induction l generalizing seen with
  | nil => simp [tried, Candidate.Leads]
  | cons a l ih =>
    obtain ⟨hfirst, hl⟩ := List.pairwise_cons.mp hl
    -- a candidate with another identifier does not care for the first one
    have hother (hne : e.uid ≠ a.uid) : e.Leads (a :: l) ↔ e.Leads l := by
      have hne' : e ≠ a := by
        rintro rfl
        exact hne rfl
      simp [Candidate.Leads, List.mem_cons, hne', Ne.symm hne]
    unfold tried
    by_cases hseen : a.uid ∈ seen
    · rw [if_pos hseen, ih hl]
      refine and_congr_right fun hnew => (hother ?_).symm
      intro heq
      rw [heq] at hnew
      exact hnew hseen
    -- a new identifier is led by the first candidate with it, which precedes all others
    · rw [if_neg hseen, List.mem_cons, ih hl, List.mem_cons, not_or]
      by_cases heq : e.uid = a.uid
      · simp only [heq, not_true_eq_false, false_and, or_false, hseen, not_false_eq_true, true_and]
        constructor
        · rintro rfl
          refine ⟨List.mem_cons_self, fun e' he' _ => ?_⟩
          rcases List.mem_cons.mp he' with rfl | he'
          · exact .inl rfl
          · exact .inr (hfirst e' he')
        · rintro ⟨hmem, hleads⟩
          rcases List.mem_cons.mp hmem with rfl | hmem
          · rfl
          · rcases hleads a List.mem_cons_self heq.symm with rfl | hprecedes
            · rfl
            · exact absurd (hfirst e hmem) hprecedes.asymm
      · have hne : e ≠ a := by
          rintro rfl
          exact heq rfl
        simp only [hne, heq, false_or, not_false_eq_true, true_and]
        rw [hother heq]

/-- No two candidates that are tried have one identifier. -/
theorem nodup_uid_tried (seen : List String) (l : List Candidate) :
    ((tried seen l).map (·.uid)).Nodup := by
  have hnew (seen : List String) (l : List Candidate) : ∀ e ∈ tried seen l, e.uid ∉ seen := by
    induction l generalizing seen with
    | nil => simp [tried]
    | cons a l ih =>
      unfold tried
      split
      · exact ih seen
      · rename_i hseen
        rw [List.forall_mem_cons]
        refine ⟨hseen, fun e he => ?_⟩
        exact fun hmem => ih (a.uid :: seen) e he (List.mem_cons_of_mem _ hmem)
  induction l generalizing seen with
  | nil => exact .nil
  | cons a l ih =>
    unfold tried
    split
    · exact ih seen
    · rw [List.map_cons, List.nodup_cons]
      refine ⟨?_, ih (a.uid :: seen)⟩
      intro hmem
      obtain ⟨e, he, heq⟩ := List.mem_map.mp hmem
      exact hnew (a.uid :: seen) l e he (heq ▸ List.mem_cons_self)

/-- Each identifier was met before or is tried. -/
theorem uid_mem_or_mem_tried (seen : List String) (h : e ∈ l) :
    e.uid ∈ seen ∨ e.uid ∈ (tried seen l).map (·.uid) := by
  induction l generalizing seen with
  | nil => cases h
  | cons a l ih =>
    unfold tried
    by_cases hseen : a.uid ∈ seen
    · rw [if_pos hseen]
      rcases List.mem_cons.mp h with rfl | h
      · exact .inl hseen
      · exact ih seen h
    · rw [if_neg hseen, List.map_cons, List.mem_cons]
      rcases List.mem_cons.mp h with rfl | h
      · exact .inr (.inl rfl)
      · rcases ih (a.uid :: seen) h with hmem | hmem
        · rcases List.mem_cons.mp hmem with heq | hmem
          · exact .inr (.inl heq)
          · exact .inl hmem
        · exact .inr (.inr hmem)

theorem passedOver_sublist (seen : List String) (l : List Candidate) :
    (passedOver seen l).Sublist l := by
  induction l generalizing seen with
  | nil => exact .slnil
  | cons a l ih =>
    unfold passedOver
    split
    · exact (ih seen).cons_cons a
    · exact (ih (a.uid :: seen)).cons a

end Tried

end EventCalendar
