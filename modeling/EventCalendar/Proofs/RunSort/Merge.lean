/-
  EventCalendar.Proofs.RunSort.Merge

  Merging two runs.  Whichever run the next element comes from, it does not come
  before the one that was taken last: the two stand side by side in a run, or
  have been held against each other.  So neighbours ascend in what has been
  taken, and it is made of the two runs by exchanges.
-/

import EventCalendar.Proofs.RunSort.Exchange
import EventCalendar.Proofs.RunSort.Search
import EventCalendar.RunSort.Merge

namespace EventCalendar.RunSort

variable {α : Type} {lt : α → α → Bool}

/-! ## What is kept while runs are merged -/

/-- From one of two ascending lists to the other one, between elements that have been held against
    each other. -/
theorem ascends_switch {before first second after : List α} {count : Nat}
    (hfirst : Ascends lt (before ++ first ++ after))
    (hsecond : Ascends lt (before ++ second ++ after)) (hne : second ≠ [])
    (h : ∀ a ∈ (first.take count).getLast?, ∀ b ∈ second.head?, lt b a = false) :
    Ascends lt (before ++ first.take count ++ second ++ after) := by
  rcases eq_or_ne (first.take count) [] with hnone | hsome
  · rwa [hnone, List.append_nil]
  · have hfront : Ascends lt (before ++ first.take count) := by
      have hparts := hfirst.left_of_append
      rw [← List.take_append_drop count first, ← List.append_assoc] at hparts
      exact hparts.left_of_append
    have hback : Ascends lt (second ++ after) := by
      rw [List.append_assoc] at hsecond
      exact hsecond.right_of_append
    rw [List.append_assoc, ascends_append]
    refine ⟨hfront, hback, ?_⟩
    rwa [List.getLast?_append_of_ne_nil _ hsome, List.head?_append_of_ne_nil _ hne]

namespace Merging

variable {before after origin : List α} {m : Merging α} {count : Nat} {side : Side}

/-- Two runs on the way to one, with other elements before and after them.  Neighbours ascend
    whichever run comes next, the last element of the shorter run comes last of all, and exchanges
    have led here from where the runs stood. -/
structure Fits (lt : α → α → Bool) (before after origin : List α) (m : Merging α) : Prop where
  viaShort : Ascends lt (before ++ m.merged.reverse ++ m.short ++ after)
  viaLong : Ascends lt (before ++ m.merged.reverse ++ m.long ++ after)
  last : ∀ y ∈ m.long.getLast?, ∀ x ∈ m.short.getLast?, lt y x = true
  reached : Rearranges lt origin (m.merged.reverse ++ m.short ++ m.long)

theorem Fits.ascends_short (h : m.Fits lt before after origin) : Ascends lt m.short :=
  h.viaShort.left_of_append.right_of_append

theorem Fits.ascends_long (h : m.Fits lt before after origin) : Ascends lt m.long :=
  h.viaLong.left_of_append.right_of_append

theorem Fits.withPace (h : m.Fits lt before after origin) (pace : Pace) (threshold : Nat) :
    { m with pace := pace, threshold := threshold }.Fits lt before after origin :=
  ⟨h.viaShort, h.viaLong, h.last, h.reached⟩

theorem mem_getLast?_of_drop {l : List α} {a : α} (h : a ∈ (l.drop count).getLast?) :
    a ∈ l.getLast? := by
  rw [List.getLast?_drop] at h
  split at h
  · cases h
  · exact h

theorem Fits.takeShort (hm : m.Fits lt before after origin) (hlong : m.long ≠ [])
    (h : ∀ x ∈ (m.short.take count).getLast?, ∀ y ∈ m.long.head?, lt y x = false) :
    (m.takeShort count).Fits lt before after origin := by
  have hmerged : (m.takeShort count).merged.reverse = m.merged.reverse ++ m.short.take count := by
    simp [Merging.takeShort]
  refine ⟨?_, ?_, ?_, ?_⟩
  · rw [hmerged, short_takeShort, ← List.append_assoc, List.append_assoc _ (m.short.take count),
      List.take_append_drop]
    exact hm.viaShort
  · rw [hmerged, long_takeShort, ← List.append_assoc]
    exact ascends_switch hm.viaShort hm.viaLong hlong h
  · intro y hy x hx
    exact hm.last y hy x (mem_getLast?_of_drop hx)
  · rw [hmerged, short_takeShort, long_takeShort, List.append_assoc m.merged.reverse,
      List.take_append_drop]
    exact hm.reached

theorem Fits.takeLong (hasymm : Asymmetric lt) (hm : m.Fits lt before after origin)
    (hshort : m.short ≠ [])
    (h : ∀ y ∈ (m.long.take count).getLast?, ∀ x ∈ m.short.head?, lt y x = true) :
    (m.takeLong count).Fits lt before after origin := by
  have hmerged : (m.takeLong count).merged.reverse = m.merged.reverse ++ m.long.take count := by
    simp [Merging.takeLong]
  refine ⟨?_, ?_, ?_, ?_⟩
  · rw [hmerged, short_takeLong, ← List.append_assoc]
    exact ascends_switch hm.viaLong hm.viaShort hshort fun y hy x hx => hasymm y x (h y hy x hx)
  · rw [hmerged, long_takeLong, ← List.append_assoc, List.append_assoc _ (m.long.take count),
      List.take_append_drop]
    exact hm.viaLong
  · intro y hy x hx
    exact hm.last y (mem_getLast?_of_drop hy) x hx
  · -- what is taken changes places with the whole rest of the other run
    have hexchange := (Rearranges.exchange hm.ascends_short (hm.ascends_long.take count) h).within
      m.merged.reverse (m.long.drop count)
    refine hm.reached.trans ?_
    rw [hmerged, short_takeLong, long_takeLong]
    simpa only [List.append_assoc, List.take_append_drop] using hexchange

/-- Once only one run is left, all elements ascend. -/
theorem Fits.result (hasymm : Asymmetric lt) (hm : m.Fits lt before after origin)
    (hover : m.isOver = true) :
    Ascends lt (before ++ m.result ++ after) ∧ Rearranges lt origin m.result := by
  have hshort := hm.viaShort
  have hlong := hm.viaLong
  have hreached := hm.reached
  rw [isOver, Bool.or_eq_true, List.isEmpty_iff, List.isEmpty_iff] at hover
  rw [Merging.result]
  rcases eq_or_ne m.long [] with hnone | hsome
  · rw [hnone, List.append_nil] at hreached ⊢
    exact ⟨by rwa [← List.append_assoc], hreached⟩
  · cases hrest : m.short with
    | nil =>
      rw [hrest, List.append_nil] at hreached
      rw [List.append_nil]
      exact ⟨by rwa [← List.append_assoc], hreached⟩
    | cons x rest =>
      have hone := hover.resolve_right hsome
      rw [hrest, List.tail_cons] at hone
      subst hone
      have hlast := hm.last
      rw [hrest] at hshort hreached hlast
      constructor
      · have hswitch := ascends_switch hlong hshort (List.cons_ne_nil x [])
          (by rw [List.take_length]; exact fun y hy x hx => hasymm y x (hlast y hy x hx))
        rw [List.take_length] at hswitch
        simpa only [List.append_assoc] using hswitch
      · have hexchange := (Rearranges.exchange (.singleton x)
          hm.ascends_long hlast).append_left m.merged.reverse
        rw [← List.append_assoc, ← List.append_assoc] at hexchange
        exact hreached.trans hexchange

/-! ## Step by step -/

theorem exists_short_eq_cons (hopen : m.isOver = false) : ∃ x short, m.short = x :: short :=
  List.exists_cons_of_length_pos (Nat.lt_of_succ_lt (isOver_eq_false_iff.mp hopen).1)

theorem exists_long_eq_cons (hopen : m.isOver = false) : ∃ y long, m.long = y :: long :=
  List.exists_cons_of_length_pos (isOver_eq_false_iff.mp hopen).2

section

variable (hasymm : Asymmetric lt) (hm : m.Fits lt before after origin) (hopen : m.isOver = false)

include hasymm hm hopen

theorem Fits.single (ofShort ofLong : Nat) :
    (m.single lt ofShort ofLong).Fits lt before after origin := by
  obtain ⟨x, short, hx⟩ := exists_short_eq_cons hopen
  obtain ⟨y, long, hy⟩ := exists_long_eq_cons hopen
  have hfirst : m.longFirst lt = lt y x := by simp [longFirst, hx, hy]
  unfold Merging.single
  rw [hfirst]
  split
  · rename_i hlt
    refine (hm.takeLong hasymm (by simp [hx]) ?_).withPace _ _
    simp [hx, hy, hlt]
  · rename_i hlt
    refine (hm.takeShort (by simp [hy]) ?_).withPace _ _
    simp [hx, hy, hlt]

theorem Fits.passShort : (m.passShort lt side).Fits lt before after origin := by
  obtain ⟨y, long, hy⟩ := exists_long_eq_cons hopen
  obtain ⟨hgone, hnext⟩ := lead_cut side (fun x => m.long.head?.all fun y => !lt y x) m.short
  simp only [hy, List.head?_cons, Option.all_some, Bool.not_eq_true', Bool.not_eq_false']
    at hgone hnext
  have htaken : (m.takeShort (m.leadShort lt side)).Fits lt before after origin := by
    refine hm.takeShort (by simp [hy]) ?_
    simpa [leadShort, hy] using hgone
  unfold Merging.passShort
  dsimp only
  split
  · exact htaken
  · rename_i hstill
    obtain ⟨x, short, hx⟩ := exists_short_eq_cons (eq_false_of_ne_true hstill)
    refine htaken.takeLong hasymm (hx ▸ List.cons_ne_nil x short) ?_
    simpa [leadShort, hy] using hnext

theorem Fits.passLong : (m.passLong lt side).Fits lt before after origin := by
  obtain ⟨x, short, hx⟩ := exists_short_eq_cons hopen
  obtain ⟨hgone, hnext⟩ := lead_cut side (fun y => m.short.head?.all fun x => lt y x) m.long
  simp only [hx, List.head?_cons, Option.all_some] at hgone hnext
  have htaken : (m.takeLong (m.leadLong lt side)).Fits lt before after origin := by
    refine hm.takeLong hasymm (by simp [hx]) ?_
    simpa [leadLong, hx] using hgone
  unfold Merging.passLong
  dsimp only
  split
  · exact htaken
  · rename_i hstill
    obtain ⟨y, long, hy⟩ := exists_long_eq_cons (eq_false_of_ne_true hstill)
    refine htaken.takeShort (hy ▸ List.cons_ne_nil y long) ?_
    simpa [leadLong, hx] using hnext

omit hasymm hopen in
theorem Fits.paced (many : Bool) : (m.paced many).Fits lt before after origin := by
  unfold Merging.paced
  split
  · exact hm
  · split
    · exact hm.withPace m.pace _
    · exact hm.withPace _ _

theorem Fits.step : (m.step lt side).Fits lt before after origin := by
  unfold Merging.step
  split
  · exact hm.single hasymm hopen _ _
  · unfold Merging.round
    cases side with
    | front =>
      dsimp only
      split
      · exact hm.passShort hasymm hopen
      · rename_i hstill
        exact ((hm.passShort hasymm hopen).passLong hasymm (eq_false_of_ne_true hstill)).paced _
    | back =>
      dsimp only
      split
      · exact hm.passLong hasymm hopen
      · rename_i hstill
        exact ((hm.passLong hasymm hopen).passShort hasymm (eq_false_of_ne_true hstill)).paced _

end

/-- A run of steps ends with all elements in order. -/
theorem Fits.run (hasymm : Asymmetric lt) (hm : m.Fits lt before after origin) (side : Side) :
    Ascends lt (before ++ (m.run lt side).result ++ after) ∧
      Rearranges lt origin (m.run lt side).result := by
  fun_induction Merging.run lt side m with
  | case1 m hover => exact hm.result hasymm hover
  | case2 m hopen ih => exact ih (hm.step hasymm (eq_false_of_ne_true hopen))

end Merging

/-! ## Neighbouring runs -/

section

variable {before after left right : List α} (hasymm : Asymmetric lt)

include hasymm

theorem Merging.fits_start (threshold : Nat) {short long : List α}
    (hshort : Ascends lt (before ++ short ++ after)) (hlong : Ascends lt (before ++ long ++ after))
    (hne : short ≠ []) (hhead : ∀ y ∈ long.head?, ∀ x ∈ short.head?, lt y x = true)
    (hlast : ∀ y ∈ long.getLast?, ∀ x ∈ short.getLast?, lt y x = true) :
    (Merging.start threshold short long).Fits lt before after (short ++ long) := by
  have hbegin : Merging.Fits lt before after (short ++ long)
      ⟨[], short, long, .single 0 0, threshold⟩ :=
    ⟨by simpa using hshort, by simpa using hlong, hlast, .refl _⟩
  have hfirst : ∀ y ∈ (long.take 1).getLast?, ∀ x ∈ short.head?, lt y x = true := by
    cases long with
    | nil => simp
    | cons y long => simpa using hhead
  simpa [Merging.takeLong, Merging.start] using hbegin.takeLong hasymm hne hfirst

/-- Two runs are joined in a list if the right one begins before the left one does, and ends before
    the left one does. -/
theorem joinRuns_spec (threshold : Nat) (hleft : Ascends lt (before ++ left ++ after))
    (hright : Ascends lt (before ++ right ++ after)) (hne : left ≠ [] ∧ right ≠ [])
    (hhead : ∀ b ∈ right.head?, ∀ a ∈ left.head?, lt b a = true)
    (hlast : ∀ b ∈ right.getLast?, ∀ a ∈ left.getLast?, lt b a = true) :
    Ascends lt (before ++ (joinRuns lt threshold left right).1 ++ after) ∧
      Rearranges lt (left ++ right) (joinRuns lt threshold left right).1 := by
  unfold joinRuns
  split
  · exact (Merging.fits_start hasymm threshold hleft hright hne.1 hhead hlast).run hasymm .front
  · -- seen from the back the two runs change their parts
    have hleft' : Ascends (fun a b => lt b a)
        (after.reverse ++ left.reverse ++ before.reverse) := by
      rw [← ascends_reverse] at hleft
      simpa using hleft
    have hright' : Ascends (fun a b => lt b a)
        (after.reverse ++ right.reverse ++ before.reverse) := by
      rw [← ascends_reverse] at hright
      simpa using hright
    have hback := (Merging.fits_start (fun a b => hasymm b a) threshold hright' hleft'
      (by simpa using hne.2) (by simpa using fun a ha b hb => hlast b hb a ha)
      (by simpa using fun a ha b hb => hhead b hb a ha)).run (fun a b => hasymm b a) .back
    constructor
    · rw [← ascends_reverse]
      simpa using hback.1
    · simpa using hback.2.reverse

/-- Two runs ascend as one after what does not stand in its place yet has been joined. -/
theorem joinRuns_within (threshold : Nat) (hleft : Ascends lt (before ++ left))
    (hright : Ascends lt (right ++ after)) (hne : left ≠ [] ∧ right ≠ [])
    (hfront : ∀ b ∈ right.head?, (∀ a ∈ before.getLast?, lt b a = false) ∧
      ∀ a ∈ left.head?, lt b a = true)
    (hback : ∀ a ∈ left.getLast?, (∀ b ∈ after.head?, lt b a = false) ∧
      ∀ b ∈ right.getLast?, lt b a = true) :
    Ascends lt (before ++ (joinRuns lt threshold left right).1 ++ after) ∧
      Rearranges lt (before ++ left ++ (right ++ after))
        (before ++ (joinRuns lt threshold left right).1 ++ after) := by
  have hviaLeft : Ascends lt (before ++ left ++ after) := by
    refine ascends_append.mpr ⟨hleft, (ascends_append.mp hright).2.1, fun a ha b hb => ?_⟩
    rw [List.getLast?_append_of_ne_nil _ hne.1] at ha
    exact (hback a ha).1 b hb
  have hviaRight : Ascends lt (before ++ right ++ after) := by
    rw [List.append_assoc, ascends_append]
    refine ⟨(ascends_append.mp hleft).1, hright, fun a ha b hb => ?_⟩
    rw [List.head?_append_of_ne_nil _ hne.2] at hb
    exact (hfront b hb).1 a ha
  obtain ⟨hascends, hreached⟩ := joinRuns_spec hasymm threshold hviaLeft hviaRight hne
    (fun b hb a ha => (hfront b hb).2 a ha) fun b hb a ha => (hback a ha).2 b hb
  have hwithin := hreached.within before after
  rw [← List.append_assoc, List.append_assoc (before ++ left)] at hwithin
  exact ⟨hascends, hwithin⟩

omit hasymm in
/-- A run is cut where elements cease to stand in a relation to one element. -/
theorem lead_cut_of_mem (side : Side) (related : α → α → Bool) {pivot : Option α} {c : α}
    (hc : c ∈ pivot) (run : List α) :
    (∀ a ∈ (run.take (side.lead (fun a => pivot.all (related a)) run)).getLast?,
      related a c = true) ∧
    ∀ a ∈ (run.drop (side.lead (fun a => pivot.all (related a)) run)).head?,
      related a c = false := by
  have hcut := lead_cut side (fun a => pivot.all (related a)) run
  rw [Option.mem_def.mp hc] at hcut ⊢
  exact hcut

/-- Two neighbouring runs ascend as one after they have been merged. -/
theorem mergeRuns_spec (threshold : Nat) (hleft : Ascends lt left) (hright : Ascends lt right) :
    Ascends lt (mergeRuns lt threshold left right).1 ∧
      Rearranges lt (left ++ right) (mergeRuns lt threshold left right).1 := by
  unfold mergeRuns
  extract_lets before after left' right'
  have hfront : ∀ b ∈ right.head?, (∀ a ∈ (left.take before).getLast?, lt b a = false) ∧
      ∀ a ∈ left'.head?, lt b a = true := by
    intro b hb
    simpa only [Bool.not_eq_true', Bool.not_eq_false'] using
      lead_cut_of_mem .front (fun a b => !lt b a) hb left
  have hback : ∀ a ∈ left.getLast?,
      (∀ b ∈ (right.drop (right.length - after)).head?, lt b a = false) ∧
        ∀ b ∈ right'.getLast?, lt b a = true := by
    intro a ha
    have hcut := lead_cut_of_mem .back (fun b a => !lt b a) ha right.reverse
    rw [List.take_reverse, List.drop_reverse, List.getLast?_reverse, List.head?_reverse] at hcut
    simpa only [Bool.not_eq_true', Bool.not_eq_false'] using hcut
  have hleft_eq : left.take before ++ left' = left := List.take_append_drop before left
  have hright_eq : right' ++ right.drop (right.length - after) = right :=
    List.take_append_drop _ right
  split
  · -- one of the runs has nothing to merge, so that they ascend as they stand
    rename_i hempty
    refine ⟨ascends_append.mpr ⟨hleft, hright, fun a ha b hb => ?_⟩, .refl _⟩
    rw [Bool.or_eq_true, List.isEmpty_iff, List.isEmpty_iff] at hempty
    rcases hempty with hnone | hnone
    · rw [hnone, List.append_nil] at hleft_eq
      exact (hfront b hb).1 a (by rwa [hleft_eq])
    · rw [hnone, List.nil_append] at hright_eq
      exact (hback a ha).1 b (by rwa [hright_eq])
  · -- the beginning and the end stay, and the parts between them are joined
    rename_i hsome
    simp only [Bool.or_eq_true, List.isEmpty_iff, not_or] at hsome
    have hjoin := joinRuns_within hasymm threshold (hleft_eq ▸ hleft) (hright_eq ▸ hright) hsome
      (by rwa [← hright_eq, List.head?_append_of_ne_nil _ hsome.2] at hfront)
      (by rwa [← hleft_eq, List.getLast?_append_of_ne_nil _ hsome.1] at hback)
    rwa [hleft_eq, hright_eq] at hjoin

end

end EventCalendar.RunSort
