/-
  EventCalendar.Proofs.RunSort.Runs

  Sorting ends with a list in which no element comes before the one in front of
  it, whatever the order is like, and only by exchanges.  Each run that is found
  ascends, and the runs on the stack are neighbours in a list that exchanges have
  led to.
-/

import EventCalendar.Proofs.RunSort.Merge
import EventCalendar.RunSort.Runs

namespace EventCalendar.RunSort

variable {α : Type} {lt : α → α → Bool}

/-! ## The next run -/

theorem isChain_goingOn (descends : Bool) (last : α) (l : List α) :
    (last :: (goingOn lt descends last l).1).IsChain fun a b => lt b a = descends := by
  induction l generalizing last with
  | nil => exact List.IsChain.singleton last
  | cons a l ih =>
    rw [goingOn]
    split
    · rename_i hnext
      exact List.IsChain.cons_cons (eq_of_beq hnext) (ih a)
    · exact List.IsChain.singleton last

theorem goingOn_of_ascends {last : α} {l : List α} (h : Ascends lt (last :: l)) :
    goingOn lt false last l = (l, []) := by
  induction l generalizing last with
  | nil => rfl
  | cons a l ih =>
    obtain ⟨hnext, hrest⟩ := List.isChain_cons_cons.mp h
    rw [goingOn, if_pos (by rw [hnext]; rfl), ih hrest]

/-- A list in which each element comes before the one in front of it is turned round. -/
theorem rearranges_reverse (hasymm : Asymmetric lt) {l : List α}
    (h : l.IsChain fun a b => lt b a = true) :
    Ascends lt l.reverse ∧ Rearranges lt l l.reverse := by
  have hascends : Ascends lt l.reverse :=
    List.isChain_reverse.mpr (h.imp fun a b hlt => hasymm b a hlt)
  refine ⟨hascends, ?_⟩
  induction l with
  | nil => exact .refl []
  | cons a l ih =>
    have hl : Ascends lt l.reverse := by
      rw [List.reverse_cons] at hascends
      exact hascends.left_of_append
    have hexchange := Rearranges.exchange (.singleton a) hl (by
      rw [List.getLast?_reverse]
      intro b hb c hc
      cases hc
      exact (List.isChain_cons.mp h).1 b hb)
    -- the head goes behind the others, which have been turned round before
    rw [List.reverse_cons]
    exact ((ih h.tail hl).append_left [a]).trans hexchange

theorem naturalRun_spec (hasymm : Asymmetric lt) (l : List α) :
    Ascends lt (naturalRun lt l).1 ∧
      Rearranges lt l ((naturalRun lt l).1 ++ (naturalRun lt l).2) := by
  cases l with
  | nil => exact ⟨.nil, .refl []⟩
  | cons a l =>
    rw [naturalRun]
    dsimp only
    generalize l.head?.any (lt · a) = descends
    have hchain : (a :: (goingOn lt descends a l).1).IsChain fun a b => lt b a = descends :=
      isChain_goingOn descends a l
    have happend := goingOn_append lt descends a l
    cases descends with
    | false =>
      refine ⟨hchain, ?_⟩
      rw [if_neg Bool.false_ne_true, List.cons_append, happend]
      exact .refl _
    | true =>
      obtain ⟨hascends, hreached⟩ := rearranges_reverse hasymm hchain
      have hwhole := hreached.append_right (goingOn lt true a l).2
      rw [List.cons_append, happend] at hwhole
      exact ⟨hascends, hwhole⟩

/-- An element goes after those that it does not come before, or at least after one of them. -/
theorem insert_spec (hasymm : Asymmetric lt) {run : List α} (hrun : Ascends lt run) (a : α) :
    Ascends lt (insert lt run a) ∧ Rearranges lt (run ++ [a]) (insert lt run a) := by
  have hplace : IsPlace (fun i => run[i]?.any fun b => !lt a b) run.length
      (bisect (fun i => run[i]?.any fun b => !lt a b) 0 run.length) :=
    isPlace_bisect (Nat.le_of_eq (Nat.zero_add _)) (.inl rfl) (.inl (Nat.zero_add _))
  obtain ⟨hbefore, hafter⟩ := hplace.cut
  unfold insert
  extract_lets place
  have hfront : Ascends lt (run.take place) := hrun.take place
  have hback : Ascends lt (run.drop place) := hrun.drop place
  have hnext : ∀ b ∈ (run.drop place).head?, lt a b = true :=
    fun b hb => by simpa using hafter b hb
  constructor
  · refine ascends_append.mpr ⟨hfront, List.isChain_cons.mpr ⟨?_, hback⟩, ?_⟩
    · exact fun b hb => hasymm a b (hnext b hb)
    · intro b hb c hc
      cases hc
      simpa using hbefore b hb
  · -- it changes places with those that it comes before
    have hexchange := (Rearranges.exchange hback (.singleton a) (by
      intro c hc b hb
      cases hc
      exact hnext b hb)).append_left (run.take place)
    rwa [← List.append_assoc, List.take_append_drop] at hexchange

theorem foldl_insert_spec (hasymm : Asymmetric lt) {run : List α} (hrun : Ascends lt run)
    (l : List α) :
    Ascends lt (l.foldl (insert lt) run) ∧
      Rearranges lt (run ++ l) (l.foldl (insert lt) run) := by
  induction l generalizing run with
  | nil =>
    rw [List.append_nil]
    exact ⟨hrun, .refl run⟩
  | cons a l ih =>
    obtain ⟨hinserted, hreached⟩ := insert_spec hasymm hrun a
    obtain ⟨hascends, hrest⟩ := ih hinserted
    have hfirst := hreached.append_right l
    rw [List.append_assoc, List.singleton_append] at hfirst
    exact ⟨hascends, hfirst.trans hrest⟩

theorem nextRun_spec (hasymm : Asymmetric lt) (least : Nat) (l : List α) :
    Ascends lt (nextRun lt least l).1 ∧
      Rearranges lt l ((nextRun lt least l).1 ++ (nextRun lt least l).2) := by
  obtain ⟨hrun, hreached⟩ := naturalRun_spec hasymm l
  rw [nextRun]
  dsimp only
  generalize least - (naturalRun lt l).1.length = missing
  obtain ⟨hascends, hmore⟩ := foldl_insert_spec hasymm hrun ((naturalRun lt l).2.take missing)
  refine ⟨hascends, hreached.trans ?_⟩
  have hwhole := hmore.append_right ((naturalRun lt l).2.drop missing)
  rwa [List.append_assoc, List.take_append_drop] at hwhole

/-! ## Runs that wait -/

/-- Ascending runs, the last one first, that lie side by side in a list that exchanges have led
    to. -/
structure RunsOf (lt : α → α → Bool) (origin : List α) (runs : List (List α)) : Prop where
  ascends : ∀ run ∈ runs, Ascends lt run
  reached : Rearranges lt origin runs.reverse.flatten

variable {origin : List α} {runs : List (List α)}

theorem RunsOf.of_rearranges {origin' : List α} (h : RunsOf lt origin runs)
    (hreached : Rearranges lt origin' origin) : RunsOf lt origin' runs :=
  ⟨h.ascends, hreached.trans h.reached⟩

theorem RunsOf.push {run : List α} (h : RunsOf lt origin runs) (hrun : Ascends lt run) :
    RunsOf lt (origin ++ run) (run :: runs) where
  ascends := List.forall_mem_cons.mpr ⟨hrun, h.ascends⟩
  reached := by
    have hreached := h.reached.append_right run
    simpa using hreached

/-- Two neighbouring runs are merged. -/
theorem RunsOf.merge (hasymm : Asymmetric lt) (later : List (List α)) {earlier : List (List α)}
    {left right : List α} (h : RunsOf lt origin (later ++ right :: left :: earlier))
    (threshold : Nat) :
    RunsOf lt origin (later ++ (mergeRuns lt threshold left right).1 :: earlier) := by
  obtain ⟨hmerged, hwithin⟩ := mergeRuns_spec hasymm threshold (h.ascends left (by simp))
    (h.ascends right (by simp))
  constructor
  · intro run hmem
    rw [List.mem_append, List.mem_cons] at hmem
    rcases hmem with hlater | rfl | hearlier
    · exact h.ascends run (by simp [hlater])
    · exact hmerged
    · exact h.ascends run (by simp [hearlier])
  · have hreached := hwithin.within earlier.reverse.flatten later.reverse.flatten
    refine h.reached.trans ?_
    simpa using hreached

theorem runsOf_collapse (hasymm : Asymmetric lt) (depth : Nat) {waiting : List (Waiting α)}
    {last : List α} {threshold : Nat} (h : RunsOf lt origin (last :: waiting.map (·.run))) :
    RunsOf lt origin (collapse lt depth waiting last threshold).runs := by
  fun_induction collapse lt depth waiting last threshold with
  | case1 last threshold => exact h
  | case2 w waiting last threshold hdeep merged next hmerge ih =>
    have hmerged := RunsOf.merge hasymm [] h threshold
    rw [hmerge] at hmerged
    exact ih hmerged
  | case3 w waiting last threshold hdeep => exact h

theorem Stack.runsOf_push (hasymm : Asymmetric lt) {s : Stack α} {run : List α} (length : Nat)
    (h : RunsOf lt origin s.runs) (hrun : Ascends lt run) :
    RunsOf lt (origin ++ run) (s.push lt length run).runs :=
  (runsOf_collapse hasymm _ h).push hrun

/-- Runs are merged until one is left. -/
theorem mergeAll_spec (hasymm : Asymmetric lt) (threshold : Nat) (h : RunsOf lt origin runs) :
    Ascends lt (mergeAll lt threshold runs) ∧
      Rearranges lt origin (mergeAll lt threshold runs) := by
  fun_induction mergeAll lt threshold runs with
  | case1 threshold => exact ⟨.nil, h.reached⟩
  | case2 threshold run => exact ⟨h.ascends run (by simp), by simpa using h.reached⟩
  | case3 threshold right left =>
    have hmerged := RunsOf.merge hasymm [] h threshold
    exact ⟨hmerged.ascends _ (by simp), by simpa using hmerged.reached⟩
  | case4 threshold last middle first runs hlast merged next hmerge ih =>
    have hmerged := RunsOf.merge hasymm [last] h threshold
    rw [hmerge] at hmerged
    exact ih hmerged
  | case5 threshold last middle first runs hlast merged next hmerge ih =>
    have hmerged := RunsOf.merge hasymm [] h threshold
    rw [hmerge] at hmerged
    exact ih hmerged

/-! ## Sorting -/

theorem runsOf_gather (hasymm : Asymmetric lt) (length least : Nat) {s : Stack α}
    (h : RunsOf lt origin s.runs) (l : List α) :
    RunsOf lt (origin ++ l) (gather lt length least s l).runs := by
  fun_induction gather lt length least s l generalizing origin with
  | case1 s =>
    rw [List.append_nil]
    exact h
  | case2 s a l next =>
    rename_i ih
    obtain ⟨hrun, hreached⟩ := nextRun_spec hasymm least (a :: l)
    refine (ih (s.runsOf_push hasymm length h hrun)).of_rearranges ?_
    rw [List.append_assoc]
    exact hreached.append_left origin

/-- A sorted list ascends, and it is made of the given one by exchanges. -/
theorem sort_spec (hasymm : Asymmetric lt) (l : List α) :
    Ascends lt (sort lt l) ∧ Rearranges lt l (sort lt l) := by
  unfold sort
  extract_lets least
  obtain ⟨hrun, hreached⟩ := nextRun_spec hasymm least l
  have hfirst : RunsOf lt (nextRun lt least l).1
      (Stack.runs ⟨[], (nextRun lt least l).1, leastGallop⟩) :=
    ⟨by simpa [Stack.runs] using hrun, by simpa [Stack.runs] using .refl _⟩
  -- the first run lies at the bottom of the stack, and the rest of the list is still to come
  have hgathered := runsOf_gather hasymm l.length least hfirst (nextRun lt least l).2
  exact mergeAll_spec hasymm _ (hgathered.of_rearranges hreached)

/-- Three elements that stand in a circle, each before the next one, still ascend with their
    neighbours. -/
example : sort (fun a b : Fin 3 => b == a + 1) [2, 1, 0] = [0, 1, 2] := by
  decide +kernel

/-- A list that ascends is left as it stands. -/
theorem sort_of_ascends {l : List α} (h : Ascends lt l) : sort lt l = l := by
  have hnatural : naturalRun lt l = (l, []) := by
    cases l with
    | nil => rfl
    | cons a l =>
      have hdescends : l.head?.any (lt · a) = false := by
        rw [Option.any_eq_false]
        intro b hb
        simpa using (List.isChain_cons.mp h).1 b hb
      rw [naturalRun, hdescends, goingOn_of_ascends h]
      rfl
  simp [sort, nextRun, hnatural, gather, Stack.merged, Stack.runs, mergeAll]

theorem sort_perm (hasymm : Asymmetric lt) (l : List α) : (sort lt l).Perm l :=
  (sort_spec hasymm l).2.perm

end EventCalendar.RunSort
