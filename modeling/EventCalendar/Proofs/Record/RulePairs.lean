/-
  EventCalendar.Proofs.Record.RulePairs

  What the pairs of a recurrence rule say.  Four keys count.  Where each of
  them stands at most once, a rule says what is looked up under them, in
  whatever order the pairs stand.  Of the list of days only the set of its day
  codes counts.
-/

import EventCalendar.Proofs.Record.Readings
import EventCalendar.Proofs.Text.Parts
import Mathlib.Data.List.Perm.Basic

namespace EventCalendar

open EventCalendar.Text EventCalendar.Time

namespace RecurrenceRule

variable {key value part : List Char} {c : Char} {name : String}
  {l l' : List (String × String)} {d : Draft}

/-! ## Pairs -/

/-- The key that counts: without blanks around it and in small letters. -/
def keyOf (key : List Char) : String := lower (trim (String.ofList key))

theorem pair?_append (h : '=' ∉ key) (value : List Char) :
    pair? (key ++ '=' :: value) = some (keyOf key, trim (String.ofList value)) := by
  have hall : ∀ c ∈ key, (c != '=') = true := fun c hc => bne_iff_ne.mpr fun heq => h (heq ▸ hc)
  have hdrop : (key ++ '=' :: value).dropWhile (· != '=') = '=' :: value := by
    rw [List.dropWhile_append_of_pos hall]
    rfl
  have htake : (key ++ '=' :: value).takeWhile (· != '=') = key := by
    rw [List.takeWhile_append_of_pos hall]
    simp
  rw [pair?, splitFirst, hdrop, htake, keyOf]

theorem pair?_of_not_mem (h : '=' ∉ part) : pair? part = none := by
  have hall : ∀ c ∈ part, (c != '=') = true := fun c hc => bne_iff_ne.mpr fun heq => h (heq ▸ hc)
  have hdrop : part.dropWhile (· != '=') = [] := List.dropWhile_eq_nil_iff.mpr hall
  rw [pair?, splitFirst, hdrop]

/-- A part has a key and a value, or no `=`. -/
theorem exists_key (part : List Char) :
    '=' ∉ part ∨ ∃ key value, part = key ++ '=' :: value ∧ '=' ∉ key := by
  by_cases h : '=' ∈ part
  · exact .inr (List.eq_append_cons_of_mem h)
  · exact .inl h

theorem ne_of_isBlank (h : isBlank c = true) : '=' ≠ c := by
  rintro rfl
  exact absurd h (by decide)

theorem pair?_cons_of_isBlank (part : List Char) (h : isBlank c = true) :
    pair? (c :: part) = pair? part := by
  obtain hpart | ⟨key, value, rfl, hkey⟩ := exists_key part
  · have hcons : '=' ∉ c :: part := List.not_mem_cons_of_ne_of_not_mem (ne_of_isBlank h) hpart
    rw [pair?_of_not_mem hpart, pair?_of_not_mem hcons]
  · have hcons : '=' ∉ c :: key := List.not_mem_cons_of_ne_of_not_mem (ne_of_isBlank h) hkey
    have htrim : trim (String.ofList (c :: key)) = trim (String.ofList key) := by
      rw [trim, trim, String.toList_ofList, String.toList_ofList, trimBy_cons_of_pos h]
    rw [pair?_append hkey, ← List.cons_append, pair?_append hcons, keyOf, keyOf, htrim]

theorem pair?_concat_of_isBlank (part : List Char) (h : isBlank c = true) :
    pair? (part ++ [c]) = pair? part := by
  obtain hpart | ⟨key, value, rfl, hkey⟩ := exists_key part
  · have hconcat : '=' ∉ part ++ [c] := by
      simpa [hpart] using ne_of_isBlank h
    rw [pair?_of_not_mem hpart, pair?_of_not_mem hconcat]
  · have htrim : trim (String.ofList (value ++ [c])) = trim (String.ofList value) := by
      rw [trim, trim, String.toList_ofList, String.toList_ofList, trimBy_concat_of_pos h]
    rw [pair?_append hkey, List.append_assoc, List.cons_append, pair?_append hkey, htrim]

/-! ## What is looked up -/

/-- The keys that count. -/
def countedKeys : List String := ["freq", "interval", "byday", "until"]

/-- No key that counts stands twice. -/
def SaysOnce (l : List (String × String)) : Prop :=
  ∀ name ∈ countedKeys, (l.map Prod.fst).count name ≤ 1

theorem lookup_eq_none_of_count (h : (l.map Prod.fst).count name = 0) : l.lookup name = none := by
  rw [List.lookup_eq_none_iff]
  intro entry hentry
  rw [bne_iff_ne]
  rintro rfl
  exact List.count_eq_zero.mp h (List.mem_map_of_mem hentry)

theorem lookup_cons (name : String) (entry : String × String) (l : List (String × String)) :
    (entry :: l).lookup name = if name = entry.1 then some entry.2 else l.lookup name := by
  rw [List.lookup_cons]
  by_cases h : name = entry.1
  · rw [if_pos h, beq_iff_eq.mpr h]
  · rw [if_neg h, beq_eq_false_iff_ne.mpr h]

/-- The order of the pairs does not matter for a key that stands once. -/
theorem lookup_perm (h : l.Perm l') (hname : (l.map Prod.fst).count name ≤ 1) :
    l.lookup name = l'.lookup name := by
  induction h with
  | nil => rfl
  | cons entry _ ih =>
    rw [List.map_cons, List.count_cons] at hname
    rw [lookup_cons, lookup_cons, ih (by omega)]
  | swap entry entry' l =>
    simp only [lookup_cons]
    by_cases hentry : name = entry.1
    · by_cases hentry' : name = entry'.1
      · simp [← hentry, ← hentry'] at hname
      · rw [if_neg hentry', if_pos hentry, if_pos hentry]
    · rw [if_neg hentry, if_neg hentry]
  | trans h _ ih ih' =>
    rw [ih hname]
    rw [(h.map Prod.fst).count_eq] at hname
    exact ih' hname

/-- The interval of a value, or else the one there was. -/
def intervalOf (value : Option String) (told : Option Int) : Except Error (Option Int) :=
  match value with
  | none => .ok told
  | some value =>
    match readInteger value with
    | .ok n => .ok (some n)
    | .error _ => .error (.intervalNotWhole value)

/-- A draft with what is looked up under the keys that count in place of what it says. -/
def Draft.say (d : Draft) (frequency interval days ending : Option String) :
    Except Error Draft := do
  return { frequency := (frequency.map upper).or d.frequency
           interval := ← intervalOf interval d.interval
           days := (days.map dayList).or d.days
           ending := ending.or d.ending }

theorem SaysOnce.tail {entry : String × String} (h : SaysOnce (entry :: l)) : SaysOnce l := by
  intro name hname
  have hcount := h name hname
  rw [List.map_cons, List.count_cons] at hcount
  omega

/-- A key that counts does not stand again behind its pair. -/
theorem SaysOnce.lookup_tail {entry : String × String} (h : SaysOnce (entry :: l))
    (hkey : entry.1 ∈ countedKeys) : l.lookup entry.1 = none := by
  have hcount := h entry.1 hkey
  rw [List.map_cons, List.count_cons_self] at hcount
  exact lookup_eq_none_of_count (by omega)

/-- A pair with a key that does not count says nothing. -/
theorem add_of_not_mem {entry : String × String} (h : entry.1 ∉ countedKeys) (d : Draft) :
    d.add entry = .ok d := by
  simp only [countedKeys, List.mem_cons, List.not_mem_nil, or_false, not_or] at h
  obtain ⟨hfreq, hinterval, hbyday, huntil⟩ := h
  rw [Draft.add, if_neg hfreq, if_neg hinterval, if_neg hbyday, if_neg huntil]

/-- Pairs read one after the other say what is looked up among them. -/
theorem foldlM_add (h : SaysOnce l) (d : Draft) :
    l.foldlM Draft.add d =
      d.say (l.lookup "freq") (l.lookup "interval") (l.lookup "byday") (l.lookup "until") := by
  induction l generalizing d with
  | nil => rfl
  | cons entry l ih =>
    rw [List.foldlM_cons]
    simp only [ih h.tail]
    by_cases hcounted : entry.1 ∈ countedKeys
    · have hnone := h.lookup_tail hcounted
      obtain ⟨key, value⟩ := entry
      simp only [countedKeys, List.mem_cons, List.not_mem_nil, or_false] at hcounted
      -- each key that counts has its own field, which no later pair says again
      simp only [lookup_cons]
      rcases hcounted with rfl | rfl | rfl | rfl
      · rw [hnone]
        rfl
      · rw [hnone]
        cases hread : readInteger value <;> simp [Draft.add, Draft.say, intervalOf, hread]
      · rw [hnone]
        rfl
      · rw [hnone]
        rfl
    · have hother {name : String} (hname : name ∈ countedKeys) :
          (entry :: l).lookup name = l.lookup name := by
        rw [lookup_cons, if_neg]
        rintro rfl
        exact hcounted hname
      rw [add_of_not_mem hcounted, ok_bind, hother (by decide), hother (by decide),
        hother (by decide), hother (by decide)]

/-! ## Days -/

/-- The day code of a token, whatever stands in front of it. -/
def codeOfToken (token : List Char) : String := codeOf (upper (trim (String.ofList token)))

/-- Days with the code of one more token, if it is one and a new one. -/
def addDay (days : List String) (token : List Char) : List String :=
  if (dayCodes.lookup (codeOfToken token)).isSome && !days.contains (codeOfToken token) then
    days ++ [codeOfToken token]
  else days

theorem dayList_eq_foldl (value : String) :
    dayList value = (splitAt ',' value.toList).foldl addDay [] := rfl

theorem nodup_addDay {days : List String} (h : days.Nodup) (token : List Char) :
    (addDay days token).Nodup := by
  unfold addDay
  split
  · rename_i hnew
    simp only [Bool.and_eq_true, Bool.not_eq_true', List.contains_eq_mem,
      decide_eq_false_iff_not] at hnew
    exact (List.perm_append_singleton _ _).nodup_iff.mpr (List.nodup_cons.mpr ⟨hnew.2, h⟩)
  · exact h

theorem mem_addDay {days : List String} {token : List Char} {code : String} :
    code ∈ addDay days token ↔
      code ∈ days ∨ (dayCodes.lookup code).isSome = true ∧ code = codeOfToken token := by
  unfold addDay
  split
  · rename_i hnew
    rw [Bool.and_eq_true] at hnew
    rw [List.mem_append, List.mem_singleton]
    refine or_congr_right ⟨?_, And.right⟩
    rintro rfl
    exact ⟨hnew.1, rfl⟩
  · rename_i hold
    simp only [Bool.and_eq_true, Bool.not_eq_true', List.contains_eq_mem, decide_eq_false_iff_not,
      not_and, not_not] at hold
    refine ⟨.inl, ?_⟩
    rintro (h | ⟨hcode, rfl⟩)
    · exact h
    · exact hold hcode

/-- The list of days has each day code of a token once, and nothing else. -/
theorem dayList_spec (value : String) :
    (dayList value).Nodup ∧ ∀ code, code ∈ dayList value ↔
      (dayCodes.lookup code).isSome = true ∧
        code ∈ (splitAt ',' value.toList).map codeOfToken := by
  rw [dayList_eq_foldl]
  generalize splitAt ',' value.toList = tokens
  suffices hrun : ∀ days : List String, days.Nodup →
      (tokens.foldl addDay days).Nodup ∧ ∀ code, code ∈ tokens.foldl addDay days ↔
        code ∈ days ∨ (dayCodes.lookup code).isSome = true ∧ code ∈ tokens.map codeOfToken by
    simpa only [List.not_mem_nil, false_or] using hrun [] List.nodup_nil
  induction tokens with
  | nil => exact fun days hdays => ⟨hdays, fun code => by simp⟩
  | cons token tokens ih =>
    intro days hdays
    have hrest := ih (addDay days token) (nodup_addDay hdays token)
    rw [List.foldl_cons]
    refine ⟨hrest.1, fun code => ?_⟩
    rw [hrest.2, mem_addDay, List.map_cons, List.mem_cons, or_assoc, and_or_left]

/-- Values with the same day codes have the same days, perhaps in another order. -/
theorem dayList_perm {value value' : String}
    (h : ∀ code, (dayCodes.lookup code).isSome = true →
      (code ∈ (splitAt ',' value.toList).map codeOfToken ↔
        code ∈ (splitAt ',' value'.toList).map codeOfToken)) :
    (dayList value).Perm (dayList value') := by
  obtain ⟨hnodup, hmem⟩ := dayList_spec value
  obtain ⟨hnodup', hmem'⟩ := dayList_spec value'
  rw [List.perm_ext_iff_of_nodup hnodup hnodup']
  intro code
  rw [hmem, hmem']
  exact and_congr_right (h code)

/-! ## Meaning -/

/-- Pairs that say the same: the same frequency in whatever case, the same set of days, and the
    same interval and end. -/
structure SameMeaning (l l' : List (String × String)) : Prop where
  frequency : (l.lookup "freq").map upper = (l'.lookup "freq").map upper
  interval : l.lookup "interval" = l'.lookup "interval"
  days : (((l.lookup "byday").map dayList).getD []).Perm (((l'.lookup "byday").map dayList).getD [])
  ending : l.lookup "until" = l'.lookup "until"

theorem SameMeaning.refl (l : List (String × String)) : SameMeaning l l := ⟨rfl, rfl, .refl _, rfl⟩

theorem SameMeaning.trans {l'' : List (String × String)} (h : SameMeaning l l')
    (h' : SameMeaning l' l'') : SameMeaning l l'' :=
  ⟨h.frequency.trans h'.frequency, h.interval.trans h'.interval, h.days.trans h'.days,
    h.ending.trans h'.ending⟩

/-- The tag of a rule depends on the set of its days only. -/
theorem tag_congr {r r' : RecurrenceRule} (hfrequency : r.frequency = r'.frequency)
    (hinterval : r.interval = r'.interval) (hdays : (r.days.getD []).Perm (r'.days.getD [])) :
    r.tag = r'.tag := by
  have hcontains : (r.days.getD []).contains = (r'.days.getD []).contains :=
    funext fun code => hdays.contains_eq
  simp only [tag, hfrequency, hinterval, hcontains, hdays.length_eq]

/-- The rule of some pairs. -/
def ofPairs (l : List (String × String)) : Except Error RecurrenceRule := do
  (← l.foldlM Draft.add Draft.empty).rule

end RecurrenceRule

namespace Interpreter

open RecurrenceRule

variable (i : Interpreter) {l l' : List (String × String)}

/-- The recurrence that some pairs give, if they are a rule that is kept. -/
def recurrenceOfPairs (l : List (String × String)) : Option (String × Option Moment) :=
  match ofPairs l with
  | .error _ => none
  | .ok rule => if rule.tag = "" then none else some (rule.tag, i.endingOf rule)

/-- A text gives the recurrence of its pairs. -/
theorem recurrenceOf_some (text : String) :
    i.recurrenceOf (some text) = i.recurrenceOfPairs (pairs text) := by
  cases hblank : isBlankText text with
  | true =>
    have htrim : trim text = "" := by
      rw [trim, trimBy, List.dropWhile_eq_nil_iff.mpr (List.all_eq_true.mp hblank)]
      rfl
    have hpairs : pairs text = [] := by
      rw [pairs, body, htrim]
      decide +kernel
    rw [recurrenceOf, recurrenceOfPairs, Option.filter_some, hblank, hpairs]
    rfl
  | false =>
    have htext : ofText text = ofPairs (pairs text) := by
      rw [ofText, hblank, if_neg Bool.false_ne_true, ofPairs]
    rw [recurrenceOf, recurrenceOfPairs, Option.filter_some, hblank, Bool.not_false, if_pos rfl]
    cases hpairs : ofPairs (pairs text) with
    | error e => simp only [htext, hpairs]
    | ok rule => simp only [htext, hpairs]

/-- Pairs that say the same give the same recurrence. -/
theorem recurrenceOfPairs_congr (hl : SaysOnce l) (hl' : SaysOnce l') (h : SameMeaning l l') :
    i.recurrenceOfPairs l = i.recurrenceOfPairs l' := by
  obtain ⟨hfrequency, hinterval, hdays, hending⟩ := h
  unfold recurrenceOfPairs ofPairs
  rw [foldlM_add hl, foldlM_add hl', hinterval, hending]
  generalize l'.lookup "until" = ending
  unfold Draft.say
  rw [hfrequency]
  generalize (l'.lookup "freq").map upper = frequency
  generalize (l.lookup "byday").map dayList = days at hdays ⊢
  generalize (l'.lookup "byday").map dayList = days' at hdays ⊢
  cases intervalOf (l'.lookup "interval") Draft.empty.interval with
  | error e => rfl
  | ok number =>
    simp only [ok_bind, pure_eq_ok, Draft.empty, Option.or_none, Draft.rule]
    cases frequency with
    | none => rfl
    | some frequency =>
      by_cases hempty : frequency = ""
      · simp only [if_pos hempty]
      · simp only [if_neg hempty]
        have htag : tag ⟨frequency, number, days, ending⟩ =
            tag ⟨frequency, number, days', ending⟩ := tag_congr rfl rfl hdays
        rw [htag]
        rfl

end Interpreter

end EventCalendar
