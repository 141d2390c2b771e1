/-
  EventCalendar.Proofs.Weekdays

  Lists of weekdays in their many spellings.  What a number or a text denotes is
  said without the reading of it; a list is accepted where all its entries denote
  a day, and the set that is made of it depends on these days alone.
-/

import EventCalendar.Proofs.OrderedMap
import EventCalendar.Proofs.Outcome
import EventCalendar.Proofs.Text.Integer
import EventCalendar.Weekdays
import Mathlib.Data.List.Sort

namespace EventCalendar.Weekdays

open EventCalendar.Text

/-! ## Sets -/

theorem ext_days {a b : Weekdays} (h : a.days = b.days) : a = b := by
  cases a
  cases b
  subst h
  rfl

/-- A set has its days in one order only. -/
theorem eq_of_mem_iff {a b : Weekdays} (h : ∀ d, d ∈ a.days ↔ d ∈ b.days) : a = b :=
  ext_days (a.ascending.eq_of_mem_iff b.ascending h)

theorem ofList_days (w : Weekdays) : ofList w.days = w := by
  refine eq_of_mem_iff fun d => ?_
  rw [mem_ofList]
  exact ⟨And.right, fun hd => ⟨w.inWeek d hd, hd⟩⟩

/-! ## Spellings -/

/-- An entry of a list of weekdays: a number or a text. -/
inductive Spelling where
  | number (n : Int)
  | text (s : String)
  deriving DecidableEq, Repr

namespace Spelling

/-- The entry as a value. -/
def value : Spelling → Value
  | .number n => .int n
  | .text s => .text s

/-- The form in which a text is looked at: in capital letters, without the blanks at its ends. -/
def token (s : String) : String := upper (trim s)

/-- An entry denotes a day of the week. -/
inductive Denotes : Spelling → Nat → Prop
  /-- The number of the day. -/
  | number {day : Nat} (hweek : 1 ≤ day ∧ day ≤ 7) : Denotes (.number day) day
  /-- Nothing but digits, which in decimal notation are the number of the day. -/
  | digits {s : String} {values : List Nat} {day : Nat} (hdigits : isDigits (token s) = true)
      (hvalues : (token s).toList.map decimalValue? = values.map some)
      (hday : Nat.ofDigits 10 values.reverse = day) (hweek : 1 ≤ day ∧ day ≤ 7) :
      Denotes (.text s) day
  /-- Not only digits, and the code of the day at the end. -/
  | code {s code : String} {day : Nat} (hdigits : isDigits (token s) = false)
      (hcode : (code, day) ∈ dayCodes) (hsuffix : code.toList <:+ (token s).toList) :
      Denotes (.text s) day

/-- The entry has no more digits than are read of a number. -/
def IsShort : Spelling → Prop
  | .number _ => True
  | .text s => isDigits (token s) = true → (token s).length ≤ integerDigitLimit

/-- Each entry of two lists has one in the other list that denotes the same day: the lists differ
    in order, in repetitions and in spellings. -/
def SameDays (a b : List Spelling) : Prop :=
  (∀ i ∈ a, ∃ j ∈ b, ∃ day, i.Denotes day ∧ j.Denotes day) ∧
    ∀ j ∈ b, ∃ i ∈ a, ∃ day, i.Denotes day ∧ j.Denotes day

end Spelling

open Spelling

/-! ## One entry -/

variable {day : Nat} {s : String}

/-- The code at the end of a token is looked up among the codes of the days. -/
theorem lookup_codeOf_iff : dayCodes.lookup (codeOf s) = some day ↔
    ∃ code, (code, day) ∈ dayCodes ∧ code.toList <:+ s.toList := by
  have htwo : ∀ entry ∈ dayCodes, entry.1.toList.length = 2 := by decide
  have hlookup (code : String) : dayCodes.lookup code = some day ↔ (code, day) ∈ dayCodes :=
    OrderedMap.find?_eq_some_iff (m := ⟨dayCodes, by decide⟩)
  have hends {code : String} (hcode : (code, day) ∈ dayCodes) :
      code.toList <:+ s.toList ↔ codeOf s = code := by
    rw [List.suffix_iff_eq_drop, htwo _ hcode, codeOf, ← String.toList_inj, String.toList_ofList,
      eq_comm]
  rw [hlookup]
  constructor
  · intro hcode
    exact ⟨_, hcode, (hends hcode).mpr rfl⟩
  · rintro ⟨code, hcode, hsuffix⟩
    rwa [(hends hcode).mp hsuffix]

theorem inWeek_of_mem_dayCodes {code : String} (h : (code, day) ∈ dayCodes) :
    1 ≤ day ∧ day ≤ 7 := by
  have hweek : ∀ entry ∈ dayCodes, 1 ≤ entry.2 ∧ entry.2 ≤ 7 := by decide
  exact hweek _ h

theorem dayOf_eq_ok_iff {v : Value} :
    dayOf v = .ok day ↔ numberOf v = .ok (day : Int) ∧ 1 ≤ day ∧ day ≤ 7 := by
  unfold dayOf
  cases numberOf v with
  | error e => simp
  | ok n =>
    dsimp only
    split
    · simp only [Except.ok.injEq]
      omega
    · simp only [reduceCtorEq, Except.ok.injEq, false_iff]
      omega

/-- Digits are read as the number that they stand for, if there are few enough of them. -/
theorem numberOfText_digits (hdigits : isDigits (token s) = true) :
    numberOfText s = .ok (day : Int) ↔
      (∃ values : List Nat, (token s).toList.map decimalValue? = values.map some ∧
        Nat.ofDigits 10 values.reverse = day) ∧ (token s).length ≤ integerDigitLimit := by
  have hread : numberOfText s = .ok (day : Int) ↔ readInteger (token s) = .ok (day : Int) := by
    unfold numberOfText
    rw [← token, if_pos hdigits, mapError_eq_ok_iff]
  have hlength {values : List Nat}
      (hvalues : (token s).toList.map decimalValue? = values.map some) :
      values.length = (token s).length := by
    rw [← List.length_map (f := some), ← hvalues, List.length_map, String.length_toList]
  rw [hread]
  constructor
  · intro h
    obtain ⟨values, hvalues⟩ := exists_values (isDecimal_of_readInteger hdigits h)
    rw [readInteger_of_values hdigits hvalues] at h
    split at h
    · cases h
    · rename_i hshort
      rw [hlength hvalues] at hshort
      exact ⟨⟨values, hvalues, by simpa using h⟩, Nat.le_of_not_lt hshort⟩
  · rintro ⟨⟨values, hvalues, rfl⟩, hshort⟩
    rw [readInteger_of_values hdigits hvalues, hlength hvalues, if_neg (Nat.not_lt.mpr hshort)]

theorem numberOfText_code (hdigits : isDigits (token s) = false) :
    numberOfText s = .ok (day : Int) ↔
      ∃ code, (code, day) ∈ dayCodes ∧ code.toList <:+ (token s).toList := by
  rw [← lookup_codeOf_iff]
  unfold numberOfText
  dsimp only
  rw [← token, hdigits]
  cases dayCodes.lookup (codeOf (token s)) <;> simp

/-- An entry is read as the day that it denotes. -/
theorem dayOf_value_eq_ok_iff {i : Spelling} :
    dayOf i.value = .ok day ↔ i.Denotes day ∧ i.IsShort := by
  rw [dayOf_eq_ok_iff]
  cases i with
  | number n =>
    constructor
    · rintro ⟨hn, hweek⟩
      cases hn
      exact ⟨.number hweek, trivial⟩
    · rintro ⟨⟨hweek⟩, -⟩
      exact ⟨rfl, hweek⟩
  | text s =>
    cases hdigits : isDigits (token s) with
    | true =>
      refine (and_congr_left' (numberOfText_digits hdigits)).trans ?_
      constructor
      · rintro ⟨⟨⟨values, hvalues, hday⟩, hshort⟩, hweek⟩
        exact ⟨.digits hdigits hvalues hday hweek, fun _ => hshort⟩
      · rintro ⟨hdenotes, hshort⟩
        cases hdenotes with
        | digits _ hvalues hday hweek =>
          exact ⟨⟨⟨_, hvalues, hday⟩, hshort hdigits⟩, hweek⟩
        | code hletters => simp [hdigits] at hletters
    | false =>
      refine (and_congr_left' (numberOfText_code hdigits)).trans ?_
      constructor
      · rintro ⟨⟨code, hcode, hsuffix⟩, -⟩
        exact ⟨.code hdigits hcode hsuffix, fun h => by simp [hdigits] at h⟩
      · rintro ⟨hdenotes, -⟩
        cases hdenotes with
        | digits hletters => simp [hdigits] at hletters
        | code _ hcode hsuffix => exact ⟨⟨_, hcode, hsuffix⟩, inWeek_of_mem_dayCodes hcode⟩

/-- An entry denotes no more than one day, since it is read as that day. -/
theorem eq_of_denotes {i : Spelling} {day' : Nat} (hshort : i.IsShort) (h : i.Denotes day)
    (h' : i.Denotes day') : day = day' := by
  have hday := dayOf_value_eq_ok_iff.mpr ⟨h, hshort⟩
  rw [dayOf_value_eq_ok_iff.mpr ⟨h', hshort⟩, Except.ok.injEq] at hday
  exact hday.symm

/-! ## Lists -/

/-- The value that a list of entries is given as. -/
def valueOf (items : List Spelling) : Value := .list (items.map value)

variable {items items' : List Spelling} {w : Weekdays}

theorem ofValue_valueOf_eq_ok_iff : ofValue (valueOf items) = .ok w ↔
    ∃ days, items.mapM (fun i => dayOf i.value) = .ok days ∧ w = ofList days := by
  have hlist : ofValue (valueOf items) =
      (items.map value).mapM dayOf >>= fun days => .ok (ofList days) := rfl
  rw [hlist, List.mapM_map, bind_eq_ok_iff]
  simp only [Except.ok.injEq, eq_comm (b := w)]
  rfl

/-- A list is accepted if all its entries denote days and can be read. -/
theorem exists_ofValue_iff : (∃ w, ofValue (valueOf items) = .ok w) ↔
    ∀ i ∈ items, (∃ day, i.Denotes day) ∧ i.IsShort := by
  have hdays : (∃ w, ofValue (valueOf items) = .ok w) ↔
      ∃ days, items.mapM (fun i => dayOf i.value) = .ok days := by
    simp only [ofValue_valueOf_eq_ok_iff]
    exact ⟨fun ⟨_, days, h, _⟩ => ⟨days, h⟩, fun ⟨days, h⟩ => ⟨_, days, h, rfl⟩⟩
  rw [hdays, exists_mapM_eq_ok_iff]
  simp only [dayOf_value_eq_ok_iff, exists_and_right]

/-- The days of the set are those that the entries denote. -/
theorem mem_days_iff (h : ofValue (valueOf items) = .ok w) :
    day ∈ w.days ↔ ∃ i ∈ items, i.Denotes day := by
  have hshort := exists_ofValue_iff.mp ⟨w, h⟩
  obtain ⟨days, hdays, rfl⟩ := ofValue_valueOf_eq_ok_iff.mp h
  rw [mem_ofList, mem_of_mapM_eq_ok hdays]
  constructor
  · rintro ⟨-, i, hi, hday⟩
    exact ⟨i, hi, (dayOf_value_eq_ok_iff.mp hday).1⟩
  · rintro ⟨i, hi, hday⟩
    have hday := dayOf_value_eq_ok_iff.mpr ⟨hday, (hshort i hi).2⟩
    exact ⟨(dayOf_eq_ok_iff.mp hday).2, i, hi, hday⟩

/-- Lists of the same days give the same set. -/
theorem ofValue_of_sameDays (h : ofValue (valueOf items) = .ok w)
    (hshort : ∀ i ∈ items', i.IsShort) (hsame : SameDays items items') :
    ofValue (valueOf items') = .ok w := by
  have hitems := exists_ofValue_iff.mp ⟨w, h⟩
  obtain ⟨w', h'⟩ := exists_ofValue_iff.mpr fun i hi => by
    obtain ⟨j, -, day, -, hday⟩ := hsame.2 i hi
    exact ⟨⟨day, hday⟩, hshort i hi⟩
  rw [h', Except.ok.injEq]
  refine eq_of_mem_iff fun d => ?_
  rw [mem_days_iff h', mem_days_iff h]
  constructor
  · rintro ⟨j, hj, hd⟩
    obtain ⟨i, hi, day, hi', hj'⟩ := hsame.2 j hj
    obtain rfl := eq_of_denotes (hshort j hj) hd hj'
    exact ⟨i, hi, hi'⟩
  · rintro ⟨i, hi, hd⟩
    obtain ⟨j, hj, day, hi', hj'⟩ := hsame.1 i hi
    obtain rfl := eq_of_denotes (hitems i hi).2 hd hi'
    exact ⟨j, hj, hj'⟩

/-- The days of a set as numbers. -/
def numbers (w : Weekdays) : List Spelling := w.days.map fun (day : Nat) => .number day

/-- A set gives itself when its days are listed. -/
theorem ofValue_numbers (w : Weekdays) : ofValue (valueOf w.numbers) = .ok w := by
  refine ofValue_valueOf_eq_ok_iff.mpr ⟨w.days, ?_, (ofList_days w).symm⟩
  rw [numbers, mapM_eq_ok_iff_forall₂, List.forall₂_map_left_iff, List.forall₂_same]
  intro day hday
  exact dayOf_value_eq_ok_iff.mpr ⟨.number (w.inWeek day hday), trivial⟩

/-- A list of numbers and texts of any length is accepted if and only if every entry denotes a day,
    and is no longer than what is read of digits.  The set that is made of it holds exactly the
    days that are denoted, in ascending order; it is the same for every list of the same days, and
    for the list of its own days. -/
theorem ofValue_spellings (items : List Spelling) :
    ((∃ w, ofValue (valueOf items) = .ok w) ↔
      ∀ i ∈ items, (∃ day, i.Denotes day) ∧ i.IsShort) ∧
    ∀ w, ofValue (valueOf items) = .ok w →
      w.days.Pairwise (· < ·) ∧ (∀ day ∈ w.days, 1 ≤ day ∧ day ≤ 7) ∧
      (∀ day, day ∈ w.days ↔ ∃ i ∈ items, i.Denotes day) ∧
      (∀ items', (∀ i ∈ items', i.IsShort) → SameDays items items' →
        ofValue (valueOf items') = .ok w) ∧
      ofValue (valueOf w.numbers) = .ok w :=
  ⟨exists_ofValue_iff, fun w h => ⟨w.ascending, w.inWeek, fun _ => mem_days_iff h,
    fun _ hshort hsame => ofValue_of_sameDays h hshort hsame, ofValue_numbers w⟩⟩

/-- A Devanagari seven, an ordinal in front of a code and a repetition. -/
example : (ofValue (valueOf [.text "\u096d", .text " -1mo", .number 7])).map (·.days) =
    .ok [2, 7] := by
  decide +kernel

/-! ## Long numbers -/

/-- The digits of one, with zeros in front. -/
def paddedOne (zeros : Nat) : String := String.ofList (List.replicate zeros '0' ++ ['1'])

theorem token_paddedOne (zeros : Nat) : token (paddedOne zeros) = paddedOne zeros := by
  have hdigits : ∀ c ∈ List.replicate zeros '0' ++ ['1'],
      isBlank c = false ∧ upperChar c = [c] := by
    intro c hc
    rw [List.mem_append, List.mem_singleton] at hc
    rcases hc with hc | rfl
    · rw [List.eq_of_mem_replicate hc]
      decide
    · decide
  have htrim : trim (paddedOne zeros) = paddedOne zeros := by
    refine DateToken.trim_of_ends ?_ ?_ <;> rw [paddedOne, String.toList_ofList] <;> intro c hc
    · exact (hdigits c (List.mem_of_mem_head? hc)).1
    · exact (hdigits c (List.mem_of_getLast? hc)).1
  rw [token, htrim, upper, paddedOne, String.toList_ofList,
    List.flatMap_congr fun c hc => (hdigits c hc).2, List.flatMap_singleton']

theorem values_paddedOne (zeros : Nat) :
    (token (paddedOne zeros)).toList.map decimalValue? =
      (List.replicate zeros 0 ++ [1]).map some := by
  rw [token_paddedOne, paddedOne, String.toList_ofList, List.map_append, List.map_append,
    List.map_replicate, List.map_replicate]
  rfl

theorem isDigits_paddedOne (zeros : Nat) : isDigits (token (paddedOne zeros)) = true := by
  refine isDigits_iff.mpr ⟨?_, fun c hc => ?_⟩
  · rw [token_paddedOne, paddedOne, String.toList_ofList]
    simp
  · exact isDigit_of_isDecimal (isDecimal_of_values (values_paddedOne zeros) c hc)

/-- Zeros in front do not change what is denoted. -/
theorem denotes_paddedOne (zeros : Nat) : (Spelling.text (paddedOne zeros)).Denotes 1 := by
  refine .digits (isDigits_paddedOne zeros) (values_paddedOne zeros) ?_ (by decide)
  rw [List.reverse_append, List.reverse_replicate, List.reverse_singleton,
    Nat.ofDigits_append_replicate_zero, Nat.ofDigits_singleton]

/-- They are read up to the limit. -/
theorem exists_ofValue_paddedOne_iff (zeros : Nat) :
    (∃ w, ofValue (valueOf [.text (paddedOne zeros)]) = .ok w) ↔ zeros < integerDigitLimit := by
  have hshort : (Spelling.text (paddedOne zeros)).IsShort ↔ zeros < integerDigitLimit := by
    rw [IsShort, isDigits_paddedOne, token_paddedOne, paddedOne, String.length_ofList,
      List.length_append, List.length_replicate, List.length_singleton]
    exact (forall_prop_of_true rfl).trans Nat.succ_le_iff
  rw [exists_ofValue_iff, List.forall_mem_singleton, hshort]
  exact and_iff_right ⟨1, denotes_paddedOne zeros⟩

/-- A day may be denoted by more digits than are read: one with 4300 zeros in front is refused. -/
theorem ofValue_paddedOne_refused :
    (Spelling.text (paddedOne 4300)).Denotes 1 ∧
      ¬ ∃ w, ofValue (valueOf [.text (paddedOne 4300)]) = .ok w :=
  ⟨denotes_paddedOne 4300, fun h =>
    absurd ((exists_ofValue_paddedOne_iff 4300).mp h) (by simp [integerDigitLimit])⟩

end EventCalendar.Weekdays
