/-
  EventCalendar.Proofs.DateToken

  Tokens that name a day.  The digits of such a token can be divided into the
  fields of a day in one way only: four for the year, two for the month and two
  for the day.  If it is read at all, it is midnight of that day.
-/

import EventCalendar.DateToken
import EventCalendar.Proofs.Outcome
import EventCalendar.Proofs.Time.Months

namespace EventCalendar

open EventCalendar.Text EventCalendar.Time

/-! ## Days -/

theorem Time.microsPerDay_pos : 0 < microsPerDay := by decide

/-- Midnight of a date on the clock of a zone. -/
def Time.Date.midnightIn (d : Date) (zone : Zone) : Moment :=
  ⟨Wall.on d 0 microsPerDay_pos, false, zone⟩

/-- The zone of the days that a reader reads. -/
def DateToken.Reader.zone (r : DateToken.Reader) : Zone :=
  Zone.resolve (some r.defaultZone) Zone.defaultName

namespace DateToken

/-- The characters are the decimal digits of a date: four for the year, two for the month and two
    for the day. -/
structure SpellsDay (cs : List Char) (year month day : List Nat) (d : Date) : Prop where
  digits : cs.map decimalValue? = (year ++ month ++ day).map some
  year_length : year.length = 4
  month_length : month.length = 2
  day_length : day.length = 2
  year_eq : d.year = decimalNumber year
  month_eq : d.month = decimalNumber month
  day_eq : d.day = decimalNumber day

/-- The value of a token is a date in eight decimal digits. -/
def NamesDay (token : String) (d : Date) : Prop :=
  ∃ year month day, SpellsDay (splitZone (trim token)).2.toList year month day d

/-! ## Divisions -/

/-- Only decimal digits can stand at a place. -/
def Place.isDecimal : Place → Bool
  | .between _ high => high ≤ 9
  | .any => true

theorem decimalValue?_of_place {p : Place} {c : Char} {n : Nat} (hp : p.isDecimal = true)
    (h : p.digit? c = some n) : decimalValue? c = some n := by
  cases p with
  | any => exact h
  | between low high =>
    simp only [Place.isDecimal, decide_eq_true_eq] at hp
    simp only [Place.digit?] at h
    split at h
    · rename_i hrange
      cases h
      have hzero : (decide (0x30 ≤ c.toNat) && decide (c.toNat < 0x30 + 10)) = true := by
        rw [Bool.and_eq_true, decide_eq_true_eq, decide_eq_true_eq]
        omega
      -- the zero of ASCII is the first of all zeros
      have hfind : (decimalZeros.find? fun start =>
          decide (start ≤ c.toNat) && decide (c.toNat < start + 10)) = some 0x30 :=
        List.find?_cons_of_pos hzero
      rw [decimalValue?, hfind, Option.map_some]
    · cases h

variable {cs rest : List Char} {digits : List Nat}

/-- The digits of a layout stand at the front of the text, one for each place. -/
theorem readLayout_spec {layout : List Place} (hdecimal : ∀ p ∈ layout, p.isDecimal = true)
    (h : readLayout layout cs = some (digits, rest)) :
    cs.map decimalValue? = digits.map some ++ rest.map decimalValue? ∧
      digits.length = layout.length := by
  induction layout generalizing cs digits with
  | nil =>
    cases h
    exact ⟨rfl, rfl⟩
  | cons p layout ih =>
    rw [List.forall_mem_cons] at hdecimal
    cases cs with
    | nil => cases h
    | cons c cs =>
      unfold readLayout at h
      split at h
      · rename_i digit digits' rest' hdigit hrest
        cases h
        obtain ⟨hvalues, hlength⟩ := ih hdecimal.2 hrest
        rw [List.map_cons, decimalValue?_of_place hdecimal.1 hdigit, hvalues, List.length_cons,
          hlength]
        exact ⟨rfl, rfl⟩
      · cases h

/-- A division that starts with a number takes the digits of one of its layouts, and goes on
    behind them. -/
theorem exists_of_mem_divisions_number {layouts : List (List Place)} {pieces : List Piece}
    {ns : List Nat} (hdecimal : ∀ layout ∈ layouts, ∀ p ∈ layout, p.isDecimal = true)
    (h : (ns, rest) ∈ divisions (.number layouts :: pieces) cs) :
    ∃ digits behind ns', cs.map decimalValue? = digits.map some ++ behind.map decimalValue? ∧
      digits.length ∈ layouts.map List.length ∧
      (ns', rest) ∈ divisions pieces behind ∧ ns = decimalNumber digits :: ns' := by
  simp only [divisions, List.mem_flatMap, List.mem_filterMap, List.mem_map, Prod.mk.injEq] at h
  obtain ⟨⟨digits, behind⟩, ⟨layout, hlayout, hread⟩, ⟨ns', rest'⟩, hmem, hns, rfl⟩ := h
  obtain ⟨hvalues, hlength⟩ := readLayout_spec (hdecimal layout hlayout) hread
  refine ⟨digits, behind, ns', hvalues, ?_, hmem, hns.symm⟩
  rw [hlength]
  exact List.mem_map_of_mem hlayout

/-- Eight digits are divided into the fields of a day at the fourth and at the sixth. -/
theorem SpellsDay.eq_of_mem_divisions {year month day ns : List Nat} {d : Date}
    (hspells : SpellsDay cs year month day d) (h : (ns, []) ∈ divisions Form.day.pieces cs) :
    ns = [d.year, d.month, d.day] := by
  obtain ⟨ys, afterYear, ns₁, hys, hyear, h₁, rfl⟩ :=
    exists_of_mem_divisions_number (by decide) h
  obtain ⟨ms, afterMonth, ns₂, hms, hmonth, h₂, rfl⟩ :=
    exists_of_mem_divisions_number (by decide) h₁
  obtain ⟨ds, afterDay, ns₃, hds, hday, h₃, rfl⟩ :=
    exists_of_mem_divisions_number (by decide) h₂
  obtain ⟨rfl, rfl⟩ : ns₃ = [] ∧ afterDay = [] := by
    simpa [divisions, eq_comm] using h₃
  have hsplit : ys ++ (ms ++ ds) = year ++ (month ++ day) := by
    apply (List.map_inj_right fun _ _ => Option.some.inj).mp
    rw [← List.append_assoc year, ← hspells.digits, hys, hms, hds]
    simp
  -- the year takes four digits, and neither the month nor the day more than two
  have hyear' : ys.length = 4 := List.mem_singleton.mp hyear
  have hmonth' : ms.length ≤ 2 := (by decide : ∀ n ∈ [2, 2, 1], n ≤ 2) _ hmonth
  have hday' : ds.length ≤ 2 := (by decide : ∀ n ∈ [2, 2, 2, 1], n ≤ 2) _ hday
  obtain ⟨hy, hrest⟩ := List.append_inj hsplit (hyear'.trans hspells.year_length.symm)
  have hcount := congrArg List.length hrest
  rw [List.length_append, List.length_append, hspells.month_length, hspells.day_length] at hcount
  obtain ⟨hm, hd⟩ := List.append_inj hrest (by rw [hspells.month_length]; omega)
  rw [hy, hm, hd, hspells.year_eq, hspells.month_eq, hspells.day_eq]

/-! ## Reading -/

/-- Trimming takes characters away at the ends. -/
theorem trimBy_sublist (p : Char → Bool) (cs : List Char) : (trimBy p cs).Sublist cs := by
  have hback := (List.dropWhile_sublist p (l := (cs.dropWhile p).reverse)).reverse
  rw [List.reverse_reverse] at hback
  exact hback.trans (List.dropWhile_sublist p)

theorem trim_of_length_eq {s : String} (h : (trim s).length = s.length) : trim s = s := by
  unfold trim at h ⊢
  rw [String.length_ofList, ← String.length_toList] at h
  rw [(trimBy_sublist isBlank s.toList).eq_of_length h, String.ofList_toList]

theorem length_trim_le (s : String) : (trim s).length ≤ s.length := by
  rw [trim, String.length_ofList, ← String.length_toList]
  exact (trimBy_sublist isBlank s.toList).length_le

theorem NamesDay.length_eq {token : String} {d : Date} (h : NamesDay token d) :
    (splitZone (trim token)).2.length = 8 := by
  obtain ⟨year, month, day, hspells⟩ := h
  have hcount := congrArg List.length hspells.digits
  rw [← String.length_toList]
  simpa [hspells.year_length, hspells.month_length, hspells.day_length] using hcount

theorem NamesDay.isDay {token : String} {d : Date} (h : NamesDay token d) :
    isDay (splitZone (trim token)).2 = true := by
  have hle := length_trim_le (splitZone (trim token)).2
  rw [h.length_eq] at hle
  exact decide_eq_true hle

/-- A text that spells a date is read, if it is, as midnight of that date. -/
theorem SpellsDay.eq_of_readForm {value : String} {wall : Wall} {year month day : List Nat}
    {d : Date} (hspells : SpellsDay value.toList year month day d)
    (h : readForm .day value = .ok wall) : wall = Wall.on d 0 microsPerDay_pos := by
  have hdivided {ns : List Nat} {others : List (List Nat × List Char)}
      (hdivisions : divisions Form.day.pieces value.toList = (ns, []) :: others) :
      ns = [d.year, d.month, d.day] := by
    apply hspells.eq_of_mem_divisions
    rw [hdivisions]
    exact List.mem_cons_self
  unfold readForm at h
  split at h
  · cases h
  · cases h
  · rename_i hdivisions
    cases hdivided hdivisions
  · rename_i hdivisions
    cases hdivided hdivisions
    have hyear : d.year ≠ 0 := Nat.pos_iff_ne_zero.mp d.year_pos
    have hvalid : Date.of? d.year d.month d.day = some d :=
      Date.of?_eq_some_iff.mpr ⟨rfl, rfl, rfl⟩
    rw [ofFields, if_neg hyear, hvalid] at h
    cases h
    rfl
  · cases h

/-- A day that is read is what its text says, on the reader's own clock. -/
theorem Reader.exists_wall_of_readDay {r : Reader} {value : String} {m : Moment}
    (hlength : value.length = 8) (h : (r.readDay value).outcome = .ok m) :
    ∃ wall, readForm .day value = .ok wall ∧ m = ⟨wall, false, r.zone⟩ := by
  unfold Reader.readDay at h
  simp only at h
  split at h
  · cases h
  · rename_i hform
    have htrim : (trim value).length = 8 := by
      by_contra hne
      simp [hne] at hform
    rw [trim_of_length_eq (htrim.trans hlength.symm)] at h
    rw [Traced.outcome_bind] at h
    obtain ⟨wall, hwall, h⟩ := bind_eq_ok_iff.mp h
    cases h
    exact ⟨wall, hwall, rfl⟩

/-- A token that names a day is read, if it is, as midnight of that day on the reader's own
    clock. -/
theorem Reader.read_of_namesDay {r : Reader} {token : String} {zone : Option String} {d : Date}
    {m : Moment} (htoken : NamesDay token d) (h : (r.read token zone).outcome = .ok m) :
    m = d.midnightIn r.zone := by
  have hday := htoken.isDay
  have hcount := htoken.length_eq
  obtain ⟨year, month, day, hspells⟩ := htoken
  unfold Reader.read at h
  simp only [hday, if_true] at h
  split at h
  · cases h
  · split at h
    · cases h
    · obtain ⟨wall, hwall, rfl⟩ := Reader.exists_wall_of_readDay hcount h
      rw [hspells.eq_of_readForm hwall]
      rfl

end DateToken

end EventCalendar
