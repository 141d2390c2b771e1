/-
  EventCalendar.Proofs.DateToken.Grammar

  What a token may say.  A token without a zone in front names a date, a time
  of day on a date, or such a time in universal time, with every number in full
  width; a reader takes these tokens and no others, and reads from each the date
  and time that it spells.
-/

import EventCalendar.Proofs.DateToken.Fields
import Mathlib.Data.List.DropRight

namespace EventCalendar

open EventCalendar.Text EventCalendar.Time

namespace DateToken

/-! ## The grammar -/

/-- A time of day to the second. -/
structure Clock where
  hour : Nat
  minute : Nat
  second : Nat
  hour_lt : hour < 24
  minute_lt : minute < 60
  second_lt : second < 60
  deriving DecidableEq, Repr

/-- The reading of the clock on a date. -/
def Clock.on (c : Clock) (d : Date) : Wall :=
  Wall.on d (((c.hour * 60 + c.minute) * 60 + c.second) * 1000000) (by
    have hhour := c.hour_lt
    have hminute := c.minute_lt
    have hsecond := c.second_lt
    simp only [microsPerDay]
    omega)

/-- What a token says. -/
inductive Written where
  | day (d : Date)
  | localTime (d : Date) (c : Clock)
  | universalTime (d : Date) (c : Clock)
  deriving DecidableEq, Repr

/-- A year in four digits, a month and a day in two. -/
def dateDecimals (year month day : Nat) : List Char :=
  decimals 4 year ++ (decimals 2 month ++ decimals 2 day)

/-- Hours, minutes and seconds in two digits. -/
def clockDecimals (hour minute second : Nat) : List Char :=
  decimals 2 hour ++ (decimals 2 minute ++ decimals 2 second)

namespace Written

/-- The characters of a token. -/
def characters : Written → List Char
  | .day d => dateDecimals d.year d.month d.day
  | .localTime d c =>
    dateDecimals d.year d.month d.day ++ 'T' :: clockDecimals c.hour c.minute c.second
  | .universalTime d c =>
    dateDecimals d.year d.month d.day ++ 'T' :: (clockDecimals c.hour c.minute c.second ++ ['Z'])

/-- The text of a token. -/
def spelling (x : Written) : String := String.ofList x.characters

/-- The form of a token. -/
def form : Written → Form
  | .day _ => .day
  | .localTime _ _ => .local
  | .universalTime _ _ => .universal

/-- The reading of the clock that a token names; a day is midnight. -/
def wall : Written → Wall
  | .day d => Wall.on d 0 microsPerDay_pos
  | .localTime d c | .universalTime d c => c.on d

end Written

namespace Reader

/-- The zone that a name stands for, a reader's own where no name is given. -/
def zoneFor (r : Reader) : Option String → Zone
  | some name => Zone.resolve (some name) r.defaultZone
  | none => r.zone

/-- The date-time that a token names: a day in the reader's own zone, whatever zone is named
    beside it, a local time in the zone that is named, universal time by itself. -/
def momentOf (r : Reader) (zone : Option String) (x : Written) : Moment :=
  match x with
  | .day _ => ⟨x.wall, false, r.zone⟩
  | .localTime _ _ => ⟨x.wall, false, r.zoneFor zone⟩
  | .universalTime _ _ => ⟨x.wall, false, .utc⟩

end Reader

/-! ## Texts of a form -/

/-- Numbers for the fields of a token. -/
structure Numbers where
  year : Nat
  month : Nat
  day : Nat
  hour : Nat
  minute : Nat
  second : Nat

/-- The numbers have as many digits as their fields. -/
structure Numbers.InWidth (n : Numbers) : Prop where
  year : n.year < 10 ^ 4
  month : n.month < 10 ^ 2
  day : n.day < 10 ^ 2
  hour : n.hour < 10 ^ 2
  minute : n.minute < 10 ^ 2
  second : n.second < 10 ^ 2

/-- The text of a form with these numbers. -/
def Form.characters (n : Numbers) : Form → List Char
  | .day => dateDecimals n.year n.month n.day
  | .local => dateDecimals n.year n.month n.day ++ 'T' :: clockDecimals n.hour n.minute n.second
  | .universal =>
    dateDecimals n.year n.month n.day ++
      'T' :: (clockDecimals n.hour n.minute n.second ++ ['Z'])

/-- The numbers that a form has fields for. -/
def Form.numbers (n : Numbers) : Form → List Nat
  | .day => [n.year, n.month, n.day]
  | .local | .universal => [n.year, n.month, n.day, n.hour, n.minute, n.second]

/-- The numbers in a token. -/
def Written.numbers : Written → Numbers
  | .day d => ⟨d.year, d.month, d.day, 0, 0, 0⟩
  | .localTime d c | .universalTime d c => ⟨d.year, d.month, d.day, c.hour, c.minute, c.second⟩

theorem Written.characters_eq (x : Written) : x.characters = x.form.characters x.numbers := by
  cases x <;> rfl

/-! ## Dividing a token into its fields -/

variable {rest behind : List Char} {ns : List Nat} {pieces : List Piece} {n : Numbers}

/-- A date in front of what fits the pieces that are left is taken in full width. -/
theorem Numbers.InWidth.exists_of_mem_divisions_date (hn : n.InWidth)
    (hrest : rest.length = (pieces.map Piece.reach).sum)
    (h : (ns, []) ∈ divisions (yearField :: monthField :: dayField :: pieces)
      (dateDecimals n.year n.month n.day ++ rest)) :
    ∃ ns', (ns', []) ∈ divisions pieces rest ∧ ns = n.year :: n.month :: n.day :: ns' := by
  rw [dateDecimals, List.append_assoc, List.append_assoc] at h
  exact exists_of_mem_divisions_three h hrest (by decide) rfl rfl rfl hn.year hn.month hn.day

/-- So is a time of day. -/
theorem Numbers.InWidth.exists_of_mem_divisions_clock (hn : n.InWidth)
    (hrest : rest.length = (pieces.map Piece.reach).sum)
    (h : (ns, []) ∈ divisions (hourField :: minuteField :: secondField :: pieces)
      (clockDecimals n.hour n.minute n.second ++ rest)) :
    ∃ ns', (ns', []) ∈ divisions pieces rest ∧ ns = n.hour :: n.minute :: n.second :: ns' := by
  rw [clockDecimals, List.append_assoc, List.append_assoc] at h
  exact exists_of_mem_divisions_three h hrest (by decide) rfl rfl rfl hn.hour hn.minute hn.second

theorem length_clockDecimals (hour minute second : Nat) :
    (clockDecimals hour minute second).length = 6 := by
  simp only [clockDecimals, List.length_append, length_decimals]

theorem divisions_letter (l : Char) (pieces : List Piece) (rest : List Char) :
    divisions (.letter l :: pieces) (l :: rest) = divisions pieces rest := by
  rw [divisions, if_pos rfl]

/-- The text of a form is used up in one way only. -/
theorem Numbers.InWidth.eq_of_mem_divisions (hn : n.InWidth) {form : Form}
    (h : (ns, []) ∈ divisions form.pieces (form.characters n)) : ns = form.numbers n := by
  have hclock := length_clockDecimals n.hour n.minute n.second
  cases form with
  | day =>
    rw [Form.characters, ← List.append_nil (dateDecimals n.year n.month n.day)] at h
    obtain ⟨ns', hrest, rfl⟩ := hn.exists_of_mem_divisions_date rfl h
    obtain rfl : ns' = [] := by simpa [divisions] using hrest
    rfl
  | «local» =>
    obtain ⟨ns', htime, rfl⟩ := hn.exists_of_mem_divisions_date
      (by rw [List.length_cons, hclock]; rfl) h
    rw [divisions_letter, ← List.append_nil (clockDecimals n.hour n.minute n.second)] at htime
    obtain ⟨ns'', hrest, rfl⟩ := hn.exists_of_mem_divisions_clock rfl htime
    obtain rfl : ns'' = [] := by simpa [divisions] using hrest
    rfl
  | universal =>
    obtain ⟨ns', htime, rfl⟩ := hn.exists_of_mem_divisions_date
      (by rw [List.length_cons, List.length_append, hclock]; rfl) h
    rw [divisions_letter] at htime
    obtain ⟨ns'', hrest, rfl⟩ := hn.exists_of_mem_divisions_clock rfl htime
    obtain rfl : ns'' = [] := by simpa [divisions] using hrest
    rfl

/-- The first division takes the numbers of a date as they are. -/
theorem head?_divisions_date (d : Date)
    (hrest : (divisions pieces rest).head? = some (ns, behind)) :
    (divisions (yearField :: monthField :: dayField :: pieces)
      (dateDecimals d.year d.month d.day ++ rest)).head? =
        some (d.year :: d.month :: d.day :: ns, behind) := by
  have hyear : d.year < 10 ^ 4 := Nat.lt_succ_of_le d.year_le
  have hmonth : d.month < 13 := Nat.lt_succ_of_le d.month_le
  have hday : d.day < 32 := Nat.lt_succ_of_le (Nat.le_trans d.day_le (monthLength_le _ _))
  rw [dateDecimals, List.append_assoc, List.append_assoc]
  refine head?_divisions_decimals (yearField_takes _) hyear
    (head?_divisions_decimals (monthField_takes _ hmonth d.month_pos) (by omega)
      (head?_divisions_decimals (dayField_takes _ hday d.day_pos) (by omega) hrest))

/-- The first division takes the numbers of a time of day as they are. -/
theorem head?_divisions_clock (c : Clock)
    (hrest : (divisions pieces rest).head? = some (ns, behind)) :
    (divisions (hourField :: minuteField :: secondField :: pieces)
      (clockDecimals c.hour c.minute c.second ++ rest)).head? =
        some (c.hour :: c.minute :: c.second :: ns, behind) := by
  have hhour := c.hour_lt
  have hminute := c.minute_lt
  have hsecond := c.second_lt
  rw [clockDecimals, List.append_assoc, List.append_assoc]
  refine head?_divisions_decimals (hourField_takes _ hhour) (by omega)
    (head?_divisions_decimals (minuteField_takes _ hminute) (by omega)
      (head?_divisions_decimals (secondField_takes _ hsecond) (by omega) hrest))

theorem Written.head?_divisions (x : Written) :
    (divisions x.form.pieces x.characters).head? = some (x.form.numbers x.numbers, []) := by
  cases x with
  | day d =>
    have hdate : (divisions Form.day.pieces (dateDecimals d.year d.month d.day ++ [])).head? =
        some ([d.year, d.month, d.day], []) := head?_divisions_date d rfl
    rwa [List.append_nil] at hdate
  | localTime d c =>
    have hclock : (divisions [hourField, minuteField, secondField]
        (clockDecimals c.hour c.minute c.second ++ [])).head? =
          some ([c.hour, c.minute, c.second], []) := head?_divisions_clock c rfl
    rw [List.append_nil] at hclock
    exact head?_divisions_date d hclock
  | universalTime d c =>
    have hclock : (divisions [hourField, minuteField, secondField, .letter 'Z']
        (clockDecimals c.hour c.minute c.second ++ ['Z'])).head? =
          some ([c.hour, c.minute, c.second], []) := head?_divisions_clock c rfl
    exact head?_divisions_date d hclock

/-! ## Reading the fields -/

theorem ofFields_eq_ok_iff {year month day hour minute second : Nat} {wall : Wall} :
    ofFields year month day hour minute second = .ok wall ↔
      ∃ (d : Date) (c : Clock), d.year = year ∧ d.month = month ∧ d.day = day ∧
        c.hour = hour ∧ c.minute = minute ∧ c.second = second ∧ c.on d = wall := by
  constructor
  · intro h
    unfold ofFields at h
    split at h
    · cases h
    split at h
    · cases h
    rename_i d hdate
    split at h
    · cases h
    rename_i hclock
    cases h
    obtain ⟨hyear, hmonth, hday⟩ := Date.of?_eq_some_iff.mp hdate
    unfold Wall.onClock? at hclock
    split at hclock
    · rename_i hbounds
      cases hclock
      exact ⟨d, ⟨hour, minute, second, hbounds.1, hbounds.2.1, hbounds.2.2⟩,
        hyear, hmonth, hday, rfl, rfl, rfl, rfl⟩
    · cases hclock
  · rintro ⟨d, c, rfl, rfl, rfl, rfl, rfl, rfl, rfl⟩
    have hyear : d.year ≠ 0 := Nat.pos_iff_ne_zero.mp d.year_pos
    have hdate : Date.of? d.year d.month d.day = some d :=
      Date.of?_eq_some_iff.mpr ⟨rfl, rfl, rfl⟩
    have hclock : Wall.onClock? d c.hour c.minute c.second = some (c.on d) :=
      dif_pos ⟨c.hour_lt, c.minute_lt, c.second_lt⟩
    simp only [ofFields, if_neg hyear, hdate, hclock]

theorem Clock.on_zero {c : Clock} (hhour : c.hour = 0) (hminute : c.minute = 0)
    (hsecond : c.second = 0) (d : Date) : c.on d = Wall.on d 0 microsPerDay_pos := by
  apply Wall.ext_micros
  simp [Clock.on, hhour, hminute, hsecond]

/-- Every token of the grammar is read as what it says. -/
theorem Written.readForm_spelling (x : Written) : readForm x.form x.spelling = .ok x.wall := by
  obtain ⟨others, hdivisions⟩ := List.head?_eq_some_iff.mp x.head?_divisions
  rw [readForm, spelling, String.toList_ofList, hdivisions]
  cases x with
  | day d =>
    let midnight : Clock := ⟨0, 0, 0, by decide, by decide, by decide⟩
    exact ofFields_eq_ok_iff.mpr
      ⟨d, midnight, rfl, rfl, rfl, rfl, rfl, rfl, Clock.on_zero rfl rfl rfl d⟩
  | localTime d c | universalTime d c =>
    exact ofFields_eq_ok_iff.mpr ⟨d, c, rfl, rfl, rfl, rfl, rfl, rfl, rfl⟩

/-- What is read has been used up by its fields. -/
theorem exists_of_readForm {form : Form} {value : String} {wall : Wall}
    (h : readForm form value = .ok wall) :
    ∃ ns, (ns, []) ∈ divisions form.pieces value.toList ∧
      ((∃ year month day, ns = [year, month, day] ∧
          ofFields year month day 0 0 0 = .ok wall) ∨
        ∃ year month day hour minute second, ns = [year, month, day, hour, minute, second] ∧
          ofFields year month day hour minute second = .ok wall) := by
  unfold readForm at h
  split at h
  · cases h
  · cases h
  · rename_i hdivisions
    exact ⟨_, hdivisions ▸ List.mem_cons_self, .inr ⟨_, _, _, _, _, _, rfl, h⟩⟩
  · rename_i hdivisions
    exact ⟨_, hdivisions ▸ List.mem_cons_self, .inl ⟨_, _, _, rfl, h⟩⟩
  · cases h

/-- The text of a form that is read has a date and a time of day for its numbers. -/
theorem Numbers.InWidth.exists_of_readForm (hn : n.InWidth) {form : Form} {wall : Wall}
    (h : readForm form (String.ofList (form.characters n)) = .ok wall) :
    ∃ x : Written, x.form = form ∧ x.characters = form.characters n ∧ x.wall = wall := by
  obtain ⟨ns, hmem, hfields⟩ := DateToken.exists_of_readForm h
  rw [String.toList_ofList] at hmem
  have hns := hn.eq_of_mem_divisions hmem
  cases n
  rcases hfields with ⟨_, _, _, rfl, hread⟩ | ⟨_, _, _, _, _, _, rfl, hread⟩ <;>
    obtain ⟨d, c, rfl, rfl, rfl, hhour, hminute, hsecond, rfl⟩ := ofFields_eq_ok_iff.mp hread
  · cases form <;> cases hns
    exact ⟨.day d, rfl, rfl, (Clock.on_zero hhour hminute hsecond d).symm⟩
  · subst hhour hminute hsecond
    cases form <;> cases hns
    · exact ⟨.localTime d c, rfl, rfl, rfl⟩
    · exact ⟨.universalTime d c, rfl, rfl, rfl⟩

/-! ## Texts that have a form -/

theorem hasForm_eq_true_iff {cs : List Char} :
    hasForm cs = true ↔ ∃ day behind, cs = day ++ behind ∧ day.length = 8 ∧
      (∀ c ∈ day, isDecimal c = true) ∧
      (behind = [] ∨ ∃ time tail, behind = 'T' :: (time ++ tail) ∧ time.length = 6 ∧
        (∀ c ∈ time, isDecimal c = true) ∧ (tail = [] ∨ tail = ['Z'])) := by
  constructor
  · intro h
    simp only [hasForm, Bool.and_eq_true, beq_iff_eq, List.all_eq_true] at h
    obtain ⟨⟨hlength, hdecimal⟩, hbehind⟩ := h
    refine ⟨cs.take 8, cs.drop 8, (List.take_append_drop 8 cs).symm, hlength, hdecimal, ?_⟩
    split at hbehind
    · exact .inl ‹_›
    · rename_i rest hrest
      simp only [Bool.and_eq_true, beq_iff_eq, List.all_eq_true, Bool.or_eq_true] at hbehind
      refine .inr ⟨rest.take 6, rest.drop 6, ?_, hbehind.1.1, hbehind.1.2, hbehind.2⟩
      rw [hrest, List.take_append_drop]
    · cases hbehind
  · rintro ⟨day, behind, rfl, hlength, hdecimal, hbehind⟩
    simp only [hasForm, List.take_left' hlength, List.drop_left' hlength, Bool.and_eq_true,
      beq_iff_eq, List.all_eq_true]
    refine ⟨⟨hlength, hdecimal⟩, ?_⟩
    rcases hbehind with rfl | ⟨time, tail, rfl, htime, hdecimal, htail⟩
    · rfl
    · simp only [List.take_left' htime, List.drop_left' htime, Bool.and_eq_true, beq_iff_eq,
        List.all_eq_true, Bool.or_eq_true]
      exact ⟨⟨htime, hdecimal⟩, htail⟩

theorem length_dateDecimals (year month day : Nat) : (dateDecimals year month day).length = 8 := by
  simp only [dateDecimals, List.length_append, length_decimals]

theorem isAsciiDigit_of_mem_dateDecimals {c : Char} {year month day : Nat}
    (h : c ∈ dateDecimals year month day) : IsAsciiDigit c := by
  rw [dateDecimals, List.mem_append, List.mem_append] at h
  rcases h with h | h | h <;> exact isAsciiDigit_of_mem_decimals h

theorem isAsciiDigit_of_mem_clockDecimals {c : Char} {hour minute second : Nat}
    (h : c ∈ clockDecimals hour minute second) : IsAsciiDigit c := by
  rw [clockDecimals, List.mem_append, List.mem_append] at h
  rcases h with h | h | h <;> exact isAsciiDigit_of_mem_decimals h

theorem hasForm_characters (form : Form) (n : Numbers) : hasForm (form.characters n) = true := by
  have hdate {behind : List Char} := fun hbehind => hasForm_eq_true_iff.mpr
    ⟨_, behind, rfl, length_dateDecimals n.year n.month n.day,
      fun c hc => (isAsciiDigit_of_mem_dateDecimals hc).2, hbehind⟩
  have hclock {tail : List Char} := fun htail => hdate <| .inr
    ⟨_, tail, rfl, length_clockDecimals n.hour n.minute n.second,
      fun c hc => (isAsciiDigit_of_mem_clockDecimals hc).2, htail⟩
  cases form with
  | day => simpa [Form.characters] using hdate (.inl rfl)
  | «local» => simpa [Form.characters] using hclock (.inl rfl)
  | universal => exact hclock (.inr rfl)

/-- An ASCII text that has a form is the text of a form with some numbers. -/
theorem exists_characters_of_hasForm {cs : List Char} (hascii : ∀ c ∈ cs, c.toNat < 128)
    (h : hasForm cs = true) :
    ∃ (form : Form) (n : Numbers), n.InWidth ∧ cs = form.characters n := by
  obtain ⟨date, behind, rfl, hdate, hdigits, hbehind⟩ := hasForm_eq_true_iff.mp h
  obtain ⟨year, hyear, month, hmonth, day, hday, rfl⟩ := exists_three_decimals 4 2 2
    (fun c hc => ⟨hascii c (List.mem_append_left _ hc), hdigits c hc⟩) hdate
  rcases hbehind with rfl | ⟨time, tail, rfl, htime, hdigits', htail⟩
  · have hzero : 0 < 10 ^ 2 := by decide
    exact ⟨.day, ⟨year, month, day, 0, 0, 0⟩, ⟨hyear, hmonth, hday, hzero, hzero, hzero⟩,
      List.append_nil _⟩
  · obtain ⟨hour, hhour, minute, hminute, second, hsecond, rfl⟩ :=
      exists_three_decimals 2 2 2 (fun c hc => ⟨hascii c (by simp [hc]), hdigits' c hc⟩) htime
    have hn : Numbers.InWidth ⟨year, month, day, hour, minute, second⟩ :=
      ⟨hyear, hmonth, hday, hhour, hminute, hsecond⟩
    rcases htail with rfl | rfl
    · exact ⟨.local, _, hn, by rw [List.append_nil]; rfl⟩
    · exact ⟨.universal, _, hn, rfl⟩

/-! ## Trimming -/

/-- Trimming twice is trimming once. -/
theorem trim_trim (s : String) : trim (trim s) = trim s := by
  have hleft : trimBy isBlank s.toList <+: s.toList.dropWhile isBlank := by
    rw [trimBy, ← List.reverse_suffix, List.reverse_reverse]
    exact List.dropWhile_suffix isBlank
  -- what is left starts with the first character that is not blank
  have hfront : (trimBy isBlank s.toList).dropWhile isBlank = trimBy isBlank s.toList := by
    rw [List.dropWhile_eq_self_iff]
    intro hlength
    rw [hleft.getElem hlength]
    exact List.dropWhile_get_zero_not isBlank s.toList _
  unfold trim
  rw [String.toList_ofList, trimBy, hfront, trimBy, List.reverse_reverse,
    List.dropWhile_idempotent]

theorem trim_of_isBlankText {s : String} (h : isBlankText s = true) : trim s = "" := by
  have hblank : s.toList.dropWhile isBlank = [] :=
    List.dropWhile_eq_nil_iff.mpr (List.all_eq_true.mp h)
  rw [trim, trimBy, hblank]
  rfl

/-! ## Reading a token -/

theorem splitZone_of_plain {text : String} (h : "TZID=".toList.isPrefixOf text.toList = false) :
    splitZone text = (none, text) := by
  rw [splitZone, if_neg (Bool.eq_false_iff.mp h)]

namespace Reader

variable {r : Reader} {token : String} {zone : Option String}

/-- An empty name is as good as none. -/
theorem zoneFor_givenName (r : Reader) (name : Option String) :
    r.zoneFor (givenName name) = r.zoneFor name := by
  cases name with
  | none => rfl
  | some name =>
    by_cases hname : name = ""
    · subst hname
      show r.zone = Zone.ofCanonical _
      have hdefault : Zone.canonical? (some Zone.defaultName) = some "UTC" := by decide +kernel
      rw [zone, Zone.resolve, Zone.resolvedName, Zone.resolvedName, hdefault]
      cases Zone.canonical? (some r.defaultZone) <;> rfl
    · rw [givenName, Option.filter_some, if_pos (bne_iff_ne.mpr hname)]

/-- What comes of a token, step by step. -/
theorem outcome_read (r : Reader) (token : String) (zone : Option String) :
    (r.read token zone).outcome =
      let (inner, value) := splitZone (trim token)
      if isBlankText token = true then .error .empty
      else if hasForm value.toList = false then .error (.unsupported value)
      else if isDay value = true then (r.readDay value).outcome
      else if value.endsWith "Z" = true then
        (readForm .universal value).map fun wall => ⟨wall, false, .utc⟩
      else
        (readForm .local value).map fun wall =>
          ⟨wall, false, r.zoneFor (firstName zone inner)⟩ := by
  unfold read
  generalize splitZone (trim token) = named
  obtain ⟨inner, value⟩ := named
  dsimp only
  by_cases hblank : isBlankText token = true
  · rw [if_pos hblank, if_pos hblank]
    rfl
  rw [if_neg hblank, if_neg hblank]
  cases hform : hasForm value.toList with
  | false => rfl
  | true =>
    simp only [Bool.not_true, Bool.false_eq_true, reduceCtorEq, if_false]
    by_cases hday : isDay value = true
    · rw [if_pos hday, if_pos hday]
    rw [if_neg hday, if_neg hday]
    by_cases huniversal : value.endsWith "Z" = true
    · rw [if_pos huniversal, if_pos huniversal, Traced.outcome_bind, Traced.outcome_ofExcept]
      cases readForm .universal value <;> rfl
    · rw [if_neg huniversal, if_neg huniversal, Traced.outcome_bind, Traced.outcome_ofExcept]
      rw [← zoneFor_givenName]
      cases readForm .local value with
      | error e => rfl
      | ok wall => cases givenName (firstName zone inner) <;> rfl

/-- A day is read on the reader's own clock. -/
theorem outcome_readDay {value : String} (htrim : trim value = value) (hlength : value.length = 8)
    (hdigits : isDigits value = true) :
    (r.readDay value).outcome = (readForm .day value).map fun wall => ⟨wall, false, r.zone⟩ := by
  unfold readDay
  simp only [htrim, hlength, hdigits]
  rw [if_neg (by decide), Traced.outcome_bind, Traced.outcome_ofExcept]
  cases readForm .day value <;> rfl

/-- The zone in which a text of a form is read. -/
def formZone (r : Reader) (zone : Option String) : Form → Zone
  | .day => r.zone
  | .local => r.zoneFor zone
  | .universal => .utc

theorem momentOf_eq (r : Reader) (zone : Option String) (x : Written) :
    r.momentOf zone x = ⟨x.wall, false, r.formZone zone x.form⟩ := by
  cases x <;> rfl

theorem firstName_none (zone : Option String) : firstName zone none = givenName zone := by
  cases zone with
  | none => rfl
  | some name =>
    by_cases hname : name = ""
    · rw [firstName, givenName, if_pos hname, Option.filter_some, if_neg (by simp [hname])]
    · rw [firstName, givenName, if_neg hname, Option.filter_some, if_pos (bne_iff_ne.mpr hname)]

/-- Texts of universal time, and no others, end in a `Z`. -/
theorem endsWith_ofList_characters (form : Form) (n : Numbers) :
    (String.ofList (form.characters n)).endsWith "Z" = true ↔ form = .universal := by
  rw [String.endsWith_eq_endsWith_toSlice, String.Slice.endsWith_string_iff, String.copy_toSlice,
    show "Z".toList = ['Z'] from rfl, String.toList_ofList]
  have hnot {cs behind : List Char} (hdigits : ∀ c ∈ behind, IsAsciiDigit c)
      (hbehind : 1 ≤ behind.length) (hsuffix : behind <:+ cs) : ¬ ['Z'] <:+ cs := by
    intro hz
    have hmem := (List.suffix_of_suffix_length_le hz hsuffix hbehind).subset
      (List.mem_singleton_self 'Z')
    exact absurd (hdigits _ hmem).2 (by decide)
  cases form with
  | day =>
    refine iff_of_false ?_ (by simp)
    refine hnot (fun c => isAsciiDigit_of_mem_dateDecimals) ?_ (List.suffix_refl _)
    simp [length_dateDecimals]
  | «local» =>
    refine iff_of_false ?_ (by simp)
    refine hnot (fun c => isAsciiDigit_of_mem_clockDecimals) ?_
      ((List.suffix_cons 'T' _).trans (List.suffix_append _ _))
    simp [length_clockDecimals]
  | universal =>
    refine iff_of_true ?_ rfl
    exact (List.suffix_append _ ['Z']).trans
      ((List.suffix_cons 'T' _).trans (List.suffix_append _ _))

theorem isDay_ofList_characters {form : Form} {n : Numbers}
    (htrim : trim (String.ofList (form.characters n)) = String.ofList (form.characters n)) :
    isDay (String.ofList (form.characters n)) = true ↔ form = .day := by
  rw [isDay, htrim, String.length_ofList, decide_eq_true_eq]
  cases form <;> simp [Form.characters, length_dateDecimals, length_clockDecimals]

/-- A text of a form is read as that form. -/
theorem outcome_read_characters {form : Form} {n : Numbers}
    (hplain : "TZID=".toList.isPrefixOf (trim token).toList = false)
    (hvalue : trim token = String.ofList (form.characters n)) :
    (r.read token zone).outcome =
      (readForm form (trim token)).map fun wall => ⟨wall, false, r.formZone zone form⟩ := by
  have hblank : isBlankText token = true → False := by
    intro hblank
    have hform := hasForm_characters form n
    rw [← String.toList_ofList (l := form.characters n), ← hvalue,
      trim_of_isBlankText hblank] at hform
    cases hform
  have htrim := trim_trim token
  rw [outcome_read, splitZone_of_plain hplain]
  dsimp only
  rw [if_neg hblank]
  rw [hvalue] at htrim ⊢
  rw [String.toList_ofList, hasForm_characters, if_neg (by decide), firstName_none,
    zoneFor_givenName]
  simp only [isDay_ofList_characters htrim, endsWith_ofList_characters]
  cases form with
  | day =>
    rw [if_pos rfl, outcome_readDay htrim]
    · rfl
    · rw [String.length_ofList, Form.characters, length_dateDecimals]
    · rw [isDigits, String.toList_ofList, Bool.and_eq_true, bne_iff_ne, List.all_eq_true]
      refine ⟨List.ne_nil_of_length_pos ?_, fun c hc => ?_⟩
      · rw [Form.characters, length_dateDecimals]
        decide
      · rw [isDigit, (isAsciiDigit_of_mem_dateDecimals hc).2]
        rfl
  | «local» => rfl
  | universal => rfl

/-- A reader takes the tokens of the grammar and no others, and reads what they spell.  A token
    without a zone in front is read if it is, but for blanks around it, a date or a time on a
    date in full width; the date-time is the one it spells, a date and universal time whatever
    zone is named beside it.  Every other token is a failure. -/
theorem read_eq_ok_iff (hascii : ∀ c ∈ token.toList, c.toNat < 128)
    (hplain : "TZID=".toList.isPrefixOf (trim token).toList = false) :
    (∀ m, (r.read token zone).outcome = .ok m ↔
      ∃ x : Written, trim token = x.spelling ∧ m = r.momentOf zone x) ∧
    ((¬ ∃ x : Written, trim token = x.spelling) → ∃ e, (r.read token zone).outcome = .error e) := by
  have hiff (m : Moment) : (r.read token zone).outcome = .ok m ↔
      ∃ x : Written, trim token = x.spelling ∧ m = r.momentOf zone x := by
    constructor
    · intro h
      have hform : hasForm (trim token).toList = true := by
        by_contra hno
        rw [outcome_read, splitZone_of_plain hplain] at h
        dsimp only at h
        rw [if_pos (Bool.eq_false_iff.mpr hno)] at h
        split at h <;> cases h
      have hascii' : ∀ c ∈ (trim token).toList, c.toNat < 128 := by
        intro c hc
        rw [trim, String.toList_ofList] at hc
        exact hascii c ((trimBy_sublist isBlank token.toList).subset hc)
      obtain ⟨form, n, hn, hvalue⟩ := exists_characters_of_hasForm hascii' hform
      have hvalue : trim token = String.ofList (form.characters n) := by
        rw [← hvalue, String.ofList_toList]
      rw [outcome_read_characters hplain hvalue] at h
      obtain ⟨wall, hwall, rfl⟩ := map_eq_ok_iff.mp h
      rw [hvalue] at hwall
      obtain ⟨x, rfl, hcharacters, rfl⟩ := hn.exists_of_readForm hwall
      refine ⟨x, ?_, (r.momentOf_eq zone x).symm⟩
      rw [hvalue, ← hcharacters]
      rfl
    · rintro ⟨x, hx, rfl⟩
      have hvalue : trim token = String.ofList (x.form.characters x.numbers) := by
        rw [hx, Written.spelling, x.characters_eq]
      rw [outcome_read_characters hplain hvalue, hx, x.readForm_spelling, r.momentOf_eq]
      rfl
  refine ⟨hiff, fun hnone => ?_⟩
  cases h : (r.read token zone).outcome with
  | error e => exact ⟨e, rfl⟩
  | ok m =>
    obtain ⟨x, hx, -⟩ := (hiff m).mp h
    exact absurd ⟨x, hx⟩ hnone

/-- The morning of a leap day, in Tokyo. -/
theorem read_leapDay_tokyo :
    let r : Reader := ⟨"Europe/Berlin"⟩
    let token := " 20240229T083000\n"
    let x : Written := .localTime
      ⟨2024, 2, 29, by decide, by decide, by decide, by decide, by decide, by decide⟩
      ⟨8, 30, 0, by decide, by decide, by decide⟩
    (∀ c ∈ token.toList, c.toNat < 128) ∧
      "TZID=".toList.isPrefixOf (trim token).toList = false ∧ trim token = x.spelling ∧
      (r.read token (some "Asia/Tokyo")).outcome =
        .ok ⟨x.wall, false, Zone.resolve (some "Asia/Tokyo") "Europe/Berlin"⟩ := by
  intro r token x
  have hcodes : (token.toList.all fun c => decide (c.toNat < 128)) = true := by decide
  have hascii : ∀ c ∈ token.toList, c.toNat < 128 := fun c hc =>
    of_decide_eq_true (List.all_eq_true.mp hcodes c hc)
  have hplain : "TZID=".toList.isPrefixOf (trim token).toList = false := by decide
  have hspelling : trim token = x.spelling := by decide
  exact ⟨hascii, hplain, hspelling,
    ((read_eq_ok_iff hascii hplain).1 _).mpr ⟨x, hspelling, rfl⟩⟩

end Reader

end DateToken

end EventCalendar
