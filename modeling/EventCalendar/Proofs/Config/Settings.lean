/-
  EventCalendar.Proofs.Config.Settings

  What a configuration takes from its entries.  Each setting looks at its own
  value only, so entries give a configuration if and only if each setting can
  read what it is given.  Two kinds of values cannot be read: an infinite
  number of occurrences or of years, and a zone or a level with a whole number
  that is too long to be written.
-/

import EventCalendar.Config.Basic
import EventCalendar.Proofs.Outcome
import EventCalendar.Proofs.Text.Case
import EventCalendar.Proofs.Zone.Names

namespace EventCalendar

open EventCalendar.Number EventCalendar.Text

theorem Number.tenTo_pos (n : Nat) : 0 < tenTo n := Nat.pow_pos (by decide)

/-- What counts as false has a text. -/
theorem Value.isWritable_of_not_isTruthy {v : Value} (h : v.isTruthy = false) :
    v.isWritable = true := by
  cases v with
  | int n =>
    have hzero : n = 0 := by simpa [isTruthy] using h
    rw [hzero, isWritable, Int.natAbs_zero, decide_eq_true_eq]
    exact tenTo_pos integerDigitLimit
  | list items =>
    have hempty : items = [] := by simpa [isTruthy] using h
    rw [hempty, isWritable, itemsAreWritable]
  | map entries =>
    have hempty : entries = [] := by simpa [isTruthy] using h
    rw [hempty, isWritable, entriesAreWritable]
  | _ => rfl

namespace Config

variable {entries : List (Value × Value)} {c : Config} {raw : Option Value} {v : Value}

/-! ## One setting -/

/-- A setting that is a whole number, from its own value. -/
def numberOf (r : Range) (raw : Option Value) : Except ConfigError Int :=
  r.ofValue (raw.getD (.int r.default))

/-- The zone, from its own value. -/
def zoneOf (raw : Option Value) : Except ConfigError String :=
  (textOfValue .defaultTimezone ((raw.filter Value.isTruthy).getD (.text Zone.defaultName))).map
    zoneOfName

/-- Strictness, from its own value. -/
def strictOf (raw : Option Value) : Bool := (raw.map strictOfValue).getD false

/-- The log level, from its own value. -/
def levelOf : Option Value → Except ConfigError String
  | none | some .null => .ok defaultLevel
  | some v => (textOfValue .logLevel v).map upper

end Config

namespace Setting

/-- What a setting takes from its own value. -/
def settled : Setting → Option Value → Except ConfigError Value
  | .maxInstances, raw => (Config.numberOf Config.instancesRange raw).map .int
  | .defaultTimezone, raw => (Config.zoneOf raw).map .text
  | .horizonYears, raw => (Config.numberOf Config.horizonRange raw).map .int
  | .strictImport, raw => .ok (.bool (Config.strictOf raw))
  | .logLevel, raw => (Config.levelOf raw).map .text

/-- A setting can read its value: a whole number is not infinite, and a text can be written. -/
def IsReadable : Setting → Option Value → Prop
  | .maxInstances, raw | .horizonYears, raw =>
    ∀ negative, raw ≠ some (.float (.infinite negative))
  | .defaultTimezone, raw | .logLevel, raw => ∀ v, raw = some v → v.isWritable = true
  | .strictImport, _ => True

/-- What is wrong with a value that a setting cannot read. -/
def fault : Setting → ConfigError
  | .maxInstances => .infinite .maxInstances
  | .horizonYears => .infinite .horizonYears
  | s => .unwritable s

end Setting

namespace Config

/-! ## Ranges -/

/-- The least and the greatest number of a range, with the default between them. -/
structure Range.IsSound (r : Range) : Prop where
  least_le : r.least ≤ r.default
  le_most : r.default ≤ r.most

theorem isSound_instancesRange : instancesRange.IsSound := ⟨by decide, by decide⟩

theorem isSound_horizonRange : horizonRange.IsSound := ⟨by decide, by decide⟩

/-- A configuration with its numbers in range and a zone that goes by its canonical name. -/
structure IsInRange (c : Config) : Prop where
  instances_pos : 1 ≤ c.maxInstances
  instances_le : c.maxInstances ≤ 100000
  horizon_pos : 1 ≤ c.horizonYears
  horizon_le : c.horizonYears ≤ 100
  zone_canonical : Zone.canonical? (some c.defaultTimezone) = some c.defaultTimezone

/-- Of all values only an infinite number is infinite as a whole number. -/
theorem Whole.ofValue_eq_infinite_iff :
    Whole.ofValue v = .infinite ↔ ∃ negative, v = .float (.infinite negative) := by
  cases v with
  | float x => cases x <;> simp [Whole.ofValue]
  | text s => cases h : readInteger s <;> simp [Whole.ofValue, h]
  | bytes b => cases h : readBytes b <;> simp [Whole.ofValue, h]
  | _ => simp [Whole.ofValue]

namespace Range

variable {r : Range} {n : Int}

theorem nearest_mem (hr : r.IsSound) (n : Int) : r.least ≤ r.nearest n ∧ r.nearest n ≤ r.most := by
  have hleast := hr.least_le
  have hmost := hr.le_most
  unfold nearest
  split
  · omega
  · split <;> omega

theorem nearest_of_mem (hleast : r.least ≤ n) (hmost : n ≤ r.most) : r.nearest n = n := by
  rw [nearest, if_neg (by omega), if_neg (by omega)]

theorem nearest_nearest (hr : r.IsSound) (n : Int) : r.nearest (r.nearest n) = r.nearest n :=
  nearest_of_mem (nearest_mem hr n).1 (nearest_mem hr n).2

theorem nearest_default (hr : r.IsSound) : r.nearest r.default = r.default :=
  nearest_of_mem hr.least_le hr.le_most

/-- The nearest number of the range is read, unless the value is infinite. -/
theorem ofValue_cases (hr : r.IsSound) (v : Value) :
    (∃ n, r.ofValue v = .ok (r.nearest n) ∧ ∀ negative, v ≠ .float (.infinite negative)) ∨
      r.ofValue v = .error (.infinite r.setting) ∧ ∃ negative, v = .float (.infinite negative) := by
  have hfinite (h : Whole.ofValue v ≠ .infinite) (negative : Bool) :
      v ≠ .float (.infinite negative) := fun hv =>
    h (Whole.ofValue_eq_infinite_iff.mpr ⟨negative, hv⟩)
  cases h : Whole.ofValue v with
  | number n => exact .inl ⟨n, by rw [ofValue, h], hfinite (by rw [h]; nofun)⟩
  | notWhole =>
    refine .inl ⟨r.default, ?_, hfinite (by rw [h]; nofun)⟩
    rw [ofValue, h, nearest_default hr]
  | infinite => exact .inr ⟨by rw [ofValue, h], Whole.ofValue_eq_infinite_iff.mp h⟩

theorem numberOf_int (r : Range) (n : Int) : numberOf r (some (.int n)) = .ok (r.nearest n) := rfl

/-- A number is taken, that is taken again as it is, unless the value is infinite. -/
theorem numberOf_cases (hr : r.IsSound) (raw : Option Value) :
    (∃ n, numberOf r raw = .ok n ∧ numberOf r (some (.int n)) = .ok n ∧
        ∀ negative, raw ≠ some (.float (.infinite negative))) ∨
      numberOf r raw = .error (.infinite r.setting) ∧
        ¬ ∀ negative, raw ≠ some (.float (.infinite negative)) := by
  cases raw with
  | none =>
    refine .inl ⟨r.default, ?_, ?_, nofun⟩
    · exact congrArg Except.ok (nearest_default hr)
    · rw [numberOf_int, nearest_default hr]
  | some v =>
    obtain ⟨n, hn, hfinite⟩ | ⟨herror, negative, hinfinite⟩ := ofValue_cases hr v
    · refine .inl ⟨r.nearest n, hn, ?_, fun negative hraw => ?_⟩
      · rw [numberOf_int, nearest_nearest hr]
      · exact hfinite negative (Option.some.inj hraw)
    · exact .inr ⟨herror, fun hfinite => hfinite negative (congrArg some hinfinite)⟩

/-- A number that is taken as it is lies in the range. -/
theorem mem_of_numberOf (hr : r.IsSound) (h : numberOf r (some (.int n)) = .ok n) :
    r.least ≤ n ∧ n ≤ r.most := by
  rw [numberOf_int, Except.ok.injEq] at h
  rw [← h]
  exact nearest_mem hr n

end Range

/-! ## Texts -/

theorem textOfValue_of_isWritable (s : Setting) (h : v.isWritable = true) :
    textOfValue s v = .ok v.plain := if_pos h

theorem textOfValue_of_not_isWritable (s : Setting) (h : v.isWritable = false) :
    textOfValue s v = .error (.unwritable s) := by
  rw [textOfValue, h]
  rfl

theorem isCanonical_zoneOfName (name : String) : Zone.isCanonical (zoneOfName name) = true := by
  unfold zoneOfName
  cases h : Zone.canonical? (some name) with
  | none => exact Zone.isCanonical_iff.mpr (.inl rfl)
  | some canonical => exact Zone.isCanonical_of_canonical? h

theorem zoneOfName_of_isCanonical {name : String} (h : Zone.isCanonical name = true) :
    zoneOfName name = name := by
  rw [zoneOfName, Zone.canonical?_of_isCanonical h, Option.getD_some]

theorem zoneOf_of_isTruthy (h : v.isTruthy = true) :
    zoneOf (some v) = (textOfValue .defaultTimezone v).map zoneOfName := by
  rw [zoneOf, Option.filter_some, if_pos h, Option.getD_some]

theorem isCanonical_of_zoneOf {name : String} (h : zoneOf raw = .ok name) :
    Zone.isCanonical name = true := by
  obtain ⟨text, -, rfl⟩ := map_eq_ok_iff.mp h
  exact isCanonical_zoneOfName text

/-- A canonical name is taken as it is. -/
theorem zoneOf_of_isCanonical {name : String} (h : Zone.isCanonical name = true) :
    zoneOf (some (.text name)) = .ok name := by
  have htruthy : (Value.text name).isTruthy = true :=
    bne_iff_ne.mpr (Zone.ne_empty_of_isCanonical h)
  rw [zoneOf_of_isTruthy htruthy, textOfValue_of_isWritable _ rfl]
  exact congrArg Except.ok (zoneOfName_of_isCanonical h)

/-- A zone is taken, by a name that is taken again as it is, unless the value has no text. -/
theorem zoneOf_cases (raw : Option Value) :
    (∃ name, zoneOf raw = .ok name ∧ zoneOf (some (.text name)) = .ok name ∧
        ∀ v, raw = some v → v.isWritable = true) ∨
      zoneOf raw = .error (.unwritable .defaultTimezone) ∧
        ¬ ∀ v, raw = some v → v.isWritable = true := by
  have htaken {name : String} (h : zoneOf raw = .ok name)
      (hread : ∀ v, raw = some v → v.isWritable = true) :
      ∃ name, zoneOf raw = .ok name ∧ zoneOf (some (.text name)) = .ok name ∧
        ∀ v, raw = some v → v.isWritable = true :=
    ⟨name, h, zoneOf_of_isCanonical (isCanonical_of_zoneOf h), hread⟩
  cases raw with
  | none => exact .inl (htaken rfl nofun)
  | some v =>
    cases htruthy : v.isTruthy with
    | false =>
      have hdefault : zoneOf (some v) = zoneOf none := by
        rw [zoneOf, Option.filter_some, htruthy]
        rfl
      exact .inl (htaken hdefault (by simpa using v.isWritable_of_not_isTruthy htruthy))
    | true =>
      have htext := zoneOf_of_isTruthy htruthy
      cases hwritable : v.isWritable with
      | true =>
        rw [textOfValue_of_isWritable _ hwritable] at htext
        exact .inl (htaken htext (by simpa using hwritable))
      | false =>
        rw [textOfValue_of_not_isWritable _ hwritable] at htext
        exact .inr ⟨htext, by simp [hwritable]⟩

theorem levelOf_text (text : String) : levelOf (some (.text text)) = .ok (upper text) := rfl

/-- A level is taken, that is taken again as it is, unless the value has no text. -/
theorem levelOf_cases (raw : Option Value) :
    (∃ level, levelOf raw = .ok level ∧ levelOf (some (.text level)) = .ok level ∧
        ∀ v, raw = some v → v.isWritable = true) ∨
      levelOf raw = .error (.unwritable .logLevel) ∧
        ¬ ∀ v, raw = some v → v.isWritable = true := by
  have hdefault : levelOf (some (.text defaultLevel)) = .ok defaultLevel := by decide +kernel
  cases raw with
  | none => exact .inl ⟨_, rfl, hdefault, nofun⟩
  | some v =>
    by_cases hnull : v = .null
    · rw [hnull]
      exact .inl ⟨_, rfl, hdefault, by simp [Value.isWritable]⟩
    · have htext : levelOf (some v) = (textOfValue .logLevel v).map upper := by
        cases v <;> first | rfl | exact absurd rfl hnull
      rw [htext]
      cases hwritable : v.isWritable with
      | true =>
        rw [textOfValue_of_isWritable _ hwritable]
        refine .inl ⟨_, rfl, ?_, by simpa using hwritable⟩
        rw [levelOf_text, upper_upper]
      | false =>
        rw [textOfValue_of_not_isWritable _ hwritable]
        exact .inr ⟨rfl, by simp [hwritable]⟩

end Config

/-! ## All settings -/

namespace Setting

open EventCalendar.Config

variable {s : Setting} {raw : Option Value} {v : Value}

/-- What holds of a reading holds of the values made of it. -/
private theorem map_cases {α : Type} {take : Option Value → Except ConfigError α}
    {wrap : α → Value} {e : ConfigError} {P : Prop}
    (h : (∃ a, take raw = .ok a ∧ take (some (wrap a)) = .ok a ∧ P) ∨ take raw = .error e ∧ ¬ P) :
    (∃ v, (take raw).map wrap = .ok v ∧ (take (some v)).map wrap = .ok v ∧ P) ∨
      (take raw).map wrap = .error e ∧ ¬ P := by
  obtain ⟨a, ha, hagain, hP⟩ | ⟨herror, hP⟩ := h
  · exact .inl ⟨wrap a, by rw [ha]; rfl, by rw [hagain]; rfl, hP⟩
  · exact .inr ⟨by rw [herror]; rfl, hP⟩

/-- A setting takes a value that it takes again as it is, unless it cannot read what it is given. -/
theorem settled_cases (s : Setting) (raw : Option Value) :
    (∃ v, s.settled raw = .ok v ∧ s.settled (some v) = .ok v ∧ s.IsReadable raw) ∨
      s.settled raw = .error s.fault ∧ ¬ s.IsReadable raw := by
  cases s with
  | maxInstances => exact map_cases (Range.numberOf_cases isSound_instancesRange raw)
  | defaultTimezone => exact map_cases (zoneOf_cases raw)
  | horizonYears => exact map_cases (Range.numberOf_cases isSound_horizonRange raw)
  | strictImport => exact .inl ⟨_, rfl, rfl, trivial⟩
  | logLevel => exact map_cases (levelOf_cases raw)

/-- What a setting has taken it takes again as it is. -/
theorem settled_settled (h : s.settled raw = .ok v) : s.settled (some v) = .ok v := by
  obtain ⟨v', hv', hagain, -⟩ | ⟨herror, -⟩ := s.settled_cases raw
  · rw [hv', Except.ok.injEq] at h
    rwa [← h]
  · rw [herror] at h
    cases h

theorem isReadable_iff : s.IsReadable raw ↔ ∃ v, s.settled raw = .ok v := by
  obtain ⟨v, hv, -, hread⟩ | ⟨herror, hread⟩ := s.settled_cases raw
  · exact iff_of_true hread ⟨v, hv⟩
  · exact iff_of_false hread (not_exists_eq_ok herror)

theorem isReadable_none (s : Setting) : s.IsReadable none := by
  cases s <;> simp [IsReadable]

/-- Each setting can read a text. -/
theorem isReadable_text (s : Setting) (text : String) : s.IsReadable (some (.text text)) := by
  cases s <;> simp [IsReadable, Value.isWritable]

end Setting

namespace Config

variable {entries : List (Value × Value)} {c c' : Config}

theorem ext_value (h : ∀ s, c.value s = c'.value s) : c = c' := by
  have hinstances := h .maxInstances
  have hzone := h .defaultTimezone
  have hhorizon := h .horizonYears
  have hstrict := h .strictImport
  have hlevel := h .logLevel
  cases c
  cases c'
  simp_all only [value, Value.int.injEq, Value.text.injEq, Value.bool.injEq]

theorem outcome_readZone (entries : List (Value × Value)) :
    (readZone entries).outcome = zoneOf (Setting.defaultTimezone.find? entries) := by
  rw [readZone, zoneOf]
  simp only [Traced.outcome_bind, Traced.outcome_ofExcept]
  cases textOfValue _ _ with
  | error e => rfl
  | ok name =>
    simp only [Zone.askCanonical, ok_bind]
    split <;> rfl

theorem readLevel_eq_levelOf (entries : List (Value × Value)) :
    readLevel entries = levelOf (Setting.logLevel.find? entries) := by
  unfold readLevel
  cases Setting.logLevel.find? entries with
  | none => rfl
  | some v => cases v <;> rfl

theorem readStrict_eq_strictOf (entries : List (Value × Value)) :
    readStrict entries = strictOf (Setting.strictImport.find? entries) := by
  unfold readStrict
  cases Setting.strictImport.find? entries <;> rfl

theorem outcome_ofEntries (entries : List (Value × Value)) :
    (ofEntries entries).outcome = (do
      let maxInstances ← numberOf instancesRange (Setting.maxInstances.find? entries)
      let horizonYears ← numberOf horizonRange (Setting.horizonYears.find? entries)
      let defaultTimezone ← zoneOf (Setting.defaultTimezone.find? entries)
      let logLevel ← levelOf (Setting.logLevel.find? entries)
      return { maxInstances, defaultTimezone, horizonYears
               strictImport := strictOf (Setting.strictImport.find? entries), logLevel }) := by
  have hnumber (r : Range) : (r.read entries).outcome = numberOf r (r.setting.find? entries) := rfl
  simp only [ofEntries, Traced.outcome_bind, Traced.outcome_ofExcept, Traced.outcome_pure, hnumber,
    outcome_readZone, readLevel_eq_levelOf, readStrict_eq_strictOf]
  rfl

/-- Entries give what all settings take, or the fault of a setting that cannot read its value. -/
theorem ofEntries_cases (entries : List (Value × Value)) :
    (∃ c, (ofEntries entries).outcome = .ok c ∧
        ∀ s : Setting, s.settled (s.find? entries) = .ok (c.value s)) ∨
      ∃ s : Setting, (ofEntries entries).outcome = .error s.fault ∧
        s.settled (s.find? entries) = .error s.fault := by
  rw [outcome_ofEntries]
  obtain ⟨instances, hinstances, -⟩ | ⟨hinstances, -⟩ :=
    Range.numberOf_cases isSound_instancesRange (Setting.maxInstances.find? entries)
  · rw [hinstances, ok_bind]
    obtain ⟨horizon, hhorizon, -⟩ | ⟨hhorizon, -⟩ :=
      Range.numberOf_cases isSound_horizonRange (Setting.horizonYears.find? entries)
    · rw [hhorizon, ok_bind]
      obtain ⟨zone, hzone, -⟩ | ⟨hzone, -⟩ := zoneOf_cases (Setting.defaultTimezone.find? entries)
      · rw [hzone, ok_bind]
        obtain ⟨level, hlevel, -⟩ | ⟨hlevel, -⟩ := levelOf_cases (Setting.logLevel.find? entries)
        · rw [hlevel, ok_bind]
          refine .inl ⟨_, rfl, fun s => ?_⟩
          cases s <;> simp only [Setting.settled, hinstances, hhorizon, hzone, hlevel] <;> rfl
        · rw [hlevel]
          exact .inr ⟨.logLevel, rfl, by rw [Setting.settled, hlevel]; rfl⟩
      · rw [hzone]
        exact .inr ⟨.defaultTimezone, rfl, by rw [Setting.settled, hzone]; rfl⟩
    · rw [hhorizon]
      exact .inr ⟨.horizonYears, rfl, by rw [Setting.settled, hhorizon]; rfl⟩
  · rw [hinstances]
    exact .inr ⟨.maxInstances, rfl, by rw [Setting.settled, hinstances]; rfl⟩

/-- Entries give a configuration if and only if each setting takes its value in it. -/
theorem outcome_ofEntries_eq_ok_iff :
    (ofEntries entries).outcome = .ok c ↔
      ∀ s : Setting, s.settled (s.find? entries) = .ok (c.value s) := by
  obtain ⟨c', hc', hsettled⟩ | ⟨s, herror, hfault⟩ := ofEntries_cases entries
  · rw [hc', Except.ok.injEq]
    constructor
    · rintro rfl
      exact hsettled
    · intro h
      refine ext_value fun s => ?_
      have hsame := (hsettled s).symm.trans (h s)
      rwa [Except.ok.injEq] at hsame
  · refine iff_of_false ?_ fun h => ?_
    · rw [herror]
      nofun
    · have hok := h s
      rw [hfault] at hok
      cases hok

/-- Values that are taken as they are make a configuration in range. -/
theorem isInRange_of_settled (h : ∀ s : Setting, s.settled (some (c.value s)) = .ok (c.value s)) :
    c.IsInRange := by
  have hnumber {r : Range} (hr : r.IsSound) {n : Int}
      (hn : (numberOf r (some (.int n))).map Value.int = .ok (.int n)) :
      r.least ≤ n ∧ n ≤ r.most := by
    obtain ⟨n', hn', hsame⟩ := map_eq_ok_iff.mp hn
    cases hsame
    exact Range.mem_of_numberOf hr hn'
  obtain ⟨hleast, hmost⟩ := hnumber isSound_instancesRange (h .maxInstances)
  obtain ⟨hleast', hmost'⟩ := hnumber isSound_horizonRange (h .horizonYears)
  have hzone : (zoneOf (some (.text c.defaultTimezone))).map Value.text =
      .ok (.text c.defaultTimezone) := h .defaultTimezone
  obtain ⟨name, hname, hsame⟩ := map_eq_ok_iff.mp hzone
  cases hsame
  exact ⟨hleast, hmost, hleast', hmost', Zone.canonical?_of_isCanonical (isCanonical_of_zoneOf hname)⟩

/-- Entries give a configuration if and only if each setting can read its value. -/
theorem exists_outcome_ofEntries_iff :
    (∃ c, (ofEntries entries).outcome = .ok c) ↔ ∀ s : Setting, s.IsReadable (s.find? entries) := by
  obtain ⟨c, hc, hsettled⟩ | ⟨s, herror, hfault⟩ := ofEntries_cases entries
  · exact iff_of_true ⟨c, hc⟩ fun s => Setting.isReadable_iff.mpr ⟨_, hsettled s⟩
  · refine iff_of_false (not_exists_eq_ok herror) fun hread => ?_
    exact not_exists_eq_ok hfault (Setting.isReadable_iff.mp (hread s))

/-- Entries give a configuration in range exactly if each setting can read its value; else the
    fault of one that cannot. -/
theorem ofEntries_inRange_or_unreadable (entries : List (Value × Value)) :
    (∃ c, (ofEntries entries).outcome = .ok c ∧ c.IsInRange ∧
        ∀ s : Setting, s.IsReadable (s.find? entries)) ∨
      ∃ s : Setting, (ofEntries entries).outcome = .error s.fault ∧
        ¬ s.IsReadable (s.find? entries) := by
  obtain ⟨c, hc, hsettled⟩ | ⟨s, herror, hfault⟩ := ofEntries_cases entries
  · exact .inl ⟨c, hc, isInRange_of_settled fun s => Setting.settled_settled (hsettled s),
      exists_outcome_ofEntries_iff.mp ⟨c, hc⟩⟩
  · refine .inr ⟨s, herror, fun hread => ?_⟩
    exact not_exists_eq_ok hfault (Setting.isReadable_iff.mp hread)

/-- Infinitely many occurrences are an error, and so is a level with a number of 4301 digits. -/
theorem outcome_ofEntries_infinite :
    (ofEntries [(.text "max_instances", .float (.infinite false))]).outcome =
        .error (.infinite .maxInstances) ∧
      (ofEntries [(.text "log_level", .int (tenTo integerDigitLimit))]).outcome =
        .error (.unwritable .logLevel) := by
  decide +kernel

end Config

end EventCalendar
