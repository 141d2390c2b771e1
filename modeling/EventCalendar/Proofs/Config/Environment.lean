/-
  EventCalendar.Proofs.Config.Environment

  Environment variables that go before a configuration.  All settings are read
  anew when there is such a variable.  A setting that has none is given the
  value it had, which it takes again as it is; a setting that has one takes
  what it would take from that variable alone.
-/

import EventCalendar.Proofs.Config.Settings

namespace EventCalendar

variable {entries : List (Value × Value)} {environment : Config.Environment} {s : Setting}

/-! ## Entries of settings -/

/-- Among entries for all settings, each setting finds its own. -/
theorem Setting.find?_map_all (f : Setting → Value) (s : Setting) :
    s.find? (all.map fun s' => (.text s'.key, f s')) = some (f s) := by
  cases s <;> rfl

theorem Setting.find?_singleton (s : Setting) (v : Value) : s.find? [(.text s.key, v)] = some v := by
  rw [find?, Value.lookup, if_pos (beq_self_eq_true s.key)]

/-- A setting finds the entry of one setting or none. -/
theorem Setting.find?_singleton_cases (s s' : Setting) (v : Value) :
    s'.find? [(.text s.key, v)] = some v ∨ s'.find? [(.text s.key, v)] = none := by
  unfold find? Value.lookup
  split
  · exact .inl rfl
  · exact .inr rfl

namespace Config

variable {c c' : Config}

theorem find?_entries (c : Config) (environment : Environment) (s : Setting) :
    s.find? (c.entries environment) =
      some (((override? environment s).map .text).getD (c.value s)) :=
  Setting.find?_map_all _ s

/-! ## What a variable says -/

theorem override?_eq_some_iff {text : String} :
    override? environment s = some text ↔
      environment.lookup s.variableName = some text ∧ text ≠ "" := by
  rw [override?, Option.filter_eq_some_iff, bne_iff_ne]

theorem override?_eq_none_iff :
    override? environment s = none ↔
      ∀ text, environment.lookup s.variableName = some text → text = "" := by
  rw [override?, Option.filter_eq_none_iff]
  simp

theorem override?_eq_none_of_overridden (h : (overridden environment).isEmpty = true)
    (s : Setting) : override? environment s = none := by
  rw [overridden, List.isEmpty_iff, List.filter_eq_nil_iff] at h
  have hs : s ∈ Setting.all := by cases s <;> decide
  simpa using h s hs

/-- The configuration is read anew if a setting has a variable, and stays if none has one. -/
theorem outcome_override (c : Config) (environment : Environment) :
    (c.override environment).outcome =
      if (overridden environment).isEmpty then .ok c
      else (ofEntries (c.entries environment)).outcome := by
  unfold override
  split <;> rfl

/-! ## The configuration alone -/

/-- What each setting of a configuration takes it takes again as it is. -/
def IsSettled (c : Config) : Prop := ∀ s : Setting, s.settled (some (c.value s)) = .ok (c.value s)

theorem isSettled_of_ofEntries (h : (ofEntries entries).outcome = .ok c) : c.IsSettled :=
  fun s => Setting.settled_settled (outcome_ofEntries_eq_ok_iff.mp h s)

/-- The values of a configuration give that configuration. -/
theorem outcome_ofEntries_values (h : c.IsSettled) :
    (ofEntries (Setting.all.map fun s => (.text s.key, c.value s))).outcome = .ok c := by
  rw [outcome_ofEntries_eq_ok_iff]
  intro s
  rw [Setting.find?_map_all]
  exact h s

/-! ## The configuration with an environment -/

/-- The text of one setting gives a configuration with what that setting takes. -/
theorem exists_outcome_ofEntries_singleton (s : Setting) (text : String) :
    ∃ c, (ofEntries [(.text s.key, .text text)]).outcome = .ok c ∧
      s.settled (some (.text text)) = .ok (c.value s) := by
  have hread (s' : Setting) : s'.IsReadable (s'.find? [(.text s.key, .text text)]) := by
    obtain hfound | hnone := s.find?_singleton_cases s' (.text text)
    · rw [hfound]
      exact s'.isReadable_text text
    · rw [hnone]
      exact s'.isReadable_none
  obtain ⟨c, hc⟩ := exists_outcome_ofEntries_iff.mpr hread
  have hs := outcome_ofEntries_eq_ok_iff.mp hc s
  rw [s.find?_singleton] at hs
  exact ⟨c, hc, hs⟩

/-- A settled configuration has a configuration after each environment, in which each setting has
    taken the text of its variable, or has kept its value where it has none. -/
theorem exists_outcome_override (h : c.IsSettled) (environment : Environment) :
    ∃ c', (c.override environment).outcome = .ok c' ∧ ∀ s,
      (override? environment s = none → c'.value s = c.value s) ∧
      ∀ text, override? environment s = some text →
        s.settled (some (.text text)) = .ok (c'.value s) := by
  rw [outcome_override]
  split
  · rename_i hnone
    refine ⟨c, rfl, fun s => ⟨fun _ => rfl, fun text htext => ?_⟩⟩
    rw [override?_eq_none_of_overridden hnone s] at htext
    cases htext
  · have hread (s : Setting) : s.IsReadable (s.find? (c.entries environment)) := by
      rw [c.find?_entries environment s]
      cases override? environment s with
      | none => exact Setting.isReadable_iff.mpr ⟨_, h s⟩
      | some text => exact s.isReadable_text text
    obtain ⟨c', hc'⟩ := exists_outcome_ofEntries_iff.mpr hread
    refine ⟨c', hc', fun s => ?_⟩
    have hs := outcome_ofEntries_eq_ok_iff.mp hc' s
    rw [c.find?_entries environment s] at hs
    constructor
    · intro hnone
      rw [hnone, Option.map_none, Option.getD_none, h s, Except.ok.injEq] at hs
      exact hs.symm
    · intro text htext
      rwa [htext, Option.map_some, Option.getD_some] at hs

/-- After an environment has had its say, a setting whose variable is absent or empty has the value
    it had, and each other setting has the value that its variable alone gives.  The values of a
    configuration that entries give give it again. -/
theorem override_keeps_others (h : (ofEntries entries).outcome = .ok c)
    (environment : Environment) :
    (∃ c', (c.override environment).outcome = .ok c' ∧ ∀ s : Setting,
      ((∀ text, environment.lookup s.variableName = some text → text = "") →
        c'.value s = c.value s) ∧
      ∀ text, environment.lookup s.variableName = some text → text ≠ "" →
        ∃ alone, (ofEntries [(.text s.key, .text text)]).outcome = .ok alone ∧
          c'.value s = alone.value s) ∧
      (ofEntries (Setting.all.map fun s => (.text s.key, c.value s))).outcome = .ok c := by
  have hsettled := isSettled_of_ofEntries h
  refine ⟨?_, outcome_ofEntries_values hsettled⟩
  obtain ⟨c', hc', hvalues⟩ := exists_outcome_override hsettled environment
  refine ⟨c', hc', fun s => ⟨fun habsent => ?_, fun text htext hne => ?_⟩⟩
  · exact (hvalues s).1 (override?_eq_none_iff.mpr habsent)
  · obtain ⟨alone, halone, htaken⟩ := exists_outcome_ofEntries_singleton s text
    have hkept := (hvalues s).2 text (override?_eq_some_iff.mpr ⟨htext, hne⟩)
    rw [htaken, Except.ok.injEq] at hkept
    exact ⟨alone, halone, hkept.symm⟩

/-- A level in small letters stays as it was read beside a variable for another setting and an
    empty one of its own. -/
theorem override_keeps_debug :
    let entries : List (Value × Value) :=
      [(.text "max_instances", .int 1000000), (.text "default_timezone", .text "US/Pacific"),
        (.text "log_level", .text "debug")]
    let environment : Environment :=
      [("RECURRENCE_LITE_MAX_INSTANCES", " 0 "), ("RECURRENCE_LITE_LOG_LEVEL", "")]
    ∃ c c', (ofEntries entries).outcome = .ok c ∧ (c.override environment).outcome = .ok c' ∧
      c = ⟨100000, "America/Los_Angeles", 5, false, "DEBUG"⟩ ∧ c'.value .maxInstances = .int 1 ∧
      c'.value .logLevel = .text "DEBUG" := by
  intro entries environment
  have hc : (ofEntries entries).outcome =
      .ok ⟨100000, "America/Los_Angeles", 5, false, "DEBUG"⟩ := by decide +kernel
  obtain ⟨⟨c', hc', hvalues⟩, -⟩ := override_keeps_others hc environment
  obtain ⟨alone, halone, hsame⟩ := (hvalues .maxInstances).2 " 0 " rfl (by decide)
  have hone : (ofEntries [(.text Setting.maxInstances.key, .text " 0 ")]).outcome =
      .ok { default with maxInstances := 1 } := by decide +kernel
  rw [hone, Except.ok.injEq] at halone
  refine ⟨_, c', hc, hc', rfl, ?_, (hvalues .logLevel).1 ?_⟩
  · rw [hsame, ← halone]
    rfl
  · intro text htext
    exact (Option.some.inj htext).symm

end Config

end EventCalendar
