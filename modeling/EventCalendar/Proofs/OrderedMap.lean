/-
  EventCalendar.Proofs.OrderedMap

  Look-ups in ordered maps.  Each key has one entry, so that a look-up finds it,
  and after a change a look-up of another key gives what it gave before.
-/

import EventCalendar.OrderedMap

namespace EventCalendar

variable {κ α : Type} [DecidableEq κ]

/-- Where no two elements have one key, those with the key of an element are that element alone. -/
theorem filter_key_of_mem {f : α → κ} {l : List α} (hdistinct : (l.map f).Nodup) {a : α}
    (ha : a ∈ l) : l.filter (f · = f a) = [a] := by
  induction l with
  | nil => cases ha
  | cons b l ih =>
    obtain ⟨hfirst, hdistinct⟩ := List.nodup_cons.mp hdistinct
    rcases List.mem_cons.mp ha with rfl | ha
    · rw [List.filter_cons_of_pos (by simp), List.filter_eq_nil_iff.mpr]
      intro b hb
      rw [decide_eq_true_eq]
      intro heq
      exact hfirst (heq ▸ List.mem_map_of_mem hb)
    · have hne : f b ≠ f a := fun heq => hfirst (heq ▸ List.mem_map_of_mem ha)
      rw [List.filter_cons_of_neg (by simpa using hne), ih hdistinct ha]

theorem lookup_cons_eq_ite (key k : κ) (value : α) (l : List (κ × α)) :
    ((k, value) :: l).lookup key = if key = k then some value else l.lookup key := by
  rw [List.lookup_cons]
  by_cases h : key = k
  · rw [beq_iff_eq.mpr h, if_pos h]
  · rw [beq_eq_false_iff_ne.mpr h, if_neg h]

theorem lookup_putEntry (key key' : κ) (value : α) (l : List (κ × α)) :
    (putEntry key value l).lookup key' = if key' = key then some value else l.lookup key' := by
  induction l with
  | nil => rw [putEntry, lookup_cons_eq_ite]
  | cons entry rest ih =>
    obtain ⟨k, v⟩ := entry
    unfold putEntry
    by_cases hk : k = key
    · subst hk
      rw [if_pos rfl, lookup_cons_eq_ite, lookup_cons_eq_ite]
      by_cases hk' : key' = k <;> simp only [hk', if_true, if_false]
    · rw [if_neg hk, lookup_cons_eq_ite, lookup_cons_eq_ite, ih]
      by_cases hk' : key' = k
      · rw [if_pos hk', if_pos hk', if_neg (fun h => hk (hk'.symm.trans h))]
      · rw [if_neg hk', if_neg hk']

theorem putEntry_of_not_mem {key : κ} {l : List (κ × α)} (h : key ∉ l.map (·.1)) (value : α) :
    putEntry key value l = l ++ [(key, value)] := by
  induction l with
  | nil => rfl
  | cons entry rest ih =>
    obtain ⟨k, v⟩ := entry
    rw [List.map_cons, List.mem_cons, not_or] at h
    rw [putEntry, if_neg (Ne.symm h.1), ih h.2, List.cons_append]

namespace OrderedMap

variable {m m' : OrderedMap κ α} {key key' : κ} {value : α}

@[simp] theorem entries_erase (m : OrderedMap κ α) (key : κ) :
    (m.erase key).entries = m.entries.filter (·.1 != key) := rfl

/-- A look-up finds the entry of the key. -/
theorem find?_eq_some_iff : m.find? key = some value ↔ (key, value) ∈ m.entries := by
  rw [find?, List.lookup_eq_some_iff]
  constructor
  · rintro ⟨before, after, hsplit, -⟩
    rw [hsplit]
    exact List.mem_append_right _ List.mem_cons_self
  · intro hmem
    obtain ⟨before, after, hsplit⟩ := List.append_of_mem hmem
    refine ⟨before, after, hsplit, fun entry hentry => ?_⟩
    -- no key has two entries
    have hdistinct := m.distinct
    rw [hsplit, List.map_append, List.nodup_append] at hdistinct
    have hne := hdistinct.2.2 entry.1 (List.mem_map_of_mem hentry) key
      (List.mem_map_of_mem List.mem_cons_self)
    simpa using Ne.symm hne

theorem find?_eq_none_iff : m.find? key = none ↔ key ∉ m.keys := by
  rw [find?, List.lookup_eq_none_iff, keys, List.mem_map]
  constructor
  · rintro h ⟨entry, hentry, rfl⟩
    simpa using h entry hentry
  · intro h entry hentry
    rw [bne_iff_ne]
    rintro rfl
    exact h ⟨entry, hentry, rfl⟩

/-- A new key gets the last place. -/
theorem entries_put_of_not_mem (h : key ∉ m.keys) (value : α) :
    (m.put key value).entries = m.entries ++ [(key, value)] :=
  putEntry_of_not_mem h value

theorem find?_put (m : OrderedMap κ α) (key key' : κ) (value : α) :
    (m.put key value).find? key' = if key' = key then some value else m.find? key' :=
  lookup_putEntry key key' value m.entries

theorem find?_erase_self (m : OrderedMap κ α) (key : κ) : (m.erase key).find? key = none := by
  rw [find?_eq_none_iff, keys, entries_erase]
  simp

theorem find?_erase_of_ne (m : OrderedMap κ α) (h : key' ≠ key) :
    (m.erase key).find? key' = m.find? key' := by
  have hsame : ∀ value, (m.erase key).find? key' = some value ↔ m.find? key' = some value := by
    intro value
    simp [find?_eq_some_iff, h]
  exact Option.ext hsame

/-- Every value of a map put together from entries is that of an entry. -/
theorem mem_entries_of_mem_ofList {entries : List (κ × α)} {entry : κ × α}
    (h : entry ∈ (ofList entries).entries) : entry ∈ entries := by
  have hput (m : OrderedMap κ α) (key : κ) (value : α)
      (h : entry ∈ (m.put key value).entries) : entry ∈ m.entries ∨ entry = (key, value) := by
    obtain ⟨k, v⟩ := entry
    rw [← find?_eq_some_iff, find?_put] at h
    split at h
    · rename_i hk
      cases h
      exact .inr (by rw [hk])
    · exact .inl (find?_eq_some_iff.mp h)
  suffices hrun : ∀ (m : OrderedMap κ α),
      entry ∈ (entries.foldl (fun m first => m.put first.1 first.2) m).entries →
        entry ∈ m.entries ∨ entry ∈ entries by
    exact (hrun .empty h).resolve_left List.not_mem_nil
  clear h
  induction entries with
  | nil => exact fun m h => .inl h
  | cons first rest ih =>
    intro m h
    rcases ih _ h with h | h
    · rcases hput _ _ _ h with h | h
      · exact .inl h
      · exact .inr (h ▸ List.mem_cons_self)
    · exact .inr (List.mem_cons_of_mem _ h)

end OrderedMap

end EventCalendar
