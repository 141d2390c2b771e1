/-
  EventCalendar.OrderedMap

  Maps that keep the order in which their keys were first put.  A key has one
  place, and putting it again replaces its value there.
-/

namespace EventCalendar

/-! ## Entries -/

/-- Entries with one more, which replaces the entry of its key. -/
def putEntry {κ α : Type} [DecidableEq κ] (key : κ) (value : α) : List (κ × α) → List (κ × α)
  | [] => [(key, value)]
  | (k, v) :: rest => if k = key then (k, value) :: rest else (k, v) :: putEntry key value rest

/-- The keys after putting: the new key at the end, unless it has its place. -/
theorem keys_putEntry {κ α : Type} [DecidableEq κ] (key : κ) (value : α) (l : List (κ × α)) :
    (putEntry key value l).map (·.1) =
      if key ∈ l.map (·.1) then l.map (·.1) else l.map (·.1) ++ [key] := by
  induction l with
  | nil => simp [putEntry]
  | cons entry rest ih =>
    obtain ⟨k, v⟩ := entry
    unfold putEntry
    by_cases hk : k = key
    · subst hk
      simp
    · have hk' : key ≠ k := fun h => hk h.symm
      simp only [hk, if_false, List.map_cons, ih, List.mem_cons, hk', false_or]
      split <;> simp

/-! ## Maps -/

/-- A map with its entries in the order of their keys' first appearance. -/
structure OrderedMap (κ α : Type) where
  entries : List (κ × α)
  distinct : (entries.map (·.1)).Nodup

namespace OrderedMap

variable {κ α : Type} [DecidableEq κ]

/-- The map without entries. -/
def empty : OrderedMap κ α := ⟨[], by simp⟩

/-- The keys in order. -/
def keys (m : OrderedMap κ α) : List κ := m.entries.map (·.1)

/-- The values in order. -/
def values (m : OrderedMap κ α) : List α := m.entries.map (·.2)

/-- The map with a value under a key. -/
def put (m : OrderedMap κ α) (key : κ) (value : α) : OrderedMap κ α where
  entries := putEntry key value m.entries
  distinct := by
    rw [keys_putEntry]
    split
    · exact m.distinct
    · rename_i h
      rw [List.nodup_append]
      refine ⟨m.distinct, by simp, ?_⟩
      intro a ha b hb hab
      simp only [List.mem_singleton] at hb
      subst hb hab
      exact h ha

/-- The value under a key. -/
def find? (m : OrderedMap κ α) (key : κ) : Option α := m.entries.lookup key

/-- The key has a value. -/
def contains (m : OrderedMap κ α) (key : κ) : Bool := m.keys.contains key

/-- The map without a key. -/
def erase (m : OrderedMap κ α) (key : κ) : OrderedMap κ α where
  entries := m.entries.filter (·.1 != key)
  distinct := List.Nodup.sublist (List.filter_sublist.map _) m.distinct

/-- The map of some entries, put one after the other. -/
def ofList (entries : List (κ × α)) : OrderedMap κ α :=
  entries.foldl (fun m (k, v) => m.put k v) empty

theorem keys_put (m : OrderedMap κ α) (key : κ) (value : α) :
    (m.put key value).keys = if key ∈ m.keys then m.keys else m.keys ++ [key] :=
  keys_putEntry key value m.entries

end OrderedMap

end EventCalendar
