/-!
# Keyed lists

A keyed list holds one value for each of its keys, in the order in which the keys first came. A key
that comes again keeps its place and takes the new value.

## Main definitions

* `KeyedList` — entries with distinct keys.
* `KeyedList.insert`, `KeyedList.get?`, `KeyedList.ofList`.

## Main statements

* `KeyedList.get?_insert` — a key has the value that was inserted for it last.
* `KeyedList.keys_insert` — a new key goes to the end, a known one stays where it is.
* `KeyedList.get?_eq_some_iff` — looking up agrees with membership.
-/

namespace Codename

/-- Entries in order, no key twice. -/
structure KeyedList (α : Type) where
  entries : List (String × α)
  nodup_keys : (entries.map Prod.fst).Nodup
  deriving DecidableEq

namespace KeyedList

variable {α β : Type}

def empty : KeyedList α := ⟨[], .nil⟩

instance : EmptyCollection (KeyedList α) := ⟨empty⟩

instance : Inhabited (KeyedList α) := ⟨empty⟩

@[ext] theorem ext {l₁ l₂ : KeyedList α} (h : l₁.entries = l₂.entries) : l₁ = l₂ := by
  cases l₁; cases l₂; simp_all

def keys (l : KeyedList α) : List String := l.entries.map Prod.fst

def values (l : KeyedList α) : List α := l.entries.map Prod.snd

def size (l : KeyedList α) : Nat := l.entries.length

def get? (l : KeyedList α) (key : String) : Option α :=
  (l.entries.find? (·.1 == key)).map Prod.snd

def contains (l : KeyedList α) (key : String) : Bool := l.keys.contains key

/-- Sets the value of a key in a list of entries. -/
def put (key : String) (value : α) : List (String × α) → List (String × α)
  | [] => [(key, value)]
  | entry :: rest => if entry.1 = key then (key, value) :: rest else entry :: put key value rest

theorem map_fst_put (key : String) (value : α) (entries : List (String × α)) :
    (put key value entries).map Prod.fst =
      if key ∈ entries.map Prod.fst then entries.map Prod.fst
      else entries.map Prod.fst ++ [key] := by
  induction entries with
  | nil => simp [put]
  | cons entry rest ih =>
    by_cases h : entry.1 = key
    · simp [put, h]
    · have hne : key ≠ entry.1 := fun e => h e.symm
      simp only [put, h, if_false, List.map_cons, ih, List.mem_cons, hne, false_or]
      split <;> simp

theorem nodup_map_fst_put {key : String} {value : α} {entries : List (String × α)}
    (h : (entries.map Prod.fst).Nodup) : ((put key value entries).map Prod.fst).Nodup := by
  rw [map_fst_put]
  split
  · exact h
  · next hmem =>
    rw [List.nodup_append]
    refine ⟨h, by simp, fun a ha b hb e => hmem ?_⟩
    rw [List.mem_singleton] at hb
    exact hb ▸ e ▸ ha

/-- Sets the value of a key: in place if the list has the key, else as a new last entry. -/
def insert (l : KeyedList α) (key : String) (value : α) : KeyedList α :=
  ⟨put key value l.entries, nodup_map_fst_put l.nodup_keys⟩

/-- Inserts the entries one after another. -/
def ofList (entries : List (String × α)) : KeyedList α :=
  entries.foldl (fun l entry => l.insert entry.1 entry.2) empty

/-! ### Looking up -/

@[simp] theorem entries_empty : (∅ : KeyedList α).entries = [] := rfl

@[simp] theorem keys_empty : (∅ : KeyedList α).keys = [] := rfl

@[simp] theorem get?_empty (key : String) : (∅ : KeyedList α).get? key = none := rfl

/-- Looking up agrees with membership. -/
theorem get?_eq_some_iff {l : KeyedList α} {key : String} {value : α} :
    l.get? key = some value ↔ (key, value) ∈ l.entries := by
  obtain ⟨entries, hnodup⟩ := l
  simp only [get?]
  induction entries with
  | nil => simp
  | cons entry rest ih =>
    obtain ⟨k, v⟩ := entry
    simp only [List.map_cons, List.nodup_cons] at hnodup
    have ih := ih hnodup.2
    by_cases h : k = key
    · subst h
      have hnot : (k, value) ∉ rest := fun hmem =>
        hnodup.1 (List.mem_map.2 ⟨_, hmem, rfl⟩)
      simp [hnot, eq_comm]
    · have hne : ¬ key = k := fun e => h e.symm
      simpa [List.find?_cons, h, hne] using ih

theorem get?_eq_none_iff {l : KeyedList α} {key : String} :
    l.get? key = none ↔ key ∉ l.keys := by
  simp [get?, keys, List.find?_eq_none]
  exact ⟨fun h value hmem => h key value hmem rfl, fun h a b hmem e => h b (e ▸ hmem)⟩

/-- A new key goes to the end, a known one stays where it is. -/
theorem keys_insert (l : KeyedList α) (key : String) (value : α) :
    (l.insert key value).keys = if key ∈ l.keys then l.keys else l.keys ++ [key] :=
  map_fst_put key value l.entries

/-- A key has the value that was inserted for it last. -/
theorem get?_insert (l : KeyedList α) (key other : String) (value : α) :
    (l.insert key value).get? other = if key = other then some value else l.get? other := by
  obtain ⟨entries, hnodup⟩ := l
  simp only [get?, insert]
  clear hnodup
  induction entries with
  | nil => by_cases h : key = other <;> simp [put, h]
  | cons entry rest ih =>
    obtain ⟨k, v⟩ := entry
    by_cases hk : k = key
    · subst hk
      by_cases h : k = other <;> simp [put, h]
    · by_cases ho : k = other
      · subst ho
        have hne : ¬ key = k := fun e => hk e.symm
        simp [put, hk, hne]
      · have : (k == other) = false := by simpa using ho
        simp only [put, hk, if_false, List.find?_cons, this]
        exact ih

end KeyedList

end Codename
