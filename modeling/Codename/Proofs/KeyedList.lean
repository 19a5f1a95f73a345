import Codename.KeyedList
import Mathlib.Data.List.Induction
import Mathlib.Data.List.Nodup

/-!
# The order of a keyed list

A keyed list that is filled entry by entry has its keys in the order of their first appearance, each
once. That is what is left of a list when its repetitions are erased.

## Main definitions

* `KeyedList.KeepsLast` — what is left of entries with repeated keys.

## Main statements

* `pairwise_idxOf_eraseDups` — without its repetitions a list is in the order of first appearance.
* `KeyedList.keys_ofList` — the keys of a list of entries that were inserted one after another.
* `KeyedList.keepsLast_ofList` — a key keeps its first place and takes its last value.
-/

namespace Codename

/-! ### Lists without repetitions -/

theorem nodup_eraseDups {α : Type} [BEq α] [LawfulBEq α] (l : List α) : l.eraseDups.Nodup := by
  -- the rest of the list is filtered before it is gone through
  induction hlength : l.length using Nat.strongRecOn generalizing l with
  | ind n ih =>
    cases l with
    | nil => simp
    | cons a l =>
      rw [List.eraseDups_cons, List.nodup_cons]
      refine ⟨by simp [List.mem_eraseDups], ih _ ?_ _ rfl⟩
      have hle := List.length_filter_le (fun b => !b == a) l
      simp only [List.length_cons] at hlength
      omega

theorem eraseDups_eq_self {α : Type} [BEq α] [LawfulBEq α] {l : List α} (h : l.Nodup) :
    l.eraseDups = l := by
  induction l with
  | nil => rfl
  | cons a l ih =>
    rw [List.nodup_cons] at h
    have hfilter : l.filter (fun b => !b == a) = l := by
      rw [List.filter_eq_self]
      rintro b hb
      simpa using fun heq : b = a => h.1 (heq ▸ hb)
    rw [List.eraseDups_cons, hfilter, ih h.2]

theorem eraseDups_concat_of_mem {α : Type} [BEq α] [LawfulBEq α] {l : List α} {a : α} (h : a ∈ l) :
    (l ++ [a]).eraseDups = l.eraseDups := by
  have hnone : [a].removeAll l = [] := by simp [List.removeAll, h]
  rw [List.eraseDups_append, hnone, List.eraseDups_nil, List.append_nil]

theorem eraseDups_concat_of_not_mem {α : Type} [BEq α] [LawfulBEq α] {l : List α} {a : α}
    (h : a ∉ l) : (l ++ [a]).eraseDups = l.eraseDups ++ [a] := by
  have hlast : [a].removeAll l = [a] := by simp [List.removeAll, h]
  rw [List.eraseDups_append, hlast, eraseDups_eq_self (List.nodup_singleton a)]

theorem eraseDups_filter {α : Type} [BEq α] [LawfulBEq α] (p : α → Bool) (l : List α) :
    (l.filter p).eraseDups = l.eraseDups.filter p := by
  induction l using List.reverseRecOn with
  | nil => rfl
  | append_singleton l a ih =>
    by_cases hp : p a = true
    · have hconcat : (l ++ [a]).filter p = l.filter p ++ [a] := by simp [hp]
      by_cases ha : a ∈ l
      · rw [hconcat, eraseDups_concat_of_mem (List.mem_filter.2 ⟨ha, hp⟩),
          eraseDups_concat_of_mem ha, ih]
      · rw [hconcat, eraseDups_concat_of_not_mem (fun hmem => ha (List.mem_filter.1 hmem).1),
          eraseDups_concat_of_not_mem ha, ih]
        simp [hp]
    · have hconcat : (l ++ [a]).filter p = l.filter p := by simp [hp]
      by_cases ha : a ∈ l
      · rw [hconcat, eraseDups_concat_of_mem ha, ih]
      · rw [hconcat, eraseDups_concat_of_not_mem ha, ih]
        simp [hp]

/-- A list without its repetitions has its elements in the order of their first appearance. -/
theorem pairwise_idxOf_eraseDups {α : Type} [BEq α] [LawfulBEq α] (l : List α) :
    l.eraseDups.Pairwise fun a b => l.idxOf a < l.idxOf b := by
  induction l using List.reverseRecOn with
  | nil => simp
  | append_singleton l a ih =>
    have hearlier : l.eraseDups.Pairwise fun b c => (l ++ [a]).idxOf b < (l ++ [a]).idxOf c := by
      refine ih.imp_of_mem fun hb hc hlt => ?_
      rwa [List.idxOf_append_of_mem (List.mem_eraseDups.1 hb),
        List.idxOf_append_of_mem (List.mem_eraseDups.1 hc)]
    by_cases ha : a ∈ l
    · rwa [eraseDups_concat_of_mem ha]
    · rw [eraseDups_concat_of_not_mem ha, List.pairwise_append]
      refine ⟨hearlier, List.pairwise_singleton _ _, fun b hb c hc => ?_⟩
      obtain rfl := List.mem_singleton.1 hc
      rw [List.idxOf_append_of_mem (List.mem_eraseDups.1 hb), List.idxOf_append_of_notMem ha]
      have hlt := List.idxOf_lt_length_of_mem (List.mem_eraseDups.1 hb)
      omega

/-! ### Entries and keys -/

namespace KeyedList

variable {α β : Type}

theorem mem_values {l : KeyedList α} {value : α} :
    value ∈ l.values ↔ ∃ key, l.get? key = some value := by
  simp [values, get?_eq_some_iff]

theorem isSome_get?_iff {l : KeyedList α} {key : String} :
    (l.get? key).isSome = true ↔ key ∈ l.keys := by
  rw [Option.isSome_iff_ne_none, ne_eq, get?_eq_none_iff, not_not]

theorem entries_insert_of_not_mem {l : KeyedList α} {key : String} (value : α)
    (h : key ∉ l.keys) : (l.insert key value).entries = l.entries ++ [(key, value)] := by
  have hput : ∀ entries : List (String × α), key ∉ entries.map Prod.fst →
      put key value entries = entries ++ [(key, value)] := by
    intro entries
    induction entries with
    | nil => exact fun _ => rfl
    | cons entry entries ih =>
      intro hnew
      rw [List.map_cons, List.mem_cons, not_or] at hnew
      rw [put, if_neg (Ne.symm hnew.1), ih hnew.2, List.cons_append]
  exact hput l.entries h

theorem mem_entries_insert {l : KeyedList α} {key other : String} {value found : α}
    (h : (other, found) ∈ (l.insert key value).entries) :
    (other = key ∧ found = value) ∨ (other, found) ∈ l.entries := by
  rw [← get?_eq_some_iff, get?_insert] at h
  split at h
  · next hkey =>
    obtain rfl := Option.some.inj h
    exact .inl ⟨hkey.symm, rfl⟩
  · exact .inr (get?_eq_some_iff.1 h)

/-- The entries on both sides of an entry have other keys. -/
theorem entries_eq_append {l : KeyedList α} {key : String} {value : α}
    (h : (key, value) ∈ l.entries) :
    ∃ left right, l.entries = left ++ (key, value) :: right ∧
      ∀ entry ∈ left ++ right, entry.1 ≠ key := by
  obtain ⟨left, right, hentries⟩ := List.append_of_mem h
  have hkeys := l.nodup_keys
  rw [hentries, List.map_append, List.map_cons, List.nodup_middle, List.nodup_cons,
    ← List.map_append] at hkeys
  refine ⟨left, right, hentries, ?_⟩
  rintro entry hmem rfl
  exact hkeys.1 (List.mem_map.2 ⟨entry, hmem, rfl⟩)

theorem length_keys (l : KeyedList α) : l.keys.length = l.size :=
  List.length_map ..

theorem ofList_concat (entries : List (String × α)) (entry : String × α) :
    ofList (entries ++ [entry]) = (ofList entries).insert entry.1 entry.2 := by
  rw [ofList, List.foldl_append]
  rfl

/-- Keys come in the order of their first appearance. -/
theorem keys_ofList (entries : List (String × α)) :
    (ofList entries).keys = (entries.map Prod.fst).eraseDups := by
  induction entries using List.reverseRecOn with
  | nil => rfl
  | append_singleton entries entry ih =>
    rw [ofList_concat, keys_insert, ih, List.map_append, List.map_singleton]
    split
    · next hknown => rw [eraseDups_concat_of_mem (List.mem_eraseDups.1 hknown)]
    · next hnew => rw [eraseDups_concat_of_not_mem (mt List.mem_eraseDups.2 hnew)]

/-- Entries without a repeated key are kept as they are. -/
theorem entries_ofList_of_nodup {entries : List (String × α)}
    (h : (entries.map Prod.fst).Nodup) : (ofList entries).entries = entries := by
  induction entries using List.reverseRecOn with
  | nil => rfl
  | append_singleton entries entry ih =>
    rw [List.map_append, List.nodup_append] at h
    have hentries := ih h.1
    have hnew : entry.1 ∉ (ofList entries).keys := by
      rw [keys, hentries]
      exact fun hmem => h.2.2 entry.1 hmem entry.1 (List.mem_singleton_self _) rfl
    rw [ofList_concat, entries_insert_of_not_mem _ hnew, hentries]

theorem ofList_entries (l : KeyedList α) : ofList l.entries = l :=
  ext (entries_ofList_of_nodup l.nodup_keys)

/-- A key has the value that was given with it last. -/
theorem get?_ofList_append {key : String} (value : α) (left : List (String × α))
    {right : List (String × α)} (h : key ∉ right.map Prod.fst) :
    (ofList (left ++ (key, value) :: right)).get? key = some value := by
  induction right using List.reverseRecOn with
  | nil => rw [ofList_concat, get?_insert, if_pos rfl]
  | append_singleton right entry ih =>
    rw [List.map_append, List.mem_append, not_or, List.map_singleton, List.mem_singleton] at h
    rw [← List.cons_append, ← List.append_assoc, ofList_concat, get?_insert,
      if_neg (Ne.symm h.2), ih h.1]

/-- The list is what is left of entries that were given one after another: it has each of their keys
once, in the order in which the keys first came, and for each key what was given with it last. -/
structure KeepsLast (R : α → β → Prop) (given : List (String × α)) (kept : KeyedList β) :
    Prop where
  mem_keys : ∀ key, key ∈ kept.keys ↔ key ∈ given.map Prod.fst
  ordered : kept.keys.Pairwise fun key other =>
    (given.map Prod.fst).idxOf key < (given.map Prod.fst).idxOf other
  last : ∀ left key value right, given = left ++ (key, value) :: right →
    key ∉ right.map Prod.fst → ∃ found, kept.get? key = some found ∧ R value found

theorem keepsLast_ofList {R : α → β → Prop} {f : α → β} (h : ∀ value, R value (f value))
    (given : List (String × α)) :
    (ofList (given.map fun entry => (entry.1, f entry.2))).KeepsLast R given := by
  have hkeys : (ofList (given.map fun entry => (entry.1, f entry.2))).keys =
      (given.map Prod.fst).eraseDups := by
    rw [keys_ofList, List.map_map]
    rfl
  refine ⟨fun key => ?_, ?_, ?_⟩
  · rw [hkeys, List.mem_eraseDups]
  · rw [hkeys]
    exact pairwise_idxOf_eraseDups _
  · rintro left key value right rfl hright
    refine ⟨f value, ?_, h value⟩
    rw [List.map_append, List.map_cons]
    refine get?_ofList_append _ _ ?_
    rwa [List.map_map]

theorem keepsLast_ofList_self (given : List (String × α)) :
    (ofList given).KeepsLast (· = ·) given := by
  have h := keepsLast_ofList (fun value : α => Eq.refl value) given
  rwa [List.map_id'] at h

end KeyedList

end Codename
