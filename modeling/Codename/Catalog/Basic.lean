/-!
# Catalogs

A catalog lists the schemas that can be used, each with a name and with the place of its mapping.
One of them can be marked as the default.

## Main definitions

* `Entry`, `Catalog` — a schema and the list of them.
* `Catalog.find?` — the schema of a name.
* `Catalog.default?` — the schema that is used if nothing else was chosen.
* `Catalog.initial?` — the schema that a session starts with.
-/

namespace Codename

/-- A schema of a catalog. -/
structure Catalog.Entry where
  name : String
  /-- Where the mapping is found. -/
  locator : String
  isDefault : Bool := false
  deriving Repr, DecidableEq

/-- The schemas that can be used. -/
structure Catalog where
  entries : List Catalog.Entry
  deriving Repr, DecidableEq

namespace Catalog

def isEmpty (catalog : Catalog) : Bool := catalog.entries.isEmpty

/-- The first schema with the name. -/
def find? (catalog : Catalog) (name : String) : Option Entry :=
  catalog.entries.find? (·.name == name)

/-- The first schema that is marked as the default, or else the first of all. -/
def default? (catalog : Catalog) : Option Entry :=
  (catalog.entries.find? (·.isDefault)).or catalog.entries.head?

/-- The remembered schema if it is still listed, or else the default. -/
def initial? (catalog : Catalog) (remembered : Option String) : Option Entry :=
  (remembered.bind catalog.find?).or catalog.default?

theorem mem_of_find? {catalog : Catalog} {name : String} {entry : Entry}
    (h : catalog.find? name = some entry) : entry ∈ catalog.entries ∧ entry.name = name :=
  ⟨List.mem_of_find?_eq_some h, by simpa using List.find?_some h⟩

/-- A schema that is listed is found by its name, or another one of this name is. -/
theorem exists_find?_eq_some {catalog : Catalog} {entry : Entry} (h : entry ∈ catalog.entries) :
    ∃ first, catalog.find? entry.name = some first :=
  Option.isSome_iff_exists.1 (List.find?_isSome.2 ⟨entry, h, beq_self_eq_true entry.name⟩)

theorem mem_of_default? {catalog : Catalog} {entry : Entry} (h : catalog.default? = some entry) :
    entry ∈ catalog.entries := by
  rcases Option.or_eq_some_iff.1 h with hmarked | ⟨-, hfirst⟩
  · exact List.mem_of_find?_eq_some hmarked
  · exact List.mem_of_head? hfirst

theorem default?_eq_none_iff {catalog : Catalog} :
    catalog.default? = none ↔ catalog.isEmpty = true := by
  rw [default?, isEmpty, Option.or_eq_none_iff, List.head?_eq_none_iff, List.isEmpty_iff]
  exact ⟨fun h => h.2, fun h => ⟨by rw [h]; rfl, h⟩⟩

/-- A session starts with a schema that its name stands for, or with the default. -/
theorem find?_or_default?_of_initial? {catalog : Catalog} {remembered : Option String}
    {entry : Entry} (h : catalog.initial? remembered = some entry) :
    catalog.find? entry.name = some entry ∨ catalog.default? = some entry := by
  rcases Option.or_eq_some_iff.1 h with hfound | ⟨-, hdefault⟩
  · obtain ⟨name, -, hfound⟩ := Option.bind_eq_some_iff.1 hfound
    obtain ⟨-, rfl⟩ := mem_of_find? hfound
    exact .inl hfound
  · exact .inr hdefault

theorem mem_of_initial? {catalog : Catalog} {remembered : Option String} {entry : Entry}
    (h : catalog.initial? remembered = some entry) : entry ∈ catalog.entries := by
  rcases find?_or_default?_of_initial? h with hfound | hdefault
  · exact (mem_of_find? hfound).1
  · exact mem_of_default? hdefault

/-- Only a catalog without schemas gives a session none to start with. -/
theorem isEmpty_of_initial?_eq_none {catalog : Catalog} {remembered : Option String}
    (h : catalog.initial? remembered = none) : catalog.isEmpty = true :=
  default?_eq_none_iff.1 (Option.or_eq_none_iff.1 h).2

end Catalog

end Codename
