import Codename.Mapping.Document

/-!
# The indexes of a mapping

What a mapping is asked for is put together once, while the names of its document are checked: the
words by which a text mentions a table, the words of the columns, and the tables that have a column.
The first name that is no identifier ends it. A word stands for the pattern that it is searched for
with, and the pattern of an identifier is taken to compile: `Document.PatternsCompile` names this
assumption, and `Index.compiled_eq` says what it is for.

## Main definitions

* `Index` — what can be looked up.
* `Index.ofDocument` — the indexes of a document.
* `NameUse.checked` — a result that needs names to be identifiers.

## Main statements

* `Index.ofDocument_eq` — names are checked in the order of the document, and the indexes do not
  depend on the checks.
-/

namespace Codename.Mapping

/-- The words by which a text mentions a table. -/
structure TableWords where
  plain : String
  code : String
  deriving Repr, DecidableEq

/-- What can be looked up in a mapping. -/
structure Index where
  /-- The words of each table. -/
  tableWords : KeyedList TableWords
  /-- The word of each column. -/
  columnWords : KeyedList String
  /-- The plain names of the tables that have a column, under the column. -/
  columnTables : KeyedList (List String)
  deriving DecidableEq

/-- Accepts a name that can be used. -/
def NameUse.check (use : NameUse) : Except NameUse Unit :=
  if use.isValid then .ok () else .error use

namespace Index

def addTable (words : KeyedList TableWords) (entry : String × String) :
    Except NameUse (KeyedList TableWords) := do
  NameUse.check ⟨.table, entry.1⟩
  NameUse.check ⟨.codeTable, entry.2⟩
  return words.insert entry.1 ⟨entry.1, entry.2⟩

/-- Adds the word of a column that another table may have too. -/
def addWord (words : KeyedList String) (column : String) : KeyedList String :=
  if words.contains column then words else words.insert column column

def addColumn (words : KeyedList String) (entry : String × String) :
    Except NameUse (KeyedList String) := do
  NameUse.check ⟨.column, entry.1⟩
  NameUse.check ⟨.codeColumn, entry.2⟩
  return addWord words entry.1

/-- Adds the columns of the table with the given code name. -/
def addColumns (words : KeyedList String) (entry : String × KeyedList String) :
    Except NameUse (KeyedList String) := do
  NameUse.check ⟨.codeTable, entry.1⟩
  entry.2.entries.foldlM addColumn words

def addOwner (table : String) (owners : KeyedList (List String)) (column : String) :
    KeyedList (List String) :=
  owners.insert column ((owners.get? column).getD [] ++ [table])

/-- Adds a table to the owners of its columns, which are listed under its code name. -/
def addOwners (columns : KeyedList (KeyedList String)) (owners : KeyedList (List String))
    (entry : String × String) : KeyedList (List String) :=
  match columns.get? entry.2 with
  | some owned => owned.keys.foldl (addOwner entry.1) owners
  | none => owners

/-- The indexes of a document, or the first of its names that is no identifier. No pattern of an
identifier is refused. -/
def ofDocument (document : Document) : Except NameUse Index := do
  let tableWords ← document.tables.entries.foldlM addTable ∅
  let columnWords ← document.columns.entries.foldlM addColumns ∅
  let columnTables := document.tables.entries.foldl (addOwners document.columns) ∅
  return { tableWords, columnWords, columnTables }

end Index

/-! ### Checks -/

/-- The result, unless one of the names cannot be used. -/
def NameUse.checked {α : Type} (uses : List NameUse) (result : α) : Except NameUse α :=
  match uses.find? fun use => !use.isValid with
  | some use => .error use
  | none => .ok result

namespace NameUse

variable {α β ι : Type} {uses : List NameUse} {result : α}

theorem checked_bind (uses later : List NameUse) (result : α) (f : α → β) :
    (checked uses result >>= fun a => checked later (f a)) =
      checked (uses ++ later) (f result) := by
  simp only [checked, List.find?_append]
  cases uses.find? fun use => !use.isValid with
  | some use => rfl
  | none => rfl

theorem checked_map (uses : List NameUse) (result : α) (f : α → β) :
    (checked uses result >>= fun a => pure (f a)) = checked uses (f result) := by
  simp only [checked]
  cases uses.find? fun use => !use.isValid with
  | some use => rfl
  | none => rfl

theorem check_bind (use : NameUse) (later : List NameUse) (result : α) :
    (use.check >>= fun _ => checked later result) = checked (use :: later) result := by
  rw [check, checked, checked, List.find?_cons]
  cases use.isValid <;> rfl

/-- If each step checks some names, so do all steps together, in the order of the steps. -/
theorem foldlM_checked {step : α → ι → Except NameUse α} {f : α → ι → α} {uses : ι → List NameUse}
    (h : ∀ state item, step state item = checked (uses item) (f state item)) (items : List ι)
    (state : α) : items.foldlM step state = checked (items.flatMap uses) (items.foldl f state) := by
  induction items generalizing state with
  | nil => rfl
  | cons item items ih =>
    rw [List.foldlM_cons, h, List.flatMap_cons, List.foldl_cons]
    simp only [ih]
    exact checked_bind _ _ _ fun state => items.foldl f state

theorem checked_of_valid (h : ∀ use ∈ uses, use.isValid = true) :
    checked uses result = .ok result := by
  have hnone : (uses.find? fun use => !use.isValid) = none := by simpa using h
  rw [checked, hnone]

end NameUse

namespace Index

open NameUse (checked)

theorem addTable_eq (words : KeyedList TableWords) (entry : String × String) :
    addTable words entry =
      checked (Document.tableUses entry) (words.insert entry.1 ⟨entry.1, entry.2⟩) := by
  rw [Document.tableUses, ← NameUse.check_bind, ← NameUse.check_bind]
  rfl

theorem addColumn_eq (words : KeyedList String) (entry : String × String) :
    addColumn words entry = checked (Document.columnUses entry) (addWord words entry.1) := by
  rw [Document.columnUses, ← NameUse.check_bind, ← NameUse.check_bind]
  rfl

theorem addColumns_eq (words : KeyedList String) (entry : String × KeyedList String) :
    addColumns words entry =
      checked (Document.columnMapUses entry)
        (entry.2.entries.foldl (fun words entry => addWord words entry.1) words) := by
  rw [addColumns, NameUse.foldlM_checked addColumn_eq, NameUse.check_bind]
  rfl

/-- The indexes of a document of which no name is checked. -/
def unchecked (document : Document) : Index where
  tableWords := document.tables.entries.foldl
    (fun words entry => words.insert entry.1 ⟨entry.1, entry.2⟩) ∅
  columnWords := document.columns.entries.foldl
    (fun words entry => entry.2.entries.foldl (fun words entry => addWord words entry.1) words) ∅
  columnTables := document.tables.entries.foldl (addOwners document.columns) ∅

/-- Names are checked in the order of the document, and the indexes do not depend on the checks. -/
theorem ofDocument_eq (document : Document) :
    ofDocument document = checked document.nameUses (unchecked document) := by
  rw [ofDocument, NameUse.foldlM_checked addTable_eq, NameUse.foldlM_checked addColumns_eq]
  simp only [NameUse.checked_map]
  exact NameUse.checked_bind _ _ _ fun tableWords =>
    { unchecked document with tableWords := tableWords }

end Index

end Codename.Mapping
