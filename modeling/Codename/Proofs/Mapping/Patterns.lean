import Codename.Proofs.Mapping.Index

/-!
# The patterns of a mapping

Each name of a mapping is searched for with a pattern, and the patterns are compiled while the
indexes are filled. `Index.ofDocument` takes for granted that this works, and `LoadError` has no
case for a pattern that is refused. Here the indexes are filled once more, with patterns compiled by
a library that may refuse some. If it refuses no identifier of the document, nothing else comes of
it.

## Main definitions

* `BuildError` — a name that is no identifier, or a pattern that is refused.
* `Index.compiled` — the indexes of a document, with its patterns compiled.
* `Document.PatternsCompile` — the assumption: the patterns of identifiers compile.

## Main statements

* `Index.compiled_eq` — under this assumption compiling the patterns changes nothing.
* `exists_refused_of_compiled` — a refused pattern is that of an identifier of the document.
-/

namespace Codename.Mapping

variable {α β ε δ ι : Type}

/-- Why the indexes of a document cannot be filled, where `ε` says why a pattern is refused. -/
inductive BuildError (ε : Type) where
  | name (use : NameUse)
  | pattern (refusal : ε)
  deriving Repr, DecidableEq

/-! ### Compiling patterns -/

namespace Index

variable (compile : String → Except ε Unit)

/-- Both names of a table are checked before the patterns of both are compiled. -/
def addTableCompiled (words : KeyedList TableWords) (entry : String × String) :
    Except (BuildError ε) (KeyedList TableWords) := do
  (NameUse.check ⟨.table, entry.1⟩).mapError .name
  (NameUse.check ⟨.codeTable, entry.2⟩).mapError .name
  (compile entry.1).mapError .pattern
  (compile entry.2).mapError .pattern
  return words.insert entry.1 ⟨entry.1, entry.2⟩

/-- The pattern of a column is compiled once, and that of its code name not at all. -/
def addColumnCompiled (words : KeyedList String) (entry : String × String) :
    Except (BuildError ε) (KeyedList String) := do
  (NameUse.check ⟨.column, entry.1⟩).mapError .name
  (NameUse.check ⟨.codeColumn, entry.2⟩).mapError .name
  if words.contains entry.1 then return words
  else
    (compile entry.1).mapError .pattern
    return words.insert entry.1 entry.1

def addColumnsCompiled (words : KeyedList String) (entry : String × KeyedList String) :
    Except (BuildError ε) (KeyedList String) := do
  (NameUse.check ⟨.codeTable, entry.1⟩).mapError .name
  entry.2.entries.foldlM (addColumnCompiled compile) words

/-- The indexes of a document, or the first of its names that is no identifier or has a pattern that
is refused. -/
def compiled (document : Document) : Except (BuildError ε) Index := do
  let tableWords ← document.tables.entries.foldlM (addTableCompiled compile) ∅
  let columnWords ← document.columns.entries.foldlM (addColumnsCompiled compile) ∅
  let columnTables := document.tables.entries.foldl (addOwners document.columns) ∅
  return { tableWords, columnWords, columnTables }

end Index

/-- The assumption on a library of patterns: it refuses no identifier of the document. -/
def Document.PatternsCompile (document : Document) (compile : String → Except ε Unit) : Prop :=
  ∀ use ∈ document.nameUses, use.isValid = true → compile use.name = .ok ()

/-! ### Errors of two kinds -/

theorem mapError_bind (x : Except ε α) (f : α → Except ε β) (r : ε → δ) :
    (x >>= f).mapError r = x.mapError r >>= fun a => (f a).mapError r := by
  cases x <;> rfl

/-- If each step only has its errors renamed, so have all steps together. -/
theorem foldlM_mapError {step : α → ι → Except δ α} {other : α → ι → Except ε α} {r : ε → δ}
    {items : List ι} (h : ∀ item ∈ items, ∀ state, step state item = (other state item).mapError r)
    (state : α) : items.foldlM step state = (items.foldlM other state).mapError r := by
  induction items generalizing state with
  | nil => rfl
  | cons item items ih =>
    rw [List.forall_mem_cons] at h
    rw [List.foldlM_cons, List.foldlM_cons, mapError_bind, h.1]
    exact bind_congr (ih h.2)

/-! ### The indexes -/

namespace Index

variable {compile : String → Except ε Unit} {document : Document}

theorem addTableCompiled_eq {entry : String × String}
    (h : ∀ use ∈ Document.tableUses entry, use.isValid = true → compile use.name = .ok ())
    (words : KeyedList TableWords) :
    addTableCompiled compile words entry = (addTable words entry).mapError .name := by
  simp only [Document.tableUses, List.forall_mem_cons] at h
  rw [addTableCompiled, addTable, NameUse.check, NameUse.check]
  cases hplain : NameUse.isValid ⟨.table, entry.1⟩ with
  | false => rfl
  | true =>
    cases hcode : NameUse.isValid ⟨.codeTable, entry.2⟩ with
    | false => rfl
    | true =>
      rw [h.1 hplain, h.2.1 hcode]
      rfl

theorem addColumnCompiled_eq {entry : String × String}
    (h : ∀ use ∈ Document.columnUses entry, use.isValid = true → compile use.name = .ok ())
    (words : KeyedList String) :
    addColumnCompiled compile words entry = (addColumn words entry).mapError .name := by
  simp only [Document.columnUses, List.forall_mem_cons] at h
  rw [addColumnCompiled, addColumn, NameUse.check, NameUse.check, addWord]
  cases hplain : NameUse.isValid ⟨.column, entry.1⟩ with
  | false => rfl
  | true =>
    cases hcode : NameUse.isValid ⟨.codeColumn, entry.2⟩ with
    | false => rfl
    | true =>
      rw [h.1 hplain]
      cases words.contains entry.1 <;> rfl

theorem addColumnsCompiled_eq {entry : String × KeyedList String}
    (h : ∀ use ∈ Document.columnMapUses entry, use.isValid = true → compile use.name = .ok ())
    (words : KeyedList String) :
    addColumnsCompiled compile words entry = (addColumns words entry).mapError .name := by
  rw [Document.columnMapUses, List.forall_mem_cons, List.forall_mem_flatMap] at h
  rw [addColumnsCompiled, addColumns, mapError_bind,
    foldlM_mapError fun column hcolumn => addColumnCompiled_eq (h.2 column hcolumn)]

/-- Where the patterns of identifiers compile, the indexes are filled as if there were no patterns:
the result is the same, and a name that is no identifier is the only error. -/
theorem compiled_eq (h : document.PatternsCompile compile) :
    compiled compile document = (ofDocument document).mapError .name := by
  rw [Document.PatternsCompile, Document.nameUses, List.forall_mem_append, List.forall_mem_flatMap,
    List.forall_mem_flatMap] at h
  rw [compiled, ofDocument, mapError_bind,
    foldlM_mapError fun entry hentry => addTableCompiled_eq (h.1 entry hentry)]
  refine bind_congr fun tableWords => ?_
  rw [mapError_bind, foldlM_mapError fun entry hentry => addColumnsCompiled_eq (h.2 entry hentry)]
  rfl

end Index

variable {compile : String → Except ε Unit} {document : Document}

/-- A document is accepted with its patterns compiled just when its names are accepted. -/
theorem compiled_eq_map_ofDocument (h : document.PatternsCompile compile) :
    Index.compiled compile document = ((ofDocument document).map index).mapError .name := by
  rw [map_index_ofDocument, Index.compiled_eq h]

/-- If a pattern is refused, then that of an identifier. -/
theorem exists_refused_of_compiled {refusal : ε}
    (h : Index.compiled compile document = .error (.pattern refusal)) :
    ∃ use ∈ document.nameUses, use.isValid = true ∧ compile use.name ≠ .ok () := by
  by_contra hnone
  have hcompile : document.PatternsCompile compile := fun use huse hvalid =>
    by_contra fun hrefused => hnone ⟨use, huse, hvalid, hrefused⟩
  rw [Index.compiled_eq hcompile] at h
  cases hbuilt : Index.ofDocument document with
  | error use => rw [hbuilt] at h; cases h
  | ok index => rw [hbuilt] at h; cases h

end Codename.Mapping
