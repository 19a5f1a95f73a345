import Codename.Proofs.Json.Documents
import Codename.Proofs.Mapping.Index

/-!
# Repeated keys in the text of a mapping

An object of a text can have a key more than once. Of the entries with one key the mapping has the
last, in the place of the first, and the columns of a table are replaced as a whole. What is
replaced never counts: names are checked when the document is complete.

## Main definitions

* `Document.ofGiven` — the document of entries that were given one after another.
* `Document.IsGivenBy` — the objects that give these entries.

## Main statements

* `ofText_repeated` — the mapping of a text whose keys are repeated at will.
-/

namespace Codename.Mapping

open Codename.Json

namespace Document

/-- The document of tables and columns that were given one after another. -/
def ofGiven (tables : List (String × String)) (columns : List (String × List (String × String))) :
    Document where
  tables := .ofList tables
  columns := .ofList (columns.map fun entry => (entry.1, .ofList entry.2))

/-- The value is an object that gives the tables and the columns, in either order of the two. -/
def IsGivenBy (tables : List (String × String)) (columns : List (String × List (String × String)))
    (value : Value) : Prop :=
  let tables := ("tables", entriesJson .string tables)
  let columns := ("columns", entriesJson (entriesJson .string) columns)
  value = .object [tables, columns] ∨ value = .object [columns, tables]

variable {tables : List (String × String)} {columns : List (String × List (String × String))}
  {value : Value}

/-- The document that is read holds what was given. -/
theorem reads_ofGiven (h : IsGivenBy tables columns value) :
    Document.reader.Reads value (ofGiven tables columns) := by
  have hstrings := fun given : List (String × String) =>
    reads_entriesJson (fun text => Reader.reads_string "a string" text) given
  simp only [List.map_id'] at hstrings
  have htables := hstrings tables
  have hcolumns := reads_entriesJson hstrings columns
  have hfinish : layout.finish
      ⟨some (ofGiven tables columns).tables, some (ofGiven tables columns).columns⟩ =
        .ok (ofGiven tables columns) := rfl
  rcases h with rfl | rfl
  · refine Layout.reads _ ?_ hfinish
    refine Layout.membersRead_cons rfl rfl htables ?_
    refine Layout.membersRead_cons rfl rfl hcolumns ?_
    exact .nil _
  · refine Layout.reads _ ?_ hfinish
    refine Layout.membersRead_cons rfl rfl hcolumns ?_
    refine Layout.membersRead_cons rfl rfl htables ?_
    exact .nil _

end Document

variable {tables : List (String × String)} {columns : List (String × List (String × String))}
  {value : Value} {text : String}

/-- A text whose keys are repeated at will gives the document in which each key stands once, in the
place of its first appearance and with its last value, the columns of a table being replaced as a
whole. The text gives a mapping if the names of this document are plain, and else the first of them
that is not is the error; what was replaced is not looked at. -/
theorem ofText_repeated (hvalue : Document.IsGivenBy tables columns value)
    (htext : value.WrittenAs text) :
    ∃ document, Document.reader.parse text = .ok document ∧
      document.tables.KeepsLast (· = ·) tables ∧
      document.columns.KeepsLast (fun given kept => kept.KeepsLast (· = ·) given) columns ∧
      (∀ mapping, ofText text = .ok mapping → mapping.document = document) ∧
      ((∃ mapping, ofText text = .ok mapping) ↔ document.IsAccepted) ∧
      ∀ error, ofText text = .error error ↔
        ∃ use, document.Refuses use ∧ error = .invalidName use := by
  have hparse := (Document.reads_ofGiven hvalue).parse htext
  refine ⟨.ofGiven tables columns, hparse, KeyedList.keepsLast_ofList_self tables,
    KeyedList.keepsLast_ofList KeyedList.keepsLast_ofList_self columns, ?_⟩
  rw [ofText_eq_mapError hparse]
  refine ⟨fun mapping h => ?_, ?_, fun error => ?_⟩
  · exact (ofDocument_eq_ok_iff.1 (mapError_eq_ok.1 h)).1
  · simp only [mapError_eq_ok, exists_ofDocument_iff]
  · simp only [mapError_eq_error, ofDocument_eq_error_iff]

/-- The table `customer` comes again, and so do its columns; no mapping may have what came first. -/
def repeatedTables : List (String × String) :=
  [("customer", "customer table"), ("orders", "T2"), ("customer", "T1")]

def repeatedColumns : List (String × List (String × String)) :=
  [("T1", [("", "C0")]), ("T2", [("id", "D1")]),
    ("T1", [("id", "C3"), ("name", "C2"), ("id", "C1")])]

/-- The text gives a mapping, with what came last in the places of what came first. -/
theorem ofText_repeated_customer :
    ∃ mapping, ofText (Value.object [("columns", entriesJson (entriesJson .string) repeatedColumns),
        ("tables", entriesJson .string repeatedTables)]).indented = .ok mapping ∧
      mapping.document.tables.entries = [("customer", "T1"), ("orders", "T2")] ∧
      mapping.document.columns.entries.map (fun entry => (entry.1, entry.2.entries)) =
        [("T1", [("id", "C1"), ("name", "C2")]), ("T2", [("id", "D1")])] := by
  have hvalue : Document.IsGivenBy repeatedTables repeatedColumns _ := .inr rfl
  obtain ⟨document, hparse, -, -, hmapping, hload, -⟩ :=
    ofText_repeated hvalue (Value.writtenAs_indented _)
  have hdocument : document = .ofGiven repeatedTables repeatedColumns :=
    Except.ok.inj (hparse.symm.trans (Document.reads_ofGiven hvalue).parse_indented)
  have hvalid : ∀ use ∈ (Document.ofGiven repeatedTables repeatedColumns).nameUses,
      use.isValid = true := by decide +kernel
  obtain ⟨mapping, h⟩ := hload.2 (hdocument ▸ forall_isValid_iff.1 hvalid)
  refine ⟨mapping, h, ?_⟩
  rw [hmapping mapping h, hdocument]
  decide +kernel

end Codename.Mapping
