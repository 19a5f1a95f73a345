import Codename.Catalog.Format
import Codename.Check.Format
import Codename.Mapping.Format
import Codename.Proofs.Json.Reading
import Codename.Proofs.KeyedList
import Codename.Proofs.Mapping.Names
import Codename.Session.Config

/-!
# Documents are read as they were written

## Main definitions

* `Reader.Restores` — a reader gives back every value from both of its written forms.
* `Mapping.entriesJson` — an object of entries.

## Main statements

* `Mapping.reads_entriesJson` — an object of entries, whose keys may be repeated.
* `Mapping.Document.reads`, `Catalog.Entry.reads`, `Catalog.reads`, `Check.Options.reads`,
  `Check.Report.reads`, `Config.reads` — the documents.
-/

namespace Codename

open Codename.Json

/-- Every value is given back by its compact form and by its indented form. -/
def Json.Reader.Restores {α : Type} (reader : Reader α) (toJson : α → Value) : Prop :=
  ∀ value, reader.parse (toJson value).compact = .ok value ∧
    reader.parse (toJson value).indented = .ok value

theorem Json.Reader.Restores.of_reads {α : Type} {reader : Reader α} {toJson : α → Value}
    (h : ∀ value, reader.Reads (toJson value) value) : reader.Restores toJson :=
  fun value => ⟨(h value).parse_compact, (h value).parse_indented⟩

/-! ### Errors that are told in other words -/

section MapError

variable {ε ε' α : Type} {f : ε → ε'} {answer : Except ε α}

theorem mapError_eq_ok {a : α} : answer.mapError f = .ok a ↔ answer = .ok a := by
  cases answer <;> simp [Except.mapError]

theorem mapError_eq_error {error : ε'} :
    answer.mapError f = .error error ↔ ∃ cause, answer = .error cause ∧ error = f cause := by
  cases answer <;> simp [Except.mapError, eq_comm]

end MapError

/-! ### Keyed lists -/

namespace Mapping

/-- Entries as a JSON object, with repeated keys as they are. -/
def entriesJson {α : Type} (value : α → Value) (entries : List (String × α)) : Value :=
  .object (entries.map fun entry => (entry.1, value entry.2))

variable {α β : Type} {reader : Reader α} {toJson : β → Value} {f : β → α}

/-- Entries are inserted one after another, whether their keys are new or known. -/
theorem membersRead_entries (h : ∀ value, reader.Reads (toJson value) (f value))
    (known : KeyedList α) (entries : List (String × β)) :
    Reader.MembersRead (fun _ key => .ok (reader.map fun entry known => known.insert key entry))
      known (entries.map fun entry => (entry.1, toJson entry.2))
      (entries.foldl (fun known entry => known.insert entry.1 (f entry.2)) known) := by
  induction entries generalizing known with
  | nil => exact .nil known
  | cons entry entries ih => exact .cons rfl ((h entry.2).map _) (ih (known.insert entry.1 _))

theorem reads_entriesJson (h : ∀ value, reader.Reads (toJson value) (f value))
    (entries : List (String × β)) :
    reader.keyed.Reads (entriesJson toJson entries)
      (.ofList (entries.map fun entry => (entry.1, f entry.2))) := by
  rw [KeyedList.ofList, List.foldl_map]
  exact .keyed (membersRead_entries h ∅ entries)

theorem reads_keyedJson {α : Type} {reader : Reader α} {toJson : α → Value}
    (h : ∀ value, reader.Reads (toJson value) value) (entries : KeyedList α) :
    reader.keyed.Reads (keyedJson toJson entries) entries := by
  have hread := reads_entriesJson h entries.entries
  rwa [List.map_id', KeyedList.ofList_entries] at hread

theorem Document.reads (document : Document) :
    Document.reader.Reads document.toJson document := by
  have hstring := Reader.reads_string "a string"
  have htables := reads_keyedJson hstring document.tables
  have hcolumns := reads_keyedJson (reads_keyedJson hstring) document.columns
  refine Layout.reads ⟨some document.tables, some document.columns⟩ ?_ rfl
  refine Layout.membersRead_cons rfl rfl htables ?_
  refine Layout.membersRead_cons rfl rfl hcolumns ?_
  exact .nil _

/-- Whether a text gives a mapping depends on the document that is read from it alone. -/
theorem ofText_eq_mapError {text : String} {document : Document}
    (h : Document.reader.parse text = .ok document) :
    ofText text = (ofDocument document).mapError .invalidName := by
  rw [ofText, h]

end Mapping

/-! ### Records -/

theorem Catalog.Entry.reads (entry : Catalog.Entry) :
    Catalog.Entry.reader.Reads entry.toJson entry := by
  obtain ⟨name, locator, isDefault⟩ := entry
  have hstring := Reader.reads_string "a string"
  cases isDefault with
  | true =>
    refine Layout.reads ⟨some name, some locator, some true⟩ ?_ rfl
    refine Layout.membersRead_cons rfl rfl (hstring name) ?_
    refine Layout.membersRead_cons rfl rfl (hstring locator) ?_
    refine Layout.membersRead_cons rfl rfl (Reader.reads_boolean true) ?_
    exact .nil _
  | false =>
    refine Layout.reads ⟨some name, some locator, none⟩ ?_ rfl
    refine Layout.membersRead_cons rfl rfl (hstring name) ?_
    refine Layout.membersRead_cons rfl rfl (hstring locator) ?_
    exact .nil _

theorem Catalog.reads (catalog : Catalog) : Catalog.reader.Reads catalog.toJson catalog := by
  have hentries : List.Forall₂ Entry.reader.Reads (catalog.entries.map Entry.toJson)
      catalog.entries := by
    rw [List.forall₂_map_left_iff, List.forall₂_same]
    exact fun entry _ => entry.reads
  exact (Reader.Reads.list hentries).map Catalog.mk

theorem Check.Options.reads (options : Check.Options) :
    Check.Options.reader.Reads options.toJson options := by
  refine Layout.reads (some options.listNames) ?_ rfl
  refine Layout.membersRead_cons rfl rfl (Reader.reads_boolean options.listNames) ?_
  exact .nil _

theorem Check.Report.reads (report : Check.Report) :
    Check.Report.reader.Reads report.toJson report := by
  have hnames : List.Forall₂ (Reader.string "a string").Reads (report.names.map Value.string)
      report.names := by
    rw [List.forall₂_map_left_iff, List.forall₂_same]
    exact fun name _ => Reader.reads_string "a string" name
  refine Layout.reads ⟨some report.ok, some report.names⟩ ?_ rfl
  refine Layout.membersRead_cons rfl rfl (Reader.reads_boolean report.ok) ?_
  refine Layout.membersRead_cons rfl rfl (Reader.Reads.list hnames) ?_
  exact .nil _

theorem Config.reads (config : Config) : Config.reader.Reads config.toJson config := by
  obtain ⟨catalog, stateFile?⟩ := config
  have hstring := Reader.reads_string "path string"
  refine Layout.reads ⟨some catalog, some stateFile?⟩ ?_ rfl
  refine Layout.membersRead_cons rfl rfl (hstring catalog) ?_
  cases stateFile? with
  | none =>
    refine Layout.membersRead_cons rfl rfl (Reader.reads_nullable_null _) ?_
    exact .nil _
  | some path =>
    refine Layout.membersRead_cons rfl rfl (hstring path).nullable_string ?_
    exact .nil _

end Codename
