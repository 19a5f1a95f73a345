import Codename.Check.Basic
import Codename.Json.Record
import Codename.Json.Value

/-!
# The text of options and reports

## Main definitions

* `Options.reader`, `Options.toJson` — the options of a check as JSON.
* `Report.reader`, `Report.toJson` — a report as JSON.
-/

namespace Codename.Check

open Codename.Json

/-- The only field of the options; it is off if it is missing. -/
def Options.layout : Layout (Option Bool) Options where
  name := "CheckOptions"
  fields := [
    { name := "include_unencrypted_words"
      isSet := Option.isSome
      reader := Reader.boolean.map fun listNames _ => some listNames
      optional := true }]
  start := none
  finish known := .ok ⟨known.getD false⟩

def Options.reader : Reader Options := Options.layout.reader

def Options.toJson (options : Options) : Value :=
  .object [("include_unencrypted_words", .boolean options.listNames)]

/-- A report of which only some fields were read. -/
structure Report.Partial where
  ok? : Option Bool := none
  names? : Option (List String) := none

/-- The fields of a report, all of which have to be there. -/
def Report.layout : Layout Report.Partial Report where
  name := "Verification"
  fields := [
    { name := "ok"
      isSet := fun known => known.ok?.isSome
      reader := Reader.boolean.map fun ok known => { known with ok? := some ok }
      optional := false },
    { name := "offending_names"
      isSet := fun known => known.names?.isSome
      reader := (Reader.string "a string").list.map fun names known =>
        { known with names? := some names }
      optional := false }]
  start := {}
  finish known :=
    match known.ok?, known.names? with
    | none, _ => .error (.missingField "ok")
    | _, none => .error (.missingField "offending_names")
    | some ok, some names => .ok ⟨ok, names⟩

def Report.reader : Reader Report := Report.layout.reader

def Report.toJson (report : Report) : Value :=
  .object [
    ("ok", .boolean report.ok),
    ("offending_names", .list (report.names.map .string))]

end Codename.Check
