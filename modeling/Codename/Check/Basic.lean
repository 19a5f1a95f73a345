import Codename.Mapping.Basic
import Codename.Text.Reference

/-!
# Checking a text for plain names

A text passes the check if it holds no plain name: no table as a whole word and no column as a whole
word other than a parameter.

## Main definitions

* `Check.Options`, `Check.Report`, `Check.Outcome` — how a check is asked for, and its answers.
* `Mapping.isEncrypted` — whether a text passes; the search ends at the first plain name.
* `Mapping.plainNames`, `Mapping.report` — every plain name of a text.
* `Mapping.check` — one of the two, as the options ask.
-/

namespace Codename.Check

/-- How the check answers. -/
structure Options where
  /-- Whether the plain names are listed. -/
  listNames : Bool := false
  deriving Repr, DecidableEq

/-- The plain names that were found. -/
structure Report where
  ok : Bool
  names : List String
  deriving Repr, DecidableEq

/-- The report of a text without plain names. -/
def Report.passed : Report := ⟨true, []⟩

/-- The answer of a check. -/
inductive Outcome where
  | flag (ok : Bool)
  | listed (report : Report)
  deriving Repr, DecidableEq

def Outcome.isOk : Outcome → Bool
  | .flag ok => ok
  | .listed report => report.ok

end Codename.Check

namespace Codename.Mapping

open Codename.Text (Reference)

/-- Whether a text holds no plain name. The empty text holds none. -/
def isEncrypted (mapping : Mapping) (text : String) : Bool :=
  text.isEmpty ||
    !mapping.tables.keys.any (Reference.word.occurs · text) &&
      !mapping.listedColumns.any (Reference.bare.occurs · text)

/-- Notes a table that is a word of the text, unless its name is noted. -/
def noteTable (text : String) (names : List String) (table : String) : List String :=
  if Reference.word.occurs table text && !names.contains table then names ++ [table] else names

/-- Notes a column that is a word of the text other than a parameter. It is not searched for if its
name is noted, as a table or as a column of an earlier table. -/
def noteColumn (text : String) (names : List String) (column : String) : List String :=
  if names.contains column then names
  else if Reference.bare.occurs column text then names ++ [column]
  else names

/-- The plain names of a text, first the tables and then the columns, each once. -/
def plainNames (mapping : Mapping) (text : String) : List String :=
  mapping.listedColumns.foldl (noteColumn text) (mapping.tables.keys.foldl (noteTable text) [])

/-- Lists the plain names of a text. -/
def report (mapping : Mapping) (text : String) : Check.Report :=
  if text.isEmpty then .passed
  else
    let names := mapping.plainNames text
    ⟨names.isEmpty, names⟩

/-- Checks a text in the way that the options ask for. -/
def check (mapping : Mapping) (options : Check.Options) (text : String) : Check.Outcome :=
  if options.listNames then .listed (mapping.report text) else .flag (mapping.isEncrypted text)

end Codename.Mapping
