import Codename.Alias.Binding
import Codename.Mapping.Basic
import Codename.Text.Reference

/-!
# Substitution of names

A query is encrypted by replacing its tables and then its columns by their code names. Each table is
replaced wherever it stands as a whole word, one table after another in the order of the mapping.

A column can belong to several tables and have another code name in each of them. So each column is
replaced in two steps: where it is qualified by a name that stands for a table with the column, and
then, everywhere else but in parameters, if exactly one table that has the column is mentioned in
the source. A column that can be resolved in neither way is left as it is. Aliases are looked up
after the tables were replaced, so that they stand for code names.

An encrypted text is made readable by writing the plain name of a column in front of each occurrence
of its code name, inside of other words too. Columns that come later see what was written for the
earlier ones. Tables are left as they are, so annotating does not undo the encryption.

## Main definitions

* `Mapping.substituteTables` — the tables replaced.
* `Mapping.substituteQualified`, `Mapping.substituteBare` — the two steps for a column.
* `Mapping.substituteColumns` — both steps for all columns.
* `Mapping.encrypt` — a query with its tables and columns replaced.
* `Mapping.annotate` — an encrypted text with the plain names of its columns.
-/

namespace Codename.Mapping

open Codename.Text (Reference)

/-! ### Tables -/

/-- Replaces one table, given with its code name. -/
def substituteTable (text : String) (entry : String × String) : String :=
  Reference.word.substitute entry.1 entry.2 text

def substituteTables (mapping : Mapping) (text : String) : String :=
  mapping.tables.entries.foldl substituteTable text

/-! ### Columns -/

/-- Replaces the column where it is qualified by an alias, given with its table, if that table has
the column. -/
def substituteQualifiedBy (mapping : Mapping) (column text : String)
    (binding : String × String) : String :=
  match mapping.codeColumn? binding.2 column with
  | some code => (Reference.qualified binding.1).substitute column code text
  | none => text

/-- Replaces the column where it is qualified by some name of the alias table. -/
def substituteQualified (mapping : Mapping) (aliases : Alias.Table) (column text : String) :
    String :=
  aliases.entries.foldl (mapping.substituteQualifiedBy column) text

/-- Whether a source mentions a table, by its plain name or by its code name. -/
def mentions (source : String) (entry : String × String) : Bool :=
  Reference.word.occurs entry.1 source || Reference.word.occurs entry.2 source

/-- The code name of the column in the only table that has it and that the source mentions. -/
def soleCodeColumn? (mapping : Mapping) (source column : String) : Option String :=
  match (mapping.owningEntries column).filter (mentions source) with
  | [entry] => mapping.codeColumn? entry.2 column
  | _ => none

/-- Replaces the column wherever it is no parameter, if only one table can be meant. -/
def substituteBare (mapping : Mapping) (source column text : String) : String :=
  match mapping.soleCodeColumn? source column with
  | some code => Reference.bare.substitute column code text
  | none => text

/-- Replaces one column, by both steps, if the text has it other than as a parameter. -/
def substituteColumn (mapping : Mapping) (source : String) (aliases : Alias.Table)
    (text column : String) : String :=
  if Reference.bare.occurs column text then
    mapping.substituteBare source column (mapping.substituteQualified aliases column text)
  else text

/-- Replaces every column of the mapping, in the order of their first appearance. Which tables are
mentioned is decided from the source, which may differ from the text. -/
def substituteColumns (mapping : Mapping) (source : String) (aliases : Alias.Table)
    (text : String) : String :=
  mapping.columnNames.foldl (mapping.substituteColumn source aliases) text

/-! ### Queries -/

/-- The query with its tables and columns under their code names. -/
def encrypt (mapping : Mapping) (source : String) : String :=
  let text := mapping.substituteTables source
  mapping.substituteColumns source (Alias.Table.resolve text) text

/-- Writes `column_code` for every occurrence of the code name of a column. -/
def annotateColumn (text : String) (entry : String × String) : String :=
  Text.replaceSubstring entry.2 (entry.1 ++ "_" ++ entry.2) text

/-- Annotates the columns of all tables, in the order of the mapping. -/
def annotate (mapping : Mapping) (text : String) : String :=
  (mapping.columns.values.flatMap KeyedList.entries).foldl annotateColumn text

end Codename.Mapping
