import Codename.KeyedList
import Codename.Text.Word

/-!
# Mapping documents

A mapping document says by which code names the tables and columns of a database are known. It lists
the code name of each table and, under the code name of a table, the code name of each of its
columns. The order of the document matters for columns that several tables have.

## Main definitions

* `Document` — the tables and columns as the document lists them.
* `Role`, `NameUse` — what a name in a document stands for.
* `isIdentifier` — the names that a document may use.
* `Document.nameUses` — all names of a document, in the order in which they are checked.
-/

namespace Codename.Mapping

/-- The tables and columns of a database, with their code names. -/
structure Document where
  /-- The code name of each table. -/
  tables : KeyedList String
  /-- Under the code name of a table, the code name of each of its columns. -/
  columns : KeyedList (KeyedList String)
  deriving DecidableEq, Inhabited

/-- What a name in a document stands for. -/
inductive Role where
  | table
  | codeTable
  | column
  | codeColumn
  deriving Repr, DecidableEq

/-- How messages call a role. -/
def Role.describe : Role → String
  | .table => "table"
  | .codeTable => "encrypted table"
  | .column => "column"
  | .codeColumn => "encrypted column"

/-- A name that a document uses, with its role. -/
structure NameUse where
  role : Role
  name : String
  deriving Repr, DecidableEq

/-- A name made of word characters, at least one of them. -/
def isIdentifier (name : String) : Bool :=
  !name.toList.isEmpty && name.toList.all Text.isWordChar

/-- Whether the name can be used. -/
def NameUse.isValid (use : NameUse) : Bool :=
  isIdentifier use.name

def NameUse.message (use : NameUse) : String :=
  s!"Invalid {use.role.describe} identifier `{use.name}`: " ++
    "only letters, digits and underscores are allowed"

namespace Document

/-- The names of a table entry: the table, then its code name. -/
def tableUses (entry : String × String) : List NameUse :=
  [⟨.table, entry.1⟩, ⟨.codeTable, entry.2⟩]

/-- The names of a column entry: the column, then its code name. -/
def columnUses (entry : String × String) : List NameUse :=
  [⟨.column, entry.1⟩, ⟨.codeColumn, entry.2⟩]

/-- The names of the columns of one table, after the code name of the table. -/
def columnMapUses (entry : String × KeyedList String) : List NameUse :=
  ⟨.codeTable, entry.1⟩ :: entry.2.entries.flatMap columnUses

/-- All names of a document, the tables before the columns. -/
def nameUses (document : Document) : List NameUse :=
  document.tables.entries.flatMap tableUses ++ document.columns.entries.flatMap columnMapUses

end Document

end Codename.Mapping
