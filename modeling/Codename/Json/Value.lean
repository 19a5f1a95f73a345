import Codename.Json.Escape

/-!
# Written JSON

The documents of this library are written from a small tree of values, in two forms: compact,
without any white space, and indented by two blanks a level, with each element and member on a line
of its own. Empty lists and objects are written `[]` and `{}` in both.

## Main definitions

* `Value` — what documents are made of.
* `Value.compact`, `Value.indented` — the two written forms.
-/

namespace Codename.Json

/-- A value as it is written. -/
inductive Value where
  | null
  | boolean (value : Bool)
  | string (value : String)
  | list (elements : List Value)
  | object (members : List (String × Value))

/-- A string between quotes. -/
def writeString (value : String) : List Char :=
  '"' :: value.toList.flatMap escape ++ ['"']

/-- Parts with a separator between them. -/
def separate (separator : List Char) : List (List Char) → List Char
  | [] => []
  | [part] => part
  | part :: rest => part ++ separator ++ separate separator rest

/-- A new line, indented to a depth. -/
def newLine (depth : Nat) : List Char :=
  '\n' :: List.replicate (2 * depth) ' '

/-- Parts between brackets, each on a line of its own one level deeper than `depth`. -/
def block (opening closing : Char) (depth : Nat) (parts : List (List Char)) : List Char :=
  if parts.isEmpty then [opening, closing]
  else
    opening :: newLine (depth + 1) ++ separate (',' :: newLine (depth + 1)) parts ++
      newLine depth ++ [closing]

namespace Value

mutual

def writeCompact : Value → List Char
  | .null => ['n', 'u', 'l', 'l']
  | .boolean value => if value then ['t', 'r', 'u', 'e'] else ['f', 'a', 'l', 's', 'e']
  | .string value => writeString value
  | .list elements => '[' :: separate [','] (compactElements elements) ++ [']']
  | .object members => '{' :: separate [','] (compactMembers members) ++ ['}']

def compactElements : List Value → List (List Char)
  | [] => []
  | value :: rest => writeCompact value :: compactElements rest

def compactMembers : List (String × Value) → List (List Char)
  | [] => []
  | (key, value) :: rest =>
    (writeString key ++ ':' :: writeCompact value) :: compactMembers rest

end

mutual

/-- The indented form, for a value that stands at a depth. -/
def writeIndented (depth : Nat) : Value → List Char
  | .null => ['n', 'u', 'l', 'l']
  | .boolean value => if value then ['t', 'r', 'u', 'e'] else ['f', 'a', 'l', 's', 'e']
  | .string value => writeString value
  | .list elements => block '[' ']' depth (indentedElements (depth + 1) elements)
  | .object members => block '{' '}' depth (indentedMembers (depth + 1) members)

def indentedElements (depth : Nat) : List Value → List (List Char)
  | [] => []
  | value :: rest => writeIndented depth value :: indentedElements depth rest

def indentedMembers (depth : Nat) : List (String × Value) → List (List Char)
  | [] => []
  | (key, value) :: rest =>
    (writeString key ++ ':' :: ' ' :: writeIndented depth value) :: indentedMembers depth rest

end

def compact (value : Value) : String :=
  String.ofList value.writeCompact

def indented (value : Value) : String :=
  String.ofList (value.writeIndented 0)

end Value

end Codename.Json
