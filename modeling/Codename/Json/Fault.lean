import Codename.Text.Quoted

/-!
# What can be wrong with a JSON text

Reading a document stops at the first fault from the left. A fault is either one of the form of the
text or one of its content: a value of the wrong kind, a list of the wrong length, a field that is
missing or given twice.

## Main definitions

* `Found` — the value that stands where another kind is needed.
* `Fault`, `Fault.message` — the fault and its text.
-/

namespace Codename.Json

/-- A value as a message names it. A number that is no integer in range is named by its shortest
decimal text. -/
inductive Found where
  | null
  | boolean (value : Bool)
  | integer (value : Int)
  | decimal (text : String)
  | string (value : String)
  | sequence
  | map
  deriving Repr, DecidableEq

/-- How a message names a value. -/
def Found.describe : Found → String
  | .null => "null"
  | .boolean value => s!"boolean `{value}`"
  | .integer value => s!"integer `{value}`"
  | .decimal text => s!"floating point `{text}`"
  | .string value => "string " ++ Text.quote value
  | .sequence => "sequence"
  | .map => "map"

/-- The first fault of a JSON text. -/
inductive Fault where
  /-- The text ends where a value is needed. -/
  | endInValue
  /-- The text ends inside a list. -/
  | endInList
  /-- The text ends inside an object. -/
  | endInObject
  /-- The text ends inside a string. -/
  | endInString
  /-- No value starts here. -/
  | noValue
  /-- A word that is none of `null`, `true` and `false`. -/
  | noLiteral
  /-- A member of an object does not start with a string. -/
  | keyNotString
  /-- No colon follows a key. -/
  | noColon
  /-- A list goes on with neither a comma nor its end. -/
  | noListEnd
  /-- An object goes on with neither a comma nor its end. -/
  | noObjectEnd
  /-- A comma stands right before the end of a list or an object. -/
  | trailingComma
  /-- Text follows the value. -/
  | trailingText
  /-- A number is not well formed. -/
  | malformedNumber
  /-- A number is too large to be held. -/
  | numberTooLarge
  /-- A backslash is followed by no escape. -/
  | unknownEscape
  /-- The first half of a surrogate pair stands alone. -/
  | unpairedHigh
  /-- The second half of a surrogate pair is missing or stands alone. -/
  | unpairedLow
  /-- A string holds a control character as it is. -/
  | rawControl
  /-- A value of another kind is needed. -/
  | wrongKind (found : Found) (expected : String)
  /-- A record written as a list has too few elements. -/
  | tooFewElements (count : Nat) (record : String) (fields : Nat)
  /-- A record lacks a field. -/
  | missingField (name : String)
  /-- A record has a field twice. -/
  | repeatedField (name : String)
  deriving Repr, DecidableEq

def Fault.message : Fault → String
  | .endInValue => "EOF while parsing a value"
  | .endInList => "EOF while parsing a list"
  | .endInObject => "EOF while parsing an object"
  | .endInString => "EOF while parsing a string"
  | .noValue => "expected value"
  | .noLiteral => "expected ident"
  | .keyNotString => "key must be a string"
  | .noColon => "expected `:`"
  | .noListEnd => "expected `,` or `]`"
  | .noObjectEnd => "expected `,` or `\x7d`"
  | .trailingComma => "trailing comma"
  | .trailingText => "trailing characters"
  | .malformedNumber => "invalid number"
  | .numberTooLarge => "number out of range"
  | .unknownEscape => "invalid escape"
  | .unpairedHigh => "unexpected end of hex escape"
  | .unpairedLow => "lone leading surrogate in hex escape"
  | .rawControl => "control character (\\u0000-\\u001F) found while parsing a string"
  | .wrongKind found expected => s!"invalid type: {found.describe}, expected {expected}"
  | .tooFewElements count record fields =>
    s!"invalid length {count}, expected struct {record} with {fields} " ++
      (if fields = 1 then "element" else "elements")
  | .missingField name => s!"missing field `{name}`"
  | .repeatedField name => s!"duplicate field `{name}`"

end Codename.Json
