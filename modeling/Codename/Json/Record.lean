import Codename.Json.Reader

/-!
# Readers of records

A record is written as an object of its fields, in any order and among fields that no one knows, or
as a list of their values in the declared order. A field that was declared with a fallback may be
missing in an object, and at the end of a list.

## Main definitions

* `Field`, `Layout` — the declared fields of a record.
* `Layout.reader` — the reader of a record.
-/

namespace Codename.Json

/-- A field of a record, of which `σ` is what was read so far. -/
structure Field (σ : Type) where
  name : String
  /-- Whether the field was read already. -/
  isSet : σ → Bool
  /-- Reads the value of the field into the record. -/
  reader : Reader (σ → σ)
  /-- Whether a list may end before the field. -/
  optional : Bool

/-- The fields of a record in their declared order. -/
structure Layout (σ α : Type) where
  name : String
  fields : List (Field σ)
  /-- A record of which nothing was read. -/
  start : σ
  /-- The finished record, or the first field that is missing in it. -/
  finish : σ → Except Fault α

namespace Layout

variable {σ α : Type}

/-- What a message asks for where a record is needed. -/
def expected (layout : Layout σ α) : String :=
  "struct " ++ layout.name

/-- How the value of a key of the object is read. -/
def member (layout : Layout σ α) (state : σ) (key : String) :
    Except Fault (Reader (σ → σ)) :=
  match layout.fields.find? (·.name == key) with
  | none => .ok (Reader.ignored.map fun _ => id)
  | some field => if field.isSet state then .error (.repeatedField key) else .ok field.reader

/-- Reads the end of a list all of whose fields were read. -/
def closeList (text : List Char) : Except Fault (List Char) :=
  match skipBlank text with
  | [] => .error .endInList
  | ']' :: rest => .ok rest
  | ',' :: rest =>
    match skipBlank rest with
    | ']' :: _ => .error .trailingComma
    | _ => .error .trailingText
  | _ => .error .trailingText

/-- Reads the values of the fields that are left from a list, `count` of them having been read. -/
def positional (layout : Layout σ α) (fields : List (Field σ)) (count : Nat) (state : σ)
    (text : List Char) : Except Fault (σ × List Char) :=
  match fields with
  | [] => (closeList text).map fun rest => (state, rest)
  | field :: fields =>
    match nextElement (count == 0) text with
    | .error fault => .error fault
    | .ok (.closed _) =>
      if field.optional then positional layout fields count state text
      else .error (.tooFewElements count layout.name layout.fields.length)
    | .ok (.more next) =>
      match field.reader.run next with
      | .error fault => .error fault
      | .ok (update, rest) => positional layout fields (count + 1) (update state) rest

theorem length_lt_of_closeList {text rest : List Char} (h : closeList text = .ok rest) :
    rest.length < text.length := by
  unfold closeList at h
  split at h
  · cases h
  · next hblank =>
    cases h
    exact length_lt_of_skipBlank hblank
  · split at h <;> cases h
  · cases h

theorem length_lt_of_positional {layout : Layout σ α} {fields : List (Field σ)} {count : Nat}
    {state final : σ} {text rest : List Char}
    (h : layout.positional fields count state text = .ok (final, rest)) :
    rest.length < text.length := by
  fun_induction positional layout fields count state text with
  | case1 count state text =>
    cases hclose : closeList text with
    | error fault => simp [hclose, Except.map] at h
    | ok after =>
      simp only [hclose, Except.map] at h
      cases h
      exact length_lt_of_closeList hclose
  | case3 count state text field fields closed hnext hoptional ih => exact ih h
  | case6 count state text field fields next hnext update after hvalue ih =>
    have hle := length_le_of_nextElement_more hnext
    have hlt := field.reader.length_lt hvalue
    have hlast := ih h
    omega
  | _ => cases h

/-- Reads the fields of a record from an object or a list. -/
def readFields (layout : Layout σ α) (text : List Char) : Except Fault (σ × List Char) :=
  match skipBlank text with
  | '[' :: rest => layout.positional layout.fields 0 layout.start rest
  | '{' :: rest => Reader.members layout.member true layout.start rest
  | rest => .error (mismatch layout.expected rest)

theorem length_lt_of_readFields {layout : Layout σ α} {final : σ} {text rest : List Char}
    (h : layout.readFields text = .ok (final, rest)) : rest.length < text.length := by
  unfold readFields at h
  split at h
  · next hblank =>
    exact Nat.lt_trans (length_lt_of_positional h) (length_lt_of_skipBlank hblank)
  · next hblank =>
    exact Nat.lt_trans (Reader.length_lt_of_members h) (length_lt_of_skipBlank hblank)
  · cases h

/-- A record, written as an object or as a list. -/
def reader (layout : Layout σ α) : Reader α where
  run text := do
    let (state, rest) ← layout.readFields text
    let value ← layout.finish state
    pure (value, rest)
  length_lt := by
    intro text value rest h
    cases hfields : layout.readFields text with
    | error fault => simp [hfields, bind, Except.bind] at h
    | ok pair =>
      obtain ⟨state, after⟩ := pair
      simp only [hfields, bind, Except.bind] at h
      cases hfinish : layout.finish state with
      | error fault => simp [hfinish] at h
      | ok record =>
        simp only [hfinish] at h
        cases h
        exact length_lt_of_readFields hfields

end Layout

end Codename.Json
