import Codename.Json.Record
import Codename.Proofs.Json.Grammar
import Mathlib.Data.List.Forall2
import Mathlib.Data.List.TakeWhile

/-!
# Reading written values

A reader reads a value as a result if it takes the value off the front of a text in whichever way it
is written, whatever follows. Each kind of reader does so if the readers of its parts do.

## Main definitions

* `Reader.Reads` — a reader reads a value as a result.
* `Reader.MembersRead` — what is read from members one after another.

## Main statements

* `Reader.Reads.list`, `Reader.Reads.keyed`, `Layout.reads` — lists, objects and records.
* `Reader.Reads.parse` — whole texts.
-/

namespace Codename.Json

variable {α β σ : Type}

/-- In whichever way the value is written, it is read as the result, whatever white space is in
front of it and whatever follows. -/
def Reader.Reads (reader : Reader α) (value : Value) (result : α) : Prop :=
  ∀ blank text rest : List Char, Blank blank → value.Begins text rest →
    reader.run (blank ++ text) = .ok (result, rest)

namespace Reader

variable {reader item : Reader α} {value : Value} {result : α} {text rest next : List Char}
  {first : Bool}

theorem Reads.map (h : reader.Reads value result) (f : α → β) :
    (reader.map f).Reads value (f result) := by
  intro blank text rest hblank htext
  show (reader.run _).map _ = _
  rw [h blank text rest hblank htext]
  rfl

/-! ### Strings and words -/

theorem reads_string (expected text : String) :
    (Reader.string expected).Reads (.string text) text := by
  intro blank written rest hblank hwritten
  cases hwritten with
  | string hchars =>
    simp only [Reader.string, skipBlank_append_cons hblank '"' rfl, readString_of_begins hchars]
    simp [Except.map]

theorem skipWord_append (word rest : List Char) : skipWord word (word ++ rest) = .ok rest := by
  induction word with
  | nil => cases rest <;> rfl
  | cons w word ih => simpa [skipWord] using ih

theorem reads_boolean (b : Bool) : Reader.boolean.Reads (.boolean b) b := by
  intro blank text rest hblank htext
  cases htext with
  | yes =>
    simp only [Reader.boolean, skipBlank_append_cons hblank 't' rfl]
    exact congrArg (Except.map _) (skipWord_append ['r', 'u', 'e'] rest)
  | no =>
    simp only [Reader.boolean, skipBlank_append_cons hblank 'f' rfl]
    exact congrArg (Except.map _) (skipWord_append ['a', 'l', 's', 'e'] rest)

theorem reads_nullable_null (reader : Reader α) : reader.nullable.Reads .null none := by
  intro blank text rest hblank htext
  cases htext
  simp only [Reader.nullable, skipBlank_append_cons hblank 'n' rfl]
  exact congrArg (Except.map _) (skipWord_append ['u', 'l', 'l'] rest)

theorem Reads.nullable_string {text : String} (h : reader.Reads (.string text) result) :
    reader.nullable.Reads (.string text) (some result) := by
  intro blank written rest hblank hwritten
  have hread := h.map some blank written rest hblank hwritten
  cases hwritten
  simp only [Reader.nullable, skipBlank_append_cons hblank '"' rfl]
  exact hread

/-! ### Lists -/

theorem nextElement_closed (h : skipBlank text = ']' :: rest) :
    nextElement first text = .ok (.closed rest) := by
  simp [nextElement, h]

/-- An element that comes first or behind a comma is found. -/
theorem nextElement_separates {separator : List Char} {c : Char} (h : Separates first separator)
    (hspace : isSpace c = false) (hclosing : c ≠ ']') :
    nextElement first (separator ++ c :: text) = .ok (.more (c :: text)) := by
  cases first with
  | true =>
    rw [nextElement, skipBlank_append_cons h c hspace]
    simp
  | false =>
    obtain ⟨gap, blank, rfl, hgap, hblank⟩ := h
    rw [nextElement, List.append_assoc, List.cons_append, skipBlank_append_cons hgap ',' rfl]
    simp [skipBlank_append_cons hblank c hspace, hclosing]

theorem elements_of_closed (h : nextElement first text = .ok (.closed rest)) :
    item.elements first text = .ok ([], rest) := by
  rw [elements]
  split <;> simp_all

theorem elements_of_more (h : nextElement first text = .ok (.more next))
    (hitem : item.run next = .ok (result, rest)) :
    item.elements first text =
      (item.elements false rest).map fun (values, rest) => (result :: values, rest) := by
  rw [elements]
  split <;> simp_all
  split <;> simp_all

/-- The elements of a list are read one after another, up to its closing bracket. -/
theorem elements_of_begins {values : List Value} {results : List α}
    (h : List.Forall₂ item.Reads values results)
    (htext : Value.BeginsElements first values text rest) :
    item.elements first text = .ok (results, rest) := by
  induction h generalizing first text with
  | nil =>
    obtain ⟨hblank⟩ := htext
    exact elements_of_closed (nextElement_closed (skipBlank_append_cons hblank ']' rfl _))
  | cons hread _ ih =>
    obtain _ | ⟨hseparator, hvalue, hrest⟩ := htext
    obtain ⟨c, tail, rfl, hspace, hclosing⟩ := hvalue.exists_eq_cons
    have hitem := hread [] _ _ blank_nil hvalue
    rw [elements_of_more (nextElement_separates hseparator hspace hclosing) hitem, ih hrest]
    rfl

/-- A list is read if its elements are. -/
theorem Reads.list {values : List Value} {results : List α}
    (h : List.Forall₂ item.Reads values results) : item.list.Reads (.list values) results := by
  intro blank text rest hblank htext
  cases htext with
  | list helements =>
    simp only [Reader.list, skipBlank_append_cons hblank '[' rfl]
    exact elements_of_begins h helements

/-! ### Objects -/

theorem nextMember_closed (h : skipBlank text = '}' :: rest) :
    nextMember first text = .ok (.closed rest) := by
  simp [nextMember, h]

/-- A member that comes first or behind a comma is found. -/
theorem nextMember_separates {separator : List Char} (h : Separates first separator) :
    nextMember first (separator ++ '"' :: text) = .ok (.more text) := by
  cases first with
  | true =>
    rw [nextMember, skipBlank_append_cons h '"' rfl]
    rfl
  | false =>
    obtain ⟨gap, blank, rfl, hgap, hblank⟩ := h
    rw [nextMember, List.append_assoc, List.cons_append, skipBlank_append_cons hgap ',' rfl]
    simp [skipBlank_append_cons hblank '"' rfl]

theorem readKey_of_begins {key : String} (h : BeginsString key.toList text rest) :
    readKey text = .ok (key, rest) := by
  rw [readKey, readString_of_begins h]
  simp [Except.map]

theorem skipColon_append {gap : List Char} (h : Blank gap) (text : List Char) :
    skipColon (gap ++ ':' :: text) = .ok text := by
  rw [skipColon, skipBlank_append_cons h ':' rfl]
  rfl

variable {member : σ → String → Except Fault (Reader (σ → σ))} {state final : σ}

theorem members_of_closed (h : nextMember first text = .ok (.closed rest)) :
    members member first state text = .ok (state, rest) := by
  rw [members]
  split <;> simp_all

theorem members_of_more {key : String} {labelled unread : List Char} {update : σ → σ}
    {reader : Reader (σ → σ)} (h : nextMember first text = .ok (.more next))
    (hkey : readKey next = .ok (key, labelled)) (hmember : member state key = .ok reader)
    (hcolon : skipColon labelled = .ok unread) (hvalue : reader.run unread = .ok (update, rest)) :
    members member first state text = members member false (update state) rest := by
  rw [members]
  split
  · simp_all
  · simp_all
  · next found hfound =>
    obtain rfl : next = found := by simp_all
    split
    · simp_all
    · next foundKey after hafter =>
      obtain ⟨rfl, rfl⟩ : key = foundKey ∧ labelled = after := by simp_all
      simp only [hmember]
      split
      · simp_all
      · next behind hbehind =>
        obtain rfl : unread = behind := by simp_all
        split
        · simp_all
        · simp_all

/-- What is read from members one after another: each is read by the reader for its key, from the
state that those in front of it lead to. -/
inductive MembersRead (member : σ → String → Except Fault (Reader (σ → σ))) :
    σ → List (String × Value) → σ → Prop
  | nil (state : σ) : MembersRead member state [] state
  | cons {state final : σ} {key : String} {value : Value} {rest : List (String × Value)}
      {reader : Reader (σ → σ)} {update : σ → σ} (hmember : member state key = .ok reader)
      (hvalue : reader.Reads value update) (hrest : MembersRead member (update state) rest final) :
      MembersRead member state ((key, value) :: rest) final

/-- The members of an object are read one after another, up to its closing brace. -/
theorem members_of_begins {values : List (String × Value)}
    (h : MembersRead member state values final)
    (htext : Value.BeginsMembers first values text rest) :
    members member first state text = .ok (final, rest) := by
  induction h generalizing first text with
  | nil state =>
    obtain ⟨hblank⟩ := htext
    exact members_of_closed (nextMember_closed (skipBlank_append_cons hblank '}' rfl _))
  | @cons state final key value values reader update hmember hread _ ih =>
    obtain _ | ⟨hseparator, ⟨hkey, hgap, hblank, hvalue⟩, hrest⟩ := htext
    rw [members_of_more (nextMember_separates hseparator) (readKey_of_begins hkey) hmember
      (skipColon_append hgap _) (hread _ _ _ hblank hvalue), ih hrest]

/-- An object of entries is read if its members are, one inserted after another. -/
theorem Reads.keyed {values : List (String × Value)} {entries : KeyedList α}
    (h : MembersRead (fun _ key => .ok (item.map fun entry known => known.insert key entry)) ∅
      values entries) : item.keyed.Reads (.object values) entries := by
  intro blank text rest hblank htext
  cases htext with
  | object hmembers =>
    simp only [Reader.keyed, skipBlank_append_cons hblank '{' rfl]
    exact members_of_begins h hmembers

end Reader

/-- A field of a record that was not read yet, and then the members behind it. -/
theorem Layout.membersRead_cons {layout : Layout σ α} {state final : σ} {key name : String}
    {isSet : σ → Bool} {reader : Reader β} {f : β → σ → σ} {optional : Bool} {value : Value}
    {result : β} {rest : List (String × Value)}
    (hfield : layout.fields.find? (·.name == key) = some ⟨name, isSet, reader.map f, optional⟩)
    (hunset : isSet state = false) (hvalue : reader.Reads value result)
    (hrest : Reader.MembersRead layout.member (f result state) rest final) :
    Reader.MembersRead layout.member state ((key, value) :: rest) final := by
  refine .cons ?_ (hvalue.map f) hrest
  rw [Layout.member, hfield]
  simp [hunset]

/-- A record is read from an object of its fields if they are read and make it up. -/
theorem Layout.reads {layout : Layout σ α} {values : List (String × Value)} {result : α} (final : σ)
    (h : Reader.MembersRead layout.member layout.start values final)
    (hfinish : layout.finish final = .ok result) : layout.reader.Reads (.object values) result := by
  intro blank text rest hblank htext
  cases htext with
  | @object _ text _ hmembers =>
    have hfields : layout.readFields (blank ++ '{' :: text) = .ok (final, rest) := by
      simp only [readFields, skipBlank_append_cons hblank '{' rfl]
      exact Reader.members_of_begins h hmembers
    simp only [Layout.reader, hfields, hfinish, bind, Except.bind, pure, Except.pure]

/-! ### Whole texts -/

namespace Reader.Reads

variable {reader : Reader α} {value : Value} {result : α}

theorem parse (h : reader.Reads value result) {text : String} (htext : value.WrittenAs text) :
    reader.parse text = .ok result := by
  obtain ⟨blank, written, rest, htext, hblank, hwritten, hrest⟩ := htext
  have hend : skipBlank rest = [] := List.dropWhile_eq_nil_iff.2 hrest
  rw [Reader.parse, htext, h blank written rest hblank hwritten]
  simp [bind, Except.bind, hend, pure, Except.pure]

theorem parse_compact (h : reader.Reads value result) :
    reader.parse value.compact = .ok result :=
  h.parse value.writtenAs_compact

theorem parse_indented (h : reader.Reads value result) :
    reader.parse value.indented = .ok result :=
  h.parse value.writtenAs_indented

end Reader.Reads

end Codename.Json
