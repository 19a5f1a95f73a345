import Codename.Text.Unprintable

/-!
# Quoted text for messages

Messages show a string between double quotes, with the characters that a reader could not see or
could mistake written as escapes.

## Main definitions

* `escapeForDisplay` — how one character is shown.
* `quote` — how a string is shown.
-/

namespace Codename.Text

/-- The digits of a number in base sixteen, lower case and without leading zeros. -/
def hexDigits (n : Nat) : List Char :=
  Nat.toDigits 16 n

/-- A character as messages show it. Quotes, backslashes and a few controls have short escapes;
other characters without a printed form of their own are shown by their code point. -/
def escapeForDisplay (c : Char) : List Char :=
  match c with
  | '"' => ['\\', '"']
  | '\\' => ['\\', '\\']
  | '\x00' => ['\\', '0']
  | '\t' => ['\\', 't']
  | '\r' => ['\\', 'r']
  | '\n' => ['\\', 'n']
  | c =>
    if isUnprintable c || isCombining c then
      ['\\', 'u', '{'] ++ hexDigits c.toNat ++ ['}']
    else [c]

/-- A string between double quotes, as messages show it. -/
def quote (text : String) : String :=
  String.ofList (['"'] ++ text.toList.flatMap escapeForDisplay ++ ['"'])

example : quote "a\"b\x7f" = "\"a\\\"b\\u\x7b7f\x7d\"" := by decide +kernel

end Codename.Text
