import ClientRoster.Text.Unprintable
import ClientRoster.Text.Extending

/-!
# `ClientRoster.Text.Quoted` — a text shown in a message

A diagnostic message shows a text between double quotes and in a form that no terminal can garble: the quote and
the backslash are escaped, as are the usual control characters, and whatever leaves no ink of its own is shown by
its code point.
-/

namespace ClientRoster.Text

/-- A code point in hexadecimal between braces. -/
def codePointText (c : Char) : List Char :=
  ['\\', 'u', '{'] ++ Nat.toDigits 16 c.toNat ++ ['}']

/-- One character of a shown text. -/
def shownChar (c : Char) : List Char :=
  if c = '"' ∨ c = '\\' then ['\\', c]
  else if c = '\n' then ['\\', 'n']
  else if c = '\r' then ['\\', 'r']
  else if c = '\t' then ['\\', 't']
  else if c.toNat = 0 then ['\\', '0']
  else if isUnprintable c ∨ isExtending c then codePointText c
  else [c]

/-- A text as a message shows it. -/
def quoted (text : String) : String :=
  String.ofList ('"' :: text.toList.flatMap shownChar ++ ['"'])

end ClientRoster.Text
