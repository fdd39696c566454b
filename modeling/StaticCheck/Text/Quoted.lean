import StaticCheck.Text.DefaultIgnorable
import StaticCheck.Text.ExtendingMark
import StaticCheck.Text.Unprintable

/-!
# Quoted texts

Names are quoted in messages and records: the text stands between double quotes,
and each character that would be lost or misread there is replaced by an escape
that starts with a backslash. A quote and a backslash are escaped by themselves,
the four common controls by a letter or a digit, and every other character that
a reader would not see as one of its own by its code point in lower-case
hexadecimal digits. These are the characters without a printed form, those that
are ignored in display, and the marks that join the character before them.
-/

namespace StaticCheck.Text

/-- Whether a reader would miss `c` in a text, or see it joined to another character. -/
def isHidden (c : Char) : Bool :=
  isExtendingMark c || isDefaultIgnorable c || isUnprintable c

/-- The escape of `c` by its code point. -/
def codePointEscape (c : Char) : List Char :=
  ['\\', 'u', '\x7b'] ++ Nat.toDigits 16 c.toNat ++ ['\x7d']

/-- How `c` is written between the quotes. -/
def escape (c : Char) : List Char :=
  if c = '"' then ['\\', '"']
  else if c = '\\' then ['\\', '\\']
  else if c = '\n' then ['\\', 'n']
  else if c = '\r' then ['\\', 'r']
  else if c = '\t' then ['\\', 't']
  else if c = '\x00' then ['\\', '0']
  else if isHidden c then codePointEscape c
  else [c]

/-- The text `s` between double quotes, with escapes. -/
def quoted (s : String) : String :=
  String.ofList ('"' :: (s.toList.flatMap escape ++ ['"']))

@[simp]
theorem toList_quoted (s : String) :
    (quoted s).toList = '"' :: (s.toList.flatMap escape ++ ['"']) :=
  String.toList_ofList

end StaticCheck.Text
