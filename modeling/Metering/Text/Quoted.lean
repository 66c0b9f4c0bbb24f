import Metering.Text.DefaultIgnorable
import Metering.Text.ExtendingMark
import Metering.Text.Printable

/-!
# Quoted text

A text in quotes on one line, in which every character can be told from every other by its looks:
quotes and backslashes are escaped, and so is whatever is not printable, shows nothing or would join
the character before it.
-/

namespace Metering.Text

/-- The letter that stands behind a backslash for a character, if it has one. -/
def letter? : Char → Option Char
  | '"' => some '"'
  | '\\' => some '\\'
  | '\n' => some 'n'
  | '\r' => some 'r'
  | '\t' => some 't'
  | '\x00' => some '0'
  | _ => none

/-- Whether a character may stand for itself. -/
def isPlain (c : Char) : Bool :=
  !CodePoints.unprintable.contains c.toNat && !CodePoints.defaultIgnorable.contains c.toNat &&
    !CodePoints.extendingMarks.contains c.toNat

/-- How a character stands between quotes: by its letter, as itself, or by its number in the fewest
hexadecimal digits. -/
def escape (c : Char) : String :=
  match letter? c with
  | some letter => String.ofList ['\\', letter]
  | none =>
    if isPlain c then String.singleton c
    else "\\u\x7b" ++ String.ofList (Nat.toDigits 16 c.toNat) ++ "\x7d"

/-- A text between quotes. -/
def quoted (text : String) : String := "\"" ++ String.join (text.toList.map escape) ++ "\""

end Metering.Text
