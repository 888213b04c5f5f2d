import WireBindings.Text.Quoted
import WireBindings.Text.Visible

/-!
# Text in reports

A report of the command line shows a text between quotation marks in such a way that every character
of it can be told: what is not visible is written as its code point.
-/

namespace WireBindings.Text

/-- The lower-case hexadecimal digits of a number, without leading zeros. -/
def hexDigits (n : Nat) : List Char :=
  if n < 16 then [hexDigit n] else hexDigits (n / 16) ++ [hexDigit (n % 16)]

/-- What stands for one character in a report. -/
def revealed (c : Char) : List Char :=
  if c = '"' then ['\\', '"']
  else if c = '\\' then ['\\', '\\']
  else if c = '\n' then ['\\', 'n']
  else if c = '\r' then ['\\', 'r']
  else if c = '\t' then ['\\', 't']
  else if c = '\u0000' then ['\\', '0']
  else if isVisible c then [c]
  else ['\\', 'u', '\u007b'] ++ hexDigits c.toNat ++ ['\u007d']

/-- The text as a report shows it, quotation marks included. -/
def literal (text : String) : String :=
  String.ofList ('"' :: text.toList.flatMap revealed ++ ['"'])

end WireBindings.Text
