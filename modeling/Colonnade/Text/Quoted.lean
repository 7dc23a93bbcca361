/-
Text in double quotes. A quote and a backslash inside are written after a
backslash, as are tab, carriage return, line feed and NUL under their
letters; every other character that could not be seen is written as its
number in braces. All else stands for itself.

Chain: values of type string, and names in detailed listings, are written
this way.
-/
import Colonnade.Text.Unseen
import Colonnade.Text.Hex

namespace Colonnade.Text

/-- The lower-case hexadecimal digits of a number, without leading zeros. -/
def hexNumber (n : Nat) : List Char := Nat.toDigits 16 n

/-- How a character is written inside quotes. -/
def quoteChar (c : Char) : List Char :=
  if c == '"' then ['\\', '"']
  else if c == '\\' then ['\\', '\\']
  else if c == '\t' then ['\\', 't']
  else if c == '\r' then ['\\', 'r']
  else if c == '\n' then ['\\', 'n']
  else if c == '\x00' then ['\\', '0']
  else if c.toNat < 32 || c.toNat == 127 || (127 < c.toNat && isUnseen c) then
    ['\\', 'u', '\x7b'] ++ hexNumber c.toNat ++ ['\x7d']
  else [c]

/-- A text in quotes. -/
def quoted (s : String) : String :=
  String.ofList (['"'] ++ s.toList.flatMap quoteChar ++ ['"'])

example : quoted "a\"b\\c\n" = "\"a\\\"b\\\\c\\n\"" := by decide +kernel
example : quoted "\x7f" = "\"\\u\x7b7f\x7d\"" := by decide +kernel

end Colonnade.Text
