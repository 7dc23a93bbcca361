/-
Reports as JSON text: two blanks of indent for each level, a blank after
each colon, and one line for an empty list. In strings the quote, the
backslash and the controls are escaped, by letter where JSON has one and
by number otherwise.

Chain: the reports of this folder have a JSON form that is written here.
-/
import Colonnade.Text.Hex

namespace Colonnade.Report

/-- A JSON document. -/
inductive Json where
  | number (n : Int)
  | truth (b : Bool)
  | text (s : String)
  | list (items : List Json)
  | object (fields : List (String × Json))

namespace Json

/-- How a character is written inside a string. -/
def escapeChar (c : Char) : List Char :=
  if c == '"' then ['\\', '"']
  else if c == '\\' then ['\\', '\\']
  else if c == '\n' then ['\\', 'n']
  else if c == '\r' then ['\\', 'r']
  else if c == '\t' then ['\\', 't']
  else if c == '\x08' then ['\\', 'b']
  else if c == '\x0c' then ['\\', 'f']
  else if c.toNat < 32 then ['\\', 'u'] ++ Text.hexDigits 4 c.toNat
  else [c]

/-- A string with its quotes. -/
def quoted (s : String) : String :=
  String.ofList (['"'] ++ s.toList.flatMap escapeChar ++ ['"'])

/-- A new line at a level. -/
def newLine (level : Nat) : String :=
  String.ofList ('\n' :: List.replicate (2 * level) ' ')

/-- Items between brackets, each on its own line. -/
def bracketed (opening closing : String) (level : Nat)
    (items : List String) : String :=
  if items.isEmpty then opening ++ closing
  else
    opening ++ newLine (level + 1) ++
      String.intercalate ("," ++ newLine (level + 1)) items ++
        newLine level ++ closing

mutual

/-- The text of a document that starts at a level. -/
def render (level : Nat) : Json → String
  | number n => toString n
  | truth b => if b then "true" else "false"
  | text s => quoted s
  | list items => bracketed "[" "]" level (renderItems (level + 1) items)
  | object fields =>
    bracketed "\x7b" "\x7d" level (renderFields (level + 1) fields)

/-- The texts of the items of a list. -/
def renderItems (level : Nat) : List Json → List String
  | [] => []
  | item :: rest => render level item :: renderItems level rest

/-- The texts of the fields of an object. -/
def renderFields (level : Nat) : List (String × Json) → List String
  | [] => []
  | (name, item) :: rest =>
    (quoted name ++ ": " ++ render level item) :: renderFields level rest

end

/-- A number, truth value, text or list that may be missing as a field that
may be missing. -/
def field? (name : String) (item? : Option Json) : List (String × Json) :=
  match item? with
  | some item => [(name, item)]
  | none => []

end Json

end Colonnade.Report
