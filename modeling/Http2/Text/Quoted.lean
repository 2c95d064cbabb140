import Http2.Text.Printable

/-!
# Quoted text and described records

`quoted` shows a text between double quotes, so that every character can be told apart: quotes,
backslashes, line ends, tabs and NUL have a backslash form of their own, and other characters that
are not printable show their code point in hexadecimal. `describe` shows a value by its name and
fields.
-/

namespace Http2.Text

/-- The code point of a character in lowercase hexadecimal, between braces. -/
def codePointForm (c : Char) : String :=
  "\\u\x7b" ++ String.ofList (Nat.toDigits 16 c.toNat) ++ "\x7d"

/-- How one character is shown between double quotes. -/
def quotedChar (c : Char) : String :=
  if c = '"' then "\\\""
  else if c = '\\' then "\\\\"
  else if c = '\n' then "\\n"
  else if c = '\r' then "\\r"
  else if c = '\t' then "\\t"
  else if c.toNat = 0 then "\\0"
  else if isPrintable c then c.toString
  else codePointForm c

/-- A text between double quotes. -/
def quoted (text : String) : String :=
  "\"" ++ String.join (text.toList.map quotedChar) ++ "\""

/-- Elements between square brackets. -/
def listing (elements : List String) : String :=
  "[" ++ ", ".intercalate elements ++ "]"

/-- A value shown by its name and its fields. -/
def describe (name : String) (fields : List (String × String)) : String :=
  name ++ " \x7b " ++ ", ".intercalate (fields.map fun field => field.1 ++ ": " ++ field.2) ++ " \x7d"

/-- A truth value shown as a word. -/
def word (b : Bool) : String :=
  if b then "true" else "false"

/-- A value that may be missing. -/
def optional : Option String → String
  | none => "None"
  | some text => "Some(" ++ text ++ ")"

end Http2.Text
