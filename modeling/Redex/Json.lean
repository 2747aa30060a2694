import Redex.Text.Quoted

/-!
# JSON output

JSON values are written without blanks. In strings the quote, the backslash and the controls are
escaped, and so are the characters that have a meaning in HTML and the two line separators, so that
the output can be put into a web page as it is. Values are built as written text: an array or an
object takes its parts already written.
-/

set_option autoImplicit false

namespace Redex.Json

/-- A character inside a string. -/
def escape (c : Char) : String :=
  match c with
  | '"' => "\\\""
  | '\\' => "\\\\"
  | '\n' => "\\n"
  | '\r' => "\\r"
  | '\t' => "\\t"
  | '\x08' => "\\b"
  | '\x0c' => "\\f"
  | c =>
    if c.toNat < 0x20 || c = '<' || c = '>' || c = '&' || c.toNat = 0x2028 || c.toNat = 0x2029 then
      "\\u" ++ Text.hexadecimal 4 c.toNat
    else String.singleton c

/-- A string. -/
def string (value : String) : String :=
  "\"" ++ String.join (value.toList.map escape) ++ "\""

/-- A text as a string, each stray byte as the replacement character. -/
def text (value : Text) : String := string value.shown

/-- A number. -/
def number (value : Int) : String := toString value

/-- A truth value. -/
def bool (value : Bool) : String := if value then "true" else "false"

/-- An array of written values. -/
def array (items : List String) : String := "[" ++ String.intercalate "," items ++ "]"

/-- An object of written values, in the given order. -/
def object (fields : List (String × String)) : String :=
  "\x7b" ++ String.intercalate "," (fields.map fun (key, value) => string key ++ ":" ++ value) ++
    "\x7d"

end Redex.Json
