import Redex.Markup.Moment
import Redex.Markup.Scalar
import Redex.Numeral

/-!
# What scalars stand for

A plain scalar has the kind its text tells: null, a truth value, a number, a moment, or a string if
it is nothing else. The two signs `<<` are of a kind of their own, since as a key they merge another
mapping into this one. A quoted scalar is always a string.
-/

set_option autoImplicit false

namespace Redex.Markup

/-- What a scalar stands for. An integer is one of 64 bits, with or without a sign. Of any other
number only the integer part is kept, if it has one. -/
inductive Value where
  | null
  | bool (value : Bool)
  | int (value : Int)
  | float (part : Option Int)
  | moment
  | merge
  | str (value : String)
deriving DecidableEq, Repr

namespace Value

/-- The tag of a value. -/
def tag : Value → String
  | null => "!!null"
  | bool _ => "!!bool"
  | int _ => "!!int"
  | float _ => "!!float"
  | moment => "!!timestamp"
  | merge => "!!merge"
  | str _ => "!!str"

/-- The words with a meaning of their own. Minus infinity counts as the least number. -/
def words : List (List String × Value) := [
  (["", "~", "null", "Null", "NULL"], null),
  (["true", "True", "TRUE"], bool true),
  (["false", "False", "FALSE"], bool false),
  ([".nan", ".NaN", ".NAN"], float none),
  ([".inf", ".Inf", ".INF", "+.inf", "+.Inf", "+.INF"], float none),
  (["-.inf", "-.Inf", "-.INF"], float (some (-Numeral.signedBound))),
  (["<<"], merge)]

/-- The integer a text stands for. The sign may also stand behind the mark of base two or eight. -/
def integer? (text : List Char) : Option Int :=
  match Numeral.signed text, Numeral.unsigned text with
  | .ok value, _ => some value
  | .error _, .ok value => some value
  | .error _, .error _ =>
    match text with
    | '0' :: 'b' :: digits => (Numeral.signedInBase 2 digits).toOption
    | '-' :: '0' :: 'b' :: digits => (Numeral.signedInBase 2 ('-' :: digits)).toOption
    | '0' :: 'o' :: digits => (Numeral.signedInBase 8 digits).toOption
    | '-' :: '0' :: 'o' :: digits => (Numeral.signedInBase 8 ('-' :: digits)).toOption
    | _ => none

/-- The fraction a text stands for, if it is in range. -/
def fraction? (text : List Char) : Option Value :=
  ((Fraction.parse? text).bind Fraction.integerPart?).map fun part => float (some part)

/-- The value of a text that starts with a digit or a sign. Underscores are left out of a number. -/
def number? (text : List Char) : Option Value :=
  let digits := text.filter (· != '_')
  if isMoment text then some moment
  else
    match integer? digits with
    | some value => some (int value)
    | none => fraction? digits

/-- The value of a plain scalar. -/
def ofPlain (text : String) : Value :=
  match words.find? (·.1.contains text), text.toList with
  | some (_, value), _ => value
  | none, [] => null
  | none, c :: rest =>
    let found :=
      if c = '.' then
        if Fraction.separated false (c :: rest) then fraction? ((c :: rest).filter (· != '_'))
        else none
      else if c.isDigit || c = '+' || c = '-' then number? (c :: rest)
      else none
    found.getD (str text)

end Value

/-- What a scalar stands for. -/
def Scalar.value (scalar : Scalar) : Value :=
  if scalar.quoted then .str scalar.text else Value.ofPlain scalar.text

end Redex.Markup
