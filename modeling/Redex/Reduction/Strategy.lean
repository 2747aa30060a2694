import Redex.Text.Glyph
import Redex.Text.Quoted

/-!
# Reduction strategies

The seven strategies share one rule, the contraction of an abstraction applied to an argument, and
differ in the places they look for it. What a strategy does at an application is told by four
questions:

| | function part first by | argument before contraction | below binders | both parts again |
|---|---|---|---|---|
| call-by-name | itself | no | no | no |
| normal order | call-by-name | no | yes | yes |
| call-by-value | itself | yes | no | no |
| applicative order | itself | yes | yes | no |
| hybrid applicative order | call-by-value | yes | yes | yes |
| head spine reduction | itself | no | yes | no |
| hybrid normal order | head spine reduction | no | yes | yes |

The last question is settled by the first: a strategy that hands the function part to a weaker one
goes over both parts by itself once the application turns out to be no redex.
-/

set_option autoImplicit false

namespace Redex

/-- The reduction strategies. -/
inductive Strategy where
  | callByName
  | normalOrder
  | callByValue
  | applicativeOrder
  | hybridApplicative
  | headSpine
  | hybridNormal
deriving DecidableEq, Repr

namespace Strategy

/-! ## What a strategy looks at -/

/-- The strategy for the function part of an application. -/
def forFunction : Strategy → Strategy
  | callByName => callByName
  | normalOrder => callByName
  | callByValue => callByValue
  | applicativeOrder => applicativeOrder
  | hybridApplicative => callByValue
  | headSpine => headSpine
  | hybridNormal => headSpine

/-- Whether an argument is reduced before it is passed. -/
def isEager : Strategy → Bool
  | callByValue | applicativeOrder | hybridApplicative => true
  | callByName | normalOrder | headSpine | hybridNormal => false

/-- Whether the scopes of binders and the domains of products are reduced. -/
def isStrong : Strategy → Bool
  | normalOrder | applicativeOrder | hybridApplicative | headSpine | hybridNormal => true
  | callByName | callByValue => false

/-- Whether the function part is handed to a weaker strategy first. -/
def isHybrid (s : Strategy) : Bool := decide (s.forFunction ≠ s)

/-! ## Names and numbers -/

/-- The strategies in the order of their numbers. -/
def all : List Strategy :=
  [callByName, normalOrder, callByValue, applicativeOrder, hybridApplicative, headSpine,
    hybridNormal]

/-- The abbreviation a strategy is known by. -/
def name : Strategy → String
  | callByName => "CBN"
  | normalOrder => "NOR"
  | callByValue => "CBV"
  | applicativeOrder => "APP"
  | hybridApplicative => "HAP"
  | headSpine => "HSR"
  | hybridNormal => "HNO"

/-- A strategy in words. -/
def description : Strategy → String
  | callByName => "call-by-name"
  | normalOrder => "normal order"
  | callByValue => "call-by-value"
  | applicativeOrder => "applicative order"
  | hybridApplicative => "hybrid applicative order"
  | headSpine => "head spine reduction"
  | hybridNormal => "hybrid normal order"

/-- The number of a strategy, from zero. -/
def number (s : Strategy) : Nat := all.idxOf s

/-- The strategy of a number. -/
def ofNumber? (number : Int) : Option Strategy :=
  if number < 0 then none else all[number.toNat]?

/-- How a number that may name no strategy is printed. -/
def printNumber (number : Int) : String :=
  match ofNumber? number with
  | some s => s.name
  | none => "Strategy(" ++ toString number ++ ")"

/-- The words for a number that may name no strategy. -/
def describeNumber (number : Int) : String :=
  match ofNumber? number with
  | some s => s.description
  | none => printNumber number

/-- A text that names no strategy. -/
structure Unknown where
  text : Text
deriving DecidableEq, Repr

/-- The wording of the failure to name a strategy. -/
def Unknown.message (failure : Unknown) : String :=
  "unknown strategy " ++ Text.quote failure.text ++ " (want one of " ++
    String.intercalate ", " (all.map name) ++ ")"

/-- The capital letter of a character, as far as capital ASCII letters go: beside the ASCII letters
the dotless i and the long s have one. -/
def capital (c : Char) : Char :=
  if c = 'ı' then 'I' else if c = 'ſ' then 'S' else c.toUpper

/-- The strategy named by a text, in letters of any case and with blanks around it. -/
def parse (text : Text) : Except Unknown Strategy :=
  match all.find? fun s => text.trim.map (·.mapChar capital) = Text.ofString s.name with
  | some s => .ok s
  | none => .error ⟨text⟩

end Strategy

end Redex
