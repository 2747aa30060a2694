import Redex.Syntax.Token

/-!
# Reading terms

The grammar of terms, over tokens:

* a term is one or more operands, or any number of operands and a binder behind them;
* an operand is a name, a sort, or a term in parentheses;
* a binder is `λ` with one or more names, a dot and a term, or `π` with a name, a colon, a term, a
  dot and a term.

Operands are applied from left to right, a binder is the last operand, and `λ` with several names
abstracts over them one after the other. A binder takes everything to its right as its body, so it
ends the term it stands in.

Every step of the reader gives back the tokens it did not use, with a proof that they are no more
than it was given, which is why reading ends. An error is at the first token that no term can go on
with, or at the end of the text.
-/

set_option autoImplicit false

namespace Redex.Parser

/-- A value read from the front of `tokens`, and the tokens after it. -/
abbrev Read (α : Type) (tokens : List Token) : Type :=
  Except SyntaxError { result : α × List Token // result.2.length ≤ tokens.length }

/-- The error of not finding what was expected. The place of the end of the text is `finish`. -/
def mismatch (finish : Position) (expected : Expected) (found : Option Token) : SyntaxError :=
  match found with
  | some token => ⟨token.pos, .mismatch expected (some token)⟩
  | none => ⟨finish, .mismatch expected none⟩

/-- Read a token of the given kind. -/
def expect (finish : Position) (kind : Token.Kind) (expected : Expected) :
    (tokens : List Token) → Read Token tokens
  | token :: rest =>
    if token.kind = kind then .ok ⟨(token, rest), by simp⟩
    else .error (mismatch finish expected (some token))
  | [] => .error (mismatch finish expected none)

/-- Read the names of an abstraction and the dot behind them. -/
def names (finish : Position) (tokens : List Token) : Read (List Name) tokens := do
  let ⟨(first, rest), used⟩ ← expect finish .name .name tokens
  let others := rest.takeWhile (·.kind = .name)
  let ⟨(_, rest'), used'⟩ ← expect finish .dot .dot (rest.dropWhile (·.kind = .name))
  return ⟨(first.text :: others.map (·.text), rest'), by
    have shorter := (List.dropWhile_sublist (l := rest) (·.kind = .name)).length_le
    simp only at used used' ⊢
    omega⟩

/-- Read the name of a product and the colon behind it. -/
def annotated (finish : Position) (tokens : List Token) : Read Name tokens := do
  let ⟨(name, rest), used⟩ ← expect finish .name .name tokens
  let ⟨(_, rest'), used'⟩ ← expect finish .colon .colon rest
  return ⟨(name.text, rest'), by simp only at used used' ⊢; omega⟩

/-- An operand, applied to by what stands before it. -/
def applied (before : Option (Term Name)) (operand : Term Name) : Term Name :=
  match before with
  | some fn => .app fn operand
  | none => operand

mutual

/-- Read a term of which the operands `before` have been read. The next token decides how it goes
on: with a binder, with one more operand, or not at all. -/
def term (finish : Position) (before : Option (Term Name)) :
    (tokens : List Token) → Read (Term Name) tokens
  | [] =>
    match before with
    | some t => .ok ⟨(t, []), by simp⟩
    | none => .error (mismatch finish .term none)
  | token :: rest =>
    match token.kind with
    | .lambda => do
      let ⟨(bound, rest'), used⟩ ← names finish rest
      let ⟨(body, rest''), used'⟩ ← term finish none rest'
      return ⟨(applied before (.absAll bound body), rest''), by simp_all; omega⟩
    | .pi => do
      let ⟨(bound, rest'), used⟩ ← annotated finish rest
      let ⟨(dom, rest''), used'⟩ ← term finish none rest'
      let ⟨(_, rest'''), used''⟩ ← expect finish .dot .dot rest''
      let ⟨(cod, rest''''), used'''⟩ ← term finish none rest'''
      return ⟨(applied before (.pi bound dom cod), rest''''), by simp_all; omega⟩
    | .name | .star | .box | .opening => do
      let ⟨(arg, rest'), used⟩ ← operand finish token rest
      let ⟨result, used'⟩ ← term finish (some (applied before arg)) rest'
      return ⟨result, by simp_all; omega⟩
    | .dot | .colon | .closing =>
      match before with
      | some t => .ok ⟨(t, token :: rest), by simp⟩
      | none => .error (mismatch finish .term (some token))
termination_by tokens => 2 * tokens.length
decreasing_by all_goals (simp_all; try omega)

/-- Read an operand, of which the first token has been taken. -/
def operand (finish : Position) (token : Token) (rest : List Token) : Read (Term Name) rest :=
  match token.kind with
  | .opening => do
    let ⟨(inner, rest'), used⟩ ← term finish none rest
    let ⟨(_, rest''), used'⟩ ← expect finish .closing .closing rest'
    return ⟨(inner, rest''), by simp_all; omega⟩
  | .name => .ok ⟨(.var token.text, rest), Nat.le_refl _⟩
  | .star => .ok ⟨(.sort .star, rest), Nat.le_refl _⟩
  | .box => .ok ⟨(.sort .box, rest), Nat.le_refl _⟩
  | .lambda | .pi | .dot | .colon | .closing => .error ⟨token.pos, .misplaced token⟩
termination_by 2 * rest.length + 1
decreasing_by all_goals (simp_all; try omega)

end

/-- Read a whole sequence of tokens as one term. -/
def whole (tokens : Tokens) : Except SyntaxError (Term Name) := do
  let ⟨(t, rest), _⟩ ← term tokens.finish none tokens.tokens
  match rest with
  | [] => return t
  | token :: _ => throw (mismatch tokens.finish .finish (some token))

end Redex.Parser

namespace Redex

/-- Read a text as a term. -/
def Term.parse (text : Text) : Except SyntaxError (Term Name) := do
  let tokens ← scan text
  Parser.whole tokens

end Redex
