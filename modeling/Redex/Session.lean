import Redex.Prelude.Resolution
import Redex.Reduction.Equality
import Redex.Syntax.Parser
import Redex.Tagging

/-!
# Sessions

A session keeps tagged terms under names of registers, one generator for all the terms that are read
in it, and the prelude that texts are expanded with. An operation that fails leaves the session as
it was.
-/

set_option autoImplicit false

namespace Redex

/-- Terms by register, the source of tags, and the prelude in use. -/
structure Session where
  registers : List (String × Term Tagged)
  gen : Generator
  prelude : Prelude

namespace Session

/-- The causes for which an operation on a session fails. -/
inductive Error where
  | noRegister (name : String)
  | unreadable (error : SyntaxError)
  | namesExhausted (failure : NamesExhausted)
  | noCanonicalForm (failure : NoCanonicalForm)
  | notAbstraction (failure : Term.NotAbstraction)
  | unknownNumber (failure : UnknownNumber)

/-- The wording of an error. -/
def Error.message : Error → String
  | noRegister name => "no register " ++ name
  | unreadable error => error.message
  | namesExhausted failure => failure.message
  | noCanonicalForm failure => failure.message
  | notAbstraction failure => failure.message
  | unknownNumber failure => failure.message

/-- The session without terms and definitions. -/
def start : Session := ⟨[], .start, .empty⟩

/-- The term in a register. -/
def get (session : Session) (register : String) : Except Error (Term Tagged) :=
  match session.registers.lookup register with
  | some t => .ok t
  | none => .error (.noRegister register)

/-- Put a term into a register. -/
def put (session : Session) (register : String) (t : Term Tagged) : Session :=
  { session with registers := (register, t) :: session.registers.filter (·.1 ≠ register) }

/-- Take the next tag. -/
def nextTag (session : Session) : Tag × Session :=
  let (tag, gen) := session.gen.next
  (tag, { session with gen })

/-- Go on with the tags after those of some registers. -/
def restart (session : Session) (registers : List String) : Except Error Session := do
  let terms ← registers.mapM session.get
  return { session with gen := .above terms }

/-- Tag a term with tags of the session and put it into a register. -/
def putTagged (session : Session) (register : String) (t : Term Name) : Session :=
  let (tagged, gen) := t.tagWith session.gen
  { session with gen }.put register tagged

/-- Read a term, expand it with the prelude and put it into a register. -/
def read (session : Session) (register : String) (source : Text) : Except Error Session := do
  let t ← (Term.parse source).mapError Error.unreadable
  return session.putTagged register (session.prelude.expand t)

/-- Apply the term of one register to those of others. -/
def apply (session : Session) (register : String) (args : List String) (fn : String) :
    Except Error Session := do
  let args ← args.mapM session.get
  let fn ← session.get fn
  return session.put register (fn.applyAll args)

/-- Abstract over an identifier with the given name and tag, or with the next tag. -/
def abstract (session : Session) (register body : String) (name : Name) (tag : Option Tag) :
    Except Error Session := do
  let body ← session.get body
  match tag with
  | some tag => return session.put register (.abs ⟨name, tag⟩ body)
  | none =>
    let (tag, session) := session.nextTag
    return session.put register (.abs ⟨name, tag⟩ body)

/-- Substitute the term of one register into the abstraction in another. -/
def substitute (session : Session) (register abstraction value : String) :
    Except Error Session := do
  let abstraction ← session.get abstraction
  let value ← session.get value
  let t ← (abstraction.substitute value).mapError Error.notAbstraction
  return session.put register t

/-- Reduce the term of a register by the strategy of a number; the number of contractions comes
with the session. -/
def reduce (session : Session) (register source : String) (strategy : Int) (limit : Nat) :
    Except Error (Nat × Session) := do
  let t ← session.get source
  let s ← (Strategy.byNumber strategy).mapError Error.unknownNumber
  let reduct := run s limit t
  return (reduct.steps, session.put register reduct.term)

/-- The term of a register with names. -/
def untag (session : Session) (register : String) : Except Error (Term Name) := do
  let t ← session.get register
  t.untag.mapError Error.namesExhausted

/-- Untag the term of a register and tag it again with tags of the session. -/
def retag (session : Session) (register source : String) : Except Error Session := do
  let t ← session.untag source
  return session.putTagged register t

/-- Whether the terms of two registers have one canonical form. -/
def equal (session : Session) (left right : String) (limit : Nat) : Except Error Bool := do
  let left ← session.get left
  let right ← session.get right
  (Redex.equal limit left right).mapError Error.noCanonicalForm

/-- Whether the terms of two registers are the same tree. -/
def same (session : Session) (left right : String) : Except Error Bool := do
  let left ← session.get left
  let right ← session.get right
  return left.same right

end Session

end Redex
