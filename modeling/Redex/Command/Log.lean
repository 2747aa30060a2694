import Redex.Settings.Basic
import Redex.Term.Printer

/-!
# The log

A verbose command tells what it does in lines of `key=value` pairs: the settings it works with, and
each reduction. A value is quoted if the line could be misread otherwise.
-/

set_option autoImplicit false

namespace Redex.Command

/-- What is worth telling. -/
inductive Event where
  | configured (settings : Settings)
  | reduced (strategy : Strategy) (steps limit : Nat)
  | step (strategy : Strategy) (number : Nat) (term : Term Tagged)
deriving DecidableEq, Repr

namespace Event

/-- Whether a glyph makes a value misleading: a blank or a control, the equals sign, the quote, or
anything that cannot be printed. -/
def misleads : Glyph → Bool
  | .stray _ => true
  | .char c =>
    if c.toNat < 0x80 then c.toNat < 0x20 || c = ' ' || c = '=' || c = '"'
    else c = '�' || Text.isBlank c || !Text.isPrintable c

/-- A value as the log shows it. -/
def value (text : Text) : Text :=
  if text.isEmpty || text.any misleads then Text.ofString (Text.quote text) else text

/-- The kind of an event. -/
def kind : Event → String
  | configured _ => "configured"
  | reduced .. => "reduced"
  | step .. => "step"

/-- What belongs to an event, by key. -/
def details : Event → List (String × Text)
  | configured settings =>
    [("strategy", settings.strategy), ("limit", Text.ofString (toString settings.limit)),
      ("format", settings.format), ("prelude", settings.prelude)]
  | reduced strategy steps limit =>
    [("strategy", Text.ofString strategy.name), ("steps", Text.ofString (toString steps)),
      ("limit", Text.ofString (toString limit))]
  | step strategy number term =>
    [("strategy", Text.ofString strategy.name), ("step", Text.ofString (toString number)),
      ("term", Text.ofString term.print)]

/-- The line of an event. -/
def line (event : Event) : Text :=
  let pair := fun (key : String) (text : Text) => Text.ofString (key ++ "=") ++ value text
  Text.join [.char ' '] (pair "level" (Text.ofString "DEBUG") ::
    pair "msg" (Text.ofString event.kind) ::
    event.details.map fun (key, text) => pair key text) ++ [.char '\n']

/-- The events of a trace: each contraction is a reduction with limit one, and so is the attempt
that finds none, unless the limit is spent. -/
def ofTrace (s : Strategy) (limit : Nat) (terms : List (Term Tagged)) : List Event :=
  let steps := (terms.drop 1).zipIdx 1
  steps.flatMap (fun (term, number) => [reduced s 1 1, step s number term]) ++
    (if steps.length < limit then [reduced s 0 1] else [])

end Event

end Redex.Command
