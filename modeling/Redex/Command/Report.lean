import Redex.Command.File
import Redex.Command.Flag
import Redex.Json
import Redex.Prelude.Resolution
import Redex.Reduction.Equality
import Redex.Settings.Basic

/-!
# Reports

What a command answers, in the two formats of the output. As text, an answer is a line or several;
as JSON, it stands in an envelope that tells whether the command succeeded and carries the
identifier of the run.

A failure has a message and an exit status. Failures that are met once the format is settled have a
code too, and are reported in an envelope in the JSON format. In the text format a failed command
writes nothing, except that a check for equality still gives its answer.
-/

set_option autoImplicit false

namespace Redex.Command

/-! ## Answers -/

/-- The outcome of reducing one term: the number of contractions, the printed result, and all terms
on the way to it if they were asked for. -/
structure Reduced where
  input : Text
  strategy : Strategy
  steps : Nat
  result : String
  trace : Option (List String)
deriving DecidableEq, Repr

/-- A term of the demonstration, tagged and with names, and what each strategy makes of it. -/
structure Shown where
  input : String
  tagged : String
  named : String
  reducts : List (Strategy × String)
deriving DecidableEq, Repr

/-- What a command answers. -/
inductive Report where
  | reduced (results : List Reduced)
  | equality (left right : Text) (holds : Bool)
  | names (found : List Name)
  | indexed (tagged named : String)
  | drawing (lines : String)
  | demonstration (terms : List Shown)
deriving DecidableEq, Repr

/-- The outcome of one reduction as text. -/
def Reduced.text (reduced : Reduced) : String :=
  match reduced.trace with
  | some terms => String.intercalate "\n→ " terms
  | none => reduced.result

/-- The outcome of one reduction as JSON. -/
def Reduced.json (reduced : Reduced) : String :=
  Json.object ([("input", Json.text reduced.input), ("strategy", Json.string reduced.strategy.name),
    ("steps", Json.number reduced.steps), ("result", Json.string reduced.result)] ++
    match reduced.trace with
    | some terms => [("trace", Json.array (terms.map Json.string))]
    | none => [])

/-- A term of the demonstration as text. -/
def Shown.text (shown : Shown) : String :=
  let head := [shown.input, "  unique: " ++ shown.tagged, "  bare:   " ++ shown.named]
  String.intercalate "\n" (head ++
    shown.reducts.map fun (s, reduct) => "  " ++ s.name ++ ": " ++ reduct)

/-- A term of the demonstration as JSON, its reducts in the order of the names of strategies. -/
def Shown.json (shown : Shown) : String :=
  let sorted := shown.reducts.mergeSort fun a b => a.1.name ≤ b.1.name
  Json.object [("input", Json.string shown.input), ("unique", Json.string shown.tagged),
    ("bare", Json.string shown.named),
    ("reducts", Json.object (sorted.map fun (s, reduct) => (s.name, Json.string reduct)))]

/-- A drawing without the end of its last line. -/
def dropLineEnd (lines : String) : String :=
  match lines.toList.reverse with
  | '\n' :: rest => String.ofList rest.reverse
  | _ => lines

/-- An answer as text. -/
def Report.text : Report → String
  | reduced results => String.intercalate "\n" (results.map Reduced.text)
  | equality _ _ holds => Json.bool holds
  | names found => String.intercalate " " found
  | indexed tagged named => "unique: " ++ tagged ++ "\nbare:   " ++ named
  | drawing lines => dropLineEnd lines
  | demonstration terms => String.intercalate "\n\n" (terms.map Shown.text)

/-- An answer as JSON. -/
def Report.json : Report → String
  | reduced results => Json.array (results.map Reduced.json)
  | equality left right holds =>
    Json.object [("left", Json.text left), ("right", Json.text right), ("equal", Json.bool holds)]
  | names found => Json.array (found.map Json.string)
  | indexed tagged named =>
    Json.object [("unique", Json.string tagged), ("bare", Json.string named)]
  | drawing lines => Json.string lines
  | demonstration terms => Json.array (terms.map Shown.json)

/-! ## Failures -/

/-- The causes for which there are no terms to reduce. -/
inductive NoInput where
  | noFile (failure : NoFile)
  | lineTooLong
  | noTerms
deriving DecidableEq, Repr

/-- The wording of the failure to read terms. -/
def NoInput.message : NoInput → Text
  | noFile failure => failure.message
  | lineTooLong => Text.ofString "bufio.Scanner: token too long"
  | noTerms => Text.ofString "no terms given"

/-- The causes for which a term cannot be shown: it has no names, or no named canonical form. -/
inductive NoNames where
  | exhausted (cause : NamesExhausted)
  | noCanonicalForm (cause : NoCanonicalForm)
deriving DecidableEq, Repr

/-- The wording of the failure to show a term. -/
def NoNames.message : NoNames → String
  | exhausted cause => cause.message
  | noCanonicalForm cause => cause.message

/-- The causes for which a command fails. -/
inductive Failure where
  | unknownSettings (failure : NoFile)
  | noSettings (failure : NoFile)
  | undecoded (file cause : Text)
  | settings (file : Text) (fault : Settings.Fault)
  | format (value : Text)
  | noPrelude (failure : NoFile)
  | document (cause : Text)
  | prelude (error : PreludeError)
  | strategy (unknown : Strategy.Unknown)
  | input (cause : NoInput)
  | unreadable (source : Text) (error : SyntaxError)
  | unprintable (source : Text) (cause : NoNames)
  | unequal

namespace Failure

/-- The wording of a failure. -/
def message : Failure → Text
  | unknownSettings failure => Text.ofString "loading config: " ++ failure.message
  | noSettings failure =>
    Text.ofString "loading config: failed to read config file: " ++ failure.message
  | undecoded file cause =>
    Text.ofString "loading config: " ++ file ++ Text.ofString (": " ++ Settings.decoding) ++ cause
  | settings file fault =>
    Text.ofString "loading config: " ++ file ++
      Text.ofString (": " ++ Settings.checking ++ fault.message)
  | format value =>
    Text.ofString ("invalid format " ++ Text.quote value ++ ": must be one of [" ++
      String.intercalate " " Settings.formats ++ "]")
  | noPrelude failure => Text.ofString "loading prelude: reading prelude: " ++ failure.message
  | document cause => Text.ofString "loading prelude: " ++ cause
  | prelude error => Text.ofString ("loading prelude: " ++ error.message)
  | strategy unknown => Text.ofString ("invalid strategy: " ++ unknown.message)
  | input cause => Text.ofString "reading input: " ++ cause.message
  | unreadable source error =>
    Text.ofString ("parsing " ++ Text.quote source ++ ": " ++ error.message)
  | unprintable source cause =>
    Text.ofString ("printing " ++ Text.quote source ++ ": " ++ cause.message)
  | unequal => Text.ofString "terms are not equal"

/-- The exit status: one for a negative answer, two for everything that went wrong. -/
def exit : Failure → Nat
  | unequal => 1
  | _ => 2

/-- The code of a failure that is met once the format is settled. -/
def code? : Failure → Option String
  | unknownSettings _ | noSettings _ | undecoded _ _ | settings _ _ | format _ => none
  | unreadable _ _ => some "E001"
  | strategy _ => some "E002"
  | noPrelude _ | document _ | prelude _ => some "E003"
  | unprintable _ _ => some "E004"
  | input _ => some "E005"
  | unequal => some "E006"

/-- What a failed command still answers as text. -/
def text : Failure → String
  | unequal => Json.bool false ++ "\n"
  | _ => ""

end Failure

/-! ## Output -/

/-- The formats of the output. -/
inductive Format where
  | text
  | json
deriving DecidableEq, Repr

/-- The format named by a text. -/
def Format.ofText? (text : Text) : Option Format :=
  if text.isString "text" then some .text else if text.isString "json" then some .json else none

/-- An envelope around an answer or an error. -/
def envelope (run status key content : String) : String :=
  Json.object [("status", Json.string status), (key, content), ("trace_id", Json.string run)] ++
    "\n"

/-- What a command writes when it succeeds. -/
def Report.output (report : Report) (run : String) : Format → String
  | .text => report.text ++ "\n"
  | .json => envelope run "ok" "data" report.json

/-- What a command writes when it fails. -/
def Failure.output (failure : Failure) (run : String) : Format → String
  | .text => failure.text
  | .json =>
    match failure.code? with
    | some code =>
      envelope run "error" "error"
        (Json.object [("code", Json.string code), ("message", Json.text failure.message)])
    | none => ""

end Redex.Command
