import Redex.Command.Log
import Redex.Command.Report
import Redex.Command.Surroundings
import Redex.Prelude.Builtin
import Redex.Tagging
import Redex.Term.Drawing

/-!
# Running a command

A command has its arguments and documents read for it and runs in surroundings. Its settings come
from the file that is asked for, or else from the file `lambda.yaml` if there is one, and are
overridden by flags. Then the prelude is loaded, and the command does its work. `Request.run` gives
all that can be seen from outside: what is written, the exit status, the message of a failure and
the log.

Work is done in full before anything is written, so a command that fails with a late term leaves no
partial output; the log does keep what was done before. All that a command has to say is written at
once (`Outcome.written`), and if that fails, this is the failure that is reported.
-/

set_option autoImplicit false

namespace Redex.Command

/-! ## Settings -/

/-- The file that settings are looked up in. -/
def settingsFile : Text := Text.ofString "lambda.yaml"

/-- The settings of a file. -/
def loadSettings (readers : Readers) (surroundings : Surroundings) (name : Text) :
    Except Failure Settings := do
  let content ← (surroundings.content name).mapError .noSettings
  let settings ← (readers.settings content).mapError (.undecoded name)
  settings.validate.mapError (.settings name)
  return settings

/-- The settings to start from. -/
def foundSettings (readers : Readers) (surroundings : Surroundings) (config : Text) :
    Except Failure Settings :=
  if !config.isEmpty then loadSettings readers surroundings config
  else
    match surroundings.absence? settingsFile with
    | none => loadSettings readers surroundings settingsFile
    | some ⟨_, .missing⟩ => .ok .standard
    | some failure => .error (.unknownSettings failure)

/-- Settings overridden by flags. -/
def Preferences.override (preferences : Preferences) (settings : Settings) : Settings :=
  { settings with
    verbose := preferences.verbose.getD settings.verbose
    format := preferences.format.getD settings.format
    prelude := preferences.prelude.getD settings.prelude }

/-- The settings of a command, and the format they name. -/
def settle (readers : Readers) (surroundings : Surroundings) (preferences : Preferences) :
    Except Failure (Settings × Format) := do
  let settings := preferences.override (← foundSettings readers surroundings preferences.config)
  match Format.ofText? settings.format with
  | some format => return (settings, format)
  | none => throw (.format settings.format)

/-- The prelude of a command. -/
def loadPrelude (readers : Readers) (surroundings : Surroundings) (noPrelude : Bool)
    (file : Text) : Except Failure Prelude :=
  if noPrelude then .ok .empty
  else if file.isEmpty then Prelude.builtin.mapError .prelude
  else do
    let content ← (surroundings.content file).mapError .noPrelude
    let texts ← (readers.definitions file content).mapError .document
    (Prelude.ofTexts texts).mapError .prelude

/-! ## Work -/

/-- Work that may fail, and that keeps its log, the last event first, when it does. -/
abbrev Work := ExceptT Failure (StateM (List Event))

/-- Add events to the log. -/
def tell (events : List Event) : Work Unit := modify (events.reverse ++ ·)

/-- A result as work that has nothing to tell. -/
def attempt {α : Type} (result : Except Failure α) : Work α := ExceptT.mk (pure result)

/-- Read a term. -/
def readTerm (source : Text) : Except Failure (Term Name) :=
  (Term.parse source).mapError (.unreadable source)

/-- Read a term, expand it and tag it. -/
def readTagged (p : Prelude) (source : Text) : Except Failure (Term Tagged) := do
  return (p.expand (← readTerm source)).tag

/-- Give a term names. -/
def named (source : Text) (t : Term Tagged) : Except Failure (Term Name) :=
  t.untag.mapError fun cause => .unprintable source (.exhausted cause)

/-- Print a term with names, or without those of bound variables. -/
def display (source : Text) (nameless : Bool) (t : Term Tagged) : Except Failure String := do
  let t ← named source t
  return if nameless then t.printNameless else t.print

/-- Reduce a term, and tell about it. -/
def runTold (s : Strategy) (limit : Nat) (t : Term Tagged) : Work Reduct := do
  let reduct := run s limit t
  tell [.reduced s reduct.steps limit]
  return reduct

/-! ## Reducing -/

/-- The lines of a text. -/
def textLines (text : Text) : List Text :=
  text.foldr (fun glyph found =>
    match found with
    | line :: rest => if glyph = .char '\n' then [] :: line :: rest else (glyph :: line) :: rest
    | [] => [[glyph]]) [[]]

/-- The size from which on a line is too long to be read. -/
def lineBound : Nat := 65536

/-- The terms of a text, one in a line. Blank lines and lines that start with `#` have none. -/
def termLines (text : Text) : Except NoInput (List Text) :=
  let lines := textLines text
  if lines.any fun line => lineBound ≤ line.size then .error .lineTooLong
  else
    let terms := (lines.map Text.trim).filter fun line =>
      !line.isEmpty && line.head? ≠ some (.char '#')
    if terms.isEmpty then .error .noTerms else .ok terms

/-- The terms to reduce. -/
def inputs (surroundings : Surroundings) : Source → Except NoInput (List Text)
  | .arguments words => .ok [Invocation.joined words]
  | .file name => do termLines (← (surroundings.content name).mapError .noFile)
  | .standardInput => do termLines (← surroundings.input.mapError .noFile)

/-- A limit from a flag, where a negative one stands for the settings. -/
def chooseLimit (settings : Settings) (limit : Int) : Nat :=
  (if 0 ≤ limit then limit else settings.limit).toNat

/-- The strategy of a flag, where an empty one stands for the settings. -/
def chooseStrategy (settings : Settings) (name : Text) : Except Failure Strategy :=
  (Strategy.parse (if name.isEmpty then settings.strategy else name)).mapError .strategy

/-- Reduce one term and print it. -/
def reduceOne (p : Prelude) (options : ReduceOptions) (s : Strategy) (limit : Nat) (source : Text) :
    Work Reduced := do
  let t ← attempt (readTagged p source)
  if options.trace then
    let terms := trace s limit t
    tell (Event.ofTrace s limit terms)
    let shown ← terms.mapM fun term => attempt (display source options.nameless term)
    return ⟨source, s, terms.length - 1, shown.getLast?.getD "", some shown⟩
  else
    let reduct ← runTold s limit t
    let shown ← attempt (display source options.nameless reduct.term)
    return ⟨source, s, reduct.steps, shown, none⟩

/-! ## Comparing -/

/-- What is told about a comparison: the reduction of the first term, and that of the second if the
first has a canonical form. -/
def comparisonEvents (limit : Nat) (a b : Term Tagged) : List Event :=
  let event := fun t =>
    Event.reduced NormalForm.full.strategy (appliedReduct limit (hole a b) t).steps limit
  match canonicalForm limit (hole a b) a with
  | .ok _ => [event a, event b]
  | .error _ => [event a]

/-- Compare two terms. -/
def compare (p : Prelude) (limit : Nat) (left right : Text) : Work Bool := do
  let a ← attempt (readTagged p left)
  let b ← attempt (readTagged p right)
  tell (comparisonEvents limit a b)
  attempt ((equal limit a b).mapError fun cause =>
    .unprintable (left ++ Text.ofString " = " ++ right) (.noCanonicalForm cause))

/-! ## Demonstration -/

/-- The terms that are demonstrated. -/
def demonstrated : List String := [
  "λf.(λx.f (x x)) (λx.f (x x))",
  "λx.x x",
  "(λf.λx.f x) (λf.λx.f x)",
  "(λx.λy.x) y",
  "S K K z",
  "(λx.x x) (λx.x x)"]

/-- Show what every strategy makes of a term. -/
def demonstrate (p : Prelude) (limit : Nat) (source : String) : Work Shown := do
  let text := Text.ofString source
  let t ← attempt (readTagged p text)
  let bare ← attempt (named text t)
  let reducts ← Strategy.all.mapM fun s => do
    let reduct ← runTold s limit t
    let shown ← attempt (display text false reduct.term)
    return (s, shown)
  return ⟨source, t.print, bare.print, reducts⟩

/-! ## Commands -/

/-- Do what a command is asked for. -/
def perform (surroundings : Surroundings) (settings : Settings) (p : Prelude) :
    Action → Work Report
  | .reduce options source => do
    let s ← attempt (chooseStrategy settings options.strategy)
    let limit := chooseLimit settings options.limit
    let terms ← attempt ((inputs surroundings source).mapError .input)
    return .reduced (← terms.mapM (reduceOne p options s limit))
  | .equal limit check left right => do
    let holds ← compare p (chooseLimit settings limit) left right
    if check && !holds then throw .unequal
    return .equality left right holds
  | .free source => do
    let t ← attempt (readTerm source)
    return .names (p.expand t).freeNames
  | .index source => do
    let t ← attempt (readTagged p source)
    let bare ← attempt (named source t)
    return .indexed t.print bare.print
  | .tree expand source => do
    let t ← attempt (readTerm source)
    return .drawing (if expand then p.expand t else t).draw
  | .demo limit => do
    return .demonstration (← demonstrated.mapM (demonstrate p limit.toNat))

/-- All that can be seen of a command from outside. -/
structure Outcome where
  output : String
  exit : Nat
  failure : Option Text
  log : Text
deriving DecidableEq, Repr

/-- The outcome of a failure before the format is settled. -/
def Outcome.early (exit : Nat) (message : Text) : Outcome := ⟨"", exit, some message, []⟩

/-- The outcome of a result in a format, with what is to be logged. -/
def Outcome.ofResult (name : String) (format : Format) (log : Text) :
    Except Failure Report → Outcome
  | .ok report => ⟨report.output name format, 0, none, log⟩
  | .error failure => ⟨failure.output name format, failure.exit, some failure.message, log⟩

/-- What becomes of an outcome when its output is refused. -/
def Outcome.refused (outcome : Outcome) (refusal : Refusal) : Outcome :=
  { outcome with output := refusal.written, exit := 1, failure := some refusal.message }

/-- What becomes of an outcome when it is written, unless there is nothing to write. -/
def Outcome.written (outcome : Outcome) (surroundings : Surroundings) : Outcome :=
  if outcome.output.isEmpty then outcome
  else
    match surroundings.refusal? outcome.output with
    | some refusal => outcome.refused refusal
    | none => outcome

/-- What a request comes to before it is written. The output in JSON carries the name of the run. -/
def Request.outcome (request : Request) (readers : Readers) (surroundings : Surroundings)
    (name : String) : Outcome :=
  match settle readers surroundings request.preferences with
  | .error failure => .early failure.exit failure.message
  | .ok (settings, format) =>
    match loadPrelude readers surroundings request.preferences.noPrelude settings.prelude with
    | .error failure => .ofResult name format [] (.error failure)
    | .ok p =>
      let (result, events) := (perform surroundings settings p request.action).run.run
        [.configured settings]
      let log := if settings.verbose then (events.reverse.map Event.line).flatten else []
      .ofResult name format log result

/-- Run a request. -/
def Request.run (request : Request) (readers : Readers) (surroundings : Surroundings)
    (name : String) : Outcome :=
  (request.outcome readers surroundings name).written surroundings

/-- How the program is used. -/
def usage : String :=
  "Usage:\n  " ++ programName ++ " [command]\n\nCommands:\n" ++
    String.join (Verb.all.map fun verb => "  " ++ verb.word ++ "\n")

/-- Do what a command line asks for. -/
def execute (readers : Readers) (surroundings : Surroundings) (name : String)
    (arguments : List Text) : Outcome :=
  match readers.invocation arguments with
  | .error message => .early 1 message
  | .ok .help => ⟨usage, 0, none, []⟩
  | .ok (.request request) => request.run readers surroundings name

/-- Run a command line with the readers of the library. -/
def runCommandLine (name : String) (provisions : Provisions) (arguments : List Text) : Outcome :=
  execute .standard provisions.surroundings name arguments

/-- The line about a failure on the standard error. -/
def failureLine (message : Text) : Text := Text.ofString (programName ++ ": ") ++ message

end Redex.Command
