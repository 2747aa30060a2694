import Redex.Command.Flag
import Redex.Text.SmallLetter

/-!
# Invocations

The command line `untyped` has six commands. An invocation names one of them among its arguments;
flags may stand before and behind the name. Which argument is the name is found out with the flags
that every command has: an unknown flag before the name is taken to have a value.

`Invocation.parse` gives what is asked for, or the fault of the command line.
-/

set_option autoImplicit false

namespace Redex.Command

/-! ## Commands and their flags -/

/-- The commands. -/
inductive Verb where
  | reduce
  | equal
  | free
  | index
  | tree
  | demo
deriving DecidableEq, Repr

namespace Verb

/-- The commands in the order in which they are suggested. -/
def all : List Verb := [reduce, equal, free, index, tree, demo]

/-- The word that names a command. -/
def word : Verb → String
  | reduce => "reduce"
  | equal => "equal"
  | free => "fv"
  | index => "index"
  | tree => "tree"
  | demo => "demo"

end Verb

/-- Log every reduction step. -/
def verboseFlag : Flag := ⟨"verbose", some 'v', .switch⟩

/-- The format of the output. -/
def formatFlag : Flag := ⟨"format", none, .text⟩

/-- The file with the settings. -/
def configFlag : Flag := ⟨"config", none, .text⟩

/-- The file with the prelude. -/
def preludeFlag : Flag := ⟨"prelude", none, .text⟩

/-- Do not expand names. -/
def noPreludeFlag : Flag := ⟨"no-prelude", none, .switch⟩

/-- Explain the command. -/
def helpFlag : Flag := ⟨"help", some 'h', .switch⟩

/-- The strategy to reduce by. -/
def strategyFlag : Flag := ⟨"strategy", some 's', .text⟩

/-- The greatest number of contractions. -/
def limitFlag : Flag := ⟨"limit", some 'n', .number⟩

/-- Print every intermediate term. -/
def traceFlag : Flag := ⟨"trace", none, .switch⟩

/-- Print results without names of bound variables. -/
def namelessFlag : Flag := ⟨"debruijn", none, .switch⟩

/-- The file with the terms. -/
def fileFlag : Flag := ⟨"file", some 'f', .text⟩

/-- Fail if the terms differ. -/
def checkFlag : Flag := ⟨"check", none, .switch⟩

/-- Expand names first. -/
def expandFlag : Flag := ⟨"expand", none, .switch⟩

/-- The flags that every command has. -/
def sharedFlags : List Flag := [verboseFlag, formatFlag, configFlag, preludeFlag, noPreludeFlag]

/-- The flags of a command besides those. -/
def Verb.ownFlags : Verb → List Flag
  | reduce => [strategyFlag, limitFlag, traceFlag, namelessFlag, fileFlag]
  | equal => [limitFlag, checkFlag]
  | tree => [expandFlag]
  | demo => [limitFlag]
  | free | index => []

/-- All flags of a command. -/
def Verb.flags (verb : Verb) : List Flag := verb.ownFlags ++ sharedFlags ++ [helpFlag]

/-! ## Requests -/

/-- What the shared flags say. A flag that is not given leaves the setting alone. -/
structure Preferences where
  verbose : Option Bool
  format : Option Text
  config : Text
  prelude : Option Text
  noPrelude : Bool
deriving DecidableEq, Repr

/-- How to reduce terms. An empty strategy and a negative limit stand for the settings. -/
structure ReduceOptions where
  strategy : Text
  limit : Int
  trace : Bool
  nameless : Bool
deriving DecidableEq, Repr

/-- Where the terms to reduce come from. -/
inductive Source where
  | arguments (words : List Text)
  | file (name : Text)
  | standardInput
deriving DecidableEq, Repr

/-- What a command is to do. -/
inductive Action where
  | reduce (options : ReduceOptions) (source : Source)
  | equal (limit : Int) (check : Bool) (left right : Text)
  | free (text : Text)
  | index (text : Text)
  | tree (expand : Bool) (text : Text)
  | demo (limit : Int)
deriving DecidableEq, Repr

/-- A command with all its flags and arguments. -/
structure Request where
  preferences : Preferences
  action : Action
deriving DecidableEq, Repr

/-- The causes for which a command line asks for nothing. -/
inductive UsageError where
  | flag (error : Flag.Error)
  | unknownCommand (word : Text) (suggestions : List String)
  | count (wanted received : Nat)
  | tooFew (wanted received : Nat)
  | unexpected (verb : Verb) (argument : Text)
deriving DecidableEq, Repr

/-- The name of the program. -/
def programName : String := "untyped"

/-- The wording of an error. -/
def UsageError.message : UsageError → Text
  | flag error => error.message
  | unknownCommand word suggestions =>
    let lines := suggestions.map fun name => "\t" ++ name ++ "\n"
    Text.ofString ("unknown command " ++ Text.quote word ++ " for " ++
      Text.quoteString programName ++
      (if suggestions.isEmpty then "" else "\n\nDid you mean this?\n" ++ String.join lines))
  | count wanted received =>
    Text.ofString ("accepts " ++ toString wanted ++ " arg(s), received " ++ toString received)
  | tooFew wanted received =>
    Text.ofString ("requires at least " ++ toString wanted ++ " arg(s), only received " ++
      toString received)
  | unexpected verb argument =>
    Text.ofString ("unknown command " ++ Text.quote argument ++ " for " ++
      Text.quoteString (programName ++ " " ++ verb.word))

/-! ## Suggestions -/

/-- The next row of the table of distances: `above` is the row before it, and `left` the entry
before its first. -/
def distanceRow (byte : UInt8) (left : Nat) : List Nat → List UInt8 → List Nat
  | diagonal :: above :: row, other :: others =>
    let here := if byte = other then diagonal else min diagonal (min above left) + 1
    here :: distanceRow byte here (above :: row) others
  | _, _ => []

/-- The least number of insertions, deletions and replacements that make one sequence the other. -/
def editDistance (typed meant : List UInt8) : Nat :=
  let first := List.range (meant.length + 1)
  let last := typed.foldl (fun row byte =>
    let left := (row.head?.getD 0) + 1
    left :: distanceRow byte left row meant) first
  last.getLast?.getD 0

/-- The words that may have been meant: those at distance two or less, and those that start with
what was typed, in letters of any case. -/
def suggestions (word : Text) : List String :=
  let typed := Text.bytes (word.map fun glyph => .char (Text.small glyph.shown))
  (Verb.all.map Verb.word ++ ["completion"]).filter fun name =>
    let bytes := Text.bytes (Text.ofString name)
    editDistance typed bytes ≤ 2 || typed.isPrefixOf bytes

/-! ## Finding the command -/

/-- Whether an argument begins with a dash. -/
def isDashed (argument : Text) : Bool := argument.head? = some (.char '-')

/-- Whether the argument behind this one is taken to be its value, as far as the shared flags
tell. -/
def takesNext (argument : Text) : Bool :=
  if argument.contains (.char '=') then false
  else
    let isSwitch := fun (flag : Option Flag) => flag.any fun found => found.kind = .switch
    match argument with
    | .char '-' :: .char '-' :: name => !isSwitch (Flag.find? sharedFlags name)
    | [.char '-', letter] => letter.size = 1 && !isSwitch (Flag.findLetter? sharedFlags letter)
    | _ => false

/-- The argument that names the command. A flag that takes the last argument as its value ends the
search. -/
def commandWord? : List Text → Option Text
  | [] => none
  | argument :: rest =>
    if argument.isString "--" then none
    else if takesNext argument then
      match rest with
      | _ :: next :: rest => commandWord? (next :: rest)
      | _ => none
    else if argument.isEmpty || isDashed argument then commandWord? rest
    else some argument

/-- The arguments without the one that names the command. -/
def withoutWord (word : Text) : List Text → List Text
  | [] => []
  | argument :: rest =>
    if argument.isString "--" then argument :: rest
    else if takesNext argument then
      match rest with
      | value :: rest => argument :: value :: withoutWord word rest
      | [] => [argument]
    else if argument = word then rest
    else argument :: withoutWord word rest

/-! ## Reading an invocation -/

/-- A request, or the wish for an explanation. -/
inductive Invocation where
  | help
  | request (request : Request)
deriving DecidableEq, Repr

namespace Invocation

/-- What the shared flags say. -/
def preferences (arguments : Arguments) : Preferences where
  verbose := arguments.switch? verboseFlag
  format := arguments.text? formatFlag
  config := (arguments.text? configFlag).getD []
  prelude := arguments.text? preludeFlag
  noPrelude := (arguments.switch? noPreludeFlag).getD false

/-- The source of terms: arguments go before a file, and a file before the standard input. -/
def source (arguments : Arguments) : Source :=
  match arguments.positional, (arguments.text? fileFlag).getD [] with
  | [], [] => .standardInput
  | [], file => .file file
  | words, _ => .arguments words

/-- Several arguments as one text. -/
def joined (words : List Text) : Text := Text.join [.char ' '] words

/-- At least one positional argument, as one text. -/
def someText (arguments : Arguments) : Except UsageError Text :=
  match arguments.positional with
  | [] => .error (.tooFew 1 0)
  | words => .ok (joined words)

/-- What a command is to do with its arguments. -/
def action (arguments : Arguments) : Verb → Except UsageError Action
  | .reduce =>
    let options : ReduceOptions := {
      strategy := (arguments.text? strategyFlag).getD []
      limit := (arguments.number? limitFlag).getD (-1)
      trace := (arguments.switch? traceFlag).getD false
      nameless := (arguments.switch? namelessFlag).getD false }
    .ok (.reduce options (source arguments))
  | .equal =>
    match arguments.positional with
    | [left, right] =>
      .ok (.equal ((arguments.number? limitFlag).getD (-1))
        ((arguments.switch? checkFlag).getD false) left right)
    | words => .error (.count 2 words.length)
  | .free => (someText arguments).map .free
  | .index => (someText arguments).map .index
  | .tree => (someText arguments).map (.tree ((arguments.switch? expandFlag).getD false))
  | .demo =>
    match arguments.positional with
    | [] => .ok (.demo ((arguments.number? limitFlag).getD 10))
    | word :: _ => .error (.unexpected .demo word)

/-- Read the arguments of a command. -/
def ofVerb (verb : Verb) (rest : List Text) : Except UsageError Invocation := do
  let arguments ← (readArguments verb.flags rest).mapError .flag
  if (arguments.switch? helpFlag).getD false then return .help
  return .request ⟨preferences arguments, ← action arguments verb⟩

/-- The words of the commands that explain the others. -/
def helpWords : List String := ["help", "completion"]

/-- Read a command line. -/
def parse (arguments : List Text) : Except UsageError Invocation :=
  match commandWord? arguments with
  | none => do
    let _ ← (readArguments (sharedFlags ++ [helpFlag]) arguments).mapError UsageError.flag
    return .help
  | some word =>
    match Verb.all.find? fun verb => word.isString verb.word with
    | some verb => ofVerb verb (withoutWord word arguments)
    | none =>
      if helpWords.any word.isString then .ok .help
      else .error (.unknownCommand word (suggestions word))

end Invocation

end Redex.Command
