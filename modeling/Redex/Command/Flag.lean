import Redex.Numeral
import Redex.Text.Quoted

/-!
# Flags

Arguments of a command are flags and positional arguments, in any order. A flag has a name, used
behind two dashes, and perhaps a letter, used behind one; several letters may share their dash. A
value follows in the same argument, behind `=` or directly behind the letter, or is the next
argument. A switch is a flag that is true when it is given without a value, so it takes a value only
behind `=`. Two dashes alone end the flags, and one dash alone is a positional argument.

Arguments are read from left to right, and the first fault is the one that is reported. Of several
values for one flag the last one counts.
-/

set_option autoImplicit false

namespace Redex.Command

/-! ## Flags and their values -/

/-- What kind of value a flag takes. -/
inductive Flag.Kind where
  | switch
  | number
  | text
deriving DecidableEq, Repr

/-- A flag: its name, its letter and the kind of its value. -/
structure Flag where
  name : String
  letter : Option Char
  kind : Flag.Kind
deriving DecidableEq, Repr

/-- The value of a flag. -/
inductive Flag.Value where
  | switch (value : Bool)
  | number (value : Int)
  | text (value : Text)
deriving DecidableEq, Repr

namespace Flag

/-- The causes for which arguments do not give flags their values. -/
inductive Error where
  | badForm (argument : Text)
  | unknown (name : Text)
  | unknownLetter (letter : Glyph) (letters : Text)
  | missing (argument : Text)
  | missingLetter (letter : Char) (letters : Text)
  | notNumber (flag : Flag) (value : Text) (cause : Numeral.Error)
  | notTruth (flag : Flag) (value : Text)
deriving DecidableEq, Repr

/-- The first byte of a glyph, read as a character. -/
def firstByte (glyph : Glyph) : Char :=
  match glyph.bytes with
  | byte :: _ => Char.ofNat byte.toNat
  | [] => glyph.shown

/-- How messages call a flag. -/
def shown (flag : Flag) : String :=
  match flag.letter with
  | some letter => "-" ++ String.singleton letter ++ ", --" ++ flag.name
  | none => "--" ++ flag.name

/-- The beginning of the messages about the value of a flag. -/
def invalidValue (flag : Flag) (value : Text) : String :=
  "invalid argument " ++ Text.quote value ++ " for " ++ Text.quoteString flag.shown ++ " flag: "

/-- The wording of an error. -/
def Error.message : Error → Text
  | badForm argument => Text.ofString "bad flag syntax: " ++ argument
  | unknown name => Text.ofString "unknown flag: --" ++ name
  | unknownLetter letter letters =>
    Text.ofString ("unknown shorthand flag: " ++ Text.quoteChar (firstByte letter) ++ " in -") ++
      letters
  | missing argument => Text.ofString "flag needs an argument: " ++ argument
  | missingLetter letter letters =>
    Text.ofString ("flag needs an argument: " ++ Text.quoteChar letter ++ " in -") ++ letters
  | notNumber flag value cause =>
    Text.ofString (flag.invalidValue value ++ "strconv.ParseInt: parsing " ++ Text.quote value ++
      ": " ++ cause.message)
  | notTruth flag value =>
    Text.ofString (flag.invalidValue value ++ "strconv.ParseBool: parsing " ++ Text.quote value ++
      ": invalid syntax")

/-- The words for true. -/
def trueWords : List String := ["1", "t", "T", "TRUE", "true", "True"]

/-- The words for false. -/
def falseWords : List String := ["0", "f", "F", "FALSE", "false", "False"]

/-- Read a value of a flag. -/
def read (flag : Flag) (value : Text) : Except Error Value :=
  match flag.kind with
  | .text => .ok (.text value)
  | .number =>
    match Numeral.signed (value.map Glyph.shown) with
    | .ok number => .ok (.number number)
    | .error cause => .error (.notNumber flag value cause)
  | .switch =>
    if trueWords.any value.isString then .ok (.switch true)
    else if falseWords.any value.isString then .ok (.switch false)
    else .error (.notTruth flag value)

/-- The flag of a name. -/
def find? (flags : List Flag) (name : Text) : Option Flag :=
  flags.find? fun flag => name.isString flag.name

/-- The flag of a letter. -/
def findLetter? (flags : List Flag) (letter : Glyph) : Option Flag :=
  flags.find? fun flag => (flag.letter.map Glyph.char) = some letter

end Flag

/-! ## Arguments -/

/-- Flags with their values, in the order in which they are given, and the positional arguments. -/
structure Arguments where
  given : List (Flag × Flag.Value)
  positional : List Text
deriving DecidableEq, Repr

/-- What one argument gives: the flags that have a value, and perhaps one that waits for the next
argument, with the error if there is none. -/
structure Portion where
  given : List (Flag × Flag.Value)
  waiting : Option (Flag × Flag.Error)

/-- A text before and behind its first equals sign. -/
def splitEquals (text : Text) : Text × Option Text :=
  let name := text.takeWhile (· ≠ .char '=')
  match text.dropWhile (· ≠ .char '=') with
  | [] => (name, none)
  | _ :: value => (name, some value)

/-- Read an argument that names a flag behind two dashes. -/
def longFlag (flags : List Flag) (body : Text) : Except Flag.Error Portion :=
  let argument := Text.ofString "--" ++ body
  match body with
  | [] | .char '-' :: _ | .char '=' :: _ => .error (.badForm argument)
  | body =>
    let (name, value) := splitEquals body
    match Flag.find? flags name, value with
    | none, _ => .error (.unknown name)
    | some flag, some value => (flag.read value).map fun value => ⟨[(flag, value)], none⟩
    | some flag, none =>
      if flag.kind = .switch then .ok ⟨[(flag, .switch true)], none⟩
      else .ok ⟨[], some (flag, .missing argument)⟩

/-- Letters that are passed over wherever they start. -/
def ignoredLetters : Text := Text.ofString "test."

/-- Read the letters behind one dash. -/
def letterFlags (flags : List Flag) : Text → Except Flag.Error Portion
  | [] => .ok ⟨[], none⟩
  | letter :: rest =>
    if ignoredLetters.isPrefixOf (letter :: rest) then .ok ⟨[], none⟩
    else
      match Flag.findLetter? flags letter with
      | none => .error (.unknownLetter letter (letter :: rest))
      | some flag =>
        match rest with
        | .char '=' :: first :: more =>
          (flag.read (first :: more)).map fun value => ⟨[(flag, value)], none⟩
        | rest =>
          if flag.kind = .switch then
            (letterFlags flags rest).map fun portion =>
              ⟨(flag, .switch true) :: portion.given, portion.waiting⟩
          else if rest.isEmpty then
            .ok ⟨[], some (flag, .missingLetter letter.shown [letter])⟩
          else (flag.read rest).map fun value => ⟨[(flag, value)], none⟩

/-- The same arguments with flags before them. -/
def Arguments.after (given : List (Flag × Flag.Value)) (arguments : Arguments) : Arguments :=
  ⟨given ++ arguments.given, arguments.positional⟩

/-- The same arguments with a positional one before them. -/
def Arguments.behind (argument : Text) (arguments : Arguments) : Arguments :=
  ⟨arguments.given, argument :: arguments.positional⟩

/-- The flags of one argument; nothing for a positional argument. -/
def portion? (flags : List Flag) : Text → Option (Except Flag.Error Portion)
  | .char '-' :: .char '-' :: body => some (longFlag flags body)
  | .char '-' :: first :: more => some (letterFlags flags (first :: more))
  | _ => none

/-- Read the arguments of a command with the given flags. -/
def readArguments (flags : List Flag) : List Text → Except Flag.Error Arguments
  | [] => .ok ⟨[], []⟩
  | argument :: rest =>
    if argument.isString "--" then .ok ⟨[], rest⟩
    else
      match portion? flags argument with
      | none => (readArguments flags rest).map (Arguments.behind argument)
      | some (.error error) => .error error
      | some (.ok ⟨given, none⟩) => (readArguments flags rest).map (Arguments.after given)
      | some (.ok ⟨given, some (flag, missing)⟩) =>
        match rest with
        | [] => .error missing
        | value :: rest =>
          match flag.read value with
          | .error error => .error error
          | .ok value => (readArguments flags rest).map (Arguments.after (given ++ [(flag, value)]))

namespace Arguments

/-- The value of a flag that is given. -/
def value? (arguments : Arguments) (flag : Flag) : Option Flag.Value :=
  (arguments.given.reverse.find? (·.1 = flag)).map (·.2)

/-- The value of a switch that is given. -/
def switch? (arguments : Arguments) (flag : Flag) : Option Bool :=
  match arguments.value? flag with
  | some (.switch value) => some value
  | _ => none

/-- The value of a number that is given. -/
def number? (arguments : Arguments) (flag : Flag) : Option Int :=
  match arguments.value? flag with
  | some (.number value) => some value
  | _ => none

/-- The value of a text that is given. -/
def text? (arguments : Arguments) (flag : Flag) : Option Text :=
  match arguments.value? flag with
  | some (.text value) => some value
  | _ => none

end Arguments

end Redex.Command
