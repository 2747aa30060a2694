import Redex.Reduction.Evaluation

/-!
# Settings

What every command can be told once and for all: the strategy and the number of contractions it may
spend, the format of the output, the file of the prelude, and whether to log. `Settings.validate`
names the first setting that makes no sense.
-/

set_option autoImplicit false

namespace Redex

/-- The settings shared by every command. -/
structure Settings where
  strategy : Text
  limit : Int
  format : Text
  prelude : Text
  verbose : Bool
deriving DecidableEq, Repr

namespace Settings

/-- The settings of a user who has given none. -/
def standard : Settings where
  strategy := Text.ofString Strategy.hybridApplicative.name
  limit := defaultLimit
  format := Text.ofString "text"
  prelude := []
  verbose := false

/-- The formats of the output. -/
def formats : List String := ["text", "json"]

/-- The settings that make no sense. -/
inductive Fault where
  | strategy (unknown : Strategy.Unknown)
  | limit (value : Int)
  | format (value : Text)
deriving DecidableEq, Repr

/-- The wording of a fault. -/
def Fault.message : Fault → String
  | strategy unknown => "strategy: " ++ unknown.message
  | limit value => "limit: must not be negative, got " ++ toString value
  | format value => "format: must be text or json, got " ++ Text.quote value

/-- How messages about a document that cannot be decoded begin. -/
def decoding : String := "failed to parse YAML: "

/-- How messages about settings that make no sense begin. -/
def checking : String := "invalid config: "

/-- Whether a text names a format. -/
def isFormat (text : Text) : Bool := formats.any text.isString

/-- Check the strategy, the limit and the format, in this order. -/
def validate (settings : Settings) : Except Fault Unit :=
  match Strategy.parse settings.strategy with
  | .error unknown => .error (.strategy unknown)
  | .ok _ =>
    if settings.limit < 0 then .error (.limit settings.limit)
    else if isFormat settings.format then .ok ()
    else .error (.format settings.format)

end Settings

end Redex
