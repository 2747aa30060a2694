import Redex.Markup.Node
import Redex.Markup.Value
import Redex.Settings.Basic

/-!
# Reading settings

A settings file is a mapping from the names of settings to scalars. A setting that is not mentioned,
or whose value is null, keeps its standard value. Unknown names and values of the wrong kind are
reported together, in the order of the document; a name that is given twice is reported before
anything else about its mapping.

The key `<<` merges another mapping, or several, into the one it stands in. A merged mapping gives
only those settings that have not been given before.
-/

set_option autoImplicit false

namespace Redex

namespace Settings

/-! ## Problems -/

/-- The kinds of value that are wanted somewhere. -/
inductive Kind where
  | string
  | int
  | bool
  | settings
deriving DecidableEq, Repr

/-- The name of a kind in messages. -/
def Kind.name : Kind → String
  | string => "string"
  | int => "int"
  | bool => "bool"
  | settings => "config.Config"

/-- What is wrong with a part of a document, each with the line it stands in. -/
inductive Problem where
  | repeatedKey (line : Nat) (key : String) (first : Nat)
  | unknownKey (line : Nat) (key : String)
  | scalar (line : Nat) (tag text : String) (wanted : Kind)
  | sequence (line : Nat) (wanted : Kind)
  | mapping (line : Nat) (wanted : Kind)
deriving DecidableEq, Repr

/-- A text as messages show it: of more than ten bytes only the first seven. -/
def clip (text : String) : String :=
  let bytes := Text.bytes (Text.ofString text)
  if 10 < bytes.length then Text.shown (Text.ofBytes (bytes.take 7)) ++ "..." else text

/-- The wording of a problem. -/
def Problem.message : Problem → String
  | repeatedKey line key first =>
    "line " ++ toString line ++ ": mapping key " ++ Text.quoteString key ++
      " already defined at line " ++ toString first
  | unknownKey line key =>
    "line " ++ toString line ++ ": field " ++ key ++ " not found in type " ++ Kind.settings.name
  | scalar line tag text wanted =>
    "line " ++ toString line ++ ": cannot unmarshal " ++ tag ++ " `" ++ clip text ++ "` into " ++
      wanted.name
  | sequence line wanted =>
    "line " ++ toString line ++ ": cannot unmarshal !!seq into " ++ wanted.name
  | mapping line wanted =>
    "line " ++ toString line ++ ": cannot unmarshal !!map into " ++ wanted.name

/-- The causes for which a document does not give settings. -/
inductive Error where
  | malformed
  | mistyped (problems : List Problem)
  | invalid (fault : Fault)
deriving DecidableEq, Repr

/-- The cause of an error in words. -/
def Error.cause : Error → String
  | malformed => "yaml: malformed document"
  | mistyped problems =>
    "yaml: unmarshal errors:" ++
      String.join (problems.map fun problem => "\n  " ++ problem.message)
  | invalid fault => fault.message

/-- The wording of an error. -/
def Error.message (error : Error) : String :=
  match error with
  | malformed | mistyped _ => decoding ++ error.cause
  | invalid _ => checking ++ error.cause

/-! ## Values -/

/-- Whether two keys are the same. All collections count as the same key. -/
def sameKey : Markup.Node → Markup.Node → Bool
  | .scalar key, .scalar other => key.text = other.text
  | .sequence _ _, .sequence _ _ => true
  | .mapping _ _, .mapping _ _ => true
  | _, _ => false

/-- The line and the text of a key. A collection has no text. -/
def keyMark : Markup.Node → Nat × String
  | .scalar key => (key.line, key.text)
  | .sequence line _ => (line, "")
  | .mapping line _ => (line, "")

/-- The keys that repeat an earlier one, for each key in turn. -/
def repeatedKeys : List Markup.Node → List Problem
  | [] => []
  | key :: later =>
    let (line, text) := keyMark key
    let again := later.filter (sameKey key)
    again.map (fun other => .repeatedKey (keyMark other).1 text line) ++ repeatedKeys later

/-- The problems with a node where `wanted` should stand, if it is not a scalar. -/
def structureProblems (wanted : Kind) : Markup.Node → List Problem
  | .scalar _ => []
  | .sequence line _ => [.sequence line wanted]
  | .mapping line entries =>
    match repeatedKeys (entries.map (·.1)) with
    | [] => [.mapping line wanted]
    | repeated => repeated

/-- The problem that a scalar is not of the kind that is wanted. -/
def mismatch (scalar : Markup.Scalar) (wanted : Kind) : Problem :=
  .scalar scalar.line scalar.value.tag scalar.text wanted

/-- Read a string: every scalar is one as it is written. Null gives no value. -/
def readString (node : Markup.Node) : Except (List Problem) (Option Text) :=
  match node with
  | .scalar scalar =>
    match scalar.value with
    | .null => .ok none
    | _ => .ok (some (Text.ofString scalar.text))
  | node => .error (structureProblems .string node)

/-- The word that the integer part of a fraction is taken for, if it does not exceed the bound of
words. Parts that no word stands for are taken for the least word. -/
def wordOf? (part : Int) : Option Int :=
  if Numeral.signedBound < part then none
  else if part = Numeral.signedBound || part < -Numeral.signedBound then
    some (-Numeral.signedBound)
  else some part

/-- Read an integer. -/
def readInt (node : Markup.Node) : Except (List Problem) (Option Int) :=
  match node with
  | .scalar scalar =>
    let stored := fun (value : Option Int) => match value with
      | some value => .ok (some value)
      | none => .error [mismatch scalar .int]
    match scalar.value with
    | .null => .ok none
    | .int value => stored (if value < Numeral.signedBound then some value else none)
    | .float part => stored (part.bind wordOf?)
    | _ => stored none
  | node => .error (structureProblems .int node)

/-- The words for yes. -/
def yesWords : List String := ["y", "Y", "yes", "Yes", "YES", "on", "On", "ON"]

/-- The words for no. -/
def noWords : List String := ["n", "N", "no", "No", "NO", "off", "Off", "OFF"]

/-- Read a truth value, which may also be written as one of a few words. -/
def readBool (node : Markup.Node) : Except (List Problem) (Option Bool) :=
  match node with
  | .scalar scalar =>
    match scalar.value with
    | .null => .ok none
    | .bool value => .ok (some value)
    | .str word =>
      if yesWords.contains word then .ok (some true)
      else if noWords.contains word then .ok (some false)
      else .error [mismatch scalar .bool]
    | _ => .error [mismatch scalar .bool]
  | node => .error (structureProblems .bool node)

/-! ## Entries -/

/-- Settings as far as they are read, the problems so far, and the names that a merged mapping does
not give any more. -/
structure Progress where
  settings : Settings
  problems : List Problem
  given : List String

namespace Progress

/-- Nothing is read yet. -/
def start : Progress := ⟨standard, [], []⟩

/-- Note problems. -/
def report (progress : Progress) (problems : List Problem) : Progress :=
  { progress with problems := progress.problems ++ problems }

/-- Put a value that was read into its place; a missing one changes nothing. -/
def store {α : Type} (progress : Progress) (result : Except (List Problem) (Option α))
    (put : α → Settings → Settings) : Progress :=
  match result with
  | .ok none => progress
  | .ok (some value) => { progress with settings := put value progress.settings }
  | .error problems => progress.report problems

/-- Read the value of a setting. -/
def setting (progress : Progress) (key : Markup.Scalar) (node : Markup.Node) : Progress :=
  match key.text with
  | "strategy" => progress.store (readString node) fun value s => { s with strategy := value }
  | "limit" => progress.store (readInt node) fun value s => { s with limit := value }
  | "format" => progress.store (readString node) fun value s => { s with format := value }
  | "prelude" => progress.store (readString node) fun value s => { s with prelude := value }
  | "verbose" => progress.store (readBool node) fun value s => { s with verbose := value }
  | _ => progress.report [.unknownKey key.line key.text]

/-- Read one entry. A null key is passed over, and in a merged mapping a name that was given. -/
def entry (merged : Bool) (progress : Progress) : Markup.Node × Markup.Node → Progress
  | (.scalar key, node) =>
    if key.value = .null || (merged && progress.given.contains key.text) then progress
    else { progress with given := key.text :: progress.given }.setting key node
  | (key, _) => progress.report (structureProblems .string key)

/-- Whether a node is the key that merges a mapping. -/
def isMerge : Markup.Node → Bool
  | .scalar key => key.value = .merge
  | _ => false

/-- The strings among the keys of a mapping. -/
def stringKeys (entries : List (Markup.Node × Markup.Node)) : List String :=
  entries.filterMap fun entry =>
    match entry.1 with
    | .scalar key => if key.value = .str key.text then some key.text else none
    | _ => none

/-- Read the entries of a mapping, then those of the mappings that are merged into it. What is
merged has to be a mapping or a sequence of mappings, else nothing is read at all. -/
def mapping : Nat → Bool → List (Markup.Node × Markup.Node) → Progress → Option Progress
  | 0, _, _, _ => none
  | depth + 1, merged, entries, progress =>
    match repeatedKeys (entries.map (·.1)) with
    | [] =>
      let (merges, own) := entries.partition fun entry => isMerge entry.1
      let progress := own.foldl (entry merged) progress
      let progress := if merged then progress else { progress with given := stringKeys own }
      match merges with
      | [] => some progress
      | (_, .mapping _ inner) :: _ => mapping depth true inner progress
      | (_, .sequence _ items) :: _ =>
        items.foldlM (fun progress item =>
          match item with
          | .mapping _ inner => mapping depth true inner progress
          | _ => none) progress
      | (_, .scalar _) :: _ => none
    | repeated => some (progress.report repeated)

end Progress

/-- What the root of a document says. A mapping has less parts inside each other than the document
has characters. -/
def ofNode (size : Nat) : Markup.Node → Option Progress
  | .scalar scalar =>
    match scalar.value with
    | .null => some .start
    | _ => some (Progress.start.report [mismatch scalar .settings])
  | .sequence line _ => some (Progress.start.report [.sequence line .settings])
  | .mapping _ entries => Progress.start.mapping (size + 1) false entries

/-- The settings that a document gives, whether they make sense or not. -/
def decode (document : Text) : Except Error Settings :=
  match Markup.parse? document with
  | none => .error .malformed
  | some node =>
    match (node.map (ofNode document.length)).getD (some .start) with
    | none => .error .malformed
    | some progress =>
      if progress.problems.isEmpty then .ok progress.settings
      else .error (.mistyped progress.problems)

/-- The settings of a document. -/
def read (document : Text) : Except Error Settings := do
  let settings ← decode document
  settings.validate.mapError .invalid
  return settings

end Settings

end Redex
