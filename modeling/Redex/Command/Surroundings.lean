import Redex.Command.File
import Redex.Command.Invocation
import Redex.Prelude.Document
import Redex.Prelude.Resolution
import Redex.Settings.Reading

/-!
# The surroundings of a command

A command relies on two kinds of things that it does not do itself. Readers (`Readers`) tell it what
its arguments ask for, and what documents with settings and documents with definitions say. Its
surroundings (`Surroundings`) are the files that it may look up and read, its standard input, and
its standard output, which may refuse what is written to it.

Nothing is assumed of either. The readers `Readers.standard` know the notations that are described
in `Redex.Command.Invocation`, `Redex.Markup.Node` and `Redex.Prelude.Document`; wider notations of
documents have readers of their own.
-/

set_option autoImplicit false

namespace Redex.Command

/-! ## Readers -/

/-- What a command has read for it. An error comes with its wording. -/
structure Readers where
  /-- What a command line asks for. -/
  invocation : List Text → Except Text Invocation
  /-- The settings that a document gives, whether they make sense or not. -/
  settings : Text → Except Text Settings
  /-- The texts of the definitions in a file of the given name and content, each name once, in the
  order in which they are to be read. -/
  definitions : Text → Text → Except Text (List (Name × String))

/-- The readers of the library. -/
def Readers.standard : Readers where
  invocation arguments := (Invocation.parse arguments).mapError UsageError.message
  settings document := (Settings.decode document).mapError fun error => Text.ofString error.cause
  definitions _ document :=
    match Document.parse? document with
    | none => .error (Text.ofString PreludeError.invalidDocument.message)
    | some texts => .ok texts

/-! ## Surroundings -/

/-- A write that fails: what was written nevertheless, and what is said about the failure. -/
structure Refusal where
  written : String
  message : Text

/-- The files a command may look up and read, its standard input and its standard output. -/
structure Surroundings where
  /-- Why a file is not found. Nothing for a file that is. -/
  absence? : Text → Option NoFile
  /-- The content of a file. -/
  content : Text → Except NoFile Text
  input : Except NoFile Text
  /-- Why a text is not written as a whole to the standard output. Nothing if it is. -/
  refusal? : String → Option Refusal

/-- Files with their contents and a standard input, all of which can be read. -/
structure Provisions where
  files : Files
  input : Text

/-- The surroundings with these files and this input, and an output that refuses nothing. -/
def Provisions.surroundings (provisions : Provisions) : Surroundings where
  absence? := provisions.files.absence?
  content := provisions.files.open
  input := .ok provisions.input
  refusal? _ := none

end Redex.Command
