import Redex.Text.Glyph

/-!
# Files by name

A name leads from the current directory through the parts between its slashes: a dot stays, two dots
go up, and any other part goes down to a directory or a file. Files are given by their names, so
the directories are those that some file is in. Nothing is known of what is above the current
directory, except that it consists of directories.

`Files.open` gives the content of a file or tells why it cannot be read.
-/

set_option autoImplicit false

namespace Redex.Command

/-- The causes for which a file cannot be read. -/
inductive FileFault where
  | missing
  | notDirectory
  | directory
  | invalidName
  | nameTooLong
  /-- Any other cause, by the operation that failed and what it says. -/
  | other (operation cause : String)
deriving DecidableEq, Repr

/-- A file that cannot be read. -/
structure NoFile where
  name : Text
  fault : FileFault
deriving DecidableEq, Repr

/-- The wording of the failure to read a file. A directory can be opened, but not read. -/
def NoFile.message (failure : NoFile) : Text :=
  let (action, cause) := match failure.fault with
    | .missing => ("open ", ": no such file or directory")
    | .notDirectory => ("open ", ": not a directory")
    | .directory => ("read ", ": is a directory")
    | .invalidName => ("open ", ": invalid argument")
    | .nameTooLong => ("open ", ": file name too long")
    | .other operation cause => (operation ++ " ", ": " ++ cause)
  Text.ofString action ++ failure.name ++ Text.ofString cause

/-- The parts of a name between its slashes. -/
def nameParts (name : Text) : List Text :=
  name.foldr (fun glyph parts =>
    match parts with
    | part :: rest => if glyph = .char '/' then [] :: part :: rest else (glyph :: part) :: rest
    | [] => [[glyph]]) [[]]

/-- Whether a part of a name stays where it is. -/
def isIdle (part : Text) : Bool := part.isEmpty || part.isString "."

/-- Files with their contents, by name. -/
abbrev Files := List (Text × Text)

/-- Where the parts of a name lead. -/
inductive Whereabouts where
  | above
  | directory (path : List Text)
  | file (content : Text)

/-- The longest part of a name, in bytes. -/
def longestPart : Nat := 255

/-- The longest name, in bytes. -/
def longestName : Nat := 4095

namespace Whereabouts

/-- Go on by one part of a name. An empty part stays, like a dot, but only a directory has parts. -/
def go (files : List (List Text × Text)) (place : Whereabouts) (part : Text) :
    Except FileFault Whereabouts :=
  match place with
  | file _ => .error .notDirectory
  | above =>
    if isIdle part || part.isString ".." then .ok above
    else if longestPart < part.size then .error .nameTooLong
    else .error .missing
  | directory path =>
    if isIdle part then .ok (directory path)
    else if part.isString ".." then .ok (if path.isEmpty then above else directory path.dropLast)
    else if longestPart < part.size then .error .nameTooLong
    else
      let path := path ++ [part]
      match files.lookup path with
      | some content => .ok (file content)
      | none =>
        if files.any fun entry => path.isPrefixOf entry.1 then .ok (directory path)
        else .error .missing

end Whereabouts

/-- Follow the parts of a name. A name that starts with a slash starts above everything. -/
def Files.follow (files : Files) (name : Text) : Except FileFault Whereabouts :=
  let known := files.map fun (name, content) => ((nameParts name).filter (!isIdle ·), content)
  let start : Whereabouts := if name.head? = some (.char '/') then .above else .directory []
  (nameParts name).foldlM (Whereabouts.go known) start

/-- The content of a file. -/
def Files.open (files : Files) (name : Text) : Except NoFile Text :=
  match files.lookup name with
  | some content => .ok content
  | none =>
    let fail := fun fault => .error ⟨name, fault⟩
    if name.contains (.char '\x00') then fail .invalidName
    else if longestName < name.size then fail .nameTooLong
    else
      match files.follow name with
      | .ok (.file content) => .ok content
      | .ok _ => fail .directory
      | .error fault => fail fault

/-- Why a name leads nowhere. A directory is found, though it cannot be read. -/
def Files.absence? (files : Files) (name : Text) : Option NoFile :=
  match files.open name with
  | .ok _ | .error ⟨_, .directory⟩ => none
  | .error failure => some failure

end Redex.Command
