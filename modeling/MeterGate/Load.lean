import MeterGate.Config.Build
import MeterGate.Config.Decode
import MeterGate.Toml.Document

set_option autoImplicit false

/-! # Loading a config

A config is loaded in phases: get the text, read it as a document, decode that, check the result.
Text held in memory and text in a file go through the same phases; only the wrapping of a fault
differs. A `FileTree` says what is found under the current directory. Paths and the names in them
are limited in length, which is counted in bytes. -/

namespace MeterGate

/-! ## Files -/

/-- A file's content, or the content of a directory. -/
inductive FileTree where
  | file (content : ByteArray)
  | directory (entries : List (String × FileTree))

/-- Why the text of a file cannot be had. -/
inductive ReadFault where
  | notFound
  | isADirectory
  | notADirectory
  /-- A path, or a name in it, is longer than the system takes. -/
  | tooLong
  /-- A path with a NUL in it, at which the system would take it to end. -/
  | nulInPath
  | notUtf8
deriving DecidableEq, Repr

namespace ReadFault

/-- The name of the kind of fault. -/
def label : ReadFault → String
  | .notFound => "NotFound"
  | .isADirectory => "IsADirectory"
  | .notADirectory => "NotADirectory"
  | .tooLong => "InvalidFilename"
  | .nulInPath => "InvalidInput"
  | .notUtf8 => "InvalidData"

/-- The words of the fault. -/
def message : ReadFault → String
  | .notFound => "No such file or directory (os error 2)"
  | .isADirectory => "Is a directory (os error 21)"
  | .notADirectory => "Not a directory (os error 20)"
  | .tooLong => "File name too long (os error 36)"
  | .nulInPath => "file name contained an unexpected NUL byte"
  | .notUtf8 => "stream did not contain valid UTF-8"

end ReadFault

namespace FileTree

/-- The parts of a path between its slashes. -/
def components (path : String) : List String :=
  (path.toList.splitOn '/').map String.ofList

/-- Put a file or a directory at a path, with the directories on the way. -/
def insert (node : FileTree) : List String → List (String × FileTree) → List (String × FileTree)
  | [], entries => entries
  | [name], entries =>
      match entries.find? (·.1 == name) with
      | some (_, .directory _) => entries
      | _ => (name, node) :: entries
  | name :: rest, entries =>
      match entries.find? (·.1 == name) with
      | some (_, .directory inner) =>
          (name, .directory (insert node rest inner)) :: entries.filter (·.1 != name)
      | _ => (name, .directory (insert node rest [])) :: entries

/-- Go along the parts of a path and make the directories that are missing: the names that lead to
    where it ends, innermost first, and the entries after it. Nothing lies above the current
    directory. -/
def walk : List String → List String → List (String × FileTree) →
    List String × List (String × FileTree)
  | here, [], entries => (here, entries)
  | here, name :: rest, entries =>
      if name = "" || name = "." then walk here rest entries
      else if name = ".." then walk here.tail rest entries
      else walk (name :: here) rest (insert (.directory []) (name :: here).reverse entries)

/-- Make the directory at a path. -/
def makeDirectory (path : String) (entries : List (String × FileTree)) :
    List (String × FileTree) :=
  (walk [] (components path) entries).2

/-- Write the file at a path. -/
def writeFile (content : ByteArray) (path : String) (entries : List (String × FileTree)) :
    List (String × FileTree) :=
  let parts := components path
  let (here, entries) := walk [] parts.dropLast entries
  insert (.file content) (parts.getLastD "" :: here).reverse entries

/-- The longest name that a directory can hold, in bytes. -/
def maxName : Nat := 255

/-- The longest path, in bytes. -/
def maxPath : Nat := 4095

/-- What is at the end of a path, from a place with the directories above it. `top` is what stands
    above the outermost of these, and above itself. -/
def find (top : List (String × FileTree)) :
    List (List (String × FileTree)) → FileTree → List String → Except ReadFault FileTree
  | _, here, [] => .ok here
  | _, .file _, _ :: _ => .error .notADirectory
  | above, .directory entries, name :: rest =>
      if name = "" || name = "." then find top above (.directory entries) rest
      else if name = ".." then
        match above with
        | [] => find top [] (.directory top) rest
        | parent :: above => find top above (.directory parent) rest
      else if maxName < name.utf8ByteSize then .error .tooLong
      else
        match entries.find? (·.1 == name) with
        | none => .error .notFound
        | some (_, node) => find top (entries :: above) node rest

/-- What is known of the root: the directories that every system has there, and the null device,
    which reads as an empty file. -/
def root : List (String × FileTree) :=
  ("dev", .directory [("null", .file ByteArray.empty)])
    :: ["bin", "etc", "home", "lib", "proc", "root", "run", "sbin", "sys", "tmp", "usr", "var"].map
      fun name => (name, .directory [])

/-- What is at the end of a path. Above the current directory nothing but directories is known. -/
def lookUp (current : List (String × FileTree)) (path : String) : Except ReadFault FileTree :=
  if path.toList.contains '\x00' then .error .nulInPath
  else if maxPath < path.utf8ByteSize then .error .tooLong
  else if path = "" then .error .notFound
  else if path.startsWith "/" then find root [] (.directory root) (components path)
  else find [] [] (.directory current) (components path)

/-- The text of the file at a path. -/
def readText (current : List (String × FileTree)) (path : String) : Except ReadFault String :=
  match lookUp current path with
  | .error fault => .error fault
  | .ok (.directory _) => .error .isADirectory
  | .ok (.file content) =>
      match String.fromUTF8? content with
      | some text => .ok text
      | none => .error .notUtf8

end FileTree

/-! ## Parsing -/

/-- Why a text is not a config, check apart. -/
inductive ParseFault where
  /-- The text is not a document. -/
  | malformed
  /-- The document is not a config. -/
  | undecodable (fault : DecodeFault)
deriving DecidableEq, Repr

/-- The config that a text describes, not checked yet. -/
def ChainConfig.parse (text : String) : Except ParseFault ChainConfig :=
  match Toml.read? text with
  | none => .error .malformed
  | some root => (ChainConfig.decode root).mapError .undecodable

/-! ## Loading -/

/-- Why a config was not loaded. -/
inductive LoadFault where
  | config (fault : ConfigFault)
  | unreadable (path : String) (fault : ReadFault)
  | unparsed (path : String) (fault : ParseFault)
  | invalid (path : String) (fault : ConfigFault)
deriving DecidableEq, Repr

/-- The path by which text in memory goes. -/
def inMemoryPath : String := "<string>"

namespace LoadFault

/-- The full words of a fault; those of a text that does not parse are not fixed. -/
def message? : LoadFault → Option String
  | .config fault => some fault.message
  | .unreadable path fault =>
      some ("Failed to read filter config file " ++ path ++ ": " ++ fault.message)
  | .unparsed .. => none
  | .invalid path fault => some ("Invalid filter config in " ++ path ++ ": " ++ fault.message)

end LoadFault

namespace ChainConfig

/-- Load a config from text in memory. -/
def ofText (text : String) (order : TableOrder := .asPut) : Except LoadFault ChainConfig :=
  match parse text with
  | .error fault => .error (.unparsed inMemoryPath fault)
  | .ok c =>
      match c.validate order with
      | .error fault => .error (.config fault)
      | .ok () => .ok c

/-- Load a config from the file at a path. -/
def ofFile (current : List (String × FileTree)) (path : String) (order : TableOrder := .asPut) :
    Except LoadFault ChainConfig :=
  match FileTree.readText current path with
  | .error fault => .error (.unreadable path fault)
  | .ok text =>
      match parse text with
      | .error fault => .error (.unparsed path fault)
      | .ok c =>
          match c.validate order with
          | .error fault => .error (.invalid path fault)
          | .ok () => .ok c

end ChainConfig

end MeterGate
