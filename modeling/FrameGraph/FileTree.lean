import FrameGraph.Text.Split
import FrameGraph.Text.Utf8

/-!
# File trees

A tree of directories and files, and what is found in it under a path. A path is walked one segment
at a time, an absolute one from the top and any other from the home directory: empty segments and
`.` stay, `..` goes up.
-/

set_option autoImplicit false

namespace FrameGraph

/-- Why a file cannot be read. -/
inductive IoError
  | notFound | notADirectory | isADirectory | invalidFilename | invalidData | invalidInput
  deriving DecidableEq

def IoError.name : IoError → String
  | notFound => "NotFound"
  | notADirectory => "NotADirectory"
  | isADirectory => "IsADirectory"
  | invalidFilename => "InvalidFilename"
  | invalidData => "InvalidData"
  | invalidInput => "InvalidInput"

inductive FileEntry
  | directory
  | file (content : List UInt8)
  deriving DecidableEq

structure FileTree where
  /-- Where relative paths start. -/
  home : List String := []
  /-- What stands below the top, by the segments of the paths from there. -/
  entries : List (List String × FileEntry) := []

namespace FileTree

/-- What stands at a place. The home directory and those above it are always there. -/
def entry? (t : FileTree) (place : List String) : Option FileEntry :=
  if place.isPrefixOf t.home then some .directory else t.entries.lookup place

/-- The pieces of a path between its slashes. -/
def segments (path : String) : List String :=
  (Text.split (· == '/') path.toList).map String.ofList

/-- Where a path starts. -/
def start (t : FileTree) (path : String) : List String :=
  if path.startsWith "/" then [] else t.home

/-- Where a segment leads to. There is nothing above the top. -/
def step (place : List String) (s : String) : List String :=
  if s = "" ∨ s = "." then place else if s = ".." then place.dropLast else place ++ [s]

/-- The empty tree whose home is the directory of that path. -/
def within (path : String) : FileTree := { home := (segments path).foldl step [] }

/-- The most bytes that one segment may have. -/
def longestSegment : Nat := 255

/-- The most bytes that a path may have. -/
def longestPath : Nat := 4095

/-- Where `segments` lead to from `place`. Every step starts from a directory. -/
def walk (t : FileTree) (place : List String) : List String → Except IoError (List String)
  | [] => .ok place
  | s :: rest =>
    match t.entry? place with
    | none => .error .notFound
    | some (.file _) => .error .notADirectory
    | some .directory =>
      if longestSegment < s.utf8ByteSize then .error .invalidFilename
      else t.walk (step place s) rest

/-- What a path leads to. The empty path leads nowhere. -/
def find (t : FileTree) (path : String) : Except IoError FileEntry := do
  if path.toList.contains '\x00' then throw .invalidInput
  if longestPath < path.utf8ByteSize then throw .invalidFilename
  if path = "" then throw .notFound
  match t.entry? (← t.walk (t.start path) (segments path)) with
  | some e => return e
  | none => throw .notFound

def isFile (t : FileTree) (path : String) : Bool :=
  match t.find path with
  | .ok (.file _) => true
  | _ => false

/-- The bytes of a file. -/
def read (t : FileTree) (path : String) : Except IoError (List UInt8) := do
  match ← t.find path with
  | .file content => return content
  | .directory => throw .isADirectory

/-- The text of a file. -/
def readText (t : FileTree) (path : String) : Except IoError String := do
  match Text.decode? (← t.read path) with
  | some text => return text
  | none => throw .invalidData

/-- Puts an entry at a place. -/
def put (t : FileTree) (place : List String) (e : FileEntry) : FileTree :=
  { t with entries := t.entries.filter (·.1 != place) ++ [(place, e)] }

/-- The tree with a directory at every place that `segments` pass, and where they lead to. -/
def pave (t : FileTree) (place : List String) : List String → FileTree × List String
  | [] => (t, place)
  | s :: rest =>
    let t := if (t.entry? place).isSome then t else t.put place .directory
    t.pave (step place s) rest

/-- Puts an entry at a path, and directories on the way to it. -/
def insert (t : FileTree) (path : String) (e : FileEntry) : FileTree :=
  let (t, place) := t.pave (t.start path) (segments path)
  t.put place e

/-- Removes what stands at a path, with all below it. -/
def remove (t : FileTree) (path : String) : FileTree :=
  match t.walk (t.start path) (segments path) with
  | .ok place => { t with entries := t.entries.filter fun e => !place.isPrefixOf e.1 }
  | .error _ => t

end FileTree

/-- The path of `path` as seen from the directory `base`. An absolute path stays itself. -/
def joinPath (base path : String) : String :=
  if path.startsWith "/" || base == "" then path
  else if base.endsWith "/" then base ++ path
  else base ++ "/" ++ path

end FrameGraph
