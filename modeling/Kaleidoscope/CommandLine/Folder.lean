import Kaleidoscope.CommandLine.Settings
import Kaleidoscope.Stream.Lines

/-!
# A folder of files

Paths from a folder that holds files and no folders. Nothing is known of what lies outside but that
it consists of directories on the way up.
-/

namespace Kaleidoscope.CommandLine

/-- A folder with the names and contents of its files. -/
structure Folder where
  /-- The files. -/
  files : List (String × List UInt8)

/-- Where a path has led to. -/
inductive Place where
  /-- The folder itself. -/
  | inside
  /-- A directory above the folder. -/
  | outside
  /-- A file with its contents. -/
  | file (contents : List UInt8)

namespace Folder

/-- Goes on from a place by one part of a path. From a file there is no way on. -/
def follow (folder : Folder) (place : Place) (part : String) : Except OpenFault Place :=
  match place with
  | .file _ => .error .notDirectory
  | .inside =>
    if part = "" ∨ part = "." then .ok .inside
    else if part = ".." then .ok .outside
    else
      match folder.files.lookup part with
      | some contents => .ok (.file contents)
      | none => .error .missing
  | .outside => if part = "" ∨ part = "." ∨ part = ".." then .ok .outside else .error .missing

/-- Goes on from a place by the parts of a path. -/
def followAll (folder : Folder) (place : Place) : List String → Except OpenFault Place
  | [] => .ok place
  | part :: rest =>
    match folder.follow place part with
    | .ok place => folder.followAll place rest
    | .error fault => .error fault

/-- The parts of a path between the slashes; the part that has begun is given in reverse. -/
def parts (begun : List Char) : List Char → List String
  | [] => [String.ofList begun.reverse]
  | c :: rest =>
    if c = '/' then String.ofList begun.reverse :: parts [] rest else parts (c :: begun) rest

/-- Where a path leads to. A path that begins with a slash starts outside, and an empty one leads
nowhere. -/
def resolve (folder : Folder) (path : String) : Except OpenFault Place :=
  match path.toList with
  | [] => .error .missing
  | '/' :: rest => folder.followAll .outside (parts [] rest)
  | chars => folder.followAll .inside (parts [] chars)

end Folder

/-- What the reading of an open place meets with. A directory can be opened, but not read. -/
def Place.events : Place → List InputEvent
  | .file contents => [.bytes contents]
  | _ => [.failed "Is a directory (os error 21)"]

end Kaleidoscope.CommandLine
