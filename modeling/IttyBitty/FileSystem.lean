import IttyBitty.Text.Hex
import IttyBitty.Text.Quoted

/-!
# Paths and files

A path is a list of names, possibly from the root. Written in its short form it has no empty names
and no single dots; two dots are kept, because a directory has to be entered before it is left.

A file system is files with their bytes and directories, all by the names that lead to them from the
root, and the working directory, from which paths start that do not start at the root.
-/

namespace IttyBitty

/-- A path: what it starts from the root with, if it does, and its names. -/
structure Path where
  root : Text
  names : List Text
  deriving DecidableEq, Repr

namespace Path

/-- The parts of a text between slashes. -/
def parts (t : Text) : List Text :=
  t.foldr
    (fun c parts => match parts with
      | [] => [[c]]
      | part :: rest => if c = '/' then [] :: part :: rest else (c :: part) :: rest)
    [[]]

/-- What a path starts with: a slash, or two slashes if there are exactly two. -/
def rootOf (t : Text) : Text :=
  match t.takeWhile (· == '/') with
  | [] => []
  | ['/', '/'] => ['/', '/']
  | _ => ['/']

/-- The path that a text denotes. -/
def ofText (t : Text) : Path where
  root := rootOf t
  names := (parts t).filter fun part => part != [] && part != ['.']

/-- The short form of a path; the working directory is a dot. -/
def text (p : Path) : Text :=
  match p.root, p.names with
  | [], [] => ['.']
  | root, names => root ++ List.intercalate ['/'] names

/-- The name of the parent directory. -/
def parent : Text := ['.', '.']

end Path

/-- Why a file cannot be read or written. -/
inductive FileError
  | notFound
  | notADirectory
  | isADirectory
  | nameTooLong
  | nullInPath
  deriving DecidableEq, Repr

namespace FileError

/-- The number and the words of the system for an error. -/
def words : FileError → String
  | .notFound => "[Errno 2] No such file or directory"
  | .notADirectory => "[Errno 20] Not a directory"
  | .isADirectory => "[Errno 21] Is a directory"
  | .nameTooLong => "[Errno 36] File name too long"
  | .nullInPath => "embedded null byte"

/-- The text of an error on a path. -/
def message (e : FileError) (p : Path) : String :=
  s!"{e.words}: {String.ofList (RawText.quoted p.text)}"

end FileError

/-- Files and directories by the names that lead to them from the root, and the working directory.
What is on the way to one of these is a directory too. -/
structure FileSystem where
  here : List Text
  files : List (List Text × List UInt8)
  dirs : List (List Text)
  deriving DecidableEq, Repr

namespace FileSystem

/-- The bytes of a file. -/
def file? (fs : FileSystem) (place : List Text) : Option (List UInt8) := fs.files.lookup place

/-- Whether there is a directory at a place. -/
def isDir (fs : FileSystem) (place : List Text) : Bool :=
  place.isPrefixOf fs.here || fs.dirs.any place.isPrefixOf
    || fs.files.any fun f => place.isPrefixOf f.1 && place.length < f.1.length

/-! ## Following paths -/

/-- The directory in which a path starts. -/
def start (fs : FileSystem) (p : Path) : List Text := if p.root.isEmpty then fs.here else []

/-- The number of bytes that a name may have. -/
def maxNameBytes : Nat := 255

/-- The number of bytes that a path may have in its short form. -/
def maxPathBytes : Nat := 4095

/-- Whether a name has too many bytes. -/
def isTooLong (name : Text) : Bool := maxNameBytes < (String.ofList name).utf8ByteSize

/-- Enters a directory on the way along a path. Nothing is above the root. -/
def enter (fs : FileSystem) (place : List Text) (name : Text) : Except FileError (List Text) :=
  let next := place ++ [name]
  if name = Path.parent then .ok place.dropLast
  else if isTooLong name then .error .nameTooLong
  else if fs.isDir next then .ok next
  else if (fs.file? next).isSome then .error .notADirectory
  else .error .notFound

/-- Follows the names of a path from a directory to the place of a file, which need not be there;
all names but the last have to be directories, and the last must not be one. -/
def follow (fs : FileSystem) (place : List Text) : List Text → Except FileError (List Text)
  | [] => .error .isADirectory
  | [name] =>
    if name = Path.parent then .error .isADirectory
    else if isTooLong name then .error .nameTooLong
    else if fs.isDir (place ++ [name]) then .error .isADirectory
    else .ok (place ++ [name])
  | name :: rest => do
    let place ← fs.enter place name
    fs.follow place rest

/-- The place of the file that a path leads to. A null character or too many bytes are found before
any of its names is looked for. -/
def locate (fs : FileSystem) (p : Path) : Except FileError (List Text) :=
  if p.names.any (·.contains '\x00') then .error .nullInPath
  else if maxPathBytes < (String.ofList p.text).utf8ByteSize then .error .nameTooLong
  else fs.follow (fs.start p) p.names

/-- The path from the root that a path comes to if two dots take away the name before them, whatever
the files are. -/
def collapse (fs : FileSystem) (p : Path) : Path where
  root := ['/']
  names := (p.names.foldl step (fs.start p).reverse).reverse
where
  step (done : List Text) (name : Text) : List Text :=
    if name = Path.parent then done.tail else name :: done

/-! ## Reading and writing -/

/-- The bytes of the file that a path leads to. -/
def read (fs : FileSystem) (p : Path) : Except FileError (List UInt8) := do
  match fs.file? (← fs.locate p) with
  | some bytes => return bytes
  | none => throw .notFound

/-- Puts bytes into a file, which is made if it is not there. -/
def put (fs : FileSystem) (place : List Text) (bytes : List UInt8) : FileSystem :=
  { fs with files := (place, bytes) :: fs.files.filter fun f => f.1 != place }

/-- The file system after the file that a path leads to has been written. -/
def write (fs : FileSystem) (p : Path) (bytes : List UInt8) : Except FileError FileSystem := do
  return fs.put (← fs.locate p) bytes

/-- The place that a path leads to, and the file system in which there is a file at that place,
empty unless it was there. -/
def ensure (fs : FileSystem) (p : Path) : Except FileError (List Text × FileSystem) := do
  let place ← fs.locate p
  return (place, if (fs.file? place).isSome then fs else fs.put place [])

/-- Puts bytes behind those that a file has. -/
def append (fs : FileSystem) (place : List Text) (bytes : List UInt8) : FileSystem :=
  fs.put place ((fs.file? place).getD [] ++ bytes)

/-- The files that were not there before or had other bytes. -/
def changes (before after : FileSystem) : List (List Text × List UInt8) :=
  after.files.filter fun f => before.file? f.1 != some f.2

end FileSystem

end IttyBitty
