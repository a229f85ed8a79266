/-!
# Files

A small store of files: the bytes of each file under its path, and the directories. Reading a file
as text fails for four reasons, each with the wording that users of the program know.

Paths are lists of names. A path text is cut at its slashes; empty names and single dots do not
count, and two dots take back the name before. A path leads from the root, from the working
directory or, if it begins with two dots, from a directory above that one. The store does not know
where the working directory is, so it holds a file under each of the paths that are used for it.
-/

set_option autoImplicit false

namespace HealthWatch

/-- Why a file cannot be read as text. -/
inductive ReadFailure where
  | notFound
  | notDirectory
  | isDirectory
  | notText
  | nameTooLong
  | nameWithNul
  /-- Any other failure, in the system's words. -/
  | other (words : String)
deriving Repr, DecidableEq

namespace ReadFailure

/-- The wording of a failure to read a file. -/
def message : ReadFailure → String
  | notFound => "No such file or directory (os error 2)"
  | notDirectory => "Not a directory (os error 20)"
  | isDirectory => "Is a directory (os error 21)"
  | notText => "stream did not contain valid UTF-8"
  | nameTooLong => "File name too long (os error 36)"
  | nameWithNul => "file name contained an unexpected NUL byte"
  | other words => words

end ReadFailure

/-- A path as the names on it, the outermost first. One that leads from the root has a slash for its
first name. -/
abbrev FilePath := List String

namespace FilePath

/-- Cuts a list of characters at every slash. -/
def cut : List Char → List (List Char)
  | [] => [[]]
  | '/' :: rest => [] :: cut rest
  | c :: rest =>
    match cut rest with
    | [] => [[c]]
    | name :: names => (c :: name) :: names

/-- The path of the root. -/
def root : FilePath :=
  ["/"]

/-- Does a path lead from the working directory to itself or to a directory above it? -/
def climbs (path : FilePath) : Bool :=
  path.all (· == "..")

/-- The directory above. The root is above itself. -/
def up (path : FilePath) : FilePath :=
  if path = root then root else if path.climbs then path ++ [".."] else path.dropLast

/-- Adds a name to a path; two dots take one away. -/
def enter (path : FilePath) (name : String) : FilePath :=
  if name = "" || name = "." then path
  else if name = ".." then path.up
  else path ++ [name]

/-- The names between the slashes of a path text. -/
def names (text : String) : List String :=
  (cut text.toList).map String.ofList

/-- Where a path text starts from. -/
def start (text : String) : FilePath :=
  if text.toList.head? = some '/' then root else []

/-- The path that a text stands for. -/
def ofText (text : String) : FilePath :=
  (names text).foldl enter (start text)

/-- The name of the file that a path leads to; the root has none, and neither has a directory above
the working directory. -/
def fileName? (path : FilePath) : Option String :=
  if path = root || path.climbs then none else path.getLast?

/-- The directory that a path's last name stands in. -/
def directory (path : FilePath) : FilePath :=
  path.dropLast

end FilePath

/-- The files and directories that there are. -/
structure Files where
  contents : List (FilePath × ByteArray) := []
  directories : List FilePath := []

namespace Files

/-- What the file at a path holds, if there is one. -/
def bytes? (files : Files) (path : FilePath) : Option ByteArray :=
  files.contents.lookup path

/-- Is there a directory at a path? One stands above every file and directory in the store. -/
def isDirectory (files : Files) (path : FilePath) : Bool :=
  path == FilePath.root || path.climbs || files.directories.any (fun d => path.isPrefixOf d) ||
    files.contents.any (fun entry => path.isPrefixOf entry.1.dropLast)

/-- The store with a file written. -/
def write (files : Files) (path : FilePath) (bytes : ByteArray) : Files :=
  { files with contents := (path, bytes) :: files.contents.filter (fun entry => entry.1 != path) }

/-- The store without a file. -/
def remove (files : Files) (path : FilePath) : Files :=
  { files with
    contents := files.contents.filter (fun entry => entry.1 != path)
    directories := files.directories ++ [path.dropLast] }

/-- The store with a file moved over to another path. -/
def rename (files : Files) (source target : FilePath) : Files :=
  match files.bytes? source with
  | none => files
  | some bytes => (files.remove source).write target bytes

/-- The store with a directory made. -/
def makeDirectory (files : Files) (path : FilePath) : Files :=
  { files with directories := files.directories ++ [path] }

/-- Follows names from a directory in the store. Every name but the last must be that of a
directory. -/
def walk (files : Files) (path : FilePath) : List String → Except ReadFailure FilePath
  | [] => .ok path
  | name :: rest =>
    if (files.bytes? path).isSome then .error .notDirectory
    else if 255 < name.utf8ByteSize then .error .nameTooLong
    else
      let next := FilePath.enter path name
      if (files.bytes? next).isSome || files.isDirectory next then walk files next rest
      else .error .notFound

/-- Reads a file as text. -/
def readText (files : Files) (name : String) : Except ReadFailure String := do
  if name.toList.contains '\x00' then .error .nameWithNul
  else if 4096 ≤ name.utf8ByteSize then .error .nameTooLong
  else if name = "" then .error .notFound
  else
    let path ← files.walk (FilePath.start name) (FilePath.names name)
    match files.bytes? path with
    | none => .error .isDirectory
    | some bytes =>
      match String.fromUTF8? bytes with
      | some text => .ok text
      | none => .error .notText

/-- Names that can be followed lead to the path that they spell. -/
theorem eq_foldl_of_walk {files : Files} {path target : FilePath} {names : List String}
    (h : files.walk path names = .ok target) : target = names.foldl FilePath.enter path := by
  induction names generalizing path with
  | nil => exact (Except.ok.inj h).symm
  | cons name rest ih =>
    rw [walk] at h
    split at h
    · cases h
    · split at h
      · cases h
      · dsimp only at h
        split at h
        · exact ih h
        · cases h

/-- What is read under a path text is the text of the file that the store holds under that path,
wherever the path leads from. -/
theorem bytes?_of_readText {files : Files} {name text : String}
    (h : files.readText name = .ok text) :
    ∃ bytes, files.bytes? (FilePath.ofText name) = some bytes ∧
      String.fromUTF8? bytes = some text := by
  unfold readText at h
  split at h
  · cases h
  · split at h
    · cases h
    · split at h
      · cases h
      · cases hwalk : files.walk (FilePath.start name) (FilePath.names name) with
        | error failure =>
          rw [hwalk] at h
          cases h
        | ok path =>
          rw [hwalk] at h
          obtain rfl : path = FilePath.ofText name := eq_foldl_of_walk hwalk
          dsimp only [bind, Except.bind] at h
          split at h
          · cases h
          · rename_i bytes hbytes
            split at h
            · rename_i read htext
              exact ⟨bytes, hbytes, htext.trans (congrArg some (Except.ok.inj h))⟩
            · cases h

/-- A file is read under a path from the root as well as under one from the working directory. -/
example :
    let files : Files := { contents := [(["/", "e"], "one".toUTF8), (["e"], "two".toUTF8)] }
    files.readText "/e" = .ok "one" ∧ files.readText "e" = .ok "two" := by
  constructor <;> cbv

end Files

end HealthWatch
