/-!
Files: the part of a file system that settings are read from.

A `FileTree` holds directories and files, each by the names on its way from the root, and knows
the working directory.  A path starts at the root if it begins with a slash, and at the working
directory if not.  It goes through every directory it names; `.` stays, `..` goes up
(`FileTree.resolve`).

Design notes: there is nothing above the root, so `..` stays there.  A path of more than 4095
bytes leads nowhere.  A file is opened by its full path, so one with a path that has just room can
be there and yet not be opened.
-/

namespace MetricStore.Settings

/-! ### Paths -/

/-- The names on a path, and the empty ones between two slashes or at an end. -/
def pathNames (path : String) : List String := (path.toList.splitOn '/').map String.ofList

/-- The name stays where it is. -/
def isIdle (name : String) : Bool := name = "" || name = "."

/-- The names on a path that do not stay where they are. -/
def properNames (path : String) : List String := (pathNames path).filter (!isIdle ·)

/-- Names put together to a path. -/
def joinNames (names : List String) : String := "/".intercalate names

/-- The path starts at the root. -/
def isAbsolute (path : String) : Bool := path.toList.head? = some '/'

/-- How many bytes a path may have. -/
def pathRoom : Nat := 4095

/-- Where a name leads from a directory, whether there is anything or not. -/
def step (names : List String) (name : String) : List String :=
  if isIdle name then names
  else if name = ".." then names.dropLast
  else names ++ [name]

/-- All directories on the way along some names, the first and the last one too. -/
def trail (start : List String) : List String → List (List String)
  | [] => [start]
  | name :: rest => start :: trail (step start name) rest

/-! ### Trees -/

/-- Directories and files, and the working directory. -/
structure FileTree where
  home : List String
  dirs : List (List String)
  files : List (List String × List UInt8)

/-- Where a path leads. -/
inductive Place where
  | dir (names : List String)
  | file (content : List UInt8)

namespace FileTree

/-- Where a path starts. -/
def startOf (home : List String) (path : String) : List String :=
  if isAbsolute path then [] else home

/-- The tree that comes of making some directories and then writing some files, with the working
directory and all directories on the way.  A file that is written again holds what was written
last. -/
def ofPaths (home : List String) (dirs : List String) (files : List (String × List UInt8)) :
    FileTree where
  home := home
  dirs := trail [] home
    ++ dirs.flatMap (fun path => trail (startOf home path) (pathNames path))
    ++ files.flatMap fun file => trail (startOf home file.1) (pathNames file.1).dropLast
  files := files.reverse.map fun (path, content) =>
    ((pathNames path).foldl step (startOf home path), content)

/-- What stands under some names, if anything. -/
def at? (t : FileTree) (names : List String) : Option Place :=
  match t.files.lookup names with
  | some content => some (.file content)
  | none => if t.dirs.contains names then some (.dir names) else none

/-- One name further. -/
def enter (t : FileTree) (place : Place) (name : String) : Option Place :=
  match place with
  | .file _ => none
  | .dir names => t.at? (step names name)

/-- Where a path leads, if anywhere. -/
def resolve (t : FileTree) (path : String) : Option Place :=
  if path = "" || pathRoom < path.utf8ByteSize then none
  else (pathNames path).foldlM t.enter (.dir (startOf t.home path))

/-- The path from the root to what a path means. -/
def fullPath (t : FileTree) (path : String) : String :=
  if isAbsolute path then path else "/" ++ joinNames (t.home ++ [path])

/-- What the file at a path holds, if there is a file and it can be opened. -/
def contentAt? (t : FileTree) (path : String) : Option (List UInt8) :=
  match t.resolve (t.fullPath path) with
  | some (.file content) => some content
  | _ => none

/-! ### Files of settings -/

/-- The extension of settings. -/
def extension : String := ".toml"

/-- The name has the extension of settings, and something before it. -/
def isSettingsName (name : String) : Bool :=
  extension.toList.isSuffixOf name.toList && extension.length < name.length

/-- The path with the extension of settings added to its last name. -/
def beside (path : String) : String :=
  joinNames ((pathNames path).reverse.dropWhile isIdle).reverse ++ extension

/-- A file of settings: where it is, as messages say it, and what it holds. -/
structure Found where
  path : String
  content : List UInt8

/-- The file of settings that a path means: the file there if it has the right extension, or the
file beside a directory that is named like it with the extension added. -/
def locate (t : FileTree) (path : String) : Option Found := do
  let last ← (properNames path).getLast?
  match t.contentAt? path with
  | some content =>
    if isSettingsName last then some ⟨joinNames (properNames path), content⟩ else none
  | none =>
    -- No file: the one beside counts, if what is there has a name of its own.
    if last = ".." then none
    else
      let content ← t.contentAt? (beside path)
      return ⟨joinNames (properNames (beside path)), content⟩

end FileTree

end MetricStore.Settings
