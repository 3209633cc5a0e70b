import JsonPath.Text.Quoted

/-!
Files as the command line names them. A tree of files tells for each name which text is there or
why there is none: a name is followed from directory to directory, part by part, and the first part
that leads nowhere decides.
-/

namespace JsonPath.CommandLine

inductive FileFault where
  | missing
  | denied
  | notDirectory
  | directory
  | tooLong
  | other (reason : Text)
deriving DecidableEq, Repr

def FileFault.message (name : Text) : FileFault → Text
  | missing => "[Errno 2] No such file or directory: " ++ Text.quoted name
  | denied => "[Errno 13] Permission denied: " ++ Text.quoted name
  | notDirectory => "[Errno 20] Not a directory: " ++ Text.quoted name
  | directory => "[Errno 21] Is a directory: " ++ Text.quoted name
  | tooLong => "[Errno 36] File name too long: " ++ Text.quoted name
  | other reason => reason

/-- The longest name of a file in its directory, and the longest of all ways to it, in bytes. -/
def longestPart : Nat := 255

def longestName : Nat := 4095

/-- Whether the system can have a file of the name. A surrogate from U+DC80 to U+DCFF stands for a
byte that is no UTF-8. -/
def isFileName (name : Text) : Bool :=
  name.toList.all fun c => c ≠ '\x00' && (!c.isSurrogate || 0xDC80 ≤ c.toNat && c.toNat ≤ 0xDCFF)

def nameSize (name : Text) : Nat :=
  name.toList.foldl (fun size c => size + c.char?.elim 1 Char.utf8Size) 0

def nameParts : List CodePoint → List Text
  | [] => [""]
  | c :: rest =>
    match c, nameParts rest with
    | '/', parts => "" :: parts
    | c, [] => [.singleton c]
    | c, part :: parts => (.singleton c ++ part) :: parts

abbrev Path := List Text

/-- A tree of files, by the directories and the files in it. The root is always there. -/
structure Files where
  current : Path
  directories : List Path
  files : List (Path × Text)

namespace Files

def isDirectory (files : Files) (path : Path) : Bool := path.isEmpty || path ∈ files.directories

def text? (files : Files) (path : Path) : Option Text :=
  (files.files.find? (·.1 = path)).map (·.2)

/-- Follows the parts of a name from a place. An empty part stays where it is, as a dot does, but
only a directory has parts. -/
def follow (files : Files) (place : Path) : List Text → Except FileFault Path
  | [] => .ok place
  | part :: rest =>
    if !files.isDirectory place then .error .notDirectory
    else if part = "" ∨ part = "." then follow files place rest
    else if part = ".." then follow files place.dropLast rest
    else if longestPart < nameSize part then .error .tooLong
    else if files.isDirectory (place ++ [part]) ∨ (files.text? (place ++ [part])).isSome then
      follow files (place ++ [part]) rest
    else .error .missing

/-- The text of the file with a name. A name that starts with a slash starts from the root, and any
other from the current directory. -/
def read (files : Files) (name : Text) : Except FileFault Text := do
  if name = "" then .error .missing
  if longestName < nameSize name then .error .tooLong
  let place := if name.toList.head? = some '/' then [] else files.current
  let place ← files.follow place (nameParts name.toList)
  match files.text? place with
  | some text => return text
  | none => .error .directory

end Files

end JsonPath.CommandLine
