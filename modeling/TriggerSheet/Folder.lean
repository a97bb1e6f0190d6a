import TriggerSheet.Text.Ascii

/-!
# Folders of files

What can be read under a path: the content of a file, or the reason why there is none. A path is
walked from left to right, one part between slashes after the other, and the first part that leads
nowhere decides. A path without a leading slash starts in a folder that holds files and no other
folders; of the folders around it nothing is known but that they are folders.

## Main definitions

* `ReadFailure` — why nothing can be read, with the text of the system
* `Place`, `Folder.enter` — where a path has led so far, and where its next part leads
* `Folder.read` — what can be read under a path
-/

namespace TriggerSheet

/-- Why the content of a file cannot be had as a text. -/
inductive ReadFailure where
  | notFound
  | notFolder
  | isFolder
  | nameTooLong
  | notText
  | other (message : String)
  deriving DecidableEq, Repr

/-- The text of the system for a failure. -/
def ReadFailure.message : ReadFailure → String
  | notFound => "No such file or directory (os error 2)"
  | notFolder => "Not a directory (os error 20)"
  | isFolder => "Is a directory (os error 21)"
  | nameTooLong => "File name too long (os error 36)"
  | notText => "stream did not contain valid UTF-8"
  | other message => message

/-- Where a path has led so far. -/
inductive Place where
  /-- The folder in which paths without a leading slash start. -/
  | here
  /-- A folder outside, in which no name is known. -/
  | outside
  | file (content : ByteArray)

namespace Place

/-- Where a path starts, given its characters. -/
def start : List Char → Place
  | '/' :: _ => outside
  | _ => here

/-- What can be read at the end of a path. -/
def content : Place → Except ReadFailure ByteArray
  | file content => .ok content
  | _ => .error .isFolder

end Place

/-- A folder that holds files and no other folders. Of two files of one name, the later one has
replaced the earlier one. -/
structure Folder where
  files : List (String × ByteArray)

namespace Folder

/-- The largest number of bytes in one part of a path. -/
def longestName : Nat := 255

/-- The largest number of bytes in a path. -/
def longestPath : Nat := 4095

/-- The place under a name, among the names of the folder itself or of those outside. -/
def find (folder : Folder) (place : Place) (name : String) : Except ReadFailure Place :=
  if longestName < name.utf8ByteSize then .error .nameTooLong
  else
    match place, folder.files.reverse.lookup name with
    | .here, some content => .ok (.file content)
    | _, _ => .error .notFound

/-- The place that one more part of a path leads to. Nothing leads on from a file, neither an
empty part nor a dot, both of which stay in a folder. -/
def enter (folder : Folder) : Place → String → Except ReadFailure Place
  | .file _, _ => .error .notFolder
  | place, "" => .ok place
  | place, "." => .ok place
  | _, ".." => .ok .outside
  | place, name => folder.find place name

/-- What can be read under a path. -/
def read (folder : Folder) (path : String) : Except ReadFailure ByteArray :=
  if longestPath < path.utf8ByteSize then .error .nameTooLong
  else if path.isEmpty then .error .notFound
  else
    let parts := (Text.splitOn '/' path.toList).map String.ofList
    (parts.foldlM folder.enter (.start path.toList)).bind Place.content

end Folder

end TriggerSheet
