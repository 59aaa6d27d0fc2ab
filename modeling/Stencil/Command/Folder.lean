import Stencil.Command.Path
import Stencil.Dictionary
import Stencil.Text.Quoted

/-!
# Folders

What the command line needs of files is to look a path up: that gives the content of a file, or
the reason why there is none. `Folder` answers for files that are at hand; the outermost layer
asks the disk.
-/

set_option autoImplicit false

namespace Stencil

/-- Why a path gives no content. The faults differ in what they lead to: a profile that is not there
is no fault at all, while one that can not be read is. -/
inductive FileFault where
  | missing
  /-- A step leads on from a file. -/
  | throughFile
  | folder
  | denied
  /-- The path or one of its steps is longer than any name. -/
  | tooLong
  /-- The path holds the character that no path can hold. -/
  | nullCharacter
  /-- The content is no text. -/
  | noText
deriving DecidableEq

namespace FileFault

def numbered (number : Nat) (reason : String) (p : Path) : String :=
  "[Errno " ++ toString number ++ "] " ++ reason ++ ": " ++ quoted p.text

def message (p : Path) : FileFault → String
  | .missing => numbered 2 "No such file or directory" p
  | .denied => numbered 13 "Permission denied" p
  | .throughFile => numbered 20 "Not a directory" p
  | .folder => numbered 21 "Is a directory" p
  | .tooLong => numbered 36 "File name too long" p
  | .nullCharacter => "embedded null byte"
  | .noText => "content is no text in the encoding"

/-- Whether there is no file at a path, rather than one that gives no content. A folder is no file,
and neither is what a path names that can not be a path. -/
def isAbsence : FileFault → Bool
  | .missing | .throughFile | .folder | .nullCharacter => true
  | .denied | .tooLong | .noText => false

end FileFault

/-- What a path leads to. Commands take this as a parameter: they are told what is on the disk, and
nothing in them depends on when it is read. -/
abbrev Look := Path → Except FileFault String

/-- Files under paths that start in one place. Folders are not listed: there is one wherever a file
lies further down. -/
structure Folder where
  files : List (Path × String)

namespace Folder

def ofEntries (d : Dictionary String) : Folder := ⟨d.entries.map fun (k, v) => (Path.ofText k, v)⟩

def file? (f : Folder) (steps : List (List Char)) : Option String := f.files.lookup ⟨0, steps⟩

def isFolder (f : Folder) (steps : List (List Char)) : Bool :=
  steps.isEmpty ||
    f.files.any fun e => steps.isPrefixOf e.1.steps && steps.length < e.1.steps.length

/-- The most bytes that a step can have. Bytes count, and not characters: a name in another script
than Latin reaches the limit sooner. -/
def stepLimit : Nat := 255

def pathLimit : Nat := 4095

def exceeds (limit : Nat) (cs : List Char) : Bool := limit < (String.ofList cs).utf8ByteSize

/-- What steps lead to outside of the folder. Above every place there is another one, but no name is
known there, so what is found is never a file. -/
def walkOutside : List (List Char) → FileFault
  | [] => .folder
  | step :: rest =>
    if step = ['.', '.'] then walkOutside rest
    else if exceeds stepLimit step then .tooLong
    else .missing

/-- What further steps lead to from a place in the folder. A step that is too long is refused when
it is reached, so a name that is missing in front of it is found missing first. -/
def walk (f : Folder) (here : List (List Char)) : List (List Char) → Except FileFault String
  | [] => .error .folder
  | step :: rest =>
    if step = ['.', '.'] then
      if here.isEmpty then .error (walkOutside rest) else walk f here.dropLast rest
    else if exceeds stepLimit step then .error .tooLong
    else
      let there := here ++ [step]
      match f.file? there with
      | some content => if rest.isEmpty then .ok content else .error .throughFile
      | none => if f.isFolder there then walk f there rest else .error .missing

/-- Looks a path up. A path as a whole is measured before its first step is taken, and one that
starts at a root leads out of the folder. -/
def look (f : Folder) : Look := fun p =>
  if p.chars.contains '\x00' then .error .nullCharacter
  else if exceeds pathLimit p.chars then .error .tooLong
  else if p.slashes = 0 then f.walk [] p.steps
  else .error (walkOutside p.steps)

end Folder

end Stencil
