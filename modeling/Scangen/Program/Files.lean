import Scangen.Program.Path

/-!
Files by name. What the program needs to know of a file system is what a name reads as and whether it can
be written. The simplest one is a directory that holds nothing but files. Around it are the directories and
the device that every system has, and no file is known in them.
-/

namespace Scangen.Program

inductive FileError where
  | missing
  | isDirectory
  | notDirectory
  | nameTooLong
  | notText
deriving DecidableEq

def FileError.message : FileError → String
  | missing => "No such file or directory (os error 2)"
  | isDirectory => "Is a directory (os error 21)"
  | notDirectory => "Not a directory (os error 20)"
  | nameTooLong => "File name too long (os error 36)"
  | notText => "stream did not contain valid UTF-8"

/-- What a name reads as. -/
abbrev Contents := String → Except FileError (List UInt8)

def decodeText (bytes : List UInt8) : Except FileError (List Char) :=
  match String.fromUTF8? ⟨bytes.toArray⟩ with
  | some text => .ok text.toList
  | none => .error .notText

def Contents.readText (contents : Contents) (file : String) : Except FileError (List Char) :=
  match contents file with
  | .ok bytes => decodeText bytes
  | .error e => .error e

/-- A directory that holds nothing but files. -/
structure Directory where
  files : List (String × List UInt8)

/-- Where a path can lead. -/
inductive Place where
  /-- The directory that the program runs in. -/
  | here
  | root
  /-- The directory of devices. -/
  | devices
  /-- A directory of which nothing is known but that it is there. -/
  | elsewhere
  | file (name : String)
  /-- The device that holds nothing and forgets what is written. -/
  | void
deriving DecidableEq

def Place.isDirectory : Place → Bool
  | here | root | devices | elsewhere => true
  | file _ | void => false

namespace Directory

def holds (d : Directory) (name : String) : Bool := (d.files.lookup name).isSome

/-- Puts a file in, in the place of another one of its name. -/
def put (d : Directory) (name : String) (bytes : List UInt8) : Directory :=
  ⟨(name, bytes) :: d.files.filter fun file => file.1 ≠ name⟩

/-- The directory that holds a directory. -/
def parent : Place → Place
  | .root | .devices => .root
  | _ => .elsewhere

def entry (d : Directory) (place : Place) (name : String) : Except FileError Place :=
  match place, name with
  | .root, "dev" => .ok .devices
  | .root, "tmp" => .ok .elsewhere
  | .devices, "null" => .ok .void
  | .here, name => if d.holds name then .ok (.file name) else .error .missing
  | _, _ => .error .missing

/-- Follows one name. Only in a directory is there anything to follow. -/
def step (d : Directory) (place : Place) (name : String) : Except FileError Place :=
  if !place.isDirectory then .error .notDirectory
  else if name = "." then .ok place
  else if name = ".." then .ok (parent place)
  else if isLongName name then .error .nameTooLong
  else d.entry place name

def follow (d : Directory) (path : Path) (names : List String) : Except FileError Place :=
  if path.tooLong then .error .nameTooLong
  else names.foldlM d.step (if path.rooted then .root else .here)

def contents (d : Directory) : Contents := fun text =>
  let path := Path.ofText text
  match d.follow path (if path.closed then path.names ++ ["."] else path.names) with
  | .error e => .error e
  | .ok (.file name) => .ok ((d.files.lookup name).getD [])
  | .ok .void => .ok []
  | .ok _ => .error .isDirectory

/-- What a directory becomes by a file of a new name in some place. -/
def create (d : Directory) (place : Place) (name : String) (bytes : List UInt8) : Directory :=
  if place = .here then d.put name bytes else d

/-- A file is made in a directory that is there already. -/
def write (d : Directory) (text : String) (bytes : List UInt8) : Except FileError Directory :=
  let path := Path.ofText text
  match d.follow path (path.names.dropLast ++ ["."]), path.names.getLast? with
  | .error e, _ => .error e
  | .ok _, none => .error .isDirectory
  | .ok place, some name =>
    if path.closed then .error .isDirectory
    else
      match d.step place name with
      | .ok (.file old) => .ok (d.put old bytes)
      | .ok .void => .ok d
      | .ok _ => .error .isDirectory
      | .error .missing => .ok (d.create place name bytes)
      | .error e => .error e

end Directory

end Scangen.Program
