/-!
Source files: why one cannot be read, where an included file is looked for, and a tree of
directories held in memory.
-/

namespace Adventure

inductive ReadFailure
  | missing
  | isDirectory
  | notDirectory
  | nameTooLong
  | notText
  | other (reason : String)
deriving DecidableEq, Inhabited

def ReadFailure.reason : ReadFailure → String
  | .missing => "No such file or directory (os error 2)"
  | .isDirectory => "Is a directory (os error 21)"
  | .notDirectory => "Not a directory (os error 20)"
  | .nameTooLong => "File name too long (os error 36)"
  | .notText => "stream did not contain valid UTF-8"
  | .other reason => reason

def decodeSource (content : ByteArray) : Except ReadFailure String :=
  match String.fromUTF8? content with
  | some source => .ok source
  | none => .error .notText

def directoryPart (path : String) : String :=
  String.ofList (path.toList.reverse.dropWhile (· != '/')).reverse

/-- An included file is looked for beside the file that includes it. -/
def includePath (file target : String) : String :=
  if target.toList.head? = some '/' then target else directoryPart file ++ target

def pathSteps : List Char → List String
  | [] => [""]
  | c :: rest =>
      if c = '/' then "" :: pathSteps rest
      else match pathSteps rest with
        | [] => [String.singleton c]
        | step :: others => (String.singleton c ++ step) :: others

/-- A tree of directories. Files and directories are known by the names that lead to them from the
root. -/
structure Directory where
  directories : List (List String) := [[]]
  files : List (List String × ByteArray) := []

namespace Directory

/-- Where a step that is no name leads: nowhere else, or back to the parent. -/
def special? (place : List String) (step : String) : Option (List String) :=
  if step = "" ∨ step = "." then some place
  else if step = ".." then some place.dropLast
  else none

def put (tree : Directory) (place : List String) (content : ByteArray) : List String → Directory
  | [] => tree
  | [name] =>
      let path := place ++ [name]
      { tree with files := (path, content) :: tree.files.filter (·.1 != path) }
  | step :: others =>
      match special? place step with
      | some next => tree.put next content others
      | none =>
          let next := place ++ [step]
          let directories :=
            if tree.directories.contains next then tree.directories
            else next :: tree.directories
          { tree with directories }.put next content others

def ofFiles (files : List (String × ByteArray)) : Directory :=
  files.foldl (fun tree file => tree.put [] file.2 (pathSteps file.1.toList)) {}

def nameLimit : Nat := 255

def pathLimit : Nat := 4096

def follow (tree : Directory) (place : List String) : List String → Except ReadFailure ByteArray
  | [] => .error .isDirectory
  | step :: others =>
      match special? place step with
      | some next => tree.follow next others
      | none =>
          let next := place ++ [step]
          if nameLimit < step.utf8ByteSize then .error .nameTooLong
          else if tree.directories.contains next then tree.follow next others
          else
            match tree.files.lookup next with
            | none => .error .missing
            | some content => if others.isEmpty then .ok content else .error .notDirectory

/-- The text of the file that a path from the root leads to. Nothing outside the tree is found. -/
def read (tree : Directory) (path : String) : Except ReadFailure String :=
  if path.toList.head? = none ∨ path.toList.head? = some '/' then .error .missing
  else if pathLimit ≤ path.utf8ByteSize then .error .nameTooLong
  else (tree.follow [] (pathSteps path.toList)).bind decodeSource

end Directory

end Adventure
