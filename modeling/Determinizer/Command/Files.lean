import Determinizer.Text.Quoted
import Determinizer.Text.Split

/-! The files that a command sees: those in a folder and its subfolders, by their path from the
folder. A subfolder is there if a file is in it. Of what lies outside only the null device can be
read and written: it holds nothing and keeps nothing. -/

namespace Determinizer.Command

inductive FileFault where
  | absent
  | isDirectory
  | notDirectory
  | nameTooLong
deriving DecidableEq, Repr

def FileFault.message (fault : FileFault) (path : String) : String :=
  let cause := match fault with
    | absent => "[Errno 2] No such file or directory"
    | isDirectory => "[Errno 21] Is a directory"
    | notDirectory => "[Errno 20] Not a directory"
    | nameTooLong => "[Errno 36] File name too long"
  s!"{cause}: {Text.quoted path}"

structure Folder where
  files : List (List String × List UInt8)

inductive Node where
  | file (bytes : List UInt8)
  | directory (path : List String)
  | outside

def maxNameBytes : Nat := 255

def maxPathBytes : Nat := 4095

def isNullDevice (path : String) : Bool :=
  path.startsWith "/" && !path.endsWith "/" &&
    (Text.split "/" path).filter (fun n => n ≠ "" ∧ n ≠ ".") = ["dev", "null"]

namespace Folder

def ofList (files : List (String × List UInt8)) : Folder :=
  ⟨files.map fun f => (Text.split "/" f.1, f.2)⟩

variable (folder : Folder)

def step : Node → String → Except FileFault Node
  | .file _, _ => .error .notDirectory
  | .directory path, name =>
    if name = "" ∨ name = "." then .ok (.directory path)
    else if name = ".." then .ok (if path.isEmpty then .outside else .directory path.dropLast)
    else if maxNameBytes < name.utf8ByteSize then .error .nameTooLong
    else
      let path := path ++ [name]
      match folder.files.lookup path with
      | some bytes => .ok (.file bytes)
      | none =>
        if folder.files.any fun f => path.isPrefixOf f.1 then .ok (.directory path)
        else .error .absent
  | .outside, name =>
    if name = "" ∨ name = "." ∨ name = ".." then .ok .outside
    else if maxNameBytes < name.utf8ByteSize then .error .nameTooLong
    else .error .absent

def walk (absolute : Bool) (parts : List String) : Except FileFault Node :=
  parts.foldlM folder.step (if absolute then .outside else .directory [])

def read (path : String) : Except FileFault (List UInt8) :=
  if path = "" then .error .absent
  else if maxPathBytes < path.utf8ByteSize then .error .nameTooLong
  else if isNullDevice path then .ok []
  else
    match folder.walk (path.startsWith "/") (Text.split "/" path) with
    | .error fault => .error fault
    | .ok (.file bytes) => .ok bytes
    | .ok _ => .error .isDirectory

def put (path : List String) (bytes : List UInt8) : Folder :=
  ⟨(path, bytes) :: folder.files.filter (·.1 ≠ path)⟩

def write (path : String) (bytes : List UInt8) : Except FileFault Folder := do
  if path = "" then throw .absent
  if maxPathBytes < path.utf8ByteSize then throw .nameTooLong
  if isNullDevice path then return folder
  let parts := (Text.split "/" path).reverse
  let named := parts.dropWhile (· = "")
  let parent ← folder.walk (path.startsWith "/") (named.drop 1).reverse
  match named, parent with
  | _, .file _ => throw .notDirectory
  | [], _ => throw .isDirectory
  | name :: _, .outside =>
    if name = "." ∨ name = ".." then throw .isDirectory
    else if maxNameBytes < name.utf8ByteSize then throw .nameTooLong
    else throw .absent
  | name :: _, .directory directory =>
    -- a slash at the end asks for a directory
    if parts.length ≠ named.length ∨ name = "." ∨ name = ".." then throw .isDirectory
    let target := directory ++ [name]
    match folder.step (.directory directory) name with
    | .ok (.directory _) => throw .isDirectory
    | .error .nameTooLong => throw .nameTooLong
    | _ => return folder.put target bytes

end Folder
end Determinizer.Command
