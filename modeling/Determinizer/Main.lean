import Determinizer.Command.Run

/-! The program: the command on the files of the system, with the default settings. -/

namespace Determinizer.Command

/-- System error 20, which some calls report with its sign turned, is a file taken for a folder, and
36 is a name that is too long. -/
private def fileFault : IO.Error → FileFault
  | .inappropriateType _ code _ => if code = 20 ∨ code = -20 then .notDirectory else .isDirectory
  | .invalidArgument _ 36 _ => .nameTooLong
  | _ => .absent

private def readFile (path : String) : IO (Except FileFault (List UInt8)) := do
  try return .ok (← IO.FS.readBinFile path).toList
  catch e => return .error (fileFault e)

private def writeFile (path text : String) : IO (Except FileFault Unit) := do
  try
    IO.FS.writeFile path text
    return .ok ()
  catch e => return .error (fileFault e)

private def print (r : Report) : IO UInt32 := do
  IO.print r.stdout
  IO.eprint (r.stderr.getD "usage: determinizer path [-o OUTPUT] [--delimiter DELIMITER]\n")
  return r.exit.toUInt32

private def crash (c : Crash) : IO UInt32 := do
  IO.eprintln c.message
  return 1

private def finish (i : Invocation) (p : Product) : IO UInt32 := do
  match p.output with
  | none => print (i.success p)
  | some (path, text) =>
    match ← writeFile path text with
    | .ok _ => print (i.success p)
    | .error fault =>
      IO.print (lineEnded p.text)
      crash (.unwritable path fault)

private def runInvocation (i : Invocation) : IO UInt32 := do
  match i.product Settings.default (← readFile i.path) with
  | .error c => crash c
  | .ok (.ok p) => finish i p
  | .ok (.error e) =>
    match i.failure e with
    | .error c => crash c
    | .ok report => print report

end Determinizer.Command

open Determinizer.Command in
def main (args : List String) : IO UInt32 := do
  match Usage.of args with
  | .invalid => print ⟨2, "", none⟩
  | .information => print ⟨0, "", none⟩
  | .invocation i => runInvocation i
