import Determinizer.Command.Arguments
import Determinizer.Command.Files
import Determinizer.Config.Document
import Determinizer.Dfa.Document
import Determinizer.Dfa.TextTable
import Determinizer.Settings

/-! The command: it reads a configuration from a file, prints its table as text, and on demand
writes the table as JSON to another file. A document that cannot be converted is reported; a limit
of the reader that is exceeded and a file that cannot be written break the command off, and where a
traceback is asked for so does what is otherwise reported. -/

namespace Determinizer.Command

inductive CommandError where
  | colors
  | unreadable (path : String) (fault : FileFault)
  | rejected (rejection : Rejection)
  | labels (fault : LabelFault)
deriving DecidableEq, Repr

def CommandError.message : CommandError → String
  | colors => "The --no-color and --force-color options can't be used together."
  | unreadable path fault => s!"Cannot read {path}: {fault.message path}"
  | rejected r => r.message
  | labels fault => fault.message

inductive Crash where
  | limit (limit : Json.Limit)
  | unwritable (path : String) (fault : FileFault)
  | nullInPath
  | nullDelimiter
  | withheldDelimiter
  | raised (error : CommandError)
deriving DecidableEq, Repr

def Crash.message : Crash → String
  | limit l => l.message
  | unwritable path fault => fault.message path
  | nullInPath => "embedded null byte"
  | nullDelimiter => Settings.nullDelimiterMessage
  | withheldDelimiter => "'list' object has no attribute 'join'"
  | raised e => e.message

structure Product where
  text : String
  output : Option (String × String)
deriving DecidableEq, Repr

/-- Exit code and printed texts; what is printed about a wrong command line is left open. -/
structure Report where
  exit : Nat
  stdout : String
  stderr : Option String
deriving DecidableEq, Repr

def lineEnded (s : String) : String := if s.endsWith "\n" then s else s ++ "\n"

def hasNull (path : String) : Bool := path.toList.contains '\x00'

namespace Invocation
variable (i : Invocation)

def outputPath? : Option String := i.output.filter (· ≠ "")

def separator (settings : Settings) : Except Crash String :=
  match i.delimiter, settings.delimiter with
  | .given delimiter, _ | .setting, some delimiter => .ok delimiter
  | .setting, none => .error .nullDelimiter
  | .withheld, _ => .error .withheldDelimiter

/-- What the command makes of the bytes at its path. Labels are checked even where nothing can go
between them: they count as single characters then. -/
def product [Host] (settings : Settings) (input : Except FileFault (List UInt8)) :
    Except Crash (Except CommandError Product) :=
  if i.switches.noColor ∧ i.switches.forceColor then .ok (.error .colors)
  else if hasNull i.path then .error .nullInPath
  else
    match input with
    | .error fault => .ok (.error (.unreadable i.path fault))
    | .ok bytes =>
      match Config.loadBytes bytes with
      | .error (.limit l) => .error (.limit l)
      | .error (.rejected r) => .ok (.error (.rejected r))
      | .ok c =>
        let separator := i.separator settings
        match c.checkLabels (separator.toOption.getD ""), separator with
        | .error fault, _ => .ok (.error (.labels fault))
        | .ok _, .error crash => .error crash
        | .ok _, .ok delimiter =>
          let table := c.determinize delimiter
          let output := i.outputPath?.map fun path => (path, table.dump)
          .ok (.ok ⟨table.text c.alphabet, output⟩)

def failure (e : CommandError) : Except Crash Report :=
  if i.switches.traceback then .error (.raised e)
  else .ok ⟨1, "", some (lineEnded s!"CommandError: {e.message}")⟩

def note (path : String) : String :=
  let text := s!"DFA table written to {path}"
  lineEnded (if i.switches.forceColor then s!"\x1b[32;1m{text}\x1b[0m" else text)

def success (p : Product) : Report :=
  let written := match p.output with
    | none => ""
    | some (path, _) => i.note path
  ⟨0, lineEnded p.text ++ written, some ""⟩

def run [Host] (settings : Settings) (folder : Folder) : Except Crash (Report × Folder) := do
  match ← i.product settings (folder.read i.path) with
  | .error e => return (← i.failure e, folder)
  | .ok p =>
    match p.output with
    | none => return (i.success p, folder)
    | some (path, text) =>
      if hasNull path then throw .nullInPath
      match folder.write path (Encoding.Utf8.encode text.toList) with
      | .error fault => throw (.unwritable path fault)
      | .ok folder => return (i.success p, folder)

end Invocation

def run [Host] (settings : Settings) (folder : Folder) (args : List String) :
    Except Crash (Report × Folder) :=
  match Usage.of args with
  | .invalid => .ok (⟨2, "", none⟩, folder)
  | .information => .ok (⟨0, "", none⟩, folder)
  | .invocation i => i.run settings folder

end Determinizer.Command
