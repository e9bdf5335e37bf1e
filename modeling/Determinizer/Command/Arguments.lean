import Determinizer.Text.Digit

/-! The command line: one path and options, in any order. A long option may be cut short as long as
no other option starts the same way, and takes its value after `=` or from the next argument; a
short one also takes what follows its letter. An argument that looks like an option is no value,
unless it is a negative number or holds a space. After `--` nothing is an option.

Arguments are read from the left, and what is asked for first is answered: a request for information
is met before anything is said of a path that is missing or of arguments that are too many, but not
before an abbreviation that stands for two options. -/

namespace Determinizer.Command

inductive DelimiterChoice where
  | setting
  | given (delimiter : String)
  | withheld
deriving DecidableEq, Repr

structure Switches where
  traceback : Bool
  noColor : Bool
  forceColor : Bool
deriving DecidableEq, Repr

structure Invocation where
  path : String
  output : Option String
  delimiter : DelimiterChoice
  switches : Switches
deriving DecidableEq, Repr

/-- What an option is for. Verbosity and checks have no bearing on the conversion; which settings
are in force, and where they were found, is settled before it starts. -/
inductive OptionKind where
  | output
  | delimiter
  | verbosity
  | settings
  | modulePath
  | traceback
  | noColor
  | forceColor
  | skipChecks
  | information
deriving DecidableEq, Repr

def OptionKind.takesValue : OptionKind → Bool
  | output | delimiter | verbosity | settings | modulePath => true
  | traceback | noColor | forceColor | skipChecks | information => false

def options : List (String × OptionKind) :=
  [ ("-h", .information), ("--help", .information), ("--version", .information),
    ("-v", .verbosity), ("--verbosity", .verbosity), ("--settings", .settings),
    ("--pythonpath", .modulePath), ("--traceback", .traceback), ("--no-color", .noColor),
    ("--force-color", .forceColor), ("--skip-checks", .skipChecks), ("-o", .output),
    ("--output", .output), ("--delimiter", .delimiter) ]

structure Mention where
  kind : OptionKind
  short : Bool
  attached : Option String
deriving DecidableEq, Repr

inductive Token where
  | value (text : String)
  | option (mention : Mention)
  | divider
  | unknown
  | ambiguous
deriving DecidableEq, Repr

def cutAtEquals (arg : String) : Option (String × String) :=
  match arg.toList.span (· ≠ '=') with
  | (before, _ :: after) => some (String.ofList before, String.ofList after)
  | (_, []) => none

def isNegativeNumber (arg : String) : Bool :=
  let s := arg.toList
  let s := if s.getLast? = some '\n' then s.dropLast else s
  match s with
  | '-' :: s =>
    match s.dropWhile Text.isDecimalDigit with
    | [] => !s.isEmpty
    | '.' :: digits => !digits.isEmpty && digits.all Text.isDecimalDigit
    | _ => false
  | _ => false

def abbreviated (arg : String) : List Mention :=
  if arg.startsWith "--" then
    let (name, attached) := match cutAtEquals arg with
      | some (name, value) => (name, some value)
      | none => (arg, none)
    (options.filter fun o => name.toList.isPrefixOf o.1.toList).map fun o =>
      ⟨o.2, false, attached⟩
  else
    let name := String.ofList (arg.toList.take 2)
    (options.filter (·.1 = name)).map fun o =>
      ⟨o.2, true, some (String.ofList (arg.toList.drop 2))⟩

def named? (arg : String) : Option Mention :=
  let short := !arg.startsWith "--"
  match options.lookup arg with
  | some kind => some ⟨kind, short, none⟩
  | none => do
    let (name, value) ← cutAtEquals arg
    return ⟨← options.lookup name, short, some value⟩

def Token.of (arg : String) : Token :=
  if arg = "-" ∨ !arg.startsWith "-" then .value arg
  else
    match named? arg, abbreviated arg with
    | some mention, _ => .option mention
    | none, [mention] => .option mention
    | none, _ :: _ :: _ => .ambiguous
    | none, [] =>
      if isNegativeNumber arg ∨ arg.toList.contains ' ' then .value arg else .unknown

def tokens : List String → List Token
  | [] => []
  | arg :: args => if arg = "--" then .divider :: args.map .value else .of arg :: tokens args

inductive Usage where
  | invocation (i : Invocation)
  | information
  | invalid
deriving DecidableEq, Repr

structure Progress where
  path : Option String
  output : Option String
  delimiter : DelimiterChoice
  switches : Switches
  surplus : Bool
deriving DecidableEq, Repr

namespace Progress

def start : Progress := ⟨none, none, .setting, ⟨false, false, false⟩, false⟩

def isVerbosity (value : String) : Bool :=
  match Text.integer? value.toList with
  | some n => 0 ≤ n ∧ n ≤ 3
  | none => false

def withValue (p : Progress) : OptionKind → Option String → Option Progress
  | .output, value => some { p with output := value }
  | .delimiter, some value => some { p with delimiter := .given value }
  | .delimiter, none => some { p with delimiter := .withheld }
  | .verbosity, some value => if isVerbosity value then some p else none
  | _, _ => some p

def withSwitch (p : Progress) : OptionKind → Progress
  | .traceback => { p with switches.traceback := true }
  | .noColor => { p with switches.noColor := true }
  | .forceColor => { p with switches.forceColor := true }
  | _ => p

def finish (p : Progress) : Usage :=
  match p.path, p.surplus with
  | some path, false => .invocation ⟨path, p.output, p.delimiter, p.switches⟩
  | _, _ => .invalid

/-- What letters attached to the request for information have to be: short options, of which the
first that takes a value takes the letters after it, or else the next argument. -/
def lettersFit (rest : List Token) : List Char → Bool
  | [] => true
  | letter :: letters =>
    match options.lookup (String.ofList ['-', letter]) with
    | none => false
    | some kind =>
      if kind.takesValue then
        match letters, rest with
        | _ :: _, _ => true
        | [], .value _ :: _ => true
        | [], _ => false
      else lettersFit rest letters

/-- Reads tokens; `afterPath` tells that the last one was the path. A divider only helps the path:
it stands right before or right after it. Attached to an option, the same two signs stand for no
value at all. -/
def read (p : Progress) (afterPath : Bool) : List Token → Usage
  | [] => p.finish
  | .ambiguous :: _ => .invalid
  | .unknown :: rest => { p with surplus := true }.read false rest
  | .value text :: rest =>
    if p.path.isSome then { p with surplus := true }.read false rest
    else { p with path := some text }.read true rest
  | .divider :: rest =>
    match p.path, rest with
    | none, [.value path] => { p with path := some path }.finish
    | some _, [] => if afterPath then p.finish else .invalid
    | _, _ => .invalid
  | .option ⟨kind, short, some attached⟩ :: rest =>
    if kind.takesValue then
      match p.withValue kind (if attached = "--" then none else some attached) with
      | some p => p.read false rest
      | none => .invalid
    else if short ∧ attached ≠ "" ∧ lettersFit rest attached.toList then .information
    else .invalid
  | .option ⟨kind, _, none⟩ :: rest =>
    if kind = .information then .information
    else if kind.takesValue then
      match rest with
      | .value value :: rest =>
        match p.withValue kind (some value) with
        | some p => p.read false rest
        | none => .invalid
      | _ => .invalid
    else (p.withSwitch kind).read false rest

end Progress

def Usage.of (args : List String) : Usage :=
  let tokens := tokens args
  if tokens.contains .ambiguous then .invalid else Progress.start.read false tokens

end Determinizer.Command
