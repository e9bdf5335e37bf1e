import Determinizer.Config.Draft
import Determinizer.Encoding.Utf8
import Determinizer.Json.Reader.Value
import Determinizer.Json.Writer

/-! The exchange format of configurations: a JSON object with five fields. Reading accepts just the
objects in which all five have their shape and keeps nothing but them; the first fault in a fixed
order is reported. Writing puts the fields in order, one element a line. -/

namespace Determinizer

inductive ShapeFault where
  | notObject
  | missingKey (name : String)
  | notStrings (name : String)
  | initialStateNotString
  | transitionsNotList
  | transitionNotObject (index : Nat)
  | transitionWithoutState (index : Nat)
  | transitionWithoutSymbol (index : Nat)
  | nextStatesNotStrings (index : Nat)
deriving DecidableEq, Repr

def ShapeFault.message : ShapeFault → String
  | notObject => "NFA configuration must be an object"
  | missingKey name => s!"Missing required key: {name}"
  | notStrings name => s!"{name} must be a list of strings"
  | initialStateNotString => "initialState must be a string"
  | transitionsNotList => "transitions must be a list"
  | transitionNotObject index => s!"Transition {index} must be an object"
  | transitionWithoutState index => s!"Transition {index} is missing a state"
  | transitionWithoutSymbol index => s!"Transition {index} is missing a symbol"
  | nextStatesNotStrings index => s!"Transition {index} nextStates must be a list of strings"

inductive Rejection where
  | undecodable (fault : Encoding.Fault)
  | malformed (problem : Json.Problem) (place : Json.Place)
  | misshapen (fault : ShapeFault)
deriving DecidableEq, Repr

def Rejection.message (r : Rejection) : String :=
  let cause := match r with
    | undecodable fault => s!"invalid JSON ({fault.message})"
    | malformed problem place => s!"invalid JSON ({place.locate problem})"
    | misshapen fault => fault.message
  s!"Error loading NFA configuration file: {cause}"

inductive LoadError where
  | rejected (rejection : Rejection)
  | limit (limit : Json.Limit)
deriving DecidableEq, Repr

def LoadError.message : LoadError → String
  | rejected r => r.message
  | limit l => l.message

def LoadError.ofRead : Json.ReadError → LoadError
  | .malformed problem place => .rejected (.malformed problem place)
  | .limit l => .limit l

def Transition.ofJson (index : Nat) (v : Json) : Except ShapeFault Transition :=
  match v with
  | .obj entries =>
    match (entries.lookup "state").bind Json.str? with
    | none => .error (.transitionWithoutState index)
    | some state =>
      match (entries.lookup "symbol").bind Json.str? with
      | none => .error (.transitionWithoutSymbol index)
      | some symbol =>
        match (entries.lookup "nextStates").bind Json.strings? with
        | none => .error (.nextStatesNotStrings index)
        | some nextStates => .ok ⟨state, symbol, nextStates⟩
  | _ => .error (.transitionNotObject index)

def Transition.toJson (t : Transition) : Json :=
  .obj [("state", .str t.state), ("symbol", .str t.symbol), ("nextStates", .strings t.nextStates)]

namespace Config

def fieldNames : List String :=
  ["states", "alphabet", "transitions", "initialState", "acceptingStates"]

def stringsField (entries : List (String × Json)) (name : String) :
    Except ShapeFault (List String) :=
  match (entries.lookup name).bind Json.strings? with
  | some l => .ok l
  | none => .error (.notStrings name)

def initialField (entries : List (String × Json)) : Except ShapeFault String :=
  match (entries.lookup "initialState").bind Json.str? with
  | some s => .ok s
  | none => .error .initialStateNotString

def transitionsField (entries : List (String × Json)) :
    Except ShapeFault (List Transition) :=
  match entries.lookup "transitions" with
  | some (.arr items) => items.zipIdx.mapM fun (v, index) => Transition.ofJson index v
  | _ => .error .transitionsNotList

def ofJson (v : Json) : Except ShapeFault Config :=
  match v with
  | .obj entries =>
    match fieldNames.find? fun name => (entries.lookup name).isNone with
    | some name => .error (.missingKey name)
    | none => do
      let states ← stringsField entries "states"
      let alphabet ← stringsField entries "alphabet"
      let initialState ← initialField entries
      let acceptingStates ← stringsField entries "acceptingStates"
      let transitions ← transitionsField entries
      return ⟨states, alphabet, transitions, initialState, acceptingStates⟩
  | _ => .error .notObject

def toJson (c : Config) : Json :=
  .obj
    [ ("states", .strings c.states), ("alphabet", .strings c.alphabet),
      ("transitions", .arr (c.transitions.map Transition.toJson)),
      ("initialState", .str c.initialState), ("acceptingStates", .strings c.acceptingStates) ]

def parse (v : Json) : Except Rejection Config := (ofJson v).mapError .misshapen

def ofRead (v : Except Json.ReadError Json) : Except LoadError Config :=
  match v with
  | .error e => .error (.ofRead e)
  | .ok v => (parse v).mapError .rejected

def load [Host] (text : String) : Except LoadError Config := ofRead (Json.read text)

def loadBytes [Host] (bytes : List UInt8) : Except LoadError Config :=
  match Encoding.Utf8.decode bytes with
  | .error fault => .error (.rejected (.undecodable fault))
  | .ok s => load (String.ofList s)

def dump (c : Config) : String := c.toJson.indented

def dumpFields (entries : List (String × Json)) : Except MissingField String := do
  let fields ← fieldNames.mapM fun name => do return (name, ← require name (entries.lookup name))
  return (Json.obj fields).indented

end Config
end Determinizer
