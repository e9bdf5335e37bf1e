import Determinizer.Config.Document
import Determinizer.Editor.Field

/-! The editor: an automaton in the making, and the table that was last built from it. The table is
built on demand alone; editing keeps the old one, and a completed load clears it. -/

namespace Determinizer

structure Editor where
  delimiter : String
  states : List String
  alphabet : List String
  initialState : String
  acceptingStates : List String
  transitions : TransitionMap
  table : Table
deriving DecidableEq

inductive EditorError where
  | labels (fault : LabelFault)
  | load (error : LoadError)
  | missing (field : MissingField)
deriving DecidableEq

def EditorError.message : EditorError → String
  | labels fault => fault.message
  | load e => e.message
  | missing e => e.message

namespace Editor

def fresh (delimiter : String) : Editor := ⟨delimiter, [], [], "", [], ∅, []⟩

def setStates (text : String) (e : Editor) : Editor := { e with states := Field.items text }

def setAlphabet (text : String) (e : Editor) : Editor := { e with alphabet := Field.items text }

def setInitialState (text : String) (e : Editor) : Editor :=
  { e with initialState := Field.strip text }

def setAcceptingStates (text : String) (e : Editor) : Editor :=
  { e with acceptingStates := Field.items text }

def setTransition (state symbol text : String) (e : Editor) : Editor :=
  let targets := Field.items text
  { e with
    transitions :=
      if targets.isEmpty then e.transitions.erase ⟨state, symbol⟩
      else e.transitions.put ⟨state, symbol⟩ (Members.ofList targets) }

variable (e : Editor)

def getTransition (state symbol : String) : List String :=
  (e.transitions.destinations state symbol).toList

def canConvert : Bool := !e.transitions.isEmpty

def toConfig : Config where
  states := e.states
  alphabet := e.alphabet
  transitions := e.transitions.toTransitions
  initialState := e.initialState
  acceptingStates := e.acceptingStates

def toNfa : Nfa where
  alphabet := e.alphabet
  transitions := e.transitions
  initial := e.initialState
  accepting := e.acceptingStates

def exportText : String := e.toConfig.dump

def checkLabels (c : Config.Draft) : Except EditorError Unit :=
  match c.checkLabels e.delimiter with
  | .error field => .error (.missing field)
  | .ok checked => checked.mapError .labels

def convert : Except LabelFault Editor := do
  e.toConfig.checkLabels e.delimiter
  return { e with table := e.toNfa.determinize e.delimiter }

def settled {ε α : Type} (r : Except ε α) : ExceptT ε (StateM Editor) α := ExceptT.mk (pure r)

/-- Takes over the fields of a draft one after the other, up to the first that is missing. -/
def loadDraft (c : Config.Draft) : ExceptT MissingField (StateM Editor) Unit := do
  let states ← settled (require "states" c.states)
  modify ({ · with states })
  let alphabet ← settled (require "alphabet" c.alphabet)
  modify ({ · with alphabet })
  let transitions ← settled (require "transitions" c.transitions)
  let transitions ← settled (transitions.mapM (·.complete))
  modify ({ · with transitions := .ofTransitions transitions })
  let initialState ← settled (require "initialState" c.initialState)
  modify ({ · with initialState })
  let acceptingStates ← settled (require "acceptingStates" c.acceptingStates)
  modify ({ · with acceptingStates, table := [] })

def loadDocument (loaded : Except LoadError Config) :
    ExceptT EditorError (StateM Editor) Config := do
  let c ← settled (loaded.mapError .load)
  settled ((← get).checkLabels c.toDraft)
  ExceptT.adapt .missing (loadDraft c.toDraft)
  return c

def loadText [Host] (text : String) : ExceptT EditorError (StateM Editor) Config :=
  loadDocument (Config.load text)

def loadBytes [Host] (bytes : List UInt8) : ExceptT EditorError (StateM Editor) Config :=
  loadDocument (Config.loadBytes bytes)

end Editor
end Determinizer
