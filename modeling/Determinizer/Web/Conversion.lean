import Determinizer.Config.Document
import Determinizer.Dfa.Document

/-! What a conversion reports: the table, its layout, and counts of the automaton before and after.
Of the transitions before, each one from a state by a symbol to a state counts once. -/

namespace Determinizer.Web

structure Extent where
  states : Nat
  symbols : Nat
  transitions : Nat
  accepting : Nat
deriving DecidableEq, Repr

def Extent.of (c : Config) : Extent where
  states := c.states.length
  symbols := c.alphabet.length
  transitions := (TransitionMap.ofTransitions c.transitions).allDestinations.length
  accepting := c.acceptingStates.length

def Extent.toJson (x : Extent) : Json :=
  .obj
    [ ("states_count", .int x.states), ("alphabet_size", .int x.symbols),
      ("transitions_count", .int x.transitions), ("accepting_states_count", .int x.accepting) ]

structure Conversion where
  initialState : String
  table : Table
  header : List String
  rows : List (List String)
  extent : Extent
  statistics : Statistics
  message : String

def Conversion.of (c : Config) (delimiter : String) : Conversion :=
  let table := c.determinize delimiter
  { initialState := Key.canonical delimiter c.initialState
    table := table
    header := Table.header c.alphabet
    rows := table.cells c.alphabet
    extent := .of c
    statistics := table.statistics
    message :=
      if c.transitions.isEmpty then "NFA has no transitions, DFA holds only the initial state"
      else "NFA successfully converted to DFA" }

def Conversion.toJson (r : Conversion) : Json :=
  .obj
    [ ("success", .bool true), ("initial_state", .str r.initialState),
      ("dfa_table", r.table.toJson),
      ("table", layoutJson (r.header.map .str) (r.rows.map (·.map .str))),
      ("statistics", .obj [("original", r.extent.toJson), ("converted", r.statistics.toJson)]),
      ("message", .str r.message) ]

end Determinizer.Web
