import Determinizer.Dfa.Layout
import Determinizer.Dfa.Statistics
import Determinizer.Json.Writer

/-! Tables and their parts as JSON. -/

namespace Determinizer

def Row.toJson (r : Row String) : Json :=
  .obj
    [ ("name", .str r.name), ("isAccepting", .bool r.accepting),
      ("transitions", .obj (r.transitions.map fun e => (e.1, .str e.2))) ]

def Table.toJson (t : Table) : Json := .arr (t.map Row.toJson)

def Table.dump (t : Table) : String := t.toJson.indented

def layoutJson (header : List Json) (rows : List (List Json)) : Json :=
  .obj [("header", .arr header), ("rows", .arr (rows.map .arr))]

def Statistics.toJson (s : Statistics) : Json :=
  .obj
    [ ("states_count", .int s.states), ("transitions_count", .int s.transitions),
      ("accepting_states_count", .int s.accepting) ]

end Determinizer
