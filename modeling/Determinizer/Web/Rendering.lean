import Determinizer.Dfa.Document
import Determinizer.Web.Failure

/-! Laying out a table that a client sends. Names, symbols and targets may be values of any type and
come back unchanged. Only a text can be the symbol of an entry; a list or an object as a symbol
breaks the request off as soon as there is a row to lay out. -/

namespace Determinizer.Web

def container? : Json → Option Json.Container
  | .arr _ => some .array
  | .obj _ => some .object
  | _ => none

def rowOfJson (v : Json) : Except Refusal (Row Json) :=
  match v.field? "name", v.field? "isAccepting", v.field? "transitions" with
  | some name, some accepting, some (.obj transitions) => .ok ⟨name, accepting.truthy, transitions⟩
  | _, _, _ => .error .incompleteRow

def targetAt? (r : Row Json) : Json → Option Json
  | .str a => r.target? a
  | _ => none

def jsonWording : Wording Json := wording.map .str

def layout (alphabet : List Json) (rows : List (Row Json)) : Json :=
  layoutJson (jsonWording.header alphabet)
    (rows.map fun r => jsonWording.cells r.name (alphabet.map (targetAt? r)) r.accepting)

def render (v : Json) : Except Failure Json :=
  match v.field? "alphabet", v.field? "dfa_table" with
  | some (.arr alphabet), some (.arr table) => do
    let rows ← (table.mapM rowOfJson).mapError .refused
    match rows, alphabet.findSome? container? with
    | _ :: _, some container => throw (.broken (.containerSymbol container))
    | _, _ => return layout alphabet rows
  | _, _ => .error (.refused .notLists)

end Determinizer.Web
