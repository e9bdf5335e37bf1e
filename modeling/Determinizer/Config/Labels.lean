import Determinizer.Config.Basic
import Determinizer.Text.Quoted

/-! The check of state labels. A label must survive inside a compound key: it is not empty, and
without a delimiter it is a single character, with one it does not contain it. Empty labels are
faulted before all others; otherwise the first bad label is. -/

namespace Determinizer

inductive LabelFault where
  | empty
  | containsDelimiter (label delimiter : String)
  | notSingleCharacter (label : String)
deriving DecidableEq, Repr

def LabelFault.message : LabelFault → String
  | empty => "State labels must not be empty"
  | containsDelimiter label delimiter =>
    s!"State {Text.quoted label} contains the delimiter {Text.quoted delimiter}"
  | notSingleCharacter label =>
    s!"State {Text.quoted label} is not a single character; " ++
      "configure a state delimiter to use longer labels"

def labelFault? (delimiter label : String) : Option LabelFault :=
  if delimiter = "" then
    if label.length = 1 then none else some (.notSingleCharacter label)
  else if Text.occursIn delimiter.toList label.toList then
    some (.containsDelimiter label delimiter)
  else none

def checkLabels (delimiter : String) (labels : List String) : Except LabelFault Unit :=
  if "" ∈ labels then .error .empty
  else
    match labels.findSome? (labelFault? delimiter) with
    | some fault => .error fault
    | none => .ok ()

def Config.checkLabels (c : Config) (delimiter : String) : Except LabelFault Unit :=
  Determinizer.checkLabels delimiter c.labels

end Determinizer
