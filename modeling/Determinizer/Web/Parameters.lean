import Determinizer.Text.Blank
import Determinizer.Web.Section

/-! Values of header fields: a main value and, after semicolons, parameters with values of their
own, which may come in sections. A semicolon between quotes divides nothing; a quote after a
backslash is none. -/

namespace Determinizer.Web

structure FieldValue where
  main : String
  parameters : List (String × String)
deriving DecidableEq, Repr

namespace FieldValue

def maxLength : Nat := 10000

def cutFrom (last : Option Char) (quoted : Bool) : List Char → List (List Char)
  | [] => [[]]
  | c :: s =>
    if c = ';' ∧ !quoted then [] :: cutFrom none false s
    else
      let quoted := if c = '"' ∧ last ≠ some '\\' then !quoted else quoted
      (cutFrom (some c) quoted s).modifyHead (c :: ·)

def mergeBackslashes : List Char → List Char
  | '\\' :: '\\' :: s => '\\' :: mergeBackslashes s
  | c :: s => c :: mergeBackslashes s
  | [] => []

def freeQuotes : List Char → List Char
  | '\\' :: '"' :: s => '"' :: freeQuotes s
  | c :: s => c :: freeQuotes s
  | [] => []

def unquote (s : List Char) : List Char :=
  match s with
  | '"' :: inner =>
    if inner.getLast? = some '"' then freeQuotes (mergeBackslashes inner.dropLast) else s
  | '<' :: inner => if inner.getLast? = some '>' then inner.dropLast else s
  | _ => s

def parameter (piece : List Char) : List Char × List Char :=
  match piece.span (· ≠ '=') with
  | (name, []) => (Text.trim name, [])
  | (name, _ :: value) => ((Text.trim name).map Char.toLower, unquote (Text.trim value))

/-- The main value, which is what stands before an equals sign where there is one, and the
parameters: first those that are whole, then those that come in sections. -/
def parse (s : List Char) : Except FieldFault FieldValue := do
  if maxLength < s.length then throw .tooLong
  let all := (cutFrom none false s).map parameter
  let main := (all.headD ([], [])).1.map Char.toLower
  let named := all.tail.filter (·.1 ≠ [])
  let sections := (← named.mapM fun p => Section.ofParameter? p.1 p.2).filterMap id
  let whole := named.filter fun p => (Section.splitName? p.1).isNone
  let sorted ← (sections.map (·.1)).eraseDups.mapM fun name => do
    return (name, ← Section.sort ((sections.filter (·.1 = name)).map (·.2)))
  let joined ← sorted.mapM fun entry => do return (entry.1, ← Section.join entry.2)
  return ⟨String.ofList main,
    whole.map (fun p => (String.ofList p.1, String.ofList p.2)) ++ joined⟩

def get? (v : FieldValue) (name : String) : Option String := v.parameters.reverse.lookup name

end FieldValue
end Determinizer.Web
