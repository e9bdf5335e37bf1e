import Determinizer.Dfa.Layout
import Determinizer.Text.Blank

/-! Tables as text. A column is as wide as its widest cell, and what would be padding after the last
visible character of a line is left out. -/

namespace Determinizer

namespace TextTable

def widths : List (List String) → List Nat
  | [] => []
  | [line] => line.map String.length
  | line :: lines => List.zipWith max (line.map String.length) (widths lines)

def padRight (width : Nat) (s : String) : List Char :=
  s.toList ++ List.replicate (width - s.length) ' '

def line (widths : List Nat) (cells : List String) : List Char :=
  Text.trimRight ([' ', '|', ' '].intercalate (List.zipWith padRight widths cells))

def rule (widths : List Nat) : List Char :=
  ['-', '+', '-'].intercalate (widths.map (List.replicate · '-'))

def lines (header : List String) (rows : List (List String)) : List (List Char) :=
  let ws := widths (header :: rows)
  line ws header :: rule ws :: rows.map (line ws)

def render (header : List String) (rows : List (List String)) : String :=
  String.ofList (['\n'].intercalate (lines header rows))

end TextTable

def Table.text (t : Table) (alphabet : List String) : String :=
  TextTable.render (Table.header alphabet) (t.cells alphabet)

end Determinizer
