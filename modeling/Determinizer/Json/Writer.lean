import Determinizer.Decimal.Style
import Determinizer.Json.Basic
import Determinizer.Text.Hex

/-! Writing JSON, on one line in ASCII or indented with all characters kept. The two layouts differ
in the space inside brackets and in the characters that are escaped; an empty array or object is
its two brackets in both. -/

namespace Determinizer.Json

/-- Doubles have the fewest digits that read back. They are positional from 0.0001 to below 10^16,
an integer keeps `.0`, and an exponent has two digits at least. -/
def numberStyle : Decimal.Style where
  leastPositional := -4
  greatestPositional := 15
  afterInteger := ".0"
  exponentWidth := 2
  nan := "NaN"
  infinity := "Infinity"

structure Layout where
  inner : Nat → List Char
  comma : Nat → List Char
  outer : Nat → List Char
  escape : Char → List Char

def shortEscape? : Char → Option (List Char)
  | '"' => some ['\\', '"']
  | '\\' => some ['\\', '\\']
  | '\n' => some ['\\', 'n']
  | '\r' => some ['\\', 'r']
  | '\t' => some ['\\', 't']
  | '\x08' => some ['\\', 'b']
  | '\x0c' => some ['\\', 'f']
  | _ => none

def unitEscape (unit : Nat) : List Char := '\\' :: 'u' :: Text.hex 4 unit

def unitsEscape (c : Char) : List Char :=
  let n := c.toNat
  if n < 0x10000 then unitEscape n
  else
    unitEscape (0xd800 + (n - 0x10000) / 0x400) ++ unitEscape (0xdc00 + (n - 0x10000) % 0x400)

def escapeAscii (c : Char) : List Char :=
  (shortEscape? c).getD (if ' ' ≤ c ∧ c ≤ '~' then [c] else unitsEscape c)

def escapeControl (c : Char) : List Char :=
  (shortEscape? c).getD (if c < ' ' then unitsEscape c else [c])

def Layout.compact : Layout where
  inner _ := []
  comma _ := [',', ' ']
  outer _ := []
  escape := escapeAscii

def newline (depth : Nat) : List Char := '\n' :: List.replicate (2 * depth) ' '

def Layout.indented : Layout where
  inner := newline
  comma depth := ',' :: newline depth
  outer := newline
  escape := escapeControl

namespace Layout
variable (f : Layout)

def quote (s : String) : List Char := '"' :: s.toList.flatMap f.escape ++ ['"']

def integer (n : Int) : List Char :=
  (if n < 0 then ['-'] else []) ++ Nat.toDigits 10 n.natAbs

mutual

def chars (depth : Nat) : Json → List Char
  | .null => ['n', 'u', 'l', 'l']
  | .bool true => ['t', 'r', 'u', 'e']
  | .bool false => ['f', 'a', 'l', 's', 'e']
  | .int n => integer n
  | .float x => numberStyle.write x
  | .str s => f.quote s
  | .arr [] => ['[', ']']
  | .arr (v :: vs) =>
    '[' :: f.inner (depth + 1) ++ (chars (depth + 1) v ++ itemChars depth vs)
  | .obj [] => ['\x7b', '\x7d']
  | .obj ((name, v) :: es) =>
    '\x7b' :: f.inner (depth + 1) ++
      (f.quote name ++ [':', ' '] ++ chars (depth + 1) v ++ entryChars depth es)

def itemChars (depth : Nat) : List Json → List Char
  | [] => f.outer depth ++ [']']
  | v :: vs => f.comma (depth + 1) ++ (chars (depth + 1) v ++ itemChars depth vs)

def entryChars (depth : Nat) : List (String × Json) → List Char
  | [] => f.outer depth ++ ['\x7d']
  | (name, v) :: es =>
    f.comma (depth + 1) ++
      (f.quote name ++ [':', ' '] ++ chars (depth + 1) v ++ entryChars depth es)

end

end Layout

def compact (v : Json) : String := String.ofList (Layout.compact.chars 0 v)

def indented (v : Json) : String := String.ofList (Layout.indented.chars 0 v)

end Determinizer.Json
