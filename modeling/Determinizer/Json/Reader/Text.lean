import Determinizer.Encoding.Wide
import Determinizer.Host
import Determinizer.Json.Reader.Basic
import Determinizer.Text.Hex

/-! Reading strings. Escapes by number come in UTF-16 units; a high and a low surrogate in a row are
one character. -/

namespace Determinizer.Json

def codeUnit? : (s : List Char) → Option (Nat × Below s)
  | a :: b :: c :: d :: e :: r => do
    let a ← Text.hexValue? a
    let b ← Text.hexValue? b
    let c ← Text.hexValue? c
    let d ← Text.hexValue? d
    some (((a * 16 + b) * 16 + c) * 16 + d, ⟨e :: r, by simp⟩)
  | _ => none

/-- The character of the code unit after `\u`, together with a low surrogate that follows a high
one in the same notation. -/
def unicodeEscape [Host] (s : List Char) : Except Stop (Char × Below s) :=
  match codeUnit? s with
  | none => .error (.malformed .invalidUnicodeEscape (s.length + 1))
  | some (unit, ⟨r, h⟩) =>
    let alone := .ok (Encoding.character Host.lone unit, ⟨r, h⟩)
    if Encoding.isHighSurrogate unit then
      match r, h with
      | '\\' :: 'u' :: t, h =>
        match codeUnit? t with
        | none => .error (.malformed .invalidUnicodeEscape (t.length + 1))
        | some (low, ⟨u, h'⟩) =>
          if Encoding.isLowSurrogate low then
            .ok (Encoding.joinSurrogates unit low, ⟨u, by simp at h; omega⟩)
          else alone
      | _, _ => alone
    else alone

def simpleEscape? : Char → Option Char
  | '"' => some '"'
  | '\\' => some '\\'
  | '/' => some '/'
  | 'b' => some '\x08'
  | 'f' => some '\x0c'
  | 'n' => some '\n'
  | 'r' => some '\r'
  | 't' => some '\t'
  | _ => none

/-- The rest of a string after the quote at the start of `opening`. -/
def stringRest [Host] (opening : List Char) (done : List Char) (s : List Char)
    (hs : s.length < opening.length) : Except Stop (String × Below opening) :=
  match s with
  | [] => .error (.malformed .unterminatedString opening.length)
  | c :: r =>
    if c = '"' then .ok (String.ofList done.reverse, ⟨r, Nat.lt_of_succ_lt hs⟩)
    else if c = '\\' then
      match r with
      -- a text that ends within an escape leaves its string open
      | [] => .error (.malformed .unterminatedString opening.length)
      | 'u' :: r =>
        match unicodeEscape r with
        | .error e => .error e
        | .ok (c, ⟨t, h⟩) => stringRest opening (c :: done) t (by simp at hs; omega)
      | c :: r =>
        match simpleEscape? c with
        | none => .error (.malformed .invalidEscape (r.length + 2))
        | some c => stringRest opening (c :: done) r (by simp at hs; omega)
    else if c < ' ' then .error (.malformed .invalidControl (r.length + 1))
    else stringRest opening (c :: done) r (by simp at hs; omega)
termination_by s.length
decreasing_by all_goals (simp only [List.length_cons]; omega)

end Determinizer.Json
