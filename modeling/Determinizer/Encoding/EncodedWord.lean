import Determinizer.Encoding.Base64
import Determinizer.Encoding.Utf8
import Determinizer.Text.Blank
import Determinizer.Text.Hex

/-! Encoded words: a text as ASCII, for places that admit nothing else. A word tells its encoding
and holds the bytes of its text, either as base64 or with single bytes escaped; the first form is
taken where it is the shorter one. A text of several lines has a word for each. -/

namespace Determinizer.Encoding.EncodedWord

def isPlain (c : Char) : Bool := c.isAlphanum || ['-', '!', '*', '+', '/'].contains c

def escape (b : UInt8) : List Char :=
  let c := Char.ofNat b.toNat
  if isPlain c then [c]
  else if c = ' ' then ['_']
  else '=' :: (Text.hex 2 b.toNat).map Char.toUpper

def word (s : List Char) : List Char :=
  let bytes := Utf8.encode s
  let base64 := Base64.encode bytes
  let escaped := bytes.flatMap escape
  if bytes.isEmpty then []
  else if base64.length < escaped.length then "=?utf-8?b?".toList ++ base64 ++ "?=".toList
  else "=?utf-8?q?".toList ++ escaped ++ "?=".toList

def isLineBreak (c : Char) : Bool :=
  ['\x0b', '\x0c', '\x1c', '\x1d', '\x1e', '\u0085', '\u2028', '\u2029'].contains c

def lines : List Char → List (List Char)
  | [] => []
  | c :: s =>
    if isLineBreak c then [] :: lines s
    else
      match lines s with
      | [] => [[c]]
      | l :: ls => (c :: l) :: ls

def encode (s : String) : String :=
  let words := match lines s.toList with
    | [] => []
    | l :: ls => word l :: ls.map fun l => ' ' :: word (' ' :: Text.trimLeft l)
  String.ofList (['\n'].intercalate words)

end Determinizer.Encoding.EncodedWord
