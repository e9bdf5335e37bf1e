import Determinizer.Encoding.Utf8
import Determinizer.Encoding.Wide
import Determinizer.Host

/-! Which encoding bytes are in: a byte order mark decides, and without one the zeros among the
first bytes of a text that starts with ASCII characters. -/

namespace Determinizer.Encoding

def detectUnmarked : List UInt8 → Encoding
  | a :: b :: c :: d :: _ =>
    if a = 0 then (if b = 0 then utf32 .big else utf16 .big)
    else if b = 0 then (if c = 0 ∧ d = 0 then utf32 .little else utf16 .little)
    else utf8
  | [a, b] => if a = 0 then utf16 .big else if b = 0 then utf16 .little else utf8
  | _ => utf8

def detect (bytes : List UInt8) : Encoding × Nat :=
  if (Utf32.mark .big).isPrefixOf bytes then (utf32 .big, 4)
  else if (Utf32.mark .little).isPrefixOf bytes then (utf32 .little, 4)
  else if (Utf16.mark .big).isPrefixOf bytes then (utf16 .big, 2)
  else if (Utf16.mark .little).isPrefixOf bytes then (utf16 .little, 2)
  else if [0xef, 0xbb, 0xbf].isPrefixOf bytes then (utf8, 3)
  else (detectUnmarked bytes, 0)

/-- Decodes bytes in the encoding that they are in. Positions in UTF-8 count from the end of the
byte order mark, in the wider encodings from its start. -/
def decode [Host] (bytes : List UInt8) : Except Fault (List Char) :=
  let (encoding, mark) := detect bytes
  let bytes := bytes.drop mark
  match encoding with
  | utf8 => Utf8.decodeFrom (some Host.lone) 0 [] bytes
  | utf16 order => Utf16.decodeFrom Host.lone order mark bytes
  | utf32 order => Utf32.decodeFrom Host.lone order mark [] bytes

end Determinizer.Encoding
