import Determinizer.Encoding.Utf8
import Determinizer.Encoding.Wide

/-! Charsets, and the texts that bytes make in them. Bytes that are no character of a charset become
U+FFFD, so that reading fails only where a name stands for something that gives no text. -/

namespace Determinizer.Encoding

inductive Charset.Scheme where
  | utf8
  | utf8Marked
  /-- Without an order a byte order mark decides, and without one the little end comes first. -/
  | utf16 (order : Option ByteOrder)
  | utf32 (order : Option ByteOrder)
  | latin1
  /-- ASCII and the many charsets that contain it; their other characters are not told apart. -/
  | ascii
  | asciiBut (others : List (UInt8 × Char))
  /-- Single bytes below a limit, up to the first that shifts out of them or escapes; what stands
  behind it is not told apart. -/
  | shifting (limit : Nat) (marks : List UInt8)
  | foreign
deriving DecidableEq, Repr

inductive Charset.Defect where
  | notText
  | strict
  | undefined
deriving DecidableEq, Repr

structure Charset.Fault where
  name : String
  defect : Charset.Defect
deriving DecidableEq, Repr

inductive Charset where
  | text (scheme : Charset.Scheme)
  | unusable (fault : Charset.Fault)
deriving DecidableEq, Repr

namespace Charset

def Fault.message (f : Fault) : String :=
  match f.defect with
  | .notText =>
    s!"'{f.name}' is not a text encoding; use codecs.decode() to handle arbitrary codecs"
  | .strict =>
    s!"decoding with '{f.name}' codec failed (UnicodeError: Unsupported error handling replace)"
  | .undefined => s!"decoding with '{f.name}' codec failed (UnicodeError: undefined encoding)"

def below (limit : Nat) (b : UInt8) : Char :=
  if b.toNat < limit then Char.ofNat b.toNat else '\ufffd'

def splitMark (mark : ByteOrder → List UInt8) (bytes : List UInt8) : ByteOrder × List UInt8 :=
  if (mark .little).isPrefixOf bytes then (.little, bytes.drop (mark .little).length)
  else if (mark .big).isPrefixOf bytes then (.big, bytes.drop (mark .big).length)
  else (.little, bytes)

def Scheme.read (bytes : List UInt8) : Scheme → List Char
  | utf8 => Utf8.recover bytes
  | utf8Marked =>
    Utf8.recover (if [0xef, 0xbb, 0xbf].isPrefixOf bytes then bytes.drop 3 else bytes)
  | utf16 (some order) => Utf16.recover order bytes
  | utf16 none =>
    let (order, bytes) := splitMark Utf16.mark bytes
    Utf16.recover order bytes
  | utf32 (some order) => Utf32.recover order bytes
  | utf32 none =>
    let (order, bytes) := splitMark Utf32.mark bytes
    Utf32.recover order bytes
  | latin1 => bytes.map (below 0x100)
  | ascii => bytes.map (below 0x80)
  | asciiBut others => bytes.map fun b => (others.lookup b).getD (below 0x80 b)
  | shifting limit marks =>
    let plain := bytes.takeWhile fun b => !marks.contains b
    plain.map (below limit) ++ (bytes.drop plain.length).map (below 0)
  | foreign => bytes.map (below 0)

def fault? (bytes : List UInt8) : Charset → Option Fault
  | text _ => none
  | unusable fault => if bytes.isEmpty then none else some fault

def read (bytes : List UInt8) (c : Charset) : Except Fault (List Char) :=
  match c, c.fault? bytes with
  | _, some fault => .error fault
  | text scheme, none => .ok (scheme.read bytes)
  | unusable _, none => .ok []

def reread (s : String) (c : Charset) : Except Fault String :=
  if c = text .utf8 then .ok s else (c.read (Utf8.encode s.toList)).map String.ofList

end Charset
end Determinizer.Encoding
