import Determinizer.Text.Hex

/-! Character encodings of Unicode, and the faults of bytes that are no text in one of them. -/

namespace Determinizer

inductive ByteOrder where
  | little
  | big
deriving DecidableEq, Repr

def ByteOrder.number (order : ByteOrder) (bytes : List UInt8) : Nat :=
  match order with
  | .big => bytes.foldl (fun n b => n * 256 + b.toNat) 0
  | .little => bytes.foldr (fun b n => n * 256 + b.toNat) 0

inductive Encoding where
  | utf8
  | utf16 (order : ByteOrder)
  | utf32 (order : ByteOrder)
deriving DecidableEq, Repr

namespace Encoding

def name : Encoding → String
  | utf8 => "utf-8"
  | utf16 .little => "utf-16-le"
  | utf16 .big => "utf-16-be"
  | utf32 .little => "utf-32-le"
  | utf32 .big => "utf-32-be"

inductive Reason where
  | invalidStart
  | invalidContinuation
  | unexpectedEnd
  | truncated
  | outOfRange
deriving DecidableEq, Repr

def Reason.message : Reason → String
  | invalidStart => "invalid start byte"
  | invalidContinuation => "invalid continuation byte"
  | unexpectedEnd => "unexpected end of data"
  | truncated => "truncated data"
  | outOfRange => "code point not in range(0x110000)"

structure Fault where
  encoding : Encoding
  position : Nat
  count : Nat
  byte : UInt8
  reason : Reason
deriving DecidableEq, Repr

def Fault.message (f : Fault) : String :=
  let bytes :=
    if f.count = 1 then
      s!"byte 0x{String.ofList (Text.hex 2 f.byte.toNat)} in position {f.position}"
    else s!"bytes in position {f.position}-{f.position + f.count - 1}"
  s!"'{f.encoding.name}' codec can't decode {bytes}: {f.reason.message}"

end Encoding
end Determinizer
