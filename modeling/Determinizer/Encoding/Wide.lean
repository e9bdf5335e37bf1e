import Determinizer.Encoding.Basic

/-! UTF-16 and UTF-32. Code units are read in either byte order. Two UTF-16 units that form a
surrogate pair make one character; for a surrogate that stands alone the caller names one. Where
reading goes on behind bytes at fault, U+FFFD stands for these too. -/

namespace Determinizer.Encoding

def isHighSurrogate (n : Nat) : Bool := 0xd800 ≤ n && n < 0xdc00

def isLowSurrogate (n : Nat) : Bool := 0xdc00 ≤ n && n < 0xe000

def character (lone : Char) (n : Nat) : Char :=
  if isHighSurrogate n || isLowSurrogate n then lone else Char.ofNat n

def joinSurrogates (high low : Nat) : Char :=
  Char.ofNat (0x10000 + (high - 0xd800) * 0x400 + (low - 0xdc00))

namespace Utf16

def characters (lone : Char) : List Nat → List Char
  | high :: low :: units =>
    if isHighSurrogate high && isLowSurrogate low then
      joinSurrogates high low :: characters lone units
    else character lone high :: characters lone (low :: units)
  | [unit] => [character lone unit]
  | [] => []

def units (order : ByteOrder) (position : Nat) (done : List Nat) :
    List UInt8 → Except Fault (List Nat)
  | a :: b :: bytes => units order (position + 2) (order.number [a, b] :: done) bytes
  | [a] => .error ⟨.utf16 order, position, 1, a, .truncated⟩
  | [] => .ok done.reverse

def decodeFrom (lone : Char) (order : ByteOrder) (position : Nat) (bytes : List UInt8) :
    Except Fault (List Char) :=
  (units order position [] bytes).map (characters lone)

def mark : ByteOrder → List UInt8
  | .little => [0xff, 0xfe]
  | .big => [0xfe, 0xff]

def recoverUnits (order : ByteOrder) : List UInt8 → List Nat
  | a :: b :: bytes => order.number [a, b] :: recoverUnits order bytes
  | [_] => [0xfffd]
  | [] => []

def recover (order : ByteOrder) (bytes : List UInt8) : List Char :=
  characters '\ufffd' (recoverUnits order bytes)

end Utf16

namespace Utf32

def decodeFrom (lone : Char) (order : ByteOrder) (position : Nat) (done : List Char) :
    List UInt8 → Except Fault (List Char)
  | a :: b :: c :: d :: bytes =>
    let n := order.number [a, b, c, d]
    if n < 0x110000 then decodeFrom lone order (position + 4) (character lone n :: done) bytes
    else .error ⟨.utf32 order, position, 4, a, .outOfRange⟩
  | [] => .ok done.reverse
  | a :: rest => .error ⟨.utf32 order, position, rest.length + 1, a, .truncated⟩

def mark : ByteOrder → List UInt8
  | .little => [0xff, 0xfe, 0, 0]
  | .big => [0, 0, 0xfe, 0xff]

def recover (order : ByteOrder) : List UInt8 → List Char
  | a :: b :: c :: d :: bytes =>
    let n := order.number [a, b, c, d]
    (if n < 0x110000 then character '\ufffd' n else '\ufffd') :: recover order bytes
  | [] => []
  | _ => ['\ufffd']

end Utf32
end Determinizer.Encoding
