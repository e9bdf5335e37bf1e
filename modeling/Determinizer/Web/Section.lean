import Determinizer.Encoding.Charset.Names
import Determinizer.Json.Error
import Determinizer.Text.Hex
import Determinizer.Text.Quoted

/-! Values of parameters that come in sections. A star and perhaps a number after the name of a
parameter make the name of a section; one more star says that the section is percent-encoded. The
sections are joined in order, and if any is encoded, the value may tell its charset and its language
in front, each ended by an apostrophe. -/

namespace Determinizer.Web

inductive FieldFault where
  | tooLong
  | sectionDigits (count : Nat)
  /-- Some sections of one parameter have numbers and some have none, which leaves no order. -/
  | mixedSections (firstNumbered : Bool)
  | unknownCharset (name : String)
  | nullInCharset
  | undecodable (fault : Encoding.Charset.Fault)
deriving DecidableEq, Repr

def FieldFault.message : FieldFault → String
  | tooLong => "Unable to parse header parameters (value too long)."
  | sectionDigits count => (Json.Limit.digits count).message
  | mixedSections true => "'<' not supported between instances of 'NoneType' and 'int'"
  | mixedSections false => "'<' not supported between instances of 'int' and 'NoneType'"
  | unknownCharset name => s!"Invalid encoding {Text.quoted name} for RFC 2231 param."
  | nullInCharset => "embedded null character"
  | undecodable fault => fault.message

def charset? (name : String) : Except FieldFault (Option Encoding.Charset) :=
  if name.toList.contains '\x00' then .error .nullInCharset
  else .ok (Encoding.Charset.named? name)

structure Section where
  number : Option Nat
  text : String
  encoded : Bool
deriving DecidableEq, Repr

namespace Section

def isWordChar (c : Char) : Bool := c.isAlphanum || c = '_'

def splitName? (name : List Char) : Option (List Char × List Char × Bool) :=
  match name.span isWordChar with
  | ([], _) => none
  | (parameter, '*' :: rest) =>
    match rest.span Char.isDigit with
    | (digits, []) => some (parameter, digits, digits.isEmpty)
    | (_ :: _, ['*']) => some (parameter, rest.dropLast, true)
    | _ => none
  | _ => none

def number? (digits : List Char) : Except FieldFault (Option Nat) :=
  if digits.isEmpty then .ok none
  else if Json.maxDigits < digits.length then .error (.sectionDigits digits.length)
  else .ok (some (digits.foldl (fun n c => n * 10 + (c.toNat - '0'.toNat)) 0))

def ofParameter? (name value : List Char) : Except FieldFault (Option (String × Section)) :=
  match splitName? name with
  | none => .ok none
  | some (parameter, digits, encoded) => do
    return some (String.ofList parameter, ⟨← number? digits, String.ofList value, encoded⟩)

def le (s t : Section) : Bool :=
  ((compare (s.number.getD 0) (t.number.getD 0)).then
    ((compare s.text t.text).then (compare s.encoded t.encoded))).isLE

def sort (sections : List Section) : Except FieldFault (List Section) :=
  let numbered := sections.map (·.number.isSome)
  if numbered.all id || !numbered.any id then .ok (sections.mergeSort le)
  else .error (.mixedSections (numbered.headD false))

def percentDecode : List Char → List Char
  | '%' :: a :: b :: s =>
    match Text.hexValue? a, Text.hexValue? b with
    | some x, some y => Char.ofNat (x * 16 + y) :: percentDecode s
    | _, _ => '%' :: percentDecode (a :: b :: s)
  | c :: s => c :: percentDecode s
  | [] => []
termination_by s => s.length

def bytesOf (c : Char) : List UInt8 :=
  let escape (letter : Char) (width : Nat) : List UInt8 :=
    ('\\' :: letter :: Text.hex width c.toNat).map fun d => d.toNat.toUInt8
  if c.toNat < 0x100 then [c.toNat.toUInt8]
  else if c.toNat < 0x10000 then escape 'u' 4
  else escape 'U' 8

def escapeQuotes (s : List Char) : List Char :=
  s.flatMap fun c => if c = '\\' ∨ c = '"' then ['\\', c] else [c]

def splitCharset (s : List Char) : Option (List Char) × List Char :=
  match s.span (· ≠ '\'') with
  | (charset, _ :: rest) =>
    match rest.span (· ≠ '\'') with
    | (_, _ :: text) => (some charset, text)
    | _ => (none, s)
  | _ => (none, s)

/-- The text of an encoded value. ASCII takes the place of a charset that is not told; a text stays
as it is if the name in front of it is known but stands for no charset. -/
def decode (s : List Char) : Except FieldFault (List Char) :=
  let (charset, text) := splitCharset s
  let bytes := text.flatMap bytesOf
  let name := String.ofList (escapeQuotes (charset.getD []))
  if name = "" then .ok (Encoding.Charset.Scheme.ascii.read bytes)
  else do
    match ← charset? name with
    | none => throw (.unknownCharset name)
    | some (.unusable ⟨_, .notText⟩) => return text
    | some charset => (charset.read bytes).mapError .undecodable

def join (sections : List Section) : Except FieldFault String :=
  let text := sections.flatMap fun s =>
    if s.encoded then percentDecode s.text.toList else s.text.toList
  if sections.any (·.encoded) then (decode text).map String.ofList else .ok (String.ofList text)

end Section
end Determinizer.Web
