import Determinizer.Encoding.Base64
import Determinizer.Web.Filename
import Determinizer.Web.Message

/-! Looking for a file in a form. The parts are taken in order, and each limit breaks the search off
at the part that exceeds it. A file is there once another part begins; of several files under one
name the last one counts. -/

namespace Determinizer.Web.Form

def isSpace (c : Char) : Bool := c = ' ' || ('\t' ≤ c && c ≤ '\r')

def trimName (name : String) : String :=
  String.ofList ((name.toList.dropWhile isSpace).reverse.dropWhile isSpace).reverse

def reread (charset : Encoding.Charset) (s : String) : Except BodyFault String :=
  (charset.reread s).mapError .undecodableText

def decodeBase64? (content : List UInt8) : Option (List UInt8) :=
  let content := content.filter fun b => !isSpace (Char.ofNat b.toNat)
  if content.length % 4 = 0 then Encoding.Base64.decode? content else none

/-- What has been seen: parts that are no files, bytes of fields, files, the file whose end is still
to come, and the last whole one under the name that is looked for. -/
structure Search where
  plain : Nat
  bytes : Nat
  files : Nat
  pending : Option (String × List UInt8)
  found : Option (List UInt8)

namespace Search

def start : Search := ⟨0, 0, 0, none, none⟩

def settle (s : Search) (name : String) : Search :=
  match s.pending with
  | none => s
  | some (n, content) =>
    { s with pending := none, found := if n = name then some content else s.found }

def countPlain (s : Search) : Except BodyFault Search :=
  if maxFields + 2 < s.plain + 1 then .error .tooManyFields
  else .ok { s with plain := s.plain + 1 }

/-- Counts the bytes of a field with those of its name and two more. The charset has to be one of
texts, even though the text of the field is not asked for. -/
def addField (s : Search) (charset : Encoding.Charset) (name : String) (content : List UInt8) :
    Except BodyFault Search :=
  let bytes := s.bytes + content.length + name.length + 2
  if maxBodyBytes < bytes then .error .tooLarge
  else
    match charset.fault? content with
    | some fault => .error (.undecodableText fault)
    | none => .ok { s with bytes := bytes }

def addFile (s : Search) (charset : Encoding.Charset) (name filename : String) (isBase64 : Bool)
    (content : List UInt8) : Except BodyFault Search := do
  if maxFiles < s.files + 1 then throw .tooManyFiles
  let s := { s with files := s.files + 1 }
  if !Filename.isUsable (← reread charset filename) then return s
  else if isBase64 then
    match decodeBase64? content with
    | some content => return { s with pending := some (name, content) }
    | none => throw .undecodableFile
  else return { s with pending := some (name, content) }

def step (charset : Encoding.Charset) (name : String) (s : Search) (p : Part) :
    Except BodyFault Search := do
  match p.fault with
  | some fault => throw fault
  | none =>
    let s ← if p.isFile then pure (s.settle name) else (s.settle name).countPlain
    match p.name with
    | none => return s
    | some n =>
      let n ← reread charset (trimName n)
      match p.filename.filter (· ≠ "") with
      | none => s.addField charset n p.content
      | some filename => s.addFile charset n filename p.isBase64 p.content

end Search

def file? (charset : Encoding.Charset) (name : String) (parts : List Part) :
    Except BodyFault (Option (List UInt8)) := do
  return (← parts.foldlM (Search.step charset name) .start).found

end Determinizer.Web.Form
