import Determinizer.Web.MediaType

/-! Requests and responses, as far as they matter here. A body is bytes, or a form that has been
taken apart. -/

namespace Determinizer.Web

inductive BodyFault where
  | tooLarge
  | invalidType (contentType : String)
  | nonAsciiType (contentType : String)
  | invalidBoundary (boundary : Option String)
  | headTooLarge
  | unreadableHead (fault : FieldFault)
  | undecodableText (fault : Encoding.Charset.Fault)
  | tooManyFields
  | tooManyFiles
  | undecodableFile
deriving DecidableEq, Repr

def BodyFault.message : BodyFault → String
  | tooLarge => "Request body exceeded settings.DATA_UPLOAD_MAX_MEMORY_SIZE."
  | invalidType contentType => s!"Invalid Content-Type: {contentType}"
  | nonAsciiType contentType => s!"Invalid non-ASCII Content-Type in multipart: {contentType}"
  | invalidBoundary boundary => "Invalid boundary in multipart: " ++ boundary.getD "None"
  | headTooLarge => "Request max total header size exceeded."
  | unreadableHead fault => fault.message
  | undecodableText fault => fault.message
  | tooManyFields =>
    "The number of GET/POST parameters exceeded settings.DATA_UPLOAD_MAX_NUMBER_FIELDS."
  | tooManyFiles => "The number of files exceeded settings.DATA_UPLOAD_MAX_NUMBER_FILES."
  | undecodableFile => "Could not decode base64 data."

/-- What stands between two boundaries of a form: a field, a file, or neither, which has no name. Of
a part whose head is at fault nothing else is known. -/
structure Part where
  fault : Option BodyFault
  name : Option String
  filename : Option String
  isBase64 : Bool
  content : List UInt8
deriving DecidableEq

def Part.field (name : String) (content : List UInt8) : Part :=
  ⟨none, some name, none, false, content⟩

def Part.file (name filename : String) (content : List UInt8) : Part :=
  ⟨none, some name, some filename, false, content⟩

def Part.edge : Part := ⟨none, none, none, false, []⟩

def Part.faulty (fault : BodyFault) : Part := { Part.edge with fault := some fault }

def Part.isFile (p : Part) : Bool := p.filename.any (· ≠ "")

inductive Body where
  | raw (bytes : List UInt8)
  /-- The names in the parts are read as UTF-8 and have to be read again in the charset. -/
  | form (charset : Encoding.Charset) (parts : List Part)

def Body.ofParts (parts : List Part) : Body := .form (.text .utf8) (.edge :: parts ++ [.edge])

structure Request where
  path : String
  method : String
  contentType : String
  body : Body

structure Response where
  status : Nat
  contentType : Option String
  allow : Option String
  contentDisposition : Option String
  body : String
deriving DecidableEq, Repr

def maxBodyBytes : Nat := 2621440

def maxFields : Nat := 1000

def maxFiles : Nat := 100

end Determinizer.Web
