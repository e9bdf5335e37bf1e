import Determinizer.Web.Parameters

/-! Content types of requests. A form is in the charset that its content type tells, or in UTF-8
where it tells none that is known. -/

namespace Determinizer.Web

structure MediaType where
  text : String
  value : FieldValue
  charset : Encoding.Charset

namespace MediaType

def parse (text : String) : Except FieldFault MediaType := do
  let value ← FieldValue.parse text.toList
  let charset ← match value.get? "charset" with
    | none => pure none
    | some name => charset? name
  return ⟨text, value, charset.getD (.text .utf8)⟩

def isForm (t : MediaType) : Bool := t.value.main = "multipart/form-data"

end MediaType
end Determinizer.Web
