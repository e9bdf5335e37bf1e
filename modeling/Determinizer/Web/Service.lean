import Determinizer.Encoding.Detection
import Determinizer.Web.Conversion
import Determinizer.Web.Form
import Determinizer.Web.Header
import Determinizer.Web.Multipart
import Determinizer.Web.Rendering

/-! The endpoints: converting, importing and exporting configurations, and laying out tables. All of
them take `POST` only. Three read a JSON object in any Unicode encoding; importing reads UTF-8, from
the body or from a file of a form. A path that lacks its last slash is redirected. -/

namespace Determinizer.Web

inductive Endpoint where
  | convert
  | importNfa
  | exportNfa
  | renderTable
deriving DecidableEq, Repr

def Endpoint.path : Endpoint → String
  | convert => "/api/nfa-to-dfa/"
  | importNfa => "/api/import-nfa/"
  | exportNfa => "/api/export-nfa/"
  | renderTable => "/api/render-dfa-table/"

def Endpoint.ofPath? (path : String) : Option Endpoint :=
  [convert, importNfa, exportNfa, renderTable].find? (·.path = path)

def checkSize (bytes : List UInt8) : Except Failure (List UInt8) :=
  if maxBodyBytes < bytes.length then .error (.broken (.body .tooLarge)) else .ok bytes

/-- The value of a body. The encoded form of a form starts with a boundary and is no value. -/
def Body.read [Host] : Body → Except Failure Json
  | .form _ _ => .error (.refused (.unreadable (.malformed .expectedValue (.at [] 0))))
  | .raw bytes => do
    match Encoding.decode (← checkSize bytes) with
    | .error fault => .error (.refused (.undecodable fault))
    | .ok s =>
      match Json.readChars s with
      | .error (.limit (.depth container)) => .error (.broken (.limit (.depth container)))
      | .error e => .error (.refused (.unreadable e))
      | .ok v => .ok v

def Body.readObject [Host] (b : Body) : Except Failure Json := do
  match ← b.read with
  | .obj entries => return .obj entries
  | _ => throw (.refused .bodyNotObject)

def Body.readNfa [Host] (b : Body) : Except Failure Config := do
  match (← b.readObject).field? "nfa" with
  | none => throw (.refused .missingNfa)
  | some v =>
    if v.truthy then (Config.parse v).mapError fun r => .refused (.rejected r)
    else throw (.refused .missingNfa)

def convert [Host] (settings : Settings) (b : Body) : Except Failure Json := do
  let c ← b.readNfa
  (c.checkLabels (settings.delimiter.getD "")).mapError fun fault => .refused (.labels fault)
  match settings.delimiter with
  | none => throw (.broken .nullDelimiter)
  | some delimiter => return (Conversion.of c delimiter).toJson

def Body.document : Body → Except Failure (List UInt8)
  | .raw bytes => checkSize bytes
  | .form charset parts =>
    match Form.file? charset "file" parts with
    | .ok (some bytes) => .ok bytes
    | .ok none => .error (.refused .missingFile)
    | .error fault => .error (.broken (.body fault))

def importNfa [Host] (b : Body) : Except Failure Json := do
  match Config.loadBytes (← b.document) with
  | .ok c => return .obj [("success", .bool true), ("nfa", c.toJson)]
  | .error (.rejected r) => throw (.refused (.rejected r))
  | .error (.limit l) => throw (.broken (.limit l))

def exportNfa [Host] (b : Body) : Except Failure String := do
  return (← b.readNfa).dump

def disposition (settings : Settings) : Except Failure String :=
  let name := settings.exportFilename.getD "None"
  let value := s!"attachment; filename=\"{name}\""
  match headerValue? value with
  | some text => .ok text
  | none => .error (.refused (.headerLines value))

def jsonResponse (status : Nat) (v : Json) : Response where
  status := status
  contentType := some "application/json"
  allow := none
  contentDisposition := none
  body := v.compact

def failed (f : Failure) : Response := jsonResponse f.status (.obj [("error", .str f.message)])

def answered [Host] : Except Failure Json → Response
  | .ok v => if v.depth ≤ Host.writing then jsonResponse 200 v else failed (.broken .tooDeep)
  | .error f => failed f

def bare (status : Nat) (allow : Option String) : Response where
  status := status
  contentType := none
  allow := allow
  contentDisposition := none
  body := ""

def methodNotAllowed : Response := bare 405 (some "POST")

def movedPermanently : Response := bare 301 none

def download [Host] (settings : Settings) (b : Body) : Except Failure Response := do
  let text ← exportNfa b
  return {
    status := 200
    contentType := some "application/json"
    allow := none
    contentDisposition := some (← disposition settings)
    body := text }

def Endpoint.post [Host] (settings : Settings) (b : Body) : Endpoint → Response
  | convert => answered (Web.convert settings b)
  | importNfa => answered (Web.importNfa b)
  | renderTable => answered (do render (← b.readObject))
  | exportNfa =>
    match download settings b with
    | .ok r => r
    | .error f => failed f

def Endpoint.body (t : MediaType) (b : Body) : Endpoint → Except Failure Body
  | importNfa =>
    match b with
    | .form charset parts => .ok (.form charset parts)
    | .raw bytes =>
      if t.isForm then
        ((Multipart.parts t bytes).map (.form t.charset)).mapError fun fault =>
          .broken (.body fault)
      else .ok (.raw bytes)
  | _ => .ok b

def capitals (c : Char) : List Char :=
  if c = 'ſ' then ['S']
  else if c = 'ﬅ' ∨ c = 'ﬆ' then ['S', 'T']
  else [c.toUpper]

def Request.isPost (r : Request) : Bool := r.method.toList.flatMap capitals = "POST".toList

def dispatch [Host] (settings : Settings) (t : MediaType) (r : Request) : Option Response :=
  match Endpoint.ofPath? r.path, Endpoint.ofPath? (r.path ++ "/") with
  | none, none => none
  | none, some _ => some movedPermanently
  | some endpoint, _ =>
    if !r.isPost then some methodNotAllowed
    else
      match endpoint.body t r.body with
      | .ok body => some (endpoint.post settings body)
      | .error f => some (failed f)

/-- The response to a request. There is none, not even of a failure, to a request whose content type
cannot be read, whatever it asks for. -/
def respond [Host] (settings : Settings) (r : Request) : Except FieldFault (Option Response) := do
  return dispatch settings (← MediaType.parse r.contentType) r

end Determinizer.Web
