import Determinizer.Config.Document
import Determinizer.Settings
import Determinizer.Web.Message

/-! Failed requests. What the client can mend is refused with status 400; what breaks off the work
on a request has status 500, and its message says so. -/

namespace Determinizer.Web

inductive Refusal where
  | undecodable (fault : Encoding.Fault)
  | unreadable (error : Json.ReadError)
  | bodyNotObject
  | missingNfa
  | missingFile
  | rejected (rejection : Rejection)
  | labels (fault : LabelFault)
  | notLists
  | incompleteRow
  | headerLines (value : String)
deriving DecidableEq, Repr

def Refusal.message : Refusal → String
  | undecodable fault => fault.message
  | unreadable e => e.message
  | bodyNotObject => "Request body must be a JSON object"
  | missingNfa => "Missing NFA definition"
  | missingFile => "Missing NFA configuration file"
  | rejected r => r.message
  | labels fault => fault.message
  | notLists => "alphabet and dfa_table must be lists"
  | incompleteRow => "Each DFA state needs name, isAccepting and transitions"
  | headerLines value => s!"Header values can't contain newlines (got {Text.quoted value})"

inductive Breakdown where
  | limit (limit : Json.Limit)
  | tooDeep
  | containerSymbol (kind : Json.Container)
  | nullDelimiter
  | body (fault : BodyFault)
deriving DecidableEq, Repr

def Breakdown.message : Breakdown → String
  | limit l => s!"Server error: {l.message}"
  | tooDeep => "Server error: maximum recursion depth exceeded while encoding a JSON object"
  | containerSymbol .array => "Server error: unhashable type: 'list'"
  | containerSymbol .object => "Server error: unhashable type: 'dict'"
  | nullDelimiter => s!"Server error: {Settings.nullDelimiterMessage}"
  | body fault => s!"Server error: {fault.message}"

inductive Failure where
  | refused (refusal : Refusal)
  | broken (breakdown : Breakdown)
deriving DecidableEq, Repr

def Failure.status : Failure → Nat
  | refused _ => 400
  | broken _ => 500

def Failure.message : Failure → String
  | refused r => r.message
  | broken b => b.message

end Determinizer.Web
