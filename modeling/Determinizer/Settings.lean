import Determinizer.Text.Quoted

/-! Settings: two named options, each with a default. An option may be set to null, which is a value
of its own and does not bring the default back. -/

namespace Determinizer

structure Settings where
  delimiter : Option String
  exportFilename : Option String
deriving DecidableEq, Repr

structure UnknownOption where
  name : String
deriving DecidableEq, Repr

def UnknownOption.message (e : UnknownOption) : String := Text.quoted e.name

namespace Settings

def default : Settings := ⟨some "", some "nfa-config.json"⟩

def ofList (values : List (String × Option String)) : Settings where
  delimiter := (values.lookup "STATE_DELIMITER").getD default.delimiter
  exportFilename := (values.lookup "EXPORT_FILENAME").getD default.exportFilename

def get (s : Settings) (name : String) : Except UnknownOption (Option String) :=
  if name = "STATE_DELIMITER" then .ok s.delimiter
  else if name = "EXPORT_FILENAME" then .ok s.exportFilename
  else .error ⟨name⟩

def nullDelimiterMessage : String := "'NoneType' object has no attribute 'join'"

end Settings
end Determinizer
