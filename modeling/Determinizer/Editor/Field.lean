import Determinizer.Text.Blank
import Determinizer.Text.Split

/-! Form fields. A list field holds items between commas; blanks around an item do not count, and an
item that is all blank is none. -/

namespace Determinizer.Field

def strip (text : String) : String := String.ofList (Text.trim text.toList)

def items (text : String) : List String :=
  ((Text.split "," text).map strip).filter (· ≠ "")

end Determinizer.Field
