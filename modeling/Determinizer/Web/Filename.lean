import Determinizer.Text.Printable
import Determinizer.Text.Reference

/-! Names of uploaded files. A name counts without the folders in front of it and without what
cannot be seen, and only if that leaves more than the names of folders. -/

namespace Determinizer.Web.Filename

def baseName (s : List Char) : List Char :=
  (s.reverse.takeWhile fun c => c ≠ '/' ∧ c ≠ '\\').reverse

def clean (name : String) : List Char :=
  (baseName (Text.resolveReferences name.toList)).filter Text.isPrintable

def isUsable (name : String) : Bool :=
  clean name ≠ [] && clean name ≠ ['.'] && clean name ≠ ['.', '.']

end Determinizer.Web.Filename
