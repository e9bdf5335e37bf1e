import Determinizer.Encoding.EncodedWord

/-! Values of response headers. Latin-1 goes out as it is, other text as encoded words. -/

namespace Determinizer.Web

def headerValue? (s : String) : Option String :=
  if s.toList.any fun c => c = '\n' ∨ c = '\r' then none
  else if s.toList.all (·.toNat < 0x100) then some s
  else some (Encoding.EncodedWord.encode s)

end Determinizer.Web
