/-! What the library leaves open about the call that a text is read or written in. Brackets may be
nested as deep as the stack still allows, which what called the library has its share of, so that
another call may find another depth; two hundred are always left. A surrogate that stands alone is
no character, and no statement may depend on the one that is read in its place. -/

namespace Determinizer

class Host where
  reading : Nat
  writing : Nat
  /-- What a surrogate that stands alone is read as. -/
  lone : Char
  le_reading : 200 ≤ reading
  le_writing : 200 ≤ writing

instance Host.default : Host := ⟨980, 978, '\ufffd', by decide, by decide⟩

abbrev Host.withLone [h : Host] (lone : Char) : Host := { h with lone }

end Determinizer
