/-! Hexadecimal numbers of a fixed width, written with small letters and read with either case. -/

namespace Determinizer.Text

def hex : (width : Nat) → Nat → List Char
  | 0, _ => []
  | width + 1, n => hex width (n / 16) ++ [(n % 16).digitChar]

def hexValue? (c : Char) : Option Nat :=
  if '0' ≤ c ∧ c ≤ '9' then some (c.toNat - '0'.toNat)
  else if 'a' ≤ c ∧ c ≤ 'f' then some (c.toNat - 'a'.toNat + 10)
  else if 'A' ≤ c ∧ c ≤ 'F' then some (c.toNat - 'A'.toNat + 10)
  else none

@[simp] theorem length_hex (width n : Nat) : (hex width n).length = width := by
  induction width generalizing n with
  | zero => rfl
  | succ w ih => simp [hex, ih]

private theorem hexValue?_digitChar_fin :
    ∀ k : Fin 16, hexValue? (k.val.digitChar) = some k.val := by decide

theorem hexValue?_digitChar {k : Nat} (h : k < 16) : hexValue? k.digitChar = some k :=
  hexValue?_digitChar_fin ⟨k, h⟩

end Determinizer.Text
