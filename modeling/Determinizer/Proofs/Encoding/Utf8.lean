import Mathlib
import Determinizer.Encoding.Utf8

/-! Encoded text is decoded again. The bytes of a character are a leading byte and one byte for each
of the ranges that it asks for, and the six bits of each are those of the character. -/

namespace Determinizer.Encoding.Utf8

variable {m n low high : Nat} {ranges : List (Nat × Nat)} {bytes rest : List UInt8}

theorem toNat_toUInt8 (h : n < 256) : n.toUInt8.toNat = n := by
  rw [Nat.toUInt8, UInt8.toNat_ofNat', Nat.mod_eq_of_lt h]

theorem follow_tail (hlow : low ≤ 0x80 + m % 64) (hhigh : 0x80 + m % 64 ≤ high) :
    follow ((low, high) :: ranges) n ((0x80 + m % 64).toUInt8 :: bytes) =
      ((follow ranges (n * 64 + m % 64) bytes).1 + 1, (follow ranges (n * 64 + m % 64) bytes).2) := by
  have htail : (0x80 + m % 64).toUInt8.toNat = 0x80 + m % 64 := toNat_toUInt8 (by omega)
  have hbits : (0x80 + m % 64) % 64 = m % 64 := by omega
  rw [follow, htail, if_pos ⟨hlow, hhigh⟩, hbits]

theorem follow_nil : follow [] n rest = (0, n) := by
  simp [follow]

structure Leads (b bits : Nat) (ranges : List (Nat × Nat)) : Prop where
  small : b < 256
  lead : lead? b = some (bits, ranges)

theorem leads_one (h : n < 0x80) : Leads n n [] := by
  refine ⟨by omega, ?_⟩
  rw [lead?, if_pos h]

theorem leads_two (h : 2 ≤ n) (h' : n < 0x20) : Leads (0xc0 + n) n [(0x80, 0xbf)] := by
  refine ⟨by omega, ?_⟩
  rw [lead?, if_neg (by omega), if_neg (by omega), if_pos (by omega)]
  congr 2
  omega

theorem leads_three (h : n < 0x10) :
    ∃ low high, Leads (0xe0 + n) n [(low, high), (0x80, 0xbf)] ∧
      low = (if n = 0 then 0xa0 else 0x80) ∧ high = (if n = 13 then 0x9f else 0xbf) := by
  refine ⟨_, _, ⟨by omega, ?_⟩, rfl, rfl⟩
  interval_cases n <;> rfl

theorem leads_four (h : n < 5) :
    ∃ low high, Leads (0xf0 + n) n [(low, high), (0x80, 0xbf), (0x80, 0xbf)] ∧
      low = (if n = 0 then 0x90 else 0x80) ∧ high = (if n = 4 then 0x8f else 0xbf) := by
  refine ⟨_, _, ⟨by omega, ?_⟩, rfl, rfl⟩
  interval_cases n <;> rfl

theorem exists_encodeChar (c : Char) :
    ∃ b tail bits ranges, encodeChar c = b.toUInt8 :: tail ∧ Leads b bits ranges ∧
      tail.length = ranges.length ∧
      ∀ rest, follow ranges bits (tail ++ rest) = (ranges.length, c.toNat) := by
  have hvalid : c.toNat < 0xd800 ∨ 0xdfff < c.toNat ∧ c.toNat < 0x110000 := c.valid
  generalize hn : c.toNat = n at hvalid
  simp only [encodeChar, hn, Nat.shiftRight_eq_div_pow]
  split
  · next h1 => exact ⟨n, [], n, [], rfl, leads_one h1, rfl, fun _ => follow_nil⟩
  split
  · next h1 h2 =>
    refine ⟨_, _, _, _, rfl, leads_two (n := n / 2 ^ 6) (by omega) (by omega), rfl, fun rest => ?_⟩
    simp only [List.cons_append, List.nil_append]
    rw [follow_tail (by omega) (by omega), follow_nil]
    simp
    omega
  split
  · next h1 h2 h3 =>
    obtain ⟨low, high, hleads, hlow, hhigh⟩ := leads_three (n := n / 2 ^ 12) (by omega)
    refine ⟨_, _, _, _, rfl, hleads, rfl, fun rest => ?_⟩
    simp only [List.cons_append, List.nil_append]
    rw [follow_tail (by split at hlow <;> omega) (by split at hhigh <;> omega),
      follow_tail (by omega) (by omega), follow_nil]
    simp
    omega
  · next h1 h2 h3 =>
    obtain ⟨low, high, hleads, hlow, hhigh⟩ := leads_four (n := n / 2 ^ 18) (by omega)
    refine ⟨_, _, _, _, rfl, hleads, rfl, fun rest => ?_⟩
    simp only [List.cons_append, List.nil_append]
    rw [follow_tail (by split at hlow <;> omega) (by split at hhigh <;> omega),
      follow_tail (by omega) (by omega), follow_tail (by omega) (by omega), follow_nil]
    simp
    omega

theorem decodeFrom_encodeChar (lone : Option Char) (c : Char) (position : Nat) (done : List Char)
    (rest : List UInt8) :
    ∃ position', decodeFrom lone position done (encodeChar c ++ rest) =
      decodeFrom lone position' (c :: done) rest := by
  obtain ⟨b, tail, bits, ranges, hbytes, hleads, hlength, hfollow⟩ := exists_encodeChar c
  refine ⟨position + ranges.length + 1, ?_⟩
  rw [hbytes, List.cons_append, decodeFrom, toNat_toUInt8 hleads.small, hleads.lead]
  simp only [hfollow]
  rw [if_pos trivial, ← hlength, List.drop_left, Char.ofNat_toNat]

theorem decodeFrom_encode (lone : Option Char) (position : Nat) (done s : List Char) :
    decodeFrom lone position done (encode s) = .ok (done.reverse ++ s) := by
  induction s generalizing position done with
  | nil => rw [List.append_nil, encode, List.flatMap_nil, decodeFrom]
  | cons c s ih =>
    rw [encode, List.flatMap_cons]
    obtain ⟨position', hstep⟩ := decodeFrom_encodeChar lone c position done (encode s)
    refine hstep.trans ((ih position' (c :: done)).trans ?_)
    simp

theorem decode_encode (s : List Char) : decode (encode s) = .ok s := decodeFrom_encode none 0 [] s

theorem encode_append (s t : List Char) : encode (s ++ t) = encode s ++ encode t :=
  List.flatMap_append

theorem length_encode_le (s : List Char) : (encode s).length ≤ 4 * s.length := by
  have hchar : ∀ c, (encodeChar c).length ≤ 4 := by
    intro c
    unfold encodeChar
    dsimp only
    split_ifs <;> simp
  induction s with
  | nil => rfl
  | cons c s ih =>
    have hc := hchar c
    rw [encode, List.flatMap_cons, List.length_append, List.length_cons]
    change _ + (encode s).length ≤ _
    omega

end Determinizer.Encoding.Utf8
