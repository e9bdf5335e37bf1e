import Determinizer.Encoding.Detection
import Determinizer.Proofs.Encoding.Utf8

/-! UTF-8 is recognised in what starts with two characters of ASCII, as the text of an object does.
-/

namespace Determinizer.Encoding

variable {a b : UInt8} {bytes : List UInt8}

theorem Utf8.encodeChar_ascii {c : Char} (h : c.toNat < 0x80) :
    Utf8.encodeChar c = [c.toNat.toUInt8] := by
  simp only [Utf8.encodeChar, if_pos h]

theorem detect_ascii (ha : 0 < a.toNat ∧ a.toNat < 0x80) (hb : 0 < b.toNat ∧ b.toNat < 0x80) :
    detect (a :: b :: bytes) = (utf8, 0) := by
  have hne : ∀ x y : UInt8, 0 < x.toNat ∧ x.toNat < 0x80 → y = 0 ∨ 0x80 ≤ y.toNat →
      (y == x) = false := by
    intro x y hx hy
    rw [beq_eq_false_iff_ne]
    rintro rfl
    rcases hy with rfl | hy
    · exact absurd hx.1 (by decide)
    · omega
  have ha0 : a ≠ 0 := fun h => absurd (hne a 0 ha (.inl rfl)) (by simp [h])
  have hb0 : b ≠ 0 := fun h => absurd (hne b 0 hb (.inl rfl)) (by simp [h])
  have hmark : ∀ x mark, x = 0 ∨ 0x80 ≤ x.toNat → (x :: mark).isPrefixOf (a :: b :: bytes) = false := by
    intro x mark hx
    rw [List.isPrefixOf_cons_cons, hne a x ha hx, Bool.false_and]
  have hunmarked : detectUnmarked (a :: b :: bytes) = utf8 := by
    rcases bytes with _ | ⟨c, _ | ⟨d, bytes⟩⟩
    · simp [detectUnmarked, ha0, hb0]
    · simp [detectUnmarked]
    · simp [detectUnmarked, ha0, hb0]
  simp only [detect, Utf32.mark, Utf16.mark, hunmarked]
  rw [hmark 0 _ (.inl rfl), hmark 0xff _ (by decide), hmark 0xfe _ (by decide),
    hmark 0xff _ (by decide), hmark 0xef _ (by decide)]
  rfl

theorem decode_encode_ascii [Host] {c d : Char} (s : List Char) (hc : 0 < c.toNat ∧ c.toNat < 0x80)
    (hd : 0 < d.toNat ∧ d.toNat < 0x80) :
    decode (Utf8.encode (c :: d :: s)) = .ok (c :: d :: s) := by
  have hbytes : Utf8.encode (c :: d :: s) =
      c.toNat.toUInt8 :: d.toNat.toUInt8 :: Utf8.encode s := by
    simp only [Utf8.encode, List.flatMap_cons, Utf8.encodeChar_ascii hc.2,
      Utf8.encodeChar_ascii hd.2, List.cons_append, List.nil_append]
  have hdetect : detect (Utf8.encode (c :: d :: s)) = (utf8, 0) := by
    rw [hbytes]
    refine detect_ascii ?_ ?_
    · rw [Utf8.toNat_toUInt8 (by omega)]
      exact hc
    · rw [Utf8.toNat_toUInt8 (by omega)]
      exact hd
  rw [decode, hdetect]
  exact Utf8.decodeFrom_encode (some Host.lone) 0 [] _

end Determinizer.Encoding
