import Mathlib
import Determinizer.Json.Reader.Text
import Determinizer.Json.Writer

/-! Written strings are read back. Each character is written as itself, as a short escape, or by its
UTF-16 units; each of the three forms is one step of the reader, and the closing quote ends them. -/

namespace Determinizer.Json

open Text (hex hexValue? hexValue?_digitChar)

variable {opening done r : List Char} {c : Char}

theorem hex_four (n : Nat) : hex 4 n =
    [(n / 4096 % 16).digitChar, (n / 256 % 16).digitChar, (n / 16 % 16).digitChar,
      (n % 16).digitChar] := by
  simp [hex, Nat.div_div_eq_div_mul]

theorem codeUnit?_hex {n : Nat} (hn : n < 0x10000) (hr : r ≠ []) :
    ∃ h, codeUnit? (hex 4 n ++ r) = some (n, ⟨r, h⟩) := by
  obtain ⟨e, r, rfl⟩ := List.exists_cons_of_ne_nil hr
  have hsum : ((n / 4096 % 16 * 16 + n / 256 % 16) * 16 + n / 16 % 16) * 16 + n % 16 = n := by omega
  rw [hex_four]
  refine ⟨by simp, ?_⟩
  change (hexValue? _).bind _ = _
  simp only [hexValue?_digitChar (Nat.mod_lt _ (Nat.zero_lt_succ 15)), Option.bind_eq_bind,
    Option.bind_some, hsum]

theorem toNat_lt_or (c : Char) : c.toNat < 0xd800 ∨ 0xdfff < c.toNat ∧ c.toNat < 0x110000 :=
  c.valid

theorem character_toNat (lone c : Char) : Encoding.character lone c.toNat = c := by
  have hvalid := toNat_lt_or c
  have hsurrogate : (Encoding.isHighSurrogate c.toNat || Encoding.isLowSurrogate c.toNat) = false := by
    simp only [Encoding.isHighSurrogate, Encoding.isLowSurrogate, Bool.or_eq_false_iff,
      Bool.and_eq_false_iff, decide_eq_false_iff_not]
    omega
  rw [Encoding.character, hsurrogate]
  exact Char.ofNat_toNat c

variable [Host]

theorem unicodeEscape_unit (hc : c.toNat < 0x10000) (hr : r ≠ []) :
    ∃ h, unicodeEscape (hex 4 c.toNat ++ r) = .ok (c, ⟨r, h⟩) := by
  obtain ⟨h, hunit⟩ := codeUnit?_hex hc hr
  have hvalid := toNat_lt_or c
  have hhigh : Encoding.isHighSurrogate c.toNat = false := by
    simp only [Encoding.isHighSurrogate, Bool.and_eq_false_iff, decide_eq_false_iff_not]
    omega
  refine ⟨h, ?_⟩
  rw [unicodeEscape, hunit]
  simp only [hhigh, character_toNat]
  rfl

theorem unicodeEscape_pair (hc : 0x10000 ≤ c.toNat) (hr : r ≠ []) :
    ∃ h, unicodeEscape (hex 4 (0xd800 + (c.toNat - 0x10000) / 0x400) ++
      '\\' :: 'u' :: (hex 4 (0xdc00 + (c.toNat - 0x10000) % 0x400) ++ r)) = .ok (c, ⟨r, h⟩) := by
  have hvalid := toNat_lt_or c
  generalize hhi : 0xd800 + (c.toNat - 0x10000) / 0x400 = high
  generalize hlo : 0xdc00 + (c.toNat - 0x10000) % 0x400 = low
  obtain ⟨h₂, hlow⟩ := codeUnit?_hex (n := low) (by omega) hr
  obtain ⟨h₁, hhigh⟩ := codeUnit?_hex (n := high) (r := '\\' :: 'u' :: (hex 4 low ++ r)) (by omega)
    (List.cons_ne_nil _ _)
  have hs₁ : Encoding.isHighSurrogate high = true := by
    simp only [Encoding.isHighSurrogate, Bool.and_eq_true, decide_eq_true_eq]
    omega
  have hs₂ : Encoding.isLowSurrogate low = true := by
    simp only [Encoding.isLowSurrogate, Bool.and_eq_true, decide_eq_true_eq]
    omega
  have hjoin : Encoding.joinSurrogates high low = c := by
    have hn : 0x10000 + (high - 0xd800) * 0x400 + (low - 0xdc00) = c.toNat := by omega
    rw [Encoding.joinSurrogates, hn, Char.ofNat_toNat]
  refine ⟨by simp; omega, ?_⟩
  rw [unicodeEscape, hhigh]
  simp only [hs₁, if_true, hlow, hs₂, hjoin]

theorem stringRest_quote (hs : ('"' :: r).length < opening.length) :
    ∃ h, stringRest opening done ('"' :: r) hs = .ok (String.ofList done.reverse, ⟨r, h⟩) := by
  refine ⟨Nat.lt_of_succ_lt hs, ?_⟩
  rw [stringRest.eq_def]
  simp

theorem stringRest_plain (hs : (c :: r).length < opening.length) (hquote : c ≠ '"')
    (hescape : c ≠ '\\') (hcontrol : ¬ c < ' ') :
    ∃ h, stringRest opening done (c :: r) hs = stringRest opening (c :: done) r h := by
  refine ⟨Nat.lt_of_succ_lt hs, ?_⟩
  rw [stringRest.eq_def]
  simp only [hquote, hescape, hcontrol, if_false]

theorem stringRest_simple {e : Char} (hs : ('\\' :: e :: r).length < opening.length)
    (he : simpleEscape? e = some c) :
    ∃ h, stringRest opening done ('\\' :: e :: r) hs = stringRest opening (c :: done) r h := by
  refine ⟨Nat.lt_of_succ_lt (Nat.lt_of_succ_lt hs), ?_⟩
  have hu : e ≠ 'u' := by
    rintro rfl
    simp [simpleEscape?] at he
  rw [stringRest.eq_def]
  simp [he]

theorem stringRest_unicode {t : List Char} {h : t.length < r.length}
    (hs : ('\\' :: 'u' :: r).length < opening.length) (he : unicodeEscape r = .ok (c, ⟨t, h⟩)) :
    ∃ h, stringRest opening done ('\\' :: 'u' :: r) hs = stringRest opening (c :: done) t h := by
  refine ⟨by simp at hs; omega, ?_⟩
  rw [stringRest.eq_def]
  simp [he]

theorem stringRest_units (hs : (unitsEscape c ++ r).length < opening.length) (hr : r ≠ []) :
    ∃ h, stringRest opening done (unitsEscape c ++ r) hs = stringRest opening (c :: done) r h := by
  by_cases hc : c.toNat < 0x10000
  · obtain ⟨h, he⟩ := unicodeEscape_unit hc hr
    have hform : unitsEscape c ++ r = '\\' :: 'u' :: (hex 4 c.toNat ++ r) := by
      rw [unitsEscape, if_pos hc]
      rfl
    revert hs
    rw [hform]
    exact fun hs => stringRest_unicode hs he
  · obtain ⟨h, he⟩ := unicodeEscape_pair (Nat.le_of_not_lt hc) hr
    have hform : unitsEscape c ++ r = '\\' :: 'u' ::
        (hex 4 (0xd800 + (c.toNat - 0x10000) / 0x400) ++
          '\\' :: 'u' :: (hex 4 (0xdc00 + (c.toNat - 0x10000) % 0x400) ++ r)) := by
      rw [unitsEscape, if_neg hc]
      simp [unitEscape]
    revert hs
    rw [hform]
    exact fun hs => stringRest_unicode hs he

theorem stringRest_short {e : List Char} (he : shortEscape? c = some e)
    (hs : (e ++ r).length < opening.length) :
    ∃ h, stringRest opening done (e ++ r) hs = stringRest opening (c :: done) r h := by
  have hsimple : ∃ x, e = ['\\', x] ∧ simpleEscape? x = some c := by
    unfold shortEscape? at he
    split at he <;> simp only [Option.some.injEq, reduceCtorEq] at he <;> subst he
    all_goals exact ⟨_, rfl, rfl⟩
  obtain ⟨x, rfl, hx⟩ := hsimple
  exact stringRest_simple hs hx

def ReadBack (escape : Char → List Char) : Prop :=
  ∀ (c : Char) (opening done r : List Char) (hs : (escape c ++ r).length < opening.length),
    r ≠ [] →
      ∃ h, stringRest opening done (escape c ++ r) hs = stringRest opening (c :: done) r h

omit [Host] in
theorem ne_of_shortEscape?_eq_none (h : shortEscape? c = none) : c ≠ '"' ∧ c ≠ '\\' := by
  constructor <;> rintro rfl <;> simp [shortEscape?] at h

theorem readBack_escapeAscii : ReadBack escapeAscii := by
  intro c opening done r hs hr
  revert hs
  cases hshort : shortEscape? c with
  | some e =>
    rw [escapeAscii, hshort]
    exact stringRest_short hshort
  | none =>
    rw [escapeAscii, hshort, Option.getD_none]
    obtain ⟨hquote, hescape⟩ := ne_of_shortEscape?_eq_none hshort
    split
    · next hc => exact fun hs => stringRest_plain hs hquote hescape (Char.not_lt.2 hc.1)
    · exact fun hs => stringRest_units hs hr

theorem readBack_escapeControl : ReadBack escapeControl := by
  intro c opening done r hs hr
  revert hs
  cases hshort : shortEscape? c with
  | some e =>
    rw [escapeControl, hshort]
    exact stringRest_short hshort
  | none =>
    rw [escapeControl, hshort, Option.getD_none]
    obtain ⟨hquote, hescape⟩ := ne_of_shortEscape?_eq_none hshort
    split
    · exact fun hs => stringRest_units hs hr
    · next hc => exact fun hs => stringRest_plain hs hquote hescape hc

theorem stringRest_flatMap {escape : Char → List Char} (he : ReadBack escape) (s : List Char)
    (hs : (s.flatMap escape ++ '"' :: r).length < opening.length) :
    ∃ h, stringRest opening done (s.flatMap escape ++ '"' :: r) hs =
      .ok (String.ofList (done.reverse ++ s), ⟨r, h⟩) := by
  induction s generalizing done with
  | nil =>
    rw [List.append_nil]
    exact stringRest_quote hs
  | cons c s ih =>
    revert hs
    rw [List.flatMap_cons, List.append_assoc]
    intro hs
    obtain ⟨hs', hstep⟩ := he c opening done _ hs (by simp)
    obtain ⟨h, hrest⟩ := ih hs'
    refine ⟨h, ?_⟩
    rw [hstep, hrest]
    simp

theorem stringRest_quoted {escape : Char → List Char} (he : ReadBack escape) (s r : List Char) :
    ∃ h, stringRest ('"' :: (s.flatMap escape ++ '"' :: r)) [] (s.flatMap escape ++ '"' :: r)
      (Nat.lt_succ_self _) = .ok (String.ofList s, ⟨r, h⟩) :=
  stringRest_flatMap he s _

end Determinizer.Json
