import Determinizer.Proofs.Json.Number

/-! Written doubles are numerals. The shortest decimal of a double that is not zero has a digit that
is not zero, so its text has no zero in front of other digits, and it always has a fraction or an
exponent, also for a whole number. -/

namespace Determinizer.Decimal

open Json (IsDecimal IsIntegerPart IsFractionPart IsExponentPart isDigit numberStyle)

namespace Double

variable {x : Double} {d : Scaled} {e : Int}

theorem gridRatio_fst_pos (j i : Int) : 0 < (gridRatio j i).1 := by
  have hpow : 0 < Nat.pow 10 (-i).toNat := Nat.pow_pos (by decide)
  rw [gridRatio, Nat.shiftLeft_eq]
  exact Nat.mul_pos hpow (Nat.pow_pos (by decide))

theorem digits_pos_of_readsBack (hx : 0 < x.significand) (h : x.readsBack d = true) :
    0 < d.digits := by
  rw [Nat.pos_iff_ne_zero]
  intro hd
  have ha := gridRatio_fst_pos (x.exponent - 2) d.exponent
  have hlow : 0 < 4 * x.significand - (if x.narrowBelow then 1 else 2) := by
    split <;> omega
  have hpos := Nat.mul_pos hlow ha
  simp only [readsBack, hd, Nat.zero_mul] at h
  split at h <;> simp only [decide_eq_true_eq] at h <;> omega

theorem readsBack_of_onGrid? (h : x.onGrid? e = some d) : x.readsBack d = true := by
  unfold onGrid? at h
  dsimp only at h
  split at h
  · next hlower _ => exact Option.some.inj h ▸ hlower
  · next _ hupper => exact Option.some.inj h ▸ hupper
  · exact absurd h (by simp)
  · next hlower hupper =>
    split at h
    · exact Option.some.inj h ▸ hlower
    · exact Option.some.inj h ▸ hupper
    · split at h
      · exact Option.some.inj h ▸ hlower
      · exact Option.some.inj h ▸ hupper

theorem digits_shortest_pos (hx : 0 < x.significand) : 0 < x.shortest.digits := by
  rw [shortest]
  cases hfind : (List.range 24).findSome? fun (i : Nat) => x.onGrid? (x.topExponent - i) with
  | none =>
    change 0 < x.significand <<< x.exponent.toNat
    rw [Nat.shiftLeft_eq]
    exact Nat.mul_pos hx (Nat.pow_pos (by decide))
  | some d =>
    obtain ⟨i, -, hgrid⟩ := List.exists_of_findSome?_eq_some hfind
    exact digits_pos_of_readsBack hx (readsBack_of_onGrid? hgrid)

theorem significand_ofBits_pos {bits : Nat} (h : bits ≠ 0) : 0 < (ofBits bits).significand := by
  unfold ofBits
  dsimp only
  split
  · next hfield =>
    rw [Nat.shiftRight_eq_div_pow] at hfield
    simp only [Nat.shiftLeft_eq]
    omega
  · simp only [Nat.shiftLeft_eq]
    omega

end Double

namespace Style

variable {ds : List Char}

theorem isDigit_of_mem_digits {n : Nat} {c : Char} (h : c ∈ digits n) : isDigit c = true :=
  Json.isDigit_iff.2 (Nat.isDigit_of_mem_toDigits (by decide) (by decide) h)

theorem exists_digits_eq_cons {n : Nat} (hn : 0 < n) :
    ∃ c ds, digits n = c :: ds ∧ isDigit c = true ∧ c ≠ '0' ∧ ∀ d ∈ ds, isDigit d = true := by
  rcases Json.isIntegerPart_toDigits n with hzero | h
  · have hval := Json.digitsValue_toDigits n
    rw [hzero] at hval
    have hn0 : n = 0 := by rw [← hval]; decide
    omega
  · exact h

theorem isExponentPart_append (exponent : Int) : IsExponentPart ('e' ::
    (if exponent < 0 then '-' else '+') :: padLeft numberStyle.exponentWidth
      (digits exponent.natAbs)) := by
  have hall : ∀ c ∈ padLeft numberStyle.exponentWidth (digits exponent.natAbs),
      isDigit c = true := by
    intro c hc
    rcases List.mem_append.1 hc with hc | hc
    · rw [List.eq_of_mem_replicate hc]
      rfl
    · exact isDigit_of_mem_digits hc
  have hne : padLeft numberStyle.exponentWidth (digits exponent.natAbs) ≠ [] := by
    have hlen : 0 < (digits exponent.natAbs).length := Nat.length_toDigits_pos
    rw [← List.length_pos_iff, padLeft, List.length_append]
    omega
  obtain ⟨c, ds, hcons⟩ := List.exists_cons_of_ne_nil hne
  rw [hcons] at hall ⊢
  refine ⟨_, c, ds, rfl, ?_, hall c List.mem_cons_self,
    fun d hd => hall d (List.mem_cons_of_mem _ hd)⟩
  split
  · exact .inr rfl
  · exact .inl rfl

theorem isDecimal_scientific {n : Nat} (hn : 0 < n) (exponent : Int) :
    IsDecimal (numberStyle.scientific (digits n) exponent) := by
  obtain ⟨c, ds, hds, hc, hc0, hall⟩ := exists_digits_eq_cons hn
  have hexponent := isExponentPart_append exponent
  refine ⟨[c], if ds.isEmpty then [] else '.' :: ds, _, ?_, .inr ⟨c, [], rfl, hc, hc0, by simp⟩, ?_,
    .inr hexponent, by simp⟩
  · rw [scientific, hds]
    simp
  · cases ds with
    | nil => exact .inl rfl
    | cons d ds =>
      exact .inr ⟨d, ds, rfl, hall d List.mem_cons_self,
        fun d hd => hall d (List.mem_cons_of_mem _ hd)⟩

theorem isDecimal_positional {n : Nat} (hn : 0 < n) (exponent : Int) :
    IsDecimal (numberStyle.positional (digits n) exponent) := by
  obtain ⟨c, ds, hds, hc, hc0, hall⟩ := exists_digits_eq_cons hn
  have hdigits : ∀ d ∈ c :: ds, isDigit d = true := by simpa [hc] using hall
  rw [positional, hds]
  split
  · have hfraction : ∀ d ∈ List.replicate (-exponent - 1).toNat '0' ++ c :: ds,
        isDigit d = true := by
      intro d hd
      rcases List.mem_append.1 hd with hd | hd
      · rw [List.eq_of_mem_replicate hd]
        rfl
      · exact hdigits d hd
    obtain ⟨d, es, hcons⟩ := List.exists_cons_of_ne_nil
      (show List.replicate (-exponent - 1).toNat '0' ++ c :: ds ≠ [] by simp)
    refine ⟨['0'], '.' :: d :: es, [], by simp [← hcons], .inl rfl, .inr ⟨d, es, rfl, ?_, ?_⟩,
      .inl rfl, by simp⟩
    · exact hfraction d (hcons ▸ List.mem_cons_self)
    · exact fun b hb => hfraction b (hcons ▸ List.mem_cons_of_mem _ hb)
  · dsimp only
    split
    · -- zeros up to the point, and one behind it
      refine ⟨c :: (ds ++ List.replicate (exponent.toNat + 1 - (c :: ds).length) '0'), ['.', '0'],
        [], by simp [numberStyle], .inr ⟨c, _, rfl, hc, hc0, fun d hd => ?_⟩,
        .inr ⟨'0', [], rfl, rfl, by simp⟩, .inl rfl, by simp⟩
      rcases List.mem_append.1 hd with hd | hd
      · exact hall d hd
      · rw [List.eq_of_mem_replicate hd]
        rfl
    · next hlen =>
      have hne : ds.drop exponent.toNat ≠ [] := by
        rw [← List.length_pos_iff, List.length_drop]
        simp only [List.length_cons] at hlen
        omega
      obtain ⟨d, es, hcons⟩ := List.exists_cons_of_ne_nil hne
      have hrest : ∀ b ∈ d :: es, isDigit b = true := fun b hb =>
        hall b (List.drop_subset _ _ (hcons ▸ hb))
      refine ⟨c :: ds.take exponent.toNat, '.' :: d :: es, [], ?_,
        .inr ⟨c, _, rfl, hc, hc0, fun b hb => hall b (List.take_subset _ _ hb)⟩,
        .inr ⟨d, es, rfl, hrest d List.mem_cons_self,
          fun b hb => hrest b (List.mem_cons_of_mem _ hb)⟩, .inl rfl, by simp⟩
      simp [← hcons]

theorem isDecimal_layout {d : Scaled} (hd : 0 < d.digits) : IsDecimal (numberStyle.layout d) := by
  rw [layout]
  split
  · exact isDecimal_positional hd _
  · exact isDecimal_scientific hd _

theorem write_cases (x : Float) :
    numberStyle.write x = "NaN".toList ∨
      ∃ negative : Bool, numberStyle.write x = (if negative then ['-'] else []) ++ "Infinity".toList ∨
        ∃ s, IsDecimal s ∧ numberStyle.write x = (if negative then ['-'] else []) ++ s := by
  have hsign : ∀ bits : Nat, (if bits < 1 <<< 63 then [] else ['-']) =
      if decide (¬ bits < 1 <<< 63) then ['-'] else [] := by
    intro bits
    by_cases h : bits < 1 <<< 63
    · rw [if_pos h, if_neg fun hd => absurd h (of_decide_eq_true hd)]
    · rw [if_neg h, if_pos (decide_eq_true h)]
  rw [write]
  split
  · exact .inl rfl
  · rw [hsign]
    refine .inr ⟨decide (¬ x.toBits.toNat < 1 <<< 63), ?_⟩
    split
    · exact .inl rfl
    · split
      · refine .inr ⟨'0' :: numberStyle.afterInteger.toList, ?_, rfl⟩
        exact ⟨['0'], ['.', '0'], [], by simp [numberStyle], .inl rfl,
          .inr ⟨'0', [], rfl, rfl, by simp⟩, .inl rfl, by simp⟩
      · next hzero =>
        exact .inr ⟨_, isDecimal_layout (Double.digits_shortest_pos
          (Double.significand_ofBits_pos hzero)), rfl⟩

end Style
end Determinizer.Decimal
