import Mathlib
import Determinizer.Text.Split

/-! Where the cuts fall. A scan for a delimiter stops at its leftmost occurrence, so a piece that is
followed by the delimiter comes back whole unless the two run into each other: the piece ends with a
beginning of the delimiter, and the rest of the delimiter is a beginning of it as well. -/

namespace Determinizer.Text

variable {d p q s : List Char} {ps : List (List Char)}

/-- An occurrence of the delimiter starts inside the piece and ends inside the delimiter behind it.
-/
def RunsInto (d p : List Char) : Prop :=
  ∃ x b, x ≠ [] ∧ b ≠ [] ∧ x ++ b = d ∧ x <:+ p ∧ b <+: d

theorem runsInto_iff_take : RunsInto d p ↔
    ∃ n ∈ List.range d.length, n ≠ 0 ∧ d.take n <:+ p ∧ d.drop n <+: d := by
  constructor
  · rintro ⟨x, b, hx, hb, rfl, hxp, hbd⟩
    have hx0 := List.length_pos_iff.2 hx
    have hb0 := List.length_pos_iff.2 hb
    refine ⟨x.length, ?_, by omega, ?_, ?_⟩
    · rw [List.mem_range, List.length_append]
      omega
    · rwa [List.take_left]
    · rwa [List.drop_left]
  · rintro ⟨n, hn, hn0, hxp, hbd⟩
    rw [List.mem_range] at hn
    refine ⟨d.take n, d.drop n, ?_, ?_, List.take_append_drop n d, hxp, hbd⟩
    · rw [← List.length_pos_iff, List.length_take]
      omega
    · rw [← List.length_pos_iff, List.length_drop]
      omega

instance (d p : List Char) : Decidable (RunsInto d p) := decidable_of_iff _ runsInto_iff_take.symm

theorem RunsInto.cons {c : Char} (h : RunsInto d p) : RunsInto d (c :: p) := by
  obtain ⟨x, b, hx, hb, hd, hxp, hbd⟩ := h
  exact ⟨x, b, hx, hb, hd, hxp.trans (List.suffix_cons c p), hbd⟩

theorem RunsInto.exists_occurrence (h : RunsInto d p) :
    ∃ u y, u.length < p.length ∧ p ++ d = u ++ d ++ y := by
  obtain ⟨x, b, hx, -, rfl, ⟨u, rfl⟩, ⟨y, hy⟩⟩ := h
  refine ⟨u, y, ?_, ?_⟩
  · have := List.length_pos_iff.2 hx
    simp only [List.length_append]
    omega
  · calc u ++ x ++ (x ++ b) = u ++ x ++ (b ++ y) := by rw [hy]
      _ = u ++ (x ++ b) ++ y := by simp only [List.append_assoc]

theorem not_prefix_append (hp : p ≠ []) (hfree : ¬ d <:+: p) (hrun : ¬ RunsInto d p) :
    ¬ d <+: p ++ (d ++ s) := by
  intro h
  rcases Nat.le_total d.length p.length with hle | hle
  · have hdp : d <+: p := List.prefix_of_prefix_length_le h (List.prefix_append p _) hle
    exact hfree hdp.isInfix
  · -- the piece is a proper beginning of the delimiter, and the rest lies in the delimiter behind it
    obtain ⟨b, rfl⟩ := List.prefix_of_prefix_length_le (List.prefix_append p _) h hle
    have hb : b <+: p ++ b := by
      refine List.prefix_of_prefix_length_le ((List.prefix_append_right_inj p).1 h)
        (List.prefix_append _ _) ?_
      simp
    have hne : b ≠ [] := by
      rintro rfl
      exact hfree (by simp)
    exact hrun ⟨p, b, hp, hne, rfl, List.suffix_rfl, hb⟩

theorem splitAround_append_delimiter (hd : d ≠ []) (hfree : ¬ d <:+: p) (hrun : ¬ RunsInto d p) :
    splitAround d (p ++ (d ++ s)) = p :: splitAround d s := by
  induction p with
  | nil => exact splitAround_append_left hd s
  | cons c p ih =>
    have hcut : ¬ d <+: c :: (p ++ (d ++ s)) := not_prefix_append (by simp) hfree hrun
    have hfree' : ¬ d <:+: p := fun h => hfree (List.infix_cons h)
    rw [List.cons_append, splitAround_of_not_isPrefixOf hcut, ih hfree' fun h => hrun h.cons]
    rfl

theorem not_infix_append_singleton {x b : List Char} {c : Char} (hb : b ≠ [])
    (hc : c ≠ b.getLast hb) : ¬ x ++ b <:+: x ++ [c] := by
  intro hinf
  have hlen := hinf.length_le
  have hpos := List.length_pos_iff.2 hb
  have heq : x ++ b = x ++ [c] := by
    refine hinf.sublist.eq_of_length_le ?_
    simp only [List.length_append, List.length_singleton]
    omega
  have hbc : b = [c] := List.append_cancel_left heq
  subst hbc
  exact hc rfl

theorem splitAround_of_not_occurs (hfree : ¬ d <:+: s) : splitAround d s = [s] := by
  induction s with
  | nil => exact splitAround_nil d
  | cons c s ih =>
    have hcut : ¬ d <+: c :: s := fun h => hfree h.isInfix
    rw [splitAround_of_not_isPrefixOf hcut, ih fun h => hfree (List.infix_cons h)]
    rfl

theorem splitAround_intercalate (hd : d ≠ []) (hps : ps ≠ []) (hfree : ∀ p ∈ ps, ¬ d <:+: p)
    (hrun : ∀ p ∈ ps.dropLast, ¬ RunsInto d p) : splitAround d (d.intercalate ps) = ps := by
  induction ps with
  | nil => exact absurd rfl hps
  | cons p ps ih =>
    cases ps with
    | nil => simpa using splitAround_of_not_occurs (hfree p (by simp))
    | cons q ps =>
      have hcut := splitAround_append_delimiter (s := d.intercalate (q :: ps)) hd
        (hfree p (by simp)) (hrun p (by simp))
      have htail := ih (by simp) (fun r hr => hfree r (List.mem_cons_of_mem p hr))
        fun r hr => hrun r (List.mem_cons_of_mem p hr)
      rw [List.intercalate_cons_cons, List.append_assoc, hcut, htail]

theorem length_le_of_splitAround_append (hd : d ≠ []) {u t : List Char}
    (h : splitAround d (u ++ (d ++ t)) = p :: ps) : p.length ≤ u.length := by
  induction u generalizing p ps with
  | nil =>
    rw [List.nil_append, splitAround_append_left hd, List.cons.injEq] at h
    simp [← h.1]
  | cons c u ih =>
    rw [List.cons_append, splitAround] at h
    split at h
    · rw [List.cons.injEq] at h
      simp [← h.1]
    · cases hs : splitAround d (u ++ (d ++ t)) with
      | nil => exact absurd hs (splitAround_ne_nil _ _)
      | cons r rs =>
        rw [hs, List.modifyHead_cons, List.cons.injEq] at h
        have hle := ih hs
        simp only [← h.1, List.length_cons]
        omega

theorem not_runsInto_of_splitAround (hd : d ≠ []) (h : splitAround d (p ++ (d ++ s)) = p :: ps) :
    ¬ RunsInto d p := by
  intro hrun
  obtain ⟨u, y, hlt, hu⟩ := hrun.exists_occurrence
  rw [← List.append_assoc, hu, List.append_assoc, List.append_assoc] at h
  have hle := length_le_of_splitAround_append hd h
  omega

theorem splitAround_eq_self_iff (hd : d ≠ []) : splitAround d s = [s] ↔ ¬ d <:+: s := by
  refine ⟨?_, splitAround_of_not_occurs⟩
  rintro h ⟨u, t, rfl⟩
  rw [List.append_assoc] at h
  have hle := length_le_of_splitAround_append hd h
  have hpos := List.length_pos_iff.2 hd
  simp only [List.length_append] at hle
  omega

theorem prefix_of_splitAround (hd : d ≠ []) (h : splitAround d s = p :: ps) : p <+: s := by
  have hs := intercalate_splitAround hd s
  rw [h] at hs
  cases ps with
  | nil => exact ⟨[], by simpa using hs⟩
  | cons q ps =>
    rw [List.intercalate_cons_cons, List.append_assoc] at hs
    exact ⟨_, hs⟩

theorem not_infix_of_mem_splitAround (hd : d ≠ []) (h : p ∈ splitAround d s) : ¬ d <:+: p := by
  induction s using splitAround.induct d generalizing p with
  | case1 =>
    rw [splitAround_nil, List.mem_singleton] at h
    simpa [h] using hd
  | case2 c s hcut ih =>
    rw [splitAround, if_pos hcut] at h
    rcases List.mem_cons.1 h with rfl | h
    · simpa using hd
    · exact ih h
  | case3 c s hcut ih =>
    rw [List.isPrefixOf_iff_prefix] at hcut
    have heq := splitAround_of_not_isPrefixOf hcut
    cases hs : splitAround d s with
    | nil => exact absurd hs (splitAround_ne_nil _ _)
    | cons q qs =>
      rw [hs] at heq ih
      rw [heq, List.modifyHead_cons] at h
      rcases List.mem_cons.1 h with rfl | h
      · -- no occurrence starts with the character in front, and none behind it
        rw [List.infix_cons_iff]
        rintro (hpre | hinf)
        · exact hcut (hpre.trans (prefix_of_splitAround hd heq))
        · exact ih (by simp) hinf
      · exact ih (List.mem_cons_of_mem q h)

theorem splitAround_append_cons (c : Char) (s t : List Char) :
    splitAround [c] (s ++ c :: t) = splitAround [c] s ++ splitAround [c] t := by
  have hfound : ∀ r, splitAround [c] (c :: r) = [] :: splitAround [c] r :=
    splitAround_append_left (List.cons_ne_nil c [])
  induction s with
  | nil =>
    rw [List.nil_append, hfound, splitAround_nil]
    rfl
  | cons a s ih =>
    rw [List.cons_append]
    by_cases hac : a = c
    · rw [hac, hfound, hfound, ih]
      rfl
    · have hpass : ∀ r, ¬ [c] <+: a :: r := fun r h =>
        hac (List.cons_prefix_cons.1 h).1.symm
      rw [splitAround_of_not_isPrefixOf (hpass _), splitAround_of_not_isPrefixOf (hpass _), ih]
      cases hs : splitAround [c] s with
      | nil => exact absurd hs (splitAround_ne_nil _ _)
      | cons p ps => rfl

theorem length_intercalate (d : List Char) (p : List Char) (ps : List (List Char)) :
    (d.intercalate (p :: ps)).length =
      ((p :: ps).map List.length).sum + ps.length * d.length := by
  induction ps generalizing p with
  | nil => simp
  | cons q ps ih =>
    rw [List.intercalate_cons_cons, List.length_append, List.length_append, ih]
    simp only [List.map_cons, List.sum_cons, List.length_cons, Nat.add_mul]
    omega

private theorem sum_length_filter (ps : List (List Char)) :
    ((ps.filter (· ≠ [])).map List.length).sum = (ps.map List.length).sum := by
  induction ps with
  | nil => rfl
  | cons p ps ih =>
    cases p with
    | nil => simpa using ih
    | cons c p => simpa using ih

theorem sum_length_splitAround (hd : d ≠ []) (s : List Char) :
    (((splitAround d s).filter (· ≠ [])).map List.length).sum +
      ((splitAround d s).length - 1) * d.length = s.length := by
  have hs := congrArg List.length (intercalate_splitAround hd s)
  rw [sum_length_filter]
  cases h : splitAround d s with
  | nil => exact absurd h (splitAround_ne_nil _ _)
  | cons p ps =>
    rw [h, length_intercalate] at hs
    simpa using hs

theorem splitAround_of_filter (hd : d ≠ [])
    (h : (splitAround d (d.intercalate (p :: ps))).filter (· ≠ []) = p :: ps) :
    splitAround d (d.intercalate (p :: ps)) = p :: ps := by
  have hsum := sum_length_splitAround hd (d.intercalate (p :: ps))
  rw [h, length_intercalate] at hsum
  have hpos := List.length_pos_iff.2 hd
  -- the lengths leave room for as many delimiters as joined the pieces, so no part is empty
  have hmul : ((splitAround d (d.intercalate (p :: ps))).length - 1) * d.length =
      ps.length * d.length := by omega
  have hlen := Nat.eq_of_mul_eq_mul_right hpos hmul
  have hne := List.length_pos_iff.2 (splitAround_ne_nil d (d.intercalate (p :: ps)))
  have hall : ((splitAround d (d.intercalate (p :: ps))).filter (· ≠ [])).length =
      (splitAround d (d.intercalate (p :: ps))).length := by
    rw [h, List.length_cons]
    omega
  rw [List.filter_eq_self.2 (List.length_filter_eq_length_iff.1 hall)] at h
  exact h

end Determinizer.Text
