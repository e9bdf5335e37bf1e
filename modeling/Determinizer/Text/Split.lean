/-! Cutting a text at a delimiter. The cuts are found by a scan from the left that never lets two
occurrences overlap; the parts joined with the delimiter give the text back. -/

namespace Determinizer.Text

def splitAround (d : List Char) : List Char → List (List Char)
  | [] => [[]]
  | c :: s =>
    if d.isPrefixOf (c :: s) then [] :: splitAround d (s.drop (d.length - 1))
    else (splitAround d s).modifyHead (c :: ·)
termination_by s => s.length
decreasing_by all_goals (simp only [List.length_drop, List.length_cons]; omega)

def split (delimiter text : String) : List String :=
  (splitAround delimiter.toList text.toList).map String.ofList

def occursIn (d : List Char) : List Char → Bool
  | [] => d.isEmpty
  | c :: s => d.isPrefixOf (c :: s) || occursIn d s

theorem occursIn_iff {d s : List Char} : occursIn d s = true ↔ d <:+: s := by
  induction s with
  | nil => simp [occursIn]
  | cons c s ih => simp [occursIn, ih, List.infix_cons_iff]

@[simp] theorem splitAround_nil (d : List Char) : splitAround d [] = [[]] := by
  rw [splitAround]

theorem splitAround_ne_nil (d s : List Char) : splitAround d s ≠ [] := by
  fun_induction splitAround d s with
  | case1 => simp
  | case2 => simp
  | case3 c s _ ih =>
    cases h : splitAround d s with
    | nil => exact absurd h ih
    | cons p ps => simp

theorem splitAround_of_not_isPrefixOf {d s : List Char} {c : Char} (h : ¬ d <+: c :: s) :
    splitAround d (c :: s) = (splitAround d s).modifyHead (c :: ·) := by
  rw [splitAround, if_neg (by simpa using h)]

theorem splitAround_append_left {d : List Char} (hd : d ≠ []) (s : List Char) :
    splitAround d (d ++ s) = [] :: splitAround d s := by
  cases d with
  | nil => exact absurd rfl hd
  | cons c d =>
    rw [List.cons_append, splitAround, if_pos (by simp)]
    simp

theorem intercalate_splitAround {d : List Char} (hd : d ≠ []) (s : List Char) :
    d.intercalate (splitAround d s) = s := by
  fun_induction splitAround d s with
  | case1 => simp [List.intercalate]
  | case2 c s h ih =>
    rw [List.intercalate_cons_of_ne_nil (splitAround_ne_nil _ _), ih]
    obtain ⟨t, ht⟩ := List.isPrefixOf_iff_prefix.1 h
    cases d with
    | nil => exact absurd rfl hd
    | cons a d =>
      rw [List.cons_append, List.cons.injEq] at ht
      obtain ⟨rfl, rfl⟩ := ht
      simp
  | case3 c s _ ih =>
    cases hs : splitAround d s with
    | nil => exact absurd hs (splitAround_ne_nil _ _)
    | cons p ps =>
      rw [hs] at ih
      cases ps with
      | nil => simpa [List.intercalate] using ih
      | cons q qs => simpa using ih

end Determinizer.Text
