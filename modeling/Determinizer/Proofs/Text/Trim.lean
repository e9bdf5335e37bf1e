import Mathlib
import Determinizer.Text.Blank

/-! What trimming leaves. A text is what is left of it with blanks on both sides, and blanks on both
sides of a text make no difference to what is left. So nothing more is lost when it is trimmed
again, and nothing is left of blank texts alone. -/

namespace Determinizer.Text

variable {s u v : List Char}

theorem trim_append_of_blank (hu : Blank u) (hv : Blank v) (s : List Char) :
    trim (u ++ s ++ v) = trim s := by
  rw [trim, trim, List.append_assoc, trimLeft_append_of_blank hu]
  by_cases hs : trimLeft s = []
  · -- the text is blank itself, and with it all that stands here
    have hall : trimLeft (s ++ v) = [] := by
      rw [trimLeft_append_of_blank (List.dropWhile_eq_nil_iff.1 hs)]
      exact List.dropWhile_eq_nil_iff.2 hv
    rw [hall, hs]
  · have hpass : trimLeft (s ++ v) = trimLeft s ++ v :=
      List.dropWhile_append.trans (if_neg fun hempty => hs (List.isEmpty_iff.1 hempty))
    rw [hpass, trimRight_append_of_blank hv]

theorem exists_append_trim_append (s : List Char) :
    ∃ u v, Blank u ∧ Blank v ∧ u ++ trim s ++ v = s := by
  refine ⟨s.takeWhile isBlank, (trimLeft s).rtakeWhile isBlank,
    fun c hc => List.mem_takeWhile_imp hc, fun c hc => List.mem_rtakeWhile_imp hc, ?_⟩
  have hright : trim s ++ (trimLeft s).rtakeWhile isBlank = trimLeft s :=
    List.rdropWhile_append_rtakeWhile
  rw [List.append_assoc, hright]
  exact List.takeWhile_append_dropWhile

theorem trim_trim (s : List Char) : trim (trim s) = trim s := by
  obtain ⟨u, v, hu, hv, hs⟩ := exists_append_trim_append s
  calc trim (trim s) = trim (u ++ trim s ++ v) := (trim_append_of_blank hu hv _).symm
    _ = trim s := by rw [hs]

theorem trim_eq_nil_iff : trim s = [] ↔ Blank s := by
  constructor
  · intro h
    obtain ⟨u, v, hu, hv, hs⟩ := exists_append_trim_append s
    rw [h, List.append_nil] at hs
    rw [← hs]
    exact List.forall_mem_append.2 ⟨hu, hv⟩
  · intro h
    have hnil := trim_append_of_blank h (v := []) (List.forall_mem_nil _) []
    rwa [List.append_nil, List.append_nil] at hnil

theorem trim_infix (s : List Char) : trim s <:+: s := by
  obtain ⟨u, v, -, -, hs⟩ := exists_append_trim_append s
  exact ⟨u, v, hs⟩

end Determinizer.Text
