/-! Blank characters and trimming. Fields of a form are trimmed at both ends, lines of a text
table at the right end only; both use the same set of characters. -/

namespace Determinizer.Text

/-- White space in the sense of Unicode, and the four information separators U+001C to U+001F. -/
def isBlank (c : Char) : Bool :=
  let n := c.toNat
  (0x09 ≤ n && n ≤ 0x0d) || (0x1c ≤ n && n ≤ 0x20) || n == 0x85 || n == 0xa0 || n == 0x1680 ||
    (0x2000 ≤ n && n ≤ 0x200a) || n == 0x2028 || n == 0x2029 || n == 0x202f || n == 0x205f ||
    n == 0x3000

def trimLeft (s : List Char) : List Char := s.dropWhile isBlank

def trimRight (s : List Char) : List Char := (trimLeft s.reverse).reverse

def trim (s : List Char) : List Char := trimRight (trimLeft s)

theorem trimLeft_cons (c : Char) (s : List Char) :
    trimLeft (c :: s) = if isBlank c then trimLeft s else c :: s := by
  simp only [trimLeft, List.dropWhile_cons]

theorem trimRight_concat (s : List Char) (c : Char) :
    trimRight (s ++ [c]) = if isBlank c then trimRight s else s ++ [c] := by
  rw [trimRight, List.reverse_concat, trimLeft_cons]
  split
  · rfl
  · rw [List.reverse_cons, List.reverse_reverse]

def Blank (s : List Char) : Prop := ∀ c ∈ s, isBlank c = true

instance (s : List Char) : Decidable (Blank s) := List.decidableBAll _ s

theorem trimLeft_append_of_blank {u : List Char} (hu : Blank u) (s : List Char) :
    trimLeft (u ++ s) = trimLeft s :=
  List.dropWhile_append_of_pos hu

theorem trimRight_append_of_blank {v : List Char} (hv : Blank v) (s : List Char) :
    trimRight (s ++ v) = trimRight s := by
  have hreverse : Blank v.reverse := fun c hc => hv c (List.mem_reverse.1 hc)
  rw [trimRight, List.reverse_append, trimLeft_append_of_blank hreverse, ← trimRight]

theorem trimRight_append_spaces (s : List Char) (n : Nat) :
    trimRight (s ++ List.replicate n ' ') = trimRight s := by
  have hspaces : Blank (List.replicate n ' ') := by
    intro c hc
    rw [List.eq_of_mem_replicate hc]
    decide
  exact trimRight_append_of_blank hspaces s

end Determinizer.Text
