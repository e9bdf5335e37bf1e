import Mathlib
import Determinizer.Dfa.Draft
import Determinizer.Dfa.TextTable
import Determinizer.Proofs.Outcome

/-! How a table stands in its text. All lines are cells joined by separators of three characters,
and the cells of a column are padded to the same width, so a column starts at the same offset on
every line: the sum of the widths before it, and three more for each. Padding is left out at the end
of a line, and with it the space behind the last bar where the last cell is empty; a cell that is
not empty ends there with a character that is no space, so nothing of it is lost. -/

namespace Determinizer.TextTable

def offset (ws : List Nat) (j : Nat) : Nat := ((ws.take j).map (· + 3)).sum

structure Widths (lines : List (List String)) (ws : List Nat) : Prop where
  length_eq : ∀ cells ∈ lines, cells.length = ws.length
  greatest : ∀ (j w : Nat), ws[j]? = some w →
    IsGreatest {n | ∃ cells ∈ lines, ∃ c : String, cells[j]? = some c ∧ c.length = n} w

section Grid

variable {w j : Nat} {ws : List Nat} {sep f : List Char} {fs : List (List Char)}

@[simp] theorem offset_zero (ws : List Nat) : offset ws 0 = 0 := by
  rw [offset, List.take_zero]
  rfl

@[simp] theorem offset_cons_succ (w : Nat) (ws : List Nat) (j : Nat) :
    offset (w :: ws) (j + 1) = w + 3 + offset ws j := by
  rw [offset, offset, List.take_succ_cons, List.map_cons, List.sum_cons]

theorem three_le_offset (hj : 0 < j) (hjws : j < ws.length) : 3 ≤ offset ws j := by
  cases ws with
  | nil => exact absurd hjws (Nat.not_lt_zero j)
  | cons w ws =>
    obtain ⟨j, rfl⟩ := Nat.exists_eq_add_one_of_ne_zero hj.ne'
    rw [offset_cons_succ]
    omega

theorem intercalate_cons_cons_eq (sep f g : List Char) (fs : List (List Char)) :
    sep.intercalate (f :: g :: fs) = f ++ (sep ++ sep.intercalate (g :: fs)) := by
  rw [List.intercalate_cons_cons, List.append_assoc]

theorem drop_offset (hsep : sep.length = 3) (hj : j < fs.length) :
    (sep.intercalate fs).drop (offset (fs.map List.length) j) = sep.intercalate (fs.drop j) := by
  induction j generalizing fs with
  | zero => rw [offset_zero, List.drop_zero, List.drop_zero]
  | succ j ih =>
    match fs with
    | [] => exact absurd hj (Nat.not_lt_zero _)
    | [f] => exact absurd hj (by simp)
    | f :: g :: fs =>
      have hg : j < (g :: fs).length := Nat.lt_of_succ_lt_succ hj
      have hfront : (f ++ sep).length = f.length + 3 := by rw [List.length_append, hsep]
      rw [intercalate_cons_cons_eq, ← List.append_assoc, List.map_cons, offset_cons_succ,
        ← List.drop_drop, List.drop_left' hfront, ih hg, List.drop_succ_cons]

theorem take_drop_offset (hsep : sep.length = 3) (hf : fs[j]? = some f) :
    ((sep.intercalate fs).drop (offset (fs.map List.length) j)).take f.length = f := by
  obtain ⟨hj, hf⟩ := List.getElem?_eq_some_iff.1 hf
  rw [drop_offset hsep hj, List.drop_eq_getElem_cons hj, hf]
  cases fs.drop (j + 1) with
  | nil => rw [List.intercalate_singleton, List.take_length]
  | cons g gs => rw [intercalate_cons_cons_eq, List.take_left]

theorem drop_separator (hsep : sep.length = 3) (hj : 0 < j) (hjfs : j < fs.length) :
    (sep.intercalate fs).drop (offset (fs.map List.length) j - 3) =
      sep ++ sep.intercalate (fs.drop j) := by
  induction j generalizing fs with
  | zero => exact absurd hj (Nat.lt_irrefl 0)
  | succ j ih =>
    match fs with
    | [] => exact absurd hjfs (Nat.not_lt_zero _)
    | [f] => exact absurd hjfs (by simp)
    | f :: g :: fs =>
      have hg : j < (g :: fs).length := Nat.lt_of_succ_lt_succ hjfs
      rw [intercalate_cons_cons_eq, List.map_cons, offset_cons_succ, List.drop_succ_cons]
      by_cases hj0 : j = 0
      · subst hj0
        rw [offset_zero, Nat.add_zero, Nat.add_sub_cancel, List.drop_left, List.drop_zero]
      · have hpos := Nat.pos_of_ne_zero hj0
        have hgs : j < ((g :: fs).map List.length).length := by rwa [List.length_map]
        have hthree := three_le_offset hpos hgs
        have hsplit : f.length + 3 + offset ((g :: fs).map List.length) j - 3 =
            (f ++ sep).length + (offset ((g :: fs).map List.length) j - 3) := by
          rw [List.length_append, hsep]
          omega
        rw [hsplit, ← List.append_assoc, ← List.drop_drop, List.drop_left, ih hpos hg]

theorem length_intercalate_add (hsep : sep.length = 3) (hfs : fs ≠ []) :
    (sep.intercalate fs).length + 3 = offset (fs.map List.length) fs.length := by
  induction fs with
  | nil => exact absurd rfl hfs
  | cons f fs ih =>
    rw [List.map_cons, List.length_cons, offset_cons_succ]
    cases fs with
    | nil => simp
    | cons g fs =>
      have htail := ih (List.cons_ne_nil g fs)
      rw [intercalate_cons_cons_eq, List.length_append, List.length_append, hsep, ← htail]
      omega

end Grid

section Rule

structure Rules (ws : List Nat) (s : List Char) : Prop where
  length : s.length + 3 = offset ws ws.length
  crossing : ∀ j, 0 < j → j < ws.length → (s.drop (offset ws j - 3)).take 3 = ['-', '+', '-']
  elsewhere : ∀ i c, s[i]? = some c → (∀ j, 0 < j → j < ws.length → i + 2 ≠ offset ws j) → c = '-'

theorem map_length_replicate (ws : List Nat) (c : Char) :
    (ws.map (List.replicate · c)).map List.length = ws := by
  rw [List.map_map]
  exact List.map_id'' (fun w => List.length_replicate) ws

theorem rule_elsewhere {ws : List Nat} {i : Nat} {c : Char} (hc : (rule ws)[i]? = some c)
    (hi : ∀ j, 0 < j → j < ws.length → i + 2 ≠ offset ws j) : c = '-' := by
  induction ws generalizing i with
  | nil => exact absurd hc (by simp [rule])
  | cons w ws ih =>
    cases ws with
    | nil =>
      rw [rule, List.map_singleton, List.intercalate_singleton] at hc
      exact List.eq_of_mem_replicate (List.mem_of_getElem? hc)
    | cons w' ws =>
      have hrule : rule (w :: w' :: ws) = List.replicate w '-' ++ (['-', '+', '-'] ++ rule (w' :: ws)) :=
        intercalate_cons_cons_eq _ _ _ _
      rw [hrule] at hc
      by_cases hiw : i < w
      · rw [List.getElem?_append_left (by rwa [List.length_replicate])] at hc
        exact List.eq_of_mem_replicate (List.mem_of_getElem? hc)
      · obtain ⟨k, rfl⟩ := Nat.exists_eq_add_of_le (Nat.not_lt.1 hiw)
        rw [List.getElem?_append_right (by rw [List.length_replicate]; exact Nat.le_add_right w k),
          List.length_replicate, Nat.add_sub_cancel_left] at hc
        match k with
        | 0 => exact (Option.some.inj hc).symm
        | 1 =>
          -- here the first crossing is
          have hcrossing := hi 1 Nat.one_pos (Nat.succ_lt_succ (Nat.succ_pos _))
          rw [offset_cons_succ, offset_zero] at hcrossing
          exact absurd rfl hcrossing
        | 2 => exact (Option.some.inj hc).symm
        | k + 3 =>
          refine ih (i := k) hc fun j hj hjws hoffset => ?_
          refine hi (j + 1) (Nat.succ_pos j) (Nat.succ_lt_succ hjws) ?_
          rw [offset_cons_succ, ← hoffset]
          omega

theorem rules_rule {ws : List Nat} (hws : ws ≠ []) : Rules ws (rule ws) where
  length := by
    have hsep : ['-', '+', '-'].length = 3 := rfl
    have hfs : ws.map (List.replicate · '-') ≠ [] := by simpa using hws
    have hlength := length_intercalate_add hsep hfs
    rwa [map_length_replicate, List.length_map] at hlength
  crossing j hj hjws := by
    have hsep : ['-', '+', '-'].length = 3 := rfl
    have hjfs : j < (ws.map (List.replicate · '-')).length := by rwa [List.length_map]
    have hdrop := drop_separator hsep hj hjfs
    rw [map_length_replicate] at hdrop
    rw [rule, hdrop]
    rfl
  elsewhere i c hc hi := rule_elsewhere hc hi

end Rule

section Widths

variable {l : List String} {lines : List (List String)} {n w j : Nat}

theorem widths_cons_cons (l l' : List String) (lines : List (List String)) :
    widths (l :: l' :: lines) =
      List.zipWith max (l.map String.length) (widths (l' :: lines)) := rfl

theorem length_widths (hlines : lines ≠ []) (hn : ∀ cells ∈ lines, cells.length = n) :
    (widths lines).length = n := by
  induction lines with
  | nil => exact absurd rfl hlines
  | cons l lines ih =>
    cases lines with
    | nil =>
      rw [widths, List.length_map]
      exact hn l List.mem_cons_self
    | cons l' lines =>
      have htail := ih (List.cons_ne_nil _ _) fun cells h => hn cells (List.mem_cons_of_mem _ h)
      rw [widths_cons_cons, List.length_zipWith, List.length_map, hn l List.mem_cons_self, htail,
        Nat.min_self]

theorem isGreatest_cell {l : List String} {c : String} (hc : l[j]? = some c) :
    IsGreatest {n | ∃ c : String, l[j]? = some c ∧ c.length = n} c.length := by
  refine ⟨⟨c, hc, rfl⟩, ?_⟩
  rintro n ⟨c', hc', rfl⟩
  rw [hc] at hc'
  cases hc'
  exact Nat.le_refl _

theorem isGreatest_widths (h : (widths lines)[j]? = some w) :
    IsGreatest {n | ∃ cells ∈ lines, ∃ c : String, cells[j]? = some c ∧ c.length = n} w := by
  induction lines generalizing w with
  | nil => exact absurd h (by simp [widths])
  | cons l lines ih =>
    cases lines with
    | nil =>
      rw [widths, List.getElem?_map, Option.map_eq_some_iff] at h
      obtain ⟨c, hc, rfl⟩ := h
      simpa using isGreatest_cell hc
    | cons l' lines =>
      rw [widths_cons_cons, List.getElem?_zipWith_eq_some] at h
      obtain ⟨m, w', hm, hw', rfl⟩ := h
      rw [List.getElem?_map, Option.map_eq_some_iff] at hm
      obtain ⟨c, hc, rfl⟩ := hm
      have hset : {n | ∃ cells ∈ l :: l' :: lines, ∃ c : String,
            cells[j]? = some c ∧ c.length = n} =
          {n | ∃ c : String, l[j]? = some c ∧ c.length = n} ∪
            {n | ∃ cells ∈ l' :: lines, ∃ c : String, cells[j]? = some c ∧ c.length = n} := by
        ext n
        exact List.exists_mem_cons_iff _ _ _
      rw [hset]
      exact (isGreatest_cell hc).union (ih hw')

theorem widths_of_lines (hlines : lines ≠ []) (hn : ∀ cells ∈ lines, cells.length = n) :
    Widths lines (widths lines) where
  length_eq cells hcells := by rw [hn cells hcells, length_widths hlines hn]
  greatest _ _ h := isGreatest_widths h

end Widths

section Line

def paddedLine (ws : List Nat) (cells : List String) : List Char :=
  [' ', '|', ' '].intercalate (List.zipWith padRight ws cells)

structure Shows (ws : List Nat) (cells : List String) (s : List Char) : Prop where
  length : s.length + 3 = offset ws ws.length
  cell : ∀ (j w : Nat) (c : String), ws[j]? = some w → cells[j]? = some c →
    (s.drop (offset ws j)).take w = c.toList ++ List.replicate (w - c.length) ' '
  separator : ∀ j, 0 < j → j < ws.length → (s.drop (offset ws j - 3)).take 3 = [' ', '|', ' ']

variable {ws : List Nat} {cells : List String} {lines : List (List String)} {c : String} {w k : Nat}

theorem Widths.length_le (h : Widths lines ws) (hcells : cells ∈ lines) {j : Nat}
    (hw : ws[j]? = some w) (hc : cells[j]? = some c) : c.length ≤ w :=
  (h.greatest j w hw).2 ⟨cells, hcells, c, hc, rfl⟩

theorem length_padRight (h : c.length ≤ w) : (padRight w c).length = w := by
  rw [padRight, List.length_append, String.length_toList, List.length_replicate]
  omega

theorem Widths.map_length_fields (h : Widths lines ws) (hcells : cells ∈ lines) :
    (List.zipWith padRight ws cells).map List.length = ws := by
  refine List.ext_getElem? fun j => ?_
  have hlength := h.length_eq cells hcells
  cases hw : ws[j]? with
  | none =>
    have hj := List.getElem?_eq_none_iff.1 hw
    rw [List.getElem?_eq_none_iff, List.length_map, List.length_zipWith, hlength, Nat.min_self]
    exact hj
  | some w =>
    have hj : j < cells.length := hlength ▸ (List.getElem?_eq_some_iff.1 hw).1
    have hc := List.getElem?_eq_getElem hj
    have hfield : (List.zipWith padRight ws cells)[j]? = some (padRight w cells[j]) :=
      List.getElem?_zipWith_eq_some.2 ⟨w, cells[j], hw, hc, rfl⟩
    rw [List.getElem?_map, hfield, Option.map_some, length_padRight (h.length_le hcells hw hc)]

theorem Widths.shows_paddedLine (h : Widths lines ws) (hcells : cells ∈ lines) (hws : ws ≠ []) :
    Shows ws cells (paddedLine ws cells) := by
  have hfields := h.map_length_fields hcells
  have hcount : (List.zipWith padRight ws cells).length = ws.length := by
    rw [← List.length_map List.length, hfields]
  have hne : List.zipWith padRight ws cells ≠ [] := by
    rw [← List.length_pos_iff, hcount]
    exact List.length_pos_iff.2 hws
  have hsep : [' ', '|', ' '].length = 3 := rfl
  refine ⟨?_, fun j w c hw hc => ?_, fun j hj hjws => ?_⟩
  · have hlength := length_intercalate_add hsep hne
    rwa [hfields, hcount] at hlength
  · have hfield : (List.zipWith padRight ws cells)[j]? = some (padRight w c) :=
      List.getElem?_zipWith_eq_some.2 ⟨w, c, hw, hc, rfl⟩
    have hcell := take_drop_offset hsep hfield
    rwa [hfields, length_padRight (h.length_le hcells hw hc)] at hcell
  · have hdrop := drop_separator hsep hj (hcount.symm ▸ hjws)
    rw [hfields] at hdrop
    rw [paddedLine, hdrop]
    rfl

theorem line_eq_of_paddedLine {s : List Char} {y : Char} {n : Nat} (hy : Text.isBlank y = false)
    (h : paddedLine ws cells = s ++ [y] ++ List.replicate n ' ') : line ws cells = s ++ [y] := by
  rw [line, ← paddedLine, h, Text.trimRight_append_spaces, Text.trimRight_concat, hy]
  rfl

theorem Widths.paddedLine_eq (h : Widths lines ws) (hcells : cells ∈ lines)
    (hk : ws.length = k + 1) (hk0 : 0 < k) (hc : cells[k]? = some c) :
    ∃ front n, front.length + 3 = offset ws k ∧
      paddedLine ws cells = front ++ [' ', '|', ' '] ++ c.toList ++ List.replicate n ' ' := by
  have hfields := h.map_length_fields hcells
  have hcount : (List.zipWith padRight ws cells).length = k + 1 := by
    rw [← List.length_map List.length, hfields, hk]
  obtain ⟨w, hw⟩ : ∃ w, ws[k]? = some w := ⟨_, List.getElem?_eq_getElem (by omega)⟩
  have hfield : (List.zipWith padRight ws cells)[k]? = some (padRight w c) :=
    List.getElem?_zipWith_eq_some.2 ⟨w, c, hw, hc, rfl⟩
  have hlast : (List.zipWith padRight ws cells).drop k = [padRight w c] := by
    obtain ⟨hk', hfield⟩ := List.getElem?_eq_some_iff.1 hfield
    rw [List.drop_eq_getElem_cons hk', hfield, List.drop_of_length_le (by omega)]
  have hsep : [' ', '|', ' '].length = 3 := rfl
  have hkfields : k < (List.zipWith padRight ws cells).length := by omega
  have hdrop := drop_separator hsep hk0 hkfields
  rw [hfields, hlast, List.intercalate_singleton] at hdrop
  have hsplit := List.take_append_drop (offset ws k - 3) (paddedLine ws cells)
  rw [paddedLine, hdrop, ← paddedLine] at hsplit
  refine ⟨(paddedLine ws cells).take (offset ws k - 3), w - c.length, ?_, ?_⟩
  · -- the separator stands behind the front, so the line is long enough
    have hlength := congrArg List.length hsplit
    have hkws : k < ws.length := by omega
    have hthree := three_le_offset hk0 hkws
    simp only [List.length_append, List.length_take, List.length_cons] at hlength ⊢
    omega
  · rw [List.append_assoc, ← padRight, List.append_assoc, hsplit]

/-- What trimming takes from a line whose last cell does not end with a space: the padding of that
cell, and if the cell is empty also the space in front of it. -/
theorem Widths.exists_paddedLine_eq (h : Widths lines ws) (hcells : cells ∈ lines)
    (hk : ws.length = k + 1) (hk0 : 0 < k) (hc : cells[k]? = some c)
    (hvisible : ∀ x y, c.toList = x ++ [y] → Text.isBlank y = false) :
    (∃ n, paddedLine ws cells = line ws cells ++ List.replicate n ' ') ∧
      (line ws cells).length = if c = "" then offset ws k - 1 else offset ws k + c.length := by
  obtain ⟨front, n, hfront, hpadded⟩ := h.paddedLine_eq hcells hk hk0 hc
  by_cases hempty : c = ""
  · subst hempty
    have hbar : paddedLine ws cells = (front ++ [' ']) ++ ['|'] ++ List.replicate (n + 1) ' ' := by
      rw [hpadded, List.replicate_succ]
      simp
    have hline := line_eq_of_paddedLine (by decide) hbar
    refine ⟨⟨n + 1, by rw [hline, hbar]⟩, ?_⟩
    rw [if_pos rfl, hline, ← hfront]
    simp
  · have hne : c.toList ≠ [] := fun h => hempty (String.toList_inj.1 h)
    obtain ⟨x, y, hxy⟩ := (List.eq_nil_or_concat' c.toList).resolve_left hne
    have hcell : paddedLine ws cells =
        (front ++ [' ', '|', ' '] ++ x) ++ [y] ++ List.replicate n ' ' := by
      rw [hpadded, hxy]
      simp
    have hline := line_eq_of_paddedLine (hvisible x y hxy) hcell
    refine ⟨⟨n, by rw [hline, hcell]⟩, ?_⟩
    have hlength := congrArg List.length hxy
    rw [if_neg hempty, hline, ← hfront, ← String.length_toList]
    simp only [List.length_append, List.length_cons, List.length_nil] at hlength ⊢
    omega

/-- A line that, padded to the length of the rule, shows its cells. It ends with its last cell, or
if that is empty with the bar in front of it. -/
structure Displays (ws : List Nat) (total : Nat) (cells : List String) (s : List Char) : Prop where
  length_le : s.length ≤ total
  shows : Shows ws cells (s ++ List.replicate (total - s.length) ' ')
  ends : ∀ c, cells[ws.length - 1]? = some c → s.length =
    if c = "" then offset ws (ws.length - 1) - 1 else offset ws (ws.length - 1) + c.length

theorem Widths.displays_line (h : Widths lines ws) (hcells : cells ∈ lines)
    (hk : ws.length = k + 1) (hk0 : 0 < k) (hc : cells[k]? = some c)
    (hvisible : ∀ x y, c.toList = x ++ [y] → Text.isBlank y = false) :
    Displays ws (rule ws).length cells (line ws cells) := by
  have hws : ws ≠ [] := by
    rintro rfl
    cases hk
  obtain ⟨⟨n, hpadded⟩, hends⟩ := h.exists_paddedLine_eq hcells hk hk0 hc hvisible
  have hshows := h.shows_paddedLine hcells hws
  have htotal : (rule ws).length = (line ws cells).length + n := by
    have hlength := hshows.length.trans (rules_rule hws).length.symm
    rw [hpadded, List.length_append, List.length_replicate] at hlength
    omega
  have hlast : ws.length - 1 = k := by omega
  refine ⟨by omega, ?_, fun c' hc' => ?_⟩
  · rwa [htotal, Nat.add_sub_cancel_left, ← hpadded]
  · rw [hlast] at hc' ⊢
    rw [hc] at hc'
    cases hc'
    exact hends

end Line

section Table

variable {t : Table} {alphabet cells : List String}

theorem exists_last_cell (hcells : cells ∈ Table.header alphabet :: t.cells alphabet) :
    cells.length = alphabet.length + 1 + 1 ∧ ∃ c, cells[alphabet.length + 1]? = some c ∧
      ∀ x y, c.toList = x ++ [y] → Text.isBlank y = false := by
  have hvisible : ∀ c ∈ ["Accepting", "✓", ""], ∀ x y, c.toList = x ++ [y] →
      Text.isBlank y = false := by
    intro c hc x y hxy
    have hlast : c.toList.getLast? = some y := by rw [hxy, List.getLast?_concat]
    have hall : ∀ c ∈ ["Accepting", "✓", ""], c.toList.getLast?.map Text.isBlank ≠ some true := by
      decide
    have hy := hall c hc
    rwa [hlast, Option.map_some, ne_eq, Option.some_inj, Bool.not_eq_true] at hy
  rcases List.mem_cons.1 hcells with rfl | hrow
  · refine ⟨by simp [Table.header, Wording.header], "Accepting", ?_, hvisible _ (by decide)⟩
    simp [Table.header, Wording.header, wording]
  · obtain ⟨r, -, rfl⟩ := List.mem_map.1 hrow
    rw [Row.cells_eq]
    refine ⟨by simp, if r.accepting then "✓" else "", by simp, hvisible _ ?_⟩
    cases r.accepting <;> decide

/-- A table of any rows is laid out in lines of text, two more than it has rows. Its columns stand
at the same places on all of them: the rule is drawn along these, and every other line shows its
cells there once the spaces at its end are put back. -/
theorem text_aligned (t : Table) (alphabet : List String) :
    (t.map Row.toDraft).mapM (·.cells wording alphabet) = .ok (t.cells alphabet) ∧
    ∃ ws rule header rows,
      t.text alphabet = String.ofList (['\n'].intercalate (header :: rule :: rows)) ∧
      rows.length = t.length ∧ ws.length = alphabet.length + 2 ∧
      Widths (Table.header alphabet :: t.cells alphabet) ws ∧ Rules ws rule ∧
      List.Forall₂ (Displays ws rule.length) (Table.header alphabet :: t.cells alphabet)
        (header :: rows) := by
  have hcount : ∀ cells ∈ Table.header alphabet :: t.cells alphabet,
      cells.length = alphabet.length + 1 + 1 := fun _ h => (exists_last_cell h).1
  have hwidths := widths_of_lines (List.cons_ne_nil _ _) hcount
  have hlength := length_widths (List.cons_ne_nil _ _) hcount
  refine ⟨mapM_map_eq_ok (fun r => Row.cells_toDraft r alphabet) t, _, _, _, _, rfl, ?_, hlength,
    hwidths, rules_rule ?_, ?_⟩
  · rw [List.length_map, Table.cells, List.length_map]
  · rw [← List.length_pos_iff, hlength]
    exact Nat.succ_pos _
  · rw [← List.map_cons, List.forall₂_map_right_iff, List.forall₂_same]
    intro cells hcells
    obtain ⟨-, c, hc, hvisible⟩ := exists_last_cell hcells
    exact hwidths.displays_line hcells hlength (Nat.succ_pos _) hc hvisible

theorem text_ends_with_bar :
    Table.text [⟨"A", false, [("0", "A")]⟩] ["0"] =
        "State | 0 | Accepting\n------+---+----------\nA     | A |" ∧
      Widths [["State", "0", "Accepting"], ["A", "A", ""]] [5, 1, 9] ∧
      "A     | A |".length = 11 ∧ offset [5, 1, 9] 2 = 12 := by
  have hwidths : widths [["State", "0", "Accepting"], ["A", "A", ""]] = [5, 1, 9] := by decide
  have hcount : ∀ cells ∈ [["State", "0", "Accepting"], ["A", "A", ""]], cells.length = 3 := by decide
  have hgreatest := widths_of_lines (List.cons_ne_nil _ _) hcount
  rw [hwidths] at hgreatest
  exact ⟨by decide, hgreatest, by decide, by decide⟩

end Table

end Determinizer.TextTable
