import Determinizer.Dfa.Layout
import Determinizer.Proofs.Nfa.Language
import Determinizer.Proofs.Nfa.Rows

/-! What the cells of a computed table tell about it. The names and the marks stand in them as they
are, and so do the targets; only an entry whose target is written like the mark for no transition is
not seen. Such an entry leads to the label of that name alone, so where no label is called so, the
table can be read back from its cells. -/

namespace Determinizer

namespace Row

variable {r : Row String} {alphabet : List String} {a : String}

/-- A row without the entries that look like missing ones. -/
def visible (r : Row String) : Row String :=
  { r with transitions := r.transitions.filter (·.2 ≠ "∅") }

def ofCells (alphabet cells : List String) : Row String where
  name := cells.headD ""
  accepting := cells.getLast? = some "✓"
  transitions := alphabet.eraseDups.filterMap fun a =>
    (((alphabet.zip cells.tail).lookup a).filter (· ≠ "∅")).map (a, ·)

def Lists (alphabet : List String) (r : Row String) : Prop :=
  r.transitions = alphabet.eraseDups.filterMap fun a => (r.target? a).map (a, ·)

theorem length_cells (r : Row String) (alphabet : List String) :
    (r.cells alphabet).length = alphabet.length + 2 := by
  rw [cells_eq]
  simp

theorem getLast?_cells_eq_mark_iff :
    (r.cells alphabet).getLast? = some "✓" ↔ r.accepting = true := by
  rw [cells_eq, List.getLast?_concat]
  cases r.accepting <;> decide

theorem lookup_zip_map (f : String → String) (rest : List String) (ha : a ∈ alphabet) :
    (alphabet.zip (alphabet.map f ++ rest)).lookup a = some (f a) := by
  induction alphabet with
  | nil => exact absurd ha List.not_mem_nil
  | cons b alphabet ih =>
    rw [List.map_cons, List.cons_append, List.zip_cons_cons, lookup_cons_ite]
    split
    · next hab => rw [hab]
    · next hab => exact ih ((List.mem_cons.1 ha).resolve_left hab)

theorem filter_getD_mark (target : Option String) :
    (some (target.getD "∅")).filter (· ≠ "∅") = target.filter (· ≠ "∅") := by
  cases target <;> rfl

theorem getD_filter_mark (target : Option String) :
    (target.filter (· ≠ "∅")).getD "∅" = target.getD "∅" := by
  cases target with
  | none => rfl
  | some k => by_cases hk : k = "∅" <;> simp [hk, Option.filter_some]

theorem getD_eq_mark_iff {target : Option String} :
    target.getD "∅" = "∅" ↔ target = none ∨ target = some "∅" := by
  cases target <;> simp

theorem ofCells_cells (h : r.Lists alphabet) : ofCells alphabet (r.cells alphabet) = r.visible := by
  have hentry : ∀ a ∈ alphabet.eraseDups,
      (((alphabet.zip (r.cells alphabet).tail).lookup a).filter (· ≠ "∅")).map (a, ·) =
        ((r.target? a).map (a, ·)).filter (·.2 ≠ "∅") := by
    intro a ha
    have hcell := lookup_zip_map (fun a => (r.target? a).getD "∅")
      [if r.accepting then "✓" else ""] (List.mem_eraseDups.1 ha)
    rw [cells_eq, List.cons_append, List.tail_cons, hcell, filter_getD_mark, Option.filter_map]
    rfl
  have hname : (ofCells alphabet (r.cells alphabet)).name = r.visible.name := by
    rw [ofCells, cells_eq]
    rfl
  have htransitions : (ofCells alphabet (r.cells alphabet)).transitions = r.visible.transitions := by
    rw [visible, h, List.filter_filterMap]
    exact List.filterMap_congr hentry
  have haccepting : (ofCells alphabet (r.cells alphabet)).accepting = r.visible.accepting := by
    rw [Bool.eq_iff_iff, ofCells, decide_eq_true_iff, getLast?_cells_eq_mark_iff]
    rfl
  exact (Row.mk.injEq ..).mpr ⟨hname, haccepting, htransitions⟩

theorem cells_visible (h : (r.transitions.map Prod.fst).Nodup) (alphabet : List String) :
    r.visible.cells alphabet = r.cells alphabet := by
  have htarget : ∀ a, (r.visible.target? a).getD "∅" = (r.target? a).getD "∅" := by
    intro a
    have hlookup : r.visible.target? a = (r.target? a).filter (· ≠ "∅") :=
      lookup_filter h (·.2 ≠ "∅") a
    rw [hlookup, getD_filter_mark]
  rw [cells_eq, cells_eq]
  simp only [htarget]
  rfl

theorem visible_eq_self_iff : r.visible = r ↔ ∀ e ∈ r.transitions, e.2 ≠ "∅" := by
  have htransitions : r.visible = r ↔ r.visible.transitions = r.transitions :=
    ⟨congrArg Row.transitions, fun h => (Row.mk.injEq ..).mpr ⟨rfl, rfl, h⟩⟩
  rw [htransitions, visible, List.filter_eq_self]
  simp only [decide_eq_true_iff]

theorem getElem?_cells_eq_mark_iff {j : Nat} (h : alphabet[j]? = some a) :
    (r.cells alphabet)[j + 1]? = some "∅" ↔ r.target? a = none ∨ r.target? a = some "∅" := by
  have hcell : (r.cells alphabet)[j + 1]? = some ((r.target? a).getD "∅") := by
    have hj : j < (alphabet.map fun a => (r.target? a).getD "∅").length := by
      rw [List.length_map]
      exact (List.getElem?_eq_some_iff.1 h).1
    rw [cells_eq, List.cons_append, List.getElem?_cons_succ, List.getElem?_append_left hj,
      List.getElem?_map, h]
    rfl
  rw [hcell, Option.some_inj, getD_eq_mark_iff]

end Row

def Table.ofCells (alphabet : List String) (rows : List (List String)) : Table :=
  rows.map (Row.ofCells alphabet)

namespace Nfa

variable {N N' : Nfa} {d d' : String}

theorem lists_of_mem_determinize {r : Row String} (hr : r ∈ N.determinize d) :
    r.Lists N.alphabet := by
  obtain ⟨k, -, rfl⟩ := mem_determinize_iff.1 hr
  refine List.filterMap_congr fun a ha => ?_
  rw [target?_row, if_pos (List.mem_eraseDups.1 ha)]

theorem ofCells_cells (N : Nfa) (d : String) :
    Table.ofCells N.alphabet ((N.determinize d).cells N.alphabet) =
      (N.determinize d).map Row.visible := by
  rw [Table.ofCells, Table.cells, List.map_map]
  exact List.map_congr_left fun r hr => Row.ofCells_cells (lists_of_mem_determinize hr)

theorem cells_map_visible (N : Nfa) (d : String) (alphabet : List String) :
    Table.cells ((N.determinize d).map Row.visible) alphabet =
      (N.determinize d).cells alphabet := by
  rw [Table.cells, Table.cells, List.map_map]
  refine List.map_congr_left fun r hr => ?_
  obtain ⟨k, -, rfl⟩ := mem_determinize_iff.1 hr
  exact Row.cells_visible (nodup_symbols_row N d k) alphabet

theorem cells_eq_iff_visible_eq (halphabet : N'.alphabet = N.alphabet) :
    (N'.determinize d').cells N.alphabet = (N.determinize d).cells N.alphabet ↔
      (N'.determinize d').map Row.visible = (N.determinize d).map Row.visible := by
  constructor
  · intro hcells
    rw [← ofCells_cells, ← ofCells_cells, halphabet, hcells]
  · intro hvisible
    rw [← cells_map_visible, hvisible, cells_map_visible]

end Nfa

namespace Config

open Transition (Denotes)

variable {c : Config} {d a p : String} {r : Row String}

theorem denotes_iff_of_target_mark (hlabels : c.checkLabels d = .ok ()) (hr : r ∈ c.determinize d)
    (htarget : r.target? a = some "∅") :
    (∃ q ∈ Key.members d r.name, Denotes c.transitions q a p) ↔ p = "∅" := by
  obtain ⟨k, -, rfl⟩ := Nfa.mem_determinize_iff.1 hr
  have hstep : c.toNfa.step? d k a = some "∅" := by
    rw [Nfa.target?_row] at htarget
    exact (Option.ite_none_right_eq_some.1 htarget).2
  have hkey := (Nfa.step?_eq_some_iff.1 hstep).2
  have hatomic := (atomicDestinations hlabels).next (Key.members d k) a
  rw [Key.ofKeys_of_atomic hatomic, Members.ofList_toList] at hkey
  have hnext : (c.toNfa.transitions.next (Key.members d k) a).toList = ["∅"] :=
    Key.toList_eq_of_ofMembers_eq (fun q hq => (hatomic q hq).ne_empty) rfl hkey.symm
  have hmem : p ∈ c.toNfa.transitions.next (Key.members d k) a ↔ p = "∅" := by
    rw [Members.mem_def, hnext, List.mem_singleton]
  rw [← hmem, TransitionMap.mem_next]
  simp only [toNfa, TransitionMap.mem_destinations_ofTransitions]
  rfl

/-- The cells of a table show all of it but the entries with the target `∅`: tables over the same
alphabet have the same cells just if they are the same apart from those entries. Such an entry
cannot be told from a missing one; it is there only where a row leads to the label `∅` alone. -/
theorem cells_show_table (c : Config) (d : String) :
    (∀ c' : Config, c'.alphabet = c.alphabet →
      ((c'.determinize d).cells c'.alphabet = (c.determinize d).cells c.alphabet ↔
        (c'.determinize d).map Row.visible = (c.determinize d).map Row.visible)) ∧
    (∀ c' : Config, c'.alphabet = c.alphabet →
      (∀ r ∈ c.determinize d, ∀ e ∈ r.transitions, e.2 ≠ "∅") →
      (∀ r ∈ c'.determinize d, ∀ e ∈ r.transitions, e.2 ≠ "∅") →
      (c'.determinize d).cells c'.alphabet = (c.determinize d).cells c.alphabet →
        c'.determinize d = c.determinize d) ∧
    Table.ofCells c.alphabet ((c.determinize d).cells c.alphabet) =
      (c.determinize d).map Row.visible ∧
    (∀ r ∈ c.determinize d, ∀ j a, c.alphabet[j]? = some a →
      ((r.cells c.alphabet)[j + 1]? = some "∅" ↔ r.target? a = none ∨ r.target? a = some "∅")) ∧
    (c.checkLabels d = .ok () → ∀ r ∈ c.determinize d, ∀ a, r.target? a = some "∅" →
      ∀ p, (∃ q ∈ Key.members d r.name, Denotes c.transitions q a p) ↔ p = "∅") := by
  have hvisible : ∀ t : Table, (∀ r ∈ t, ∀ e ∈ r.transitions, e.2 ≠ "∅") →
      t.map Row.visible = t := by
    intro t ht
    have hrow : ∀ r ∈ t, r.visible = r := fun r hr => Row.visible_eq_self_iff.2 (ht r hr)
    rw [List.map_congr_left hrow, List.map_id']
  have hcells : ∀ c' : Config, c'.alphabet = c.alphabet →
      ((c'.determinize d).cells c'.alphabet = (c.determinize d).cells c.alphabet ↔
        (c'.determinize d).map Row.visible = (c.determinize d).map Row.visible) := by
    intro c' halphabet
    have hsymbols : c'.toNfa.alphabet = c.toNfa.alphabet := halphabet
    rw [halphabet]
    exact Nfa.cells_eq_iff_visible_eq hsymbols
  refine ⟨hcells, fun c' halphabet hc hc' h => ?_, c.toNfa.ofCells_cells d,
    fun r _ j a h => Row.getElem?_cells_eq_mark_iff h,
    fun hlabels r hr a htarget p => denotes_iff_of_target_mark hlabels hr htarget⟩
  rwa [hcells c' halphabet, hvisible _ hc, hvisible _ hc'] at h

def markLabel : Config where
  states := ["A", "∅"]
  alphabet := ["0"]
  transitions := [⟨"A", "0", ["∅"]⟩]
  initialState := "A"
  acceptingStates := []

def markLoop : Config :=
  { markLabel with transitions := [⟨"A", "0", ["∅"]⟩, ⟨"∅", "0", ["∅"]⟩] }

theorem tables_mark :
    markLabel.determinize "" = [⟨"A", false, [("0", "∅")]⟩, ⟨"∅", false, []⟩] ∧
      markLoop.determinize "" = [⟨"A", false, [("0", "∅")]⟩, ⟨"∅", false, [("0", "∅")]⟩] := by
  constructor <;> cbv

def plainLabels : Config :=
  { markLabel with states := ["A", "B"], transitions := [⟨"A", "0", ["B"]⟩] }

def plainTwice : Config :=
  { plainLabels with transitions := [⟨"A", "0", ["B", "B"]⟩, ⟨"B", "0", []⟩, ⟨"A", "0", ["B"]⟩] }

theorem tables_plain :
    plainLabels.determinize "" = [⟨"A", false, [("0", "B")]⟩, ⟨"B", false, []⟩] ∧
      plainTwice.determinize "" = [⟨"A", false, [("0", "B")]⟩, ⟨"B", false, []⟩] := by
  constructor <;> cbv

theorem equal_cells_equal_tables :
    (markLoop.determinize "").cells markLoop.alphabet =
        (markLabel.determinize "").cells markLabel.alphabet ∧
      (markLoop.determinize "").map Row.visible = (markLabel.determinize "").map Row.visible ∧
      markLabel.checkLabels "" = .ok () ∧ Denotes markLabel.transitions "A" "0" "∅" ∧
      (plainTwice.determinize "").cells plainTwice.alphabet =
        (plainLabels.determinize "").cells plainLabels.alphabet ∧
      plainTwice.determinize "" = plainLabels.determinize "" := by
  obtain ⟨htable, htable'⟩ := tables_mark
  obtain ⟨hplain, hplain'⟩ := tables_plain
  have hcells : (markLoop.determinize "").cells markLoop.alphabet =
      (markLabel.determinize "").cells markLabel.alphabet := by
    rw [htable, htable']
    decide
  have hcells' : (plainTwice.determinize "").cells plainTwice.alphabet =
      (plainLabels.determinize "").cells plainLabels.alphabet := by
    rw [hplain, hplain']
    decide
  have hlabels : markLabel.checkLabels "" = .ok () := rfl
  obtain ⟨hvisible, -, -, -, hdenotes⟩ := cells_show_table markLabel ""
  obtain ⟨-, htables, -⟩ := cells_show_table plainLabels ""
  have hmark := hdenotes hlabels ⟨"A", false, [("0", "∅")]⟩ (by rw [htable]; decide) "0" rfl "∅"
  obtain ⟨q, hq, hdenoted⟩ := hmark.2 rfl
  obtain rfl : q = "A" := List.mem_singleton.1 hq
  refine ⟨hcells, (hvisible markLoop rfl).1 hcells, hlabels, hdenoted, hcells', ?_⟩
  apply htables plainTwice rfl _ _ hcells'
  · rw [hplain]
    decide
  · rw [hplain']
    decide

theorem markLoop_hidden :
    markLabel.checkLabels "" = .ok () ∧ markLoop.checkLabels "" = .ok () ∧
      markLoop.alphabet = markLabel.alphabet ∧
      (markLoop.determinize "").cells markLoop.alphabet =
        (markLabel.determinize "").cells markLabel.alphabet ∧
      markLoop.determinize "" ≠ markLabel.determinize "" ∧
      ∃ r ∈ markLabel.determinize "", r.target? "0" = some "∅" ∧
        (r.cells markLabel.alphabet)[1]? = some "∅" := by
  obtain ⟨htable, htable'⟩ := tables_mark
  rw [htable, htable']
  refine ⟨rfl, rfl, rfl, ?_, ?_, ?_⟩ <;> decide

end Config
end Determinizer
