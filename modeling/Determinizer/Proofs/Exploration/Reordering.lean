import Mathlib
import Determinizer.Proofs.Exploration.AccessWords
import Determinizer.Proofs.Key.NormalForm

/-! Tables with the same rows in another order. Which rows a table has depends on the reachable keys
alone, and the row of a key does not depend on when the exploration comes to it. So another order of
the alphabet moves rows and entries about and changes nothing else, and an exploration that starts
in a row finds the rows that can be reached from there. -/

namespace Determinizer

namespace Row

structure Agrees (r r' : Row String) : Prop where
  name : r'.name = r.name
  accepting : r'.accepting = r.accepting
  transitions : r'.transitions.Perm r.transitions

structure Follows (alphabet : List String) (r : Row String) : Prop where
  symbols : ∀ e ∈ r.transitions, e.1 ∈ alphabet
  increasing : r.transitions.Pairwise fun e f => alphabet.idxOf e.1 < alphabet.idxOf f.1

end Row

namespace Nfa

variable {N : Nfa} {delimiter k : String} {r : Row String}

theorem follows_of_mem_determinize (hr : r ∈ N.determinize delimiter) : r.Follows N.alphabet := by
  obtain ⟨k, -, rfl⟩ := mem_determinize_iff.1 hr
  refine ⟨fun e he => (mem_transitions_row.1 he).1, ?_⟩
  have hsymbols := pairwise_symbols_row N delimiter k
  rwa [List.pairwise_map] at hsymbols

section Alphabet

variable {alphabet : List String}

def withAlphabet (N : Nfa) (alphabet : List String) : Nfa := { N with alphabet }

theorem Reachable.withAlphabet (h : N.alphabet ⊆ alphabet) (hk : N.Reachable delimiter k) :
    (N.withAlphabet alphabet).Reachable delimiter k := by
  induction hk with
  | start => exact .start
  | step _ ha hne ih => exact ih.step (h ha) hne

variable (h : ∀ a, a ∈ alphabet ↔ a ∈ N.alphabet)
include h

theorem reachable_alphabet_iff :
    (N.withAlphabet alphabet).Reachable delimiter k ↔ N.Reachable delimiter k := by
  constructor
  · intro hk
    have hback : ((N.withAlphabet alphabet).withAlphabet N.alphabet).Reachable delimiter k :=
      hk.withAlphabet fun a ha => (h a).1 ha
    exact hback
  · exact fun hk => hk.withAlphabet fun a ha => (h a).2 ha

theorem agrees_row_alphabet (delimiter k : String) :
    (N.row delimiter k).Agrees ((N.withAlphabet alphabet).row delimiter k) where
  name := rfl
  accepting := rfl
  transitions := by
    have hnodup : ∀ M : Nfa, (M.row delimiter k).transitions.Nodup := fun M =>
      (nodup_symbols_row M delimiter k).of_map
    refine (List.perm_ext_iff_of_nodup (hnodup _) (hnodup _)).2 ?_
    rintro ⟨a, target⟩
    rw [mem_transitions_row, mem_transitions_row]
    exact and_congr_left fun _ => h a

theorem exists_perm_agrees (delimiter : String) :
    ∃ rows, rows.Perm ((N.withAlphabet alphabet).determinize delimiter) ∧
      List.Forall₂ Row.Agrees (N.determinize delimiter) rows := by
  obtain ⟨ks, hrows, hnodup, -, hks⟩ := exists_keys N delimiter
  obtain ⟨ks', hrows', hnodup', -, hks'⟩ := exists_keys (N.withAlphabet alphabet) delimiter
  -- both explorations come to the same keys, and each key has its row on either side
  have hperm : ks.Perm ks' := by
    refine (List.perm_ext_iff_of_nodup hnodup hnodup').2 fun k => ?_
    rw [hks, hks', reachable_alphabet_iff h]
  refine ⟨ks.map ((N.withAlphabet alphabet).row delimiter), ?_, ?_⟩
  · rw [hrows']
    exact hperm.map _
  · rw [hrows, List.forall₂_map_left_iff, List.forall₂_map_right_iff, List.forall₂_same]
    exact fun k _ => agrees_row_alphabet h delimiter k

end Alphabet

/-- Alphabets with the same symbols lead to tables that begin with the same key and have the same
rows, up to their order and up to the order of the entries. The entries keep to the alphabet. -/
theorem determinize_withAlphabet (N : Nfa) (delimiter : String) {alphabet : List String}
    (h : ∀ a, a ∈ alphabet ↔ a ∈ N.alphabet) :
    (∃ k, (N.determinize delimiter).head?.map Row.name = some k ∧
      ((N.withAlphabet alphabet).determinize delimiter).head?.map Row.name = some k) ∧
    (∃ rows, rows.Perm ((N.withAlphabet alphabet).determinize delimiter) ∧
      List.Forall₂ Row.Agrees (N.determinize delimiter) rows) ∧
    (∀ r ∈ N.determinize delimiter, r.Follows N.alphabet) ∧
    ∀ r ∈ (N.withAlphabet alphabet).determinize delimiter, r.Follows alphabet := by
  have hfirst : ∀ M : Nfa, (M.determinize delimiter).head?.map Row.name =
      some (Key.canonical delimiter M.initial) := by
    intro M
    rw [head?_determinize]
    rfl
  exact ⟨⟨_, hfirst N, hfirst (N.withAlphabet alphabet)⟩, exists_perm_agrees h delimiter,
    fun r hr => follows_of_mem_determinize hr, fun r hr => follows_of_mem_determinize hr⟩

def compoundTarget : Nfa where
  alphabet := ["0", "1"]
  transitions := .ofTransitions
    [⟨"a", "0", ["b=>c"]⟩, ⟨"a", "1", ["a", "b"]⟩, ⟨"b", "1", ["a"]⟩, ⟨"c", "0", ["c"]⟩]
  initial := "a"
  accepting := ["c"]

theorem determinize_repeatedSymbol :
    (∀ a, a ∈ ["1", "0", "1"] ↔ a ∈ compoundTarget.alphabet) ∧
      (compoundTarget.determinize "=>").map Row.name = ["a", "b=>c", "a=>b", "c"] ∧
      ((compoundTarget.withAlphabet ["1", "0", "1"]).determinize "=>").map Row.name =
        ["a", "a=>b", "b=>c", "c"] ∧
      ∃ rows, rows.Perm ((compoundTarget.withAlphabet ["1", "0", "1"]).determinize "=>") ∧
        List.Forall₂ Row.Agrees (compoundTarget.determinize "=>") rows := by
  have hsymbols : ∀ a, a ∈ ["1", "0", "1"] ↔ a ∈ compoundTarget.alphabet := by
    intro a
    simp only [compoundTarget, List.mem_cons, List.not_mem_nil, or_false]
    tauto
  exact ⟨hsymbols, by cbv, by cbv, (determinize_withAlphabet compoundTarget "=>" hsymbols).2.1⟩

section Restart

theorem Reachable.canonical_eq (hd : Key.Unambiguous delimiter) (h : N.Reachable delimiter k) :
    Key.canonical delimiter k = k := by
  cases h with
  | start => exact hd.canonical_ofKeys [N.initial]
  | step _ _ _ => exact hd.canonical_ofKeys _

theorem nodup_determinize (N : Nfa) (delimiter : String) : (N.determinize delimiter).Nodup := by
  obtain ⟨ks, hrows, hnodup, -⟩ := exists_keys N delimiter
  rw [hrows]
  exact hnodup.map fun _ _ heq => congrArg Row.name heq

theorem mem_determinize_startingAt_iff (hd : Key.Unambiguous delimiter)
    (hk : N.Reachable delimiter k) :
    r ∈ (N.startingAt k).determinize delimiter ↔
      ∃ w, (N.determinize delimiter).runFrom k w = some r := by
  have hkey : Key.canonical delimiter k = k := hk.canonical_eq hd
  have hrun : ∀ w, (N.determinize delimiter).runFrom k w = some r ↔
      ∃ l, (N.startingAt k).Leads delimiter w l ∧ N.row delimiter l = r := by
    intro w
    have hiff := runFrom_determinize_iff (hkey.symm ▸ hk) (w := w) (r := r)
    rwa [hkey] at hiff
  rw [mem_determinize_iff]
  constructor
  · rintro ⟨l, hl, hrow⟩
    obtain ⟨w, hw⟩ := hl.exists_leads
    exact ⟨w, (hrun w).2 ⟨l, hw, hrow⟩⟩
  · rintro ⟨w, hw⟩
    obtain ⟨l, hl, hrow⟩ := (hrun w).1 hw
    exact ⟨l, hl.reachable, hrow⟩

theorem determinize_startingAt_subset (hk : N.Reachable delimiter (Key.canonical delimiter k)) :
    (N.startingAt k).determinize delimiter ⊆ N.determinize delimiter := by
  intro r hr
  obtain ⟨l, hl, hrow⟩ := mem_determinize_iff.1 hr
  exact mem_determinize_iff.2 ⟨l, hk.of_startingAt hl, hrow⟩

/-- An exploration that starts in a row lists this row first and has, up to their order, exactly the
rows of the table into which the table is run from there. -/
theorem determinize_startingAt_row (hd : Key.Unambiguous delimiter)
    (hr : r ∈ N.determinize delimiter) :
    ((N.startingAt r.name).determinize delimiter).head? = some r ∧
    ∃ rows, rows.Sublist (N.determinize delimiter) ∧
      (∀ s, s ∈ rows ↔ ∃ w, (N.determinize delimiter).runFrom r.name w = some s) ∧
      ((N.startingAt r.name).determinize delimiter).Perm rows := by
  obtain ⟨k, hk, rfl⟩ := mem_determinize_iff.1 hr
  have hkey : Key.canonical delimiter k = k := hk.canonical_eq hd
  have hfirst : ((N.startingAt k).determinize delimiter).head? = some (N.row delimiter k) := by
    rw [head?_determinize]
    exact congrArg (fun l => some (N.row delimiter l)) hkey
  have hsubset := determinize_startingAt_subset (hkey.symm ▸ hk)
  -- no row is found twice, so the rows found are a part of the table in another order
  obtain ⟨rows, hperm, hsublist⟩ := (nodup_determinize (N.startingAt k) delimiter).subperm hsubset
  refine ⟨hfirst, rows, hsublist, fun s => ?_, hperm.symm⟩
  rw [hperm.mem_iff]
  exact mem_determinize_startingAt_iff hd hk

theorem determinize_startingAt_compound :
    Key.Unambiguous "=>" ∧
      ⟨"b=>c", true, [("0", "c"), ("1", "a")]⟩ ∈ compoundTarget.determinize "=>" ∧
      ((compoundTarget.startingAt "b=>c").determinize "=>").map Row.name =
        ["b=>c", "c", "a", "a=>b"] ∧
      ∃ rows, rows.Sublist (compoundTarget.determinize "=>") ∧
        (∀ s, s ∈ rows ↔ ∃ w, (compoundTarget.determinize "=>").runFrom "b=>c" w = some s) ∧
        ((compoundTarget.startingAt "b=>c").determinize "=>").Perm rows := by
  have hdelimiter : Key.Unambiguous "=>" := by decide
  have hrow : (⟨"b=>c", true, [("0", "c"), ("1", "a")]⟩ : Row String) ∈
      compoundTarget.determinize "=>" := by
    have htable : compoundTarget.determinize "=>" =
        [⟨"a", false, [("0", "b=>c"), ("1", "a=>b")]⟩, ⟨"b=>c", true, [("0", "c"), ("1", "a")]⟩,
          ⟨"a=>b", false, [("0", "b=>c"), ("1", "a=>b")]⟩, ⟨"c", true, [("0", "c")]⟩] := by cbv
    rw [htable]
    decide
  exact ⟨hdelimiter, hrow, by cbv, (determinize_startingAt_row hdelimiter hrow).2⟩

end Restart

end Nfa
end Determinizer
