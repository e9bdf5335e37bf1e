import Mathlib
import Determinizer.Nfa.Basic

/-! What a row says. It lists each symbol of the alphabet once, if the key of the row leads anywhere
on it, and looking a symbol up gives the step from the key. -/

namespace Determinizer

theorem idxOf_lt_of_filter {p : String → Bool} {l : List String} {a b : String} (ha : p a = true)
    (hb : p b = true) (h : (l.filter p).idxOf a < (l.filter p).idxOf b) :
    l.idxOf a < l.idxOf b := by
  induction l with
  | nil => exact h
  | cons c l ih =>
    by_cases hc : p c = true
    · rw [List.filter_cons_of_pos hc] at h
      by_cases hcb : c = b
      · subst hcb
        rw [List.idxOf_cons_self] at h
        exact absurd h (Nat.not_lt_zero _)
      · rw [List.idxOf_cons_ne _ hcb] at h ⊢
        by_cases hca : c = a
        · subst hca
          rw [List.idxOf_cons_self]
          exact Nat.succ_pos _
        · rw [List.idxOf_cons_ne _ hca] at h ⊢
          exact Nat.succ_lt_succ (ih (Nat.lt_of_succ_lt_succ h))
    · have hca : c ≠ a := fun heq => hc (heq ▸ ha)
      have hcb : c ≠ b := fun heq => hc (heq ▸ hb)
      rw [List.filter_cons_of_neg hc] at h
      rw [List.idxOf_cons_ne l hca, List.idxOf_cons_ne l hcb]
      exact Nat.succ_lt_succ (ih h)

theorem pairwise_idxOf_eraseDups (l : List String) :
    l.eraseDups.Pairwise fun a b => l.idxOf a < l.idxOf b := by
  induction h : l.length using Nat.strongRecOn generalizing l with
  | ind n ih =>
    cases l with
    | nil => simp
    | cons a l =>
      have hshort : (l.filter fun b => !b == a).length < n := by
        have hle := List.length_filter_le (fun b => !b == a) l
        rw [← h, List.length_cons]
        omega
      have hne : ∀ b ∈ (l.filter fun b => !b == a).eraseDups, b ≠ a := by
        intro b hb
        simpa using (List.mem_filter.1 (List.mem_eraseDups.1 hb)).2
      rw [List.eraseDups_cons, List.pairwise_cons]
      refine ⟨fun b hb => ?_, (ih _ hshort _ rfl).imp_of_mem fun {b c} hb hc hbc => ?_⟩
      · rw [List.idxOf_cons_self, List.idxOf_cons_ne l (hne b hb).symm]
        exact Nat.succ_pos _
      · rw [List.idxOf_cons_ne l (hne b hb).symm, List.idxOf_cons_ne l (hne c hc).symm]
        refine Nat.succ_lt_succ (idxOf_lt_of_filter ?_ ?_ hbc)
        · simpa using hne b hb
        · simpa using hne c hc

theorem lookup_filterMap {β : Type} (f : String → Option β) (l : List String) (a : String) :
    (l.filterMap fun b => (f b).map (b, ·)).lookup a = if a ∈ l then f a else none := by
  induction l with
  | nil => rfl
  | cons b l ih =>
    rw [List.filterMap_cons]
    by_cases hab : a = b
    · subst hab
      rw [if_pos List.mem_cons_self]
      cases hf : f a with
      | none =>
        rw [hf] at ih
        exact ih.trans (ite_self none)
      | some v =>
        change ((a, v) :: _).lookup a = some v
        rw [lookup_cons_ite, if_pos rfl]
    · have hmem : a ∈ b :: l ↔ a ∈ l := by rw [List.mem_cons, or_iff_right hab]
      rw [if_congr hmem rfl rfl, ← ih]
      cases f b with
      | none => rfl
      | some v =>
        change ((b, v) :: _).lookup a = _
        rw [lookup_cons_ite, if_neg hab]

theorem map_fst_filterMap_sublist {β : Type} (f : String → Option β) (l : List String) :
    ((l.filterMap fun b => (f b).map (b, ·)).map Prod.fst).Sublist l := by
  induction l with
  | nil => exact List.Sublist.slnil
  | cons b l ih =>
    rw [List.filterMap_cons]
    cases f b with
    | none => exact ih.cons b
    | some v => exact ih.cons_cons b

namespace Nfa

variable {N : Nfa} {delimiter key a : String}

theorem pairwise_symbols_row (N : Nfa) (delimiter key : String) :
    ((N.row delimiter key).transitions.map Prod.fst).Pairwise fun a b =>
      N.alphabet.idxOf a < N.alphabet.idxOf b :=
  (pairwise_idxOf_eraseDups N.alphabet).sublist (map_fst_filterMap_sublist _ _)

theorem nodup_symbols_row (N : Nfa) (delimiter key : String) :
    ((N.row delimiter key).transitions.map Prod.fst).Nodup :=
  (pairwise_symbols_row N delimiter key).imp fun hlt heq =>
    hlt.ne (congrArg (N.alphabet.idxOf ·) heq)

theorem target?_row (N : Nfa) (delimiter key a : String) :
    (N.row delimiter key).target? a =
      if a ∈ N.alphabet then N.step? delimiter key a else none := by
  rw [Row.target?, row, lookup_filterMap]
  simp only [List.mem_eraseDups]

theorem accepting_row : (N.row delimiter key).accepting = true ↔
    ∃ q ∈ Key.members delimiter key, q ∈ N.accepting := by
  change N.acceptsKey delimiter key = true ↔ _
  simp [acceptsKey]

theorem step?_eq_some_iff {target : String} : N.step? delimiter key a = some target ↔
    N.transitions.next (Key.members delimiter key) a ≠ ∅ ∧
      target = Key.ofKeys delimiter
        (N.transitions.next (Key.members delimiter key) a).toList := by
  have hempty := Members.isEmpty_iff (m := N.transitions.next (Key.members delimiter key) a)
  change (if (N.transitions.next (Key.members delimiter key) a).isEmpty then none else _) = _ ↔ _
  by_cases h : N.transitions.next (Key.members delimiter key) a = ∅
  · rw [if_pos (hempty.2 h)]
    simp [h]
  · rw [if_neg fun hT => h (hempty.1 hT)]
    simp [h, eq_comm]

section Congr
variable {N' : Nfa} {delimiter' : String}

theorem row_eq_row (halphabet : N'.alphabet = N.alphabet)
    (hstep : ∀ a ∈ N.alphabet, N'.step? delimiter' key a = N.step? delimiter key a)
    (haccepts : N'.acceptsKey delimiter' key = N.acceptsKey delimiter key) :
    N'.row delimiter' key = N.row delimiter key := by
  have hentries : (N.alphabet.eraseDups.filterMap fun a =>
        (N'.step? delimiter' key a).map (a, ·)) =
      N.alphabet.eraseDups.filterMap fun a => (N.step? delimiter key a).map (a, ·) :=
    List.filterMap_congr fun a ha => by rw [hstep a (List.mem_eraseDups.1 ha)]
  rw [row, row, haccepts, halphabet, hentries]

theorem row_congr_of_members (halphabet : N'.alphabet = N.alphabet)
    (hdestinations : ∀ q ∈ Key.members delimiter key, ∀ a ∈ N.alphabet,
      N'.transitions.destinations q a = N.transitions.destinations q a)
    (haccepting : ∀ q ∈ Key.members delimiter key, q ∈ N'.accepting ↔ q ∈ N.accepting) :
    N'.row delimiter key = N.row delimiter key := by
  refine row_eq_row halphabet (fun a ha => ?_) ?_
  · have hnext : N'.transitions.next (Key.members delimiter key) a =
        N.transitions.next (Key.members delimiter key) a := by
      ext p
      simp only [TransitionMap.mem_next]
      exact exists_congr fun q => and_congr_right fun hq => by rw [hdestinations q hq a ha]
    rw [step?, step?, hnext]
  · rw [Bool.eq_iff_iff, acceptsKey, acceptsKey]
    simp only [List.any_eq_true, decide_eq_true_eq]
    exact exists_congr fun q => and_congr_right fun hq => haccepting q hq

end Congr

end Nfa
end Determinizer
