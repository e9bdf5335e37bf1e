import Mathlib
import Determinizer.Proofs.Nfa.Language

/-! Words that lead to a row. They are ordered by their length, and at one length by the places of
their symbols in the alphabet. The run of a table over a word, from its first row or from any other,
ends in the row of the key to which the steps of the automaton lead from there, and there is none
where they lead nowhere. -/

namespace Determinizer

/-- The place of a word: its length first, then the first positions of its symbols in the alphabet,
compared from the left. -/
def rank (alphabet word : List String) : Lex (Nat × List Nat) :=
  toLex (word.length, word.map fun a => alphabet.idxOf a)

section Rank
variable {alphabet v w : List String} {a b : String}

theorem rank_lt_iff : rank alphabet v < rank alphabet w ↔ v.length < w.length ∨
    v.length = w.length ∧ v.map (alphabet.idxOf ·) < w.map (alphabet.idxOf ·) :=
  Prod.Lex.toLex_lt_toLex

theorem length_le_of_rank_le (h : rank alphabet v ≤ rank alphabet w) : v.length ≤ w.length := by
  rcases Prod.Lex.toLex_le_toLex.1 h with hlt | ⟨heq, -⟩
  · exact hlt.le
  · exact heq.le

theorem rank_inj (hv : ∀ a ∈ v, a ∈ alphabet) (h : rank alphabet v = rank alphabet w) : v = w := by
  obtain ⟨-, hplaces⟩ := Prod.mk.inj (toLex.injective h)
  clear h
  induction v generalizing w with
  | nil => exact (List.map_eq_nil_iff.1 hplaces.symm).symm
  | cons a v ih =>
    cases w with
    | nil => cases hplaces
    | cons b w =>
      rw [List.map_cons, List.map_cons, List.cons.injEq] at hplaces
      have htail := ih (fun c hc => hv c (List.mem_cons_of_mem a hc)) hplaces.2
      rw [(List.idxOf_inj (hv a List.mem_cons_self)).1 hplaces.1, htail]

theorem append_lt_append {u v : List Nat} (hlen : u.length = v.length) (h : u < v)
    (s t : List Nat) : u ++ s < v ++ t := by
  induction u generalizing v with
  | nil =>
    obtain rfl := List.length_eq_zero_iff.1 hlen.symm
    exact absurd h (lt_irrefl _)
  | cons a u ih =>
    cases v with
    | nil => cases hlen
    | cons b v =>
      rw [List.cons_append, List.cons_append, List.cons_lt_cons_iff]
      rcases List.cons_lt_cons_iff.1 h with hab | ⟨hab, htail⟩
      · exact .inl hab
      · exact .inr ⟨hab, ih (Nat.succ.inj hlen) htail⟩

theorem rank_concat_lt (h : rank alphabet v < rank alphabet w) (a b : String) :
    rank alphabet (v ++ [a]) < rank alphabet (w ++ [b]) := by
  rw [rank_lt_iff] at h ⊢
  simp only [List.length_append, List.length_singleton, List.map_append, Nat.add_lt_add_iff_right,
    Nat.add_right_cancel_iff]
  rcases h with hlt | ⟨hlen, hplaces⟩
  · exact .inl hlt
  · exact .inr ⟨hlen, append_lt_append (by simpa using hlen) hplaces _ _⟩

theorem rank_concat_le (h : rank alphabet v ≤ rank alphabet w) (a : String) :
    rank alphabet (v ++ [a]) ≤ rank alphabet (w ++ [a]) := by
  rcases h.lt_or_eq with hlt | heq
  · exact (rank_concat_lt hlt a a).le
  · obtain ⟨hlen, hplaces⟩ := Prod.mk.inj (toLex.injective heq)
    refine le_of_eq (congrArg toLex (Prod.ext ?_ ?_))
    · rw [List.length_append, List.length_append, hlen]
    · rw [List.map_append, List.map_append, hplaces]

theorem rank_concat_lt_concat (h : alphabet.idxOf a < alphabet.idxOf b) (w : List String) :
    rank alphabet (w ++ [a]) < rank alphabet (w ++ [b]) := by
  refine rank_lt_iff.2 (.inr ⟨by simp, ?_⟩)
  rw [List.map_append, List.map_append]
  exact List.append_left_lt (List.cons_lt_cons_iff.2 (.inl h))

end Rank

namespace Table

variable (t : Table)

theorem runFrom_concat (k : String) (w : List String) (a : String) :
    t.runFrom k (w ++ [a]) = (t.runFrom k w).bind fun r => (r.target? a).bind t.row? := by
  induction w generalizing k with
  | nil => rfl
  | cons b w ih =>
    rw [List.cons_append, runFrom, runFrom]
    simp only [ih, bind, Option.bind_assoc]

structure LeastWord (alphabet : List String) (r : Row String) (w : List String) : Prop where
  symbols : ∀ a ∈ w, a ∈ alphabet
  run : t.run w = some r
  least : ∀ v, (∀ a ∈ v, a ∈ alphabet) → t.run v = some r → rank alphabet w ≤ rank alphabet v

end Table

namespace Nfa

variable {N : Nfa} {delimiter k k' a : String} {w : List String}

inductive Leads (N : Nfa) (delimiter : String) : List String → String → Prop
  | start : Leads N delimiter [] (Key.canonical delimiter N.initial)
  | step {w : List String} {k a k' : String} : Leads N delimiter w k → a ∈ N.alphabet →
    N.step? delimiter k a = some k' → Leads N delimiter (w ++ [a]) k'

theorem Leads.symbols (h : N.Leads delimiter w k) : ∀ a ∈ w, a ∈ N.alphabet := by
  induction h with
  | start => simp
  | step _ ha _ ih =>
    intro b hb
    rcases List.mem_append.1 hb with hb | hb
    · exact ih b hb
    · rwa [List.mem_singleton.1 hb]

theorem Leads.reachable (h : N.Leads delimiter w k) : N.Reachable delimiter k := by
  induction h with
  | start => exact .start
  | step _ ha hstep ih => exact ih.of_step? ha hstep

theorem leads_nil_iff : N.Leads delimiter [] k ↔ k = Key.canonical delimiter N.initial := by
  constructor
  · generalize hw : ([] : List String) = w
    rintro (_ | _)
    · rfl
    · simp at hw
  · rintro rfl
    exact .start

theorem leads_concat_iff : N.Leads delimiter (w ++ [a]) k' ↔
    ∃ k, N.Leads delimiter w k ∧ a ∈ N.alphabet ∧ N.step? delimiter k a = some k' := by
  constructor
  · generalize hw : w ++ [a] = v
    rintro (_ | ⟨h, ha, hstep⟩)
    · simp at hw
    · obtain ⟨rfl, rfl⟩ := List.concat_inj.1 (by simpa using hw)
      exact ⟨_, h, ha, hstep⟩
  · rintro ⟨k, h, ha, hstep⟩
    exact h.step ha hstep

theorem Reachable.exists_leads (h : N.Reachable delimiter k) : ∃ w, N.Leads delimiter w k := by
  induction h with
  | start => exact ⟨[], .start⟩
  | step _ ha hne ih =>
    obtain ⟨w, hw⟩ := ih
    exact ⟨_, hw.step ha (step?_eq_some_iff.2 ⟨hne, rfl⟩)⟩

def startingAt (N : Nfa) (key : String) : Nfa := { N with initial := key }

theorem Reachable.of_startingAt {l : String} (hl : N.Reachable delimiter (Key.canonical delimiter l))
    (hk : (N.startingAt l).Reachable delimiter k) : N.Reachable delimiter k := by
  induction hk with
  | start => exact hl
  | step _ ha hne ih => exact ih.step ha hne

theorem runFrom_determinize_iff {l : String} (hl : N.Reachable delimiter (Key.canonical delimiter l))
    {r : Row String} :
    (N.determinize delimiter).runFrom (Key.canonical delimiter l) w = some r ↔
      ∃ k, (N.startingAt l).Leads delimiter w k ∧ N.row delimiter k = r := by
  induction w using List.reverseRecOn generalizing r with
  | nil =>
    rw [Table.runFrom, row?_determinize hl, Option.some.injEq]
    simp only [leads_nil_iff, exists_eq_left]
    rfl
  | append_singleton w a ih =>
    rw [Table.runFrom_concat, Option.bind_eq_some_iff]
    constructor
    · rintro ⟨_, hrun, hstep⟩
      obtain ⟨k, hk, rfl⟩ := ih.1 hrun
      obtain ⟨k', hk', hrow⟩ := Option.bind_eq_some_iff.1 hstep
      rw [target?_row] at hk'
      split at hk'
      · next ha =>
        have hleads : (N.startingAt l).Leads delimiter (w ++ [a]) k' := hk.step ha hk'
        rw [row?_determinize (hl.of_startingAt hleads.reachable)] at hrow
        exact ⟨k', hleads, Option.some.inj hrow⟩
      · cases hk'
    · rintro ⟨k', hk', rfl⟩
      obtain ⟨k, hk, ha, hstep⟩ := leads_concat_iff.1 hk'
      refine ⟨_, ih.2 ⟨k, hk, rfl⟩, ?_⟩
      have htarget : (N.row delimiter k).target? a = some k' := by
        rw [target?_row]
        exact (if_pos ha).trans hstep
      rw [htarget]
      exact row?_determinize (hl.of_startingAt hk'.reachable)

theorem run_determinize_iff {r : Row String} : (N.determinize delimiter).run w = some r ↔
    ∃ k, N.Leads delimiter w k ∧ N.row delimiter k = r := by
  rw [Table.run, head?_determinize]
  exact runFrom_determinize_iff .start

end Nfa
end Determinizer
