import Mathlib
import Determinizer.Proofs.Exploration.AccessWords

/-! Rows in breadth-first order. With each key that an exploration discovers goes the word on which
it was found: the word of the key just processed and one more symbol. These words come in increasing
order, because the keys are processed in the order of their words and their symbols are tried in the
order of the alphabet. No earlier word leads to the same key, because its last step was tried
before. -/

namespace Determinizer

section Lists

def discover (found : List (String × List String)) (f : String × List String) :
    List (String × List String) :=
  if f.1 ∈ found.map Prod.fst then found else found ++ [f]

variable {found fs : List (String × List String)}

theorem map_fst_foldl_discover : (fs.foldl discover found).map Prod.fst =
    (fs.map Prod.fst).foldl appendNew (found.map Prod.fst) := by
  induction fs generalizing found with
  | nil => rfl
  | cons f fs ih =>
    have hone : (discover found f).map Prod.fst = appendNew (found.map Prod.fst) f.1 := by
      rw [discover, appendNew]
      split
      · rfl
      · rw [List.map_append, List.map_singleton]
    rw [List.foldl_cons, ih, hone, List.map_cons, List.foldl_cons]

theorem prefix_foldl_discover (found fs : List (String × List String)) :
    found <+: fs.foldl discover found := by
  induction fs generalizing found with
  | nil => exact List.prefix_rfl
  | cons f fs ih =>
    refine List.IsPrefix.trans ?_ (ih (discover found f))
    rw [discover]
    split
    · exact List.prefix_rfl
    · exact List.prefix_append found [f]

theorem discover_append_sublist (found fs : List (String × List String))
    (f : String × List String) : (discover found f ++ fs).Sublist (found ++ f :: fs) := by
  rw [discover]
  split
  · exact (List.sublist_cons_self f fs).append_left found
  · rw [List.append_assoc, List.singleton_append]

theorem foldl_discover_sublist (found fs : List (String × List String)) :
    (fs.foldl discover found).Sublist (found ++ fs) := by
  induction fs generalizing found with
  | nil => simp
  | cons f fs ih => exact (ih (discover found f)).trans (discover_append_sublist found fs f)

theorem exists_mem_foldl_discover {R : String × List String → String × List String → Prop}
    (h : (found ++ fs).Pairwise R) {f : String × List String} (hf : f ∈ fs) :
    ∃ g ∈ fs.foldl discover found, g.1 = f.1 ∧ (g = f ∨ R g f) := by
  induction fs generalizing found with
  | nil => simp at hf
  | cons e fs ih =>
    rw [List.foldl_cons]
    have hgrow := (prefix_foldl_discover (discover found e) fs).subset
    rcases List.mem_cons.1 hf with rfl | hf
    · by_cases hknown : f.1 ∈ found.map Prod.fst
      · obtain ⟨g, hg, hkey⟩ := List.mem_map.1 hknown
        have hdisc : discover found f = found := if_pos hknown
        rw [hdisc] at hgrow ⊢
        exact ⟨g, hgrow hg, hkey, .inr ((List.pairwise_append.1 h).2.2 g hg f List.mem_cons_self)⟩
      · have hdisc : discover found f = found ++ [f] := if_neg hknown
        rw [hdisc] at hgrow ⊢
        exact ⟨f, hgrow (by simp), rfl, .inl rfl⟩
    · exact ih (h.sublist (discover_append_sublist found fs e)) hf

end Lists

namespace Exploration

variable {N : Nfa} {delimiter : String} {e e' : Exploration} {n : Nat}
  {found : List (String × List String)}

/-- The discovered keys with the words on which they were found, in increasing order. Each word but
the empty one goes on from that of a processed key, and from the processed keys no step leads to a
key with a word beyond the step. -/
structure Ordered (N : Nfa) (delimiter : String) (e : Exploration)
    (found : List (String × List String)) : Prop where
  keys : found.map Prod.fst = e.discovered
  first : (Key.canonical delimiter N.initial, []) ∈ found
  leads : ∀ f ∈ found, N.Leads delimiter f.2 f.1
  increasing : found.Pairwise fun f g => rank N.alphabet f.2 < rank N.alphabet g.2
  origin : ∀ f ∈ found, f.2 = [] ∨ ∃ g ∈ found, g.1 ∈ e.processed ∧ ∃ a, f.2 = g.2 ++ [a]
  closed : ∀ f ∈ found, f.1 ∈ e.processed → ∀ a ∈ N.alphabet, ∀ k,
    N.step? delimiter f.1 a = some k →
    ∃ g ∈ found, g.1 = k ∧ rank N.alphabet g.2 ≤ rank N.alphabet (f.2 ++ [a])

theorem ordered_start (N : Nfa) (delimiter : String) :
    Ordered N delimiter (start (Key.canonical delimiter N.initial))
      [(Key.canonical delimiter N.initial, [])] where
  keys := rfl
  first := List.mem_singleton_self _
  leads f hf := by
    rw [List.mem_singleton.1 hf]
    exact .start
  increasing := List.pairwise_singleton _ _
  origin f hf := .inl (by rw [List.mem_singleton.1 hf])
  closed f _ hproc := absurd hproc (by simp [start])

def finds (N : Nfa) (delimiter key : String) (word : List String) : List (String × List String) :=
  (N.row delimiter key).transitions.map fun t => (t.2, word ++ [t.1])

theorem mem_finds {key : String} {word : List String} {f : String × List String} :
    f ∈ finds N delimiter key word ↔
      ∃ a ∈ N.alphabet, N.step? delimiter key a = some f.1 ∧ f.2 = word ++ [a] := by
  rw [finds, List.mem_map]
  constructor
  · rintro ⟨⟨a, k⟩, hmem, rfl⟩
    obtain ⟨ha, hstep⟩ := Nfa.mem_transitions_row.1 hmem
    exact ⟨a, ha, hstep, rfl⟩
  · rintro ⟨a, ha, hstep, hword⟩
    exact ⟨(a, f.1), Nfa.mem_transitions_row.2 ⟨ha, hstep⟩, Prod.ext rfl hword.symm⟩

theorem pairwise_finds (N : Nfa) (delimiter key : String) (word : List String) :
    (finds N delimiter key word).Pairwise fun f g =>
      rank N.alphabet f.2 < rank N.alphabet g.2 := by
  have hsymbols := Nfa.pairwise_symbols_row N delimiter key
  rw [List.pairwise_map] at hsymbols
  rw [finds, List.pairwise_map]
  exact hsymbols.imp fun hab => rank_concat_lt_concat hab word

theorem Ordered.exists_next (h : Ordered N delimiter e found) (he : Orderly N delimiter e)
    {key : String} {rest : List String} (hq : e.queue = key :: rest) :
    ∃ word, (key, word) ∈ found ∧
      ∀ g ∈ found, g.1 ∈ e.processed → rank N.alphabet g.2 < rank N.alphabet word := by
  have hkeys := h.keys
  have hnodup := he.nodup
  rw [discovered, hq] at hkeys hnodup
  obtain ⟨before, after, rfl, hbefore, hafter⟩ := List.map_eq_append_iff.1 hkeys
  obtain ⟨⟨_, word⟩, later, rfl, rfl, -⟩ := List.map_eq_cons_iff.1 hafter
  refine ⟨word, by simp, fun g hg hproc => ?_⟩
  have horder := (List.pairwise_append.1 h.increasing).2.2
  rcases List.mem_append.1 hg with hg | hg
  · exact horder g hg _ List.mem_cons_self
  · have hwaits : g.1 ∈ _ :: rest := hafter ▸ List.mem_map_of_mem hg
    exact absurd rfl ((List.nodup_append.1 hnodup).2.2 g.1 hproc g.1 hwaits)

theorem Ordered.pairwise_append_finds (h : Ordered N delimiter e found) (key : String)
    {word : List String}
    (hnext : ∀ g ∈ found, g.1 ∈ e.processed → rank N.alphabet g.2 < rank N.alphabet word) :
    (found ++ finds N delimiter key word).Pairwise fun f g =>
      rank N.alphabet f.2 < rank N.alphabet g.2 := by
  refine List.pairwise_append.2
    ⟨h.increasing, pairwise_finds N delimiter key word, fun f hf g hg => ?_⟩
  obtain ⟨a, -, -, hword⟩ := mem_finds.1 hg
  rw [hword]
  rcases h.origin f hf with hnil | ⟨g', hg', hproc, b, hconcat⟩
  · rw [hnil]
    exact rank_lt_iff.2 (.inl (by simp))
  · rw [hconcat]
    exact rank_concat_lt (hnext g' hg' hproc) b a

theorem Ordered.of_advance (h : Ordered N delimiter e found) (he : Orderly N delimiter e)
    (hadv : e.advance N delimiter = some e') : ∃ found', Ordered N delimiter e' found' := by
  obtain ⟨key, rest, hq, he', hp, hd⟩ := he.of_advance hadv
  obtain ⟨word, hkey, hnext⟩ := h.exists_next he hq
  have hall := h.pairwise_append_finds key hnext
  have hgrow := (prefix_foldl_discover found (finds N delimiter key word)).subset
  have hsub := foldl_discover_sublist found (finds N delimiter key word)
  have hkeys : ((finds N delimiter key word).foldl discover found).map Prod.fst =
      e'.discovered := by
    rw [map_fst_foldl_discover, h.keys, hd, finds, List.map_map]
    rfl
  have hsame : ∀ f ∈ (finds N delimiter key word).foldl discover found, ∀ g ∈ found,
      g.1 = f.1 → g = f := by
    have hnodup := he'.nodup
    rw [← hkeys] at hnodup
    exact fun f hf g hg => List.inj_on_of_nodup_map hnodup (hgrow hg) hf
  refine ⟨(finds N delimiter key word).foldl discover found, hkeys, hgrow h.first, fun f hf => ?_,
    hall.sublist hsub, fun f hf => ?_, fun f hf hproc a ha k hstep => ?_⟩
  · rcases List.mem_append.1 (hsub.subset hf) with hf | hf
    · exact h.leads f hf
    · obtain ⟨a, ha, hstep, hword⟩ := mem_finds.1 hf
      exact hword ▸ (h.leads _ hkey).step ha hstep
  · rcases List.mem_append.1 (hsub.subset hf) with hf | hf
    · rcases h.origin f hf with hnil | ⟨g, hg, hproc, hconcat⟩
      · exact .inl hnil
      · exact .inr ⟨g, hgrow hg, hp ▸ List.mem_append_left _ hproc, hconcat⟩
    · obtain ⟨a, -, -, hword⟩ := mem_finds.1 hf
      exact .inr ⟨_, hgrow hkey, by simp [hp], a, hword⟩
  · rw [hp, List.mem_append, List.mem_singleton] at hproc
    rcases hproc with hproc | hnow
    · -- a key processed before was found before, with the same word
      have hold : f.1 ∈ found.map Prod.fst := by
        rw [h.keys]
        exact List.mem_append_left _ hproc
      obtain ⟨f', hf', hkey'⟩ := List.mem_map.1 hold
      obtain rfl := hsame f hf f' hf' hkey'
      obtain ⟨g, hg, hgk, hle⟩ := h.closed _ hf' hproc a ha k hstep
      exact ⟨g, hgrow hg, hgk, hle⟩
    · obtain rfl := hsame f hf _ hkey hnow.symm
      have hfinds : (k, word ++ [a]) ∈ finds N delimiter key word :=
        mem_finds.2 ⟨a, ha, hstep, rfl⟩
      obtain ⟨g, hg, hgk, hle⟩ := exists_mem_foldl_discover hall hfinds
      refine ⟨g, hg, hgk, ?_⟩
      rcases hle with rfl | hlt
      · exact le_rfl
      · exact hlt.le

theorem ordered_of_advance (e e' : Exploration)
    (h : Orderly N delimiter e ∧ ∃ found, Ordered N delimiter e found)
    (hadv : e.advance N delimiter = some e') :
    Orderly N delimiter e' ∧ ∃ found, Ordered N delimiter e' found := by
  obtain ⟨he, found, h⟩ := h
  obtain ⟨_, _, _, he', _, _⟩ := he.of_advance hadv
  exact ⟨he', h.of_advance he hadv⟩

theorem Ordered.exists_rank_le (h : Ordered N delimiter e found) (hq : e.queue = [])
    {k : String} {w : List String} (hw : N.Leads delimiter w k) :
    ∃ f ∈ found, f.1 = k ∧ rank N.alphabet f.2 ≤ rank N.alphabet w := by
  induction hw with
  | start => exact ⟨_, h.first, rfl, le_rfl⟩
  | step _ ha hstep ih =>
    obtain ⟨f, hf, rfl, hle⟩ := ih
    have hproc : f.1 ∈ e.processed := by
      rw [← discovered_of_queue_eq_nil hq, ← h.keys]
      exact List.mem_map_of_mem hf
    obtain ⟨g, hg, hgk, hbound⟩ := h.closed f hf hproc _ ha _ hstep
    exact ⟨g, hg, hgk, hbound.trans (rank_concat_le hle _)⟩

end Exploration

namespace Nfa

variable {N : Nfa} {delimiter : String}

structure AccessWords (N : Nfa) (delimiter : String) (found : List (String × List String)) :
    Prop where
  rows : N.determinize delimiter = found.map fun f => N.row delimiter f.1
  nodup : (found.map Prod.fst).Nodup
  increasing : found.Pairwise fun f g => rank N.alphabet f.2 < rank N.alphabet g.2
  leads : ∀ f ∈ found, N.Leads delimiter f.2 f.1
  least : ∀ k w, N.Leads delimiter w k →
    ∃ f ∈ found, f.1 = k ∧ rank N.alphabet f.2 ≤ rank N.alphabet w

theorem exists_accessWords (N : Nfa) (delimiter : String) :
    ∃ found, N.AccessWords delimiter found := by
  obtain ⟨n, e, hn, hq, hrows, -⟩ := exists_exploration N delimiter
  have hstart : Exploration.Orderly N delimiter
        (Exploration.start (Key.canonical delimiter N.initial)) ∧
      ∃ found, Exploration.Ordered N delimiter
        (Exploration.start (Key.canonical delimiter N.initial)) found :=
    ⟨Exploration.orderly_start N delimiter _, _, Exploration.ordered_start N delimiter⟩
  obtain ⟨he, found, h⟩ := hn.keep (P := fun e => Exploration.Orderly N delimiter e ∧
    ∃ found, Exploration.Ordered N delimiter e found) Exploration.ordered_of_advance hstart
  have hkeys : found.map Prod.fst = e.processed :=
    h.keys.trans (Exploration.discovered_of_queue_eq_nil hq)
  refine ⟨found, ?_, ?_, h.increasing, h.leads, fun k w => h.exists_rank_le hq⟩
  · rw [hrows, he.rows, ← hkeys, List.map_map]
    rfl
  · rw [h.keys]
    exact he.nodup

variable {found : List (String × List String)} {f : String × List String}

theorem AccessWords.rank_le (h : N.AccessWords delimiter found) (hf : f ∈ found) {w : List String}
    (hw : (N.determinize delimiter).run w = some (N.row delimiter f.1)) :
    rank N.alphabet f.2 ≤ rank N.alphabet w := by
  obtain ⟨k, hk, hrow⟩ := run_determinize_iff.1 hw
  obtain ⟨g, hg, rfl, hle⟩ := h.least k w hk
  obtain rfl := List.inj_on_of_nodup_map h.nodup hg hf (congrArg Row.name hrow)
  exact hle

theorem AccessWords.leastWord_iff (h : N.AccessWords delimiter found) (hf : f ∈ found)
    {w : List String} :
    (N.determinize delimiter).LeastWord N.alphabet (N.row delimiter f.1) w ↔ w = f.2 := by
  have hleads := h.leads f hf
  have hrun := run_determinize_iff.2 ⟨f.1, hleads, rfl⟩
  constructor
  · intro hw
    exact rank_inj hw.symbols ((hw.least f.2 hleads.symbols hrun).antisymm (h.rank_le hf hw.run))
  · rintro rfl
    exact ⟨hleads.symbols, hrun, fun v _ hv => h.rank_le hf hv⟩

/-- Each row has a least word, and the rows come in the order of these words. No word that leads to
a row is shorter than all that lead to a row above. -/
theorem rows_in_order_of_least_words (N : Nfa) (delimiter : String) :
    (∀ r ∈ N.determinize delimiter, ∃! w, (N.determinize delimiter).LeastWord N.alphabet r w) ∧
    ((N.determinize delimiter).Pairwise fun r r' => ∀ v w,
      (N.determinize delimiter).LeastWord N.alphabet r v →
      (N.determinize delimiter).LeastWord N.alphabet r' w →
      rank N.alphabet v < rank N.alphabet w) ∧
    (N.determinize delimiter).Pairwise fun r r' => ∀ w,
      (N.determinize delimiter).run w = some r' →
      ∃ v, (N.determinize delimiter).run v = some r ∧ v.length ≤ w.length := by
  obtain ⟨found, h⟩ := exists_accessWords N delimiter
  have hrows : ∀ R : Row String → Row String → Prop,
      (∀ f ∈ found, ∀ g ∈ found, rank N.alphabet f.2 < rank N.alphabet g.2 →
        R (N.row delimiter f.1) (N.row delimiter g.1)) → (N.determinize delimiter).Pairwise R := by
    intro R hR
    rw [h.rows, List.pairwise_map]
    exact h.increasing.imp_of_mem fun hf hg hlt => hR _ hf _ hg hlt
  refine ⟨fun r hr => ?_, hrows _ fun f hf g hg hlt v w hv hw => ?_,
    hrows _ fun f hf g hg hlt w hw => ?_⟩
  · rw [h.rows] at hr
    obtain ⟨f, hf, rfl⟩ := List.mem_map.1 hr
    exact ⟨f.2, (h.leastWord_iff hf).2 rfl, fun w hw => (h.leastWord_iff hf).1 hw⟩
  · rwa [(h.leastWord_iff hf).1 hv, (h.leastWord_iff hg).1 hw]
  · exact ⟨f.2, run_determinize_iff.2 ⟨f.1, h.leads f hf, rfl⟩,
      length_le_of_rank_le (hlt.le.trans (h.rank_le hg hw))⟩

end Nfa
end Determinizer
