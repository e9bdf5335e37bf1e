import Mathlib
import Determinizer.Proofs.Exploration.Reachable

/-! What keeping track of the waiting keys is for. No key waits twice and no processed key waits, so
a round never comes upon a key that is processed. Without the test for waiting keys a key may be put
in the queue again, and it is skipped when its turn comes the next time. The rows are the same: when
of each key in that queue only the first place counts, and of the processed keys none, what counts
is the queue that is kept with the test. -/

namespace Determinizer

section AppendNew
variable {f : String → Option String} {as l : List String}

theorem foldl_appendNew_filterMap_cons (f : String → Option String) (a : String)
    (as l : List String) : ((a :: as).filterMap f).foldl appendNew l =
      (as.filterMap f).foldl appendNew ((f a).toList.foldl appendNew l) := by
  cases hf : f a with
  | none =>
    rw [List.filterMap_cons_none hf]
    rfl
  | some k =>
    rw [List.filterMap_cons_some hf]
    rfl

theorem foldl_appendNew_filterMap_filter {p : String → Bool}
    (h : ∀ a ∈ as, p a = false → ∀ k ∈ f a, k ∈ l) :
    ((as.filter p).filterMap f).foldl appendNew l = (as.filterMap f).foldl appendNew l := by
  induction as generalizing l with
  | nil => rfl
  | cons a as ih =>
    obtain ⟨ha, has⟩ := List.forall_mem_cons.1 h
    rw [foldl_appendNew_filterMap_cons]
    cases hp : p a with
    | false =>
      have hknown : (f a).toList.foldl appendNew l = l := by
        cases hf : f a with
        | none => rfl
        | some k => exact if_pos (ha hp k hf)
      rw [List.filter_cons_of_neg (Bool.eq_false_iff.1 hp), hknown, ih has]
    | true =>
      rw [List.filter_cons_of_pos hp, foldl_appendNew_filterMap_cons]
      exact ih fun b hb hpb k hk => mem_foldl_appendNew.2 (.inl (has b hb hpb k hk))

theorem foldl_appendNew_filter {p : String → Bool} {ks : List String}
    (h : ∀ k ∈ ks, p k = false → k ∈ l) :
    (ks.filter p).foldl appendNew l = ks.foldl appendNew l := by
  have hsome : ((ks.filter p).filterMap some).foldl appendNew l =
      (ks.filterMap some).foldl appendNew l :=
    foldl_appendNew_filterMap_filter fun k hk hp m hm => Option.some.inj hm ▸ h k hk hp
  rwa [List.filterMap_some, List.filterMap_some] at hsome

theorem foldl_appendNew_filterMap_eraseDups (f : String → Option String) (as l : List String) :
    (as.eraseDups.filterMap f).foldl appendNew l = (as.filterMap f).foldl appendNew l := by
  induction hn : as.length using Nat.strong_induction_on generalizing as l with
  | _ n ih =>
    cases as with
    | nil => rfl
    | cons a as =>
      have hshort : (as.filter fun b => !b == a).length < n := by
        have hle := List.length_filter_le (fun b => !b == a) as
        rw [List.length_cons] at hn
        omega
      rw [List.eraseDups_cons, foldl_appendNew_filterMap_cons, foldl_appendNew_filterMap_cons,
        ih _ hshort _ _ rfl]
      -- the symbols left out are the one in front
      refine foldl_appendNew_filterMap_filter fun b _ hb k hk => ?_
      have hba : b = a := by simpa using hb
      exact mem_foldl_appendNew.2 (.inr (Option.mem_toList.2 (hba ▸ hk)))

end AppendNew

namespace Nfa

variable (N : Nfa) (delimiter : String)

def followers (key : String) : List String := N.alphabet.filterMap (N.step? delimiter key)

theorem followers_subset_targetKeys (key : String) :
    N.followers delimiter key ⊆ N.targetKeys delimiter := by
  intro k hk
  obtain ⟨a, -, hstep⟩ := List.mem_filterMap.1 hk
  exact step?_mem_targetKeys hstep

theorem targets_eq_filterMap (key : String) :
    N.targets delimiter key = N.alphabet.eraseDups.filterMap (N.step? delimiter key) := by
  rw [targets, row, List.map_filterMap]
  simp only [Option.map_map, Function.comp_def, Option.map_id']

theorem foldl_appendNew_followers (key : String) (l : List String) :
    (N.followers delimiter key).foldl appendNew l =
      (N.targets delimiter key).foldl appendNew l := by
  rw [targets_eq_filterMap]
  exact (foldl_appendNew_filterMap_eraseDups _ _ _).symm

end Nfa

namespace Exploration

def requeue (e : Exploration) (key : String) : Exploration :=
  if key ∈ e.processed then e
  else { e with queue := e.queue ++ [key], queued := key :: e.queued }

def requeueAll (e : Exploration) (keys : List String) : Exploration := keys.foldl requeue e

theorem requeueAll_eq (e : Exploration) (keys : List String) :
    (e.requeueAll keys).queue = e.queue ++ keys.filter (· ∉ e.processed) ∧
      (e.requeueAll keys).processed = e.processed ∧ (e.requeueAll keys).rows = e.rows := by
  induction keys generalizing e with
  | nil => simp [requeueAll]
  | cons k ks ih =>
    have hrest := ih (e.requeue k)
    have hcons : e.requeueAll (k :: ks) = (e.requeue k).requeueAll ks := rfl
    rw [hcons]
    by_cases hk : k ∈ e.processed
    · have hsame : e.requeue k = e := if_pos hk
      rw [hsame] at hrest ⊢
      simpa [hk] using hrest
    · have hput : e.requeue k = { e with queue := e.queue ++ [k], queued := k :: e.queued } :=
        if_neg hk
      rw [hput] at hrest ⊢
      simpa [hk] using hrest

section Untracked
variable (N : Nfa) (delimiter : String)

def visitUntracked (key : String) (e : Exploration) : Exploration :=
  { e with
    processed := e.processed ++ [key]
    rows := e.rows ++ [N.row delimiter key] }.requeueAll (N.followers delimiter key)

def advanceUntracked (e : Exploration) : Option Exploration :=
  match e.queue with
  | [] => none
  | key :: rest =>
    let e := { e with queue := rest, queued := e.queued.filter (· ≠ key) }
    some (if key ∈ e.processed then e else e.visitUntracked N delimiter key)

variable {N delimiter} {e e' : Exploration}

theorem advanceUntracked_eq_none_iff : e.advanceUntracked N delimiter = none ↔ e.queue = [] := by
  rw [advanceUntracked]
  split
  · next hq => simp [hq]
  · next hq => simp [hq]

theorem of_advanceUntracked (h : e.advanceUntracked N delimiter = some e') :
    ∃ key rest, e.queue = key :: rest ∧
      (key ∈ e.processed ∧ e'.queue = rest ∧ e'.processed = e.processed ∧ e'.rows = e.rows ∨
        key ∉ e.processed ∧
          e'.queue = rest ++ (N.followers delimiter key).filter (· ∉ e'.processed) ∧
          e'.processed = e.processed ++ [key] ∧ e'.rows = e.rows ++ [N.row delimiter key]) := by
  cases hq : e.queue with
  | nil =>
    rw [advanceUntracked_eq_none_iff.2 hq] at h
    cases h
  | cons key rest =>
    refine ⟨key, rest, rfl, ?_⟩
    rw [advanceUntracked, hq] at h
    simp only [Option.some.injEq] at h
    subst h
    by_cases hk : key ∈ e.processed
    · rw [if_pos hk]
      exact .inl ⟨hk, rfl, rfl, rfl⟩
    · rw [if_neg hk]
      obtain ⟨hqueue, hprocessed, hrows⟩ := requeueAll_eq
        ⟨rest, e.queued.filter (· ≠ key), e.processed ++ [key], e.rows ++ [N.row delimiter key]⟩
        (N.followers delimiter key)
      refine .inr ⟨hk, ?_, hprocessed, hrows⟩
      exact hqueue.trans (by rw [← hprocessed]; rfl)

theorem distance_advanceUntracked (h : e.advanceUntracked N delimiter = some e') :
    Prod.Lex (· < ·) (Prod.Lex (· < ·) (· < ·)) (e'.distance N delimiter)
      (e.distance N delimiter) := by
  obtain ⟨key, rest, hq, ⟨-, rfl, hprocessed, -⟩ | ⟨hk, hqueue, hprocessed, -⟩⟩ :=
    of_advanceUntracked h
  · exact distance_lt_of_drop N delimiter hq hprocessed
  · refine distance_lt_of_process N delimiter hq hk hprocessed ?_
    rw [hqueue, List.countP_append, Nat.add_eq_left, List.countP_eq_zero]
    intro k hk
    have hk := N.followers_subset_targetKeys delimiter key (List.mem_of_mem_filter hk)
    simpa using hk

variable (N delimiter) in
/-- All rounds without the test. A key may wait often, but no processed key is put in the queue
again, so the distance to the end goes down as it does with the test. -/
def finishUntracked (e : Exploration) : Exploration :=
  match _ : e.advanceUntracked N delimiter with
  | none => e
  | some e' => e'.finishUntracked
termination_by e.distance N delimiter
decreasing_by exact distance_advanceUntracked ‹_›

theorem finishUntracked_of_eq_none (h : e.advanceUntracked N delimiter = none) :
    e.finishUntracked N delimiter = e := by
  rw [finishUntracked]
  split
  · rfl
  · next hadv => cases h.symm.trans hadv

theorem finishUntracked_of_eq_some (h : e.advanceUntracked N delimiter = some e') :
    e.finishUntracked N delimiter = e'.finishUntracked N delimiter := by
  rw [finishUntracked]
  split
  · next hadv => cases h.symm.trans hadv
  · next hadv => rw [Option.some.inj (h.symm.trans hadv)]

end Untracked

variable {N : Nfa} {delimiter : String} {e f f' : Exploration}

/-- The first exploration is as far as the second, and the new keys in its queue, each at its first
place, are the queue of the second. -/
structure Condenses (f e : Exploration) : Prop where
  processed : f.processed = e.processed
  rows : f.rows = e.rows
  discovered : f.queue.foldl appendNew f.processed = e.discovered

theorem condenses_start (key : String) : Condenses (start key) (start key) where
  processed := rfl
  rows := rfl
  discovered := by
    change appendNew [] key = [key]
    exact if_neg List.not_mem_nil

theorem Condenses.queue_eq_nil (h : Condenses f e) (hq : f.queue = []) : e.queue = [] := by
  have hd := h.discovered
  rw [hq, List.foldl_nil, h.processed, Exploration.discovered, List.self_eq_append_right] at hd
  exact hd

theorem Condenses.skip {key : String} (h : Condenses f e) (hq : f.queue = key :: f'.queue)
    (hk : key ∈ f.processed) (hprocessed : f'.processed = f.processed) (hrows : f'.rows = f.rows) :
    Condenses f' e where
  processed := hprocessed.trans h.processed
  rows := hrows.trans h.rows
  discovered := by
    have hknown : appendNew f.processed key = f.processed := if_pos hk
    rw [← h.discovered, hq, List.foldl_cons, hknown, hprocessed]

theorem Condenses.pass {key : String} {rest : List String} (h : Condenses f e)
    (he : Orderly N delimiter e) (hq : f.queue = key :: rest) (hk : key ∉ f.processed)
    (hqueue : f'.queue = rest ++ (N.followers delimiter key).filter (· ∉ f'.processed))
    (hprocessed : f'.processed = f.processed ++ [key])
    (hrows : f'.rows = f.rows ++ [N.row delimiter key]) :
    ∃ e', e.advance N delimiter = some e' ∧ Orderly N delimiter e' ∧ Condenses f' e' := by
  have hrest : rest.foldl appendNew f'.processed = e.discovered := by
    have hnew : appendNew f.processed key = f.processed ++ [key] := if_neg hk
    rw [← h.discovered, hq, List.foldl_cons, hnew, hprocessed]
  have hpre : f'.processed <+: e.discovered := hrest ▸ prefix_foldl_appendNew _ _
  -- the key is the first one that waits with the test as well
  obtain ⟨later, hlater⟩ : [key] <+: e.queue := by
    rwa [hprocessed, h.processed, Exploration.discovered, List.prefix_append_right_inj] at hpre
  obtain ⟨e', hadv⟩ : ∃ e', e.advance N delimiter = some e' := by
    refine Option.ne_none_iff_exists'.1 fun hnone => ?_
    rw [advance_eq_none_iff.1 hnone] at hlater
    cases hlater
  obtain ⟨key', _, hq', ho', hp', hd'⟩ := he.of_advance hadv
  obtain ⟨rfl, -⟩ := List.cons.inj (hlater.trans hq')
  refine ⟨e', hadv, ho', ?_, ?_, ?_⟩
  · rw [hprocessed, hp', h.processed]
  · rw [hrows, ho'.rows, hp', List.map_append, List.map_singleton, ← he.rows, h.rows]
  · have hknown : ∀ k ∈ N.followers delimiter key, decide (k ∉ f'.processed) = false →
        k ∈ e.discovered := fun k _ hk => hpre.subset (by simpa using hk)
    rw [hqueue, List.foldl_append, hrest, foldl_appendNew_filter hknown,
      N.foldl_appendNew_followers, hd']

theorem rows_finishUntracked (he : Orderly N delimiter e) (h : Condenses f e) :
    (f.finishUntracked N delimiter).rows = (e.finish N delimiter).rows := by
  induction f using finishUntracked.induct N delimiter generalizing e with
  | case1 f hadv =>
    have hend := h.queue_eq_nil (advanceUntracked_eq_none_iff.1 hadv)
    rw [finishUntracked_of_eq_none hadv, finish_of_advance_eq_none (advance_eq_none_iff.2 hend),
      h.rows]
  | case2 f f' hadv ih =>
    rw [finishUntracked_of_eq_some hadv]
    obtain ⟨key, rest, hq, ⟨hk, rfl, hprocessed, hrows⟩ | ⟨hk, hqueue, hprocessed, hrows⟩⟩ :=
      of_advanceUntracked hadv
    · exact ih he (h.skip hq hk hprocessed hrows)
    · obtain ⟨e', hadv', he', h'⟩ := h.pass he hq hk hqueue hprocessed hrows
      rw [finish_of_advance_eq_some hadv']
      exact ih he' h'

theorem Orderly.advance_eq {key : String} {rest : List String} (h : Orderly N delimiter e)
    (hq : e.queue = key :: rest) : e.advance N delimiter = some
      ({ e with queue := rest, queued := e.queued.filter (· ≠ key) }.visit N delimiter key) := by
  have hnew : key ∉ e.processed := h.not_mem_processed (hq ▸ List.mem_cons_self)
  rw [advance, hq]
  exact congrArg some (if_neg hnew)

theorem Orderly.map_name_rows (h : Orderly N delimiter e) : e.rows.map Row.name = e.processed := by
  rw [h.rows, List.map_map]
  exact List.map_id _

end Exploration

namespace Nfa

def determinizeUntracked (N : Nfa) (delimiter : String) : Table :=
  ((Exploration.start (Key.canonical delimiter N.initial)).finishUntracked N delimiter).rows

/-- Before every round no key waits twice, the waiting keys are known as such, none of them is
processed, and the rows are those of the processed keys, one for each round. So each round processes
the first key in the queue and never skips it; and without the test for waiting keys the table would
be the same. -/
theorem rounds_process_once (N : Nfa) (delimiter : String) :
    (∀ n e, Exploration.Rounds N delimiter n
        (Exploration.start (Key.canonical delimiter N.initial)) e →
      e.queue.Nodup ∧ (∀ k, k ∈ e.queued ↔ k ∈ e.queue) ∧ (∀ k ∈ e.queue, k ∉ e.processed) ∧
      e.rows.map Row.name = e.processed ∧ e.processed.length = n ∧
      ∀ key rest, e.queue = key :: rest →
        e.advance N delimiter = some
          ({ e with queue := rest, queued := e.queued.filter (· ≠ key) }.visit N delimiter key)) ∧
    N.determinizeUntracked delimiter = N.determinize delimiter := by
  have hstart := Exploration.orderly_start N delimiter (Key.canonical delimiter N.initial)
  refine ⟨fun n e hrounds => ?_, ?_⟩
  · have he : Exploration.Orderly N delimiter e :=
      (hrounds.explored (Exploration.explored_start N delimiter)).orderly
    exact ⟨(List.nodup_append.1 he.nodup).2.1, he.queued, fun k hk => he.not_mem_processed hk,
      he.map_name_rows, hrounds.length_processed_of_start, fun key rest hq => he.advance_eq hq⟩
  · exact Exploration.rows_finishUntracked hstart (Exploration.condenses_start _)

def joined : Nfa where
  alphabet := ["0", "1"]
  transitions := .ofTransitions [⟨"p", "0", ["q"]⟩, ⟨"p", "1", ["q"]⟩, ⟨"q", "0", ["q"]⟩]
  initial := "p"
  accepting := ["q"]

theorem joined_rounds :
    ((Exploration.start "p").advanceUntracked joined "").map Exploration.queue = some ["q", "q"] ∧
      (∃ e, Exploration.Rounds joined "" 1 (Exploration.start (Key.canonical "" joined.initial)) e ∧
        e.queue = ["q"] ∧ e.rows.map Row.name = ["p"]) ∧
      joined.determinizeUntracked "" =
        [⟨"p", false, [("0", "q"), ("1", "q")]⟩, ⟨"q", true, [("0", "q")]⟩] := by
  obtain ⟨hrounds, htable⟩ := rounds_process_once joined ""
  have hone : Exploration.Rounds joined "" 1
      (Exploration.start (Key.canonical "" joined.initial))
      ⟨["q"], ["q"], ["p"], [⟨"p", false, [("0", "q"), ("1", "q")]⟩]⟩ :=
    .succ (by decide) (.zero _)
  refine ⟨by decide, ⟨_, hone, rfl, (hrounds 1 _ hone).2.2.2.1⟩, ?_⟩
  rw [htable]
  cbv

end Nfa
end Determinizer
