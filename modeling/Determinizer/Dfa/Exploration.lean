import Determinizer.Nfa.Basic

/-! The table of an automaton by exploration. Keys wait in a queue; each is taken out once, gets its
row, and puts the targets of that row at the end of the queue unless they are waiting or processed
already. The rows therefore come in the order of their discovery, breadth first.

The loop ends: taking out a key that no step can lead to, processing a key, or skipping one each
lowers the next of three counts, and the keys that steps lead to lie in a finite list. -/

namespace Determinizer

structure Exploration where
  queue : List String
  queued : List String
  processed : List String
  rows : Table
deriving DecidableEq

namespace Exploration

def start (key : String) : Exploration := ⟨[key], [key], [], []⟩

def enqueue (e : Exploration) (key : String) : Exploration :=
  if key ∈ e.processed ∨ key ∈ e.queued then e
  else { e with queue := e.queue ++ [key], queued := key :: e.queued }

def enqueueAll (e : Exploration) (keys : List String) : Exploration := keys.foldl enqueue e

variable (N : Nfa) (delimiter : String)

def visit (key : String) (e : Exploration) : Exploration :=
  let row := N.row delimiter key
  { e with processed := e.processed ++ [key], rows := e.rows ++ [row] }.enqueueAll
    (row.transitions.map Prod.snd)

def advance (e : Exploration) : Option Exploration :=
  match e.queue with
  | [] => none
  | key :: rest =>
    let e := { e with queue := rest, queued := e.queued.filter (· ≠ key) }
    some (if key ∈ e.processed then e else e.visit N delimiter key)

theorem processed_enqueue (e : Exploration) (key : String) :
    (e.enqueue key).processed = e.processed := by
  rw [enqueue]
  split <;> rfl

theorem processed_enqueueAll (e : Exploration) (keys : List String) :
    (e.enqueueAll keys).processed = e.processed := by
  induction keys generalizing e with
  | nil => rfl
  | cons k ks ih => exact (ih _).trans (processed_enqueue e k)

theorem rows_enqueue (e : Exploration) (key : String) : (e.enqueue key).rows = e.rows := by
  rw [enqueue]
  split <;> rfl

private theorem countP_queue_enqueueAll {p : String → Bool} (e : Exploration)
    {keys : List String} (h : ∀ k ∈ keys, p k = false) :
    (e.enqueueAll keys).queue.countP p = e.queue.countP p := by
  induction keys generalizing e with
  | nil => rfl
  | cons k ks ih =>
    refine (ih _ fun l hl => h l (List.mem_cons_of_mem _ hl)).trans ?_
    rw [enqueue]
    split
    · rfl
    · simp [h k (by simp)]

theorem processed_visit (key : String) (e : Exploration) :
    (e.visit N delimiter key).processed = e.processed ++ [key] :=
  processed_enqueueAll _ _

theorem countP_queue_visit (key : String) (e : Exploration) :
    (e.visit N delimiter key).queue.countP (!(N.targetKeys delimiter).contains ·) =
      e.queue.countP (!(N.targetKeys delimiter).contains ·) := by
  refine countP_queue_enqueueAll _ fun k hk => ?_
  obtain ⟨⟨a, k⟩, ha, rfl⟩ := List.mem_map.1 hk
  simpa using Nfa.step?_mem_targetKeys (Nfa.mem_transitions_row.1 ha).2

private theorem countP_lt {p q : String → Bool} {l : List String} (h : ∀ k, p k → q k)
    {k : String} (hk : k ∈ l) (hp : p k = false) (hq : q k = true) : l.countP p < l.countP q := by
  induction l with
  | nil => simp at hk
  | cons a l ih =>
    have hle : l.countP p ≤ l.countP q := List.countP_mono_left fun b _ => h b
    rcases List.mem_cons.1 hk with rfl | hk
    · simp [hp, hq]
      omega
    · have ha : (if p a then 1 else 0) ≤ if q a then 1 else 0 := by
        cases hpa : p a with
        | false => simp
        | true => simp [h a hpa]
      rw [List.countP_cons, List.countP_cons]
      exact Nat.add_lt_add_of_lt_of_le (ih hk) ha

/-- How far an exploration is from its end: waiting keys that no step leads to, keys that steps may
lead to and that are not processed, and the length of the queue. -/
def distance (e : Exploration) : Nat × Nat × Nat :=
  let targets := N.targetKeys delimiter
  (e.queue.countP (!targets.contains ·), targets.countP (!e.processed.contains ·), e.queue.length)

theorem distance_lt_of_drop {e e' : Exploration} {key : String} (hqueue : e.queue = key :: e'.queue)
    (hprocessed : e'.processed = e.processed) :
    Prod.Lex (· < ·) (Prod.Lex (· < ·) (· < ·)) (e'.distance N delimiter)
      (e.distance N delimiter) := by
  simp only [distance, hqueue, hprocessed, List.countP_cons]
  split
  · exact .left _ _ (by omega)
  · exact .right _ (.right _ (by simp))

theorem distance_lt_of_process {e e' : Exploration} {key : String} {rest : List String}
    (hqueue : e.queue = key :: rest) (hkey : key ∉ e.processed)
    (hprocessed : e'.processed = e.processed ++ [key])
    (hcount : e'.queue.countP (!(N.targetKeys delimiter).contains ·) =
      rest.countP (!(N.targetKeys delimiter).contains ·)) :
    Prod.Lex (· < ·) (Prod.Lex (· < ·) (· < ·)) (e'.distance N delimiter)
      (e.distance N delimiter) := by
  simp only [distance, hqueue, hprocessed, hcount, List.countP_cons]
  split
  · exact .left _ _ (by omega)
  -- the key itself is one of those, and now processed
  · next htarget =>
    refine .right _ (.left _ _ (countP_lt (k := key) (fun k hk => ?_) ?_ ?_ ?_))
    · simp_all
    · simpa using htarget
    · simp
    · simpa using hkey

theorem distance_advance {e e' : Exploration} (h : e.advance N delimiter = some e') :
    Prod.Lex (· < ·) (Prod.Lex (· < ·) (· < ·)) (e'.distance N delimiter)
      (e.distance N delimiter) := by
  rw [advance] at h
  split at h
  · cases h
  · next hqueue =>
    simp only [Option.some.injEq] at h
    subst h
    split
    · exact distance_lt_of_drop N delimiter hqueue rfl
    · next hkey =>
      exact distance_lt_of_process N delimiter hqueue hkey (processed_visit N delimiter _ _)
        (countP_queue_visit N delimiter _ _)

def finish (e : Exploration) : Exploration :=
  match _ : e.advance N delimiter with
  | none => e
  | some e' => e'.finish
termination_by e.distance N delimiter
decreasing_by exact distance_advance N delimiter ‹_›

end Exploration

def Nfa.determinize (N : Nfa) (delimiter : String) : Table :=
  ((Exploration.start (Key.canonical delimiter N.initial)).finish N delimiter).rows

end Determinizer
