/-! Increasing lists. A finite set is kept as the increasing list of its elements and a finite map
as the list of its entries with increasing keys, so that equal sets and equal maps are equal lists
and every listing is already in order. -/

namespace Determinizer

/-- The laws of `<` that make an increasing list a normal form of its set of elements. -/
class StrictLinear (α : Type) [LT α] : Prop where
  irrefl (a : α) : ¬ a < a
  trans {a b c : α} : a < b → b < c → a < c
  connected (a b : α) : a < b ∨ a = b ∨ b < a

instance : StrictLinear String where
  irrefl := String.lt_irrefl
  trans := String.lt_trans
  connected a b := by
    by_cases h : a < b
    · exact .inl h
    · by_cases h' : b < a
      · exact .inr (.inr h')
      · exact .inr (.inl (String.le_antisymm (String.not_lt.1 h') (String.not_lt.1 h)))

variable {α β : Type}

theorem lookup_cons_ite [DecidableEq α] (e : α × β) (l : List (α × β)) (b : α) :
    (e :: l).lookup b = if b = e.1 then some e.2 else l.lookup b := by
  rw [List.lookup_cons]
  by_cases hb : b = e.1
  · rw [if_pos hb, beq_iff_eq.2 hb]
  · rw [if_neg hb, beq_false_of_ne hb]

abbrev Increasing [LT α] (l : List α) : Prop := l.Pairwise (· < ·)

variable [LT α]

theorem Increasing.nodup [StrictLinear α] {l : List α} (h : Increasing l) : l.Nodup := by
  refine List.Pairwise.imp (fun {a b} hab heq => ?_) h
  subst heq
  exact StrictLinear.irrefl a hab

theorem Increasing.ext [StrictLinear α] {l l' : List α} (h : Increasing l) (h' : Increasing l')
    (hmem : ∀ a, a ∈ l ↔ a ∈ l') : l = l' := by
  induction l generalizing l' with
  | nil =>
    cases l' with
    | nil => rfl
    | cons b l' => exact absurd ((hmem b).2 (by simp)) (by simp)
  | cons a l ih =>
    cases l' with
    | nil => exact absurd ((hmem a).1 (by simp)) (by simp)
    | cons b l' =>
      rw [Increasing, List.pairwise_cons] at h h'
      have hab : a = b := by
        rcases List.mem_cons.1 ((hmem a).1 (by simp)) with hab | ha
        · exact hab
        · rcases List.mem_cons.1 ((hmem b).2 (by simp)) with hab | hb
          · exact hab.symm
          · exact absurd (StrictLinear.trans (h.1 b hb) (h'.1 a ha)) (StrictLinear.irrefl a)
      subst hab
      congr 1
      refine ih h.2 h'.2 fun c => ⟨fun hc => ?_, fun hc => ?_⟩
      · rcases List.mem_cons.1 ((hmem c).1 (List.mem_cons_of_mem _ hc)) with rfl | hc'
        · exact absurd (h.1 c hc) (StrictLinear.irrefl c)
        · exact hc'
      · rcases List.mem_cons.1 ((hmem c).2 (List.mem_cons_of_mem _ hc)) with rfl | hc'
        · exact absurd (h'.1 c hc) (StrictLinear.irrefl c)
        · exact hc'

theorem Increasing.sublist_of_subset [StrictLinear α] {k l : List α} (hk : Increasing k)
    (hl : Increasing l) (h : k ⊆ l) : k.Sublist l := by
  induction l generalizing k with
  | nil => simp [List.subset_nil.1 h]
  | cons b l ih =>
    cases k with
    | nil => exact List.nil_sublist _
    | cons a k =>
      rw [Increasing, List.pairwise_cons] at hk hl
      rcases List.mem_cons.1 (h (show a ∈ a :: k by simp)) with rfl | ha
      · refine (ih hk.2 hl.2 fun c hc => ?_).cons_cons a
        rcases List.mem_cons.1 (h (List.mem_cons_of_mem _ hc)) with rfl | hc'
        · exact absurd (hk.1 c hc) (StrictLinear.irrefl c)
        · exact hc'
      · refine (ih (List.pairwise_cons.2 hk) hl.2 fun c hc => ?_).cons b
        rcases List.mem_cons.1 (h hc) with rfl | hc'
        · rcases List.mem_cons.1 hc with rfl | hc
          · exact ha
          · exact absurd (StrictLinear.trans (hk.1 _ hc) (hl.1 a ha)) (StrictLinear.irrefl a)
        · exact hc'

def selections : List β → List (List β)
  | [] => [[]]
  | a :: l => selections l ++ (selections l).map (a :: ·)

theorem mem_selections {k l : List β} : k ∈ selections l ↔ k.Sublist l := by
  induction l generalizing k with
  | nil => simp [selections]
  | cons a l ih =>
    simp only [selections, List.mem_append, List.mem_map, ih, List.sublist_cons_iff]
    grind

section Insert
variable [DecidableLT α] [DecidableEq α]

def insertOrdered (a : α) : List α → List α
  | [] => [a]
  | b :: l => if a < b then a :: b :: l else if a = b then b :: l else b :: insertOrdered a l

@[simp] theorem mem_insertOrdered {a b : α} {l : List α} :
    b ∈ insertOrdered a l ↔ b = a ∨ b ∈ l := by
  induction l with
  | nil => simp [insertOrdered]
  | cons c l ih => grind [insertOrdered]

theorem Increasing.insertOrdered [StrictLinear α] {l : List α} (h : Increasing l) (a : α) :
    Increasing (insertOrdered a l) := by
  induction l with
  | nil => simp [Determinizer.insertOrdered, Increasing]
  | cons b l ih =>
    rw [Increasing, List.pairwise_cons] at h
    rw [Determinizer.insertOrdered]
    split
    · next hab =>
      refine List.pairwise_cons.2 ⟨fun c hc => ?_, List.pairwise_cons.2 h⟩
      rcases List.mem_cons.1 hc with rfl | hc
      · exact hab
      · exact StrictLinear.trans hab (h.1 c hc)
    · split
      · exact List.pairwise_cons.2 h
      · next hab hne =>
        refine List.pairwise_cons.2 ⟨fun c hc => ?_, ih h.2⟩
        rcases mem_insertOrdered.1 hc with rfl | hc
        · rcases StrictLinear.connected b c with h' | h' | h'
          · exact h'
          · exact absurd h'.symm hne
          · exact absurd h' hab
        · exact h.1 c hc

def putOrdered (a : α) (v : β) : List (α × β) → List (α × β)
  | [] => [(a, v)]
  | e :: l =>
    if a < e.1 then (a, v) :: e :: l else if a = e.1 then (a, v) :: l else e :: putOrdered a v l

theorem map_fst_putOrdered (a : α) (v : β) (l : List (α × β)) :
    (putOrdered a v l).map Prod.fst = insertOrdered a (l.map Prod.fst) := by
  induction l with
  | nil => rfl
  | cons e l ih => grind [putOrdered, insertOrdered]

theorem lookup_putOrdered (a b : α) (v : β) (l : List (α × β)) :
    (putOrdered a v l).lookup b = if b = a then some v else l.lookup b := by
  induction l with
  | nil => exact lookup_cons_ite (a, v) [] b
  | cons e l ih =>
    unfold putOrdered
    split
    · exact lookup_cons_ite (a, v) (e :: l) b
    · split
      · next he =>
        rw [lookup_cons_ite, lookup_cons_ite, ← he]
        by_cases hb : b = a
        · rw [if_pos hb, if_pos hb]
        · rw [if_neg hb, if_neg hb, if_neg hb]
      · next he =>
        rw [lookup_cons_ite, ih, lookup_cons_ite]
        by_cases hb : b = a
        · rw [if_pos hb, if_pos hb, if_neg fun h => he (hb.symm.trans h)]
        · rw [if_neg hb, if_neg hb]

end Insert

end Determinizer
