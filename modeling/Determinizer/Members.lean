import Determinizer.Ordered

/-! Finite sets of state labels. A set is the increasing list of its labels, in the order of their
code points, so two sets with the same labels are equal. -/

namespace Determinizer

structure Members where
  toList : List String
  increasing : Increasing toList
deriving DecidableEq

namespace Members

instance : EmptyCollection Members := ⟨⟨[], List.Pairwise.nil⟩⟩

instance : Inhabited Members := ⟨∅⟩

instance : Membership String Members := ⟨fun m a => a ∈ m.toList⟩

instance (a : String) (m : Members) : Decidable (a ∈ m) :=
  inferInstanceAs (Decidable (a ∈ m.toList))

theorem mem_def {a : String} {m : Members} : a ∈ m ↔ a ∈ m.toList := Iff.rfl

@[ext] theorem ext {m n : Members} (h : ∀ a, a ∈ m ↔ a ∈ n) : m = n := by
  obtain ⟨l, hl⟩ := m
  obtain ⟨k, hk⟩ := n
  congr
  exact hl.ext hk h

def insert (a : String) (m : Members) : Members :=
  ⟨insertOrdered a m.toList, m.increasing.insertOrdered a⟩

def ofList (l : List String) : Members := l.foldr insert ∅

def union (m n : Members) : Members := m.toList.foldr insert n

instance : Union Members := ⟨union⟩

def isEmpty (m : Members) : Bool := m.toList.isEmpty

@[simp] theorem toList_empty : (∅ : Members).toList = [] := rfl

@[simp] theorem not_mem_empty (a : String) : a ∉ (∅ : Members) := by simp [mem_def]

@[simp] theorem mem_insert {a b : String} {m : Members} : b ∈ m.insert a ↔ b = a ∨ b ∈ m :=
  mem_insertOrdered

@[simp] theorem mem_ofList {a : String} {l : List String} : a ∈ ofList l ↔ a ∈ l := by
  induction l with
  | nil => simp [ofList]
  | cons b l ih => simp [ofList, ← ih]

@[simp] theorem mem_union {a : String} {m n : Members} : a ∈ m ∪ n ↔ a ∈ m ∨ a ∈ n := by
  change a ∈ m.toList.foldr insert n ↔ a ∈ m.toList ∨ a ∈ n
  induction m.toList with
  | nil => simp
  | cons b l ih => simp [ih, or_assoc]

@[simp] theorem ofList_toList (m : Members) : ofList m.toList = m := by
  ext a
  exact mem_ofList

theorem toList_ofList_of_increasing {l : List String} (h : Increasing l) :
    (ofList l).toList = l :=
  (ofList l).increasing.ext h fun _ => mem_ofList

theorem isEmpty_iff {m : Members} : m.isEmpty = true ↔ m = ∅ := by
  constructor
  · intro h
    ext a
    simp [mem_def, List.isEmpty_iff.1 h]
  · rintro rfl
    rfl

end Members
end Determinizer
