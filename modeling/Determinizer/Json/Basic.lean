/-! JSON values. Integers are exact and of any size, other numbers are doubles, and the entries of
an object stay in the order in which they were written. -/

namespace Determinizer

inductive Json where
  | null
  | bool (b : Bool)
  | int (n : Int)
  | float (x : Float)
  | str (s : String)
  | arr (items : List Json)
  | obj (entries : List (String × Json))
deriving Inhabited

namespace Json

def truthy : Json → Bool
  | null => false
  | bool b => b
  | int n => n ≠ 0
  | float x => x != 0
  | str s => s ≠ ""
  | arr items => !items.isEmpty
  | obj entries => !entries.isEmpty

def field? (name : String) : Json → Option Json
  | obj entries => entries.lookup name
  | _ => none

def str? : Json → Option String
  | str s => some s
  | _ => none

def strings? : Json → Option (List String)
  | arr items => items.mapM str?
  | _ => none

def strings (l : List String) : Json := arr (l.map str)

mutual

def depth : Json → Nat
  | arr items => itemsDepth items + 1
  | obj entries => entriesDepth entries + 1
  | _ => 0

def itemsDepth : List Json → Nat
  | [] => 0
  | v :: vs => max v.depth (itemsDepth vs)

def entriesDepth : List (String × Json) → Nat
  | [] => 0
  | (_, v) :: es => max v.depth (entriesDepth es)

end

theorem itemsDepth_le_iff {items : List Json} {n : Nat} :
    itemsDepth items ≤ n ↔ ∀ v ∈ items, v.depth ≤ n := by
  induction items with
  | nil => simp [itemsDepth]
  | cons v vs ih => rw [itemsDepth, Nat.max_le, ih, List.forall_mem_cons]

theorem entriesDepth_le_iff {entries : List (String × Json)} {n : Nat} :
    entriesDepth entries ≤ n ↔ ∀ e ∈ entries, e.2.depth ≤ n := by
  induction entries with
  | nil => simp [entriesDepth]
  | cons e es ih => rw [entriesDepth, Nat.max_le, ih, List.forall_mem_cons]

@[simp] theorem depth_str (s : String) : (str s).depth = 0 := by
  simp [depth]

@[simp] theorem depth_int (n : Int) : (int n).depth = 0 := by
  simp [depth]

@[simp] theorem depth_bool (b : Bool) : (bool b).depth = 0 := by
  simp [depth]

@[simp] theorem depth_arr_le_iff {items : List Json} {n : Nat} :
    (arr items).depth ≤ n + 1 ↔ ∀ v ∈ items, v.depth ≤ n := by
  rw [depth, Nat.add_le_add_iff_right, itemsDepth_le_iff]

@[simp] theorem depth_obj_le_iff {entries : List (String × Json)} {n : Nat} :
    (obj entries).depth ≤ n + 1 ↔ ∀ e ∈ entries, e.2.depth ≤ n := by
  rw [depth, Nat.add_le_add_iff_right, entriesDepth_le_iff]

@[simp] theorem depth_strings_le (n : Nat) (l : List String) : (strings l).depth ≤ n + 1 := by
  simp [strings]

theorem mapM_str?_eq_some {items : List Json} {l : List String} :
    items.mapM str? = some l ↔ items = l.map str := by
  induction items generalizing l with
  | nil => cases l <;> simp
  | cons v vs ih =>
    rw [List.mapM_cons]
    cases h : vs.mapM str? with
    | none =>
      have : ∀ k : List String, vs ≠ k.map str := fun k hk => by cases h.symm.trans (ih.2 hk)
      cases v <;> cases l <;> simp [str?, this]
    | some k =>
      obtain rfl := ih.1 h
      cases v <;> cases l <;> simp [str?, List.map_inj_right]

theorem strings?_eq_some {v : Json} {l : List String} :
    v.strings? = some l ↔ v = strings l := by
  cases v <;> simp [strings?, strings, mapM_str?_eq_some]

@[simp] theorem strings?_strings (l : List String) : (strings l).strings? = some l :=
  strings?_eq_some.2 rfl

@[simp] theorem str?_eq_some {v : Json} {s : String} : v.str? = some s ↔ v = str s := by
  cases v <;> simp [str?]

end Json
end Determinizer
