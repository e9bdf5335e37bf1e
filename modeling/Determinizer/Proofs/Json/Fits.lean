import Mathlib
import Determinizer.Json.Reader.Value

/-! Values that keep within the limits of the reader. What is read does, since each loop adds to its
result only what a reader of the same limits returned. -/

namespace Determinizer.Json

/-- Values that fit into a text: names stand once in each object, integers have no more digits than
may be read, and brackets are nested at most `depth` deep. -/
inductive Fits : Nat → Json → Prop
  | null (depth : Nat) : Fits depth null
  | bool (depth : Nat) (b : Bool) : Fits depth (bool b)
  | int (depth : Nat) (n : Int) : (Nat.toDigits 10 n.natAbs).length ≤ maxDigits →
    Fits depth (int n)
  | float (depth : Nat) (x : Float) : Fits depth (float x)
  | str (depth : Nat) (s : String) : Fits depth (str s)
  | arr {depth : Nat} {items : List Json} : (∀ v ∈ items, Fits depth v) →
    Fits (depth + 1) (arr items)
  | obj {depth : Nat} {entries : List (String × Json)} : (entries.map Prod.fst).Nodup →
    (∀ e ∈ entries, Fits depth e.2) → Fits (depth + 1) (obj entries)

attribute [simp] Fits.null Fits.bool Fits.float Fits.str

@[simp] theorem fits_arr_iff {depth : Nat} {items : List Json} :
    Fits (depth + 1) (arr items) ↔ ∀ v ∈ items, Fits depth v := by
  constructor
  · intro h
    cases h with
    | arr hitems => exact hitems
  · exact .arr

@[simp] theorem fits_obj_iff {depth : Nat} {entries : List (String × Json)} :
    Fits (depth + 1) (obj entries) ↔
      (entries.map Prod.fst).Nodup ∧ ∀ e ∈ entries, Fits depth e.2 := by
  constructor
  · intro h
    cases h with
    | obj hnodup hentries => exact ⟨hnodup, hentries⟩
  · exact fun h => .obj h.1 h.2

@[simp] theorem fits_strings (depth : Nat) (l : List String) : Fits (depth + 1) (strings l) := by
  simp [strings]

variable {s opening : List Char} {depth : Nat} {v : Json}

theorem Fits.mono {depth' : Nat} (h : Fits depth v) (hle : depth ≤ depth') : Fits depth' v := by
  induction h generalizing depth' with
  | null => exact .null depth'
  | bool _ b => exact .bool depth' b
  | int _ n hlength => exact .int depth' n hlength
  | float _ x => exact .float depth' x
  | str _ s => exact .str depth' s
  | arr _ ih =>
    obtain ⟨d, rfl⟩ := Nat.exists_eq_add_of_le' ((Nat.succ_pos _).trans_le hle)
    exact .arr fun v hv => ih v hv (Nat.le_of_succ_le_succ hle)
  | obj hnodup _ ih =>
    obtain ⟨d, rfl⟩ := Nat.exists_eq_add_of_le' ((Nat.succ_pos _).trans_le hle)
    exact .obj hnodup fun e he => ih e he (Nat.le_of_succ_le_succ hle)

theorem Fits.depth_le (h : Fits depth v) : v.depth ≤ depth := by
  induction h with
  | arr _ ih => exact depth_arr_le_iff.2 ih
  | obj _ _ ih => exact depth_obj_le_iff.2 ih
  | _ => simp [Json.depth]

theorem Fits.reading [Host] (h : Fits depth v) (hle : depth ≤ 200) : Fits Host.reading v :=
  h.mono (hle.trans Host.le_reading)

theorem digitsValue_lt {ds : List Char} (h : ∀ c ∈ ds, isDigit c = true) :
    digitsValue ds < 10 ^ ds.length := by
  have hfold : ∀ (ds : List Char) (n : Nat), (∀ c ∈ ds, isDigit c = true) →
      ds.foldl (fun n c => n * 10 + (c.toNat - '0'.toNat)) n < (n + 1) * 10 ^ ds.length := by
    intro ds
    induction ds with
    | nil => intro n _; simp
    | cons c ds ih =>
      intro n h
      have hvalue : c.toNat - '0'.toNat < 10 := by
        have hc := h c List.mem_cons_self
        rw [isDigit, Bool.and_eq_true, decide_eq_true_eq, decide_eq_true_eq] at hc
        have hle : c.toNat ≤ 57 := hc.2
        have hzero : '0'.toNat = 48 := rfl
        omega
      have hrest := ih (n * 10 + (c.toNat - '0'.toNat)) fun d hd => h d (List.mem_cons_of_mem c hd)
      rw [List.foldl_cons, List.length_cons, Nat.pow_succ', ← Nat.mul_assoc]
      exact hrest.trans_le (Nat.mul_le_mul_right _ (by omega))
  simpa [digitsValue] using hfold ds 0 h

theorem digits_of_integerPart? {i : List Char} {rest : Below s}
    (h : integerPart? s = some (i, rest)) : i ≠ [] ∧ ∀ c ∈ i, isDigit c = true := by
  unfold integerPart? at h
  split at h
  · cases h
    refine ⟨List.cons_ne_nil _ _, fun d hd => ?_⟩
    rw [List.mem_singleton.1 hd]
    rfl
  · next c r _ =>
    split at h
    · next hc =>
      cases h
      refine ⟨List.cons_ne_nil _ _, fun d hd => ?_⟩
      rcases List.mem_cons.1 hd with rfl | hd
      · exact hc
      · exact List.mem_takeWhile_imp hd
    · cases h
  · cases h

theorem fits_of_numeralValue {negative : Bool} {i : List Char} {fraction : Option (List Char)}
    {exponent : Option Int} (hne : i ≠ []) (hi : ∀ c ∈ i, isDigit c = true)
    (h : numeralValue negative i fraction exponent = .ok v) : Fits depth v := by
  unfold numeralValue at h
  split at h
  · split at h
    · cases h
    · next hlength =>
      cases h
      refine .int depth _ (le_trans ?_ (Nat.not_lt.1 hlength))
      have habs : (if negative = true then -(digitsValue i : Int) else digitsValue i).natAbs =
          digitsValue i := by
        split <;> simp
      rw [habs]
      exact Nat.toDigits_length 10 _ _ (List.length_pos_iff.2 hne) (digitsValue_lt hi)
  · cases h
    exact .float depth _

theorem fits_of_scalar {rest : Below s} (h : scalar s = .ok (v, rest)) : Fits depth v := by
  unfold scalar at h
  split at h
  · next w k hword =>
    split at h
    · cases h
      obtain ⟨e, he, hw⟩ := Option.map_eq_some_iff.1 hword
      obtain rfl : e.2 = v := congrArg Prod.fst hw
      have hmem := List.mem_of_find?_eq_some he
      simp only [words, List.mem_cons, List.not_mem_nil, or_false] at hmem
      rcases hmem with rfl | rfl | rfl | rfl | rfl | rfl
      · exact .null depth
      · exact .bool depth _
      · exact .bool depth _
      all_goals exact .float depth _
    · cases h
  · unfold numeral at h
    split at h
    · cases h
    · next hi =>
      obtain ⟨hne, hdigits⟩ := digits_of_integerPart? hi
      dsimp only at h
      split at h
      · cases h
      · next hvalue =>
        cases h
        exact fits_of_numeralValue hne hdigits hvalue

theorem map_fst_setEntry (name : String) (v : Json) (entries : List (String × Json)) :
    (setEntry name v entries).map Prod.fst =
      if name ∈ entries.map Prod.fst then entries.map Prod.fst
      else entries.map Prod.fst ++ [name] := by
  induction entries with
  | nil => simp [setEntry]
  | cons e entries ih =>
    rw [setEntry]
    by_cases he : e.1 = name
    · simp [he]
    · rw [if_neg he, List.map_cons, ih, List.map_cons]
      by_cases hmem : name ∈ entries.map Prod.fst
      · rw [if_pos hmem, if_pos (List.mem_cons_of_mem _ hmem)]
      · have hnew : name ∉ e.1 :: entries.map Prod.fst :=
          List.not_mem_cons_of_ne_of_not_mem (Ne.symm he) hmem
        rw [if_neg hmem, if_neg hnew, List.cons_append]

theorem mem_setEntry {name : String} {v : Json} {entries : List (String × Json)}
    {e : String × Json} (h : e ∈ setEntry name v entries) : e = (name, v) ∨ e ∈ entries := by
  induction entries with
  | nil => exact .inl (List.mem_singleton.1 h)
  | cons d entries ih =>
    rw [setEntry] at h
    split at h
    · rcases List.mem_cons.1 h with rfl | h
      · exact .inl rfl
      · exact .inr (List.mem_cons_of_mem d h)
    · rcases List.mem_cons.1 h with rfl | h
      · exact .inr List.mem_cons_self
      · exact (ih h).imp_right (List.mem_cons_of_mem d)

theorem fits_ofEntries {written : List (String × Json)} (h : ∀ e ∈ written, Fits depth e.2) :
    Fits (depth + 1) (ofEntries written) := by
  have hfold : ∀ (l done : List (String × Json)), (done.map Prod.fst).Nodup →
      (∀ e ∈ done, Fits depth e.2) → (∀ e ∈ l, Fits depth e.2) →
      ((l.foldl (fun entries e => setEntry e.1 e.2 entries) done).map Prod.fst).Nodup ∧
        ∀ e ∈ l.foldl (fun entries e => setEntry e.1 e.2 entries) done, Fits depth e.2 := by
    intro l
    induction l with
    | nil => exact fun done hnodup hdone _ => ⟨hnodup, hdone⟩
    | cons e l ih =>
      intro done hnodup hdone hl
      refine ih _ ?_ (fun d hd => ?_) fun d hd => hl d (List.mem_cons_of_mem e hd)
      · rw [map_fst_setEntry]
        split
        · exact hnodup
        · next hnew => exact List.nodup_append_comm.1 (List.nodup_cons.2 ⟨hnew, hnodup⟩)
      · rcases mem_setEntry hd with rfl | hd
        · exact hl e List.mem_cons_self
        · exact hdone d hd
  obtain ⟨hnodup, hentries⟩ := hfold written [] List.nodup_nil (by simp) h
  exact .obj hnodup hentries

section

variable {read : Reader Json} (hread : ∀ s v rest, read s = .ok (v, rest) → Fits depth v)
include hread

theorem fits_of_elements {done : List Json} {hs : s.length < opening.length} {rest : Below opening}
    (hdone : ∀ v ∈ done, Fits depth v) (h : elements read opening done s hs = .ok (v, rest)) :
    Fits (depth + 1) v := by
  fun_induction elements read opening done s hs with
  | case1 => cases h
  | case2 done s hs w r hr hw t hskip ih =>
    refine ih (fun u hu => ?_) h
    rcases List.mem_cons.1 hu with rfl | hu
    · exact hread _ _ _ hw
    · exact hdone u hu
  | case3 done s hs w r hr hw t hskip =>
    cases h
    refine .arr fun u hu => ?_
    rcases List.mem_cons.1 (List.mem_reverse.1 hu) with rfl | hu
    · exact hread _ _ _ hw
    · exact hdone u hu
  | case4 => cases h

theorem fits_of_entry [Host] {e : String × Json} {rest : Below s}
    (h : entry read s = .ok (e, rest)) : Fits depth e.2 := by
  unfold entry at h
  split at h
  · split at h
    · cases h
    · split at h
      · split at h
        · cases h
        · next hv =>
          cases h
          exact hread _ _ _ hv
      · cases h
  · cases h

theorem fits_of_entries [Host] {done : List (String × Json)} {hs : s.length < opening.length}
    {rest : Below opening} (hdone : ∀ e ∈ done, Fits depth e.2)
    (h : entries read opening done s hs = .ok (v, rest)) : Fits (depth + 1) v := by
  fun_induction entries read opening done s hs with
  | case1 => cases h
  | case2 done s hs e r hr he t hskip ih =>
    refine ih (fun d hd => ?_) h
    rcases List.mem_cons.1 hd with rfl | hd
    · exact fits_of_entry hread he
    · exact hdone d hd
  | case3 done s hs e r hr he t hskip =>
    cases h
    refine fits_ofEntries fun d hd => ?_
    rcases List.mem_cons.1 (List.mem_reverse.1 hd) with rfl | hd
    · exact fits_of_entry hread he
    · exact hdone d hd
  | case4 => cases h

end

theorem fits_of_value [Host] {rest : Below s} (h : value depth s = .ok (v, rest)) :
    Fits depth v := by
  induction depth generalizing s v with
  | zero =>
    unfold value at h
    split at h
    · cases h
    · split at h
      · cases h
      · cases h
        exact .str _ _
    · cases h
    · cases h
    · exact fits_of_scalar h
  | succ depth ih =>
    unfold value at h
    split at h
    · cases h
    · split at h
      · cases h
      · cases h
        exact .str _ _
    · dsimp only at h
      split at h
      · cases h
        exact .arr (by simp)
      · exact fits_of_elements (fun _ _ _ => ih) (by simp) h
    · dsimp only at h
      split at h
      · cases h
        exact .obj (by simp) (by simp)
      · exact fits_of_entries (fun _ _ _ => ih) (by simp) h
    · exact fits_of_scalar h

theorem fits_of_readChars [Host] (h : readChars s = .ok v) : Fits Host.reading v := by
  have hdocument : document s = .ok v := by
    unfold readChars at h
    cases hs : document s with
    | error e =>
      rw [hs] at h
      cases h
    | ok w =>
      rw [hs] at h
      cases h
      rfl
  unfold document at hdocument
  split at hdocument
  · cases hdocument
  · next hvalue =>
    split at hdocument
    · cases hdocument
      exact fits_of_value hvalue
    · cases hdocument

theorem fits_of_read [Host] {text : String} (h : read text = .ok v) : Fits Host.reading v := by
  unfold read at h
  split at h
  · cases h
  · exact fits_of_readChars h

end Determinizer.Json
