import Determinizer.Editor.Field
import Determinizer.Proofs.Text.Cuts
import Determinizer.Proofs.Text.Trim

/-! List fields. What a field spells out is read piece by piece: a piece without commas gives the
item that is left when it is trimmed, or none when it is blank. Items joined with commas are read
back as they are, however many blanks and blank pieces are put between them. -/

namespace Determinizer.Field

open Text (Blank)

variable {x b u v : String} {l ps : List String}

structure IsItem (x : String) : Prop where
  ne_empty : x ≠ ""
  comma_free : ',' ∉ x.toList
  stripped : strip x = x

theorem isItem_iff : IsItem x ↔ x ≠ "" ∧ ',' ∉ x.toList ∧ strip x = x :=
  ⟨fun h => ⟨h.ne_empty, h.comma_free, h.stripped⟩, fun h => ⟨h.1, h.2.1, h.2.2⟩⟩

instance (x : String) : Decidable (IsItem x) := decidable_of_iff _ isItem_iff.symm

/-- Pieces that spell a list of items out: one for each item, with blanks on both sides of it, and
blank pieces anywhere. -/
inductive Spells : List String → List String → Prop
  | nil : Spells [] []
  | blank {b : String} {ps l : List String} : Blank b.toList → Spells ps l → Spells (b :: ps) l
  | item {u x v : String} {ps l : List String} : Blank u.toList → Blank v.toList →
    Spells ps l → Spells ((u ++ x ++ v) :: ps) (x :: l)

theorem toList_strip (x : String) : (strip x).toList = Text.trim x.toList := String.toList_ofList

theorem strip_strip (x : String) : strip (strip x) = strip x := by
  rw [← String.toList_inj, toList_strip, toList_strip, Text.trim_trim]

theorem strip_eq_empty_iff : strip x = "" ↔ Blank x.toList := by
  rw [← String.toList_inj, toList_strip, String.toList_empty, Text.trim_eq_nil_iff]

theorem strip_append_of_blank (hu : Blank u.toList) (hv : Blank v.toList) (x : String) :
    strip (u ++ x ++ v) = strip x := by
  rw [← String.toList_inj, toList_strip, toList_strip, String.toList_append, String.toList_append,
    Text.trim_append_of_blank hu hv]

theorem comma_not_mem_of_blank (h : Blank b.toList) : ',' ∉ b.toList := by
  intro hcomma
  have hblank : Text.isBlank ',' = true := h ',' hcomma
  exact absurd hblank (by decide)

theorem split_comma (text : String) :
    Text.split "," text = (Text.splitAround [','] text.toList).map String.ofList := rfl

theorem items_append_comma (s t : String) : items (s ++ "," ++ t) = items s ++ items t := by
  have hcut : Text.split "," (s ++ "," ++ t) = Text.split "," s ++ Text.split "," t := by
    have hcomma : (s ++ "," ++ t).toList = s.toList ++ ',' :: t.toList := by simp
    rw [split_comma, hcomma, Text.splitAround_append_cons, List.map_append]
    rfl
  rw [items, hcut, List.map_append, List.filter_append]
  rfl

theorem items_of_comma_free (h : ',' ∉ x.toList) : items x = [strip x].filter (· ≠ "") := by
  have hcut : Text.split "," x = [x] := by
    rw [split_comma, Text.splitAround_of_not_occurs fun hin => h ((List.singleton_infix_iff _ _).1 hin),
      List.map_singleton, String.ofList_toList]
  rw [items, hcut, List.map_singleton]

theorem items_of_blank (h : Blank b.toList) : items b = [] := by
  rw [items_of_comma_free (comma_not_mem_of_blank h), strip_eq_empty_iff.2 h]
  rfl

theorem items_intercalate (ps : List String) :
    items (",".intercalate ps) = ps.flatMap items := by
  induction ps with
  | nil =>
    rw [String.intercalate_nil]
    exact items_of_blank (List.forall_mem_nil _)
  | cons p ps ih =>
    cases ps with
    | nil => rw [String.intercalate_singleton, List.flatMap_singleton]
    | cons q ps =>
      rw [String.intercalate_cons_cons, items_append_comma, ih]
      exact List.flatMap_cons.symm

theorem isItem_of_mem_items {text : String} (h : x ∈ items text) : IsItem x := by
  obtain ⟨hmem, hne⟩ := List.mem_filter.1 h
  obtain ⟨p, hp, rfl⟩ := List.mem_map.1 hmem
  refine ⟨by simpa using hne, fun hcomma => ?_, strip_strip p⟩
  rw [split_comma] at hp
  obtain ⟨cs, hcs, rfl⟩ := List.mem_map.1 hp
  have hfree := Text.not_infix_of_mem_splitAround (List.cons_ne_nil ',' []) hcs
  rw [toList_strip, String.toList_ofList] at hcomma
  exact hfree ((List.singleton_infix_iff _ _).2 ((Text.trim_infix cs).subset hcomma))

theorem IsItem.items_append (h : IsItem x) (hu : Blank u.toList) (hv : Blank v.toList) :
    items (u ++ x ++ v) = [x] := by
  have hfree : ',' ∉ (u ++ x ++ v).toList := by
    simp only [String.toList_append, List.mem_append, not_or]
    exact ⟨⟨comma_not_mem_of_blank hu, h.comma_free⟩, comma_not_mem_of_blank hv⟩
  rw [items_of_comma_free hfree, strip_append_of_blank hu hv, h.stripped, List.filter_singleton]
  simp [h.ne_empty]

theorem items_of_spells (h : Spells ps l) (hl : ∀ x ∈ l, IsItem x) :
    items (",".intercalate ps) = l := by
  rw [items_intercalate]
  induction h with
  | nil => rfl
  | blank hb _ ih => rw [List.flatMap_cons, items_of_blank hb, ih hl, List.nil_append]
  | item hu hv _ ih =>
    obtain ⟨hx, hl⟩ := List.forall_mem_cons.1 hl
    rw [List.flatMap_cons, hx.items_append hu hv, ih hl, List.singleton_append]

theorem spells_self (l : List String) : Spells l l := by
  induction l with
  | nil => exact .nil
  | cons x l ih =>
    have hnone : Blank "".toList := List.forall_mem_nil _
    simpa using Spells.item (x := x) hnone hnone ih

theorem items_intercalate_of_isItem (hl : ∀ x ∈ l, IsItem x) : items (",".intercalate l) = l :=
  items_of_spells (spells_self l) hl

/-- Fields joined with a comma hold the items of the one and then those of the other. All that a
field holds are items, and every list of items is read back from all that spells it out, the items
joined with commas among them. -/
theorem items_normalizes :
    (∀ s t, items (s ++ "," ++ t) = items s ++ items t) ∧
    (∀ text, ∀ x ∈ items text, IsItem x) ∧
    (∀ l, (∀ x ∈ l, IsItem x) → ∀ ps, Spells ps l → items (",".intercalate ps) = l) ∧
    ∀ text, items (",".intercalate (items text)) = items text := by
  refine ⟨items_append_comma, fun text x hx => isItem_of_mem_items hx,
    fun l hl ps hps => items_of_spells hps hl, fun text => ?_⟩
  have hitems : ∀ x ∈ items text, IsItem x := fun x hx => isItem_of_mem_items hx
  exact items_intercalate_of_isItem hitems

theorem items_between_blanks :
    (∀ x ∈ ["a b", "c"], IsItem x) ∧
      Spells ["\u3000" ++ "a b" ++ "\u00a0", "\u2028", "", "" ++ "c" ++ "\t"] ["a b", "c"] ∧
      items "\u3000a b\u00a0,\u2028,,c\t" = ["a b", "c"] := by
  have hitems : ∀ x ∈ ["a b", "c"], IsItem x := by decide
  have hspells : Spells ["\u3000" ++ "a b" ++ "\u00a0", "\u2028", "", "" ++ "c" ++ "\t"]
      ["a b", "c"] :=
    .item (by decide) (by decide) (.blank (by decide) (.blank (by decide)
      (.item (by decide) (by decide) .nil)))
  exact ⟨hitems, hspells, items_normalizes.2.2.1 _ hitems _ hspells⟩

end Determinizer.Field
