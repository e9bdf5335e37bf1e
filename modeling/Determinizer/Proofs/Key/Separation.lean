import Determinizer.Proofs.Key.Atomic

/-! Reading a set of labels back from its canonical key. Between two labels the delimiter stands,
and the scan may stop before it if the label in front runs into it. Nothing else can go wrong: a set
of atomic labels comes back exactly if no label but the last runs into the delimiter. A delimiter
none of whose proper beginnings is an ending never meets such a label, and every other one meets
some. -/

namespace Determinizer.Key

open Text (RunsInto)

variable {d : String} {m : Members} {ls : List String}

theorem members_intercalate_empty (hatom : ∀ l ∈ ls, Atomic "" l) :
    members "" ("".intercalate ls) = ls := by
  rw [members_empty_delimiter, String.toList_intercalate, String.toList_empty]
  induction ls with
  | nil => rfl
  | cons l ls ih =>
    have hl : l.toList.map String.singleton = [l] := hatom l (by simp)
    have hls := ih fun a ha => hatom a (List.mem_cons_of_mem l ha)
    have hjoin : [].intercalate ((l :: ls).map String.toList) =
        l.toList ++ [].intercalate (ls.map String.toList) := by
      cases ls <;> simp
    rw [hjoin, List.map_append, hl, hls]
    rfl

theorem members_intercalate (hd : d ≠ "") (hatom : ∀ l ∈ ls, Atomic d l)
    (hrun : ∀ l ∈ ls.dropLast, ¬ RunsInto d.toList l.toList) :
    members d (d.intercalate ls) = ls := by
  rw [members_eq_iff hd, String.toList_intercalate]
  by_cases hls : ls = []
  · subst hls
    simp
  · have hfree : ∀ p ∈ ls.map String.toList, ¬ d.toList <:+: p := by
      intro p hp
      obtain ⟨l, hl, rfl⟩ := List.mem_map.1 hp
      exact ((atomic_iff_not_occurs hd).1 (hatom l hl)).2
    have hcut : ∀ p ∈ (ls.map String.toList).dropLast, ¬ RunsInto d.toList p := by
      intro p hp
      rw [← List.map_dropLast] at hp
      obtain ⟨l, hl, rfl⟩ := List.mem_map.1 hp
      exact hrun l hl
    rw [Text.splitAround_intercalate (toList_ne_nil hd) (by simpa using hls) hfree hcut]
    refine List.filter_eq_self.2 fun p hp => ?_
    obtain ⟨l, hl, rfl⟩ := List.mem_map.1 hp
    simpa using (hatom l hl).ne_empty

theorem exists_lt_of_mem_dropLast (h : Increasing ls) {a : String} (ha : a ∈ ls.dropLast) :
    ∃ b ∈ ls, a < b := by
  have hls : ls ≠ [] := by
    rintro rfl
    simp at ha
  have hsplit := List.dropLast_concat_getLast hls
  rw [Increasing, ← hsplit, List.pairwise_append] at h
  exact ⟨ls.getLast hls, List.getLast_mem hls, h.2.2 a ha _ (List.mem_singleton_self _)⟩

theorem members_ofMembers (hatom : ∀ a ∈ m, Atomic d a)
    (hrun : ∀ a ∈ m, ∀ b ∈ m, a < b → ¬ RunsInto d.toList a.toList) :
    members d (ofMembers d m) = m.toList := by
  by_cases hd : d = ""
  · subst hd
    exact members_intercalate_empty hatom
  · refine members_intercalate hd hatom fun a ha => ?_
    obtain ⟨b, hb, hab⟩ := exists_lt_of_mem_dropLast m.increasing ha
    exact hrun a (List.dropLast_subset _ ha) b hb hab

theorem not_runsInto_of_members {a b : String} (hd : d ≠ "")
    (h : members d (d.intercalate [a, b]) = [a, b]) : ¬ RunsInto d.toList a.toList := by
  have hd' := toList_ne_nil hd
  rw [members_eq_iff hd, String.toList_intercalate] at h
  have hcut := Text.splitAround_of_filter hd' h
  rw [List.map_singleton, List.intercalate_cons_cons, List.intercalate_singleton,
    List.append_assoc] at hcut
  exact Text.not_runsInto_of_splitAround hd' hcut

theorem Unambiguous.not_runsInto (h : Unambiguous d) (p : List Char) : ¬ RunsInto d.toList p := by
  rintro ⟨x, b, hx, hb, hxb, -, hbd⟩
  rcases h b hbd ⟨x, hxb⟩ with hnil | hall
  · exact hb hnil
  · have hlen := congrArg List.length (hxb.trans hall.symm)
    have hpos := List.length_pos_iff.2 hx
    simp only [List.length_append] at hlen
    omega

theorem unambiguous_iff_drop :
    Unambiguous d ↔ ∀ n < d.toList.length, n ≠ 0 → ¬ d.toList.drop n <+: d.toList := by
  constructor
  · intro h n hn hn0 hpre
    have hlen := List.length_drop (i := n) (l := d.toList)
    rcases h _ hpre (List.drop_suffix n _) with hnil | hall
    · rw [hnil, List.length_nil] at hlen
      omega
    · rw [hall] at hlen
      omega
  · intro h p hpre hsuf
    obtain ⟨x, hx⟩ := hsuf
    have hp : d.toList.drop x.length = p := by rw [← hx, List.drop_left]
    have hlen := congrArg List.length hx
    rw [List.length_append] at hlen
    by_cases hx0 : x.length = 0
    · rw [List.length_eq_zero_iff.1 hx0, List.nil_append] at hx
      exact .inr hx
    · by_cases hp0 : p.length = 0
      · exact .inl (List.length_eq_zero_iff.1 hp0)
      · exact absurd (hp ▸ hpre) (h x.length (by omega) hx0)

instance (d : String) : Decidable (Unambiguous d) := decidable_of_iff _ unambiguous_iff_drop.symm

theorem exists_runsInto_of_not_unambiguous (h : ¬ Unambiguous d) :
    ∃ x b, x ≠ [] ∧ b ≠ [] ∧ x ++ b = d.toList ∧ RunsInto d.toList x := by
  rw [Unambiguous] at h
  simp only [Classical.not_forall, not_or] at h
  obtain ⟨b, hbd, ⟨x, hxb⟩, hb, hne⟩ := h
  have hx : x ≠ [] := by
    rintro rfl
    exact hne hxb
  exact ⟨x, b, hx, hb, hxb, x, b, hx, hb, hxb, List.suffix_rfl, hbd⟩

theorem Unambiguous.members_ofMembers (h : Unambiguous d) (hatom : ∀ a ∈ m, Atomic d a) :
    members d (ofMembers d m) = m.toList :=
  Key.members_ofMembers hatom fun a _ _ _ _ => h.not_runsInto a.toList

def Separates (d : String) (labels : List String) : Prop :=
  ∀ ms ns : List String, ms ⊆ labels → ns ⊆ labels →
    members d (ofKeys d ms) = (Members.ofList ms).toList ∧
      (ofKeys d ms = ofKeys d ns → ∀ a, a ∈ ms ↔ a ∈ ns)

theorem separates_of_not_runsInto (hatom : ∀ l ∈ ls, Atomic d l)
    (hrun : ∀ a ∈ ls, ∀ b ∈ ls, a < b → ¬ RunsInto d.toList a.toList) : Separates d ls := by
  have hread : ∀ ms ⊆ ls, members d (ofKeys d ms) = (Members.ofList ms).toList := by
    intro ms hms
    rw [ofKeys_of_atomic fun a ha => hatom a (hms ha)]
    have hin : ∀ a ∈ Members.ofList ms, a ∈ ls := fun a ha => hms (Members.mem_ofList.1 ha)
    exact members_ofMembers (fun a ha => hatom a (hin a ha))
      fun a ha b hb => hrun a (hin a ha) b (hin b hb)
  intro ms ns hms hns
  refine ⟨hread ms hms, fun heq a => ?_⟩
  have hlist : (Members.ofList ms).toList = (Members.ofList ns).toList := by
    rw [← hread ms hms, ← hread ns hns, heq]
  rw [← Members.mem_ofList, ← Members.mem_ofList (l := ns), Members.mem_def, Members.mem_def, hlist]

theorem Separates.not_runsInto (h : Separates d ls) (hatom : ∀ l ∈ ls, Atomic d l) {a b : String}
    (ha : a ∈ ls) (hb : b ∈ ls) (hab : a < b) : ¬ RunsInto d.toList a.toList := by
  by_cases hd : d = ""
  · subst hd
    rintro ⟨x, _, hx, -, hxb, -⟩
    exact hx (List.append_eq_nil_iff.1 hxb).1
  · have hsub : [a, b] ⊆ ls := by simp [ha, hb]
    have hpair : (Members.ofList [a, b]).toList = [a, b] :=
      Members.toList_ofList_of_increasing (by simpa [Increasing] using hab)
    have hread := (h [a, b] [a, b] hsub hsub).1
    rw [ofKeys_of_atomic fun l hl => hatom l (hsub hl), ofMembers, hpair] at hread
    exact not_runsInto_of_members hd hread

theorem separates_iff_not_runsInto (hatom : ∀ l ∈ ls, Atomic d l) :
    Separates d ls ↔ ∀ a ∈ ls, ∀ b ∈ ls, a < b → ¬ RunsInto d.toList a.toList :=
  ⟨fun h _ ha _ hb hab => h.not_runsInto hatom ha hb hab, separates_of_not_runsInto hatom⟩

theorem ofList_lt_concat (x : List Char) (c : Char) :
    String.ofList x < String.ofList (x ++ [c]) := by
  have hlist : x ++ [] < x ++ [c] := List.append_left_lt (List.nil_lt_cons c [])
  change (String.ofList x).toList < (String.ofList (x ++ [c])).toList
  simpa only [List.append_nil, String.toList_ofList] using hlist

theorem exists_atomic_runsInto (h : ¬ Unambiguous d) :
    ∃ a b, a < b ∧ Atomic d a ∧ Atomic d b ∧ RunsInto d.toList a.toList := by
  -- the labels are what the delimiter starts with, and that with one more character
  obtain ⟨x, b, hx, hb, hxb, hrun⟩ := exists_runsInto_of_not_unambiguous h
  have hd : d ≠ "" := by
    rintro rfl
    exact hx (List.append_eq_nil_iff.1 hxb).1
  obtain ⟨c, hc⟩ : ∃ c : Char, c ≠ b.getLast hb := by
    by_cases ha : b.getLast hb = 'a'
    · exact ⟨'b', by rw [ha]; decide⟩
    · exact ⟨'a', fun h => ha h.symm⟩
  have hfree : ¬ d.toList <:+: x ++ [c] := hxb ▸ Text.not_infix_append_singleton hb hc
  have hfree' : ¬ d.toList <:+: x := fun hinf => hfree (hinf.trans List.infix_append_left)
  refine ⟨String.ofList x, String.ofList (x ++ [c]), ofList_lt_concat x c, ?_, ?_, ?_⟩
  · rw [atomic_iff_not_occurs hd, String.toList_ofList]
    exact ⟨by simpa using hx, hfree'⟩
  · rw [atomic_iff_not_occurs hd, String.toList_ofList]
    exact ⟨by simp, hfree⟩
  · rwa [String.toList_ofList]

theorem forall_separates_iff_unambiguous :
    (∀ ls : List String, (∀ l ∈ ls, Atomic d l) → Separates d ls) ↔ Unambiguous d := by
  constructor
  · intro h
    refine Classical.byContradiction fun hd => ?_
    obtain ⟨a, b, hab, ha, hb, hrun⟩ := exists_atomic_runsInto hd
    have hatom : ∀ l ∈ [a, b], Atomic d l := by simp [ha, hb]
    exact (h [a, b] hatom).not_runsInto hatom (by simp) (by simp) hab hrun
  · intro hd ls hatom
    exact separates_of_not_runsInto hatom fun a _ _ _ _ => hd.not_runsInto a.toList

end Determinizer.Key

namespace Determinizer.Config

/-- The labels that pass the check can be told apart in keys exactly if none that another follows
runs into the delimiter. No labels can be told otherwise only under an unambiguous delimiter. -/
theorem checkLabels_separates_iff (d : String) :
    (∀ c : Config, c.checkLabels d = .ok () →
      (Key.Separates d c.labels ↔
        ∀ a ∈ c.labels, ∀ b ∈ c.labels, a < b → ¬ Text.RunsInto d.toList a.toList)) ∧
    ((∀ c : Config, c.checkLabels d = .ok () → Key.Separates d c.labels) ↔
      Key.Unambiguous d) := by
  refine ⟨fun c hc => Key.separates_iff_not_runsInto fun l => atomic_of_checkLabels hc, ?_⟩
  rw [← Key.forall_separates_iff_unambiguous]
  constructor
  · intro h ls hatom
    have hlabels : (⟨ls, [], [], "", []⟩ : Config).labels = ls := by simp [labels]
    have hcheck : (⟨ls, [], [], "", []⟩ : Config).checkLabels d = .ok () := by
      rw [checkLabels, hlabels]
      exact checkLabels_eq_ok_iff.2 hatom
    rw [← hlabels]
    exact h _ hcheck
  · intro h c hc
    exact h c.labels fun l => atomic_of_checkLabels hc

theorem separates_under_doubled_letter :
    (⟨["b", "ba"], [], [], "", []⟩ : Config).checkLabels "aa" = .ok () ∧
      Key.Separates "aa" ["b", "ba"] ∧ ¬ Key.Unambiguous "aa" := by
  have hcheck : (⟨["b", "ba"], [], [], "", []⟩ : Config).checkLabels "aa" = .ok () := by cbv
  refine ⟨hcheck, ((checkLabels_separates_iff "aa").1 _ hcheck).2 ?_, by decide⟩
  decide

theorem mixes_under_doubled_letter :
    (⟨["A", "Aa", "a", "ab", "b"], [], [], "", []⟩ : Config).checkLabels "aa" = .ok () ∧
      Key.ofKeys "aa" ["a", "b"] = "aaab" ∧ Key.members "aa" "aaab" = ["ab"] ∧
      Key.ofKeys "aa" ["Aa", "b"] = Key.ofKeys "aa" ["A", "ab"] ∧
      ¬ Key.Separates "aa" ["A", "Aa", "a", "ab", "b"] := by
  have hkey : Key.ofKeys "aa" ["a", "b"] = "aaab" := by cbv
  have hread : Key.members "aa" "aaab" = ["ab"] := by cbv
  refine ⟨by cbv, hkey, hread, by cbv, fun h => ?_⟩
  have hback := (h ["a", "b"] [] (by decide) (by decide)).1
  rw [hkey, hread] at hback
  exact absurd hback (by decide)

end Determinizer.Config
