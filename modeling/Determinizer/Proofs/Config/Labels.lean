import Determinizer.Proofs.Key.Atomic

/-! The labels that a configuration has, and the check of them. A label may stand in four places,
and the check asks of each of them that a key gives it back in one piece. What it says depends on
which labels there are, and not on where they stand, in what order or how often. -/

namespace Determinizer.Config

variable {c c' : Config} {d l : String}

inductive HasLabel (c : Config) : String → Prop
  | state {q : String} : q ∈ c.states → HasLabel c q
  | accepting {q : String} : q ∈ c.acceptingStates → HasLabel c q
  | source {t : Transition} : t ∈ c.transitions → HasLabel c t.state
  | destination {t : Transition} {p : String} : t ∈ c.transitions → p ∈ t.nextStates → HasLabel c p

theorem mem_labels_iff : l ∈ c.labels ↔ c.HasLabel l := by
  simp only [labels, List.mem_append, List.mem_flatMap, List.mem_cons]
  constructor
  · rintro ((hl | hl) | ⟨t, ht, rfl | hl⟩)
    · exact .state hl
    · exact .accepting hl
    · exact .source ht
    · exact .destination ht hl
  · rintro (hl | hl | ht | ⟨ht, hl⟩)
    · exact .inl (.inl hl)
    · exact .inl (.inr hl)
    · exact .inr ⟨_, ht, .inl rfl⟩
    · exact .inr ⟨_, ht, .inr hl⟩

theorem checkLabels_eq_ok_iff_forall :
    c.checkLabels d = .ok () ↔ ∀ l, c.HasLabel l → Key.Atomic d l := by
  simp only [checkLabels, checkLabels_eq_ok_iff, mem_labels_iff]

theorem checkLabels_eq_ok_congr (h : ∀ l, c'.HasLabel l ↔ c.HasLabel l) :
    c'.checkLabels d = .ok () ↔ c.checkLabels d = .ok () := by
  rw [checkLabels_eq_ok_iff_forall, checkLabels_eq_ok_iff_forall]
  exact forall_congr' fun l => imp_congr (h l) Iff.rfl

/-- A configuration passes just if a key gives each of its labels back in one piece, whatever the
delimiter, and two configurations with the same labels pass or fail together. -/
theorem passes_iff_atomic (c : Config) (d : String) :
    (c.checkLabels d = .ok () ↔ ∀ l, c.HasLabel l → Key.members d l = [l]) ∧
    ∀ c' : Config, (∀ l, c'.HasLabel l ↔ c.HasLabel l) →
      (c'.checkLabels d = .ok () ↔ c.checkLabels d = .ok ()) :=
  ⟨checkLabels_eq_ok_iff_forall, fun _ h => checkLabels_eq_ok_congr h⟩

def spreadLabels : Config where
  states := ["a"]
  alphabet := ["0"]
  transitions := [⟨"ba", "0", ["ab"]⟩]
  initialState := "aaa"
  acceptingStates := []

def gatheredLabels : Config where
  states := []
  alphabet := []
  transitions := []
  initialState := ""
  acceptingStates := ["ba", "ab", "ba", "a"]

theorem gathered_passes_under_doubled_letter :
    (∀ l, gatheredLabels.HasLabel l ↔ spreadLabels.HasLabel l) ∧
      (∀ l, spreadLabels.HasLabel l → Key.members "aa" l = [l]) ∧
      gatheredLabels.checkLabels "aa" = .ok () := by
  have hsame : ∀ l, gatheredLabels.HasLabel l ↔ spreadLabels.HasLabel l := by
    intro l
    rw [← mem_labels_iff, ← mem_labels_iff]
    simp only [labels, gatheredLabels, spreadLabels, List.mem_append, List.mem_cons,
      List.flatMap_nil, List.flatMap_cons, List.not_mem_nil]
    tauto
  have hpass : spreadLabels.checkLabels "aa" = .ok () := by cbv
  obtain ⟨hatomic, hcongr⟩ := passes_iff_atomic spreadLabels "aa"
  exact ⟨hsame, hatomic.1 hpass, (hcongr gatheredLabels hsame).2 hpass⟩

end Determinizer.Config
