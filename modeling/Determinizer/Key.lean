import Determinizer.Members
import Determinizer.Text.Split

/-! Compound state keys. A key is a text that names a set of labels: the labels stand in it with a
delimiter between them, or side by side when the delimiter is empty, and then every character is a
label. Empty parts name nothing. The canonical key of a set lists its labels in increasing order
without repetition. -/

namespace Determinizer.Key

def members (delimiter key : String) : List String :=
  if delimiter = "" then key.toList.map String.singleton
  else (Text.split delimiter key).filter (· ≠ "")

def ofMembers (delimiter : String) (m : Members) : String := delimiter.intercalate m.toList

def memberSet (delimiter : String) (keys : List String) : Members :=
  Members.ofList (keys.flatMap (members delimiter))

def ofKeys (delimiter : String) (keys : List String) : String :=
  ofMembers delimiter (memberSet delimiter keys)

def canonical (delimiter key : String) : String := ofKeys delimiter [key]

def Atomic (delimiter label : String) : Prop := members delimiter label = [label]

instance (delimiter label : String) : Decidable (Atomic delimiter label) :=
  inferInstanceAs (Decidable (_ = _))

/-- A delimiter none of whose proper beginnings is also an ending. Two occurrences of it cannot
overlap, so cutting at it never depends on where the scan starts. The empty one counts. -/
def Unambiguous (delimiter : String) : Prop :=
  ∀ p, p <+: delimiter.toList → p <:+ delimiter.toList → p = [] ∨ p = delimiter.toList

@[simp] theorem members_empty_delimiter (key : String) :
    members "" key = key.toList.map String.singleton := rfl

theorem members_of_ne {delimiter : String} (h : delimiter ≠ "") (key : String) :
    members delimiter key = (Text.split delimiter key).filter (· ≠ "") := if_neg h

@[simp] theorem mem_memberSet {delimiter a : String} {keys : List String} :
    a ∈ memberSet delimiter keys ↔ ∃ k ∈ keys, a ∈ members delimiter k := by
  simp [memberSet]

theorem ne_empty_of_mem_members {delimiter key a : String} (h : a ∈ members delimiter key) :
    a ≠ "" := by
  rw [members] at h
  split at h
  · obtain ⟨c, _, rfl⟩ := List.mem_map.1 h
    simp
  · simpa using (List.mem_filter.1 h).2

theorem ofKeys_congr {delimiter : String} {ks ls : List String}
    (h : ∀ a, (∃ k ∈ ks, a ∈ members delimiter k) ↔ ∃ k ∈ ls, a ∈ members delimiter k) :
    ofKeys delimiter ks = ofKeys delimiter ls := by
  rw [ofKeys, ofKeys]
  congr 1
  ext a
  simpa using h a

end Determinizer.Key
