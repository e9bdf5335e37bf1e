import Mathlib
import Determinizer.Command.Files
import Determinizer.Proofs.Outcome
import Determinizer.Proofs.Text.Cuts

/-! What was written is read back at the same path. The walk to a file passes directories only; one
more file takes none of them away, since it does not stand where a directory is. -/

namespace Determinizer.Command.Folder

variable {folder folder' : Folder} {bytes : List UInt8} {path name : String}
  {target p q : List String} {node : Node}

theorem lookup_put (folder : Folder) (target p : List String) (bytes : List UInt8) :
    (folder.put target bytes).files.lookup p =
      if p = target then some bytes else folder.files.lookup p := by
  have hrest : p ≠ target →
      (folder.files.filter (·.1 ≠ target)).lookup p = folder.files.lookup p := by
    intro hp
    induction folder.files with
    | nil => rfl
    | cons f files ih =>
      obtain ⟨q, content⟩ := f
      by_cases hq : q = target
      · have hpq : (p == q) = false := beq_eq_false_iff_ne.2 (hq ▸ hp)
        rw [List.filter_cons_of_neg (by simpa using hq), ih, List.lookup_cons, hpq]
      · rw [List.filter_cons_of_pos (by simpa using hq), List.lookup_cons, List.lookup_cons, ih]
  unfold put
  rw [List.lookup_cons]
  by_cases hp : p = target
  · rw [if_pos hp, beq_iff_eq.2 hp]
  · rw [if_neg hp, beq_eq_false_iff_ne.2 hp]
    exact hrest hp

def IsDirectory (folder : Folder) (path : List String) : Prop :=
  folder.files.lookup path = none ∧ folder.files.any (fun f => path.isPrefixOf f.1) = true

theorem IsDirectory.put (h : folder.IsDirectory p) (hp : p ≠ target) :
    (folder.put target bytes).IsDirectory p := by
  refine ⟨?_, ?_⟩
  · rw [lookup_put, if_neg hp]
    exact h.1
  · obtain ⟨f, hf, hprefix⟩ := List.any_eq_true.1 h.2
    by_cases hft : f.1 = target
    · exact List.any_eq_true.2 ⟨(target, bytes), List.mem_cons_self, hft ▸ hprefix⟩
    · refine List.any_eq_true.2 ⟨f, List.mem_cons_of_mem _ (List.mem_filter.2 ⟨hf, ?_⟩), hprefix⟩
      simpa using hft

def IsName (name : String) : Prop :=
  name ≠ "" ∧ name ≠ "." ∧ name ≠ ".." ∧ name.utf8ByteSize ≤ maxNameBytes

theorem step_of_isName (h : IsName name) : folder.step (.directory p) name =
    match folder.files.lookup (p ++ [name]) with
    | some bytes => .ok (.file bytes)
    | none =>
      if folder.files.any fun f => (p ++ [name]).isPrefixOf f.1 then .ok (.directory (p ++ [name]))
      else .error .absent := by
  obtain ⟨hempty, hdot, hdots, hlength⟩ := h
  have hstay : ¬ (name = "" ∨ name = ".") := not_or.2 ⟨hempty, hdot⟩
  exact (if_neg hstay).trans ((if_neg hdots).trans (if_neg (Nat.not_lt.2 hlength)))

theorem step_eq_directory (h : folder.step node name = .ok (.directory q)) :
    ∃ p, node = .directory p ∧ (IsName name → q = p ++ [name] ∧ folder.IsDirectory q) := by
  cases node with
  | file bytes => cases h
  | outside =>
    simp only [step] at h
    split at h
    · cases h
    · split at h <;> cases h
  | directory p =>
    refine ⟨p, rfl, fun hname => ?_⟩
    rw [step_of_isName hname] at h
    split at h
    · cases h
    · next hnone =>
      split at h
      · next hany =>
        cases h
        exact ⟨rfl, hnone, hany⟩
      · cases h

theorem step_put (htarget : ¬ folder.IsDirectory target)
    (h : folder.step node name = .ok (.directory q)) :
    (folder.put target bytes).step node name = .ok (.directory q) := by
  obtain ⟨p, rfl, hdirectory⟩ := step_eq_directory h
  by_cases hname : IsName name
  · obtain ⟨rfl, hq⟩ := hdirectory hname
    have hne : p ++ [name] ≠ target := by
      rintro rfl
      exact htarget hq
    have hput : (folder.put target bytes).IsDirectory (p ++ [name]) := hq.put hne
    rw [step_of_isName hname, hput.1]
    dsimp only
    rw [if_pos hput.2]
  · -- the names of no node do not depend on the files
    simp only [step] at h ⊢
    split at h
    · next hstay => rwa [if_pos hstay]
    · next hstay =>
      rw [if_neg hstay]
      split at h
      · next hup => rwa [if_pos hup]
      · next hup =>
        split at h
        · cases h
        · next hlength =>
          exact absurd ⟨fun h => hstay (.inl h), fun h => hstay (.inr h), hup,
            Nat.not_lt.1 hlength⟩ hname

theorem walk_concat (folder : Folder) (absolute : Bool) (parts : List String) (name : String) :
    folder.walk absolute (parts ++ [name]) =
      folder.walk absolute parts >>= fun node => folder.step node name := by
  simp [walk, List.foldlM_append]

theorem walk_put {parts : List String} {absolute : Bool} (htarget : ¬ folder.IsDirectory target)
    (h : folder.walk absolute parts = .ok (.directory q)) :
    (folder.put target bytes).walk absolute parts = .ok (.directory q) := by
  induction parts using List.reverseRecOn generalizing q with
  | nil => exact h
  | append_singleton parts name ih =>
    rw [walk_concat] at h ⊢
    obtain ⟨node, hwalk, hstep⟩ := bind_eq_ok.1 h
    obtain ⟨p, rfl, -⟩ := step_eq_directory hstep
    exact bind_eq_ok.2 ⟨_, ih hwalk, step_put htarget hstep⟩

theorem write_eq_ok (h : folder.write path bytes = .ok folder') (hdevice : isNullDevice path = false) :
    ∃ parts name directory, path ≠ "" ∧ path.utf8ByteSize ≤ maxPathBytes ∧
      Text.split "/" path = parts ++ [name] ∧ IsName name ∧
      folder.walk (path.startsWith "/") parts = .ok (.directory directory) ∧
      ¬ folder.IsDirectory (directory ++ [name]) ∧ folder' = folder.put (directory ++ [name]) bytes := by
  simp only [write, bind, Except.bind, throw, throwThe, MonadExceptOf.throw, pure, Except.pure] at h
  split at h
  · cases h
  next hne =>
  split at h
  · cases h
  next hlength =>
  rw [hdevice, if_neg (by simp)] at h
  split at h
  · cases h
  next node hwalk =>
  have hsuffix := List.dropWhile_suffix (l := (Text.split "/" path).reverse) fun x => decide (x = "")
  have hhead := List.head?_dropWhile_not (fun x => decide (x = "")) (Text.split "/" path).reverse
  generalize (Text.split "/" path).reverse.dropWhile (fun x => decide (x = "")) = named
    at h hwalk hsuffix hhead
  cases named with
  | nil => cases node <;> cases h
  | cons name rest =>
    cases node with
    | file bytes => cases h
    | outside =>
      dsimp only at h
      split_ifs at h
    | directory directory =>
      dsimp only at h
      split at h
      · cases h
      next hplain =>
      obtain ⟨hsame, hdot, hdots⟩ : _ ∧ _ ∧ _ := by simpa only [not_or, not_not] using hplain
      have hsplit : Text.split "/" path = rest.reverse ++ [name] := by
        rw [← List.reverse_cons, hsuffix.eq_of_length hsame.symm, List.reverse_reverse]
      have hempty : name ≠ "" := by simpa using hhead
      split at h
      · cases h
      · cases h
      next hdirectory hlong =>
      have hsize : name.utf8ByteSize ≤ maxNameBytes := by
        refine Nat.not_lt.1 fun hlt => hlong ?_
        rw [step, if_neg (by simp [hempty, hdot]), if_neg hdots, if_pos hlt]
      have hname : IsName name := ⟨hempty, hdot, hdots, hsize⟩
      cases h
      refine ⟨rest.reverse, name, directory, hne, Nat.not_lt.1 hlength, hsplit, hname, hwalk, ?_, rfl⟩
      rintro ⟨hnone, hany⟩
      refine hdirectory (directory ++ [name]) ?_
      rw [step_of_isName hname, hnone]
      dsimp only
      rw [if_pos hany]

theorem read_write (h : folder.write path bytes = .ok folder') (hdevice : isNullDevice path = false) :
    folder'.read path = .ok bytes := by
  obtain ⟨parts, name, directory, hne, hlength, hsplit, hname, hwalk, hfree, rfl⟩ :=
    write_eq_ok h hdevice
  have hfile : (folder.put (directory ++ [name]) bytes).walk (path.startsWith "/")
      (Text.split "/" path) = .ok (.file bytes) := by
    rw [hsplit, walk_concat]
    refine bind_eq_ok.2 ⟨_, walk_put hfree hwalk, ?_⟩
    rw [step_of_isName hname, lookup_put, if_pos rfl]
  rw [read, if_neg hne, if_neg (Nat.not_lt.2 hlength), hdevice, hfile]
  rfl

def IsPlain (name : String) : Prop := IsName name ∧ '/' ∉ name.toList

instance : DecidablePred IsPlain := fun _ =>
  inferInstanceAs (Decidable ((_ ∧ _ ∧ _ ∧ _) ∧ _))

theorem startsWith_of_isPlain (h : IsPlain name) : name.startsWith "/" = false := by
  rw [Bool.eq_false_iff]
  intro hstarts
  rw [String.startsWith_string_iff] at hstarts
  exact h.2 (hstarts.subset List.mem_cons_self)

theorem split_of_isPlain (h : IsPlain name) : Text.split "/" name = [name] := by
  have hfree : ¬ "/".toList <:+: name.toList := fun hslash => h.2 (hslash.subset List.mem_cons_self)
  rw [Text.split, Text.splitAround_of_not_occurs hfree, List.map_singleton, String.ofList_toList]

theorem isNullDevice_of_isPlain (h : IsPlain name) : isNullDevice name = false := by
  rw [isNullDevice, startsWith_of_isPlain h, Bool.false_and, Bool.false_and]

theorem length_le_of_isPlain (h : IsPlain name) : name.utf8ByteSize ≤ maxPathBytes :=
  h.1.2.2.2.trans (by decide)

theorem read_of_isPlain (h : IsPlain name) (hbytes : folder.files.lookup [name] = some bytes) :
    folder.read name = .ok bytes := by
  have hwalk : folder.walk false [name] = .ok (.file bytes) := by
    rw [walk, List.foldlM_cons, if_neg Bool.false_ne_true, step_of_isName h.1, List.nil_append,
      hbytes]
    rfl
  rw [read, if_neg h.1.1, if_neg (Nat.not_lt.2 (length_le_of_isPlain h)), isNullDevice_of_isPlain h,
    startsWith_of_isPlain h, split_of_isPlain h, hwalk]
  rfl

theorem write_of_isPlain (h : IsPlain name) (hfree : ¬ folder.IsDirectory [name]) :
    folder.write name bytes = .ok (folder.put [name] bytes) := by
  obtain ⟨hempty, hdot, hdots, hsize⟩ := h.1
  have hnamed : [name].reverse.dropWhile (fun x => decide (x = "")) = [name] := by
    simp [hempty]
  have hwalk : folder.walk false ([name].drop 1).reverse = .ok (.directory []) := rfl
  have hpath : ¬ maxPathBytes < name.utf8ByteSize := Nat.not_lt.2 (length_le_of_isPlain h)
  have hsame : ¬ ([name].reverse.length ≠ [name].length ∨ name = "." ∨ name = "..") := by
    simp [hdot, hdots]
  have hstep : folder.step (.directory []) name = .error .absent ∨
      ∃ content, folder.step (.directory []) name = .ok (.file content) := by
    rw [step_of_isName h.1, List.nil_append]
    cases hlookup : folder.files.lookup [name] with
    | some content => exact .inr ⟨content, rfl⟩
    | none => exact .inl (if_neg fun hany => hfree ⟨hlookup, hany⟩)
  simp only [write, split_of_isPlain h, startsWith_of_isPlain h, isNullDevice_of_isPlain h,
    if_neg hempty, if_neg hpath, hnamed, hwalk, if_neg Bool.false_ne_true, bind, Except.bind,
    if_neg hsame]
  obtain hstep | ⟨content, hstep⟩ := hstep <;> rw [hstep] <;> rfl

end Determinizer.Command.Folder
