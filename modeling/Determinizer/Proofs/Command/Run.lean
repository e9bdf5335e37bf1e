import Determinizer.Command.Run
import Determinizer.Proofs.Command.Files
import Determinizer.Proofs.Config.Acceptance

/-! A run of the command on a text in a file, where nothing but the text stands in its way: the
table is printed and written, or what there is to say against the text is reported and no file
changes. -/

namespace Determinizer.Command

open Encoding (Utf8.encode)

structure Invocation.Ready (i : Invocation) (settings : Settings) (folder : Folder)
    (text delimiter out : String) : Prop where
  separator : i.separator settings = .ok delimiter
  colors : ¬ (i.switches.noColor ∧ i.switches.forceColor)
  path : hasNull i.path = false
  input : folder.read i.path = .ok (Utf8.encode text.toList)
  output : i.output = some out
  outputPath : hasNull out = false
  writable : ∀ bytes, ∃ folder', folder.write out bytes = .ok folder'

def CommandError.ofObjection : Objection → CommandError
  | .rejected r => .rejected r
  | .labels fault => .labels fault

theorem CommandError.message_ofObjection (o : Objection) :
    (ofObjection o).message = o.message := by
  cases o <;> rfl

theorem exists_lineEnded_eq_append (s : String) : ∃ rest, lineEnded s = s ++ rest := by
  unfold lineEnded
  split
  · exact ⟨"", s.append_empty.symm⟩
  · exact ⟨"\n", rfl⟩

namespace Invocation

variable {i : Invocation} {settings : Settings} {folder folder' : Folder}
  {text delimiter out : String} {v : Json} {c : Config} {o : Objection}

theorem exists_stdout_success (i : Invocation) (p : Product) :
    ∃ rest, (i.success p).stdout = p.text ++ rest := by
  obtain ⟨rest, hrest⟩ := exists_lineEnded_eq_append p.text
  unfold success
  rw [hrest]
  exact ⟨_, String.append_assoc⟩

theorem run_of_product_ok [Host] {p : Product}
    (hproduct : i.product settings (folder.read i.path) = .ok (.ok p))
    (houtput : p.output = some (out, text)) (hout : hasNull out = false)
    (hwrite : folder.write out (Utf8.encode text.toList) = .ok folder') :
    i.run settings folder = .ok (i.success p, folder') := by
  simp only [run, hproduct, bind, Except.bind, houtput, hout, hwrite]
  rfl

theorem run_of_product_error [Host] {e : CommandError}
    (hproduct : i.product settings (folder.read i.path) = .ok (.error e)) :
    i.run settings folder = (i.failure e).map fun report => (report, folder) := by
  simp only [run, hproduct, bind, Except.bind]
  cases i.failure e <;> rfl

namespace Ready

variable (h : i.Ready settings folder text delimiter out)
include h

theorem outputPath? : i.outputPath? = some out := by
  have hne : out ≠ "" := by
    rintro rfl
    obtain ⟨folder', hwrite⟩ := h.writable []
    cases hwrite
  simp [Invocation.outputPath?, h.output, hne]

theorem product_eq [Host] (hread : Json.read text = .ok v) :
    i.product settings (folder.read i.path) =
      .ok (((Config.accept delimiter v).mapError .ofObjection).map fun c =>
        ⟨(c.determinize delimiter).text c.alphabet,
          some (out, (c.determinize delimiter).dump)⟩) := by
  have hload : Config.loadBytes (Utf8.encode text.toList) =
      (Config.parse v).mapError .rejected := by
    rw [Config.loadBytes_encode, Config.load_of_read hread]
  unfold product
  -- what is left after these tests is to load the bytes and to check the labels, as accepting does
  rw [if_neg h.colors, h.path, if_neg Bool.false_ne_true, h.input]
  simp only [hload, h.separator, h.outputPath?, Except.toOption, Option.getD_some]
  cases hparse : Config.parse v with
  | error r =>
    have ho : Config.accept delimiter v = .error (.rejected r) :=
      Config.accept_eq_error_iff.2 (.inl ⟨r, hparse, rfl⟩)
    rw [ho]
    rfl
  | ok c =>
    cases hlabels : c.checkLabels delimiter with
    | error fault =>
      have ho : Config.accept delimiter v = .error (.labels fault) :=
        Config.accept_eq_error_iff.2 (.inr ⟨c, fault, hparse, hlabels, rfl⟩)
      rw [ho]
      simp only [Except.mapError, hlabels]
      rfl
    | ok _ =>
      have hc : Config.accept delimiter v = .ok c := Config.accept_eq_ok_iff.2 ⟨hparse, hlabels⟩
      rw [hc]
      simp only [Except.mapError, hlabels]
      rfl

theorem run_accepted [Host] (hread : Json.read text = .ok v)
    (hc : Config.accept delimiter v = .ok c) :
    ∃ report folder', i.run settings folder = .ok (report, folder') ∧ report.exit = 0 ∧
      (∃ rest, report.stdout = (c.determinize delimiter).text c.alphabet ++ rest) ∧
      folder.write out (Utf8.encode (c.determinize delimiter).dump.toList) = .ok folder' := by
  have hproduct := h.product_eq hread
  rw [hc] at hproduct
  obtain ⟨folder', hwrite⟩ := h.writable (Utf8.encode (c.determinize delimiter).dump.toList)
  have hrun := run_of_product_ok hproduct rfl h.outputPath hwrite
  exact ⟨_, folder', hrun, rfl, i.exists_stdout_success _, hwrite⟩

theorem run_objected [Host] (hread : Json.read text = .ok v)
    (ho : Config.accept delimiter v = .error o) :
    i.run settings folder =
      if i.switches.traceback then .error (.raised (.ofObjection o))
      else .ok (⟨1, "", some (lineEnded s!"CommandError: {o.message}")⟩, folder) := by
  have hproduct := h.product_eq hread
  rw [ho] at hproduct
  rw [run_of_product_error hproduct, failure, CommandError.message_ofObjection]
  split <;> rfl

end Ready
end Invocation
end Determinizer.Command
