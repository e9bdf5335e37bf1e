import Determinizer.Ordered
import Determinizer.Proofs.Decimal.Numeral
import Determinizer.Proofs.Json.Fits
import Determinizer.Proofs.Json.Text

/-! Written values are read back, in each layout that puts white space only where it does not count,
if they keep within the limits of the reader. The text of a double is read as a double, and
everything else has its value again. -/

namespace Determinizer.Json

def mapFloats (g : Float → Float) : Json → Json
  | float x => float (g x)
  | arr items => arr (items.map (mapFloats g))
  | obj entries => obj (entries.map fun e => (e.1, mapFloats g e.2))
  | v => v
decreasing_by
  · simp_wf
    have := List.sizeOf_lt_of_mem ‹_›
    omega
  · simp_wf
    have hentry := List.sizeOf_lt_of_mem ‹_›
    rw [show e = (e.1, e.2) from rfl, Prod.mk.sizeOf_spec] at hentry
    omega

section

variable (g : Float → Float)

@[simp] theorem mapFloats_null : null.mapFloats g = null := by
  simp [mapFloats]

@[simp] theorem mapFloats_bool (b : Bool) : (bool b).mapFloats g = bool b := by
  simp [mapFloats]

@[simp] theorem mapFloats_int (n : Int) : (int n).mapFloats g = int n := by
  simp [mapFloats]

@[simp] theorem mapFloats_float (x : Float) : (float x).mapFloats g = float (g x) := by
  simp [mapFloats]

@[simp] theorem mapFloats_str (s : String) : (str s).mapFloats g = str s := by
  simp [mapFloats]

@[simp] theorem mapFloats_arr (items : List Json) :
    (arr items).mapFloats g = arr (items.map (mapFloats g)) := by
  simp [mapFloats]

@[simp] theorem mapFloats_obj (entries : List (String × Json)) :
    (obj entries).mapFloats g = obj (entries.map fun e => (e.1, e.2.mapFloats g)) := by
  simp [mapFloats]

end

structure Layout.Readable [Host] (f : Layout) : Prop where
  inner : ∀ k, ∀ c ∈ f.inner k, isSpace c = true
  comma : ∀ k, ∃ space, f.comma k = ',' :: space ∧ ∀ c ∈ space, isSpace c = true
  outer : ∀ k, ∀ c ∈ f.outer k, isSpace c = true
  escape : ReadBack f.escape

theorem Layout.readable_compact [Host] : Layout.compact.Readable where
  inner _ _ hc := absurd hc List.not_mem_nil
  comma _ := ⟨[' '], rfl, by simp [isSpace]⟩
  outer _ _ hc := absurd hc List.not_mem_nil
  escape := readBack_escapeAscii

theorem isSpace_of_mem_newline {k : Nat} {c : Char} (h : c ∈ newline k) : isSpace c = true := by
  rcases List.mem_cons.1 h with rfl | h
  · rfl
  · rw [List.eq_of_mem_replicate h]
    rfl

theorem Layout.readable_indented [Host] : Layout.indented.Readable where
  inner _ _ hc := isSpace_of_mem_newline hc
  comma k := ⟨newline k, rfl, fun _ hc => isSpace_of_mem_newline hc⟩
  outer _ _ hc := isSpace_of_mem_newline hc
  escape := readBack_escapeControl

variable {f : Layout} {g : Float → Float} {space s r t opening : List Char} {c : Char}

theorem skipSpace_cons (hc : isSpace c = false) : skipSpace (c :: r) = c :: r := by
  rw [skipSpace, List.dropWhile_cons_of_neg (by simp [hc])]

theorem skipSpace_append (hspace : ∀ c ∈ space, isSpace c = true) :
    skipSpace (space ++ r) = skipSpace r :=
  List.dropWhile_append_of_pos hspace

theorem ends_append (hspace : ∀ c ∈ space, isSpace c = true) (hr : Ends r) : Ends (space ++ r) := by
  cases space with
  | nil => exact hr
  | cons c space =>
    have hc : isSpace c = true := hspace c List.mem_cons_self
    simp only [isSpace, Bool.or_eq_true, decide_eq_true_eq] at hc
    rcases hc with ((rfl | rfl) | rfl) | rfl <;> simp [Ends, isDigit]

theorem scalar_word (name : String) {v : Json} (h : (name, v) ∈ words) :
    ∃ h, scalar (name.toList ++ r) = .ok (v, ⟨r, h⟩) := by
  have hword : word? (name.toList ++ r) = some (v, name.length) ∧ 0 < name.length := by
    simp only [words, List.mem_cons, List.not_mem_nil, or_false, Prod.mk.injEq] at h
    rcases h with ⟨rfl, rfl⟩ | ⟨rfl, rfl⟩ | ⟨rfl, rfl⟩ | ⟨rfl, rfl⟩ | ⟨rfl, rfl⟩ | ⟨rfl, rfl⟩ <;>
      exact ⟨rfl, by decide⟩
  obtain ⟨hword, hlen⟩ := hword
  have hdrop : (name.toList ++ r).drop name.length = r := by
    rw [← String.length_toList, List.drop_left]
  have hlen' : 0 < (name.toList ++ r).length := by
    rw [List.length_append, String.length_toList]
    omega
  refine ⟨by rw [List.length_append, String.length_toList]; omega, ?_⟩
  simp only [scalar.eq_def, hword, hlen, hlen', and_self, dite_true, hdrop]

theorem exists_scalar_write : ∃ g : Float → Float, ∀ x r, Ends r →
    ∃ h, scalar (numberStyle.write x ++ r) = .ok (float (g x), ⟨r, h⟩) := by
  have hread : ∀ x, ∃ y, ∀ r, Ends r →
      ∃ h, scalar (numberStyle.write x ++ r) = .ok (float y, ⟨r, h⟩) := by
    intro x
    rcases Decimal.Style.write_cases x with hnan | ⟨negative, hinf | ⟨s, hs, hwrite⟩⟩
    · rw [hnan]
      exact ⟨nan, fun r _ => scalar_word "NaN" (by simp [words])⟩
    · rw [hinf]
      cases negative with
      | false => exact ⟨infinity, fun r _ => scalar_word "Infinity" (by simp [words])⟩
      | true => exact ⟨-infinity, fun r _ => scalar_word "-Infinity" (by simp [words])⟩
    · obtain ⟨y, hy⟩ := exists_scalar_decimal hs negative
      refine ⟨y, fun r hr => ?_⟩
      rw [hwrite, List.append_assoc]
      exact hy r hr
  choose g hg using hread
  exact ⟨g, hg⟩

section Values

theorem value_eq_scalar [Host] {depth : Nat} (hquote : c ≠ '"') (hbracket : c ≠ '[')
    (hbrace : c ≠ '\x7b') : value depth (c :: r) = scalar (c :: r) := by
  cases depth <;> simp [value, hquote, hbracket, hbrace]

theorem value_quote [Host] (hf : ReadBack f.escape) (depth : Nat) (text : String) :
    ∃ h, value depth (f.quote text ++ r) = .ok (str text, ⟨r, h⟩) := by
  have hform : f.quote text ++ r = '"' :: (text.toList.flatMap f.escape ++ '"' :: r) := by
    simp [Layout.quote]
  rw [hform]
  obtain ⟨h, hrest⟩ := stringRest_quoted hf text.toList r
  refine ⟨h, ?_⟩
  rw [value, hrest]
  simp

variable {read : Reader Json} {v : Json}

theorem elements_of_comma (done : List Json) (hv : ∃ h, read s = .ok (v, ⟨r, h⟩))
    (hr : skipSpace r = ',' :: t) (hs : s.length < opening.length) :
    ∃ h, elements read opening done s hs =
      elements read opening (v :: done) (skipSpace t) h := by
  obtain ⟨hlt, hv⟩ := hv
  have hle := length_le_of_skipSpace hr
  have hle' := length_skipSpace_le t
  refine ⟨by omega, ?_⟩
  rw [elements, hv]
  dsimp only
  split
  · next t' h =>
    obtain ⟨-, rfl⟩ := List.cons.inj (hr.symm.trans h)
    rfl
  · next h => exact absurd (hr.symm.trans h) (by simp)
  · next h _ => exact absurd hr (h t)

theorem elements_of_bracket (done : List Json) (hv : ∃ h, read s = .ok (v, ⟨r, h⟩))
    (hr : skipSpace r = ']' :: t) (hs : s.length < opening.length) :
    ∃ h, elements read opening done s hs = .ok (arr (v :: done).reverse, ⟨t, h⟩) := by
  obtain ⟨hlt, hv⟩ := hv
  have hle := length_le_of_skipSpace hr
  refine ⟨by omega, ?_⟩
  rw [elements, hv]
  dsimp only
  split
  · next h => exact absurd (hr.symm.trans h) (by simp)
  · next t' h =>
    obtain ⟨-, rfl⟩ := List.cons.inj (hr.symm.trans h)
    rfl
  · next h => exact absurd hr (h t)

theorem value_bracket [Host] {depth : Nat} {v : Json} (hr : ∀ t, skipSpace r ≠ ']' :: t)
    (h : ∀ hs, ∃ h, elements (value depth) ('[' :: r) [] (skipSpace r) hs = .ok (v, ⟨t, h⟩)) :
    ∃ h, value (depth + 1) ('[' :: r) = .ok (v, ⟨t, h⟩) := by
  obtain ⟨hlt, helements⟩ := h (Nat.lt_succ_of_le (length_skipSpace_le r))
  refine ⟨hlt, ?_⟩
  rw [value]
  split
  · next h => exact absurd h (hr _)
  · exact helements

theorem value_brace [Host] {depth : Nat} {v : Json} (hr : ∀ t, skipSpace r ≠ '\x7d' :: t)
    (h : ∀ hs, ∃ h, entries (value depth) ('\x7b' :: r) [] (skipSpace r) hs = .ok (v, ⟨t, h⟩)) :
    ∃ h, value (depth + 1) ('\x7b' :: r) = .ok (v, ⟨t, h⟩) := by
  obtain ⟨hlt, hentries⟩ := h (Nat.lt_succ_of_le (length_skipSpace_le r))
  refine ⟨hlt, ?_⟩
  rw [value]
  split
  · next h => exact absurd h (hr _)
  · exact hentries

variable {e : String × Json}

theorem entries_of_comma [Host] (found : List (String × Json))
    (he : ∃ h, entry read s = .ok (e, ⟨r, h⟩)) (hr : skipSpace r = ',' :: t)
    (hs : s.length < opening.length) :
    ∃ h, entries read opening found s hs =
      entries read opening (e :: found) (skipSpace t) h := by
  obtain ⟨hlt, he⟩ := he
  have hle := length_le_of_skipSpace hr
  have hle' := length_skipSpace_le t
  refine ⟨by omega, ?_⟩
  rw [entries, he]
  dsimp only
  split
  · next t' h =>
    obtain ⟨-, rfl⟩ := List.cons.inj (hr.symm.trans h)
    rfl
  · next h => exact absurd (hr.symm.trans h) (by simp)
  · next h _ => exact absurd hr (h t)

theorem entries_of_brace [Host] (found : List (String × Json))
    (he : ∃ h, entry read s = .ok (e, ⟨r, h⟩)) (hr : skipSpace r = '\x7d' :: t)
    (hs : s.length < opening.length) :
    ∃ h, entries read opening found s hs = .ok (ofEntries (e :: found).reverse, ⟨t, h⟩) := by
  obtain ⟨hlt, he⟩ := he
  have hle := length_le_of_skipSpace hr
  refine ⟨by omega, ?_⟩
  rw [entries, he]
  dsimp only
  split
  · next h => exact absurd (hr.symm.trans h) (by simp)
  · next t' h =>
    obtain ⟨-, rfl⟩ := List.cons.inj (hr.symm.trans h)
    rfl
  · next h => exact absurd hr (h t)

theorem entry_quote [Host] (hf : ReadBack f.escape) (name : String)
    (hv : ∃ h, read s = .ok (v, ⟨r, h⟩)) (hs : skipSpace s = s) :
    ∃ h, entry read (f.quote name ++ [':', ' '] ++ s) = .ok ((name, v), ⟨r, h⟩) := by
  have hform : f.quote name ++ [':', ' '] ++ s =
      '"' :: (name.toList.flatMap f.escape ++ '"' :: ':' :: ' ' :: s) := by
    simp [Layout.quote]
  rw [hform]
  obtain ⟨h, hrest⟩ := stringRest_quoted hf name.toList (':' :: ' ' :: s)
  have hcolon : skipSpace (':' :: ' ' :: s) = ':' :: ' ' :: s := skipSpace_cons rfl
  have hspace : skipSpace (' ' :: s) = s := by
    rw [skipSpace, List.dropWhile_cons_of_pos rfl]
    exact hs
  have hread : ∃ h, read (skipSpace (' ' :: s)) = .ok (v, ⟨r, h⟩) := by
    rw [hspace]
    exact hv
  obtain ⟨hlt, hread⟩ := hread
  refine ⟨by rw [hspace] at hlt; simp; omega, ?_⟩
  rw [entry, hrest]
  dsimp only
  split
  · next t h =>
    obtain ⟨-, rfl⟩ := List.cons.inj (hcolon.symm.trans h)
    simp only [hread]
    simp
  · next h => exact absurd hcolon (h _)

end Values

structure OpensScalar (c : Char) : Prop where
  space : isSpace c = false
  mark : c ≠ '\ufeff'
  quote : c ≠ '"'
  bracket : c ≠ '['
  closing : c ≠ ']'
  brace : c ≠ '\x7b'

theorem opensScalar_of_isDigit (hc : isDigit c = true) : OpensScalar c := by
  rw [isDigit, Bool.and_eq_true, decide_eq_true_eq, decide_eq_true_eq] at hc
  have hlow : ∀ d, d < '0' → c ≠ d := fun d hd h => absurd (h ▸ hc.1) (Char.not_le.2 hd)
  have hhigh : ∀ d, '9' < d → c ≠ d := fun d hd h => absurd (h ▸ hc.2) (Char.not_le.2 hd)
  refine ⟨?_, hhigh _ (by decide), hlow _ (by decide), hhigh _ (by decide), hhigh _ (by decide),
    hhigh _ (by decide)⟩
  simp [isSpace, hlow ' ' (by decide), hlow '\t' (by decide), hlow '\n' (by decide),
    hlow '\r' (by decide)]

theorem exists_sign_eq_cons {i : List Char} (hi : IsIntegerPart i) (negative : Bool)
    (s : List Char) :
    ∃ c t, (if negative then ['-'] else []) ++ (i ++ s) = c :: t ∧ OpensScalar c := by
  cases negative with
  | true => exact ⟨'-', i ++ s, rfl, by constructor <;> decide⟩
  | false =>
    obtain ⟨c, ds, rfl, hc⟩ := hi.exists_cons
    exact ⟨c, ds ++ s, rfl, opensScalar_of_isDigit hc⟩

theorem exists_integer_eq_cons (n : Int) :
    ∃ c t, Layout.integer n = c :: t ∧ OpensScalar c := by
  have h := exists_sign_eq_cons (isIntegerPart_toDigits n.natAbs) (n < 0) []
  simpa only [Layout.integer, decide_eq_true_eq, List.append_nil] using h

theorem exists_write_eq_cons (x : Float) :
    ∃ c t, numberStyle.write x = c :: t ∧ OpensScalar c := by
  rcases Decimal.Style.write_cases x with hnan | ⟨negative, hinf | ⟨s, hs, hwrite⟩⟩
  · exact ⟨'N', _, hnan, by constructor <;> decide⟩
  · rw [hinf]
    cases negative <;> exact ⟨_, _, rfl, by constructor <;> decide⟩
  · obtain ⟨i, p, e, rfl, hi, -⟩ := hs
    rw [hwrite]
    exact exists_sign_eq_cons hi negative (p ++ e)

theorem exists_chars_eq_cons (f : Layout) (k : Nat) (v : Json) :
    ∃ c t, f.chars k v = c :: t ∧ isSpace c = false ∧ c ≠ ']' ∧ c ≠ '\ufeff' := by
  cases v with
  | null => exact ⟨'n', _, rfl, by decide⟩
  | bool b => cases b <;> exact ⟨_, _, rfl, by decide⟩
  | int n =>
    obtain ⟨c, t, h, hc⟩ := exists_integer_eq_cons n
    exact ⟨c, t, by rw [Layout.chars, h], hc.space, hc.closing, hc.mark⟩
  | float x =>
    obtain ⟨c, t, h, hc⟩ := exists_write_eq_cons x
    exact ⟨c, t, by rw [Layout.chars, h], hc.space, hc.closing, hc.mark⟩
  | str s => exact ⟨'"', _, rfl, by decide⟩
  | arr items => cases items <;> exact ⟨'[', _, rfl, by decide⟩
  | obj entries => cases entries <;> exact ⟨'\x7b', _, rfl, by decide⟩

theorem skipSpace_chars (f : Layout) (k : Nat) (v : Json) (r : List Char) :
    skipSpace (f.chars k v ++ r) = f.chars k v ++ r := by
  obtain ⟨c, t, hchars, hc, -⟩ := exists_chars_eq_cons f k v
  rw [hchars]
  exact skipSpace_cons hc

theorem chars_infix_chars_arr (f : Layout) (k : Nat) (v : Json) (vs : List Json) :
    f.chars (k + 1) v <:+: f.chars k (arr (v :: vs)) :=
  ⟨'[' :: f.inner (k + 1), f.itemChars k vs, by simp [Layout.chars]⟩

theorem chars_infix_chars_obj (f : Layout) (k : Nat) (name : String) (v : Json)
    (es : List (String × Json)) : f.chars (k + 1) v <:+: f.chars k (obj ((name, v) :: es)) :=
  ⟨'\x7b' :: f.inner (k + 1) ++ (f.quote name ++ [':', ' ']), f.entryChars k es,
    by simp [Layout.chars]⟩

theorem length_chars_obj (f : Layout) (k : Nat) (name : String) (v : Json)
    (es : List (String × Json)) : (f.chars k (obj ((name, v) :: es))).length =
      (f.chars (k + 1) v).length +
        ((f.inner (k + 1)).length + (f.quote name).length + (f.entryChars k es).length + 3) := by
  simp only [Layout.chars, List.length_append, List.length_cons, List.length_nil]
  omega

theorem setEntry_of_not_mem {name : String} {v : Json} {entries : List (String × Json)}
    (h : name ∉ entries.map Prod.fst) : setEntry name v entries = entries ++ [(name, v)] := by
  induction entries with
  | nil => rfl
  | cons e entries ih =>
    rw [List.map_cons, List.mem_cons, not_or] at h
    rw [setEntry, if_neg fun heq => h.1 heq.symm, ih h.2]
    rfl

theorem ofEntries_of_nodup {entries : List (String × Json)} (h : (entries.map Prod.fst).Nodup) :
    ofEntries entries = obj entries := by
  have hfold : ∀ (l done : List (String × Json)), ((done ++ l).map Prod.fst).Nodup →
      l.foldl (fun entries e => setEntry e.1 e.2 entries) done = done ++ l := by
    intro l
    induction l with
    | nil => exact fun done _ => (List.append_nil done).symm
    | cons e l ih =>
      intro done hnodup
      have hnew : e.1 ∉ done.map Prod.fst := by
        rw [List.map_append, List.map_cons, List.nodup_append] at hnodup
        exact fun hmem => hnodup.2.2 _ hmem _ List.mem_cons_self rfl
      rw [List.foldl_cons, setEntry_of_not_mem hnew]
      simpa using ih (done ++ [e]) (by simpa using hnodup)
  rw [ofEntries, hfold entries [] h, List.nil_append]

section RoundTrip

variable {read : Reader Json} {k : Nat}

def ReadsAs (read : Reader Json) (text : List Char) (v : Json) : Prop :=
  ∀ r, Ends r → ∃ h, read (text ++ r) = .ok (v, ⟨r, h⟩)

theorem elements_itemChars [Host] (hf : f.Readable) {vs : List Json} {v : Json}
    (hread : ∀ w ∈ v :: vs, ReadsAs read (f.chars (k + 1) w) (w.mapFloats g)) (done : List Json)
    (hs : (f.chars (k + 1) v ++ (f.itemChars k vs ++ r)).length < opening.length) :
    ∃ h, elements read opening done (f.chars (k + 1) v ++ (f.itemChars k vs ++ r)) hs =
      .ok (arr (done.reverse ++ (v :: vs).map (mapFloats g)), ⟨r, h⟩) := by
  induction vs generalizing v done with
  | nil =>
    have hends : Ends (f.itemChars k [] ++ r) := by
      rw [Layout.itemChars, List.append_assoc]
      exact ends_append (hf.outer k) (by simp [Ends, isDigit])
    have hskip : skipSpace (f.itemChars k [] ++ r) = ']' :: r := by
      rw [Layout.itemChars, List.append_assoc, skipSpace_append (hf.outer k)]
      exact skipSpace_cons rfl
    obtain ⟨h, hend⟩ := elements_of_bracket done (hread v List.mem_cons_self _ hends) hskip hs
    refine ⟨h, ?_⟩
    rw [hend, List.reverse_cons]
    rfl
  | cons w ws ih =>
    obtain ⟨space, hcomma, hspace⟩ := hf.comma (k + 1)
    have hform : f.itemChars k (w :: ws) ++ r =
        ',' :: (space ++ (f.chars (k + 1) w ++ (f.itemChars k ws ++ r))) := by
      simp [Layout.itemChars, hcomma]
    have hends : Ends (f.itemChars k (w :: ws) ++ r) := by
      rw [hform]
      simp [Ends, isDigit]
    have hskip : skipSpace (space ++ (f.chars (k + 1) w ++ (f.itemChars k ws ++ r))) =
        f.chars (k + 1) w ++ (f.itemChars k ws ++ r) := by
      rw [skipSpace_append hspace, skipSpace_chars]
    obtain ⟨hs', hstep⟩ := elements_of_comma done (hread v List.mem_cons_self _ hends)
      ((congrArg skipSpace hform).trans (skipSpace_cons rfl)) hs
    rw [hstep]
    revert hs'
    rw [hskip]
    intro hs' _
    obtain ⟨h, hrest⟩ := ih (fun u hu => hread u (List.mem_cons_of_mem v hu))
      (v.mapFloats g :: done) hs'
    refine ⟨h, ?_⟩
    rw [hrest, List.reverse_cons]
    simp

theorem skipSpace_quote (f : Layout) (name : String) (r : List Char) :
    skipSpace (f.quote name ++ r) = f.quote name ++ r :=
  skipSpace_cons rfl

theorem entries_entryChars [Host] (hf : f.Readable) {es : List (String × Json)} {e : String × Json}
    (hread : ∀ d ∈ e :: es, ReadsAs read (f.chars (k + 1) d.2) (d.2.mapFloats g))
    (done : List (String × Json))
    (hs : (f.quote e.1 ++ [':', ' '] ++ (f.chars (k + 1) e.2 ++ (f.entryChars k es ++ r))).length <
      opening.length) :
    ∃ h, entries read opening done
        (f.quote e.1 ++ [':', ' '] ++ (f.chars (k + 1) e.2 ++ (f.entryChars k es ++ r))) hs =
      .ok (ofEntries (done.reverse ++ (e :: es).map fun d => (d.1, d.2.mapFloats g)), ⟨r, h⟩) := by
  induction es generalizing e done with
  | nil =>
    have hends : Ends (f.entryChars k [] ++ r) := by
      rw [Layout.entryChars, List.append_assoc]
      exact ends_append (hf.outer k) (by simp [Ends, isDigit])
    have hskip : skipSpace (f.entryChars k [] ++ r) = '\x7d' :: r := by
      rw [Layout.entryChars, List.append_assoc, skipSpace_append (hf.outer k)]
      exact skipSpace_cons rfl
    have hentry := entry_quote hf.escape e.1 (hread e List.mem_cons_self _ hends)
      (skipSpace_chars f (k + 1) e.2 _)
    obtain ⟨h, hend⟩ := entries_of_brace done hentry hskip hs
    refine ⟨h, ?_⟩
    rw [hend, List.reverse_cons]
    rfl
  | cons d es ih =>
    obtain ⟨space, hcomma, hspace⟩ := hf.comma (k + 1)
    have hform : f.entryChars k (d :: es) ++ r = ',' :: (space ++
        (f.quote d.1 ++ [':', ' '] ++ (f.chars (k + 1) d.2 ++ (f.entryChars k es ++ r)))) := by
      simp [Layout.entryChars, hcomma]
    have hends : Ends (f.entryChars k (d :: es) ++ r) := by
      rw [hform]
      simp [Ends, isDigit]
    have hskip : skipSpace (space ++
        (f.quote d.1 ++ [':', ' '] ++ (f.chars (k + 1) d.2 ++ (f.entryChars k es ++ r)))) =
        f.quote d.1 ++ [':', ' '] ++ (f.chars (k + 1) d.2 ++ (f.entryChars k es ++ r)) := by
      rw [skipSpace_append hspace, List.append_assoc, skipSpace_quote]
    have hentry := entry_quote hf.escape e.1 (hread e List.mem_cons_self _ hends)
      (skipSpace_chars f (k + 1) e.2 _)
    obtain ⟨hs', hstep⟩ := entries_of_comma done hentry
      ((congrArg skipSpace hform).trans (skipSpace_cons rfl)) hs
    rw [hstep]
    revert hs'
    rw [hskip]
    intro hs' _
    obtain ⟨h, hrest⟩ := ih (fun u hu => hread u (List.mem_cons_of_mem e hu))
      ((e.1, e.2.mapFloats g) :: done) hs'
    refine ⟨h, ?_⟩
    rw [hrest, List.reverse_cons]
    simp

theorem readsAs_scalar [Host] {depth : Nat} {text : List Char} {v : Json}
    (hstart : ∃ c t, text = c :: t ∧ OpensScalar c) (h : ReadsAs scalar text v) :
    ReadsAs (value depth) text v := by
  obtain ⟨c, t, rfl, hc⟩ := hstart
  intro r hr
  rw [List.cons_append, value_eq_scalar hc.quote hc.bracket hc.brace]
  exact h r hr

theorem readsAs_word [Host] {depth : Nat} (name : String) {v : Json} (h : (name, v) ∈ words)
    (hstart : ∃ c t, name.toList = c :: t ∧ OpensScalar c) :
    ReadsAs (value depth) name.toList v :=
  readsAs_scalar hstart fun _ _ => scalar_word name h

theorem readsAs_arr [Host] (hf : f.Readable) {depth : Nat} {items : List Json}
    (hread : ∀ w ∈ items, ReadsAs (value depth) (f.chars (k + 1) w) (w.mapFloats g)) :
    ReadsAs (value (depth + 1)) (f.chars k (arr items)) ((arr items).mapFloats g) := by
  intro r _
  cases items with
  | nil =>
    rw [mapFloats_arr]
    refine ⟨by simp [Layout.chars], ?_⟩
    rfl
  | cons v vs =>
    have hform : f.chars k (arr (v :: vs)) ++ r =
        '[' :: (f.inner (k + 1) ++ (f.chars (k + 1) v ++ (f.itemChars k vs ++ r))) := by
      simp [Layout.chars]
    have hskip : skipSpace (f.inner (k + 1) ++ (f.chars (k + 1) v ++ (f.itemChars k vs ++ r))) =
        f.chars (k + 1) v ++ (f.itemChars k vs ++ r) := by
      rw [skipSpace_append (hf.inner (k + 1)), skipSpace_chars]
    rw [hform, mapFloats_arr]
    refine value_bracket (fun t => ?_) ?_
    · rw [hskip]
      obtain ⟨c, t', hchars, -, hc, -⟩ := exists_chars_eq_cons f (k + 1) v
      rw [hchars]
      exact fun h => hc (List.cons.inj h).1
    · rw [hskip]
      exact elements_itemChars hf hread []

theorem readsAs_obj [Host] (hf : f.Readable) {depth : Nat} {entries : List (String × Json)}
    (hnodup : (entries.map Prod.fst).Nodup)
    (hread : ∀ e ∈ entries, ReadsAs (value depth) (f.chars (k + 1) e.2) (e.2.mapFloats g)) :
    ReadsAs (value (depth + 1)) (f.chars k (obj entries)) ((obj entries).mapFloats g) := by
  intro r _
  cases entries with
  | nil =>
    rw [mapFloats_obj]
    refine ⟨by simp [Layout.chars], ?_⟩
    rfl
  | cons e es =>
    have hform : f.chars k (obj (e :: es)) ++ r = '\x7b' :: (f.inner (k + 1) ++
        (f.quote e.1 ++ [':', ' '] ++ (f.chars (k + 1) e.2 ++ (f.entryChars k es ++ r)))) := by
      simp [Layout.chars]
    have hskip : skipSpace (f.inner (k + 1) ++
        (f.quote e.1 ++ [':', ' '] ++ (f.chars (k + 1) e.2 ++ (f.entryChars k es ++ r)))) =
        f.quote e.1 ++ [':', ' '] ++ (f.chars (k + 1) e.2 ++ (f.entryChars k es ++ r)) := by
      rw [skipSpace_append (hf.inner (k + 1)), List.append_assoc, skipSpace_quote]
    -- reading puts entry after entry into an object, which keeps them all if no name is repeated
    have hsame : ofEntries ((e :: es).map fun d => (d.1, d.2.mapFloats g)) =
        obj ((e :: es).map fun d => (d.1, d.2.mapFloats g)) := by
      refine ofEntries_of_nodup ?_
      rw [List.map_map]
      exact hnodup
    rw [hform, mapFloats_obj, ← hsame]
    refine value_brace (fun t => ?_) ?_
    · rw [hskip]
      exact fun h => absurd (List.cons.inj h).1 (by decide)
    · rw [hskip]
      exact entries_entryChars hf hread []

/-- A value is read back from its text. The induction is on its nesting, since the reader of items
is the reader of values one level down. -/
theorem readsAs_chars [Host] (hf : f.Readable)
    (hg : ∀ x, ReadsAs scalar (numberStyle.write x) (float (g x))) {depth : Nat} {v : Json}
    (hv : Fits depth v) (k : Nat) : ReadsAs (value depth) (f.chars k v) (v.mapFloats g) := by
  induction hv generalizing k with
  | null depth =>
    rw [Layout.chars, mapFloats_null]
    exact readsAs_word "null" (by simp [words]) ⟨'n', _, rfl, by constructor <;> decide⟩
  | bool depth b =>
    rw [mapFloats_bool]
    cases b with
    | true => exact readsAs_word "true" (by simp [words]) ⟨'t', _, rfl, by constructor <;> decide⟩
    | false => exact readsAs_word "false" (by simp [words]) ⟨'f', _, rfl, by constructor <;> decide⟩
  | int depth n hn =>
    rw [Layout.chars, mapFloats_int]
    exact readsAs_scalar (exists_integer_eq_cons n) fun r hr => scalar_integer hn hr
  | float depth x =>
    rw [Layout.chars, mapFloats_float]
    exact readsAs_scalar (exists_write_eq_cons x) (hg x)
  | str depth s =>
    rw [Layout.chars, mapFloats_str]
    exact fun r _ => value_quote hf.escape depth s
  | arr hitems ih => exact readsAs_arr hf fun w hw => ih w hw (k + 1)
  | obj hnodup hentries ih => exact readsAs_obj hf hnodup fun e he => ih e he (k + 1)

theorem read_ofList_chars [Host] (hf : f.Readable)
    (hg : ∀ x, ReadsAs scalar (numberStyle.write x) (float (g x))) {v : Json}
    (hv : Fits Host.reading v) : Json.read (String.ofList (f.chars k v)) = .ok (v.mapFloats g) := by
  have hchars : readChars (f.chars k v) = .ok (v.mapFloats g) := by
    have hvalue := readsAs_chars hf hg hv k [] (by simp [Ends])
    rw [← skipSpace_chars, List.append_nil] at hvalue
    obtain ⟨h, hvalue⟩ := hvalue
    rw [readChars, document, hvalue]
    rfl
  obtain ⟨c, t, hcons, -, -, hmark⟩ := exists_chars_eq_cons f k v
  rw [← hchars, hcons, Json.read, String.toList_ofList]
  split
  · next h => exact absurd (List.cons.inj h).1 hmark
  · rfl

theorem readChars_of_read [Host] {text : String} {v : Json} (h : Json.read text = .ok v) :
    readChars text.toList = .ok v := by
  unfold Json.read at h
  split at h
  · cases h
  · exact h

theorem exists_read_write [Host] : ∃ g, ∀ v, Fits Host.reading v →
    Json.read v.indented = .ok (v.mapFloats g) ∧ Json.read v.compact = .ok (v.mapFloats g) := by
  obtain ⟨g, hg⟩ := exists_scalar_write
  refine ⟨g, fun v hv => ⟨?_, ?_⟩⟩
  · exact read_ofList_chars Layout.readable_indented hg hv
  · exact read_ofList_chars Layout.readable_compact hg hv

theorem read_write_of_mapFloats [Host] {v : Json} (hv : Fits Host.reading v)
    (hfloats : ∀ g, v.mapFloats g = v) :
    Json.read v.indented = .ok v ∧ Json.read v.compact = .ok v := by
  obtain ⟨g, hg⟩ := exists_read_write
  have hread := hg v hv
  rwa [hfloats g] at hread

end RoundTrip

section MapFloats

variable (g : Float → Float)

@[simp] theorem mapFloats_strings (l : List String) : (strings l).mapFloats g = strings l := by
  rw [strings, mapFloats_arr, List.map_map]
  congr 1
  exact List.map_congr_left fun s _ => mapFloats_str g s

theorem lookup_mapFloats (entries : List (String × Json)) (name : String) :
    (entries.map fun e => (e.1, e.2.mapFloats g)).lookup name =
      (entries.lookup name).map (mapFloats g) := by
  induction entries with
  | nil => rfl
  | cons e entries ih =>
    rw [List.map_cons, lookup_cons_ite, lookup_cons_ite, ih]
    split <;> rfl

end MapFloats

end Determinizer.Json
