import Determinizer.Proofs.Json.RoundTrip

/-! Texts that exceed a limit of the reader. What a reader leaves is an end of its text, so a limit
that it meets anywhere is one that the whole text exceeds: the text has too many digits in a row or
opens too many brackets. Conversely, a long integer and deeply nested brackets meet their limit
whatever stands behind them. -/

namespace Determinizer.Json

def opens (c : Char) : Bool := c = '[' || c = '\x7b'

def Exceeds (depth : Nat) (s : List Char) : Prop :=
  (∃ ds, ds <:+: s ∧ (∀ c ∈ ds, isDigit c = true) ∧ maxDigits < ds.length) ∨
    depth < s.countP opens

def Limit.Exceeded (depth : Nat) (s : List Char) : Limit → Prop
  | .digits _ => ∃ ds, ds <:+: s ∧ (∀ c ∈ ds, isDigit c = true) ∧ maxDigits < ds.length
  | .depth _ => depth < s.countP opens

/-- What the outcome of reading says of the text: what is left is an end of it, and a limit that was
met is exceeded. -/
def Within {α : Type} {opening : List Char} (depth : Nat) (s : List Char) :
    Except Stop (α × Below opening) → Prop
  | .ok (_, rest) => rest.val <:+ s
  | .error (.limit l) => l.Exceeded depth s
  | .error (.malformed _ _) => True

variable {α β : Type} {s t r i opening opening' : List Char} {c : Char} {depth : Nat} {l : Limit}
  {e : Stop}

theorem Limit.Exceeded.exceeds (h : l.Exceeded depth s) : Exceeds depth s := by
  cases l with
  | digits count => exact .inl h
  | depth container => exact .inr h

theorem Limit.Exceeded.of_infix (h : l.Exceeded depth t) (hts : t <:+: s) : l.Exceeded depth s := by
  cases l with
  | digits count =>
    obtain ⟨ds, hds, hdigits, hlength⟩ := h
    exact ⟨ds, hds.trans hts, hdigits, hlength⟩
  | depth container => exact Nat.lt_of_lt_of_le h hts.sublist.countP_le

theorem Limit.Exceeded.cons (h : l.Exceeded depth s) (hc : opens c = true) :
    l.Exceeded (depth + 1) (c :: s) := by
  cases l with
  | digits count =>
    obtain ⟨ds, hds, hdigits, hlength⟩ := h
    exact ⟨ds, hds.trans (List.suffix_cons c s).isInfix, hdigits, hlength⟩
  | depth container =>
    rw [Exceeded, List.countP_cons_of_pos hc]
    exact Nat.succ_lt_succ h

theorem not_exceeds_of_length_le (hdepth : depth ≤ maxDigits) (hs : s.length ≤ depth) :
    ¬ Exceeds depth s := by
  rintro (⟨ds, hds, -, hlength⟩ | hcount)
  · exact absurd hds.length_le (by omega)
  · exact absurd (List.countP_le_length (p := opens) (l := s)) (by omega)

theorem Within.of_suffix {outcome : Except Stop (α × Below opening)} (h : Within depth t outcome)
    (hts : t <:+ s) : Within depth s outcome := by
  match outcome, h with
  | .ok (_, rest), h => exact List.IsSuffix.trans h hts
  | .error (.limit _), h => exact Limit.Exceeded.of_infix h hts.isInfix
  | .error (.malformed _ _), _ => trivial

theorem Within.pass (h : Within depth s (.error e : Except Stop (α × Below opening))) :
    Within depth s (.error e : Except Stop (β × Below opening')) := by
  cases e <;> exact h

theorem suffix_cons_cons (a b : Char) (s : List Char) : s <:+ a :: b :: s := ⟨[a, b], rfl⟩

theorem skipSpace_suffix (s : List Char) : skipSpace s <:+ s := List.dropWhile_suffix _

theorem suffix_of_skipSpace (h : skipSpace s = c :: r) : r <:+ s :=
  (List.suffix_cons c r).trans (h ▸ skipSpace_suffix s)

section Scalar

theorem takeMinus_suffix (s : List Char) : (takeMinus s).2 <:+ s := by
  unfold takeMinus
  split
  · exact List.suffix_cons _ _
  · exact List.suffix_refl _

theorem takeSign_suffix (s : List Char) : (takeSign s).2 <:+ s := by
  unfold takeSign
  split
  · exact List.suffix_cons _ _
  · exact takeMinus_suffix _

theorem takeDigits_suffix (s : List Char) : (takeDigits s).2 <:+ s := List.dropWhile_suffix _

theorem integerPart?_eq_append {rest : Below s} (h : integerPart? s = some (i, rest)) :
    i ++ rest.val = s := by
  unfold integerPart? at h
  split at h
  · cases h
    rfl
  · split at h
    · cases h
      exact congrArg _ List.takeWhile_append_dropWhile
    · cases h
  · cases h

theorem fractionPart?_suffix {a : List Char} {rest : Below s}
    (h : fractionPart? s = some (a, rest)) : rest.val <:+ s := by
  unfold fractionPart? at h
  split at h
  · split at h
    · cases h
      exact (takeDigits_suffix _).trans (suffix_cons_cons _ _ _)
    · cases h
  · cases h

theorem exponentPart?_suffix {a : Int} {rest : Below s}
    (h : exponentPart? s = some (a, rest)) : rest.val <:+ s := by
  unfold exponentPart? at h
  split at h
  · dsimp only at h
    split at h
    · cases h
      exact (takeDigits_suffix _).trans ((takeSign_suffix _).trans (List.suffix_cons _ _))
    · cases h
  · cases h

theorem optional_suffix {part? : (s : List Char) → Option (α × Below s)}
    (hpart : ∀ {a rest}, part? s = some (a, rest) → rest.val <:+ s) :
    (optional part? s).2.val <:+ s := by
  unfold optional
  split
  · next h => exact hpart h
  · exact List.suffix_refl s

theorem exceeded_of_numeralValue (depth : Nat) {negative : Bool} {fraction : Option (List Char)}
    {exponent : Option Int} (hi : ∀ c ∈ i, isDigit c = true)
    (h : numeralValue negative i fraction exponent = .error e) :
    e = .limit (.digits i.length) ∧ (Limit.digits i.length).Exceeded depth i := by
  unfold numeralValue at h
  split at h
  · split at h
    · next hlength =>
      cases h
      exact ⟨rfl, i, List.infix_refl i, hi, hlength⟩
    · cases h
  · cases h

theorem within_numeral (s : List Char) : Within depth s (numeral s) := by
  unfold numeral
  split
  · trivial
  · next i t ht hi =>
    have hparts : i ++ t <:+ s := integerPart?_eq_append hi ▸ takeMinus_suffix s
    have hf := optional_suffix (s := t) fractionPart?_suffix
    have he := optional_suffix (s := (optional fractionPart? t).2.val) exponentPart?_suffix
    dsimp only
    split
    · next e hvalue =>
      obtain ⟨rfl, hexceeded⟩ :=
        exceeded_of_numeralValue depth (digits_of_integerPart? hi).2 hvalue
      exact hexceeded.of_infix ((List.prefix_append i t).isInfix.trans hparts.isInfix)
    · exact he.trans (hf.trans ((List.suffix_append i t).trans hparts))

theorem within_scalar (s : List Char) : Within depth s (scalar s) := by
  unfold scalar
  split
  · split
    · exact List.drop_suffix _ _
    · trivial
  · exact within_numeral s

end Scalar

section Text

theorem codeUnit?_suffix {n : Nat} {rest : Below s} (h : codeUnit? s = some (n, rest)) :
    rest.val <:+ s := by
  unfold codeUnit? at h
  split at h
  · simp only [Option.bind_eq_bind, Option.bind_eq_some_iff] at h
    obtain ⟨_, -, _, -, _, -, _, -, h⟩ := h
    cases h
    exact ⟨[_, _, _, _], rfl⟩
  · cases h

theorem within_unicodeEscape [Host] (depth : Nat) (s : List Char) :
    Within depth s (unicodeEscape s) := by
  unfold unicodeEscape
  split
  · trivial
  · next unit r hr hunit =>
    have hrest := codeUnit?_suffix hunit
    dsimp only
    split
    · split
      · split
        · trivial
        · next t _ low u hu hlow =>
          split
          · exact (codeUnit?_suffix hlow).trans ((suffix_cons_cons _ _ _).trans hrest)
          · exact hrest
      · exact hrest
    · exact hrest

theorem within_stringRest [Host] (done : List Char) (hs : s.length < opening.length) :
    Within depth s (stringRest opening done s hs) := by
  fun_induction stringRest opening done s hs with
  | case1 => trivial
  | case2 => exact List.suffix_cons _ _
  | case3 => trivial
  | case4 done r e hescape =>
    have hunit := within_unicodeEscape depth r
    rw [hescape] at hunit
    exact hunit.pass.of_suffix (suffix_cons_cons _ _ _)
  | case5 done r c t h hescape _ _ _ ih =>
    have hunit := within_unicodeEscape depth r
    rw [hescape] at hunit
    exact ih.of_suffix (List.IsSuffix.trans hunit (suffix_cons_cons _ _ _))
  | case6 => trivial
  | case7 done c r _ _ _ _ _ _ ih =>
    exact ih.of_suffix (suffix_cons_cons _ _ _)
  | case8 => trivial
  | case9 done c r _ _ _ _ _ ih => exact ih.of_suffix (List.suffix_cons _ _)

theorem within_string [Host] (depth : Nat) (r : List Char) :
    Within depth ('"' :: r) (stringRest ('"' :: r) [] r (Nat.lt_succ_self _)) :=
  (within_stringRest [] _).of_suffix (List.suffix_cons _ _)

theorem within_str [Host] (depth : Nat) (r : List Char) : Within depth ('"' :: r)
    (match stringRest ('"' :: r) [] r (Nat.lt_succ_self _) with
    | .error e => .error e
    | .ok (text, rest) => .ok (str text, rest)) := by
  have htext := within_string depth r
  split
  · next he =>
    rw [he] at htext
    exact htext.pass
  · next hr =>
    rw [hr] at htext
    exact htext

end Text

section Containers

variable {read : Reader Json} (hread : ∀ s, Within depth s (read s))
include hread

theorem within_elements (done : List Json) (hs : s.length < opening.length) :
    Within depth s (elements read opening done s hs) := by
  fun_induction elements read opening done s hs with
  | case1 done s hs e he =>
    have hvalue := hread s
    rw [he] at hvalue
    exact hvalue.pass
  | case2 done s hs v r hr hv t hskip ih =>
    have hvalue := hread s
    rw [hv] at hvalue
    exact ih.of_suffix ((skipSpace_suffix t).trans ((suffix_of_skipSpace hskip).trans hvalue))
  | case3 done s hs v r hr hv t hskip =>
    have hvalue := hread s
    rw [hv] at hvalue
    exact (suffix_of_skipSpace hskip).trans hvalue
  | case4 => trivial

theorem within_entry [Host] (s : List Char) : Within depth s (entry read s) := by
  unfold entry
  split
  · next r =>
    have hname := within_string depth r
    split
    · next he =>
      rw [he] at hname
      exact hname.pass
    · next name r' hr hr' =>
      rw [hr'] at hname
      split
      · next t hskip =>
        have ht : skipSpace t <:+ '"' :: r :=
          (skipSpace_suffix t).trans ((suffix_of_skipSpace hskip).trans hname)
        have hvalue := hread (skipSpace t)
        split
        · next he =>
          rw [he] at hvalue
          exact hvalue.pass.of_suffix ht
        · next hv =>
          rw [hv] at hvalue
          exact List.IsSuffix.trans hvalue ht
      · trivial
  · trivial

theorem within_entries [Host] (done : List (String × Json)) (hs : s.length < opening.length) :
    Within depth s (entries read opening done s hs) := by
  fun_induction entries read opening done s hs with
  | case1 done s hs e he =>
    have hentry := within_entry hread s
    rw [he] at hentry
    exact hentry.pass
  | case2 done s hs e r hr he t hskip ih =>
    have hentry := within_entry hread s
    rw [he] at hentry
    exact ih.of_suffix ((skipSpace_suffix t).trans ((suffix_of_skipSpace hskip).trans hentry))
  | case3 done s hs e r hr he t hskip =>
    have hentry := within_entry hread s
    rw [he] at hentry
    exact (suffix_of_skipSpace hskip).trans hentry
  | case4 => trivial

end Containers

theorem Within.bracket {outcome : Except Stop (α × Below opening)} (h : Within depth t outcome)
    (hts : t <:+ s) (hc : opens c = true) : Within (depth + 1) (c :: s) outcome := by
  match outcome, h with
  | .ok (_, rest), h => exact (List.IsSuffix.trans h hts).trans (List.suffix_cons c s)
  | .error (.limit _), h => exact (Limit.Exceeded.of_infix h hts.isInfix).cons hc
  | .error (.malformed _ _), _ => trivial

theorem exceeded_zero (container : Container) (hc : opens c = true) (s : List Char) :
    (Limit.depth container).Exceeded 0 (c :: s) := by
  rw [Limit.Exceeded, List.countP_cons_of_pos hc]
  exact Nat.succ_pos _

/-- Each bracket costs one level, and one bracket of the text pays for it. -/
theorem within_value [Host] (depth : Nat) (s : List Char) : Within depth s (value depth s) := by
  induction depth generalizing s with
  | zero =>
    unfold value
    split
    · trivial
    · exact within_str _ _
    · exact exceeded_zero .array rfl _
    · exact exceeded_zero .object rfl _
    · exact within_scalar _
  | succ depth ih =>
    unfold value
    split
    · trivial
    · exact within_str _ _
    · next r =>
      dsimp only
      split
      · next t hskip =>
        exact (suffix_of_skipSpace hskip).trans (List.suffix_cons _ _)
      · exact (within_elements ih [] _).bracket (skipSpace_suffix r) rfl
    · next r =>
      dsimp only
      split
      · next t hskip =>
        exact (suffix_of_skipSpace hskip).trans (List.suffix_cons _ _)
      · exact (within_entries ih [] _).bracket (skipSpace_suffix r) rfl
    · exact within_scalar _

theorem exceeded_of_readChars [Host] (h : readChars s = .error (.limit l)) :
    l.Exceeded Host.reading s := by
  have hdocument : document s = .error (.limit l) := by
    unfold readChars at h
    cases hs : document s with
    | ok v =>
      rw [hs] at h
      cases h
    | error e =>
      rw [hs] at h
      cases e with
      | malformed problem left => cases h
      | limit l' =>
        cases h
        rfl
  have hvalue := within_value Host.reading (skipSpace s)
  unfold document at hdocument
  split at hdocument
  · next he =>
    cases hdocument
    rw [he] at hvalue
    exact Limit.Exceeded.of_infix hvalue (skipSpace_suffix s).isInfix
  · split at hdocument <;> cases hdocument

theorem readChars_of_read_limit [Host] {text : String} (h : Json.read text = .error (.limit l)) :
    readChars text.toList = .error (.limit l) := by
  unfold Json.read at h
  split at h
  · cases h
  · exact h

theorem exceeds_of_read [Host] {text : String} (h : Json.read text = .error (.limit l)) :
    Exceeds Host.reading text.toList :=
  (exceeded_of_readChars (readChars_of_read_limit h)).exceeds

section Met

theorem numeral_of_long (hi : IsIntegerPart i) (hr : Ends r) (hlength : maxDigits < i.length)
    (negative : Bool) : numeral ((if negative then ['-'] else []) ++ (i ++ r)) =
      .error (.limit (.digits i.length)) := by
  have hinteger : ∃ h, integerPart? (takeMinus ((if negative then ['-'] else []) ++ (i ++ r))).2 =
      some (i, ⟨r, h⟩) := by
    rw [takeMinus_append hi]
    exact integerPart?_append hi hr.noDigit
  obtain ⟨h, hinteger⟩ := hinteger
  obtain ⟨hf, hfraction⟩ := optional_eq_none (fractionPart?_eq_none fun c hc => (hr c hc).2.1)
  obtain ⟨he, hexponent⟩ := optional_eq_none (exponentPart?_eq_none fun c hc => (hr c hc).2.2)
  have hvalue : ∀ negative, numeralValue negative i none none = .error (.limit (.digits i.length)) :=
    fun _ => if_pos hlength
  rw [numeral, hinteger]
  dsimp only
  generalize optional fractionPart? r = x at hfraction ⊢
  subst hfraction
  dsimp only
  generalize optional exponentPart? r = y at hexponent ⊢
  subst hexponent
  simp only [hvalue]

theorem read_of_value_limit [Host] (hspace : isSpace c = false) (hmark : c ≠ '\ufeff')
    (h : value Host.reading (c :: t) = .error (.limit l)) :
    Json.read (String.ofList (c :: t)) = .error (.limit l) := by
  have hchars : readChars (c :: t) = .error (.limit l) := by
    rw [← skipSpace_cons hspace] at h
    rw [readChars, document, h]
    rfl
  rw [Json.read, String.toList_ofList]
  split
  · next hcons => exact absurd (List.cons.inj hcons).1 hmark
  · exact hchars

theorem read_of_long [Host] (hi : IsIntegerPart i) (hr : Ends r) (hlength : maxDigits < i.length)
    (negative : Bool) :
    Json.read (String.ofList ((if negative then ['-'] else []) ++ (i ++ r))) =
      .error (.limit (.digits i.length)) := by
  have hscalar := scalar_eq_numeral (r := r) hi negative
  rw [numeral_of_long hi hr hlength negative] at hscalar
  obtain ⟨c, t, hcons, hopens⟩ := exists_sign_eq_cons hi negative r
  rw [hcons] at hscalar ⊢
  refine read_of_value_limit hopens.space hopens.mark ?_
  rw [value_eq_scalar hopens.quote hopens.bracket hopens.brace, hscalar]

theorem value_of_deep [Host] (depth : Nat) (r : List Char) :
    value depth (List.replicate (depth + 1) '[' ++ r) = .error (.limit (.depth .array)) := by
  induction depth with
  | zero => rfl
  | succ depth ih =>
    rw [List.replicate_succ, List.cons_append]
    have hskip : skipSpace (List.replicate (depth + 1) '[' ++ r) =
        List.replicate (depth + 1) '[' ++ r := skipSpace_cons rfl
    rw [← hskip] at ih
    rw [value]
    split
    · next h =>
      rw [hskip] at h
      cases h
    · rw [elements, ih]

theorem read_of_deep [Host] {n : Nat} (hn : Host.reading < n) (r : List Char) :
    Json.read (String.ofList (List.replicate n '[' ++ r)) = .error (.limit (.depth .array)) := by
  obtain ⟨k, rfl⟩ := Nat.exists_eq_add_of_le hn
  rw [List.replicate_add, List.append_assoc]
  exact read_of_value_limit rfl (by decide) (value_of_deep Host.reading _)

end Met

section Stops

variable [Host] {f : Layout} {k : Nat} {v : Json} {read : Reader Json}

def Stops (depth : Nat) (text : List Char) (l : Limit) : Prop :=
  ∀ r, value depth (text ++ r) = .error (.limit l)

theorem entry_quote_of_error (hf : ReadBack f.escape) (name : String) (h : read s = .error e)
    (hs : skipSpace s = s) : entry read (f.quote name ++ [':', ' '] ++ s) = .error e := by
  have hform : f.quote name ++ [':', ' '] ++ s =
      '"' :: (name.toList.flatMap f.escape ++ '"' :: ':' :: ' ' :: s) := by
    simp [Layout.quote]
  rw [hform]
  obtain ⟨hlt, hrest⟩ := stringRest_quoted hf name.toList (':' :: ' ' :: s)
  have hcolon : skipSpace (':' :: ' ' :: s) = ':' :: ' ' :: s := skipSpace_cons rfl
  have hspace : skipSpace (' ' :: s) = s := by
    rw [skipSpace, List.dropWhile_cons_of_pos rfl]
    exact hs
  have hread : read (skipSpace (' ' :: s)) = .error e := by
    rw [hspace]
    exact h
  rw [entry, hrest]
  dsimp only
  split
  · next t ht =>
    obtain ⟨-, rfl⟩ := List.cons.inj (hcolon.symm.trans ht)
    simp only [hread]
  · next hnot => exact absurd hcolon (hnot _)

theorem Stops.obj (hf : f.Readable) (h : Stops depth (f.chars (k + 1) v) l) (name : String)
    (es : List (String × Json)) :
    Stops (depth + 1) (f.chars k (.obj ((name, v) :: es))) l := by
  intro r
  have hform : f.chars k (.obj ((name, v) :: es)) ++ r = '\x7b' :: (f.inner (k + 1) ++
      (f.quote name ++ [':', ' '] ++ (f.chars (k + 1) v ++ (f.entryChars k es ++ r)))) := by
    simp [Layout.chars]
  have hskip : skipSpace (f.inner (k + 1) ++
      (f.quote name ++ [':', ' '] ++ (f.chars (k + 1) v ++ (f.entryChars k es ++ r)))) =
      f.quote name ++ [':', ' '] ++ (f.chars (k + 1) v ++ (f.entryChars k es ++ r)) := by
    rw [skipSpace_append (hf.inner (k + 1)), List.append_assoc, skipSpace_quote]
  have hentry := entry_quote_of_error hf.escape name (h (f.entryChars k es ++ r))
    (skipSpace_chars f (k + 1) v _)
  rw [← hskip] at hentry
  rw [hform, value]
  split
  · next t ht =>
    rw [hskip] at ht
    exact absurd (List.cons.inj ht).1 (by decide)
  · rw [entries, hentry]

theorem readChars_of_stops (h : Stops Host.reading (f.chars k v) l) :
    readChars (f.chars k v) = .error (.limit l) := by
  have hvalue := h []
  rw [← skipSpace_chars, List.append_nil] at hvalue
  rw [readChars, document, hvalue]
  rfl

end Stops

section Nested

def nested : Nat → Json
  | 0 => arr []
  | n + 1 => arr [nested n]

variable (n : Nat)

theorem fits_nested : Fits (n + 1) (nested n) := by
  induction n with
  | zero => simp [nested]
  | succ n ih => simpa [nested] using ih

theorem depth_nested : (nested n).depth = n + 1 := by
  induction n with
  | zero => simp [nested, Json.depth, itemsDepth]
  | succ n ih => simp [nested, Json.depth, itemsDepth, ih]

theorem mapFloats_nested (g : Float → Float) : (nested n).mapFloats g = nested n := by
  induction n with
  | zero => simp [nested]
  | succ n ih => simp [nested, ih]

theorem chars_nested (k : Nat) : Layout.compact.chars k (nested n) =
    List.replicate (n + 1) '[' ++ List.replicate (n + 1) ']' := by
  induction n generalizing k with
  | zero => rfl
  | succ n ih =>
    have hclose : List.replicate (n + 1) ']' ++ [']'] = List.replicate (n + 1 + 1) ']' :=
      List.replicate_succ'.symm
    rw [nested, Layout.chars, ih, Layout.itemChars, List.append_assoc, ← hclose]
    rfl

theorem stops_nested [Host] (k : Nat) :
    Stops n (Layout.compact.chars k (nested n)) (.depth .array) := by
  intro r
  rw [chars_nested, List.append_assoc]
  exact value_of_deep n _

end Nested

end Determinizer.Json
