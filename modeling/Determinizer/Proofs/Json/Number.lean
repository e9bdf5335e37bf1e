import Mathlib
import Determinizer.Json.Reader.Scalar
import Determinizer.Json.Writer

/-! Written numbers are read back. The reader takes as many digits as there are, so a number is read
to its end if what follows cannot go on with it. An integer has its value again; of a double this
module says only that its text is read as some double. -/

namespace Determinizer.Json

variable {s r i f e ds : List Char}

def Ends (r : List Char) : Prop := ∀ c ∈ r.head?, isDigit c = false ∧ c ≠ '.' ∧ c ≠ 'e' ∧ c ≠ 'E'

def NoDigit (r : List Char) : Prop := ∀ c ∈ r.head?, isDigit c = false

theorem Ends.noDigit (h : Ends r) : NoDigit r := fun c hc => (h c hc).1

theorem takeDigits_append (hds : ∀ c ∈ ds, isDigit c = true) (hr : NoDigit r) :
    takeDigits (ds ++ r) = (ds, r) := by
  have hstop : r.takeWhile isDigit = [] ∧ r.dropWhile isDigit = r := by
    cases r with
    | nil => exact ⟨rfl, rfl⟩
    | cons c r =>
      have hc := hr c rfl
      simp [hc]
  rw [takeDigits, List.takeWhile_append_of_pos hds, List.dropWhile_append_of_pos hds, hstop.1,
    hstop.2, List.append_nil]

def IsIntegerPart (i : List Char) : Prop :=
  i = ['0'] ∨ ∃ c ds, i = c :: ds ∧ isDigit c = true ∧ c ≠ '0' ∧ ∀ d ∈ ds, isDigit d = true

def IsFractionPart (f : List Char) : Prop :=
  ∃ c ds, f = '.' :: c :: ds ∧ isDigit c = true ∧ ∀ d ∈ ds, isDigit d = true

def IsExponentPart (e : List Char) : Prop :=
  ∃ sign c ds, e = 'e' :: sign :: c :: ds ∧ (sign = '+' ∨ sign = '-') ∧ isDigit c = true ∧
    ∀ d ∈ ds, isDigit d = true

theorem IsIntegerPart.exists_cons (hi : IsIntegerPart i) :
    ∃ c ds, i = c :: ds ∧ isDigit c = true := by
  rcases hi with rfl | ⟨c, ds, rfl, hc, -, -⟩
  · exact ⟨'0', [], rfl, rfl⟩
  · exact ⟨c, ds, rfl, hc⟩

theorem integerPart?_append (hi : IsIntegerPart i) (hr : NoDigit r) :
    ∃ h, integerPart? (i ++ r) = some (i, ⟨r, h⟩) := by
  rcases hi with rfl | ⟨c, ds, rfl, hc, hc0, hds⟩
  · exact ⟨by simp, rfl⟩
  · have htake := takeDigits_append hds hr
    rw [List.cons_append]
    refine ⟨by simp, ?_⟩
    rw [integerPart?.eq_def]
    simp [hc, htake]

theorem fractionPart?_append (hf : IsFractionPart f) :
    ∃ ds, ∀ r, NoDigit r → ∃ h, fractionPart? (f ++ r) = some (ds, ⟨r, h⟩) := by
  obtain ⟨c, ds, rfl, hc, hds⟩ := hf
  refine ⟨c :: ds, fun r hr => ⟨by simp; omega, ?_⟩⟩
  have htake := takeDigits_append hds hr
  simp [fractionPart?, hc, htake]

theorem fractionPart?_eq_none (hr : ∀ c ∈ r.head?, c ≠ '.') : fractionPart? r = none := by
  unfold fractionPart?
  split
  · exact absurd rfl (hr '.' rfl)
  · rfl

theorem exponentPart?_append (he : IsExponentPart e) :
    ∃ n, ∀ r, NoDigit r → ∃ h, exponentPart? (e ++ r) = some (n, ⟨r, h⟩) := by
  obtain ⟨sign, c, ds, rfl, hsign, hc, hds⟩ := he
  have hsigned : ∀ r, takeSign (sign :: c :: (ds ++ r)) = (sign == '-', c :: (ds ++ r)) := by
    intro r
    rcases hsign with rfl | rfl <;> rfl
  refine ⟨if sign = '-' then -digitsValue (c :: ds) else digitsValue (c :: ds), fun r hr => ?_⟩
  have hall : ∀ d ∈ c :: ds, isDigit d = true := by simpa [hc] using hds
  have htake : takeDigits (c :: (ds ++ r)) = (c :: ds, r) := takeDigits_append hall hr
  refine ⟨by simp; omega, ?_⟩
  simp [exponentPart?, hsigned r, htake]

theorem exponentPart?_eq_none (hr : ∀ c ∈ r.head?, c ≠ 'e' ∧ c ≠ 'E') :
    exponentPart? r = none := by
  cases r with
  | nil => rfl
  | cons c r =>
    obtain ⟨he, hE⟩ := hr c rfl
    simp [exponentPart?, he, hE]

theorem optional_eq_none {α : Type} {part? : (s : List Char) → Option (α × Below s)}
    (h : part? r = none) : ∃ h, optional part? r = (none, ⟨r, h⟩) := by
  rw [optional, h]
  exact ⟨_, rfl⟩

theorem optional_eq_some {α : Type} {a : α} {part? : (s : List Char) → Option (α × Below s)}
    (h : ∃ h, part? s = some (a, ⟨r, h⟩)) : ∃ h, optional part? s = (some a, ⟨r, h⟩) := by
  obtain ⟨hlt, h⟩ := h
  rw [optional, h]
  exact ⟨_, rfl⟩

theorem numeral_of_parts {t u : List Char} {fraction : Option (List Char)}
    {exponent : Option Int} {v : Json} (hi : ∃ h, integerPart? (takeMinus s).2 = some (i, ⟨t, h⟩))
    (hf : ∃ h, optional fractionPart? t = (fraction, ⟨u, h⟩))
    (he : ∃ h, optional exponentPart? u = (exponent, ⟨r, h⟩))
    (hv : numeralValue (takeMinus s).1 i fraction exponent = .ok v) :
    ∃ h, numeral s = .ok (v, ⟨r, h⟩) := by
  obtain ⟨ht, hi⟩ := hi
  obtain ⟨hu, hf⟩ := hf
  obtain ⟨hr, he⟩ := he
  have hle := length_takeMinus_le s
  refine ⟨by omega, ?_⟩
  rw [numeral, hi]
  dsimp only
  generalize optional fractionPart? t = x at hf ⊢
  subst hf
  dsimp only
  generalize optional exponentPart? u = y at he ⊢
  subst he
  simp only [hv]

theorem optional_fractionPart? (hf : f = [] ∨ IsFractionPart f) :
    ∃ fraction : Option (List Char), (fraction.isNone ↔ f = []) ∧
      ∀ r, NoDigit r → (∀ c ∈ r.head?, c ≠ '.') →
        ∃ h, optional fractionPart? (f ++ r) = (fraction, ⟨r, h⟩) := by
  rcases hf with rfl | hf
  · exact ⟨none, by simp, fun r _ hr => optional_eq_none (fractionPart?_eq_none hr)⟩
  · obtain ⟨ds, hds⟩ := fractionPart?_append hf
    have hne : f ≠ [] := by
      obtain ⟨c, ds, rfl, -⟩ := hf
      exact List.cons_ne_nil _ _
    exact ⟨some ds, by simpa using hne, fun r hr _ => optional_eq_some (hds r hr)⟩

theorem optional_exponentPart? (he : e = [] ∨ IsExponentPart e) :
    ∃ exponent : Option Int, (exponent.isNone ↔ e = []) ∧
      ∀ r, Ends r → ∃ h, optional exponentPart? (e ++ r) = (exponent, ⟨r, h⟩) := by
  rcases he with rfl | he
  · refine ⟨none, by simp, fun r hr => optional_eq_none (exponentPart?_eq_none fun c hc => ?_)⟩
    exact (hr c hc).2.2
  · obtain ⟨n, hn⟩ := exponentPart?_append he
    have hne : e ≠ [] := by
      obtain ⟨sign, c, ds, rfl, -⟩ := he
      exact List.cons_ne_nil _ _
    exact ⟨some n, by simpa using hne, fun r hr => optional_eq_some (hn r hr.noDigit)⟩

theorem isDigit_iff {c : Char} : isDigit c = true ↔ c.isDigit = true := by
  rw [isDigit, Char.isDigit, Bool.and_eq_true, Bool.and_eq_true, decide_eq_true_eq,
    decide_eq_true_eq, decide_eq_true_eq, decide_eq_true_eq]
  rfl

theorem word?_eq_none {c : Char} (hc : isDigit c = true) (t : List Char) :
    word? (c :: t) = none ∧ word? ('-' :: c :: t) = none := by
  have hne : ∀ d, isDigit d = false → (d == c) = false := by
    intro d hd
    rw [beq_eq_false_iff_ne]
    rintro rfl
    exact absurd hc (by simp [hd])
  have hn := hne 'n' rfl
  have ht := hne 't' rfl
  have hf := hne 'f' rfl
  have hN := hne 'N' rfl
  have hI := hne 'I' rfl
  have hminus := hne '-' rfl
  constructor <;> simp [word?, words, List.isPrefixOf, hn, ht, hf, hN, hI, hminus]

theorem scalar_eq_numeral (hi : IsIntegerPart i) (negative : Bool) :
    scalar ((if negative then ['-'] else []) ++ (i ++ r)) =
      numeral ((if negative then ['-'] else []) ++ (i ++ r)) := by
  obtain ⟨c, ds, rfl, hc⟩ := hi.exists_cons
  have hword := word?_eq_none hc (ds ++ r)
  rw [scalar.eq_def]
  cases negative with
  | false => simp [hword.1]
  | true => simp [hword.2]

theorem takeMinus_append (hi : IsIntegerPart i) (negative : Bool) :
    takeMinus ((if negative then ['-'] else []) ++ (i ++ r)) = (negative, i ++ r) := by
  cases negative with
  | true => rfl
  | false =>
    obtain ⟨c, ds, rfl, hc⟩ := hi.exists_cons
    have hminus : c ≠ '-' := by
      rintro rfl
      exact absurd hc (by decide)
    simp [takeMinus.eq_def, hminus]

theorem isIntegerPart_toDigits (n : Nat) : IsIntegerPart (Nat.toDigits 10 n) := by
  induction n using Nat.strongRecOn with
  | ind n ih =>
    have hdigit : ∀ k < 10, isDigit k.digitChar = true ∧ (k.digitChar = '0' → k = 0) := by decide
    by_cases hn : n < 10
    · rw [Nat.toDigits_of_lt_base hn]
      obtain ⟨hd, hzero⟩ := hdigit n hn
      by_cases h0 : n = 0
      · subst h0
        exact .inl rfl
      · exact .inr ⟨n.digitChar, [], rfl, hd, fun h => h0 (hzero h), by simp⟩
    · rw [Nat.toDigits_of_base_le (by decide) (Nat.le_of_not_lt hn)]
      have hlast := (hdigit (n % 10) (Nat.mod_lt _ (by decide))).1
      rcases ih (n / 10) (by omega) with hzero | ⟨c, ds, hds, hc, hc0, hall⟩
      · have hval := Nat.ofDigitChars_toDigits (b := 10) (n := n / 10) (by decide) (by decide)
        rw [hzero] at hval
        have hquot : n / 10 = 0 := by rw [← hval]; decide
        omega
      · refine .inr ⟨c, ds ++ [(n % 10).digitChar], by rw [hds, List.cons_append], hc, hc0, ?_⟩
        intro d hd
        rcases List.mem_append.1 hd with hd | hd
        · exact hall d hd
        · rw [List.mem_singleton.1 hd]
          exact hlast

theorem digitsValue_toDigits (n : Nat) : digitsValue (Nat.toDigits 10 n) = n := by
  have hval := Nat.ofDigitChars_toDigits (b := 10) (n := n) (by decide) (by decide)
  rw [Nat.ofDigitChars] at hval
  simp only [Nat.mul_comm 10] at hval
  exact hval

theorem scalar_integer {n : Int} (hn : (Nat.toDigits 10 n.natAbs).length ≤ maxDigits)
    (hr : Ends r) : ∃ h, scalar (Layout.integer n ++ r) = .ok (int n, ⟨r, h⟩) := by
  have hi := isIntegerPart_toDigits n.natAbs
  have htext : Layout.integer n ++ r =
      (if decide (n < 0) then ['-'] else []) ++ (Nat.toDigits 10 n.natAbs ++ r) := by
    rw [Layout.integer, List.append_assoc]
    simp only [decide_eq_true_eq]
  obtain ⟨fraction, hnone, hf⟩ := optional_fractionPart? (f := []) (.inl rfl)
  obtain ⟨exponent, hnone', he⟩ := optional_exponentPart? (e := []) (.inl rfl)
  have hvalue : numeralValue (n < 0) (Nat.toDigits 10 n.natAbs) fraction exponent =
      .ok (int n) := by
    rw [numeralValue, if_pos ⟨hnone.2 rfl, hnone'.2 rfl⟩, if_neg (Nat.not_lt.2 hn)]
    simp only [digitsValue_toDigits, decide_eq_true_eq]
    congr 2
    split <;> omega
  rw [htext, scalar_eq_numeral hi]
  refine numeral_of_parts (t := r) (u := r) (i := Nat.toDigits 10 n.natAbs) ?_
    (hf r hr.noDigit fun c hc => (hr c hc).2.1) (he r hr) ?_
  · rw [takeMinus_append hi]
    exact integerPart?_append hi hr.noDigit
  · rw [takeMinus_append hi]
    exact hvalue

def IsDecimal (s : List Char) : Prop :=
  ∃ i f e, s = i ++ (f ++ e) ∧ IsIntegerPart i ∧ (f = [] ∨ IsFractionPart f) ∧
    (e = [] ∨ IsExponentPart e) ∧ ¬ (f = [] ∧ e = [])

theorem exists_scalar_decimal (hs : IsDecimal s) (negative : Bool) :
    ∃ x, ∀ r, Ends r →
      ∃ h, scalar ((if negative then ['-'] else []) ++ (s ++ r)) = .ok (float x, ⟨r, h⟩) := by
  obtain ⟨i, f, e, rfl, hi, hf, he, hne⟩ := hs
  have hnoDigit : ∀ r, Ends r → NoDigit (e ++ r) ∧ ∀ c ∈ (e ++ r).head?, c ≠ '.' := by
    intro r hr
    rcases he with rfl | ⟨sign, c, ds, rfl, -, -, -⟩
    · exact ⟨hr.noDigit, fun c hc => (hr c hc).2.1⟩
    · simp [NoDigit, isDigit]
  have hnoDigit' : ∀ r, Ends r → NoDigit (f ++ (e ++ r)) := by
    intro r hr
    rcases hf with rfl | ⟨c, ds, rfl, -, -⟩
    · exact (hnoDigit r hr).1
    · simp [NoDigit, isDigit]
  obtain ⟨fraction, hnone, hfraction⟩ := optional_fractionPart? hf
  obtain ⟨exponent, hnone', hexponent⟩ := optional_exponentPart? he
  have hvalue : ∃ x, numeralValue negative i fraction exponent = .ok (float x) := by
    rw [numeralValue, if_neg fun h => hne ⟨hnone.1 h.1, hnone'.1 h.2⟩]
    exact ⟨_, rfl⟩
  obtain ⟨x, hx⟩ := hvalue
  refine ⟨x, fun r hr => ?_⟩
  rw [List.append_assoc, List.append_assoc, scalar_eq_numeral hi]
  refine numeral_of_parts (t := f ++ (e ++ r)) (u := e ++ r) (i := i) ?_
    (hfraction _ (hnoDigit r hr).1 (hnoDigit r hr).2) (hexponent r hr) ?_
  · rw [takeMinus_append hi]
    exact integerPart?_append hi (hnoDigit' r hr)
  · rw [takeMinus_append hi]
    exact hx

end Determinizer.Json
