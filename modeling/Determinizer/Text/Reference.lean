/-! Character references: an ampersand and the name or the number of a character. References by
number are all resolved. Of those by name only the ones for characters without a visible shape, for
the two slashes and for the full stop are; the rest stay as they are written, which is as visible
as what they stand for. -/

namespace Determinizer.Text

def namedReferences : List (String × Nat) :=
  [ ("ApplyFunction;", 0x2061), ("InvisibleComma;", 0x2063), ("InvisibleTimes;", 0x2062),
    ("MediumSpace;", 0x205f), ("NegativeMediumSpace;", 0x200b), ("NegativeThickSpace;", 0x200b),
    ("NegativeThinSpace;", 0x200b), ("NegativeVeryThinSpace;", 0x200b), ("NewLine;", 0x0a),
    ("NoBreak;", 0x2060), ("NonBreakingSpace;", 0xa0), ("Tab;", 0x09), ("ThickSpace;", 0x205f),
    ("ThinSpace;", 0x2009), ("VeryThinSpace;", 0x200a), ("ZeroWidthSpace;", 0x200b),
    ("af;", 0x2061), ("bsol;", 0x5c), ("emsp13;", 0x2004), ("emsp14;", 0x2005), ("emsp;", 0x2003),
    ("ensp;", 0x2002), ("hairsp;", 0x200a), ("ic;", 0x2063), ("it;", 0x2062), ("lrm;", 0x200e),
    ("nbsp;", 0xa0), ("numsp;", 0x2007), ("period;", 0x2e), ("puncsp;", 0x2008), ("rlm;", 0x200f),
    ("shy;", 0xad), ("sol;", 0x2f), ("thinsp;", 0x2009), ("zwj;", 0x200d), ("zwnj;", 0x200c) ]

def bareReferences : List (String × Nat) := [("nbsp", 0xa0), ("shy", 0xad)]

/-- What the numbers from 0x80 to 0x9f stand for, after an older set of characters. -/
def reassigned : List Nat :=
  [ 0x20ac, 0x81, 0x201a, 0x0192, 0x201e, 0x2026, 0x2020, 0x2021, 0x02c6, 0x2030, 0x0160, 0x2039,
    0x0152, 0x8d, 0x017d, 0x8f, 0x90, 0x2018, 0x2019, 0x201c, 0x201d, 0x2022, 0x2013, 0x2014,
    0x02dc, 0x2122, 0x0161, 0x203a, 0x0153, 0x9d, 0x017e, 0x0178 ]

def referenced (n : Nat) : Char :=
  if 0x80 ≤ n ∧ n ≤ 0x9f then Char.ofNat (reassigned.getD (n - 0x80) n)
  else if n = 0 ∨ (0xd800 ≤ n ∧ n ≤ 0xdfff) ∨ 0x10ffff < n then '\ufffd'
  else Char.ofNat n

def number (base : Nat) (digits : List Char) : Nat :=
  digits.foldl (fun n c => n * base +
    (if c.isDigit then c.toNat - '0'.toNat else c.toLower.toNat - 'a'.toNat + 10)) 0

def isHexDigit (c : Char) : Bool :=
  c.isDigit || ('a' ≤ c && c ≤ 'f') || ('A' ≤ c && c ≤ 'F')

def takeSpan (test : Char → Bool) : (limit : Nat) → List Char → List Char × List Char
  | limit + 1, c :: s =>
    if test c then
      let (taken, rest) := takeSpan test limit s
      (c :: taken, rest)
    else ([], c :: s)
  | _, s => ([], s)

def skipSemicolon : List Char → List Char
  | ';' :: s => s
  | s => s

def resolveName (name : String) : List Char :=
  match namedReferences.lookup name, bareReferences.find? fun r => name.startsWith r.1 with
  | some n, _ => [Char.ofNat n]
  | none, some (bare, n) => Char.ofNat n :: name.toList.drop bare.length
  | none, none => '&' :: name.toList

def reference? (s : List Char) : Option (List Char × List Char) :=
  match s with
  | '#' :: s =>
    let (digits, rest) := s.span Char.isDigit
    if digits ≠ [] then some ([referenced (number 10 digits)], skipSemicolon rest)
    else
      match s with
      | x :: s =>
        let (digits, rest) := s.span isHexDigit
        if (x = 'x' ∨ x = 'X') ∧ digits ≠ [] then
          some ([referenced (number 16 digits)], skipSemicolon rest)
        else none
      | [] => none
  | s =>
    let (name, rest) := takeSpan (fun c => !"\t\n\x0c <&#;".toList.contains c) 32 s
    if name = [] then none
    else
      match rest with
      | ';' :: rest => some (resolveName (String.ofList (name ++ [';'])), rest)
      | rest => some (resolveName (String.ofList name), rest)

/-- Resolves the references of a text. There are at most as many of them as `fuel`. -/
def resolveFrom : (fuel : Nat) → List Char → List Char
  | fuel + 1, '&' :: s =>
    match reference? s with
    | some (text, rest) => text ++ resolveFrom fuel rest
    | none => '&' :: resolveFrom fuel s
  | fuel + 1, c :: s => c :: resolveFrom fuel s
  | _, _ => []

def resolveReferences (s : List Char) : List Char := resolveFrom s.length s

end Determinizer.Text
