import Determinizer.Json.Reader.Scalar
import Determinizer.Json.Reader.Text

/-! Reading values and documents. Values recurse on the nesting that is still allowed, the loops
over elements and entries on what is left of the text. Of entries with the same name the last value
counts, in the place of the first. -/

namespace Determinizer.Json

def elements (value : Reader Json) (opening : List Char) (done : List Json) (s : List Char)
    (hs : s.length < opening.length) : Except Stop (Json × Below opening) :=
  match value s with
  | .error e => .error e
  | .ok (v, ⟨r, hr⟩) =>
    match h : skipSpace r with
    | ',' :: t =>
      elements value opening (v :: done) (skipSpace t) (by
        have := length_le_of_skipSpace h
        have := length_skipSpace_le t
        omega)
    | ']' :: t => .ok (arr (v :: done).reverse, ⟨t, by have := length_le_of_skipSpace h; omega⟩)
    | t => .error (.malformed .expectedComma t.length)
termination_by s.length
decreasing_by
  have := length_le_of_skipSpace h
  have := length_skipSpace_le t
  omega

/-- Sets a field of an object: a new one comes last, a known one keeps its place. -/
def setEntry (name : String) (v : Json) : List (String × Json) → List (String × Json)
  | [] => [(name, v)]
  | e :: entries => if e.1 = name then (name, v) :: entries else e :: setEntry name v entries

def ofEntries (written : List (String × Json)) : Json :=
  obj (written.foldl (fun entries e => setEntry e.1 e.2 entries) [])

def entry [Host] (value : Reader Json) (s : List Char) : Except Stop ((String × Json) × Below s) :=
  match s with
  | '"' :: r =>
    match stringRest ('"' :: r) [] r (Nat.lt_succ_self _) with
    | .error e => .error e
    | .ok (name, ⟨r, hr⟩) =>
      match h : skipSpace r with
      | ':' :: t =>
        match value (skipSpace t) with
        | .error e => .error e
        | .ok (v, ⟨u, hu⟩) =>
          .ok ((name, v), ⟨u, by
            have := length_le_of_skipSpace h
            have := length_skipSpace_le t
            omega⟩)
      | t => .error (.malformed .expectedColon t.length)
  | s => .error (.malformed .expectedName s.length)

def entries [Host] (value : Reader Json) (opening : List Char) (done : List (String × Json))
    (s : List Char) (hs : s.length < opening.length) : Except Stop (Json × Below opening) :=
  match entry value s with
  | .error e => .error e
  | .ok (e, ⟨r, hr⟩) =>
    match h : skipSpace r with
    | ',' :: t =>
      entries value opening (e :: done) (skipSpace t) (by
        have := length_le_of_skipSpace h
        have := length_skipSpace_le t
        omega)
    | '}' :: t =>
      .ok (ofEntries (e :: done).reverse, ⟨t, by have := length_le_of_skipSpace h; omega⟩)
    | t => .error (.malformed .expectedComma t.length)
termination_by s.length
decreasing_by
  have := length_le_of_skipSpace h
  have := length_skipSpace_le t
  omega

def value [Host] (depth : Nat) (s : List Char) : Except Stop (Json × Below s) :=
  match s with
  | [] => .error (.malformed .expectedValue 0)
  | '"' :: r =>
    match stringRest ('"' :: r) [] r (Nat.lt_succ_self _) with
    | .error e => .error e
    | .ok (text, rest) => .ok (str text, rest)
  | '[' :: r =>
    match depth with
    | 0 => .error (.limit (.depth .array))
    | depth + 1 =>
      match h : skipSpace r with
      | ']' :: t => .ok (arr [], ⟨t, Nat.lt_succ_of_lt (length_le_of_skipSpace h)⟩)
      | _ => elements (value depth) ('[' :: r) [] (skipSpace r)
          (Nat.lt_succ_of_le (length_skipSpace_le r))
  | '{' :: r =>
    match depth with
    | 0 => .error (.limit (.depth .object))
    | depth + 1 =>
      match h : skipSpace r with
      | '}' :: t => .ok (obj [], ⟨t, Nat.lt_succ_of_lt (length_le_of_skipSpace h)⟩)
      | _ => entries (value depth) ('{' :: r) [] (skipSpace r)
          (Nat.lt_succ_of_le (length_skipSpace_le r))
  | s => scalar s

def document [Host] (s : List Char) : Except Stop Json :=
  match value Host.reading (skipSpace s) with
  | .error e => .error e
  | .ok (v, rest) =>
    match skipSpace rest.val with
    | [] => .ok v
    | r => .error (.malformed .extraData r.length)

def Stop.inText (text : List Char) : Stop → ReadError
  | malformed problem left => .malformed problem (Place.at text (text.length - left))
  | limit l => .limit l

def readChars [Host] (s : List Char) : Except ReadError Json :=
  (document s).mapError (Stop.inText s)

def read [Host] (text : String) : Except ReadError Json :=
  match text.toList with
  | '\uFEFF' :: s => .error (.malformed .byteOrderMark (Place.at ('\uFEFF' :: s) 0))
  | s => readChars s

end Determinizer.Json
