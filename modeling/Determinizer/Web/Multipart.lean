import Determinizer.Web.Message

/-! Taking a form apart. The content type names a boundary, which stands between the parts after two
hyphens; a line end in front of it belongs to it. A part starts with lines that tell what it is, up
to an empty line. -/

namespace Determinizer.Web.Multipart

def maxHeadBytes : Nat := 1024

def cutFrom (mark done : List UInt8) : List UInt8 → List (List UInt8)
  | [] => [done.reverse]
  | b :: bytes =>
    if mark.isPrefixOf (b :: bytes) then
      done.reverse :: cutFrom mark [] (bytes.drop (mark.length - 1))
    else cutFrom mark (b :: done) bytes
termination_by bytes => bytes.length
decreasing_by all_goals (simp only [List.length_drop, List.length_cons]; omega)

def cut (mark bytes : List UInt8) : List (List UInt8) := cutFrom mark [] bytes

def dropLineEnd (piece : List UInt8) : List UInt8 :=
  let rest := match piece.reverse with
    | 10 :: rest => rest
    | rest => rest
  match rest with
  | 13 :: rest => rest.reverse
  | rest => rest.reverse

def pieces (boundary : String) (bytes : List UInt8) : List (List UInt8) :=
  let all := cut (Encoding.Utf8.encode ('-' :: '-' :: boundary.toList)) bytes
  all.dropLast.map dropLineEnd ++ (all.drop (all.length - 1)).filter (· ≠ [])

def splitHead? (done : List UInt8) : List UInt8 → Option (List UInt8 × List UInt8)
  | 13 :: 10 :: 13 :: 10 :: bytes => some (done.reverse, bytes)
  | b :: bytes => splitHead? (b :: done) bytes
  | [] => none

/-- The name of a header line, and its value. Parameters are told apart before the name is, so that
the name ends at the first colon of what stands before all of them. A line that cannot be read does
not count, unless the sections of a parameter have no order. -/
def headerLine? (line : List UInt8) : Except FieldFault (Option (String × FieldValue)) :=
  match Encoding.Utf8.decode line with
  | .error _ => .ok none
  | .ok s =>
    match FieldValue.parse s with
    | .error (.mixedSections firstNumbered) => .error (.mixedSections firstNumbered)
    | .error _ => .ok none
    | .ok value =>
      match value.main.toList.span (· ≠ ':') with
      | (_, []) => .ok none
      | (name, _ :: main) =>
        .ok (some (String.ofList name, { value with main := String.ofList (Text.trim main) }))

def ofLines (lines : List (String × FieldValue)) (content : List UInt8) : Part :=
  match lines.reverse.lookup "content-disposition" with
  | none => .edge
  | some disposition =>
    { fault := none
      name := disposition.get? "name"
      filename := disposition.get? "filename"
      isBase64 := (lines.reverse.lookup "content-transfer-encoding").any (·.main = "base64")
      content := content }

def part (piece : List UInt8) : Part :=
  match splitHead? [] (piece.take maxHeadBytes) with
  | none => if piece.length < maxHeadBytes then .edge else .faulty .headTooLarge
  | some (head, _) =>
    match (cut [13, 10] head).mapM headerLine? with
    | .error fault => .faulty (.unreadableHead fault)
    | .ok lines => ofLines (lines.filterMap id) (piece.drop (head.length + 4))

def isBoundary (s : String) : Bool :=
  s.length ≤ 201 && s.toList.all (fun c => ' ' ≤ c && c ≤ '~') &&
    s.toList.getLast?.any (· ≠ ' ')

def boundary (t : MediaType) : Except BodyFault String :=
  if !t.text.startsWith "multipart/" then .error (.invalidType t.text)
  else if !t.text.toList.all (·.toNat < 0x80) then .error (.nonAsciiType t.text)
  else
    match t.value.get? "boundary" with
    | none => .error (.invalidBoundary none)
    | some b => if isBoundary b then .ok b else .error (.invalidBoundary (some b))

def parts (t : MediaType) (bytes : List UInt8) : Except BodyFault (List Part) := do
  return (pieces (← boundary t) bytes).map part

end Determinizer.Web.Multipart
