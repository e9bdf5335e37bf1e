import Determinizer.Proofs.Web.Bodies

/-! Requests that reach an endpoint. Of such a request the endpoint sees the body alone: bytes, or a
form taken apart. Three endpoints look for a value in it and one for a document. -/

namespace Determinizer.Web

structure Request.Posts (r : Request) (endpoint : Endpoint) (b : Body) : Prop where
  path : r.path = endpoint.path
  method : r.isPost = true
  body : ∃ t, MediaType.parse r.contentType = .ok t ∧ endpoint.body t r.body = .ok b

inductive Body.Holds (bytes : List UInt8) : Body → Prop
  | raw : bytes.length ≤ maxBodyBytes → Holds bytes (.raw bytes)
  | upload (filename : String) : Filename.isUsable filename = true →
    Holds bytes (.ofParts [.file "file" filename bytes])

variable {settings : Settings} {r : Request} {endpoint : Endpoint} {b : Body} {v : Json}
  {c : Config} {bytes : List UInt8}

theorem Endpoint.ofPath?_path (endpoint : Endpoint) : ofPath? endpoint.path = some endpoint := by
  cases endpoint <;> rfl

theorem respond_of_posts [Host] (h : r.Posts endpoint b) :
    respond settings r = .ok (some (endpoint.post settings b)) := by
  obtain ⟨t, htype, hbody⟩ := h.body
  have hdispatch : dispatch settings t r = some (endpoint.post settings b) := by
    simp [dispatch, h.path, h.method, hbody, Endpoint.ofPath?_path]
  rw [respond, htype, ← hdispatch]
  rfl

theorem answered_of_depth_le [Host] (h : v.depth ≤ 200) : answered (.ok v) = jsonResponse 200 v :=
  if_pos (h.trans Host.le_writing)

theorem respond_of_read_error [Host] (hr : r.Posts endpoint b) (hvalue : endpoint ≠ .importNfa)
    {f : Failure} (hread : b.read = .error f) :
    respond settings r = .ok (some (failed f)) := by
  have hobject : b.readObject = .error f := by
    rw [Body.readObject, hread]
    rfl
  have hnfa : b.readNfa = .error f := by
    rw [Body.readNfa, hobject]
    rfl
  rw [respond_of_posts hr]
  cases endpoint with
  | convert =>
    rw [Endpoint.post, convert, hnfa]
    rfl
  | importNfa => exact absurd rfl hvalue
  | exportNfa =>
    rw [Endpoint.post, download, exportNfa, hnfa]
    rfl
  | renderTable =>
    rw [Endpoint.post, hobject]
    rfl

def tooLarge : Response :=
  jsonResponse 500 (.obj [("error",
    .str "Server error: Request body exceeded settings.DATA_UPLOAD_MAX_MEMORY_SIZE.")])

theorem respond_of_too_large [Host] (hr : r.Posts endpoint b) (hvalue : endpoint ≠ .importNfa)
    (hb : ¬ b.WithinLimit) : respond settings r = .ok (some tooLarge) :=
  respond_of_read_error hr hvalue (Body.read_of_too_large hb)

def tooDeeplyNested : Response :=
  jsonResponse 500 (.obj [("error", .str ("Server error: maximum recursion depth exceeded while " ++
    "decoding a JSON array from a unicode string"))])

theorem respond_of_too_deep [Host] (hr : r.Posts endpoint b) (hvalue : endpoint ≠ .importNfa)
    (hb : b.WithinLimit) {s : List Char} (hs : b.characters? = some s)
    (hread : Json.readChars s = .error (.limit (.depth .array))) :
    respond settings r = .ok (some tooDeeplyNested) := by
  have hbroken : b.read = .error (.broken (.limit (.depth .array))) := by
    rw [Body.read_of_characters hb hs, hread]
    rfl
  exact respond_of_read_error hr hvalue hbroken

def Request.json (endpoint : Endpoint) (bytes : List UInt8) : Request :=
  ⟨endpoint.path, "POST", "application/json", .raw bytes⟩

def Request.upload (filename : String) (bytes : List UInt8) : Request :=
  ⟨Endpoint.importNfa.path, "POST", "multipart/form-data",
    .ofParts [.file "file" filename bytes]⟩

theorem MediaType.parse_json : MediaType.parse "application/json" =
    .ok ⟨"application/json", ⟨"application/json", []⟩, .text .utf8⟩ :=
  rfl

theorem MediaType.parse_form : MediaType.parse "multipart/form-data" =
    .ok ⟨"multipart/form-data", ⟨"multipart/form-data", []⟩, .text .utf8⟩ :=
  rfl

theorem Request.isPost_post (path contentType : String) (b : Body) :
    Request.isPost ⟨path, "POST", contentType, b⟩ = true := by
  change decide ("POST".toList.flatMap capitals = "POST".toList) = true
  decide

theorem Request.posts_json (endpoint : Endpoint) (bytes : List UInt8) :
    (Request.json endpoint bytes).Posts endpoint (.raw bytes) where
  path := rfl
  method := Request.isPost_post _ _ _
  body := by
    refine ⟨_, MediaType.parse_json, ?_⟩
    cases endpoint <;> rfl

theorem Request.posts_upload (filename : String) (bytes : List UInt8) :
    (Request.upload filename bytes).Posts .importNfa
      (.ofParts [.file "file" filename bytes]) where
  path := rfl
  method := Request.isPost_post _ _ _
  body := ⟨_, MediaType.parse_form, rfl⟩

theorem Filename.ne_empty_of_isUsable {filename : String} (h : isUsable filename = true) :
    filename ≠ "" := by
  rintro rfl
  exact absurd h (by decide)

namespace Form.Search

variable {filename : String}

theorem addFile_of_isUsable (h : Filename.isUsable filename = true) :
    addFile ⟨1, 0, 0, none, none⟩ (.text .utf8) "file" filename false bytes =
      .ok ⟨1, 0, 1, some ("file", bytes), none⟩ := by
  have hreread : Form.reread (.text .utf8) filename = .ok filename := rfl
  simp [addFile, hreread, h, bind, Except.bind, pure, Except.pure, maxFiles]

theorem step_file (h : Filename.isUsable filename = true) :
    step (.text .utf8) "file" ⟨1, 0, 0, none, none⟩ (.file "file" filename bytes) =
      .ok ⟨1, 0, 1, some ("file", bytes), none⟩ := by
  have hne := Filename.ne_empty_of_isUsable h
  have hfilter : (some filename).filter (· ≠ "") = some filename := by simp [hne]
  have hisFile : (Part.file "file" filename bytes).isFile = true := by
    simp [Part.isFile, Part.file, hne]
  have hname : Form.trimName "file" = "file" := by decide
  unfold step
  simp only [hisFile]
  simp only [Part.file, hfilter, hname]
  exact addFile_of_isUsable h

end Form.Search

theorem Form.file?_upload {filename : String} (h : Filename.isUsable filename = true) :
    Form.file? (.text .utf8) "file" [.edge, .file "file" filename bytes, .edge] =
      .ok (some bytes) := by
  have hfirst : Form.Search.step (.text .utf8) "file" .start .edge =
      .ok ⟨1, 0, 0, none, none⟩ := rfl
  have hlast : Form.Search.step (.text .utf8) "file" ⟨1, 0, 1, some ("file", bytes), none⟩ .edge =
      .ok ⟨2, 0, 1, none, some bytes⟩ := rfl
  have hsteps : [Part.edge, .file "file" filename bytes, .edge].foldlM
      (Form.Search.step (.text .utf8) "file") .start = .ok ⟨2, 0, 1, none, some bytes⟩ := by
    simp only [List.foldlM_cons, List.foldlM_nil, hfirst, Form.Search.step_file h, hlast, bind,
      Except.bind]
    rfl
  rw [Form.file?, hsteps]
  rfl

theorem Body.document_of_holds (h : b.Holds bytes) : b.document = .ok bytes := by
  cases h with
  | raw hsize =>
    change checkSize bytes = _
    rw [checkSize, if_neg (Nat.not_lt.2 hsize)]
  | upload filename husable =>
    simp only [Body.ofParts, Body.document, List.cons_append, List.nil_append,
      Form.file?_upload husable]

end Determinizer.Web
