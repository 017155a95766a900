import EpsDapp.Billing.Grants
import EpsDapp.Intake.Recovery

/-!
# Uploaded documents

`POST /api/upload` checks a document by the type it is declared as and by its own
bytes, encrypts it into the object store, and answers with what it can be decrypted
with. Documents are also stored by intakes. Each document is put under a key that is
drawn for it, so no object is ever overwritten: whatever is uploaded and staged at
the same time and later, the answer to an upload decrypts its document.
-/

set_option autoImplicit false

namespace EpsDapp

open Effect ServerProgram

/-! ## The route -/

/-- `MAX_UPLOAD_BYTES` -/
def maxUploadBytes : ℕ := 25 * 1024 * 1024

/-- The part `file` of a form: its declared type, and its bytes. -/
structure UploadedFile where
  type : String
  bytes : Bytes

/-- What `fileTypeFromBuffer` recognizes. -/
structure FileType where
  ext : String
  mime : String

/-- A property of the object `ALLOWED_MIME`: a list of its own, or one that every object
inherits. -/
inductive AllowedMime
  | signatures (mimes : List String)
  | inherited

/-- The names that every object inherits. -/
def inheritedNames : List String :=
  ["constructor", "__defineGetter__", "__defineSetter__", "hasOwnProperty", "__lookupGetter__",
    "__lookupSetter__", "isPrototypeOf", "propertyIsEnumerable", "toString", "valueOf", "__proto__",
    "toLocaleString"]

/-- `ALLOWED_MIME[declaredMime]` -/
def allowedMime (declaredMime : String) : Option AllowedMime :=
  match declaredMime with
  | "application/pdf" => some (.signatures ["application/pdf"])
  | "application/msword" => some (.signatures ["application/x-cfb"])
  | "application/vnd.openxmlformats-officedocument.wordprocessingml.document" =>
      some (.signatures ["application/vnd.openxmlformats-officedocument.wordprocessingml.document",
        "application/zip"])
  | _ => if declaredMime ∈ inheritedNames then some .inherited else none

/-- An answer of the route. -/
inductive UploadResponse
  | error (code : ℕ) (message : String)
  | ok (mime ext : String) (size : ℕ) (document : StoredDocument)

/-- `POST /api/upload`; `form` is absent when the body is no form, and has no file when its
field `file` is missing or none. -/
def postUpload (env : StorageEnv) (crypto : NodeCrypto)
    (fileTypeFromBuffer : Bytes → Option FileType) (form : Option (Option UploadedFile)) :
    ServerProgram UploadResponse :=
  match form with
  | none => pure (.error 400 "Expected multipart/form-data with a 'file' field.")
  | some none => pure (.error 400 "Missing 'file' field in multipart body.")
  | some (some file) =>
      if maxUploadBytes < file.bytes.length then
        pure (.error 413
          ("File exceeds the " ++ toString maxUploadBytes ++ " byte (25 MB) limit."))
      else
        match allowedMime file.type with
        | none =>
            pure (.error 415 "Unsupported file type. Allowed: PDF, Word (.doc), Word (.docx).")
        | some allowed =>
            match fileTypeFromBuffer file.bytes with
            | none => pure (.error 415 "File contents do not match the declared file type.")
            | some sniffed =>
                match allowed with
                | .inherited => throw (.error "allowedSignatures.includes is not a function")
                | .signatures mimes =>
                    if sniffed.mime ∈ mimes then do
                      let stored ← storeDocument env crypto file.bytes
                      pure (.ok file.type sniffed.ext file.bytes.length stored)
                    else pure (.error 415 "File contents do not match the declared file type.")

/-- The file is small enough, and its bytes are of its declared type. -/
structure UploadedFile.Passes (fileTypeFromBuffer : Bytes → Option FileType) (file : UploadedFile)
    (sniffed : FileType) : Prop where
  small : file.bytes.length ≤ maxUploadBytes
  sniffs : fileTypeFromBuffer file.bytes = some sniffed
  allowed : ∃ mimes, allowedMime file.type = some (.signatures mimes) ∧ sniffed.mime ∈ mimes

/-! ## Uploads and intakes at once -/

/-- What may be asked for. -/
inductive StorageRequest
  | upload (form : Option (Option UploadedFile))
  | intake (input : CreateServiceRequestInput)

/-- What is answered. -/
inductive StorageReply
  | uploaded (response : UploadResponse)
  | staged (staged : StagedServiceRequest)

/-- The database, the object store, and the identifiers that have been drawn. -/
structure StorageWorld where
  db : Db
  objects : ObjectStore
  drawn : List String

/-- The object under a key is the one that was put there last. -/
def ObjectStore.object? (objects : ObjectStore) (key : String) : Option Bytes :=
  objects.reverse.lookup key

/-- The answers to the server. An identifier is drawn once, and an object may have been put
although the call fails. -/
def uploadAnswers : Answers serverSig Failure StorageWorld
  | s, .randomUUID, s', r => s'.db = s.db ∧ s'.objects = s.objects ∧
      ∃ uuid ∉ s.drawn, s'.drawn = uuid :: s.drawn ∧ r = .ok uuid
  | s, .putObject key body, s', r => s'.db = s.db ∧ s'.drawn = s.drawn ∧
      (s'.objects = s.objects ++ [(key, body)] ∨
        (s'.objects = s.objects ∧ ∃ message, r = .error (.error message)))
  | s, c, s', r => billingAnswers s.db c s'.db r ∧ s'.objects = s.objects ∧ s'.drawn = s.drawn

/-- What a thread has drawn and not put under yet, and what it has put last. -/
structure PutMark where
  uuid : Option String := none
  put : Option (String × Bytes) := none

namespace PutMark

/-- The mark after a call is answered. -/
def observe (m : PutMark) : (c : ServerCall) → Except Failure c.Resp → PutMark
  | .randomUUID, .ok uuid => { m with uuid := some uuid }
  | .putObject key body, .ok _ => ⟨none, some (key, body)⟩
  | .putObject _ _, .error _ => { m with uuid := none }
  | _, _ => m

/-- The mark a call and its answer lead to. -/
def Follows : Answers serverSig Failure PutMark := fun m c m' r => m' = m.observe c r

end PutMark

section Storage

variable (env : StorageEnv) (crypto : NodeCrypto) (fileTypeFromBuffer : Bytes → Option FileType)

/-- The program of a request. -/
def StorageRequest.program : StorageRequest → ServerProgram StorageReply
  | upload form => StorageReply.uploaded <$> postUpload env crypto fileTypeFromBuffer form
  | intake input => StorageReply.staged <$> createServiceRequest env crypto input

/-- The documents that a request may store: that of an intake, and that of an upload which
passes the checks. -/
def StorageRequest.Stores : StorageRequest → Bytes → Prop
  | upload form, document => ∃ file sniffed, form = some (some file) ∧ document = file.bytes ∧
      file.Passes fileTypeFromBuffer sniffed
  | intake input, document => document = input.document

/-- The thread `i` serves the request `request i`, any number of times. -/
def storage {ι : Type} (request : ι → StorageRequest) :
    Machine serverSig Failure StorageReply ι PutMark StorageWorld where
  idle := {}
  observe m c _ r := m.observe c r
  answers _ := uploadAnswers
  entry i p := p = (request i).program env crypto fileTypeFromBuffer
  environment s s' := s'.objects = s.objects ∧ s'.drawn = s.drawn

end Storage

/-! ## One request -/

section Request

variable {env : StorageEnv} {crypto : NodeCrypto} {fileTypeFromBuffer : Bytes → Option FileType}

/-- An object that is the ciphertext of a document in `stores`. -/
def Encrypts (env : StorageEnv) (crypto : NodeCrypto) (stores : Bytes → Prop) (body : Bytes) :
    Prop :=
  ∃ document key iv, stores document ∧ loadKey env = .ok key ∧
    body = (crypto.aes256gcm key iv document).1

/-- An object is put under the identifier that was drawn for it, encrypted. -/
def PutMark.Allows (env : StorageEnv) (crypto : NodeCrypto) (stores : Bytes → Prop) (m : PutMark) :
    ServerCall → Prop
  | .putObject key body => (∃ uuid, m.uuid = some uuid ∧ key = "documents/" ++ uuid) ∧
      Encrypts env crypto stores body
  | _ => True

/-- What a stored document is decrypted with was put. -/
structure PutMark.Has (env : StorageEnv) (crypto : NodeCrypto) (m : PutMark)
    (stored : StoredDocument) (document : Bytes) : Prop where
  sha256 : stored.sha256 = crypto.digest document
  put : ∃ ciphertext, m.put = some (stored.objectKey, ciphertext) ∧
    decryptDocument env crypto ciphertext stored.iv stored.authTag = .ok document

/-- With the vector and the tag of the encryption, the ciphertext decrypts. -/
theorem decryptDocument_aes256gcm {key : Bytes} (hkey : loadKey env = .ok key)
    (iv document : Bytes) :
    decryptDocument env crypto (crypto.aes256gcm key iv document).1 (hexEncode iv)
      (hexEncode (crypto.aes256gcm key iv document).2) = .ok document := by
  have hopen : crypto.gcmOpen key iv (crypto.aes256gcm key iv document).1
      (crypto.aes256gcm key iv document).2 = some document :=
    (crypto.gcmOpen_eq_some_iff _ _ _ _ _).2 rfl
  simp only [decryptDocument, hkey, hexDecode_hexEncode]
  simp only [bind, Except.bind, hopen]

theorem storeDocument_conforms {stores : Bytes → Prop} {document : Bytes} (h : stores document)
    (m : PutMark) :
    (storeDocument env crypto document).wp PutMark.Follows (PutMark.Allows env crypto stores)
      (fun r m' => ∀ stored, r = .ok stored → m'.Has env crypto stored document) m := by
  rw [storeDocument]
  refine Program.wp_seq (R := fun r _ => r = loadKey env) rfl ?_ ?_
  · intro key m hkey
    refine (Program.wp_bind _ _ _ _).2 ((Program.wp_perform _ _ _).2 ⟨trivial, ?_⟩)
    rintro _ (e | iv) rfl
    · exact fun _ h => by cases h
    refine (Program.wp_bind _ _ _ _).2 ((Program.wp_perform _ _ _).2 ⟨trivial, ?_⟩)
    rintro _ (e | uuid) rfl
    · exact fun _ h => by cases h
    let R (_ : Except Failure Unit) (m' : PutMark) : Prop := m'.uuid = some uuid
    refine Program.wp_seq (R := R) ?_ ?_ ?_
    · change some uuid = some uuid
      rfl
    · intro _ m huuid
      refine (Program.wp_bind _ _ _ _).2 ((Program.wp_perform _ _ _).2 ⟨?_, ?_⟩)
      · exact ⟨⟨uuid, huuid, rfl⟩, document, key, iv, h, hkey.symm, rfl⟩
      · rintro _ (e | _) rfl
        · exact fun _ h => by cases h
        · rintro _ ⟨⟩
          exact ⟨rfl, _, rfl, decryptDocument_aes256gcm hkey.symm iv document⟩
    · exact fun _ _ _ _ h => by cases h
  · exact fun _ _ _ _ h => by cases h

/-- What the request is answered is so. -/
def StorageRequest.Answers (env : StorageEnv) (crypto : NodeCrypto)
    (fileTypeFromBuffer : Bytes → Option FileType) (request : StorageRequest)
    (r : Except Failure StorageReply) (m : PutMark) : Prop :=
  ∀ mime ext size stored, r = .ok (.uploaded (.ok mime ext size stored)) →
    ∃ file sniffed, request = .upload (some (some file)) ∧ file.Passes fileTypeFromBuffer sniffed ∧
      mime = file.type ∧ ext = sniffed.ext ∧ size = file.bytes.length ∧
        m.Has env crypto stored file.bytes

theorem postUpload_conforms (form : Option (Option UploadedFile)) (m : PutMark) :
    (postUpload env crypto fileTypeFromBuffer form).wp PutMark.Follows
      (PutMark.Allows env crypto ((StorageRequest.upload form).Stores fileTypeFromBuffer))
      (fun r m' => ∀ mime ext size stored, r = .ok (.ok mime ext size stored) →
        ∃ file sniffed, form = some (some file) ∧ file.Passes fileTypeFromBuffer sniffed ∧
          mime = file.type ∧ ext = sniffed.ext ∧ size = file.bytes.length ∧
            m'.Has env crypto stored file.bytes) m := by
  rcases form with _ | _ | file
  · exact fun _ _ _ _ h => by cases h
  · exact fun _ _ _ _ h => by cases h
  simp only [postUpload]
  split
  · exact fun _ _ _ _ h => by cases h
  rename_i hsmall
  split
  · exact fun _ _ _ _ h => by cases h
  rename_i allowed hallowed
  split
  · exact fun _ _ _ _ h => by cases h
  rename_i sniffed hsniffed
  split
  · exact fun _ _ _ _ h => by cases h
  rename_i mimes
  split
  · rename_i hmime
    have hpasses : file.Passes fileTypeFromBuffer sniffed :=
      ⟨not_lt.1 hsmall, hsniffed, mimes, hallowed, hmime⟩
    refine Program.wp_seq (storeDocument_conforms ⟨file, sniffed, rfl, rfl, hpasses⟩ m) ?_ ?_
    · intro stored m' hstored mime ext size stored' h
      cases h
      exact ⟨file, sniffed, rfl, hpasses, rfl, rfl, rfl, hstored stored rfl⟩
    · exact fun _ _ _ _ _ _ _ h => by cases h
  · exact fun _ _ _ _ h => by cases h

theorem createServiceRequest_conforms (input : CreateServiceRequestInput) (m : PutMark) :
    (createServiceRequest env crypto input).wp PutMark.Follows
      (PutMark.Allows env crypto ((StorageRequest.intake input).Stores fileTypeFromBuffer))
      (fun _ _ => True) m := by
  have hquiet : ∀ {α : Type} {p : ServerProgram α} (m : PutMark),
      (p.Only fun c => ∀ m : PutMark, m.Allows env crypto (· = input.document) c) →
        p.wp PutMark.Follows (PutMark.Allows env crypto (· = input.document))
          (fun _ _ => True) m := fun m h =>
    h.wp (J := fun _ => True) (fun _ _ _ _ _ _ _ => trivial) (fun m _ hc _ => hc m) trivial
  refine Program.wp_seq (hquiet m ?_) ?_ fun _ _ _ => trivial
  · exact Program.only_bind ((Program.only_perform _).2 fun _ => trivial) fun _ => trivial
  intro token m _
  refine Program.wp_seq (hquiet m ?_) ?_ fun _ _ _ => trivial
  · refine (Program.only_lift _).mono ?_
    rintro _ ⟨c, rfl⟩ m
    trivial
  intro _ m _
  have hstore := @storeDocument_conforms env crypto (· = input.document) input.document rfl m
  refine Program.wp_seq hstore ?_ fun _ _ _ => trivial
  intro stored m _
  refine hquiet m ?_
  refine Program.only_bind ((Program.only_perform _).2 fun _ => trivial) fun attestedAt => ?_
  refine Program.only_bind ((Program.only_perform _).2 fun _ => trivial) fun id => ?_
  exact Program.only_bind ((Program.only_perform _).2 fun _ => trivial) fun _ => trivial

theorem StorageRequest.conforms (request : StorageRequest) :
    (request.program env crypto fileTypeFromBuffer).wp PutMark.Follows
      (PutMark.Allows env crypto (request.Stores fileTypeFromBuffer))
      (request.Answers env crypto fileTypeFromBuffer) {} := by
  cases request with
  | upload form =>
      refine (Program.wp_map _ _ _ _).2 (Program.wp_post _ ?_ (postUpload_conforms form {}))
      rintro (e | response) m h mime ext size stored hr
      · cases hr
      · cases hr
        obtain ⟨file, sniffed, rfl, hfile⟩ := h mime ext size stored rfl
        exact ⟨file, sniffed, rfl, hfile⟩
  | intake input =>
      refine (Program.wp_map _ _ _ _).2
        (Program.wp_post _ ?_ (createServiceRequest_conforms input {}))
      rintro (e | staged) m _ mime ext size stored hr
      · cases hr
      · cases hr

end Request

/-! ## Any interleaving -/

/-- The object that is there alone under its key is found. -/
theorem ObjectStore.object?_of_mem {objects : ObjectStore} {key : String} {body : Bytes}
    (hkeys : (objects.map Prod.fst).Nodup) (h : (key, body) ∈ objects) :
    objects.object? key = some body := by
  have hnodup : (objects.reverse.map Prod.fst).Nodup := by
    rw [List.map_reverse]
    exact List.nodup_reverse.2 hkeys
  rw [object?]
  have hmem : (key, body) ∈ objects.reverse := List.mem_reverse.2 h
  generalize objects.reverse = entries at hnodup hmem
  induction entries with
  | nil => cases hmem
  | cons entry entries ih =>
      obtain ⟨key', body'⟩ := entry
      rw [List.map_cons, List.nodup_cons] at hnodup
      rcases List.mem_cons.1 hmem with heq | hmem
      · cases heq
        simp
      · have hne : (key == key') = false :=
          beq_eq_false_iff_ne.2 fun heq => hnodup.1 (List.mem_map.2 ⟨_, hmem, heq⟩)
        rw [List.lookup_cons, hne]
        exact ih hnodup.2 hmem

section Pool

variable {ι : Type} {env : StorageEnv} {crypto : NodeCrypto}
  {fileTypeFromBuffer : Bytes → Option FileType} {request : ι → StorageRequest}

abbrev StoragePool (ι : Type) := Pool serverSig Failure StorageReply ι PutMark StorageWorld

/-- Each thread serves its request. -/
def StoragePool.Serve (env : StorageEnv) (crypto : NodeCrypto)
    (fileTypeFromBuffer : Bytes → Option FileType) (request : ι → StorageRequest)
    (c : StoragePool ι) : Prop :=
  ∀ i, Machine.Ends PutMark.Follows (PutMark.Allows env crypto
    ((request i).Stores fileTypeFromBuffer)) ((request i).Answers env crypto fileTypeFromBuffer) i c

/-- The objects of a world: each is put under an identifier of its own, and is the ciphertext of
a document that some request may store. -/
structure StorageWorld.Inv (env : StorageEnv) (crypto : NodeCrypto)
    (fileTypeFromBuffer : Bytes → Option FileType) (request : ι → StorageRequest)
    (s : StorageWorld) : Prop where
  keys : (s.objects.map Prod.fst).Nodup
  drawn : ∀ object ∈ s.objects, ∃ uuid ∈ s.drawn, object.1 = "documents/" ++ uuid
  encrypted : ∀ object ∈ s.objects, ∃ i,
    Encrypts env crypto ((request i).Stores fileTypeFromBuffer) object.2

/-- An identifier that has been drawn is not put under yet, and what has been put is there. -/
structure PutMark.Valid (m : PutMark) (s : StorageWorld) : Prop where
  drawn : ∀ uuid, m.uuid = some uuid → uuid ∈ s.drawn
  free : ∀ uuid, m.uuid = some uuid → ∀ object ∈ s.objects, object.1 ≠ "documents/" ++ uuid
  put : ∀ object, m.put = some object → object ∈ s.objects

/-- What holds throughout. -/
structure StoragePool.Inv (env : StorageEnv) (crypto : NodeCrypto)
    (fileTypeFromBuffer : Bytes → Option FileType) (request : ι → StorageRequest)
    (c : StoragePool ι) : Prop where
  serve : c.Serve env crypto fileTypeFromBuffer request
  world : c.world.Inv env crypto fileTypeFromBuffer request
  valid : ∀ i t, c.thread i = some t → t.mark.Valid c.world
  own : ∀ i j t t' uuid, c.thread i = some t → c.thread j = some t' → t.mark.uuid = some uuid →
    t'.mark.uuid = some uuid → i = j

/-- What a call of a thread does to the objects and the identifiers. -/
theorem uploadAnswers_cases {s s' : StorageWorld} {c : ServerCall} {r : Except Failure c.Resp}
    (h : uploadAnswers s c s' r) (m : PutMark) :
    (∃ uuid ∉ s.drawn, s'.drawn = uuid :: s.drawn ∧ s'.objects = s.objects ∧
      m.observe c r = { m with uuid := some uuid }) ∨
    (∃ key body, c = .putObject key body ∧ s'.drawn = s.drawn ∧
      (m.observe c r).uuid = none ∧
        ((s'.objects = s.objects ++ [(key, body)] ∧
            ∀ object, (m.observe c r).put = some object →
              object = (key, body) ∨ m.put = some object) ∨
          (s'.objects = s.objects ∧ (m.observe c r).put = m.put))) ∨
    (s'.drawn = s.drawn ∧ s'.objects = s.objects ∧ m.observe c r = m) := by
  cases c with
  | randomUUID =>
      obtain ⟨-, hobjects, uuid, hfresh, hdrawn, rfl⟩ := h
      exact Or.inl ⟨uuid, hfresh, hdrawn, hobjects, rfl⟩
  | putObject key body =>
      obtain ⟨-, hdrawn, hobjects⟩ := h
      refine Or.inr (Or.inl ⟨key, body, rfl, hdrawn, ?_, ?_⟩)
      · rcases r with e | _ <;> rfl
      · rcases hobjects with hobjects | ⟨hobjects, message, rfl⟩
        · refine Or.inl ⟨hobjects, fun object hput => ?_⟩
          rcases r with e | _
          · exact Or.inr hput
          · exact Or.inl (Option.some.inj hput).symm
        · exact Or.inr ⟨hobjects, rfl⟩
  | _ => exact Or.inr (Or.inr ⟨h.2.2, h.2.1, rfl⟩)

/-- Identifiers name their objects. -/
theorem documents_inj {uuid uuid' : String} (h : "documents/" ++ uuid = "documents/" ++ uuid') :
    uuid = uuid' := by
  have hlist := congrArg String.toList h
  rw [String.toList_append, String.toList_append] at hlist
  exact String.toList_inj.1 (List.append_cancel_left hlist)

/-- A mark stays valid while nothing is put under its identifier. -/
theorem PutMark.Valid.mono {m : PutMark} {s s' : StorageWorld} (h : m.Valid s)
    (hdrawn : s.drawn ⊆ s'.drawn) (hobjects : s.objects ⊆ s'.objects)
    (hnew : ∀ object ∈ s'.objects, object ∈ s.objects ∨
      ∀ uuid, m.uuid = some uuid → object.1 ≠ "documents/" ++ uuid) : m.Valid s' where
  drawn uuid huuid := hdrawn (h.drawn uuid huuid)
  free uuid huuid object hobject := by
    rcases hnew object hobject with hold | hnew
    · exact h.free uuid huuid object hold
    · exact hnew uuid huuid
  put object hobject := hobjects (h.put object hobject)

theorem PutMark.valid_idle (s : StorageWorld) : PutMark.Valid {} s :=
  ⟨by simp, by simp, by simp⟩

/-- What is to be shown of a call of the thread `i`: the world keeps what holds of it, every mark
stays valid, the new one included, and no identifier is held twice. -/
structure StoragePool.Keeps (env : StorageEnv) (crypto : NodeCrypto)
    (fileTypeFromBuffer : Bytes → Option FileType) (request : ι → StorageRequest)
    (c : StoragePool ι) (i : ι) (s' : StorageWorld) (m' : PutMark) : Prop where
  world : s'.Inv env crypto fileTypeFromBuffer request
  valid : m'.Valid s'
  others : ∀ j t, j ≠ i → c.thread j = some t → t.mark.Valid s'
  own : ∀ j t uuid, j ≠ i → c.thread j = some t → t.mark.uuid = some uuid → m'.uuid ≠ some uuid

section Act

variable {c : StoragePool ι} {i : ι} {m : PutMark} {o : ServerCall} {r : Except Failure o.Resp}
  {k : Except Failure o.Resp → ServerProgram StorageReply} {s' : StorageWorld}

/-- An identifier is drawn. -/
theorem StoragePool.Inv.draw (hc : c.Inv env crypto fileTypeFromBuffer request)
    (hthread : c.thread i = some ⟨.call o k, m⟩) {uuid : String} (hfresh : uuid ∉ c.world.drawn)
    (hdrawn : s'.drawn = uuid :: c.world.drawn) (hobjects : s'.objects = c.world.objects) :
    c.Keeps env crypto fileTypeFromBuffer request i s' { m with uuid := some uuid } := by
  have hsubset : c.world.drawn ⊆ s'.drawn := hdrawn ▸ List.subset_cons_self _ _
  have hsame : c.world.objects ⊆ s'.objects := hobjects ▸ List.Subset.refl _
  refine ⟨⟨hobjects ▸ hc.world.keys, ?_, hobjects ▸ hc.world.encrypted⟩, ⟨?_, ?_, ?_⟩, ?_, ?_⟩
  · rw [hobjects]
    intro object hobject
    obtain ⟨v, hv, hkey⟩ := hc.world.drawn object hobject
    exact ⟨v, hsubset hv, hkey⟩
  · rintro _ ⟨⟩
    exact hdrawn ▸ List.mem_cons_self
  · rintro _ ⟨⟩ object hobject hkey
    obtain ⟨v, hv, hkey'⟩ := hc.world.drawn object (hobjects ▸ hobject)
    exact hfresh (documents_inj (hkey.symm.trans hkey') ▸ hv)
  · exact fun object hput => hsame ((hc.valid i _ hthread).put object hput)
  · intro j t _ ht
    exact (hc.valid j t ht).mono hsubset hsame fun object hobject => Or.inl (hobjects ▸ hobject)
  · rintro j t v _ ht hv ⟨⟩
    exact hfresh ((hc.valid j t ht).drawn uuid hv)

/-- An object is put under the identifier that the thread has drawn. -/
theorem StoragePool.Inv.put (hc : c.Inv env crypto fileTypeFromBuffer request)
    (hthread : c.thread i = some ⟨.call o k, m⟩) {key : String} {body : Bytes}
    (hallowed : m.Allows env crypto ((request i).Stores fileTypeFromBuffer) (.putObject key body))
    (hdrawn : s'.drawn = c.world.drawn) (hobjects : s'.objects = c.world.objects ++ [(key, body)])
    {m' : PutMark} (huuid : m'.uuid = none)
    (hput : ∀ object, m'.put = some object → object = (key, body) ∨ m.put = some object) :
    c.Keeps env crypto fileTypeFromBuffer request i s' m' := by
  obtain ⟨⟨uuid, hheld, rfl⟩, hencrypts⟩ := hallowed
  have hvalid := hc.valid i _ hthread
  have hsubset : c.world.objects ⊆ s'.objects := hobjects ▸ List.subset_append_left _ _
  have hnew : ∀ object ∈ s'.objects, object ∈ c.world.objects ∨
      object = ("documents/" ++ uuid, body) := by
    rw [hobjects]
    simp
  refine ⟨⟨?_, ?_, ?_⟩, ⟨by simp [huuid], by simp [huuid], ?_⟩, ?_, ?_⟩
  · rw [hobjects, List.map_append, List.nodup_append]
    refine ⟨hc.world.keys, List.nodup_singleton _, ?_⟩
    rintro _ hold _ hnew rfl
    obtain ⟨object, hobject, hkey⟩ := List.mem_map.1 hold
    exact hvalid.free uuid hheld object hobject (hkey.trans (by simpa using hnew))
  · intro object hobject
    rw [hdrawn]
    rcases hnew object hobject with hold | rfl
    · exact hc.world.drawn object hold
    · exact ⟨uuid, hvalid.drawn uuid hheld, rfl⟩
  · intro object hobject
    rcases hnew object hobject with hold | rfl
    · exact hc.world.encrypted object hold
    · exact ⟨i, hencrypts⟩
  · intro object hobject
    rcases hput object hobject with rfl | hold
    · simp [hobjects]
    · exact hsubset (hvalid.put object hold)
  · intro j t hj ht
    refine (hc.valid j t ht).mono (hdrawn ▸ List.Subset.refl _) hsubset fun object hobject => ?_
    rcases hnew object hobject with hold | rfl
    · exact Or.inl hold
    · refine Or.inr fun v hv hkey => hj ?_
      obtain rfl := documents_inj hkey
      exact (hc.own i j _ t uuid hthread ht hheld hv).symm
  · exact fun j t v _ _ _ h => by rw [huuid] at h; cases h

/-- Nothing is drawn or put; the thread may have given its identifier up. -/
theorem StoragePool.Inv.leave (hc : c.Inv env crypto fileTypeFromBuffer request)
    (hthread : c.thread i = some ⟨.call o k, m⟩) (hdrawn : s'.drawn = c.world.drawn)
    (hobjects : s'.objects = c.world.objects) {m' : PutMark}
    (huuid : m'.uuid = none ∨ m'.uuid = m.uuid) (hput : m'.put = m.put) :
    c.Keeps env crypto fileTypeFromBuffer request i s' m' := by
  have hmono : ∀ {m : PutMark}, m.Valid c.world → m.Valid s' := fun h =>
    h.mono (hdrawn ▸ List.Subset.refl _) (hobjects ▸ List.Subset.refl _)
      fun object hobject => Or.inl (hobjects ▸ hobject)
  have hvalid := hmono (hc.valid i _ hthread)
  have hheld : ∀ uuid, m'.uuid = some uuid → m.uuid = some uuid := by
    intro uuid h
    rcases huuid with hnone | hsame
    · rw [hnone] at h
      cases h
    · exact hsame ▸ h
  refine ⟨⟨hobjects ▸ hc.world.keys, ?_, hobjects ▸ hc.world.encrypted⟩, ⟨?_, ?_, ?_⟩, ?_, ?_⟩
  · rw [hobjects, hdrawn]
    exact hc.world.drawn
  · exact fun uuid h => hvalid.drawn uuid (hheld uuid h)
  · exact fun uuid h => hvalid.free uuid (hheld uuid h)
  · exact fun object h => hvalid.put object (hput ▸ h)
  · exact fun j t _ ht => hmono (hc.valid j t ht)
  · exact fun j t uuid hj ht hv h => hj (hc.own j i t _ uuid ht hthread hv (hheld uuid h))

/-- Every call of a thread keeps what holds. -/
theorem StoragePool.Inv.keeps (hc : c.Inv env crypto fileTypeFromBuffer request)
    (hthread : c.thread i = some ⟨.call o k, m⟩) (h : uploadAnswers c.world o s' r) :
    c.Keeps env crypto fileTypeFromBuffer request i s' (m.observe o r) := by
  rcases uploadAnswers_cases h m with ⟨uuid, hfresh, hdrawn, hobjects, hmark⟩ |
    ⟨key, body, rfl, hdrawn, huuid, ⟨hobjects, hput⟩ | ⟨hobjects, hput⟩⟩ |
    ⟨hdrawn, hobjects, hmark⟩
  · exact hmark ▸ hc.draw hthread hfresh hdrawn hobjects
  · exact hc.put hthread (hc.serve i _ hthread).1 hdrawn hobjects huuid hput
  · exact hc.leave hthread hdrawn hobjects (Or.inl huuid) hput
  · exact hc.leave hthread hdrawn hobjects (Or.inr (congrArg PutMark.uuid hmark))
      (congrArg PutMark.put hmark)

end Act

theorem StoragePool.inv_empty (db : Db) :
    StoragePool.Inv env crypto fileTypeFromBuffer request ⟨⟨db, [], []⟩, fun _ => none⟩ where
  serve := fun _ _ h => by cases h
  world := ⟨List.nodup_nil, by simp, by simp⟩
  valid := fun _ _ h => by cases h
  own := fun _ _ _ _ _ h => by cases h

variable [DecidableEq ι]

theorem StoragePool.Inv.step {c c' : StoragePool ι} {l : Label serverSig Failure ι}
    (hc : c.Inv env crypto fileTypeFromBuffer request)
    (h : (storage env crypto fileTypeFromBuffer request).Step c l c') :
    c'.Inv env crypto fileTypeFromBuffer request := by
  have hserve : c'.Serve env crypto fileTypeFromBuffer request := by
    refine fun i => Machine.ends_step ?_ ?_ (hc.serve i) h
    · intro m w o w' r _
      rfl
    · rintro p rfl
      exact (request i).conforms
  cases h with
  | @act i o k m s' r hthread hanswer =>
      have hkeeps := hc.keeps hthread hanswer
      refine ⟨hserve, hkeeps.world, ?_, ?_⟩
      · intro j t ht
        rcases Machine.thread_of_update ht with ⟨rfl, hnew⟩ | ⟨hj, hold⟩
        · cases hnew
          exact hkeeps.valid
        · exact hkeeps.others j t hj hold
      · intro j j' t t' uuid ht ht' huuid huuid'
        rcases Machine.thread_of_update ht with ⟨rfl, hnew⟩ | ⟨hj, hold⟩
        · rcases Machine.thread_of_update ht' with ⟨rfl, hnew'⟩ | ⟨hj', hold'⟩
          · rfl
          · cases hnew
            exact absurd huuid (hkeeps.own j' t' uuid hj' hold' huuid')
        · rcases Machine.thread_of_update ht' with ⟨rfl, hnew'⟩ | ⟨hj', hold'⟩
          · cases hnew'
            exact absurd huuid' (hkeeps.own j t uuid hj hold huuid)
          · exact hc.own j j' t t' uuid hold hold' huuid huuid'
  | finish hthread _ | crash hthread _ =>
      refine ⟨hserve, hc.world, ?_, ?_⟩
      · intro j t ht
        rcases Machine.thread_of_update ht with ⟨_, hnew⟩ | ⟨_, hold⟩
        · cases hnew
        · exact hc.valid j t hold
      · intro j j' t t' uuid ht ht'
        rcases Machine.thread_of_update ht with ⟨_, hnew⟩ | ⟨_, hold⟩
        · cases hnew
        · rcases Machine.thread_of_update ht' with ⟨_, hnew'⟩ | ⟨_, hold'⟩
          · cases hnew'
          · exact hc.own j j' t t' uuid hold hold'
  | start hthread _ =>
      refine ⟨hserve, hc.world, ?_, ?_⟩
      · intro j t ht
        rcases Machine.thread_of_update ht with ⟨_, hnew⟩ | ⟨_, hold⟩
        · cases hnew
          exact PutMark.valid_idle _
        · exact hc.valid j t hold
      · intro j j' t t' uuid ht ht' huuid huuid'
        rcases Machine.thread_of_update ht with ⟨_, hnew⟩ | ⟨_, hold⟩
        · cases hnew
          cases huuid
        · rcases Machine.thread_of_update ht' with ⟨_, hnew'⟩ | ⟨_, hold'⟩
          · cases hnew'
            cases huuid'
          · exact hc.own j j' t t' uuid hold hold' huuid huuid'
  | @environment s' henv =>
      obtain ⟨hobjects, hdrawn⟩ := henv
      refine ⟨hserve, ⟨hobjects ▸ hc.world.keys, ?_, hobjects ▸ hc.world.encrypted⟩, ?_, hc.own⟩
      · rw [hobjects, hdrawn]
        exact hc.world.drawn
      · intro j t ht
        exact (hc.valid j t ht).mono (hdrawn ▸ List.Subset.refl _) (hobjects ▸ List.Subset.refl _)
          fun object hobject => Or.inl (hobjects ▸ hobject)

/-- Objects stay. -/
theorem objects_subset_of_step {c c' : StoragePool ι} {l : Label serverSig Failure ι}
    (h : (storage env crypto fileTypeFromBuffer request).Step c l c') :
    c.world.objects ⊆ c'.world.objects := by
  cases h with
  | @act i o k m s' r hthread hanswer =>
      rcases uploadAnswers_cases hanswer m with ⟨_, _, _, hobjects, _⟩ |
        ⟨_, _, _, _, _, ⟨hobjects, _⟩ | ⟨hobjects, _⟩⟩ | ⟨_, hobjects, _⟩
      · exact hobjects ▸ List.Subset.refl _
      · exact hobjects ▸ List.subset_append_left _ _
      · exact hobjects ▸ List.Subset.refl _
      · exact hobjects ▸ List.Subset.refl _
  | environment henv => exact henv.1 ▸ List.Subset.refl _
  | finish _ _ | crash _ _ | start _ _ => exact List.Subset.refl _

/-- Whatever is uploaded and staged at the same time: every object in the store is the
ciphertext of a document that an intake brought or an upload that passes the checks, and
an upload is answered with what, in every later state, its document is decrypted with
from the object under its key, whatever has been uploaded and staged since. -/
theorem uploads_recoverable {db : Db} {c c' : StoragePool ι}
    (hc : Reaches (storage env crypto fileTypeFromBuffer request).Step
      ⟨⟨db, [], []⟩, fun _ => none⟩ c)
    (hc' : Reaches (storage env crypto fileTypeFromBuffer request).Step c c') :
    (∀ object ∈ c.world.objects, ∃ i,
      Encrypts env crypto ((request i).Stores fileTypeFromBuffer) object.2) ∧
    ∀ i m mime ext size stored,
      c.thread i = some ⟨.done (.ok (.uploaded (.ok mime ext size stored))), m⟩ →
      ∃ file sniffed, request i = .upload (some (some file)) ∧
        file.Passes fileTypeFromBuffer sniffed ∧ mime = file.type ∧ ext = sniffed.ext ∧
          size = file.bytes.length ∧ stored.sha256 = crypto.digest file.bytes ∧
            ∃ ciphertext, c'.world.objects.object? stored.objectKey = some ciphertext ∧
              decryptDocument env crypto ciphertext stored.iv stored.authTag = .ok file.bytes := by
  have hinv : c.Inv env crypto fileTypeFromBuffer request :=
    hc.invariant (fun _ _ _ h hstep => h.step hstep) (StoragePool.inv_empty db)
  have hinv' : c'.Inv env crypto fileTypeFromBuffer request :=
    hc'.invariant (fun _ _ _ h hstep => h.step hstep) hinv
  let Kept (c' : StoragePool ι) : Prop := c.world.objects ⊆ c'.world.objects
  have hobjects : Kept c' :=
    hc'.invariant (fun _ _ _ h hstep => List.Subset.trans h (objects_subset_of_step hstep))
      (List.Subset.refl _)
  refine ⟨hinv.world.encrypted, fun i m mime ext size stored hdone => ?_⟩
  obtain ⟨file, sniffed, hrequest, hpasses, hmime, hext, hsize, hhas⟩ :=
    hinv.serve i _ hdone mime ext size stored rfl
  obtain ⟨ciphertext, hput, hopens⟩ := hhas.put
  refine ⟨file, sniffed, hrequest, hpasses, hmime, hext, hsize, hhas.sha256, ciphertext, ?_, hopens⟩
  exact ObjectStore.object?_of_mem hinv'.world.keys (hobjects ((hinv.valid i _ hdone).put _ hput))

end Pool

/-- A document that is recognized. -/
def pdfFile : UploadedFile := ⟨"application/pdf", pdfDocument⟩

def pdfSniffer (_ : Bytes) : Option FileType := some ⟨"pdf", "application/pdf"⟩

/-- What is answered to its upload. -/
def pdfStored : StoredDocument :=
  ⟨"documents/uuid-1", plainCrypto.digest pdfDocument, hexEncode (List.replicate 12 0),
    hexEncode (pdfTag (List.replicate 12 0))⟩

theorem pdfFile_uploads : Program.Runs uploadAnswers
    ((StorageRequest.upload (some (some pdfFile))).program plainEnv.storage plainCrypto pdfSniffer)
    ⟨{}, [], []⟩ ⟨{}, exampleObjects, ["uuid-1"]⟩
    (.ok (.uploaded (.ok "application/pdf" "pdf" 4 pdfStored))) := by
  have hiv : uploadAnswers ⟨{}, [], []⟩ (.randomBytes 12) ⟨{}, [], []⟩
      (.ok (List.replicate 12 0)) := ⟨Or.inl ⟨rfl, _, rfl, rfl⟩, rfl, rfl⟩
  have huuid : uploadAnswers ⟨{}, [], []⟩ .randomUUID ⟨{}, [], ["uuid-1"]⟩ (.ok "uuid-1") :=
    ⟨rfl, rfl, "uuid-1", List.not_mem_nil, rfl, rfl⟩
  have hput : uploadAnswers ⟨{}, [], ["uuid-1"]⟩
      (.putObject "documents/uuid-1" [0xeb, 0xf7, 0x04, 0x7b])
      ⟨{}, exampleObjects, ["uuid-1"]⟩ (.ok ()) := ⟨rfl, rfl, Or.inl rfl⟩
  exact .call hiv <| .call huuid <| .call hput ⟨rfl, rfl⟩

theorem uploads_recoverable_of_pdfFile : ∃ file sniffed,
    StorageRequest.upload (some (some pdfFile)) = .upload (some (some file)) ∧
      file.Passes pdfSniffer sniffed ∧ "application/pdf" = file.type ∧ "pdf" = sniffed.ext ∧
        4 = file.bytes.length ∧ pdfStored.sha256 = plainCrypto.digest file.bytes ∧
          ∃ ciphertext, ObjectStore.object? exampleObjects pdfStored.objectKey =
              some ciphertext ∧
            decryptDocument plainEnv.storage plainCrypto ciphertext pdfStored.iv pdfStored.authTag =
              .ok file.bytes := by
  let request (_ : Unit) : StorageRequest := .upload (some (some pdfFile))
  let 𝓜 := storage plainEnv.storage plainCrypto pdfSniffer request
  let started : StoragePool Unit := ⟨⟨{}, [], []⟩, Function.update (fun _ => none) ()
    (some ⟨(request ()).program plainEnv.storage plainCrypto pdfSniffer, {}⟩)⟩
  have hstart : 𝓜.Step ⟨⟨{}, [], []⟩, fun _ => none⟩ (.start ()) started := .start rfl rfl
  obtain ⟨m, hrun⟩ := Machine.reaches_of_runs (𝓜 := 𝓜) (fun _ _ _ _ _ h => h) pdfFile_uploads
    (fun _ => none) () {}
  refine (uploads_recoverable (hrun.head hstart) (.refl _ _)).2 () m _ _ _ _ ?_
  exact Function.update_self () _ (fun _ : Unit => none)

end EpsDapp
