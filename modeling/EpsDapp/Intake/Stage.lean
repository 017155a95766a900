import EpsDapp.Server.Calls
import EpsDapp.Text.Encoding

/-!
# Staging a request with its document

`storeDocument` encrypts a document into the object store, and
`createServiceRequest` consumes a unit of quota, stores the document and stages
the request with its digest and a fresh notice token, all inside one
transaction. The object store takes no part in the transaction: what has been
put stays when the rest rolls back.
-/

set_option autoImplicit false

namespace EpsDapp

open Calendar Effect ServerProgram

/-- What is used of `node:crypto`. `aes256gcm` is the ciphertext and the
authentication tag, and `gcmOpen` decrypts exactly what was encrypted with the key,
the initialization vector and the tag it is given. -/
structure NodeCrypto where
  sha256 : Bytes → Bytes
  aes256gcm : (key iv plaintext : Bytes) → Bytes × Bytes
  gcmOpen : (key iv ciphertext authTag : Bytes) → Option Bytes
  length_sha256 : ∀ data, (sha256 data).length = 32
  gcmOpen_eq_some_iff : ∀ key iv ciphertext authTag plaintext,
    gcmOpen key iv ciphertext authTag = some plaintext ↔
      aes256gcm key iv plaintext = (ciphertext, authTag)

/-- The digest of a document, as it is persisted. -/
def NodeCrypto.digest (crypto : NodeCrypto) (document : Bytes) : String :=
  hexEncode (crypto.sha256 document)

/-- The environment variables of `lib/storage.ts`. -/
structure StorageEnv where
  storageEncryptionKey : Option String
  minioEndpoint : Option String
  minioAccessKey : Option String
  minioSecretKey : Option String

/-- `KEY_BYTES`. -/
def keyBytes : ℕ := 32

/-- `IV_BYTES`. -/
def ivBytes : ℕ := 12

/-- `loadKey`. -/
def loadKey (env : StorageEnv) : Except Failure Bytes :=
  let raw := env.storageEncryptionKey.getD ""
  if raw = "" then
    .error (.error ("STORAGE_ENCRYPTION_KEY is not set. " ++
      "Provide a 32-byte key as hex (64 chars) or base64."))
  else
    let key := if raw.toList.length = 64 ∧ raw.toList.all isHex then hexDecode raw.toList
      else base64Decode raw
    if key.length ≠ keyBytes then
      .error (.error ("STORAGE_ENCRYPTION_KEY must decode to " ++ toString keyBytes ++
        " bytes (got " ++ toString key.length ++ "). Use a 32-byte key as hex or base64."))
    else .ok key

/-- `getS3`: the client can be built. -/
def getS3 (env : StorageEnv) : Except Failure Unit :=
  let isSet (v : Option String) : Bool := v.getD "" != ""
  if isSet env.minioEndpoint && isSet env.minioAccessKey && isSet env.minioSecretKey then .ok ()
  else
    .error (.error ("MinIO is not configured. " ++
      "Set MINIO_ENDPOINT, MINIO_ACCESS_KEY and MINIO_SECRET_KEY."))

/-- `StoredDocument`. -/
structure StoredDocument where
  objectKey : String
  sha256 : String
  iv : String
  authTag : String

/-- `storeDocument`. -/
def storeDocument (env : StorageEnv) (crypto : NodeCrypto) (buf : Bytes) :
    ServerProgram StoredDocument := do
  let key ← Program.done (loadKey env)
  let iv ← randomBytes ivBytes
  let encrypted := crypto.aes256gcm key iv buf
  let uuid ← randomUUID
  let objectKey := "documents/" ++ uuid
  Program.done (getS3 env)
  putObject objectKey encrypted.1
  pure ⟨objectKey, crypto.digest buf, hexEncode iv, hexEncode encrypted.2⟩

/-- `decryptDocument`. -/
def decryptDocument (env : StorageEnv) (crypto : NodeCrypto) (ciphertext : Bytes)
    (ivHex authTagHex : String) : Except Failure Bytes := do
  let key ← loadKey env
  match crypto.gcmOpen key (hexDecode ivHex.toList) ciphertext (hexDecode authTagHex.toList) with
  | some plaintext => .ok plaintext
  | none => .error (.error "Unsupported state or unable to authenticate data")

/-- `CreateServiceRequestInput`. -/
structure CreateServiceRequestInput where
  orgId : String
  actorId : String
  caseCaption : String
  plaintiffName : String
  defendantName : String
  recipientWallet : String
  courtOrderFlag : Bool
  document : Bytes

/-- `StagedServiceRequest`. -/
structure StagedServiceRequest where
  id : String
  status : ServiceStatus
  noticeToken : String
  objectKey : String
  sha256 : String

/-- `generateNoticeToken`. -/
def generateNoticeToken : ServerProgram String := do
  let bytes ← randomBytes 16
  pure (hexEncode bytes)

/-- The request that an intake stages. -/
def CreateServiceRequestInput.data (input : CreateServiceRequestInput)
    (noticeToken sha256 : String) (attestedAt : Instant) : ServiceRequestCreate where
  organization := some input.orgId
  caseCaption := input.caseCaption
  plaintiffName := input.plaintiffName
  defendantName := input.defendantName
  recipientWallet := input.recipientWallet
  courtOrderFlag := input.courtOrderFlag
  attestedAt := attestedAt
  noticeToken := some noticeToken
  documentSha256 := some sha256

/-- The audit row of an intake. -/
def CreateServiceRequestInput.audit (input : CreateServiceRequestInput)
    (id objectKey sha256 : String) : AuditLog where
  action := "SERVICE_REQUEST_STAGED"
  actorId := input.actorId
  targetId := id
  metadata := .staged input.orgId objectKey sha256

/-- The transaction of `createServiceRequest`. -/
def createServiceRequest (env : StorageEnv) (crypto : NodeCrypto)
    (input : CreateServiceRequestInput) : ServerProgram StagedServiceRequest := do
  let noticeToken ← generateNoticeToken
  let _ ← quota (checkAndDecrementQuota input.orgId)
  let stored ← storeDocument env crypto input.document
  let attestedAt ← now
  let id ← serviceRequestCreate (input.data noticeToken stored.sha256 attestedAt)
  auditLogCreate (input.audit id stored.objectKey stored.sha256)
  pure ⟨id, .staged, noticeToken, stored.objectKey, stored.sha256⟩

/-! ## What an intake leaves behind -/

/-- The objects that have been put, under their keys. -/
abbrev ObjectStore := List (String × Bytes)

/-- The object store after a call. -/
def ObjectStore.watch (objects : ObjectStore) (c : ServerCall) (r : Except Failure c.Resp) :
    ObjectStore :=
  match c, r with
  | .putObject key body, .ok _ => objects ++ [(key, body)]
  | _, _ => objects

/-- The answers to the server, with the object store. -/
def storageAnswers : Answers serverSig Failure (Db × ObjectStore) :=
  serverAnswers.observed ObjectStore.watch

/-- The document is in the store under `objectKey`, encrypted under the key of the
environment. -/
def ObjectStore.Holds (env : StorageEnv) (crypto : NodeCrypto) (objects : ObjectStore)
    (objectKey : String) (document : Bytes) : Prop :=
  ∃ key iv, loadKey env = .ok key ∧ (objectKey, (crypto.aes256gcm key iv document).1) ∈ objects

/-- What an intake that returns has written: its document to the object store, and
to the database, besides the meter, its row and its audit row. -/
structure Stages (env : StorageEnv) (crypto : NodeCrypto) (input : CreateServiceRequestInput)
    (s s' : Db × ObjectStore) (staged : StagedServiceRequest) : Prop where
  objects : ∃ put, s'.2 = s.2 ++ put
  holds : ObjectStore.Holds env crypto s'.2 staged.objectKey input.document
  sha256 : staged.sha256 = crypto.digest input.document
  noticeToken : ∃ bytes : Bytes, bytes.length = 16 ∧ staged.noticeToken = hexEncode bytes
  tokenFree : s.1.TokenFree (some staged.noticeToken)
  db : ∃ subscriptions orgId attestedAt createdAt, ∃ h,
    s'.1 = (({ s.1 with subscriptions := subscriptions } : Db).insertRequest
        ((input.data staged.noticeToken staged.sha256 attestedAt).row staged.id orgId createdAt)
        h).audit (input.audit staged.id staged.objectKey staged.sha256)

/-- A function of the meter, run in the server, writes to no table but the
subscriptions, and puts no object. -/
theorem quota_wp {α : Type} (p : QuotaProgram α) (s : Db × ObjectStore) :
    (ServerProgram.quota p).wp storageAnswers (fun _ _ => True)
      (fun _ s' => (∃ subscriptions, s'.1 = { s.1 with subscriptions := subscriptions }) ∧
        s'.2 = s.2) s := by
  refine (Program.only_lift p).wp ?_ (fun _ _ _ _ => trivial) ⟨⟨_, rfl⟩, rfl⟩
  rintro ⟨db, objects⟩ _ ⟨db', objects'⟩ r ⟨c, rfl⟩ ⟨⟨subscriptions, hdb⟩, hobjects⟩ ⟨hexec, hwatch⟩
  obtain ⟨subscriptions', hdb'⟩ := QuotaCall.Exec.subscriptions hexec
  exact ⟨⟨subscriptions', by rw [hdb', hdb]⟩, hwatch.trans hobjects⟩

/-- `storeDocument` leaves the database and has put the document when it
returns. -/
theorem storeDocument_wp (env : StorageEnv) (crypto : NodeCrypto) (buf : Bytes)
    (s : Db × ObjectStore) :
    (storeDocument env crypto buf).wp storageAnswers (fun _ _ => True)
      (fun r s' => s'.1 = s.1 ∧ (∃ put, s'.2 = s.2 ++ put) ∧
        ∀ stored, r = .ok stored → stored.sha256 = crypto.digest buf ∧
          ObjectStore.Holds env crypto s'.2 stored.objectKey buf) s := by
  have hsame : s.1 = s.1 ∧ ∃ put, s.2 = s.2 ++ put := ⟨rfl, [], (List.append_nil _).symm⟩
  rw [storeDocument]
  cases hkey : loadKey env with
  | error e => exact ⟨hsame.1, hsame.2, nofun⟩
  | ok key =>
      refine (Program.wp_bind _ _ _ _).2 <| (Program.wp_bind _ _ _ _).2
        ((Program.wp_perform _ _ _).2 ⟨trivial, ?_⟩)
      rintro ⟨_, _⟩ r ⟨⟨rfl, iv, -, rfl⟩, rfl⟩
      refine (Program.wp_bind _ _ _ _).2 ((Program.wp_perform _ _ _).2 ⟨trivial, ?_⟩)
      rintro ⟨_, _⟩ r ⟨⟨rfl, uuid, rfl⟩, rfl⟩
      cases hs3 : getS3 env with
      | error e => exact ⟨hsame.1, hsame.2, nofun⟩
      | ok _ =>
          refine (Program.wp_bind _ _ _ _).2 <| (Program.wp_bind _ _ _ _).2
            ((Program.wp_perform _ _ _).2 ⟨trivial, ?_⟩)
          rintro ⟨_, _⟩ r ⟨rfl, rfl⟩
          cases r with
          | error e => exact ⟨hsame.1, hsame.2, nofun⟩
          | ok _ =>
              refine ⟨rfl, ⟨_, rfl⟩, ?_⟩
              rintro _ ⟨⟩
              exact ⟨rfl, key, iv, hkey, by simp [ObjectStore.watch]⟩

/-- An intake that returns has staged its request; one that throws has put nothing
away but objects. -/
theorem createServiceRequest_wp (env : StorageEnv) (crypto : NodeCrypto)
    (input : CreateServiceRequestInput) (s : Db × ObjectStore) :
    (createServiceRequest env crypto input).wp storageAnswers (fun _ _ => True)
      (fun r s' => (∃ put, s'.2 = s.2 ++ put) ∧
        ∀ staged, r = .ok staged → Stages env crypto input s s' staged) s := by
  obtain ⟨db, objects⟩ := s
  refine (Program.wp_bind _ _ _ _).2 <| (Program.wp_bind _ _ _ _).2
    ((Program.wp_perform _ _ _).2 ⟨trivial, ?_⟩)
  rintro ⟨db₁, objects₁⟩ r ⟨⟨hdb₁, bytes, hlength, rfl⟩, hobjects₁⟩
  obtain rfl : db₁ = db := hdb₁
  obtain rfl : objects₁ = objects := hobjects₁
  refine Program.wp_seq (quota_wp _ _) ?_ ?_
  · rintro _ ⟨db₂, objects₂⟩ ⟨⟨subscriptions, hdb₂⟩, hobjects₂⟩
    obtain rfl : objects₂ = objects₁ := hobjects₂
    refine Program.wp_seq (storeDocument_wp env crypto input.document _) ?_ ?_
    · rintro stored ⟨db₃, objects₃⟩ ⟨hdb₃, hput, hstored⟩
      obtain rfl : db₃ = db₂ := hdb₃
      obtain ⟨hsha256, hholds⟩ := hstored stored rfl
      refine (Program.wp_bind _ _ _ _).2 ((Program.wp_perform _ _ _).2 ⟨trivial, ?_⟩)
      rintro ⟨db₄, objects₄⟩ r ⟨⟨hdb₄, attestedAt, rfl⟩, hobjects₄⟩
      obtain rfl : db₄ = db₃ := hdb₄
      obtain rfl : objects₄ = objects₃ := hobjects₄
      refine (Program.wp_bind _ _ _ _).2 ((Program.wp_perform _ _ _).2 ⟨trivial, ?_⟩)
      rintro ⟨db₅, objects₅⟩ r ⟨hcreate, hobjects₅⟩
      obtain rfl : objects₅ = objects₄ := hobjects₅
      rcases hcreate with ⟨hfree, id, orgId, createdAt, h, -, hdb₅, rfl⟩ | ⟨-, -, rfl⟩ | ⟨-, -, rfl⟩
      · refine (Program.wp_bind _ _ _ _).2 ((Program.wp_perform _ _ _).2 ⟨trivial, ?_⟩)
        rintro ⟨db₆, objects₆⟩ r ⟨⟨hdb₆, rfl⟩, hobjects₆⟩
        obtain rfl : objects₆ = objects₅ := hobjects₆
        refine ⟨hput, ?_⟩
        rintro _ ⟨⟩
        obtain rfl : db₄ = { db₁ with subscriptions := subscriptions } := hdb₂
        exact ⟨hput, hholds, hsha256, ⟨bytes, hlength, rfl⟩, hfree,
          ⟨subscriptions, orgId, attestedAt, createdAt, h, by rw [hdb₆, hdb₅]⟩⟩
      · exact ⟨hput, nofun⟩
      · exact ⟨hput, nofun⟩
    · rintro e ⟨_, _⟩ ⟨-, hput, -⟩
      exact ⟨hput, nofun⟩
  · rintro e ⟨_, objects₂⟩ ⟨-, hobjects₂⟩
    obtain rfl : objects₂ = objects₁ := hobjects₂
    exact ⟨⟨[], (List.append_nil _).symm⟩, nofun⟩

end EpsDapp
