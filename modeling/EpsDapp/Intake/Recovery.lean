import EpsDapp.Intake.Binding

/-!
# What a stored document is recovered from

A document is decrypted with the object key, the initialization vector and the
authentication tag that `storeDocument` returns. The rows an intake commits name
the object key and the digest only: whatever vector is drawn, the same rows are
committed, so no reader of them finds the vector.
-/

set_option autoImplicit false

namespace EpsDapp

open Effect ServerProgram

/-- The steps of `createServiceRequest` after its document is stored. -/
def CreateServiceRequestInput.record (input : CreateServiceRequestInput) (noticeToken : String)
    (stored : StoredDocument) : ServerProgram StagedServiceRequest := do
  let attestedAt ← now
  let id ← serviceRequestCreate (input.data noticeToken stored.sha256 attestedAt)
  auditLogCreate (input.audit id stored.objectKey stored.sha256)
  pure ⟨id, .staged, noticeToken, stored.objectKey, stored.sha256⟩

variable {env : StorageEnv} {crypto : NodeCrypto} {input : CreateServiceRequestInput}
  {s s' : Db × ObjectStore} {stored : StoredDocument}

/-- An intake that commits, in which `storeDocument` has returned `stored`. -/
def Commits (env : StorageEnv) (crypto : NodeCrypto) (input : CreateServiceRequestInput)
    (s s' : Db × ObjectStore) (stored : StoredDocument) : Prop :=
  ∃ token s₁ result s₂ s₃ staged,
    generateNoticeToken.Runs storageAnswers s s₁ (.ok token) ∧
    (quota (checkAndDecrementQuota input.orgId)).Runs storageAnswers s₁ s₂ (.ok result) ∧
    (storeDocument env crypto input.document).Runs storageAnswers s₂ s₃ (.ok stored) ∧
    (input.record token stored).Runs storageAnswers s₃ s' (.ok staged)

/-- The intakes that commit are the complete runs of `createServiceRequest` that
return. -/
theorem createServiceRequest_runs_ok_iff :
    (∃ staged, (createServiceRequest env crypto input).Runs storageAnswers s s' (.ok staged)) ↔
      ∃ stored, Commits env crypto input s s' stored := by
  have hsteps : createServiceRequest env crypto input = generateNoticeToken >>= fun token =>
      quota (checkAndDecrementQuota input.orgId) >>= fun _ =>
        storeDocument env crypto input.document >>= fun stored => input.record token stored := rfl
  simp only [hsteps, Program.runs_bind, reduceCtorEq, and_false, exists_false, or_false]
  constructor
  · rintro ⟨staged, token, s₁, htoken, result, s₂, hquota, stored, s₃, hstore, hrecord⟩
    exact ⟨stored, token, s₁, result, s₂, s₃, staged, htoken, hquota, hstore, hrecord⟩
  · rintro ⟨stored, token, s₁, result, s₂, s₃, staged, htoken, hquota, hstore, hrecord⟩
    exact ⟨staged, token, s₁, htoken, result, s₂, hquota, stored, s₃, hstore, hrecord⟩

/-- What `storeDocument` returns when it draws the vector `iv` and the identifier
`uuid`. -/
def storedWith (crypto : NodeCrypto) (key iv : Bytes) (uuid : String) (document : Bytes) :
    StoredDocument where
  objectKey := "documents/" ++ uuid
  sha256 := crypto.digest document
  iv := hexEncode iv
  authTag := hexEncode (crypto.aes256gcm key iv document).2

/-- `storeDocument` returns exactly if there is a key and a client, for any vector and
any identifier it may draw. -/
theorem storeDocument_runs_ok_iff (document : Bytes) :
    (storeDocument env crypto document).Runs storageAnswers s s' (.ok stored) ↔
      ∃ key iv uuid, loadKey env = .ok key ∧ getS3 env = .ok () ∧ iv.length = ivBytes ∧
        stored = storedWith crypto key iv uuid document ∧
        s' = (s.1, s.2 ++ [("documents/" ++ uuid, (crypto.aes256gcm key iv document).1)]) := by
  rw [storeDocument]
  constructor
  · intro h
    cases hkey : loadKey env with
    | error e =>
        rw [hkey] at h
        cases h.2
    | ok key =>
        rw [hkey] at h
        obtain ⟨⟨db₁, objects₁⟩, _, ⟨⟨hdb₁, iv, hiv, rfl⟩, hobjects₁⟩, h⟩ := h
        obtain ⟨⟨db₂, objects₂⟩, _, ⟨⟨hdb₂, uuid, rfl⟩, hobjects₂⟩, h⟩ := h
        cases hs3 : getS3 env with
        | error e =>
            rw [hs3] at h
            cases h.2
        | ok _ =>
            rw [hs3] at h
            obtain ⟨⟨db₃, objects₃⟩, r, ⟨hdb₃, hobjects₃⟩, h⟩ := h
            obtain rfl : db₁ = s.1 := hdb₁
            obtain rfl : objects₁ = s.2 := hobjects₁
            obtain rfl : db₂ = s.1 := hdb₂
            obtain rfl : objects₂ = s.2 := hobjects₂
            obtain rfl : db₃ = s.1 := hdb₃
            cases r with
            | error e => cases h.2
            | ok _ =>
                obtain ⟨rfl, hstored⟩ := h
                obtain rfl : objects₃ = s.2 ++ [("documents/" ++ uuid, _)] := hobjects₃
                exact ⟨key, iv, uuid, rfl, rfl, hiv, Except.ok.inj hstored, rfl⟩
  · rintro ⟨key, iv, uuid, hkey, hs3, hiv, rfl, rfl⟩
    rw [hkey, hs3]
    let put : ObjectStore := s.2 ++ [("documents/" ++ uuid, (crypto.aes256gcm key iv document).1)]
    have hdraw : storageAnswers s (.randomBytes ivBytes) s (.ok iv) := ⟨⟨rfl, iv, hiv, rfl⟩, rfl⟩
    have huuid : storageAnswers s .randomUUID s (.ok uuid) := ⟨⟨rfl, uuid, rfl⟩, rfl⟩
    have hput : storageAnswers s (.putObject ("documents/" ++ uuid)
        (crypto.aes256gcm key iv document).1) (s.1, put) (.ok ()) := ⟨rfl, rfl⟩
    exact .call hdraw <| .call huuid <| .call hput ⟨rfl, rfl⟩

/-- What has been put stays. -/
theorem ObjectStore.isPrefix_of_runs {α : Type} {p : ServerProgram α} {r : Except Failure α}
    (h : p.Runs storageAnswers s s' r) : s.2 <+: s'.2 := by
  induction p generalizing s with
  | done q =>
      obtain ⟨rfl, -⟩ := h
      exact List.prefix_rfl
  | call c k ih =>
      obtain ⟨s₁, r₁, ⟨-, hwatch⟩, hk⟩ := h
      refine List.IsPrefix.trans ?_ (ih r₁ hk)
      rw [hwatch]
      unfold ObjectStore.watch
      split
      · exact List.prefix_append _ _
      · exact List.prefix_rfl

namespace Commits

/-- With what `storeDocument` has returned, the stored object decrypts to the document
whose digest it is. -/
theorem decryptDocument (h : Commits env crypto input s s' stored) :
    ∃ ciphertext, (stored.objectKey, ciphertext) ∈ s'.2 ∧
      EpsDapp.decryptDocument env crypto ciphertext stored.iv stored.authTag =
        .ok input.document ∧
      stored.sha256 = crypto.digest input.document := by
  obtain ⟨token, s₁, result, s₂, s₃, staged, -, -, hstore, hrecord⟩ := h
  obtain ⟨key, iv, uuid, hkey, -, -, rfl, rfl⟩ := (storeDocument_runs_ok_iff _).1 hstore
  refine ⟨(crypto.aes256gcm key iv input.document).1, ?_, ?_, rfl⟩
  · refine (ObjectStore.isPrefix_of_runs hrecord).subset ?_
    exact List.mem_append_right _ (List.mem_singleton_self _)
  · have hopen : crypto.gcmOpen key iv (crypto.aes256gcm key iv input.document).1
        (crypto.aes256gcm key iv input.document).2 = some input.document :=
      (crypto.gcmOpen_eq_some_iff _ _ _ _ _).2 rfl
    simp only [EpsDapp.decryptDocument, hkey, storedWith, hexDecode_hexEncode]
    simp only [bind, Except.bind, hopen]

/-- Whatever vector is drawn, the same rows are committed. -/
theorem redraw (h : Commits env crypto input s s' stored) (iv : Bytes)
    (hiv : iv.length = ivBytes) :
    ∃ key objects, Commits env crypto input s (s'.1, objects)
      { stored with
        iv := hexEncode iv
        authTag := hexEncode (crypto.aes256gcm key iv input.document).2 } := by
  obtain ⟨token, s₁, result, s₂, s₃, staged, htoken, hquota, hstore, hrecord⟩ := h
  obtain ⟨key, _, uuid, hkey, hs3, -, rfl, rfl⟩ := (storeDocument_runs_ok_iff _).1 hstore
  have hstore' : (storeDocument env crypto input.document).Runs storageAnswers s₂ _
      (.ok (storedWith crypto key iv uuid input.document)) :=
    (storeDocument_runs_ok_iff _).2 ⟨key, iv, uuid, hkey, hs3, hiv, rfl, rfl⟩
  -- The rows depend on what was returned by its object key and its digest only.
  obtain ⟨objects, hrecord'⟩ := hrecord.of_observed.observed ObjectStore.watch
    (s₂.2 ++ [("documents/" ++ uuid, (crypto.aes256gcm key iv input.document).1)])
  exact ⟨key, objects, token, s₁, result, s₂, _, staged, htoken, hquota, hstore', hrecord'⟩

end Commits

/-- There is a reader of the database that finds, whatever an intake has drawn, what
its `storeDocument` has returned for decryption in the rows the intake commits. -/
def Recoverable (env : StorageEnv) (crypto : NodeCrypto) (input : CreateServiceRequestInput)
    (s : Db × ObjectStore) : Prop :=
  ∃ read : Db → String × String × String, ∀ s' stored, Commits env crypto input s s' stored →
    read s'.1 = (stored.objectKey, stored.iv, stored.authTag)

/-- Two vectors that may be drawn are told apart. -/
theorem hexEncode_zeros_ne :
    hexEncode (List.replicate 12 0) ≠ hexEncode (List.replicate 12 1) := by decide

/-- No document of an intake that commits can be recovered from its rows. -/
theorem not_recoverable_of_commits (h : ∃ s' stored, Commits env crypto input s s' stored) :
    ¬ Recoverable env crypto input s := by
  rintro ⟨read, hread⟩
  obtain ⟨s', stored, hcommits⟩ := h
  obtain ⟨key, objects, hzeros⟩ := hcommits.redraw (List.replicate 12 0) rfl
  obtain ⟨key', objects', hones⟩ := hcommits.redraw (List.replicate 12 1) rfl
  have hread₀ := hread _ _ hzeros
  have hread₁ := hread _ _ hones
  exact hexEncode_zeros_ne
    (congrArg (fun p : String × String × String => p.2.1) (hread₀.symm.trans hread₁))

theorem exampleIntake_commits : ∃ stored, Commits plainEnv.storage plainCrypto exampleIntake
    (oneOrg, []) (oneIntake, exampleObjects) stored :=
  createServiceRequest_runs_ok_iff.1 ⟨_, exampleIntake_runs⟩

/-- Two intakes of one document that draw different vectors commit the same
rows. -/
theorem not_committed_ne_of_iv_ne :
    ¬ ∀ env crypto input s s₁ s₂ stored₁ stored₂, Commits env crypto input s s₁ stored₁ →
      Commits env crypto input s s₂ stored₂ →
      (stored₁.iv ≠ stored₂.iv ∨ stored₁.authTag ≠ stored₂.authTag) → s₁.1 ≠ s₂.1 := by
  intro h
  obtain ⟨stored, hcommits⟩ := exampleIntake_commits
  obtain ⟨key, objects, hzeros⟩ := hcommits.redraw (List.replicate 12 0) rfl
  obtain ⟨key', objects', hones⟩ := hcommits.redraw (List.replicate 12 1) rfl
  exact h _ _ _ _ _ _ _ _ hzeros hones (Or.inl hexEncode_zeros_ne) rfl

/-- A document cannot be recovered from the rows of its intake. -/
theorem not_recoverable_exampleIntake :
    ¬ Recoverable plainEnv.storage plainCrypto exampleIntake (oneOrg, []) :=
  not_recoverable_of_commits ⟨_, exampleIntake_commits⟩

end EpsDapp
