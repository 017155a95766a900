import EpsDapp.Delivery.Jobs
import EpsDapp.Effect.Alike
import EpsDapp.Effect.Blind
import EpsDapp.Hedera.Columns
import EpsDapp.Hedera.Service
import EpsDapp.Intake.Post
import Mathlib.Logic.Relation

/-!
# Hedera does not influence delivery

The intake route awaits a recording on Hedera, and the worker starts recordings that go
on beside it. Two runs under two behaviours of the SDK, each of which may answer and
throw as it likes and take its time, come to the same points: what is exchanged with
the database, the chain and the other services is the same, and so is the database but
for the Hedera columns.
-/

set_option autoImplicit false

namespace EpsDapp

open Effect

/-! ## The recordings -/

/-- What a recording of the worker awaits. -/
inductive RecordingCall
  | hedera (c : HederaCall)
  | serviceRequestUpdate (id : String) (data : HederaUpdate)

@[reducible] def RecordingCall.Resp : RecordingCall → Type
  | hedera c => c.Resp
  | serviceRequestUpdate _ _ => Unit

abbrev recordingSig : Signature := ⟨RecordingCall, RecordingCall.Resp⟩

abbrev RecordingProgram := Program recordingSig Failure

/-- A function of the Hedera modules, as a part of a recording. -/
def HederaProgram.recorded {α : Type} (p : HederaProgram α) : RecordingProgram α :=
  p.lift (S := hederaSig) (T := recordingSig) RecordingCall.hedera fun _ r => r

/-- What the worker starts for a recording and does not await; its errors are logged. -/
def Recording.task (env : HederaVars) : Recording → RecordingProgram Unit
  | recordOnHedera payload =>
      tryCatch (do
        let result ← (HederaProgram.recordOnHedera env payload).recorded
        if result.hcs.isSome || result.hts.isSome then
          Program.perform (S := recordingSig)
            (.serviceRequestUpdate payload.deliveryId result.updates)
        else pure ()) fun _ => pure ()
  | mintAndTransferProofNFT caseId hcsTopicId =>
      tryCatch (do
        let data : HederaProgram.ProofNFTMetadata := ⟨caseId, hcsTopicId, none⟩
        match ← (HederaProgram.mintAndTransferProofNFT env data).recorded with
        | none => pure ()
        | some nft =>
            Program.perform (S := recordingSig) (.serviceRequestUpdate caseId {
              htsTokenId := some nft.tokenId
              htsNftSerial := some (some nft.serial)
              htsTransferTx := some (some nft.transferTx) })) fun _ => pure ()

theorem Recording.task_resolves (env : HederaVars) (recording : Recording) :
    (recording.task env).Resolves := by
  cases recording with
  | recordOnHedera payload => exact Program.resolves_tryCatch fun _ => Program.resolves_pure ()
  | mintAndTransferProofNFT caseId hcsTopicId =>
      exact Program.resolves_tryCatch fun _ => Program.resolves_pure ()

/-! ## The behaviour of Hedera -/

/-- How the SDK behaves, which has states of its own: every call settles. -/
structure HederaSdk where
  State : Type
  answers : Answers hederaSig Failure State
  settles : ∀ s c, ∃ s' r, answers s c s' r

/-- The database and the SDK, the recordings that are under way, and what the worker has
exchanged with all but Hedera. -/
structure WorkerWorld (σ : Type) where
  db : Db
  sdk : σ
  tasks : List (RecordingProgram Unit)
  seen : List (Exchange deliverySig Failure)

/-- One call of one recording is answered. A write may throw, without effect. -/
inductive Progress {σ : Type} (sdk : Answers hederaSig Failure σ) :
    WorkerWorld σ → WorkerWorld σ → Prop
  | hedera {w : WorkerWorld σ} {before after : List (RecordingProgram Unit)} {c : HederaCall}
      {k : Except Failure c.Resp → RecordingProgram Unit}
      (htask : w.tasks = before ++ .call (.hedera c) k :: after) {s' : σ}
      {r : Except Failure c.Resp} (h : sdk w.sdk c s' r) :
      Progress sdk w { w with sdk := s', tasks := before ++ k r :: after }
  | update {w : WorkerWorld σ} {before after : List (RecordingProgram Unit)} {id : String}
      {data : HederaUpdate} {k : Except Failure Unit → RecordingProgram Unit}
      (htask : w.tasks = before ++ .call (.serviceRequestUpdate id data) k :: after) {db' : Db}
      {r : Except Failure Unit}
      (h : ServerCall.Exec w.db (.serviceRequestUpdate id { hedera := data }) db' r ∨
        db' = w.db ∧ ∃ e, r = .error e) :
      Progress sdk w { w with db := db', tasks := before ++ k r :: after }

/-- How Hedera behaves towards the worker: which of the calls of the recordings are answered,
and how, before a call of the worker is. -/
structure HederaBehaviour extends HederaSdk where
  meanwhile : WorkerWorld State → WorkerWorld State → Prop
  progress : ∀ w w', meanwhile w w' → Relation.ReflTransGen (Progress answers) w w'
  goes_on : ∀ w, ∃ w', meanwhile w w'

/-- Hedera is unreachable, and the worker is always answered first. -/
instance : Inhabited HederaBehaviour where
  default :=
    { State := Unit
      answers := fun _ _ _ r => ∃ e, r = .error e
      settles := fun _ _ => ⟨(), .error (.error "unreachable"), _, rfl⟩
      meanwhile := fun w w' => w' = w
      progress := fun _ _ h => h ▸ .refl
      goes_on := fun w => ⟨w, rfl⟩ }

/-- The recordings after a call of the worker. -/
def startRecording (env : HederaVars) (tasks : List (RecordingProgram Unit)) :
    (c : DeliveryCall) → Except Failure c.Resp → List (RecordingProgram Unit)
  | .record recording, .ok _ => tasks ++ [recording.task env]
  | _, _ => tasks

/-- The answers to the worker. Any statement may throw, the chain answers as it likes, and
a recording that is rejected would end the process. -/
def workerAnswers (env : HederaVars) (behaviour : HederaBehaviour) :
    Answers deliverySig Failure (WorkerWorld behaviour.State) := fun w c w' r =>
  ∃ w₁, behaviour.meanwhile w w₁ ∧ (∀ e, Program.done (.error e) ∉ w₁.tasks) ∧
    faultyAnswers w₁.db c w'.db r ∧ w'.sdk = w₁.sdk ∧
    w'.tasks = startRecording env w₁.tasks c r ∧ w'.seen = w₁.seen ++ [⟨c, c.visible r⟩]

/-- The database and the SDK, and what the route has exchanged with all but Hedera. -/
structure PostWorld (σ : Type) where
  db : Db
  sdk : σ
  seen : List (Exchange serverSig Failure)

/-- The call and its answer, unless it is one of the anchoring. -/
def ServerCall.exchange : (c : ServerCall) → Except Failure c.Resp →
    List (Exchange serverSig Failure)
  | recordOnHedera _, _ => []
  | serviceRequestUpdate _ _, _ => []
  | c, r => [⟨c, r⟩]

/-- The answers to the route: `recordOnHedera` is awaited, and any other call may throw. -/
def postAnswers (env : HederaVars) (sdk : HederaSdk) :
    Answers serverSig Failure (PostWorld sdk.State) := fun w c w' r =>
  w'.seen = w.seen ++ c.exchange r ∧
    match c, r with
    | .recordOnHedera payload, r => w'.db = w.db ∧
        (HederaProgram.recordOnHedera env payload).Runs sdk.answers w.sdk w'.sdk r
    | c, r => w'.sdk = w.sdk ∧ (c.Exec w.db w'.db r ∨ w'.db = w.db ∧ ∃ e, r = .error e)

/-- For each run of `p` under one behaviour there is one under the other that comes to the same
point, with the same exchanges before it, and with the same database but for the Hedera
columns. -/
def WorkerBlind (env : HederaVars) (behaviour behaviour' : HederaBehaviour) {α : Type}
    (p : DeliveryProgram α) : Prop :=
  ∀ db s s' w point, p.HaltsAt (workerAnswers env behaviour) ⟨db, s, [], []⟩ w point →
    ∃ w', p.HaltsAt (workerAnswers env behaviour') ⟨db, s', [], []⟩ w' point ∧
      w'.seen = w.seen ∧ w.db.SameButHedera w'.db

/-- For each run of `p` under one behaviour there is one under the other with the same
response, the same exchanges, and the same database but for the Hedera columns. -/
def PostBlind (env : HederaVars) (sdk sdk' : HederaSdk) {α : Type} (p : ServerProgram α) : Prop :=
  ∀ db s s' w response, p.Runs (postAnswers env sdk) ⟨db, s, []⟩ w response →
    ∃ w', p.Runs (postAnswers env sdk') ⟨db, s', []⟩ w' response ∧
      w'.seen = w.seen ∧ w.db.SameButHedera w'.db

/-! ## The worker -/

namespace Db.SameButHedera

variable {db db₁ db' : Db} {id : String} {data : HederaUpdate} {r : Except Failure Unit}

theorem of_write (h : ServerCall.Exec db (.serviceRequestUpdate id { hedera := data }) db₁ r ∨
    db₁ = db ∧ ∃ e, r = .error e) : db₁ = db ∨ db₁ = db.updateRequest id { hedera := data } := by
  rcases h with h | ⟨h, -⟩
  · simp only [ServerCall.Exec] at h
    split at h
    · exact Or.inr h.1
    · exact Or.inl h.1
  · exact Or.inl h

end Db.SameButHedera

section Worker

variable {env : HederaVars}

/-- The worlds differ in what Hedera has done, and no recording of the second throws. -/
structure WorkerWorld.Alike {σ σ' : Type} (w : WorkerWorld σ) (w' : WorkerWorld σ') : Prop where
  db : w.db.SameButHedera w'.db
  seen : w'.seen = w.seen
  tasks : ∀ p ∈ w'.tasks, p.Resolves

theorem Progress.alike_left {σ σ' : Type} {sdk : Answers hederaSig Failure σ}
    {w w₁ : WorkerWorld σ} {w' : WorkerWorld σ'} (hstep : Progress sdk w w₁) (h : w.Alike w') :
    w₁.Alike w' := by
  cases hstep with
  | hedera _ _ => exact ⟨h.db, h.seen, h.tasks⟩
  | update _ hwrite =>
      refine ⟨?_, h.seen, h.tasks⟩
      rcases Db.SameButHedera.of_write hwrite with rfl | rfl
      · exact h.db
      · exact h.db.hedera_left _ _

theorem Progress.alike_right {σ σ' : Type} {sdk : Answers hederaSig Failure σ'}
    {w : WorkerWorld σ} {w' w₁ : WorkerWorld σ'} (hstep : Progress sdk w' w₁) (h : w.Alike w') :
    w.Alike w₁ := by
  have hnext : ∀ {before after : List (RecordingProgram Unit)} {o : RecordingCall}
      {k : Except Failure o.Resp → RecordingProgram Unit} (r : Except Failure o.Resp),
      w'.tasks = before ++ .call o k :: after → ∀ p ∈ before ++ k r :: after, p.Resolves := by
    intro before after o k r htask p hp
    have htasks := h.tasks
    rw [htask] at htasks
    rcases List.mem_append.1 hp with hp | hp
    · exact htasks p (List.mem_append_left _ hp)
    · rcases List.mem_cons.1 hp with rfl | hp
      · exact htasks _ (List.mem_append_right _ List.mem_cons_self) r
      · exact htasks p (List.mem_append_right _ (List.mem_cons_of_mem _ hp))
  cases hstep with
  | hedera htask _ => exact ⟨h.db, h.seen, hnext _ htask⟩
  | update htask hwrite =>
      refine ⟨?_, h.seen, hnext _ htask⟩
      rcases Db.SameButHedera.of_write hwrite with hdb | hdb
      · exact hdb ▸ h.db
      · exact hdb ▸ h.db.hedera_right _ _

/-- What one world answers a call of the worker, the other answers too. -/
theorem workerAnswers_alike {behaviour behaviour' : HederaBehaviour}
    {w w₁ : WorkerWorld behaviour.State} {w' : WorkerWorld behaviour'.State} {c : DeliveryCall}
    {r : Except Failure c.Resp} (h : w.Alike w') (hanswer : workerAnswers env behaviour w c w₁ r) :
    ∃ w₁' r', workerAnswers env behaviour' w' c w₁' r' ∧ c.visible r = c.visible r' ∧
      w₁.Alike w₁' := by
  obtain ⟨w₂, hmeanwhile, -, hdb, -, -, hseen⟩ := hanswer
  have hleft : w₂.Alike w' := by
    refine Relation.ReflTransGen.head_induction_on (motive := fun w _ => w.Alike w' → w₂.Alike w')
      (behaviour.progress _ _ hmeanwhile) id (fun hstep _ ih h => ih (hstep.alike_left h)) h
  obtain ⟨w₂', hmeanwhile'⟩ := behaviour'.goes_on w'
  have hright : w₂.Alike w₂' := by
    refine Relation.ReflTransGen.head_induction_on (motive := fun w' _ => w₂.Alike w' → w₂.Alike w₂')
      (behaviour'.progress _ _ hmeanwhile') id (fun hstep _ ih h => ih (hstep.alike_right h)) hleft
  obtain ⟨columns, hcolumns⟩ := hright.db
  obtain ⟨columns', r', hdb', hvisible⟩ := faultyAnswers_withHedera hdb columns
  refine ⟨⟨w₁.db.withHedera columns', w₂'.sdk, startRecording env w₂'.tasks c r',
    w₂'.seen ++ [⟨c, c.visible r'⟩]⟩, r', ⟨w₂', hmeanwhile', ?_, ?_, rfl, rfl, rfl⟩, hvisible.symm,
    ⟨⟨columns', rfl⟩, ?_, ?_⟩⟩
  · intro e hmem
    obtain ⟨_, h⟩ := hright.tasks _ hmem
    cases h
  · rw [hcolumns]
    exact hdb'
  · rw [hseen, hright.seen, hvisible]
  · cases c with
    | record recording =>
        cases r' with
        | error e => exact hright.tasks
        | ok _ =>
            refine List.forall_mem_append.2 ⟨hright.tasks, ?_⟩
            simpa using recording.task_resolves env
    | _ => exact hright.tasks

/-- Answers that differ in the Hedera columns of a row only. -/
def DeliveryCall.Alike (c : DeliveryCall) (r r' : Except Failure c.Resp) : Prop :=
  c.visible r = c.visible r'

/-- A program that does not look at the Hedera columns comes to the same points. -/
theorem workerBlind_of_ignores {α : Type} {p : DeliveryProgram α}
    (h : p.Ignores DeliveryCall.Alike) (behaviour behaviour' : HederaBehaviour) :
    WorkerBlind env behaviour behaviour' p := by
  intro db s s' w point hhalts
  have hstart : WorkerWorld.Alike ⟨db, s, [], []⟩ ⟨db, s', [], []⟩ :=
    ⟨.refl db, rfl, fun _ hp => (List.not_mem_nil hp).elim⟩
  obtain ⟨w', hhalts', hR⟩ := h.haltsAt (E := workerAnswers env behaviour)
    (F := workerAnswers env behaviour') (fun _ _ _ _ _ => workerAnswers_alike) hstart hhalts
  exact ⟨w', hhalts', hR.seen, hR.db⟩

/-- A call that answers no row. -/
theorem ignores_call {c : DeliveryCall} (h : ∀ r : Except Failure c.Resp, c.visible r = r) :
    (Program.perform (S := deliverySig) (ε := Failure) c).Ignores DeliveryCall.Alike :=
  Program.ignores_perform fun r r' hr => (h r).symm.trans (hr.trans (h r'))

/-- The row that an update answers is not looked at. -/
theorem ignores_update {α : Type} {id : String} {data : ServiceRequestUpdate}
    {p : DeliveryProgram α} (hp : p.Ignores DeliveryCall.Alike) :
    (DeliveryProgram.update id data >>= fun _ => p).Ignores DeliveryCall.Alike := by
  refine Program.ignores_discard hp fun r r' hr => ?_
  rcases r with e | row <;> rcases r' with e' | row'
  · exact congrArg Except.error (Except.error.inj hr)
  · cases hr
  · cases hr
  · rfl

variable (worker : WorkerEnv) (web3 : Web3) (row : ClaimableRequest)

theorem signatureOf_ignores :
    (signatureOf (solanaAdapter web3) row).Ignores DeliveryCall.Alike := by
  rw [signatureOf]
  split
  · exact Program.ignores_pure _
  · refine Program.ignores_bind (ignores_call fun _ => rfl) fun lamports => ?_
    refine Program.ignores_bind ?_ fun signature => ignores_update (Program.ignores_pure _)
    simp only [solanaAdapter]
    split
    · exact ignores_call fun _ => rfl
    · exact Program.ignores_throw _

theorem confirmAndVerify_ignores (signature : String) :
    (confirmAndVerify worker (solanaAdapter web3) row signature).Ignores DeliveryCall.Alike := by
  have hread : (DeliveryProgram.getTransaction signature).Ignores DeliveryCall.Alike :=
    ignores_call fun _ => rfl
  refine Program.ignores_bind ?_ fun confirmation => Program.ignores_bind ?_ fun memo => ?_
  · refine Program.ignores_bind (ignores_call fun _ => rfl) fun _ => ?_
    exact Program.ignores_bind hread fun _ => Program.ignores_pure _
  · refine Program.ignores_bind hread fun tx => ?_
    split
    · exact Program.ignores_pure _
    · exact Program.ignores_throw _
  · split
    · exact Program.ignores_throw _
    · refine ignores_update (Program.ignores_bind (ignores_call fun _ => rfl) fun _ => ?_)
      exact ignores_call fun _ => rfl

theorem attempt_ignores : (attempt worker web3 row).Ignores DeliveryCall.Alike := by
  refine Program.ignores_tryCatch ?_ fun e => ?_
  · rw [processServiceRequest_eq]
    refine Program.ignores_bind (ignores_call fun _ => rfl) fun _ => ?_
    refine Program.ignores_bind (signatureOf_ignores web3 row) fun signature => ?_
    exact confirmAndVerify_ignores worker web3 row signature
  · exact Program.ignores_bind (ignores_call fun _ => rfl) fun _ => Program.ignores_pure _

theorem runOnce_ignores : (runOnce worker web3).Ignores DeliveryCall.Alike := by
  refine Program.ignores_bind ?_ fun claimed => ?_
  · refine Program.ignores_bind (ignores_call fun _ => rfl) fun candidate => ?_
    split
    · exact Program.ignores_pure _
    · refine Program.ignores_bind (ignores_call fun _ => rfl) fun count => ?_
      split
      · exact Program.ignores_pure _
      · exact Program.ignores_pure _
  · split
    · exact Program.ignores_pure _
    · exact Program.ignores_bind (attempt_ignores worker web3 _) fun _ => Program.ignores_pure _

theorem drainFrom_ignores (fuel processed : ℕ) :
    (drainFrom worker web3 fuel processed).Ignores DeliveryCall.Alike := by
  induction fuel generalizing processed with
  | zero => exact Program.ignores_pure _
  | succ fuel ih =>
      refine Program.ignores_bind (runOnce_ignores worker web3) fun more => ?_
      cases more with
      | true => exact ih _
      | false => exact Program.ignores_pure _

theorem pollFor_ignores (ticks : ℕ) : (pollFor worker web3 ticks).Ignores DeliveryCall.Alike := by
  induction ticks with
  | zero => exact Program.ignores_pure _
  | succ ticks ih =>
      refine Program.ignores_bind (Program.ignores_tryCatch ?_ fun _ => Program.ignores_pure _)
        fun _ => ih
      exact Program.ignores_bind (runOnce_ignores worker web3) fun _ => Program.ignores_pure _

end Worker

/-! ## The intake route -/

/-- The calls that anchor a request on Hedera. -/
def ServerCall.Anchors : ServerCall → Prop
  | recordOnHedera _ => True
  | serviceRequestUpdate _ data => ∃ u, data = { hedera := u }
  | _ => False

/-- The calls that do not. -/
def ServerCall.Plain : ServerCall → Prop
  | recordOnHedera _ | serviceRequestUpdate _ _ => False
  | _ => True

section Route

variable {env : HederaVars} {sdk sdk' : HederaSdk}

/-- The worlds differ in what Hedera has done. -/
structure PostWorld.Alike {σ σ' : Type} (w : PostWorld σ) (w' : PostWorld σ') : Prop where
  db : w.db.SameButHedera w'.db
  seen : w'.seen = w.seen

theorem postAnswers_alike {w w₁ : PostWorld sdk.State} {w' : PostWorld sdk'.State}
    {c : ServerCall} {r : Except Failure c.Resp} (hc : c.Plain) (h : w.Alike w')
    (hanswer : postAnswers env sdk w c w₁ r) :
    ∃ w₁', postAnswers env sdk' w' c w₁' r ∧ w₁.Alike w₁' := by
  obtain ⟨columns, hcolumns⟩ := h.db
  obtain ⟨columns', hdb⟩ : ∃ columns', c.Exec w'.db (w₁.db.withHedera columns') r ∨
      w₁.db.withHedera columns' = w'.db ∧ ∃ e, r = .error e := by
    have hexec : c.Exec w.db w₁.db r ∨ w₁.db = w.db ∧ ∃ e, r = .error e := by
      cases c with
      | recordOnHedera _ => exact hc.elim
      | _ => exact hanswer.2.2
    rw [hcolumns]
    rcases hexec with hexec | ⟨hdb, herror⟩
    · obtain ⟨columns', hexec'⟩ := hexec.withHedera columns
      exact ⟨columns', Or.inl hexec'⟩
    · exact ⟨columns, Or.inr ⟨by rw [hdb], herror⟩⟩
  refine ⟨⟨w₁.db.withHedera columns', w'.sdk, w'.seen ++ c.exchange r⟩, ⟨rfl, ?_⟩,
    ⟨⟨columns', rfl⟩, by rw [hanswer.1, h.seen]⟩⟩
  cases c with
  | recordOnHedera _ => exact hc.elim
  | _ => exact ⟨rfl, hdb⟩

theorem only_plain_matched {α : Type} {p : ServerProgram α} (h : p.Only ServerCall.Plain) :
    p.Matched (postAnswers env sdk) (postAnswers env sdk') PostWorld.Alike :=
  h.matched fun _ _ _ _ _ => postAnswers_alike

/-- What anchoring does, the Hedera columns apart, is nothing. -/
theorem Anchors.alike {w w₁ : PostWorld sdk.State} {c : ServerCall} {r : Except Failure c.Resp}
    (hc : c.Anchors) (hanswer : postAnswers env sdk w c w₁ r) :
    w₁.seen = w.seen ∧ (w₁.db = w.db ∨ ∃ id u, w₁.db = w.db.updateRequest id { hedera := u }) := by
  cases c with
  | recordOnHedera payload =>
      exact ⟨hanswer.1.trans (List.append_nil _), Or.inl hanswer.2.1⟩
  | serviceRequestUpdate id data =>
      obtain ⟨u, rfl⟩ := hc
      refine ⟨hanswer.1.trans (List.append_nil _), ?_⟩
      exact (Db.SameButHedera.of_write hanswer.2.2).imp_right fun h => ⟨id, u, h⟩
  | _ => exact hc.elim

/-- Anchoring is answered. -/
theorem Anchors.total {c : ServerCall} (hc : c.Anchors) (w : PostWorld sdk.State) :
    ∃ w' r, postAnswers env sdk w c w' r := by
  cases c with
  | recordOnHedera payload =>
      obtain ⟨s', r, hrun⟩ := Program.exists_runs sdk.settles
        (HederaProgram.recordOnHedera env payload) w.sdk
      exact ⟨⟨w.db, s', _⟩, r, rfl, rfl, hrun⟩
  | serviceRequestUpdate id data =>
      cases hrow : w.db.request? id with
      | some row =>
          refine ⟨⟨w.db.updateRequest id data, w.sdk, _⟩, .ok (), rfl, rfl, Or.inl ?_⟩
          simp [ServerCall.Exec, hrow]
      | none => exact ⟨⟨w.db, w.sdk, _⟩, .error .recordNotFound, rfl, rfl, Or.inr ⟨rfl, _, rfl⟩⟩
  | _ => exact hc.elim

theorem anchorOnHedera_matched (id : String) (payload : HederaPayload) :
    (anchorOnHedera id payload).Matched (postAnswers env sdk) (postAnswers env sdk')
      PostWorld.Alike := by
  have hresolves : (anchorOnHedera id payload).Resolves :=
    Program.resolves_tryCatch fun _ => Program.resolves_pure ()
  refine hresolves.matched (anchorOnHedera_only (A := ServerCall.Anchors) (fun _ => trivial)
    (fun _ u => ⟨u, rfl⟩) id payload) ?_ (fun _ w' _ hc _ => Anchors.total hc w') ?_
  · intro w w' c w₁ r hc h hanswer
    obtain ⟨hseen, hdb | ⟨_, _, hdb⟩⟩ := Anchors.alike hc hanswer
    · exact ⟨hdb ▸ h.db, h.seen.trans hseen.symm⟩
    · exact ⟨hdb ▸ h.db.hedera_left _ _, h.seen.trans hseen.symm⟩
  · intro w w' c w₁ r hc h hanswer
    obtain ⟨hseen, hdb | ⟨_, _, hdb⟩⟩ := Anchors.alike hc hanswer
    · exact ⟨hdb ▸ h.db, hseen.trans h.seen⟩
    · exact ⟨hdb ▸ h.db.hedera_right _ _, hseen.trans h.seen⟩

variable (web3 : Web3) (evmAppWalletAddress : Option String)

theorem stage_matched (input : ServiceRequestInput) (auth : UserAuthContext)
    (recipient : Recipient) (agentENSName : Option String) :
    (stage evmAppWalletAddress input auth recipient agentENSName).Matched (postAnswers env sdk)
      (postAnswers env sdk') PostWorld.Alike := by
  refine Program.matched_bind (only_plain_matched (quota_only (fun _ => trivial) _))
    fun attestedAt => ?_
  refine Program.matched_bind (only_plain_matched ((Program.only_perform _).2 trivial)) fun id => ?_
  exact Program.matched_bind (anchorOnHedera_matched _ _) fun _ => Program.matched_done _

theorem serve_matched (input : ServiceRequestInput) (auth : UserAuthContext) :
    (serve web3 evmAppWalletAddress input auth).Matched (postAnswers env sdk)
      (postAnswers env sdk') PostWorld.Alike := by
  refine Program.matched_bind (only_plain_matched ?_) fun resolved => ?_
  · rw [resolveRecipient]
    split
    · exact Program.only_bind ((Program.only_perform _).2 trivial) fun _ => Program.only_pure _
    · exact Program.only_pure _
  · split
    · exact Program.matched_done _
    · refine Program.matched_bind (only_plain_matched ((Program.only_perform _).2 trivial))
        fun agentENSName => ?_
      refine Program.matched_bind (Program.matched_done _) fun refused => ?_
      split
      · exact Program.matched_done _
      · refine Program.matched_bind (only_plain_matched (chargeOrg_only (fun _ => trivial) _))
          fun response => ?_
        split
        · exact Program.matched_done _
        · exact stage_matched _ _ _ _ _

theorem postServiceRequests_matched (clientKey : String) (session : Session)
    (body : Option Json) :
    (postServiceRequests web3 evmAppWalletAddress clientKey session body).Matched
      (postAnswers env sdk) (postAnswers env sdk') PostWorld.Alike := by
  refine Program.matched_bind (only_plain_matched ((Program.only_perform _).2 trivial))
    fun refused => ?_
  split
  · exact Program.matched_done _
  · split
    · exact Program.matched_done _
    · split
      · exact Program.matched_done _
      · split
        · exact Program.matched_done _
        · exact serve_matched web3 evmAppWalletAddress _ _

end Route

/-- However the SDK behaves, the intake route responds in the same way, and the worker comes to
the same points, with the same drain count, whether it drains or polls; both leave the same
database but for the Hedera columns. -/
theorem hedera_noninterference (env : HederaVars) (worker : WorkerEnv) (web3 : Web3)
    (behaviour behaviour' : HederaBehaviour) :
    (∀ clientKey session body, PostBlind env behaviour.toHederaSdk behaviour'.toHederaSdk
      (postServiceRequests web3 worker.evmAppWalletAddress clientKey session body)) ∧
      (∀ fuel, WorkerBlind env behaviour behaviour' (drain worker web3 fuel)) ∧
      ∀ ticks, WorkerBlind env behaviour behaviour' (pollFor worker web3 ticks) := by
  refine ⟨?_, fun fuel => ?_, fun ticks => ?_⟩
  · intro clientKey session body db s s' w response hrun
    have hstart : PostWorld.Alike ⟨db, s, []⟩ ⟨db, s', []⟩ := ⟨.refl db, rfl⟩
    obtain ⟨w', hrun', h⟩ := postServiceRequests_matched web3 _ clientKey session body
      _ _ _ _ hstart hrun
    exact ⟨w', hrun', h.seen, h.db⟩
  · exact workerBlind_of_ignores (drainFrom_ignores worker web3 fuel 0) _ _
  · exact workerBlind_of_ignores (pollFor_ignores worker web3 ticks) _ _

end EpsDapp
