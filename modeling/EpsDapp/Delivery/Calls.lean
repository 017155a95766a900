import EpsDapp.Delivery.Failure

/-!
# The calls of a delivery

What the worker and the demo routes await: their statements on the
`ServiceRequest` table, the failure transaction, the RPC of the Solana cluster,
and Hedera. The recordings that the worker starts without awaiting them are
calls too, which only start them.
-/

set_option autoImplicit false

namespace EpsDapp

open Calendar Effect

/-- The statuses a poller may claim: `CLAIMABLE`. -/
def ServiceStatus.Claimable : ServiceStatus → Prop
  | .staged | .inProgress => True
  | .confirmed | .failed => False

instance : DecidablePred ServiceStatus.Claimable := fun s => by
  cases s <;> unfold ServiceStatus.Claimable <;> infer_instance

theorem ServiceStatus.claimable_iff_not_terminal (s : ServiceStatus) :
    s.Claimable ↔ ¬ s.Terminal := by
  cases s <;> simp [Claimable, Terminal]

/-- `ClaimableRequest`: the columns the worker selects. The source types `orgId`
as a string; the column is nullable. -/
structure ClaimableRequest where
  id : String
  status : ServiceStatus
  orgId : Option String
  recipientWallet : String
  noticeToken : Option String
  documentSha256 : Option String
  txSignature : Option String
  caseCaption : String
  agentENSName : Option String
  deriving DecidableEq

/-- The worker's selection of a row. -/
def ServiceRequest.select (r : ServiceRequest) : ClaimableRequest where
  id := r.id
  status := r.status
  orgId := r.orgId
  recipientWallet := r.recipientWallet
  noticeToken := r.noticeToken
  documentSha256 := r.documentSha256
  txSignature := r.txSignature
  caseCaption := r.caseCaption
  agentENSName := r.agentENSName

/-- The calls of the Solana client. -/
inductive ChainCall
  /-- Building the adapter reads the environment, and throws when it is not set
  or points at mainnet. -/
  | getSolanaAdapter
  | getRentExemptMinimum
  | sendTransaction (recipient : PublicKey) (lamports : ℕ) (memo : String)
  | confirmTransaction (signature : String)
  | getTransaction (signature : String)

/-- The answer of each call. `sendTransaction` answers the signature and
`confirmTransaction` its `value.err`. -/
@[reducible] def ChainCall.Resp : ChainCall → Type
  | getSolanaAdapter => Unit
  | getRentExemptMinimum => ℕ
  | sendTransaction _ _ _ => String
  | confirmTransaction _ => Option String
  | getTransaction _ => Option TransactionResponse

/-- What `mintAndTransferProofNFT` resolves to. -/
structure ProofNFT where
  tokenId : String
  serial : ℤ
  transferTx : String

/-- A recording that the worker starts and does not await. -/
inductive Recording
  | recordOnHedera (payload : HederaPayload)
  | mintAndTransferProofNFT (caseId : String) (hcsTopicId : Option String)
  deriving DecidableEq

/-- The calls of the worker and of the demo routes. -/
inductive DeliveryCall
  | serviceRequestFindClaimable
  /-- `updateMany` to `IN_PROGRESS` with the guard `status in CLAIMABLE`. -/
  | serviceRequestClaim (id : String)
  | serviceRequestUpdate (id : String) (data : ServiceRequestUpdate)
  /-- `findFirst` by id and owner. -/
  | serviceRequestFindOwned (id userId : String)
  | failServiceRequest (input : FailServiceRequestInput)
  | chain (c : ChainCall)
  | record (r : Recording)
  | topicMessageSubmit (serviceId : String)
  | mintAndTransferProofNFT (caseId : String)

/-- The answer of each call; an `updateMany` answers its `count`, and a topic
message its transaction id and sequence number. -/
@[reducible] def DeliveryCall.Resp : DeliveryCall → Type
  | serviceRequestFindClaimable => Option ClaimableRequest
  | serviceRequestClaim _ => ℕ
  | serviceRequestUpdate _ _ => ServiceRequest
  | serviceRequestFindOwned _ _ => Option ServiceRequest
  | failServiceRequest _ => Bool
  | chain c => c.Resp
  | record _ => Unit
  | topicMessageSubmit _ => String × ℤ
  | mintAndTransferProofNFT _ => Option ProofNFT

abbrev deliverySig : Signature := ⟨DeliveryCall, DeliveryCall.Resp⟩

abbrev DeliveryProgram := Program deliverySig Failure

namespace Db

/-- `candidate` is what the worker's `findFirst` may answer: an oldest claimable
row. -/
def Oldest (db : Db) (candidate : Option ServiceRequest) : Prop :=
  db.serviceRequests.IsFirst (fun r => r.status.Claimable)
    (fun r r' => r.createdAt < r'.createdAt) candidate

/-- The claim of the row `id`, and how many rows it changed. -/
def claim (db : Db) (id : String) : Db × ℕ :=
  match db.request? id with
  | some r =>
      if r.status.Claimable then (db.updateRequest id { status := some .inProgress }, 1)
      else (db, 0)
  | none => (db, 0)

theorem claim_of_claimable (db : Db) {id : String} {row : ServiceRequest}
    (hrow : db.request? id = some row) (h : row.status.Claimable) :
    db.claim id = (db.updateRequest id { status := some .inProgress }, 1) := by
  rw [claim, hrow]
  exact if_pos h

theorem claim_of_not_claimable (db : Db) {id : String}
    (h : ∀ row, db.request? id = some row → ¬ row.status.Claimable) :
    db.claim id = (db, 0) := by
  rw [claim]
  cases hrow : db.request? id with
  | none => rfl
  | some row => exact if_neg (h row hrow)

end Db

/-- What each call does to the database, and what the database lets it answer:
the other services answer as they like. -/
def DeliveryCall.Exec (db : Db) : (c : DeliveryCall) → Db → Except Failure c.Resp → Prop
  | serviceRequestFindClaimable, db', r => db' = db ∧ ∃ candidate, db.Oldest candidate ∧
      r = .ok (candidate.map ServiceRequest.select)
  | serviceRequestClaim id, db', r => db' = (db.claim id).1 ∧ r = .ok (db.claim id).2
  | serviceRequestUpdate id data, db', r =>
      match db.request? id with
      | some row => db' = db.updateRequest id data ∧ r = .ok (data.apply row)
      | none => db' = db ∧ r = .error .recordNotFound
  | serviceRequestFindOwned id userId, db', r => db' = db ∧
      r = .ok ((db.request? id).filter fun row => row.userId == some userId)
  | failServiceRequest input, db', r =>
      (EpsDapp.failServiceRequest input).RunsAtomically serverAnswers db db' r
  | chain _, db', _ => db' = db
  | record _, db', r => db' = db ∧ r = .ok ()
  | topicMessageSubmit _, db', _ => db' = db
  | mintAndTransferProofNFT _, db', _ => db' = db

/-- The answers of the database when no statement of it fails. -/
def deliveryAnswers : Answers deliverySig Failure Db := DeliveryCall.Exec

theorem Db.exists_oldest (db : Db) : ∃ candidate, db.Oldest candidate :=
  ⟨_, db.serviceRequests.findFirst_isFirst (fun r => r.status.Claimable) ServiceRequest.createdAt⟩

/-- The failure transaction commits or throws. -/
theorem failServiceRequest_total (input : FailServiceRequestInput) (db : Db) :
    ∃ db' r, (EpsDapp.failServiceRequest input).RunsAtomically serverAnswers db db' r := by
  simp only [failServiceRequest_runsAtomically_iff]
  by_cases hreason : ReasonStorable input.reason
  swap
  · exact ⟨db, _, Or.inr (Or.inr (Or.inr ⟨rfl, hreason, rfl⟩))⟩
  cases hrow : db.request? input.serviceRequestId with
  | none => exact ⟨db, _, Or.inr (Or.inl ⟨rfl, hreason, rfl, rfl⟩)⟩
  | some row =>
      cases horg : input.orgId with
      | none => exact ⟨db, _, Or.inr (Or.inr (Or.inl ⟨rfl, hreason, ⟨row, rfl⟩, rfl, rfl⟩))⟩
      | some o =>
          obtain ⟨sel, hsel⟩ := db.exists_latestSubscription (.activeOfOrg (some o))
          exact ⟨_, _, Or.inl ⟨row, o, sel, hreason, rfl, rfl, hsel, rfl, rfl⟩⟩

/-- Every call has an answer. The services other than the database may give any:
`prefer` says which. -/
theorem deliveryAnswers_total (prefer : (c : DeliveryCall) → Except Failure c.Resp) (db : Db)
    (c : DeliveryCall) :
    ∃ db' r, deliveryAnswers db c db' r ∧ ∀ call, c = .chain call → r = prefer c := by
  cases c with
  | serviceRequestFindClaimable =>
      obtain ⟨candidate, h⟩ := db.exists_oldest
      exact ⟨db, _, ⟨rfl, candidate, h, rfl⟩, nofun⟩
  | serviceRequestClaim id => exact ⟨_, _, ⟨rfl, rfl⟩, nofun⟩
  | serviceRequestUpdate id data =>
      cases hrow : db.request? id with
      | none =>
          exact ⟨db, .error .recordNotFound, by simp [deliveryAnswers, DeliveryCall.Exec, hrow]⟩
      | some row =>
          exact ⟨db.updateRequest id data, .ok (data.apply row),
            by simp [deliveryAnswers, DeliveryCall.Exec, hrow]⟩
  | serviceRequestFindOwned id userId => exact ⟨_, _, ⟨rfl, rfl⟩, nofun⟩
  | failServiceRequest input =>
      obtain ⟨db', r, h⟩ := failServiceRequest_total input db
      exact ⟨db', r, h, nofun⟩
  | chain c => exact ⟨db, prefer (.chain c), rfl, fun _ _ => rfl⟩
  | record _ => exact ⟨_, _, ⟨rfl, rfl⟩, nofun⟩
  | topicMessageSubmit serviceId => exact ⟨db, prefer (.topicMessageSubmit serviceId), rfl, nofun⟩
  | mintAndTransferProofNFT caseId =>
      exact ⟨db, prefer (.mintAndTransferProofNFT caseId), rfl, nofun⟩

/-- The calls that go to the database. -/
def DeliveryCall.Statement : DeliveryCall → Prop
  | serviceRequestFindClaimable | serviceRequestClaim _ | serviceRequestUpdate _ _
  | serviceRequestFindOwned _ _ | failServiceRequest _ => True
  | _ => False

/-- The answers of a database any statement of which may throw, without
effect. -/
def faultyAnswers : Answers deliverySig Failure Db := fun db c db' r =>
  DeliveryCall.Exec db c db' r ∨
    (DeliveryCall.Statement c ∧ db' = db ∧ ∃ e, r = .error e)

/-- The transaction of a failure that can be parked may commit. -/
theorem faultyAnswers_parks {db : Db} {input : FailServiceRequestInput} {row : ServiceRequest}
    {o : String} {sel : Option Subscription} (hreason : ReasonStorable input.reason)
    (hrow : db.request? input.serviceRequestId = some row) (horg : input.orgId = some o)
    (hsel : db.LatestSubscription (.activeOfOrg (some o)) sel) :
    faultyAnswers db (.failServiceRequest input) (input.commit db sel).1
      (.ok (input.commit db sel).2) :=
  Or.inl ((failServiceRequest_runsAtomically_iff input db _ _).2
    (Or.inl ⟨row, o, sel, hreason, hrow, horg, hsel, rfl, rfl⟩))

/-! ## What a call does to the rows -/

/-- The row a call writes to and what it writes, given its answer. -/
def DeliveryCall.write : (c : DeliveryCall) → Except Failure c.Resp →
    Option (String × ServiceRequestUpdate)
  | serviceRequestClaim id, .ok (_ + 1) => some (id, { status := some .inProgress })
  | serviceRequestUpdate id data, .ok _ => some (id, data)
  | failServiceRequest input, .ok _ => some (input.serviceRequestId, input.update)
  | _, _ => none

/-- The rows after a call: its write has been applied to a row that exists, and
is claimable if the call is a claim; or nothing has been written. -/
theorem rows_of_faultyAnswers {db db' : Db} {c : DeliveryCall} {r : Except Failure c.Resp}
    (h : faultyAnswers db c db' r) :
    (∃ id u row, c.write r = some (id, u) ∧ db.request? id = some row ∧
        (∀ i, c = .serviceRequestClaim i → row.status.Claimable) ∧
        db'.serviceRequests = (db.updateRequest id u).serviceRequests) ∨
      (c.write r = none ∧ db'.serviceRequests = db.serviceRequests) := by
  rcases h with h | ⟨_, rfl, e, rfl⟩
  · cases c with
    | serviceRequestFindClaimable =>
        obtain ⟨rfl, _⟩ := h
        exact Or.inr ⟨rfl, rfl⟩
    | serviceRequestClaim id =>
        obtain ⟨rfl, rfl⟩ := h
        by_cases hclaimable : ∃ row, db.request? id = some row ∧ row.status.Claimable
        · obtain ⟨row, hrow, hrow'⟩ := hclaimable
          rw [db.claim_of_claimable hrow hrow']
          exact Or.inl ⟨id, _, row, rfl, hrow, fun _ _ => hrow', rfl⟩
        · rw [db.claim_of_not_claimable fun row hrow hrow' => hclaimable ⟨row, hrow, hrow'⟩]
          exact Or.inr ⟨rfl, rfl⟩
    | serviceRequestUpdate id data =>
        simp only [DeliveryCall.Exec] at h
        cases hrow : db.request? id with
        | none =>
            simp only [hrow] at h
            obtain ⟨rfl, rfl⟩ := h
            exact Or.inr ⟨rfl, rfl⟩
        | some row =>
            simp only [hrow] at h
            obtain ⟨rfl, rfl⟩ := h
            exact Or.inl ⟨id, data, row, rfl, hrow, nofun, rfl⟩
    | serviceRequestFindOwned id userId =>
        obtain ⟨rfl, _⟩ := h
        exact Or.inr ⟨rfl, rfl⟩
    | failServiceRequest input =>
        rcases failServiceRequest_commits_or_throws h with
          ⟨row, _, sel, _, hrow, _, _, rfl, rfl⟩ | ⟨rfl, e, rfl⟩
        · exact Or.inl ⟨_, _, row, rfl, hrow, nofun,
            input.commit_serviceRequests db sel⟩
        · exact Or.inr ⟨rfl, rfl⟩
    | chain c =>
        obtain rfl : db' = db := h
        exact Or.inr ⟨rfl, rfl⟩
    | record _ =>
        obtain ⟨rfl, _⟩ := h
        exact Or.inr ⟨rfl, rfl⟩
    | topicMessageSubmit _ =>
        obtain rfl : db' = db := h
        exact Or.inr ⟨rfl, rfl⟩
    | mintAndTransferProofNFT _ =>
        obtain rfl : db' = db := h
        exact Or.inr ⟨rfl, rfl⟩
  · refine Or.inr ⟨?_, rfl⟩
    cases c <;> rfl

/-- The audit rows a call adds, given its answer. -/
def DeliveryCall.audits : (c : DeliveryCall) → Except Failure c.Resp → List AuditLog
  | failServiceRequest input, .ok restored => [serviceFailed input restored]
  | _, _ => []

/-- The audit trail after a call. -/
theorem auditLogs_of_faultyAnswers {db db' : Db} {c : DeliveryCall} {r : Except Failure c.Resp}
    (h : faultyAnswers db c db' r) : db'.auditLogs = db.auditLogs ++ c.audits r := by
  rcases h with h | ⟨_, rfl, e, rfl⟩
  · cases c with
    | failServiceRequest input =>
        rcases failServiceRequest_commits_or_throws h with
          ⟨row, _, sel, _, _, _, _, rfl, rfl⟩ | ⟨rfl, e, rfl⟩
        · exact input.commit_auditLogs db sel
        · exact (List.append_nil _).symm
    | serviceRequestFindClaimable => exact h.1 ▸ (List.append_nil _).symm
    | serviceRequestClaim id =>
        obtain ⟨rfl, rfl⟩ := h
        rw [Db.claim]
        split
        · split
          · exact (List.append_nil _).symm
          · exact (List.append_nil _).symm
        · exact (List.append_nil _).symm
    | serviceRequestUpdate id data =>
        simp only [DeliveryCall.Exec] at h
        split at h
        · exact h.1 ▸ (List.append_nil _).symm
        · exact h.1 ▸ (List.append_nil _).symm
    | serviceRequestFindOwned id userId => exact h.1 ▸ (List.append_nil _).symm
    | record _ => exact h.1 ▸ (List.append_nil _).symm
    | chain _ | topicMessageSubmit _ | mintAndTransferProofNFT _ =>
        obtain rfl : db' = db := h
        exact (List.append_nil _).symm
  · cases c <;> exact (List.append_nil _).symm

/-- The row `j` after a call. -/
theorem request?_of_faultyAnswers {db db' : Db} {c : DeliveryCall}
    {r : Except Failure c.Resp} (h : faultyAnswers db c db' r) (j : String) :
    db'.request? j = match c.write r with
      | some (id, u) => if j = id then (db.request? id).map u.apply else db.request? j
      | none => db.request? j := by
  rcases rows_of_faultyAnswers h with ⟨id, u, row, hwrite, _, _, hrows⟩ | ⟨hwrite, hrows⟩
  · rw [hwrite]
    refine Eq.trans ?_ (db.request?_updateRequest id j u)
    rw [Db.request?, hrows, Db.request?]
  · rw [hwrite, Db.request?, hrows, Db.request?]

/-- The candidate a worker finds is a claimable row. -/
theorem candidate_of_faultyAnswers {db db' : Db} {row : ClaimableRequest}
    (h : faultyAnswers db .serviceRequestFindClaimable db' (.ok (some row))) :
    db' = db ∧ ∃ r, db.request? r.id = some r ∧ r.status.Claimable ∧ row = r.select := by
  rcases h with ⟨rfl, candidate, hcandidate, h⟩ | ⟨_, _, e, h⟩
  · cases candidate with
    | none => cases h
    | some r =>
        cases h
        exact ⟨rfl, r, (db'.request?_eq_some_iff r.id r).2 ⟨hcandidate.1, rfl⟩,
          hcandidate.2.1, rfl⟩
  · cases h

/-- What others may do to the database while a delivery is under way: stage a
request, land a recording on the Hedera columns of a row, or write to other
tables. -/
inductive Db.Drift (db : Db) : Db → Prop
  | stage (r : ServiceRequest) (h : db.request? r.id = none) (hstatus : r.status = .staged)
      (hsignature : r.txSignature = none) : Drift db (db.insertRequest r h)
  | record (id : String) (u : HederaUpdate) : Drift db (db.updateRequest id { hedera := u })
  | other {db' : Db} (h : db'.serviceRequests = db.serviceRequests) : Drift db db'

/-- Every row of `db` is still in `db'`, unchanged in what the worker sees of
it. -/
def Db.Retains (db db' : Db) : Prop :=
  ∀ id row, db.request? id = some row →
    ∃ row', db'.request? id = some row' ∧ row'.select = row.select

theorem Db.Retains.refl (db : Db) : db.Retains db := fun _ row h => ⟨row, h, rfl⟩

theorem Db.Retains.trans {db₁ db₂ db₃ : Db} (h : db₁.Retains db₂) (h' : db₂.Retains db₃) :
    db₁.Retains db₃ := by
  intro id row hrow
  obtain ⟨row₂, hrow₂, hselect⟩ := h id row hrow
  obtain ⟨row₃, hrow₃, hselect'⟩ := h' id row₂ hrow₂
  exact ⟨row₃, hrow₃, hselect'.trans hselect⟩

/-- What others do leaves every row as the worker sees it. -/
theorem Db.Drift.retains {db db' : Db} (h : db.Drift db') : db.Retains db' := by
  intro id row hrow
  cases h with
  | stage r hfree _ _ =>
      exact ⟨row, db.serviceRequests.get?_insert_of_some r hfree hrow, rfl⟩
  | record j u =>
      rw [Db.request?_updateRequest]
      split
      · rename_i hj
        subst hj
        rw [hrow]
        exact ⟨_, rfl, rfl⟩
      · exact ⟨row, hrow, rfl⟩
  | other h =>
      refine ⟨row, ?_, rfl⟩
      rw [Db.request?, h]
      exact hrow

namespace DeliveryProgram

def findClaimable : DeliveryProgram (Option ClaimableRequest) :=
  Program.perform (S := deliverySig) .serviceRequestFindClaimable

def claim (id : String) : DeliveryProgram ℕ :=
  Program.perform (S := deliverySig) (.serviceRequestClaim id)

def update (id : String) (data : ServiceRequestUpdate) : DeliveryProgram ServiceRequest :=
  Program.perform (S := deliverySig) (.serviceRequestUpdate id data)

def findOwned (id userId : String) : DeliveryProgram (Option ServiceRequest) :=
  Program.perform (S := deliverySig) (.serviceRequestFindOwned id userId)

def fail (input : FailServiceRequestInput) : DeliveryProgram Bool :=
  Program.perform (S := deliverySig) (.failServiceRequest input)

def record (r : Recording) : DeliveryProgram Unit :=
  Program.perform (S := deliverySig) (.record r)

def getRentExemptMinimum : DeliveryProgram ℕ :=
  Program.perform (S := deliverySig) (.chain .getRentExemptMinimum)

def sendTransaction (recipient : PublicKey) (lamports : ℕ) (memo : String) :
    DeliveryProgram String :=
  Program.perform (S := deliverySig) (.chain (.sendTransaction recipient lamports memo))

def confirmTransaction (signature : String) : DeliveryProgram (Option String) :=
  Program.perform (S := deliverySig) (.chain (.confirmTransaction signature))

def getTransaction (signature : String) : DeliveryProgram (Option TransactionResponse) :=
  Program.perform (S := deliverySig) (.chain (.getTransaction signature))

def topicMessageSubmit (serviceId : String) : DeliveryProgram (String × ℤ) :=
  Program.perform (S := deliverySig) (.topicMessageSubmit serviceId)

def mintAndTransferProofNFT (caseId : String) : DeliveryProgram (Option ProofNFT) :=
  Program.perform (S := deliverySig) (.mintAndTransferProofNFT caseId)

end DeliveryProgram

end EpsDapp
