import EpsDapp.Delivery.Calls

/-!
# The fulfilment worker

`SolanaAdapter`, `processServiceRequest` and the claim loop of `worker/index.ts`
as programs. A run of the worker is a run of `runOnce` after another: both
`drain` and `pollForever` only repeat it.
-/

set_option autoImplicit false

namespace EpsDapp

open Effect DeliveryProgram

/-- `DeliverParams`. -/
structure DeliverParams where
  recipientWallet : String
  lamports : ℕ
  memoParts : List String

/-- `ConfirmationResult`. -/
structure ConfirmationResult where
  slot : ℕ
  blockTime : Option ℤ

/-- `ChainAdapter`, less `deliver`, which the worker does not use. -/
structure ChainAdapter where
  send : DeliverParams → DeliveryProgram String
  confirm : String → DeliveryProgram ConfirmationResult
  getMemo : String → DeliveryProgram (Option String)

/-- `SolanaAdapter`. -/
def solanaAdapter (web3 : Web3) : ChainAdapter where
  send params :=
    match assertValidRecipient web3 params.recipientWallet with
    | .ok recipient =>
        sendTransaction recipient params.lamports
          (String.intercalate " | " params.memoParts)
    | .error e => throw e
  confirm signature := do
    -- The resolved `value.err` is not looked at.
    let _ ← confirmTransaction signature
    let confirmed ← getTransaction signature
    pure ⟨(confirmed.map TransactionResponse.slot).getD 0,
      confirmed.bind TransactionResponse.blockTime⟩
  getMemo signature := do
    let tx ← getTransaction signature
    match decodeMemo web3 tx with
    | .ok memo => pure memo
    | .error e => throw e

/-- `getSolanaAdapter`. -/
def getSolanaAdapter (web3 : Web3) : DeliveryProgram ChainAdapter := do
  Program.perform (S := deliverySig) (.chain .getSolanaAdapter)
  pure (solanaAdapter web3)

/-- The environment variables the worker reads. -/
structure WorkerEnv where
  evmAppWalletAddress : Option String
  hederaHcsTopicId : Option String

/-- The memo the worker sends for a row and checks against. -/
def ClaimableRequest.expectedMemo (row : ClaimableRequest) : String :=
  buildServiceMemo (row.documentSha256.getD "") (row.noticeToken.getD "") row.id

/-- What the worker records on Hedera for a row. -/
def ClaimableRequest.hederaPayload (env : WorkerEnv) (row : ClaimableRequest) :
    HederaPayload where
  deliveryId := row.id
  documentHash := row.documentSha256.getD ""
  caseRef := row.caseCaption
  servedTo := row.recipientWallet
  servedBy := (row.agentENSName.or env.evmAppWalletAddress).getD "eps-agent"

/-- The first half of `processServiceRequest`: the signature of the row, which a
fresh attempt sends for and persists. -/
def signatureOf (adapter : ChainAdapter) (row : ClaimableRequest) :
    DeliveryProgram String :=
  match row.txSignature with
  | some signature => pure signature
  | none => do
      let lamports ← getRentExemptMinimum
      let signature ← adapter.send ⟨row.recipientWallet, lamports, [row.expectedMemo]⟩
      let _ ← update row.id { txSignature := some signature }
      pure signature

/-- The second half of `processServiceRequest`: confirm, read the memo back, and
advance the row. -/
def confirmAndVerify (env : WorkerEnv) (adapter : ChainAdapter) (row : ClaimableRequest)
    (signature : String) : DeliveryProgram Unit := do
  let confirmation ← adapter.confirm signature
  let onChainMemo ← adapter.getMemo signature
  if onChainMemo ≠ some row.expectedMemo then throw (.memoMismatch row.id signature)
  else do
    let _ ← update row.id {
      status := some .confirmed
      slot := some confirmation.slot
      blockTime := some (confirmation.blockTime.map (· * 1000)) }
    record (.recordOnHedera (row.hederaPayload env))
    record (.mintAndTransferProofNFT row.id env.hederaHcsTopicId)

/-- `processServiceRequest`. -/
def processServiceRequest (env : WorkerEnv) (web3 : Web3) (row : ClaimableRequest) :
    DeliveryProgram Unit := do
  let adapter ← getSolanaAdapter web3
  let signature ← signatureOf adapter row
  confirmAndVerify env adapter row signature

/-- `claimNext`. -/
def claimNext : DeliveryProgram (Option ClaimableRequest) := do
  match ← findClaimable with
  | none => pure none
  | some candidate => do
      let count ← claim candidate.id
      if count = 0 then pure none
      else pure (some { candidate with status := .inProgress })

/-- `defaultDeps().fail`. -/
def failRow (row : ClaimableRequest) (reason : String) : DeliveryProgram Unit := do
  let _ ← fail {
    serviceRequestId := row.id
    orgId := row.orgId
    reason := reason
    txSignature := row.txSignature }
  pure ()

/-- What `runOnce` does with a row it has claimed. -/
def attempt (env : WorkerEnv) (web3 : Web3) (row : ClaimableRequest) : DeliveryProgram Unit :=
  tryCatch (processServiceRequest env web3 row) fun err => failRow row err.message

/-- `runOnce(defaultDeps())`. -/
def runOnce (env : WorkerEnv) (web3 : Web3) : DeliveryProgram Bool := do
  match ← claimNext with
  | none => pure false
  | some row => do
      attempt env web3 row
      pure true

/-- The loop of `drain`, for at most `fuel` turns: the number of jobs processed,
or nothing when the fuel ran out first. -/
def drainFrom (env : WorkerEnv) (web3 : Web3) : ℕ → ℕ → DeliveryProgram (Option ℕ)
  | 0, _ => pure none
  | fuel + 1, processed => do
      match ← runOnce env web3 with
      | true => drainFrom env web3 fuel (processed + 1)
      | false => pure (some processed)

/-- `drain(defaultDeps())`. -/
def drain (env : WorkerEnv) (web3 : Web3) (fuel : ℕ) : DeliveryProgram (Option ℕ) :=
  drainFrom env web3 fuel 0

/-- The first `ticks` ticks of `pollForever(defaultDeps())`. -/
def pollFor (env : WorkerEnv) (web3 : Web3) : ℕ → DeliveryProgram Unit
  | 0 => pure ()
  | ticks + 1 => do
      -- An error of the turn is logged, and the loop goes on.
      tryCatch (do
        let _ ← runOnce env web3
        pure ()) fun _ => pure ()
      pollFor env web3 ticks

end EpsDapp
