import EpsDapp.Delivery.Calls
import EpsDapp.Effect.Settled
import EpsDapp.Server.Session
import EpsDapp.Text.Json
import EpsDapp.Text.Utf8

/-!
# The Hedera modules

`HederaService.ts` and `mintAndTransferProofNFT.ts` as programs over the calls of the
Hedera SDK. A call is one expression that may throw: the objects of the SDK are
references, and what is read from a receipt is a call as well. The clock is read for
the messages only, so it is among these calls.
-/

set_option autoImplicit false

namespace EpsDapp

open Effect

/-- The environment variables of both modules. -/
structure HederaVars where
  operatorId : Option String
  operatorKey : Option String
  network : Option String
  hcsTopicId : Option String
  nftTokenId : Option String
  allowMainnet : Option String
  demoDefendantId : Option String

/-- `process.env.HEDERA_NETWORK === "mainnet"` -/
def HederaVars.isMainnet (env : HederaVars) : Bool := env.network == some "mainnet"

/-- A reference to an object of the SDK. -/
abbrev SdkObject := ℕ

/-- A transaction, with what it is built from. -/
inductive HederaTransaction
  | topicMessageSubmit (topicId message : String)
  /-- The token is named by its text, or is an object. -/
  | tokenMint (tokenId : String ⊕ SdkObject) (metadata : Bytes)
  /-- A collection of unique tokens, whose treasury is the operator. -/
  | tokenCreate (treasury key : SdkObject)
  /-- An account without balance, to which any number of tokens may be sent. -/
  | accountCreate (key : SdkObject)
  | nftTransfer (tokenId : SdkObject) (serial : ℤ) (sender receiver : SdkObject)

/-- What the Hedera modules await. -/
inductive HederaCall
  | importSdk
  | newClient (mainnet : Bool)
  | privateKeyFromStringDer (key : String)
  | generateED25519
  | accountIdFromString (id : String)
  | tokenIdFromString (id : String)
  | setOperator (client : SdkObject) (id : String ⊕ SdkObject) (key : SdkObject)
  /-- `freezeWith(client).sign(key)` -/
  | sign (tx : HederaTransaction) (client key : SdkObject)
  /-- Of a transaction that is built in place, or of one that has been signed. -/
  | execute (tx : HederaTransaction ⊕ SdkObject) (client : SdkObject)
  | getReceipt (response client : SdkObject)
  | topicSequenceNumber (receipt : SdkObject)
  | consensusTimestamp (receipt : SdkObject)
  /-- `receipt.serials?.[0]?.toNumber()` -/
  | serial (receipt : SdkObject)
  | tokenIdOf (receipt : SdkObject)
  | accountIdOf (receipt : SdkObject)
  | transactionId (response : SdkObject)
  | text (object : SdkObject)
  | close (client : SdkObject)
  /-- `new Date().toISOString()` -/
  | now
  /-- Which of two pending promises is settled first. -/
  | next

@[reducible] def HederaCall.Resp : HederaCall → Type
  | importSdk => Unit
  | newClient _ => SdkObject
  | privateKeyFromStringDer _ => SdkObject
  | generateED25519 => SdkObject
  | accountIdFromString _ => SdkObject
  | tokenIdFromString _ => SdkObject
  | setOperator _ _ _ => Unit
  | sign _ _ _ => SdkObject
  | execute _ _ => SdkObject
  | getReceipt _ _ => SdkObject
  | topicSequenceNumber _ => Option ℤ
  | consensusTimestamp _ => Option String
  | serial _ => Option ℤ
  | tokenIdOf _ => Option SdkObject
  | accountIdOf _ => Option SdkObject
  | transactionId _ => String
  | text _ => String
  | close _ => Unit
  | now => String
  | next => Bool

abbrev hederaSig : Signature := ⟨HederaCall, HederaCall.Resp⟩

abbrev HederaProgram := Program hederaSig Failure

namespace HederaProgram

/-- One call of the SDK. -/
def sdk (c : HederaCall) : HederaProgram c.Resp := Program.perform (S := hederaSig) c

/-- `try { p } finally { last }` -/
def tryFinally {α : Type} (p : HederaProgram α) (last : HederaProgram Unit) :
    HederaProgram α := do
  let result ← tryCatch (Except.ok <$> p) fun e => pure (Except.error e)
  last
  match result with
  | .ok a => pure a
  | .error e => throw e

/-- `buildClient`. -/
def buildClient (env : HederaVars) : HederaProgram (Option SdkObject) := do
  sdk .importSdk
  match truthy env.operatorId, truthy env.operatorKey with
  | some id, some key => do
      let client ← sdk (.newClient env.isMainnet)
      let privateKey ← sdk (.privateKeyFromStringDer key)
      sdk (.setOperator client (.inl id) privateKey)
      pure (some client)
  | _, _ => pure none

/-- A transaction is executed, and its receipt awaited. -/
def executed (tx : HederaTransaction ⊕ SdkObject) (client : SdkObject) :
    HederaProgram (SdkObject × SdkObject) := do
  let response ← sdk (.execute tx client)
  let receipt ← sdk (.getReceipt response client)
  pure (response, receipt)

/-- The address of the mirror node that serves `path`. -/
def mirrorNodeUrl (env : HederaVars) (path : String) : String :=
  "https://" ++ (if env.isMainnet then "mainnet" else "testnet") ++
    ".mirrornode.hedera.com/api/v1/" ++ path

/-- `submitToHCS`. -/
def submitToHCS (env : HederaVars) (payload : HederaPayload) :
    HederaProgram (Option HCSResult) :=
  match truthy env.hcsTopicId with
  | none => pure none
  | some topicId => do
      sdk .importSdk
      match ← buildClient env with
      | none => pure none
      | some client => do
          let submittedAt ← sdk .now
          let message := jsonStringify [("eps", "v1"), ("deliveryId", payload.deliveryId),
            ("documentHash", payload.documentHash), ("caseRef", payload.caseRef),
            ("servedTo", payload.servedTo), ("servedBy", payload.servedBy),
            ("submittedAt", submittedAt)]
          tryCatch (do
            let (response, receipt) ← executed (.inl (.topicMessageSubmit topicId message)) client
            sdk (.close client)
            let topicSequenceNumber ← sdk (.topicSequenceNumber receipt)
            let seqNum := topicSequenceNumber.getD 0
            let consensusTimestamp ← tryCatch (sdk (.consensusTimestamp receipt)) fun _ =>
              pure none
            let transactionId ← sdk (.transactionId response)
            pure (some {
              topicId := topicId
              sequenceNumber := seqNum
              consensusTimestamp := consensusTimestamp
              transactionId := transactionId
              mirrorNodeUrl := mirrorNodeUrl env
                ("topics/" ++ topicId ++ "/messages/" ++ toString seqNum) })) fun _ => do
            sdk (.close client)
            pure none

/-- `mintProofNFT`; the recordings pass it their whole payload. -/
def mintProofNFT (env : HederaVars) (payload : HederaPayload) :
    HederaProgram (Option HTSMintResult) :=
  match truthy env.nftTokenId with
  | none => pure none
  | some tokenId => do
      sdk .importSdk
      match ← buildClient env with
      | none => pure none
      | some client => do
          let mintedAt ← sdk .now
          let metadata := utf8Encode (jsonStringify [("eps", "v1"),
            ("deliveryId", payload.deliveryId), ("documentHash", payload.documentHash),
            ("caseRef", payload.caseRef), ("servedTo", payload.servedTo),
            ("servedBy", payload.servedBy), ("mintedAt", mintedAt)])
          tryCatch (do
            let (response, receipt) ← executed (.inl (.tokenMint (.inl tokenId) metadata)) client
            sdk (.close client)
            let serial ← sdk (.serial receipt)
            let serialNumber := serial.getD 0
            let transactionId ← sdk (.transactionId response)
            pure (some {
              tokenId := tokenId
              serialNumber := serialNumber
              transactionId := transactionId
              mirrorNodeUrl := mirrorNodeUrl env
                ("tokens/" ++ tokenId ++ "/nfts/" ++ toString serialNumber) })) fun _ => do
            sdk (.close client)
            pure none

/-- Which of two pending promises is settled first. -/
def next : HederaProgram Bool := tryCatch (sdk .next) fun _ => pure true

/-- `recordOnHedera`. -/
def recordOnHedera (env : HederaVars) (payload : HederaPayload) :
    HederaProgram HederaServiceResult := do
  let settled ← Program.allSettled next (submitToHCS env payload) (mintProofNFT env payload)
  pure ⟨settled.1.toOption.join, settled.2.toOption.join⟩

/-! ## The round trip of a proof -/

/-- `ProofNFTTransferResult`. -/
structure ProofNFTTransferResult extends ProofNFT where
  defendantId : String
  defendantCreated : Bool

/-- `ProofNFTMetadata`. -/
structure ProofNFTMetadata where
  caseId : String
  hcsTopicId : Option String := none
  hcsSequenceNumber : Option ℤ := none

/-- The metadata that is minted: the address of a document, cut off at the limit. -/
def ProofNFTMetadata.metadata (data : ProofNFTMetadata) (env : HederaVars) : Bytes :=
  let hcsTopic := (data.hcsTopicId.or env.hcsTopicId).getD "0.0.9225885"
  let hcsSeq := data.hcsSequenceNumber.getD 0
  let metadata := utf8Encode ("https://eps-dapp.vercel.app/api/nft/meta?topic=" ++ hcsTopic ++
    "&seq=" ++ toString hcsSeq)
  if 100 < metadata.length then metadata.take 99 else metadata

/-- What the steps of `mintAndTransferProofNFT` are given. -/
structure Operator where
  client : SdkObject
  account : SdkObject
  key : SdkObject

/-- A transaction is signed first. -/
def signedExecuted (operator : Operator) (tx : HederaTransaction) :
    HederaProgram (SdkObject × SdkObject) := do
  let signed ← sdk (.sign tx operator.client operator.key)
  executed (.inr signed) operator.client

/-- Step (1): the collection that is configured, or a new one. -/
def resolveCollection (env : HederaVars) (operator : Operator) : HederaProgram SdkObject :=
  match truthy env.nftTokenId with
  | some tokenId => sdk (.tokenIdFromString tokenId)
  | none => do
      let (_, receipt) ← signedExecuted operator (.tokenCreate operator.account operator.key)
      match ← sdk (.tokenIdOf receipt) with
      | none => throw (.error "Token creation returned no token id.")
      | some tokenId => do
          let _ ← sdk (.text tokenId)
          pure tokenId

/-- Step (2): the serial number of a fresh proof. -/
def mintSerial (operator : Operator) (tokenId : SdkObject) (metadata : Bytes) :
    HederaProgram ℤ := do
  let (_, receipt) ← signedExecuted operator (.tokenMint (.inr tokenId) metadata)
  match ← sdk (.serial receipt) with
  | none => throw (.error "Mint returned no serial number.")
  | some serial => pure serial

/-- Step (3): the defendant that is configured, or a new account, and whether it is new. -/
def resolveDefendant (env : HederaVars) (operator : Operator) :
    HederaProgram (SdkObject × Bool) :=
  match truthy env.demoDefendantId with
  | some defendantId => do
      let account ← sdk (.accountIdFromString defendantId)
      pure (account, false)
  | none => do
      let newKey ← sdk .generateED25519
      let (_, receipt) ← executed (.inl (.accountCreate newKey)) operator.client
      match ← sdk (.accountIdOf receipt) with
      | none => throw (.error "Account creation returned no account id.")
      | some account => do
          let _ ← sdk (.text account)
          pure (account, true)

/-- The body of the `try` of `mintAndTransferProofNFT`. -/
def mintAndTransfer (env : HederaVars) (data : ProofNFTMetadata) (operator : Operator) :
    HederaProgram (Option ProofNFTTransferResult) := do
  let tokenId ← resolveCollection env operator
  let serial ← mintSerial operator tokenId (data.metadata env)
  let defendant ← resolveDefendant env operator
  let (response, _) ← signedExecuted operator
    (.nftTransfer tokenId serial operator.account defendant.1)
  let transferTx ← sdk (.transactionId response)
  let tokenText ← sdk (.text tokenId)
  let defendantText ← sdk (.text defendant.1)
  pure (some {
    tokenId := tokenText
    serial := serial
    transferTx := transferTx
    defendantId := defendantText
    defendantCreated := defendant.2 })

/-- `mintAndTransferProofNFT`. -/
def mintAndTransferProofNFT (env : HederaVars) (data : ProofNFTMetadata) :
    HederaProgram (Option ProofNFTTransferResult) :=
  match truthy env.operatorId, truthy env.operatorKey with
  | some operatorId, some operatorKeyStr =>
      if env.isMainnet && env.allowMainnet != some "true" then
        throw (.error ("Refusing to mint/transfer on Hedera mainnet. " ++
          "Set HEDERA_ALLOW_MAINNET=true to override."))
      else do
        sdk .importSdk
        let operatorKey ← sdk (.privateKeyFromStringDer operatorKeyStr)
        let operatorAccount ← sdk (.accountIdFromString operatorId)
        let client ← sdk (.newClient env.isMainnet)
        sdk (.setOperator client (.inr operatorAccount) operatorKey)
        tryFinally (mintAndTransfer env data ⟨client, operatorAccount, operatorKey⟩)
          (sdk (.close client))
  | _, _ => pure none

theorem recordOnHedera_resolves (env : HederaVars) (payload : HederaPayload) :
    (recordOnHedera env payload).Resolves := by
  have hnext : next.Resolves := Program.resolves_tryCatch fun _ => Program.resolves_pure true
  refine Program.resolves_bind (Program.resolves_allSettled hnext _ _) ?_
  exact fun settled => Program.resolves_pure _

end HederaProgram

end EpsDapp
