import EpsDapp.Effect.Wp
import EpsDapp.Server.Session
import EpsDapp.Text.Json
import EpsDapp.Text.Utf8
import Mathlib.Algebra.Group.Nat.Defs

/-!
# The EVM adapter

`EVMAdapter` writes the record of a delivery on chain in one of two forms: as the
argument of `recordDelivery` when a registry contract is configured, and as the
whole data of a transaction to itself otherwise. `getMemo` reads all the data of
a transaction as text, so it undoes the second form only: the data of a call have
zero bytes in the offset of their argument, and no memo has a zero character.
-/

set_option autoImplicit false

namespace EpsDapp

open Effect

/-! ## Calldata -/

/-- A number as a word of 32 bytes, the highest first. -/
def abiWord (n : ℕ) : List UInt8 :=
  (List.range 32).map fun i => UInt8.ofNat (n / 256 ^ (31 - i))

/-- Bytes with zeros after them, up to whole words. -/
def padWord (bytes : List UInt8) : List UInt8 :=
  bytes ++ List.replicate ((32 - bytes.length % 32) % 32) 0

/-- `encodeFunctionData` for a function of one string: the selector, where the string
is, its length, and its bytes. -/
def encodeFunctionData (selector : Vector UInt8 4) (argument : String) : List UInt8 :=
  let bytes := utf8Encode argument
  selector.toList ++ abiWord 32 ++ abiWord bytes.length ++ padWord bytes

theorem zero_mem_abiWord {n : ℕ} (hn : n < 256 ^ 31) : 0 ∈ abiWord n := by
  refine List.mem_map.2 ⟨0, by decide, ?_⟩
  rw [Nat.sub_zero, Nat.div_eq_of_lt hn]
  rfl

theorem zero_mem_encodeFunctionData (selector : Vector UInt8 4) (argument : String) :
    0 ∈ encodeFunctionData selector argument := by
  have hoffset : 0 ∈ abiWord 32 := zero_mem_abiWord (by decide)
  exact List.mem_append_left _ (List.mem_append_left _ (List.mem_append_right _ hoffset))

/-! ## The adapter -/

inductive ChainId
  | solanaMainnet | solanaDevnet | solanaTestnet
  | ethMainnet | ethSepolia | polygon | polygonAmoy | base | baseSepolia
  | arbOne | arbSepolia | opMainnet | opSepolia
  | bitcoinMainnet | bitcoinTestnet | bitcoinSignet
  deriving DecidableEq

def ChainId.text : ChainId → String
  | solanaMainnet => "solana-mainnet"
  | solanaDevnet => "solana-devnet"
  | solanaTestnet => "solana-testnet"
  | ethMainnet => "eip155:1"
  | ethSepolia => "eip155:11155111"
  | polygon => "eip155:137"
  | polygonAmoy => "eip155:80002"
  | base => "eip155:8453"
  | baseSepolia => "eip155:84532"
  | arbOne => "eip155:42161"
  | arbSepolia => "eip155:421614"
  | opMainnet => "eip155:10"
  | opSepolia => "eip155:11155420"
  | bitcoinMainnet => "btc-mainnet"
  | bitcoinTestnet => "btc-testnet"
  | bitcoinSignet => "btc-signet"

structure ChainConfig where
  isMainnet : Bool

/-- `CHAIN_CONFIG[chainId]`. -/
def chainConfig : ChainId → Option ChainConfig
  | .ethMainnet | .polygon | .base | .arbOne | .opMainnet => some ⟨true⟩
  | .ethSepolia | .polygonAmoy | .baseSepolia | .arbSepolia | .opSepolia => some ⟨false⟩
  | _ => none

inductive ChainErrorCode
  | notImplemented
  | broadcastFailed
  | confirmationFailed
  | mainnetForbidden

/-- What the adapter throws: a `ChainError`, or what viem throws, by its text. -/
inductive ChainFailure
  | chainError (code : ChainErrorCode) (message : String)
  | other (text : String)

/-- `String(err)`. -/
def ChainFailure.text : ChainFailure → String
  | chainError _ message => "ChainError: " ++ message
  | other text => text

/-- An `EVMAdapter`: the chain is one it has a configuration for. -/
structure EVMAdapter where
  chainId : ChainId
  config : ChainConfig
  configured : chainConfig chainId = some config

/-- `new EVMAdapter(chainId)`. -/
def EVMAdapter.new (chainId : ChainId) : Except ChainFailure EVMAdapter :=
  match h : chainConfig chainId with
  | none => .error (.chainError .notImplemented
      ("EVMAdapter: no config for chainId \"" ++ chainId.text ++ "\""))
  | some config => .ok ⟨chainId, config, h⟩

/-- The environment variables of the adapter. -/
structure EvmVars where
  appWalletPrivateKey : Option String
  registryAddress : Option String
  allowMainnet : Option String

/-- The fields of a `ServiceRecord`. -/
def serviceRecordKeys : List String :=
  ["deliveryId", "documentHash", "caseRef", "servedTo", "servedBy", "servedAt"]

/-- `ServiceRecord`: an object with these fields, in the order they were assigned in. -/
structure ServiceRecord where
  entries : List (String × String)
  keys : (entries.map Prod.fst).Perm serviceRecordKeys

/-- `{ eps: "v1", ...record }`. -/
def ServiceRecord.memoEntries (record : ServiceRecord) : List (String × String) :=
  ("eps", "v1") :: record.entries

/-- `buildMemo`. -/
def buildMemo (record : ServiceRecord) : String := jsonStringify record.memoEntries

structure BroadcastResult where
  txId : String
  chainId : ChainId

structure EVMAdapter.ConfirmationResult where
  txId : String
  chainId : ChainId
  blockNumber : ℕ
  blockTimestamp : Option ℕ
  confirmedMemo : Option String

/-- A transaction that is sent. -/
structure EvmTransaction where
  recipient : String
  data : String
  value : ℕ

structure EvmReceipt where
  blockHash : String
  blockNumber : ℕ

/-- What the adapter awaits, or has viem compute. -/
inductive EvmCall
  | privateKeyToAccount (privateKey : String)
  | sendTransaction (tx : EvmTransaction)
  | waitForTransactionReceipt (hash : String)
  | getBlock (blockHash : String)
  | getTransaction (hash : String)

/-- An account is its address, a block its timestamp, and a transaction its input. -/
@[reducible] def EvmCall.Resp : EvmCall → Type
  | privateKeyToAccount _ => String
  | sendTransaction _ => String
  | waitForTransactionReceipt _ => EvmReceipt
  | getBlock _ => ℕ
  | getTransaction _ => Option String

abbrev evmSig : Signature := ⟨EvmCall, EvmCall.Resp⟩

abbrev EvmProgram := Program evmSig ChainFailure

def evm (c : EvmCall) : EvmProgram c.Resp := Program.perform (S := evmSig) c

/-- `getWalletClient`: the account that sends. -/
def getWalletClient (env : EvmVars) : EvmProgram String :=
  match truthy env.appWalletPrivateKey with
  | none => throw (.chainError .broadcastFailed "EVM_APP_WALLET_PRIVATE_KEY is not set")
  | some privateKey => evm (.privateKeyToAccount privateKey)

/-- The transaction of `broadcast`: a call of the registry contract if there is one, and
otherwise a transfer to the sender itself. -/
def sendMemo (env : EvmVars) (selector : Vector UInt8 4) (memo : String) : EvmProgram String :=
  match truthy env.registryAddress with
  | some registryAddress =>
      evm (.sendTransaction
        ⟨registryAddress, "0x" ++ hexEncode (encodeFunctionData selector memo), 0⟩)
  | none => do
      let account ← evm (.privateKeyToAccount (env.appWalletPrivateKey.getD ""))
      evm (.sendTransaction ⟨account, "0x" ++ hexEncode (utf8Encode memo), 0⟩)

/-- `broadcast`. -/
def EVMAdapter.broadcast (adapter : EVMAdapter) (env : EvmVars) (selector : Vector UInt8 4)
    (record : ServiceRecord) : EvmProgram BroadcastResult := do
  if adapter.config.isMainnet && env.allowMainnet != some "true" then
    throw (.chainError .mainnetForbidden
      ("EVMAdapter: mainnet broadcast forbidden for chainId \"" ++ adapter.chainId.text ++
        "\". Set ALLOW_EVM_MAINNET=true to override."))
  let memo := buildMemo record
  let _ ← getWalletClient env
  tryCatch (do
    let txHash ← sendMemo env selector memo
    pure (⟨txHash, adapter.chainId⟩ : BroadcastResult)) fun err =>
    throw (.chainError .broadcastFailed
      ("EVMAdapter broadcast failed on " ++ adapter.chainId.text ++ ": " ++ err.text))

/-- `hex.startsWith("0x") ? hex.slice(2) : hex` -/
def stripHexPrefix : List Char → List Char
  | '0' :: 'x' :: rest => rest
  | cs => cs

/-- The text that `getMemo` reads in the input of a transaction. -/
def memoOfInput (input : Option String) : Option String :=
  match truthy input with
  | none => none
  | some input =>
      if input = "0x" then none
      else some (utf8Decode (hexDecode (stripHexPrefix input.toList)))

/-- `getMemo`. -/
def getMemo (txId : String) : EvmProgram (Option String) :=
  tryCatch (memoOfInput <$> evm (.getTransaction txId)) fun _ => pure none

/-- `confirm`. -/
def EVMAdapter.confirm (adapter : EVMAdapter) (txId : String) :
    EvmProgram EVMAdapter.ConfirmationResult :=
  tryCatch (do
    let receipt ← evm (.waitForTransactionReceipt txId)
    let timestamp ← evm (.getBlock receipt.blockHash)
    let confirmedMemo ← getMemo txId
    pure {
      txId := txId
      chainId := adapter.chainId
      blockNumber := receipt.blockNumber
      blockTimestamp := if timestamp = 0 then none else some timestamp
      confirmedMemo := confirmedMemo }) fun err =>
    throw (.chainError .confirmationFailed
      ("EVMAdapter confirm failed for " ++ txId ++ " on " ++ adapter.chainId.text ++ ": " ++
        err.text))

/-! ## The chain -/

/-- The input of each transaction that is on the chain. -/
abbrev EvmChain := String → Option String

/-- What is on the chain stays there. -/
def EvmChain.Grows (w w' : EvmChain) : Prop :=
  ∀ hash input, w hash = some input → w' hash = some input

/-- A transaction that was sent is on the chain with its data, and the input of a
transaction is returned as it is there. Others send transactions as well. -/
def evmAnswers : Answers evmSig ChainFailure EvmChain
  | w, .sendTransaction tx, w', r =>
      EvmChain.Grows w w' ∧ ∀ hash, r = .ok hash → w' hash = some tx.data
  | w, .getTransaction hash, w', r => EvmChain.Grows w w' ∧ r = .ok (w' hash)
  | w, _, w', _ => EvmChain.Grows w w'

theorem evmAnswers_total (w : EvmChain) (c : EvmCall) : ∃ w' r, evmAnswers w c w' r := by
  have hstays : EvmChain.Grows w w := fun _ _ h => h
  cases c with
  | privateKeyToAccount _ => exact ⟨w, .error (.other ""), hstays⟩
  | sendTransaction _ => exact ⟨w, .error (.other ""), hstays, fun _ h => by cases h⟩
  | waitForTransactionReceipt _ => exact ⟨w, .error (.other ""), hstays⟩
  | getBlock _ => exact ⟨w, .error (.other ""), hstays⟩
  | getTransaction hash => exact ⟨w, .ok (w hash), hstays, rfl⟩

/-- The input of the transaction that carries a memo. -/
def memoInput (env : EvmVars) (selector : Vector UInt8 4) (memo : String) : String :=
  match truthy env.registryAddress with
  | some _ => "0x" ++ hexEncode (encodeFunctionData selector memo)
  | none => "0x" ++ hexEncode (utf8Encode memo)

theorem sendMemo_sends (env : EvmVars) (selector : Vector UInt8 4) (memo : String)
    (w : EvmChain) :
    (sendMemo env selector memo).wp evmAnswers (fun _ _ => True)
      (fun r w' => ∀ hash, r = .ok hash → w' hash = some (memoInput env selector memo)) w := by
  rw [sendMemo, memoInput]
  cases truthy env.registryAddress with
  | some registryAddress => exact ⟨trivial, fun _ _ h => h.2⟩
  | none =>
      refine Program.wp_seq (R := fun _ _ => True) ⟨trivial, fun _ _ _ => trivial⟩ ?_ ?_
      · exact fun _ _ _ => ⟨trivial, fun _ _ h => h.2⟩
      · exact fun _ _ _ _ h => by cases h

/-- Building the client sends nothing. -/
theorem getWalletClient_sends (env : EvmVars) (w : EvmChain) :
    (getWalletClient env).wp evmAnswers (fun _ _ => True) (fun _ _ => True) w := by
  rw [getWalletClient]
  cases truthy env.appWalletPrivateKey with
  | none => exact trivial
  | some _ => exact ⟨trivial, fun _ _ _ => trivial⟩

/-- A transaction that was broadcast is on the chain with the memo in its input. -/
theorem broadcast_sends (adapter : EVMAdapter) (env : EvmVars) (selector : Vector UInt8 4)
    (record : ServiceRecord) (w : EvmChain) :
    (adapter.broadcast env selector record).wp evmAnswers (fun _ _ => True)
      (fun r w' => ∀ result, r = .ok result →
        w' result.txId = some (memoInput env selector (buildMemo record))) w := by
  have hthrow : ∀ (e : ChainFailure) (w : EvmChain) (result : BroadcastResult),
      (Except.error e : Except ChainFailure BroadcastResult) = .ok result →
        w result.txId = some (memoInput env selector (buildMemo record)) := fun _ _ _ h => by cases h
  rw [EVMAdapter.broadcast]
  split
  · exact hthrow _ w
  · refine Program.wp_seq (getWalletClient_sends env w) (fun _ w _ => ?_) fun e w _ => hthrow e w
    refine Program.wp_catch (R := fun r w' => ∀ result, r = .ok result →
      w' result.txId = some (memoInput env selector (buildMemo record))) ?_ (fun _ _ h => h)
      fun e w _ => hthrow _ w
    refine Program.wp_seq (sendMemo_sends env selector _ w) (fun hash w h => ?_)
      fun e w _ => hthrow e w
    intro result hresult
    cases hresult
    exact h hash rfl

/-- What `getMemo` reads, once the transaction is on the chain. -/
theorem getMemo_reads {txId input : String} {w : EvmChain} (h : w txId = some input) :
    (getMemo txId).wp evmAnswers (fun _ _ => True)
      (fun r _ => r = .ok (memoOfInput (some input))) w := by
  refine Program.wp_catch (R := fun r _ => r = .ok (memoOfInput (some input))) ?_ ?_ ?_
  · refine (Program.wp_map _ _ _ _).2 ⟨trivial, fun w' r hr => ?_⟩
    obtain ⟨hgrows, rfl⟩ := hr
    rw [hgrows txId input h]
    rfl
  · exact fun _ _ h => h
  · exact fun _ _ h => by cases h

theorem confirm_reads (adapter : EVMAdapter) {txId input : String} {w : EvmChain}
    (h : w txId = some input) :
    (adapter.confirm txId).wp evmAnswers (fun _ _ => True)
      (fun r _ => ∀ confirmation, r = .ok confirmation →
        confirmation.confirmedMemo = memoOfInput (some input)) w := by
  have hthrow : ∀ (e : ChainFailure) (confirmation : EVMAdapter.ConfirmationResult),
      (Except.error e : Except ChainFailure _) = .ok confirmation →
        confirmation.confirmedMemo = memoOfInput (some input) := fun _ _ h => by cases h
  refine Program.wp_catch (R := fun r _ => ∀ confirmation, r = .ok confirmation →
    confirmation.confirmedMemo = memoOfInput (some input)) ?_ (fun _ _ h => h) fun e _ _ => hthrow _
  let Known (w : EvmChain) : Prop := w txId = some input
  refine Program.wp_seq (R := fun _ w => Known w) ⟨trivial, fun _ _ hr => hr txId input h⟩ ?_
    fun e _ _ => hthrow e
  intro receipt w h
  refine Program.wp_seq (R := fun _ w => Known w) ⟨trivial, fun _ _ hr => hr txId input h⟩ ?_
    fun e _ _ => hthrow e
  intro timestamp w h
  refine Program.wp_seq (getMemo_reads h) (fun memo w hmemo => ?_) fun e _ _ => hthrow e
  intro confirmation hconfirmation
  cases hconfirmation
  exact Except.ok.inj hmemo

/-! ## Reading the memo back -/

theorem memoOfInput_hexEncode {bytes : List UInt8} (h : bytes ≠ []) :
    memoOfInput (some ("0x" ++ hexEncode bytes)) = some (utf8Decode bytes) := by
  generalize hinput : "0x" ++ hexEncode bytes = input
  have htoList : input.toList = '0' :: 'x' :: (hexEncode bytes).toList := by
    rw [← hinput, String.toList_append]
    rfl
  have hempty : input ≠ "" := fun h => by
    rw [h] at htoList
    cases htoList
  have hshort : input ≠ "0x" := fun h0 => by
    rw [h0] at htoList
    have hlength := length_hexEncode bytes
    rw [← (List.cons.inj (List.cons.inj htoList).2).2, List.length_nil] at hlength
    exact h (List.length_eq_zero_iff.1 (by omega))
  have htruthy : truthy (some input) = some input := by simp [truthy, hempty]
  rw [memoOfInput, htruthy]
  simp only [hshort, if_false, htoList, stripHexPrefix, hexDecode_hexEncode]

/-- No memo has a zero character. -/
theorem zero_notMem_buildMemo (record : ServiceRecord) :
    '\x00' ∉ (buildMemo record).toList := by
  intro h
  have hprinted : 32 ≤ '\x00'.toNat := over_jsonStringify record.memoEntries '\x00' h
  exact absurd hprinted (by decide)

/-- What is broadcast is read back, by `getMemo` and by `confirm`, whenever it is
read, and is the JSON of the record. -/
structure RoundTrips (adapter : EVMAdapter) (record : ServiceRecord) (result : BroadcastResult)
    (w : EvmChain) : Prop where
  memo : ∀ w₁ w₂ r, w.Grows w₁ → (getMemo result.txId).Runs evmAnswers w₁ w₂ r →
    r = .ok (some (buildMemo record))
  confirmed : ∀ w₁ w₂ confirmation, w.Grows w₁ →
    (adapter.confirm result.txId).Runs evmAnswers w₁ w₂ (.ok confirmation) →
    confirmation.confirmedMemo = some (buildMemo record)
  parsed : jsonParse (buildMemo record) = some record.memoEntries

theorem memoOfInput_memoInput_iff (env : EvmVars) (selector : Vector UInt8 4)
    (record : ServiceRecord) :
    memoOfInput (some (memoInput env selector (buildMemo record))) = some (buildMemo record) ↔
      truthy env.registryAddress = none := by
  rw [memoInput]
  cases truthy env.registryAddress with
  | some registryAddress =>
      have hzero := zero_mem_encodeFunctionData selector (buildMemo record)
      have hread : '\x00' ∈ (utf8Decode (encodeFunctionData selector (buildMemo record))).toList :=
        mem_utf8Decode_of_zero hzero
      rw [memoOfInput_hexEncode (List.ne_nil_of_mem hzero)]
      refine iff_of_false (fun h => ?_) (Option.some_ne_none _)
      rw [Option.some.inj h] at hread
      exact zero_notMem_buildMemo record hread
  | none =>
      have hne : utf8Encode (buildMemo record) ≠ [] := fun h => by
        have hempty : buildMemo record = "" := by
          rw [← utf8Decode_utf8Encode (buildMemo record), h]
          rfl
        have hparse : jsonParse (buildMemo record) = some record.memoEntries :=
          jsonParse_jsonStringify _
        rw [hempty] at hparse
        cases hparse
      rw [memoOfInput_hexEncode hne, utf8Decode_utf8Encode]
      exact iff_of_true rfl rfl

/-- A memo that makes the round trip is what `getMemo` reads in its transaction. -/
theorem RoundTrips.read {adapter : EVMAdapter} {record : ServiceRecord} {result : BroadcastResult}
    {w : EvmChain} {input : String} (h : RoundTrips adapter record result w)
    (hsent : w result.txId = some input) : memoOfInput (some input) = some (buildMemo record) := by
  obtain ⟨w', r, hr⟩ := Program.exists_runs evmAnswers_total (getMemo result.txId) w
  have hmemo := h.memo w w' r (fun _ _ h => h) hr
  have hread := Program.wp_runs _ (getMemo_reads hsent) hr
  exact Except.ok.inj (hread.symm.trans hmemo)

/-- The memo makes the round trip exactly when no registry contract is configured. -/
theorem roundTrips_iff {adapter : EVMAdapter} {env : EvmVars} {selector : Vector UInt8 4}
    {record : ServiceRecord} {result : BroadcastResult} {w w' : EvmChain}
    (h : (adapter.broadcast env selector record).Runs evmAnswers w w' (.ok result)) :
    RoundTrips adapter record result w' ↔ truthy env.registryAddress = none := by
  have hsent := Program.wp_runs _ (broadcast_sends adapter env selector record w) h result rfl
  rw [← memoOfInput_memoInput_iff env selector record]
  constructor
  · intro hround
    exact hround.read hsent
  · intro hinput
    refine ⟨fun w₁ w₂ r hgrows hr => ?_, fun w₁ w₂ confirmation hgrows hr => ?_,
      jsonParse_jsonStringify _⟩
    · have hread := Program.wp_runs _ (getMemo_reads (hgrows _ _ hsent)) hr
      rw [hread, hinput]
    · rw [← hinput]
      exact Program.wp_runs _ (confirm_reads adapter (hgrows _ _ hsent)) hr confirmation rfl

/-! ## One record in both forms -/

def baseSepoliaAdapter : EVMAdapter := ⟨.baseSepolia, ⟨false⟩, rfl⟩

def exampleRecord : ServiceRecord where
  entries := [("deliveryId", "d1"), ("documentHash", "ab"), ("caseRef", "2026-NYC-0042"),
    ("servedTo", "0x02"), ("servedBy", "server.eth"), ("servedAt", "2026-06-12T15:00:00Z")]
  keys := .refl _

def exampleSelector : Vector UInt8 4 := #v[1, 2, 3, 4]

def selfTransferVars : EvmVars := ⟨some "0x01", none, none⟩

def registryVars : EvmVars := { selfTransferVars with registryAddress := some "0x05" }

/-- The chain on which only the example's memo was sent. -/
def exampleChain (env : EvmVars) : EvmChain := fun hash =>
  if hash = "0x0a" then some (memoInput env exampleSelector (buildMemo exampleRecord)) else none

theorem registry_runs : (baseSepoliaAdapter.broadcast registryVars exampleSelector
    exampleRecord).Runs evmAnswers (fun _ => none) (exampleChain registryVars)
      (.ok ⟨"0x0a", .baseSepolia⟩) := by
  have hwallet : evmAnswers (fun _ => none) (.privateKeyToAccount "0x01") (fun _ => none)
      (.ok "0x02") := fun _ _ h => h
  have hsend : evmAnswers (fun _ => none) (.sendTransaction ⟨"0x05", "0x" ++ hexEncode
      (encodeFunctionData exampleSelector (buildMemo exampleRecord)), 0⟩)
      (exampleChain registryVars) (.ok "0x0a") :=
    ⟨fun _ _ h => (by cases h), fun _ h => (by cases h; rfl)⟩
  exact .call hwallet (.call hsend ⟨rfl, rfl⟩)

theorem selfTransfer_runs : (baseSepoliaAdapter.broadcast selfTransferVars exampleSelector
    exampleRecord).Runs evmAnswers (fun _ => none) (exampleChain selfTransferVars)
      (.ok ⟨"0x0a", .baseSepolia⟩) := by
  have hwallet : evmAnswers (fun _ => none) (.privateKeyToAccount "0x01") (fun _ => none)
      (.ok "0x02") := fun _ _ h => h
  have hsend : evmAnswers (fun _ => none) (.sendTransaction
      ⟨"0x02", "0x" ++ hexEncode (utf8Encode (buildMemo exampleRecord)), 0⟩)
      (exampleChain selfTransferVars) (.ok "0x0a") :=
    ⟨fun _ _ h => (by cases h), fun _ h => (by cases h; rfl)⟩
  exact .call hwallet (.call hwallet (.call hsend ⟨rfl, rfl⟩))

theorem roundTrips_iff_of_selfTransfer :
    RoundTrips baseSepoliaAdapter exampleRecord ⟨"0x0a", .baseSepolia⟩
      (exampleChain selfTransferVars) :=
  (roundTrips_iff selfTransfer_runs).2 rfl

/-- A memo that was sent to the registry is not read back. -/
theorem not_roundTrips_of_registry :
    ¬ ∀ (adapter : EVMAdapter) (env : EvmVars) (selector : Vector UInt8 4)
        (record : ServiceRecord) (result : BroadcastResult) (w w' : EvmChain),
      (adapter.broadcast env selector record).Runs evmAnswers w w' (.ok result) →
        RoundTrips adapter record result w' := by
  intro h
  have hround := h _ _ _ _ _ _ _ registry_runs
  have hread := hround.read (if_pos rfl)
  exact absurd ((memoOfInput_memoInput_iff registryVars exampleSelector exampleRecord).1 hread)
    (by decide)

end EpsDapp
