import EpsDapp.Delivery.Jobs
import EpsDapp.Hedera.Noninterference
import EpsDapp.Text.Url
import Mathlib.Data.Nat.Digits.Defs

/-!
# The metadata of a proof

A proof of service is minted with the address of a document that
`GET /api/nft/meta` serves, and the query of that address names an HCS message.
The address is never cut off, and it names the message that the minter passed on.
The worker passes on no sequence number, so its proofs name the message 0 of the
topic: the message of the request exactly when that is its sequence number.
-/

set_option autoImplicit false

namespace EpsDapp

open Effect

/-! ## The route -/

/-- The message that the query of `GET /api/nft/meta` names. -/
def nftMetaQuery (url : String) : String × String :=
  (((searchParams url).lookup "topic").getD "0.0.9225885",
    ((searchParams url).lookup "seq").getD "0")

/-- The document of `GET /api/nft/meta`, less the attributes that are the same for every
proof. -/
structure NftMeta where
  name : String
  description : String
  image : String
  externalUrl : String
  topic : String
  sequence : String

/-- `GET /api/nft/meta`. -/
def getNftMeta (url : String) : NftMeta :=
  let (topic, seq) := nftMetaQuery url
  { name := "EPS Proof of Service — HCS #" ++ seq
    description := "Blockchain proof of service of process anchored on Hedera Consensus " ++
      "Service. Topic " ++ topic ++ ", sequence #" ++ seq ++ ". Delivered by " ++
      "youhavebeenserved.eth — ENSIP-25 compliant AI process server agent."
    image := "https://eps-dapp.vercel.app/api/nft/image?topic=" ++ encodeURIComponent topic ++
      "&seq=" ++ seq
    externalUrl := "https://hashscan.io/testnet/topic/" ++ topic
    topic := topic
    sequence := seq }

namespace HederaProgram

/-- The address that is minted. The sequence number is printed as it is, which JavaScript does
below `2 ^ 53`; a number from there on is rounded first. -/
def ProofNFTMetadata.metaUri (data : ProofNFTMetadata) (env : HederaVars) : String :=
  "https://eps-dapp.vercel.app/api/nft/meta?topic=" ++
    (data.hcsTopicId.or env.hcsTopicId).getD "0.0.9225885" ++ "&seq=" ++
    toString (data.hcsSequenceNumber.getD 0)

theorem ProofNFTMetadata.metadata_of_length_le {data : ProofNFTMetadata} {env : HederaVars}
    (h : (utf8Encode (data.metaUri env)).length ≤ 100) :
    data.metadata env = utf8Encode (data.metaUri env) :=
  if_neg (Nat.not_lt.2 h)

theorem over_numeral_ascii (m : ℕ) : Over (·.toNat < 128) (toString m) :=
  Over.repr (fun c hc => (Char.isDigit_iff_toNat.1 hc).2.trans_lt (by decide)) m

theorem over_numeral_query (m : ℕ) : Over IsQueryChar (toString m) := by
  refine Over.repr (fun c hc => ?_) m
  obtain ⟨hzero, hnine⟩ := Char.isDigit_iff_toNat.1 hc
  refine ⟨Nat.lt_of_lt_of_le (by decide) hzero, fun hmem => ?_⟩
  simp only [List.mem_cons, List.not_mem_nil, or_false] at hmem
  rcases hmem with rfl | rfl | rfl | rfl | rfl | rfl <;> revert hzero hnine <;> decide

theorem length_numeral_le {m : ℕ} (hm : m < 2 ^ 64) : (toString m).toList.length ≤ 20 := by
  have hbound : 2 ^ 64 < 10 ^ 20 := by decide
  rw [String.length_toList]
  exact Nat.repr_length m 20 (by decide) (hm.trans hbound)

theorem numeral_injective {m n : ℕ} (h : toString m = toString n) : m = n := by
  have hdigits : Nat.toDigits 10 m = Nat.toDigits 10 n := by
    rw [← Nat.toList_repr, ← Nat.toList_repr]
    exact congrArg String.toList h
  rw [← Nat.ofDigitChars_ten_toDigits (n := m), hdigits, Nat.ofDigitChars_ten_toDigits]

/-- A topic and a sequence number of 64 bits fit into the address, and are read back. -/
theorem ProofNFTMetadata.metadata_names {data : ProofNFTMetadata} {env : HederaVars} {n q : ℕ}
    (htopic : data.hcsTopicId.or env.hcsTopicId = some ("0.0." ++ toString n))
    (hseq : data.hcsSequenceNumber.getD 0 = q) (hn : n < 2 ^ 64) (hq : q < 2 ^ 64) :
    (data.metadata env).length ≤ 100 ∧ data.metadata env = utf8Encode (data.metaUri env) ∧
      nftMetaQuery (utf8Decode (data.metadata env)) = ("0.0." ++ toString n, toString q) := by
  let base := "https://eps-dapp.vercel.app/api/nft/meta"
  let params := [("topic", "0.0." ++ toString n), ("seq", toString q)]
  have huri : data.metaUri env = "https://eps-dapp.vercel.app/api/nft/meta?topic=" ++
      ("0.0." ++ toString n) ++ "&seq=" ++ toString q := by
    have hcast : toString (q : ℤ) = toString q := rfl
    unfold metaUri
    rw [htopic, hseq, Option.getD_some, hcast]
  have hascii : Over (·.toNat < 128) (data.metaUri env) := by
    rw [huri]
    simp only [Over.append_iff]
    exact ⟨⟨⟨by decide, by decide, over_numeral_ascii n⟩, by decide⟩, over_numeral_ascii q⟩
  have hlength : (utf8Encode (data.metaUri env)).length ≤ 100 := by
    have hn' := length_numeral_le hn
    have hq' := length_numeral_le hq
    rw [length_utf8Encode hascii, huri]
    simp only [String.toList_append, List.length_append]
    have hhead : "https://eps-dapp.vercel.app/api/nft/meta?topic=".toList.length = 47 := by decide
    have htopic : "0.0.".toList.length = 4 := by decide
    have hseq : "&seq=".toList.length = 5 := by decide
    omega
  have hmetadata := metadata_of_length_le hlength
  have hparams : searchParams (data.metaUri env) = params := by
    have hbase : Over IsQueryChar base := by decide
    refine searchParams_joinParams (by simp [params]) hbase ?_ ?_
    · simp only [params, List.forall_mem_cons, Over.append_iff, List.not_mem_nil]
      exact ⟨⟨by decide, by decide, over_numeral_query n⟩,
        ⟨by decide, over_numeral_query q⟩, fun _ h => h.elim⟩
    · have hhead : "https://eps-dapp.vercel.app/api/nft/meta?topic=".toList =
          base.toList ++ '?' :: "topic=".toList := by decide
      have hjoin : joinParams params = "topic=".toList ++ ("0.0." ++ toString n).toList ++
          "&seq=".toList ++ (toString q).toList := by
        simp [joinParams, params, joinParam]
      rw [huri, hjoin]
      simp only [String.toList_append, hhead, List.append_assoc, List.cons_append]
  refine ⟨hmetadata ▸ hlength, hmetadata, ?_⟩
  rw [hmetadata, utf8Decode_utf8Encode, nftMetaQuery, hparams]
  rfl

/-! ## The calls of the modules -/

/-- The call signs no mint of other metadata. -/
def MintsOnly (metadata : Bytes) : HederaCall → Prop
  | .sign (.tokenMint _ m) _ _ => m = metadata
  | _ => True

variable {A : HederaCall → Prop}

theorem signedExecuted_only {operator : Operator} {tx : HederaTransaction}
    (hsign : A (.sign tx operator.client operator.key))
    (hexecute : ∀ signed, A (.execute (.inr signed) operator.client))
    (hreceipt : ∀ response, A (.getReceipt response operator.client)) :
    (signedExecuted operator tx).Only A := by
  refine Program.only_bind ((Program.only_perform _).2 hsign) fun signed => ?_
  refine Program.only_bind ((Program.only_perform _).2 (hexecute signed)) fun response => ?_
  refine Program.only_bind ((Program.only_perform _).2 (hreceipt response)) fun receipt => ?_
  exact Program.only_pure _

theorem tryFinally_only {α : Type} {p : HederaProgram α} {last : HederaProgram Unit}
    (hp : p.Only A) (hlast : last.Only A) : (tryFinally p last).Only A := by
  refine Program.only_bind ?_ fun result => Program.only_bind hlast fun _ => ?_
  · exact Program.only_tryCatch (Program.only_map _ hp) fun _ => Program.only_pure _
  · cases result with
    | ok a => exact Program.only_pure _
    | error e => exact Program.only_throw _

/-- The only mint that is signed carries the metadata of the proof. -/
theorem mintAndTransferProofNFT_only (env : HederaVars) (data : ProofNFTMetadata) :
    (mintAndTransferProofNFT env data).Only (MintsOnly (data.metadata env)) := by
  have hsdk : ∀ {c : HederaCall}, MintsOnly (data.metadata env) c →
      (sdk c).Only (MintsOnly (data.metadata env)) := fun h => (Program.only_perform _).2 h
  have hsigned : ∀ {operator : Operator} {tx : HederaTransaction},
      MintsOnly (data.metadata env) (.sign tx operator.client operator.key) →
        (signedExecuted operator tx).Only (MintsOnly (data.metadata env)) := fun h =>
    signedExecuted_only h (fun _ => trivial) fun _ => trivial
  have hcollection : ∀ operator,
      (resolveCollection env operator).Only (MintsOnly (data.metadata env)) := by
    intro operator
    rw [resolveCollection]
    split
    · exact hsdk trivial
    · refine Program.only_bind (hsigned trivial) fun created => ?_
      refine Program.only_bind (hsdk trivial) fun tokenId => ?_
      cases tokenId with
      | none => exact Program.only_throw _
      | some tokenId => exact Program.only_bind (hsdk trivial) fun _ => Program.only_pure _
  have hserial : ∀ operator tokenId, (mintSerial operator tokenId (data.metadata env)).Only
      (MintsOnly (data.metadata env)) := by
    intro operator tokenId
    refine Program.only_bind (hsigned rfl) fun minted => ?_
    refine Program.only_bind (hsdk trivial) fun serial => ?_
    cases serial with
    | none => exact Program.only_throw _
    | some serial => exact Program.only_pure _
  have hdefendant : ∀ operator,
      (resolveDefendant env operator).Only (MintsOnly (data.metadata env)) := by
    intro operator
    rw [resolveDefendant]
    split
    · exact Program.only_bind (hsdk trivial) fun _ => Program.only_pure _
    · refine Program.only_bind (hsdk trivial) fun newKey => ?_
      refine Program.only_bind ?_ fun created => Program.only_bind (hsdk trivial) fun account => ?_
      · refine Program.only_bind (hsdk trivial) fun response => ?_
        exact Program.only_bind (hsdk trivial) fun receipt => Program.only_pure _
      · cases account with
        | none => exact Program.only_throw _
        | some account => exact Program.only_bind (hsdk trivial) fun _ => Program.only_pure _
  rw [mintAndTransferProofNFT]
  split
  · split
    · exact Program.only_throw _
    · refine Program.only_bind (hsdk trivial) fun _ => ?_
      refine Program.only_bind (hsdk trivial) fun operatorKey => ?_
      refine Program.only_bind (hsdk trivial) fun operatorAccount => ?_
      refine Program.only_bind (hsdk trivial) fun client => ?_
      refine Program.only_bind (hsdk trivial) fun _ => tryFinally_only ?_ (hsdk trivial)
      refine Program.only_bind (hcollection _) fun tokenId => ?_
      refine Program.only_bind (hserial _ tokenId) fun serial => ?_
      refine Program.only_bind (hdefendant _) fun defendant => ?_
      refine Program.only_bind (hsigned trivial) fun transferred => ?_
      refine Program.only_bind (hsdk trivial) fun transferTx => ?_
      refine Program.only_bind (hsdk trivial) fun tokenText => ?_
      exact Program.only_bind (hsdk trivial) fun defendantText => Program.only_pure _
  · exact Program.only_pure _

theorem wp_of_only {α : Type} {p : HederaProgram α} {metadata : Bytes}
    (h : p.Only (MintsOnly metadata)) :
    p.wp (Program.unknownAnswers hederaSig Failure) (fun _ c => MintsOnly metadata c)
      (fun _ _ => True) () :=
  h.wp (J := fun _ => True) (fun _ _ _ _ _ _ _ => trivial) (fun _ _ hc _ => hc) trivial

section Recording

variable (env : HederaVars) (payload : HederaPayload) (metadata : Bytes)

theorem sdk_only {metadata : Bytes} {c : HederaCall} (h : MintsOnly metadata c) :
    (sdk c).Only (MintsOnly metadata) :=
  (Program.only_perform _).2 h

theorem buildClient_only : (buildClient env).Only (MintsOnly metadata) := by
  refine Program.only_bind (sdk_only trivial) fun _ => ?_
  split
  · refine Program.only_bind (sdk_only trivial) fun client => ?_
    refine Program.only_bind (sdk_only trivial) fun privateKey => ?_
    exact Program.only_bind (sdk_only trivial) fun _ => Program.only_pure _
  · exact Program.only_pure _

theorem executed_only (tx : HederaTransaction) (client : SdkObject) :
    (executed (.inl tx) client).Only (MintsOnly metadata) := by
  refine Program.only_bind (sdk_only trivial) fun response => ?_
  exact Program.only_bind (sdk_only trivial) fun receipt => Program.only_pure _

/-- Nothing is signed, and the topic of a message that was submitted is the configured one. -/
theorem submitToHCS_topic : (submitToHCS env payload).wp
    (Program.unknownAnswers hederaSig Failure) (fun _ c => MintsOnly metadata c)
    (fun r _ => ∀ hcs, r = .ok (some hcs) → truthy env.hcsTopicId = some hcs.topicId) () := by
  let Goal (r : Except Failure (Option HCSResult)) (_ : Unit) : Prop :=
    ∀ hcs, r = .ok (some hcs) → truthy env.hcsTopicId = some hcs.topicId
  have hthrow : ∀ (e : Failure) (w : Unit), True → Goal (.error e) w := fun _ _ _ _ h => by cases h
  have hnone : ∀ w, Goal (.ok none) w := fun _ _ h => by cases h
  have hsdk : ∀ {c : HederaCall}, MintsOnly metadata c → (sdk c).wp
      (Program.unknownAnswers hederaSig Failure) (fun _ c => MintsOnly metadata c)
      (fun _ _ => True) () := fun h => wp_of_only (sdk_only h)
  rw [submitToHCS]
  split
  · exact hnone ()
  · rename_i topicId htopic
    refine Program.wp_seq (hsdk trivial) (fun _ _ _ => ?_) hthrow
    refine Program.wp_seq (wp_of_only (buildClient_only env metadata)) (fun client _ _ => ?_) hthrow
    cases client with
    | none => exact hnone ()
    | some client =>
        refine Program.wp_seq (hsdk trivial) (fun submittedAt _ _ => ?_) hthrow
        refine Program.wp_catch (R := Goal) ?_ (fun _ _ h => h) fun e _ _ => ?_
        · refine Program.wp_seq (wp_of_only (executed_only metadata _ client))
            (fun executed _ _ => ?_) hthrow
          refine Program.wp_seq (hsdk trivial) (fun _ _ _ => ?_) hthrow
          refine Program.wp_seq (hsdk trivial) (fun seq _ _ => ?_) hthrow
          refine Program.wp_seq (wp_of_only (Program.only_tryCatch (sdk_only trivial)
            fun _ => Program.only_pure _)) (fun consensus _ _ => ?_) hthrow
          refine Program.wp_seq (hsdk trivial) (fun transactionId _ _ => ?_) hthrow
          intro hcs hhcs
          cases hhcs
          exact htopic
        · exact Program.wp_seq (hsdk trivial) (fun _ _ _ => hnone ()) hthrow

theorem mintProofNFT_only : (mintProofNFT env payload).Only (MintsOnly metadata) := by
  rw [mintProofNFT]
  split
  · exact Program.only_pure _
  · refine Program.only_bind (sdk_only trivial) fun _ => ?_
    refine Program.only_bind (buildClient_only env metadata) fun client => ?_
    cases client with
    | none => exact Program.only_pure _
    | some client =>
        refine Program.only_bind (sdk_only trivial) fun mintedAt => Program.only_tryCatch ?_ ?_
        · refine Program.only_bind (executed_only metadata _ client) fun executed => ?_
          refine Program.only_bind (sdk_only trivial) fun _ => ?_
          refine Program.only_bind (sdk_only trivial) fun serial => ?_
          exact Program.only_bind (sdk_only trivial) fun transactionId => Program.only_pure _
        · exact fun _ => Program.only_bind (sdk_only trivial) fun _ => Program.only_pure _

theorem recordOnHedera_topic : (recordOnHedera env payload).wp
    (Program.unknownAnswers hederaSig Failure) (fun _ c => MintsOnly metadata c)
    (fun r _ => ∀ result, r = .ok result → ∀ hcs, result.hcs = some hcs →
      truthy env.hcsTopicId = some hcs.topicId) () := by
  have hnext : next.Only (MintsOnly metadata) :=
    Program.only_tryCatch (sdk_only trivial) fun _ => Program.only_pure _
  have hmint : (mintProofNFT env payload).wp (Program.unknownAnswers hederaSig Failure)
      (fun _ c => MintsOnly metadata c) (fun _ _ => True) () :=
    wp_of_only (mintProofNFT_only env payload metadata)
  refine Program.wp_seq (Program.wp_allSettled (wp_of_only hnext)
    (submitToHCS_topic env payload metadata) hmint) (fun settled _ h => ?_)
    fun e _ _ _ he => by cases he
  intro result hresult hcs hhcs
  cases hresult
  refine (h settled rfl).1 hcs ?_
  cases hsubmitted : settled.1 with
  | error e => simp [hsubmitted, Except.toOption] at hhcs
  | ok submitted => simpa [hsubmitted, Except.toOption] using hhcs

end Recording

end HederaProgram

/-! ## What the worker comes to -/

/-- The call signs no mint of other metadata, and names no other topic than the configured
one. -/
def RecordingCall.Names (env : HederaVars) (metadata : Bytes) : RecordingCall → Prop
  | hedera c => HederaProgram.MintsOnly metadata c
  | serviceRequestUpdate _ data =>
      ∀ topic, data.hcsTopicId = some topic → truthy env.hcsTopicId = some topic

theorem HederaProgram.recorded_wp {α : Type} {p : HederaProgram α} {A : RecordingCall → Prop}
    {Q : Except Failure α → Unit → Prop}
    (h : p.wp (Program.unknownAnswers hederaSig Failure) (fun _ c => A (.hedera c)) Q ()) :
    p.recorded.wp (Program.unknownAnswers recordingSig Failure) (fun _ c => A c) Q () :=
  (Program.wp_lift p ()).2
    (Program.wp_mono p (fun _ _ _ _ _ => trivial) (fun _ _ h => h) (fun _ _ h => h) h)

/-- The first recording calls what `recordOnHedera` calls, and writes a result of it. -/
theorem Recording.recordOnHedera_wp {env : HederaVars} {payload : HederaPayload}
    {A : RecordingCall → Prop} {R : Except Failure HederaServiceResult → Unit → Prop}
    (h : (HederaProgram.recordOnHedera env payload).wp (Program.unknownAnswers hederaSig Failure)
      (fun _ c => A (.hedera c)) R ())
    (hwrite : ∀ result, R (.ok result) () →
      A (.serviceRequestUpdate payload.deliveryId result.updates)) :
    ((Recording.recordOnHedera payload).task env).wp (Program.unknownAnswers recordingSig Failure)
      (fun _ c => A c) (fun _ _ => True) () := by
  refine Program.wp_catch (R := fun _ _ => True) ?_ (fun _ _ h => h) fun _ _ _ => trivial
  refine Program.wp_seq (HederaProgram.recorded_wp h) (fun result _ hresult => ?_)
    fun _ _ _ => trivial
  split
  · exact (Program.wp_perform _ _ _).2 ⟨hwrite result hresult, fun _ _ _ => trivial⟩
  · exact trivial

/-- The second recording calls what `mintAndTransferProofNFT` calls, and writes a result of
it. -/
theorem Recording.mintAndTransferProofNFT_wp {env : HederaVars} {caseId : String}
    {hcsTopicId : Option String} {A : RecordingCall → Prop}
    (h : (HederaProgram.mintAndTransferProofNFT env ⟨caseId, hcsTopicId, none⟩).wp
      (Program.unknownAnswers hederaSig Failure) (fun _ c => A (.hedera c)) (fun _ _ => True) ())
    (hwrite : ∀ nft : HederaProgram.ProofNFTTransferResult, A (.serviceRequestUpdate caseId {
      htsTokenId := some nft.tokenId
      htsNftSerial := some (some nft.serial)
      htsTransferTx := some (some nft.transferTx) })) :
    ((Recording.mintAndTransferProofNFT caseId hcsTopicId).task env).wp
      (Program.unknownAnswers recordingSig Failure) (fun _ c => A c) (fun _ _ => True) () := by
  refine Program.wp_catch (R := fun _ _ => True) ?_ (fun _ _ h => h) fun _ _ _ => trivial
  refine Program.wp_seq (HederaProgram.recorded_wp h) (fun nft _ _ => ?_) fun _ _ _ => trivial
  cases nft with
  | none => exact trivial
  | some nft => exact ⟨hwrite nft, fun _ _ _ => trivial⟩

theorem recordOnHedera_names (env : HederaVars) (payload : HederaPayload) (metadata : Bytes) :
    ((Recording.recordOnHedera payload).task env).wp (Program.unknownAnswers recordingSig Failure)
      (fun _ c => c.Names env metadata) (fun _ _ => True) () := by
  refine Recording.recordOnHedera_wp (HederaProgram.recordOnHedera_topic env payload metadata)
    fun result h topic htopic => ?_
  obtain ⟨hcs, hhcs, rfl⟩ := Option.map_eq_some_iff.1 htopic
  exact h result rfl hcs hhcs

/-- The metadata of the proof that the worker mints. -/
def WorkerEnv.proof (worker : WorkerEnv) (row : ClaimableRequest) :
    HederaProgram.ProofNFTMetadata :=
  ⟨row.id, worker.hederaHcsTopicId, none⟩

theorem mintAndTransferProofNFT_names (env : HederaVars) (worker : WorkerEnv)
    (row : ClaimableRequest) :
    ((Recording.mintAndTransferProofNFT row.id worker.hederaHcsTopicId).task env).wp
      (Program.unknownAnswers recordingSig Failure)
      (fun _ c => c.Names env ((worker.proof row).metadata env)) (fun _ _ => True) () :=
  Recording.mintAndTransferProofNFT_wp (HederaProgram.wp_of_only
    (HederaProgram.mintAndTransferProofNFT_only env (worker.proof row)))
    fun nft topic htopic => by cases htopic

/-- The recording is one of the two that the worker starts for the row. -/
def DeliveryCall.RecordsRow (worker : WorkerEnv) (row : ClaimableRequest) : DeliveryCall → Prop
  | record recording => recording = .recordOnHedera (row.hederaPayload worker) ∨
      recording = .mintAndTransferProofNFT row.id worker.hederaHcsTopicId
  | _ => True

theorem processServiceRequest_only (worker : WorkerEnv) (web3 : Web3) (row : ClaimableRequest) :
    (processServiceRequest worker web3 row).Only (DeliveryCall.RecordsRow worker row) := by
  refine (processServiceRequest_calls worker web3 row).mono fun c hc => ?_
  cases c with
  | record recording => exact hc
  | _ => trivial

/-- In a process with the variables `env`, the worker starts a recording for the row, which
comes to await the call. -/
def WorkerAwaits (env : HederaVars) (worker : WorkerEnv) (web3 : Web3) (row : ClaimableRequest)
    (c : RecordingCall) : Prop :=
  ∃ recording, (processServiceRequest worker web3 row).Awaits (.record recording) ∧
    (recording.task env).Awaits c

theorem WorkerAwaits.names {env : HederaVars} {worker : WorkerEnv} {web3 : Web3}
    {row : ClaimableRequest} {c : RecordingCall} (h : WorkerAwaits env worker web3 row c) :
    c.Names env ((worker.proof row).metadata env) := by
  obtain ⟨recording, hstarts, hawaits⟩ := h
  have hrecords := hstarts.of_only (processServiceRequest_only worker web3 row)
  rcases hrecords with rfl | rfl
  · exact hawaits.holds (recordOnHedera_names env _ _)
  · exact hawaits.holds (mintAndTransferProofNFT_names env worker row)

/-- A request that the worker confirmed: the HCS message `q` of the topic `0.0.n` is written
to its row, and `metadata` is minted for it. -/
structure ProvenRequest where
  env : HederaVars
  worker : WorkerEnv
  web3 : Web3
  row : ClaimableRequest
  n : ℕ
  q : ℕ
  columns : HederaUpdate
  metadata : Bytes
  same_process : worker.hederaHcsTopicId = env.hcsTopicId
  n_lt : n < 2 ^ 64
  q_lt : q < 2 ^ 64
  topic_eq : columns.hcsTopicId = some ("0.0." ++ toString n)
  sequence_eq : columns.hcsSequenceNumber = some (q : ℤ)
  writes : WorkerAwaits env worker web3 row (.serviceRequestUpdate row.id columns)
  mints : ∃ token client key, WorkerAwaits env worker web3 row
    (.hedera (.sign (.tokenMint token metadata) client key))

/-- The metadata fits, is whole, and names the HCS message of the row. -/
structure ProvenRequest.Identified (p : ProvenRequest) : Prop where
  length_le : p.metadata.length ≤ 100
  whole : p.metadata = utf8Encode ((p.worker.proof p.row).metaUri p.env)
  topic : p.columns.hcsTopicId = some (nftMetaQuery (utf8Decode p.metadata)).1
  sequence : p.columns.hcsSequenceNumber.map toString =
    some (nftMetaQuery (utf8Decode p.metadata)).2

/-- The metadata names the message 0 of the topic. -/
theorem ProvenRequest.metadata_names (p : ProvenRequest) : p.metadata.length ≤ 100 ∧
    p.metadata = utf8Encode ((p.worker.proof p.row).metaUri p.env) ∧
      nftMetaQuery (utf8Decode p.metadata) = ("0.0." ++ toString p.n, toString 0) := by
  obtain ⟨token, client, key, hmints⟩ := p.mints
  have hmetadata : p.metadata = (p.worker.proof p.row).metadata p.env := hmints.names
  have hconfigured : truthy p.env.hcsTopicId = some ("0.0." ++ toString p.n) :=
    p.writes.names _ p.topic_eq
  have htopic : p.env.hcsTopicId = some ("0.0." ++ toString p.n) :=
    (Option.filter_eq_some_iff.1 hconfigured).1
  have hproof : (p.worker.proof p.row).hcsTopicId.or p.env.hcsTopicId =
      some ("0.0." ++ toString p.n) := by
    change p.worker.hederaHcsTopicId.or p.env.hcsTopicId = _
    rw [p.same_process, htopic]
    rfl
  rw [hmetadata]
  exact HederaProgram.ProofNFTMetadata.metadata_names (q := 0) hproof rfl p.n_lt (by decide)

theorem ProvenRequest.identified_iff (p : ProvenRequest) : p.Identified ↔ p.q = 0 := by
  obtain ⟨hlength, hwhole, hnames⟩ := p.metadata_names
  constructor
  · intro h
    have hsequence := h.sequence
    rw [hnames, p.sequence_eq, Option.map_some] at hsequence
    exact HederaProgram.numeral_injective (Option.some.inj hsequence)
  · intro hq
    refine ⟨hlength, hwhole, ?_, ?_⟩
    · rw [hnames, p.topic_eq]
    · rw [hnames, p.sequence_eq, hq]
      rfl

/-- The metadata of two requests identifies both of them, and tells them apart, exactly when
both have the message 0 of their topic. -/
theorem identified_and_distinct_iff (p p' : ProvenRequest) :
    (p.Identified ∧ p'.Identified ∧ (p.metadata = p'.metadata → p.n = p'.n ∧ p.q = p'.q)) ↔
      p.q = 0 ∧ p'.q = 0 := by
  rw [p.identified_iff, p'.identified_iff]
  refine ⟨fun h => ⟨h.1, h.2.1⟩, fun ⟨hq, hq'⟩ => ⟨hq, hq', fun hmetadata => ⟨?_, ?_⟩⟩⟩
  · obtain ⟨-, -, hnames⟩ := p.metadata_names
    obtain ⟨-, -, hnames'⟩ := p'.metadata_names
    rw [hmetadata, hnames'] at hnames
    have htopic := (String.append_right_inj "0.0.").1 (Prod.mk.inj hnames).1
    exact HederaProgram.numeral_injective htopic.symm
  · rw [hq, hq']

/-! ## A request whose message has a number -/

/-- The row of `oneStaged` while it waits for its confirmation. -/
def signedRow : ClaimableRequest := { claimedRequest.select with txSignature := some "sig-1" }

/-- The variables and the worker of a process with a topic. -/
def hederaVars (topic : String) : HederaVars :=
  ⟨some "0.0.2", some "key", none, some topic, none, none, none⟩

def hederaWorker (topic : String) : WorkerEnv := ⟨none, some topic⟩

/-- The topics of the examples. -/
def exampleTopics : List String := ["0.0.5", "0.0.6"]

/-- The worker confirms the row and starts both recordings. -/
theorem signedRow_starts (topic : String) :
    (processServiceRequest (hederaWorker topic) asciiWeb3 signedRow).Awaits
      (.record (.recordOnHedera (signedRow.hederaPayload (hederaWorker topic)))) ∧
    (processServiceRequest (hederaWorker topic) asciiWeb3 signedRow).Awaits
      (.record (.mintAndTransferProofNFT signedRow.id (hederaWorker topic).hederaHcsTopicId)) := by
  let tx := asciiTransaction 7 none none signedRow.expectedMemo
  constructor
  · exact .after (.ok ()) <| .after (.ok none) <| .after (.ok (some tx)) <|
      .after (.ok (some tx)) <| .after (.ok claimedRequest) <| Program.awaits_call _ _
  · exact .after (.ok ()) <| .after (.ok none) <| .after (.ok (some tx)) <|
      .after (.ok (some tx)) <| .after (.ok claimedRequest) <| .after (.ok ()) <|
      Program.awaits_call _ _

/-- The columns that are written when the message of the row is message `q` of the topic. -/
def messageColumns (topic : String) (q : ℕ) : HederaUpdate :=
  HederaServiceResult.updates ⟨some ⟨topic, q, none, "tx-1",
    HederaProgram.mirrorNodeUrl (hederaVars topic)
      ("topics/" ++ topic ++ "/messages/" ++ toString (q : ℤ))⟩, none⟩

theorem recordOnHedera_writes {topic : String} (h : topic ∈ exampleTopics) (q : ℕ) :
    ((Recording.recordOnHedera (signedRow.hederaPayload (hederaWorker topic))).task
      (hederaVars topic)).Awaits
        (.serviceRequestUpdate signedRow.id (messageColumns topic q)) := by
  simp only [exampleTopics, List.mem_cons, List.not_mem_nil, or_false] at h
  rcases h with rfl | rfl
  all_goals
    refine .after (.ok ()) <| .after (.ok ()) <| .after (.ok (1 : ℕ)) <| .after (.ok (2 : ℕ)) <|
      .after (.ok ()) <| .after (.ok "t") <| .after (.ok (3 : ℕ)) <| .after (.ok (4 : ℕ)) <|
      .after (.ok ()) <| .after (.ok (some (q : ℤ))) <| .after (.ok none) <| .after (.ok "tx-1") <| ?_
    exact Program.awaits_call _ _

theorem mintAndTransferProofNFT_mints {topic : String} (h : topic ∈ exampleTopics) :
    ((Recording.mintAndTransferProofNFT signedRow.id (hederaWorker topic).hederaHcsTopicId).task
      (hederaVars topic)).Awaits (.hedera (.sign (.tokenMint (.inr 7)
        (((hederaWorker topic).proof signedRow).metadata (hederaVars topic))) 3 1)) := by
  simp only [exampleTopics, List.mem_cons, List.not_mem_nil, or_false] at h
  rcases h with rfl | rfl
  all_goals
    refine .after (.ok ()) <| .after (.ok (1 : ℕ)) <| .after (.ok (2 : ℕ)) <|
      .after (.ok (3 : ℕ)) <| .after (.ok ()) <| .after (.ok (4 : ℕ)) <| .after (.ok (5 : ℕ)) <|
      .after (.ok (6 : ℕ)) <| .after (.ok (some (7 : ℕ))) <| .after (.ok "0.0.7") <| ?_
    exact Program.awaits_call _ _

/-- The request whose message is message `q` of the topic `0.0.n`. -/
def messageRequest (n q : ℕ) (hn : n < 2 ^ 64) (hq : q < 2 ^ 64)
    (htopic : "0.0." ++ toString n ∈ exampleTopics) : ProvenRequest where
  env := hederaVars ("0.0." ++ toString n)
  worker := hederaWorker ("0.0." ++ toString n)
  web3 := asciiWeb3
  row := signedRow
  n := n
  q := q
  columns := messageColumns ("0.0." ++ toString n) q
  metadata := ((hederaWorker _).proof signedRow).metadata (hederaVars ("0.0." ++ toString n))
  same_process := rfl
  n_lt := hn
  q_lt := hq
  topic_eq := rfl
  sequence_eq := rfl
  writes := ⟨_, (signedRow_starts _).1, recordOnHedera_writes htopic q⟩
  mints := ⟨_, _, _, _, (signedRow_starts _).2, mintAndTransferProofNFT_mints htopic⟩

/-- The message 0 of the topic 0.0.5, and of the topic 0.0.6: both are identified, and told
apart. -/
theorem identified_and_distinct_of_zero :
    let p := messageRequest 5 0 (by decide) (by decide) (by decide)
    let p' := messageRequest 6 0 (by decide) (by decide) (by decide)
    p.Identified ∧ p'.Identified ∧ p.metadata ≠ p'.metadata := by
  intro p p'
  obtain ⟨hfirst, hsecond, hdistinct⟩ := (identified_and_distinct_iff p p').2 ⟨rfl, rfl⟩
  exact ⟨hfirst, hsecond, fun hmetadata => absurd (hdistinct hmetadata).1 (by decide)⟩

/-- The request whose message is message 8 of the topic 0.0.5. -/
def eighthRequest : ProvenRequest := messageRequest 5 8 (by decide) (by decide) (by decide)

theorem not_identified_of_eighth :
    ¬ ∀ p p' : ProvenRequest, p.Identified ∧ p'.Identified ∧
      (p.metadata = p'.metadata → p.n = p'.n ∧ p.q = p'.q) := by
  intro h
  have hq : eighthRequest.q = 0 := eighthRequest.identified_iff.1 (h eighthRequest eighthRequest).1
  exact absurd hq (by decide)

end EpsDapp
