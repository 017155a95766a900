import EpsDapp.Delivery.Jobs
import EpsDapp.Text.Base58

/-!
# The memo, sent and read back

`SolanaAdapter.send` builds a transfer followed by a memo, and the cluster records the
transaction as a message: a list of account keys in some order, and instructions that
point into it, with their data in base58 or in bytes. `decodeMemo` finds the memo in
either shape. The memo of a request has its id as the last of three fields, so that
what verifies for one request is recorded for no other.
-/

set_option autoImplicit false

namespace EpsDapp

open Effect DeliveryProgram

/-! ## Building and recording -/

/-- `TransactionInstruction`, less its accounts. -/
structure TransactionInstruction where
  programId : PublicKey
  data : Bytes

/-- What is used of `@solana/web3.js`, `bs58` and `Buffer` to build a transaction and to
write it down. -/
structure Web3Encoder where
  systemProgramId : PublicKey
  /-- The data of `SystemProgram.transfer`. -/
  transferData : (lamports : ℕ) → Bytes
  bs58Encode : Bytes → String
  utf8Encode : String → Bytes

/-- The transaction that `SolanaAdapter.send` builds. -/
def builtTransaction (web3 : Web3) (encoder : Web3Encoder) (params : DeliverParams) :
    List TransactionInstruction :=
  [⟨encoder.systemProgramId, encoder.transferData params.lamports⟩,
    ⟨web3.memoProgramId, encoder.utf8Encode (String.intercalate " | " params.memoParts)⟩]

/-- The message records the instructions: each points to its program among the account
keys, and has its data in the way of the shape. -/
def Message.Records (encoder : Web3Encoder) : Message → List TransactionInstruction → Prop
  | .legacy keys ixs, sent => List.Forall₂ (fun ix instruction =>
      keys[ix.programIdIndex]? = some instruction.programId ∧
        ix.data = encoder.bs58Encode instruction.data) ixs sent
  | .v0 keys ixs, sent => List.Forall₂ (fun ix instruction =>
      keys[ix.programIdIndex]? = some instruction.programId ∧ ix.data = instruction.data) ixs sent

/-- The decoders undo the encoders, and a transfer is no memo. -/
structure Web3Encoder.Encodes (encoder : Web3Encoder) (web3 : Web3) : Prop where
  bs58 : ∀ data, web3.bs58Decode (encoder.bs58Encode data) = some data
  utf8 : ∀ text, web3.utf8Decode (encoder.utf8Encode text) = text
  program : encoder.systemProgramId ≠ web3.memoProgramId

section Codec

variable {web3 : Web3} {encoder : Web3Encoder}

/-- A recorded message has the instructions that were sent. -/
theorem Message.Records.decoded (hencodes : encoder.Encodes web3) {message : Message}
    {sent : List TransactionInstruction} (h : message.Records encoder sent) :
    message.decoded web3 = sent.map fun i => (some i.programId, some i.data) := by
  cases message with
  | legacy keys ixs =>
      simp only [Records] at h
      rw [Message.decoded]
      induction h with
      | nil => rfl
      | cons hix _ ih => rw [List.map_cons, List.map_cons, ih, hix.1, hix.2, hencodes.bs58]
  | v0 keys ixs =>
      simp only [Records] at h
      rw [Message.decoded]
      induction h with
      | nil => rfl
      | cons hix _ ih => rw [List.map_cons, List.map_cons, ih, hix.1, hix.2]

/-- What a single memo part has been sent as is decoded, in either shape. -/
theorem decodeMemo_of_records (hencodes : encoder.Encodes web3) {tx : TransactionResponse}
    {params : DeliverParams} {memo : String} (hmemo : params.memoParts = [memo])
    (h : tx.message.Records encoder (builtTransaction web3 encoder params)) :
    decodeMemo web3 (some tx) = .ok (some memo) := by
  refine (decodeMemo_eq_some_iff web3 tx memo).2 ⟨some web3.memoProgramId, encoder.utf8Encode memo, ?_,
    hencodes.utf8 memo⟩
  have htransfer : (some encoder.systemProgramId == some web3.memoProgramId) = false := by
    simpa using hencodes.program
  have hjoin : String.intercalate " | " [memo] = memo := rfl
  rw [h.decoded hencodes, builtTransaction, hmemo, hjoin, List.map_cons, List.map_cons,
    List.find?_cons, htransfer]
  simp

end Codec

/-! ## The fields -/

/-- `memo.split("|")` -/
def splitMemo (memo : String) : List String := (memo.toList.splitOn '|').map String.ofList

/-- The text contains no separator. -/
def Unseparated (text : String) : Prop := '|' ∉ text.toList

theorem splitMemo_buildServiceMemo {sha256 noticeToken serviceId : String}
    (hsha256 : Unseparated sha256) (htoken : Unseparated noticeToken)
    (hid : Unseparated serviceId) :
    splitMemo (buildServiceMemo sha256 noticeToken serviceId) =
      [sha256, noticeToken, serviceId] := by
  have hlist : (buildServiceMemo sha256 noticeToken serviceId).toList =
      List.intercalate ['|'] [sha256.toList, noticeToken.toList, serviceId.toList] := by
    simp [buildServiceMemo, List.intercalate]
  rw [splitMemo, hlist, List.splitOn_intercalate]
  · simp
  · simp only [List.mem_cons, List.not_mem_nil, or_false]
    rintro l (rfl | rfl | rfl)
    · exact hsha256
    · exact htoken
    · exact hid
  · exact nofun

/-! ## The verification -/

/-- The answers to a worker whose reads from the chain find `tx`, while no statement of the
database fails. -/
def readBackAnswers (tx : TransactionResponse) : Answers deliverySig Failure Db :=
  fun db c db' r => deliveryAnswers db c db' r ∧
    match c with
    | .chain (.confirmTransaction _) => ∃ err, r = .ok err
    | .chain (.getTransaction _) => r = .ok (some tx)
    | _ => True

/-- Answers of a chain that confirmed `tx`. -/
def TransactionResponse.readBack (tx : TransactionResponse) :
    (c : DeliveryCall) → Except Failure c.Resp
  | .chain (.confirmTransaction _) => .ok none
  | .chain (.getTransaction _) => .ok (some tx)
  | _ => .error (.error "")

/-- Every call of such a worker has an answer. -/
theorem readBackAnswers_total (tx : TransactionResponse) (db : Db) (c : DeliveryCall) :
    ∃ db' r, readBackAnswers tx db c db' r := by
  obtain ⟨db', r, hanswer, hr⟩ := deliveryAnswers_total tx.readBack db c
  refine ⟨db', r, hanswer, ?_⟩
  cases c with
  | chain c =>
      obtain rfl := hr c rfl
      cases c with
      | confirmTransaction _ => exact ⟨none, rfl⟩
      | getTransaction _ => rfl
      | _ => trivial
  | _ => trivial

/-- The fields of the memo of a row contain no separator. -/
structure ClaimableRequest.Separable (row : ClaimableRequest) : Prop where
  sha256 : Unseparated (row.documentSha256.getD "")
  noticeToken : Unseparated (row.noticeToken.getD "")
  id : Unseparated row.id

/-- What the worker sends for a row. -/
def ClaimableRequest.deliverParams (row : ClaimableRequest) (lamports : ℕ) : DeliverParams :=
  ⟨row.recipientWallet, lamports, [row.expectedMemo]⟩

/-- Rows of one memo are one row. -/
theorem ClaimableRequest.Separable.id_eq {row row' : ClaimableRequest} (h : row.Separable)
    (h' : row'.Separable) (hmemo : row.expectedMemo = row'.expectedMemo) : row.id = row'.id := by
  have hsplit := splitMemo_buildServiceMemo h.sha256 h.noticeToken h.id
  have hsplit' := splitMemo_buildServiceMemo h'.sha256 h'.noticeToken h'.id
  have hfields := hsplit.symm.trans ((congrArg splitMemo hmemo).trans hsplit')
  simp only [List.cons.injEq] at hfields
  exact hfields.2.2.1

/-- The verification of a row accepts the transactions that decode to its memo, and no
others. -/
theorem confirmAndVerify_recorded (env : WorkerEnv) (web3 : Web3) (row : ClaimableRequest)
    (signature memo : String) {tx : TransactionResponse} {db : Db}
    (hrow : db.request? row.id ≠ none) (hmemo : decodeMemo web3 (some tx) = .ok (some memo)) :
    (confirmAndVerify env (solanaAdapter web3) row signature).wp (readBackAnswers tx)
      (fun _ _ => True) (fun r db' => if memo = row.expectedMemo then r = .ok ()
        else db' = db ∧ r = .error (.memoMismatch row.id signature)) db := by
  refine (Program.wp_bind _ _ _ _).2 ((Program.wp_bind _ _ _ _).2
    ((Program.wp_perform _ _ _).2 ⟨trivial, ?_⟩))
  rintro db₁ _ ⟨hdb₁, err, rfl⟩
  obtain rfl : db₁ = db := hdb₁
  refine (Program.wp_bind _ _ _ _).2 ((Program.wp_perform _ _ _).2 ⟨trivial, ?_⟩)
  rintro db₂ _ ⟨hdb₂, rfl⟩
  obtain rfl : db₂ = db₁ := hdb₂
  refine (Program.wp_bind _ _ _ _).2 ((Program.wp_bind _ _ _ _).2
    ((Program.wp_perform _ _ _).2 ⟨trivial, ?_⟩))
  rintro db₃ _ ⟨hdb₃, rfl⟩
  obtain rfl : db₃ = db₂ := hdb₃
  simp only [hmemo, Program.wp_pure]
  by_cases h : memo = row.expectedMemo
  · rw [if_neg (not_not.2 (congrArg some h))]
    refine (Program.wp_bind _ _ _ _).2 ((Program.wp_perform _ _ _).2 ⟨trivial, ?_⟩)
    rintro db₄ r ⟨hupdate, -⟩
    obtain ⟨r₀, hr₀⟩ := Option.ne_none_iff_exists'.1 hrow
    simp only [deliveryAnswers, DeliveryCall.Exec, hr₀] at hupdate
    obtain ⟨-, rfl⟩ := hupdate
    refine (Program.wp_bind _ _ _ _).2 ((Program.wp_perform _ _ _).2 ⟨trivial, ?_⟩)
    rintro db₅ _ ⟨⟨-, rfl⟩, -⟩
    refine (Program.wp_perform _ _ _).2 ⟨trivial, ?_⟩
    rintro db₆ _ ⟨⟨-, rfl⟩, -⟩
    rw [if_pos h]
  · have hne : some memo ≠ some row.expectedMemo := fun heq => h (Option.some.inj heq)
    rw [if_pos hne]
    refine (Program.wp_throw _ _ _).2 ?_
    rw [if_neg h]
    exact ⟨rfl, rfl⟩

/-- The memo codec. What is recorded of a transaction that was sent for a memo of three
fields decodes to that memo, in either shape, and the memo splits into its fields; so the
verification accepts what is recorded for its row, and rejects what is recorded for
another. -/
theorem memo_codec (web3 : Web3) (encoder : Web3Encoder) (hencodes : encoder.Encodes web3) :
    (∀ (params : DeliverParams) (sha256 noticeToken serviceId : String),
      Unseparated sha256 → Unseparated noticeToken → Unseparated serviceId →
      params.memoParts = [buildServiceMemo sha256 noticeToken serviceId] →
      (∀ tx : TransactionResponse,
        tx.message.Records encoder (builtTransaction web3 encoder params) →
        decodeMemo web3 (some tx) = .ok (some (buildServiceMemo sha256 noticeToken serviceId))) ∧
      (∀ tx tx' : TransactionResponse,
        tx.message.Records encoder (builtTransaction web3 encoder params) →
        tx'.message.Records encoder (builtTransaction web3 encoder params) →
        decodeMemo web3 (some tx) = decodeMemo web3 (some tx')) ∧
      splitMemo (buildServiceMemo sha256 noticeToken serviceId) =
        [sha256, noticeToken, serviceId]) ∧
    ∀ (env : WorkerEnv) (row row' : ClaimableRequest) (lamports : ℕ) (signature : String)
      (tx : TransactionResponse) (db db' : Db) (r : Except Failure Unit),
      row.Separable → row'.Separable → db.request? row.id ≠ none →
      tx.message.Records encoder
        (builtTransaction web3 encoder (row'.deliverParams lamports)) →
      (confirmAndVerify env (solanaAdapter web3) row signature).Runs (readBackAnswers tx)
        db db' r →
      (row' = row → r = .ok ()) ∧
        (row'.id ≠ row.id → db' = db ∧ r = .error (.memoMismatch row.id signature)) := by
  constructor
  · intro params sha256 noticeToken serviceId hsha256 htoken hid hmemo
    refine ⟨fun tx h => decodeMemo_of_records hencodes hmemo h, fun tx tx' h h' => ?_,
      splitMemo_buildServiceMemo hsha256 htoken hid⟩
    rw [decodeMemo_of_records hencodes hmemo h, decodeMemo_of_records hencodes hmemo h']
  · intro env row row' lamports signature tx db db' r hrow hrow' hexists h hrun
    have hmemo : decodeMemo web3 (some tx) = .ok (some row'.expectedMemo) :=
      decodeMemo_of_records hencodes rfl h
    have hverify := Program.wp_runs _
      (confirmAndVerify_recorded env web3 row signature _ hexists hmemo) hrun
    constructor
    · rintro rfl
      exact (if_pos rfl).mp hverify
    · intro hne
      have hmemo : row'.expectedMemo ≠ row.expectedMemo := fun heq => hne (hrow'.id_eq hrow heq)
      exact (if_neg hmemo).mp hverify

/-! ## The libraries -/

/-- The libraries, as far as valid UTF-8 and the address of the system program go. -/
def unicodeWeb3 : Web3 where
  parsePublicKey addr := (base58Decode addr).filter fun key => key.length = 32
  isOnCurve key := key == List.replicate 32 0
  bs58Decode := base58Decode
  utf8Decode data := (String.fromUTF8? ⟨data.toArray⟩).getD "\uFFFD"
  memoProgramId := asciiWeb3.memoProgramId

/-- Their encoders. -/
def unicodeEncoder : Web3Encoder where
  systemProgramId := List.replicate 32 0
  transferData lamports :=
    [2, 0, 0, 0] ++ (List.range 8).map fun i => UInt8.ofNat (lamports / 256 ^ i)
  bs58Encode := base58Encode
  utf8Encode text := text.toUTF8.data.toList

theorem unicodeEncoder_encodes : unicodeEncoder.Encodes unicodeWeb3 where
  bs58 := base58Decode_base58Encode
  utf8 text := by
    have hvalid : (ByteArray.mk text.toUTF8.data.toList.toArray).IsValidUTF8 := text.isValidUTF8
    simp only [unicodeWeb3, unicodeEncoder, String.fromUTF8?, dif_pos hvalid, Option.getD_some]
    rfl
  program := by decide

/-- The account keys of the message, in another order than that of their use. -/
def recordedKeys : List PublicKey :=
  [unicodeWeb3.memoProgramId, List.replicate 32 1, unicodeEncoder.systemProgramId]

/-- The transaction that is sent for `params`, in the legacy shape -/
def legacyRecord (params : DeliverParams) : TransactionResponse where
  slot := 7
  blockTime := none
  err := none
  message := .legacy recordedKeys
    [⟨2, base58Encode (unicodeEncoder.transferData params.lamports)⟩,
      ⟨0, base58Encode (unicodeEncoder.utf8Encode (String.intercalate " | " params.memoParts))⟩]

/-- and in the versioned one. -/
def v0Record (params : DeliverParams) : TransactionResponse where
  slot := 7
  blockTime := none
  err := none
  message := .v0 recordedKeys
    [⟨2, unicodeEncoder.transferData params.lamports⟩,
      ⟨0, unicodeEncoder.utf8Encode (String.intercalate " | " params.memoParts)⟩]

theorem legacyRecord_records (params : DeliverParams) :
    (legacyRecord params).message.Records unicodeEncoder
      (builtTransaction unicodeWeb3 unicodeEncoder params) :=
  .cons ⟨rfl, rfl⟩ (.cons ⟨rfl, rfl⟩ .nil)

theorem v0Record_records (params : DeliverParams) :
    (v0Record params).message.Records unicodeEncoder
      (builtTransaction unicodeWeb3 unicodeEncoder params) :=
  .cons ⟨rfl, rfl⟩ (.cons ⟨rfl, rfl⟩ .nil)

/-- The digest of the empty document. -/
def filedSha256 : String := "e3b0c44298fc1c149afbf4c8996fb92427ae41e4649b934ca495991b7852b855"

def filedToken : String := "6f1ed002ab5595859014ebf0951522d9"

/-- A request in progress, with a document and a token. -/
def filedRequest : ServiceRequest :=
  { claimedRequest with noticeToken := some filedToken, documentSha256 := some filedSha256 }

/-- A database with this request. -/
def oneFiled : Db := { oneInProgress with serviceRequests := Table.empty.insert filedRequest rfl }

theorem filedRequest_separable {id : String} (hid : Unseparated id) :
    ({ filedRequest.select with id := id } : ClaimableRequest).Separable where
  sha256 := show '|' ∉ filedSha256.toList by rw [filedSha256, String.toList_ofList]; decide +kernel
  noticeToken := show '|' ∉ filedToken.toList by rw [filedToken, String.toList_ofList]; decide +kernel
  id := hid

/-- The transaction of the request of `oneFiled` decodes to its memo in both shapes, and is
accepted in either; that of another request with the same document and token is not. -/
theorem memo_codec_of_records :
    let row := filedRequest.select
    let foreign : ClaimableRequest := { row with id := "sr-2" }
    let verify := confirmAndVerify ⟨none, none⟩ (solanaAdapter unicodeWeb3) row "sig-1"
    (∀ tx ∈ [legacyRecord (row.deliverParams 890880), v0Record (row.deliverParams 890880)],
      decodeMemo unicodeWeb3 (some tx) =
        .ok (some (buildServiceMemo filedSha256 filedToken "sr-1")) ∧
      ∃ db', verify.Runs (readBackAnswers tx) oneFiled db' (.ok ())) ∧
    splitMemo (buildServiceMemo filedSha256 filedToken "sr-1") =
      [filedSha256, filedToken, "sr-1"] ∧
    verify.Runs (readBackAnswers (v0Record (foreign.deliverParams 890880))) oneFiled oneFiled
      (.error (.memoMismatch "sr-1" "sig-1")) := by
  intro row foreign verify
  have hcodec := memo_codec unicodeWeb3 unicodeEncoder unicodeEncoder_encodes
  have hid : Unseparated row.id := show '|' ∉ "sr-1".toList by decide
  have hforeign : Unseparated foreign.id := show '|' ∉ "sr-2".toList by decide
  have hrow : row.Separable := filedRequest_separable hid
  have hexists : oneFiled.request? row.id ≠ none := by decide
  have hfields := hcodec.1 (row.deliverParams 890880) filedSha256 filedToken row.id hrow.sha256
    hrow.noticeToken hid rfl
  have hruns : ∀ tx, ∃ db' r, verify.Runs (readBackAnswers tx) oneFiled db' r := fun tx =>
    Program.exists_runs (readBackAnswers_total tx) verify oneFiled
  refine ⟨fun tx htx => ?_, hfields.2.2, ?_⟩
  · have hrecords : tx.message.Records unicodeEncoder
        (builtTransaction unicodeWeb3 unicodeEncoder (row.deliverParams 890880)) := by
      rcases List.mem_pair.1 htx with rfl | rfl
      · exact legacyRecord_records _
      · exact v0Record_records _
    obtain ⟨db', r, hrun⟩ := hruns tx
    obtain ⟨haccepts, -⟩ := hcodec.2 _ row row 890880 _ tx _ db' r hrow hrow hexists hrecords hrun
    obtain rfl := haccepts rfl
    exact ⟨hfields.1 tx hrecords, db', hrun⟩
  · obtain ⟨db', r, hrun⟩ := hruns (v0Record (foreign.deliverParams 890880))
    obtain ⟨-, hrejects⟩ := hcodec.2 _ row foreign 890880 _ _ _ db' r hrow
      (filedRequest_separable hforeign) hexists (v0Record_records _) hrun
    obtain ⟨rfl, rfl⟩ := hrejects (by decide)
    exact hrun

end EpsDapp
