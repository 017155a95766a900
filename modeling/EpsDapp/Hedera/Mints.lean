import EpsDapp.Delivery.Demo
import EpsDapp.Hedera.Metadata

/-!
# The mints of a row

Four functions write the token columns of a request: the anchoring of the intake
route, the two recordings of the worker, and the demo route. All but one write the
whole of what their mint returned. The second recording of the worker writes the
token alone, over what another mint left in the other columns, so the columns are of
one mint in every state as long as it finds these empty, or the same token.
-/

set_option autoImplicit false

namespace EpsDapp

open Effect

/-- What a mint shows on a row. -/
structure Mint where
  tokenId : String
  serial : ℤ
  mirrorUrl : Option String

/-- `nftSerial ? url : null` -/
def ProofNFT.mirrorUrl (nft : ProofNFT) (mirrorBase : String) : Option String :=
  if nft.serial = 0 then none
  else some (mirrorBase ++ "/token/" ++ nft.tokenId ++ "/" ++ toString nft.serial)

/-- A write of the Hedera columns, with the results it is made of. -/
inductive RowWrite
  /-- Of the anchoring, and of the first recording of the worker. -/
  | recordOnHedera (result : HederaServiceResult)
  /-- Of the second recording of the worker. -/
  | mintAndTransferProofNFT (nft : ProofNFT)
  /-- Of the demo route, with the columns of its HCS message. -/
  | fulfill (mirrorBase : String) (hcs : HCSResult) (nft : Option ProofNFT)

namespace RowWrite

def hcsColumns (hcs : HCSResult) : HederaUpdate where
  hcsTopicId := some hcs.topicId
  hcsSequenceNumber := some hcs.sequenceNumber
  hcsConsensusTime := some hcs.consensusTimestamp
  hcsTxId := some hcs.transactionId
  hcsMirrorUrl := some hcs.mirrorNodeUrl

/-- The `data` of the update. -/
def update : RowWrite → HederaUpdate
  | recordOnHedera result => result.updates
  | mintAndTransferProofNFT nft =>
      { htsTokenId := some nft.tokenId
        htsNftSerial := some (some nft.serial)
        htsTransferTx := some (some nft.transferTx) }
  | fulfill _ hcs none => hcsColumns hcs
  | fulfill mirrorBase hcs (some nft) => nft.columns mirrorBase (hcsColumns hcs)

/-- The mint that the write is about. -/
def mint : RowWrite → Option Mint
  | recordOnHedera result =>
      result.hts.map fun hts => ⟨hts.tokenId, hts.serialNumber, some hts.mirrorNodeUrl⟩
  | mintAndTransferProofNFT nft => some ⟨nft.tokenId, nft.serial, none⟩
  | fulfill _ _ none => none
  | fulfill mirrorBase _ (some nft) => some ⟨nft.tokenId, nft.serial, nft.mirrorUrl mirrorBase⟩

end RowWrite

/-- The functions that write the columns of a row, in processes of their own. -/
inductive RowWriter
  | anchorOnHedera (payload : HederaPayload)
  | recording (env : HederaVars) (recording : Recording)
  | fulfill (demoMode : Bool) (env : HederaEnv) (timestamp : String) (session : Session)
      (body : DemoBody)

/-- The writer comes to await the update of the row `id`. -/
def RowWriter.Writes (id : String) : RowWriter → HederaUpdate → Prop
  | anchorOnHedera payload, data => (EpsDapp.anchorOnHedera id payload).Awaits
      (.serviceRequestUpdate id { hedera := data })
  | recording env task, data => (task.task env).Awaits (.serviceRequestUpdate id data)
  | fulfill demoMode env timestamp session body, data =>
      (EpsDapp.fulfill demoMode env timestamp session body).Awaits
        (.serviceRequestUpdate id { status := some .confirmed, hedera := data })

/-- The Hedera columns of a row, and the mints that its writes were about. -/
structure MintedRow where
  columns : HederaColumns
  mints : List Mint

namespace MintedRow

/-- A row that was just created. -/
def fresh : MintedRow := ⟨{}, []⟩

/-- A writer writes to the row. -/
def Step (id : String) (s : MintedRow) (l : RowWriter × RowWrite) (s' : MintedRow) : Prop :=
  l.1.Writes id l.2.update ∧
    s' = ⟨l.2.update.apply s.columns, s.mints ++ l.2.mint.toList⟩

/-- The token, the serial number and the link that the certificate prints are of one mint, as
far as there are any. -/
def OfOneMint (s : MintedRow) : Prop :=
  (s.columns.htsTokenId = none ∧ s.columns.htsSerialNumber = none ∧
    s.columns.htsMirrorUrl = none) ∨
  ∃ mint ∈ s.mints, s.columns.htsTokenId = some mint.tokenId ∧
    (s.columns.htsSerialNumber = none ∨ s.columns.htsSerialNumber = some mint.serial) ∧
    (s.columns.htsMirrorUrl = none ∨ s.columns.htsMirrorUrl = mint.mirrorUrl)

end MintedRow

/-- The second recording of the worker finds its own token on the row, or no serial number
and no link. -/
def RowWrite.Fits (columns : HederaColumns) : RowWrite → Prop
  | mintAndTransferProofNFT nft => columns.htsTokenId = some nft.tokenId ∨
      columns.htsSerialNumber = none ∧ columns.htsMirrorUrl = none
  | _ => True

/-! ## What the writers write -/

/-- The update of the call, if it is one, is made of results. -/
def RecordingCall.Written : RecordingCall → Prop
  | hedera _ => True
  | serviceRequestUpdate _ data => ∃ write : RowWrite, write.update = data

theorem task_written (env : HederaVars) (recording : Recording) :
    (recording.task env).wp (Program.unknownAnswers recordingSig Failure)
      (fun _ c => c.Written) (fun _ _ => True) () := by
  cases recording with
  | recordOnHedera payload =>
      exact Recording.recordOnHedera_wp (R := fun _ _ => True)
        (Program.wp_of_runs fun _ _ _ => trivial) fun result _ => ⟨.recordOnHedera result, rfl⟩
  | mintAndTransferProofNFT caseId hcsTopicId =>
      exact Recording.mintAndTransferProofNFT_wp (Program.wp_of_runs fun _ _ _ => trivial)
        fun nft => ⟨.mintAndTransferProofNFT nft.toProofNFT, rfl⟩

def ServerCall.Written : ServerCall → Prop
  | serviceRequestUpdate _ data => ∃ write : RowWrite, write.update = data.hedera
  | _ => True

theorem anchorOnHedera_written (id : String) (payload : HederaPayload) :
    (anchorOnHedera id payload).Only ServerCall.Written := by
  refine Program.only_tryCatch ?_ fun e => Program.only_pure _
  refine Program.only_bind ((Program.only_perform _).2 trivial) fun result => ?_
  split
  · exact (Program.only_perform _).2 ⟨.recordOnHedera result, rfl⟩
  · exact Program.only_pure _

def DeliveryCall.Written : DeliveryCall → Prop
  | serviceRequestUpdate _ data => ∃ write : RowWrite, write.update = data.hedera
  | _ => True

theorem fulfill_written (demoMode : Bool) (env : HederaEnv) (timestamp : String)
    (session : Session) (body : DemoBody) :
    (fulfill demoMode env timestamp session body).Only DeliveryCall.Written := by
  have hproof : ∀ topicId existing,
      (fulfillProof env timestamp topicId existing).Only DeliveryCall.Written := by
    intro topicId existing
    rw [fulfillProof]
    split
    · exact Program.only_throw _
    · refine Program.only_bind (Program.only_tryCatch (Program.only_map _
        ((Program.only_perform _).2 trivial)) fun _ => Program.only_pure _) fun submitted => ?_
      cases submitted with
      | error e => exact Program.only_pure _
      | ok submitted =>
          refine Program.only_bind (Program.only_tryCatch (Program.only_map _
            ((Program.only_perform _).2 trivial)) fun _ => Program.only_pure _) fun minted => ?_
          let hcs : HCSResult := ⟨topicId, submitted.2, some timestamp, submitted.1,
            env.mirrorBase ++ "/topic/" ++ topicId ++ "/messages?seq=" ++ toString submitted.2⟩
          refine Program.only_bind ((Program.only_perform _).2
            ⟨.fulfill env.mirrorBase hcs minted.toOption.join, ?_⟩) fun _ => Program.only_pure _
          cases minted.toOption.join <;> rfl
  rw [fulfill, demoRoute]
  split
  · split
    · exact Program.only_pure _
    · exact Program.only_throw _
    · split
      · exact Program.only_pure _
      · split
        · exact Program.only_pure _
        · refine Program.only_bind ((Program.only_perform _).2 trivial) fun existing => ?_
          split
          · exact Program.only_pure _
          · split
            · exact Program.only_pure _
            · exact Program.only_pure _
            · split
              · exact hproof _ _
              · exact Program.only_pure _
  · exact Program.only_pure _

/-- Whatever a writer comes to write is a step of the row. -/
theorem RowWriter.Writes.exists_step {id : String} {writer : RowWriter} {data : HederaUpdate}
    (h : writer.Writes id data) (s : MintedRow) :
    ∃ write s', s.Step id (writer, write) s' ∧ s'.columns = data.apply s.columns := by
  have hwritten : ∃ write : RowWrite, write.update = data := by
    cases writer with
    | anchorOnHedera payload => exact h.of_only (anchorOnHedera_written id payload)
    | recording env recording => exact h.holds (task_written env recording)
    | fulfill demoMode env timestamp session body =>
        exact h.of_only (fulfill_written demoMode env timestamp session body)
  obtain ⟨write, rfl⟩ := hwritten
  exact ⟨write, _, ⟨h, rfl⟩, rfl⟩

/-! ## One mint -/

namespace MintedRow

/-- More mints, and columns that print the same. -/
theorem OfOneMint.mono {s s' : MintedRow} (hs : s.OfOneMint)
    (htoken : s'.columns.htsTokenId = s.columns.htsTokenId)
    (hserial : s'.columns.htsSerialNumber = s.columns.htsSerialNumber)
    (hurl : s'.columns.htsMirrorUrl = s.columns.htsMirrorUrl) (hmints : s.mints ⊆ s'.mints) :
    s'.OfOneMint := by
  rw [OfOneMint, htoken, hserial, hurl]
  exact hs.imp_right fun ⟨mint, hmint, h⟩ => ⟨mint, hmints hmint, h⟩

/-- The columns print the last mint. -/
theorem ofOneMint_of_last {columns : HederaColumns} {mints : List Mint} {mint : Mint}
    (htoken : columns.htsTokenId = some mint.tokenId)
    (hserial : columns.htsSerialNumber = none ∨ columns.htsSerialNumber = some mint.serial)
    (hurl : columns.htsMirrorUrl = none ∨ columns.htsMirrorUrl = mint.mirrorUrl) :
    OfOneMint ⟨columns, mints ++ [mint]⟩ :=
  .inr ⟨mint, by simp, htoken, hserial, hurl⟩

theorem OfOneMint.step {id : String} {s s' : MintedRow} {l : RowWriter × RowWrite}
    (hs : s.OfOneMint) (h : s.Step id l s') (hfits : l.2.Fits s.columns) : s'.OfOneMint := by
  obtain ⟨-, rfl⟩ := h
  obtain ⟨writer, write⟩ := l
  have hmints : ∀ mints : List Mint, s.mints ⊆ s.mints ++ mints := fun mints =>
    List.subset_append_left s.mints mints
  cases write with
  | recordOnHedera result =>
      obtain ⟨hcs, hts⟩ := result
      cases hts with
      | none => exact hs.mono rfl rfl rfl (hmints _)
      | some hts => exact ofOneMint_of_last rfl (.inr rfl) (.inr rfl)
  | mintAndTransferProofNFT nft =>
      rcases hfits with htoken | ⟨hserial, hurl⟩
      · exact hs.mono htoken.symm rfl rfl (hmints _)
      · exact ofOneMint_of_last rfl (.inl hserial) (.inl hurl)
  | fulfill mirrorBase hcs nft =>
      cases nft with
      | none => exact hs.mono rfl rfl rfl (hmints _)
      | some nft =>
          by_cases htoken : nft.tokenId = ""
          · simp only [RowWrite.update, ProofNFT.columns, if_pos htoken]
            exact hs.mono rfl rfl rfl (hmints _)
          · simp only [RowWrite.update, ProofNFT.columns, if_neg htoken]
            exact ofOneMint_of_last rfl (.inr rfl) (.inr rfl)

/-- In every interleaving of the writers in which the second recording of the worker always
finds its own token, or neither a serial number nor a link, what the row shows of a token is
of one mint. -/
theorem ofOneMint_of_fits {id : String} {run : List ((RowWriter × RowWrite) × MintedRow)}
    (hrun : IsRun (Step id) fresh run)
    (hfits : IsRun (fun s l _ => l.2.Fits s.columns) fresh run) :
    ∀ s ∈ statesOf fresh run, s.OfOneMint :=
  IsRun.invariant (fun _ _ _ hs h => hs.step h.1 h.2) (.inl ⟨rfl, rfl, rfl⟩)
    (IsRun.and_iff.2 ⟨hrun, hfits⟩)

/-! ### Two collections -/

/-- The intake route runs where a collection is configured. -/
def anchoredResult : HederaServiceResult :=
  ⟨none, some ⟨"0.0.6", 1, "tx-1", HederaProgram.mirrorNodeUrl (hederaVars "0.0.5") "tokens/0.0.6/nfts/1"⟩⟩

def anchoring : RowWriter × RowWrite :=
  (.anchorOnHedera (signedRow.hederaPayload (hederaWorker "0.0.5")), .recordOnHedera anchoredResult)

/-- The worker runs where none is, and creates one. -/
def proofMint : RowWriter × RowWrite :=
  (.recording (hederaVars "0.0.5") (.mintAndTransferProofNFT "sr-1" (some "0.0.5")),
    .mintAndTransferProofNFT ⟨"0.0.7", 3, "tx-2"⟩)

/-- The row after a write. -/
def after (s : MintedRow) (l : RowWriter × RowWrite) : MintedRow :=
  ⟨l.2.update.apply s.columns, s.mints ++ l.2.mint.toList⟩

theorem step_anchoring (s : MintedRow) : s.Step "sr-1" anchoring (s.after anchoring) :=
  ⟨.after (.ok anchoredResult) (Program.awaits_call _ _), rfl⟩

theorem step_proofMint (s : MintedRow) : s.Step "sr-1" proofMint (s.after proofMint) := by
  refine ⟨?_, rfl⟩
  -- The SDK is loaded, and the collection is created.
  refine .after (.ok ()) <| .after (.ok (1 : ℕ)) <| .after (.ok (2 : ℕ)) <| .after (.ok (3 : ℕ)) <|
    .after (.ok ()) <| .after (.ok (4 : ℕ)) <| .after (.ok (5 : ℕ)) <| .after (.ok (6 : ℕ)) <|
    .after (.ok (some (7 : ℕ))) <| .after (.ok "0.0.7") <| ?_
  -- The proof is minted, and the account of the defendant is created.
  refine .after (.ok (8 : ℕ)) <| .after (.ok (9 : ℕ)) <| .after (.ok (10 : ℕ)) <|
    .after (.ok (some (3 : ℤ))) <| .after (.ok (11 : ℕ)) <| .after (.ok (12 : ℕ)) <|
    .after (.ok (13 : ℕ)) <| .after (.ok (some (14 : ℕ))) <| .after (.ok "0.0.14") <| ?_
  -- The proof is transferred.
  refine .after (.ok (15 : ℕ)) <| .after (.ok (16 : ℕ)) <| .after (.ok (17 : ℕ)) <|
    .after (.ok "tx-2") <| .after (.ok "0.0.7") <| .after (.ok "0.0.14") <| .after (.ok ()) <| ?_
  exact Program.awaits_call _ _

/-- The anchoring comes last, and replaces the token. -/
theorem ofOneMint_of_fits_of_anchoring : (fresh.after proofMint).OfOneMint ∧
    ((fresh.after proofMint).after anchoring).OfOneMint := by
  let run := [(proofMint, fresh.after proofMint),
    (anchoring, (fresh.after proofMint).after anchoring)]
  have hrun : IsRun (Step "sr-1") fresh run := ⟨step_proofMint _, step_anchoring _, trivial⟩
  have hfits : IsRun (fun s l _ => l.2.Fits s.columns) fresh run :=
    ⟨.inr ⟨rfl, rfl⟩, trivial, trivial⟩
  have hall : ∀ s ∈ statesOf fresh run, s.OfOneMint := ofOneMint_of_fits hrun hfits
  exact ⟨hall (fresh.after proofMint) (by simp [run, statesOf]),
    hall ((fresh.after proofMint).after anchoring) (by simp [run, statesOf])⟩

/-- The second recording of the worker comes last: its token stands beside the serial number
and the link of the anchoring. -/
theorem not_ofOneMint_of_proofMint :
    ¬ ∀ (id : String) (run : List ((RowWriter × RowWrite) × MintedRow)),
      IsRun (Step id) fresh run → ∀ s ∈ statesOf fresh run, s.OfOneMint := by
  intro h
  let last := (fresh.after anchoring).after proofMint
  have hlast : last.OfOneMint :=
    h "sr-1" [(anchoring, fresh.after anchoring), (proofMint, last)]
      ⟨step_anchoring _, step_proofMint _, trivial⟩ last (by simp [statesOf])
  rcases hlast with ⟨htoken, -⟩ | ⟨mint, hmint, htoken, hserial, -⟩
  · cases htoken
  · -- The token is the second one's, and the serial number the first one's.
    have htoken : "0.0.7" = mint.tokenId := Option.some.inj htoken
    have hserial : 1 = mint.serial := Option.some.inj (hserial.resolve_left fun h => by cases h)
    have hmint : mint ∈ anchoring.2.mint.toList ++ proofMint.2.mint.toList := hmint
    rcases List.mem_append.1 hmint with hmint | hmint
    · cases List.mem_singleton.1 hmint
      exact absurd htoken (by decide)
    · cases List.mem_singleton.1 hmint
      exact absurd hserial (by decide)

end MintedRow

end EpsDapp
