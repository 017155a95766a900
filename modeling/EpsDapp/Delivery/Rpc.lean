import EpsDapp.Delivery.Jobs

/-!
# Attempts against a given RPC

A signature has a fate, the finalized transaction that it names in the end, and
an honest RPC answers as the fates are. An `Rpc` is one behaviour of the Solana
client in the course of an attempt: what each call answers, the `n`-th
`getTransaction` apart from the others. Against it an attempt can end in one way
only, unless the database throws: the row becomes `CONFIRMED` if the answers
`Confirm` it, and otherwise the attempt fails and the row stays `IN_PROGRESS`.
-/

set_option autoImplicit false

namespace EpsDapp

open Effect DeliveryProgram

/-- The finalized transaction each signature will name. -/
abbrev Fate := String → Option TransactionResponse

/-- The RPC answers as the fates are: a confirmation names the error of the
finalized transaction, and a read that finds a transaction finds that one. -/
def Honest (fate : Fate) : (c : DeliveryCall) → Except Failure c.Resp → Prop
  | .chain (.confirmTransaction signature), .ok err =>
      ∃ tx, fate signature = some tx ∧ tx.err = err
  | .chain (.getTransaction signature), .ok (some tx) => fate signature = some tx
  | _, _ => True

/-- What the Solana client answers in one attempt. -/
structure Rpc where
  getSolanaAdapter : Except Failure Unit
  getRentExemptMinimum : Except Failure ℕ
  sendTransaction : Except Failure String
  confirmTransaction : Except Failure (Option String)
  getTransaction : ℕ → Except Failure (Option TransactionResponse)

namespace Rpc

variable (rpc : Rpc) (web3 : Web3) (row : ClaimableRequest)

/-- The answer to a call that comes after `reads` re-reads. -/
def answer (reads : ℕ) : (c : ChainCall) → Except Failure c.Resp
  | .getSolanaAdapter => rpc.getSolanaAdapter
  | .getRentExemptMinimum => rpc.getRentExemptMinimum
  | .sendTransaction _ _ _ => rpc.sendTransaction
  | .confirmTransaction _ => rpc.confirmTransaction
  | .getTransaction _ => rpc.getTransaction reads

/-- An attempt at `row` comes to have `signature` at hand: it is on record, or
the row is sent for. -/
def Signs (signature : String) : Prop :=
  match row.txSignature with
  | some recorded => recorded = signature
  | none => (∃ lamports, rpc.getRentExemptMinimum = .ok lamports) ∧
      (∃ recipient, assertValidRecipient web3 row.recipientWallet = .ok recipient) ∧
      rpc.sendTransaction = .ok signature

theorem signs_of_recorded {recorded signature : String} (h : row.txSignature = some recorded) :
    rpc.Signs web3 row signature ↔ recorded = signature := by
  simp only [Signs, h]

theorem signs_of_unsent {signature : String} (h : row.txSignature = none) :
    rpc.Signs web3 row signature ↔ (∃ lamports, rpc.getRentExemptMinimum = .ok lamports) ∧
      (∃ recipient, assertValidRecipient web3 row.recipientWallet = .ok recipient) ∧
      rpc.sendTransaction = .ok signature := by
  simp only [Signs, h]

variable {rpc web3 row} in
/-- An attempt has one signature. -/
theorem Signs.unique {signature signature' : String} (h : rpc.Signs web3 row signature)
    (h' : rpc.Signs web3 row signature') : signature = signature' := by
  cases hsignature : row.txSignature with
  | some recorded =>
      rw [signs_of_recorded _ _ _ hsignature] at h h'
      exact h.symm.trans h'
  | none =>
      rw [signs_of_unsent _ _ _ hsignature] at h h'
      exact Except.ok.inj (h.2.2.symm.trans h'.2.2)

/-- The answers carry an attempt at `row` to `CONFIRMED`: `confirmed` is what the
re-read of `confirm` finds, and `tx` what that of `getMemo` finds. -/
structure Confirms (signature : String) (confirmed : Option TransactionResponse)
    (tx : TransactionResponse) : Prop where
  adapter : rpc.getSolanaAdapter = .ok ()
  signs : rpc.Signs web3 row signature
  resolves : ∃ err, rpc.confirmTransaction = .ok err
  read : rpc.getTransaction 0 = .ok confirmed
  reread : rpc.getTransaction 1 = .ok (some tx)
  memo : decodeMemo web3 (some tx) = .ok (some row.expectedMemo)

/-- The signature that an attempt at `row` comes to have at hand, or the error it ends with. -/
def signature : Except Failure String :=
  match row.txSignature with
  | some recorded => .ok recorded
  | none => do
      let _ ← rpc.getRentExemptMinimum
      let _ ← assertValidRecipient web3 row.recipientWallet
      rpc.sendTransaction

/-- What confirming `signature` and verifying its memo come to. -/
def verdict (signature : String) : Except Failure Unit := do
  let _ ← rpc.confirmTransaction
  let _ ← rpc.getTransaction 0
  let tx ← rpc.getTransaction 1
  let memo ← decodeMemo web3 tx
  if memo ≠ some row.expectedMemo then throw (.memoMismatch row.id signature) else pure ()

/-- How an attempt at `row` ends when it meets these answers. -/
def outcome : Except Failure Unit := do
  rpc.getSolanaAdapter
  let signature ← rpc.signature web3 row
  rpc.verdict web3 row signature

variable {rpc web3 row} in
theorem Signs.signature_eq {signature : String} (h : rpc.Signs web3 row signature) :
    rpc.signature web3 row = .ok signature := by
  cases hsignature : row.txSignature with
  | some recorded =>
      obtain rfl := (signs_of_recorded _ _ _ hsignature).1 h
      simp only [Rpc.signature, hsignature]
  | none =>
      obtain ⟨⟨lamports, hlamports⟩, ⟨recipient, hrecipient⟩, hsent⟩ :=
        (signs_of_unsent _ _ _ hsignature).1 h
      simp only [Rpc.signature, hsignature, hlamports, hrecipient, hsent]
      rfl

variable {rpc web3 row} in
theorem outcome_of_adapter (h : rpc.getSolanaAdapter = .ok ()) {signature : String}
    (hsigns : rpc.Signs web3 row signature) :
    rpc.outcome web3 row = rpc.verdict web3 row signature := by
  rw [outcome, h, hsigns.signature_eq]
  rfl

variable {rpc web3 row} in
/-- The answers that confirm an attempt end it without an error. -/
theorem Confirms.outcome_eq {signature : String} {confirmed : Option TransactionResponse}
    {tx : TransactionResponse} (h : rpc.Confirms web3 row signature confirmed tx) :
    rpc.outcome web3 row = .ok () := by
  obtain ⟨err, hresolves⟩ := h.resolves
  rw [outcome_of_adapter h.adapter h.signs, verdict, hresolves, h.read, h.reread]
  change (decodeMemo web3 (some tx) >>= _) = _
  rw [h.memo]
  exact if_neg (not_not.2 rfl)

/-- The answer `r` is the one that the RPC of the held row gives. -/
def Gives (rpc : String → Rpc) (job : Job) : (c : DeliveryCall) → Except Failure c.Resp → Prop
  | .chain c, r => ∀ row reads, job = .held row reads → r = (rpc row.id).answer reads c
  | _, _ => True

end Rpc

/-- The answers to a worker whose attempt at each row meets the RPC given for
it. -/
def rpcAnswers (D : Answers deliverySig Failure Db) (rpc : String → Rpc) :
    Answers deliverySig Failure (Job × Db) :=
  fun s c s' r => D s.2 c s'.2 r ∧ Rpc.Gives rpc s.1 c r ∧ s'.1 = s.1.observe c r

/-- What the RPC gives to the holder of a row. -/
def Rpc.preferred (rpc : String → Rpc) : Job → (c : DeliveryCall) → Except Failure c.Resp
  | .held row reads, .chain c => (rpc row.id).answer reads c
  | _, _ => .error (.error "")

/-- Every call of a worker has an answer. -/
theorem rpcAnswers_total (rpc : String → Rpc) (s : Job × Db) (c : DeliveryCall) :
    ∃ s' r, rpcAnswers deliveryAnswers rpc s c s' r := by
  obtain ⟨job, db⟩ := s
  obtain ⟨db', r, hanswer, hr⟩ := deliveryAnswers_total (Rpc.preferred rpc job) db c
  refine ⟨(job.observe c r, db'), r, hanswer, ?_, rfl⟩
  cases c with
  | chain c =>
      rintro row reads rfl
      exact hr c rfl
  | _ => trivial

/-- The call starts a recording. -/
def DeliveryCall.Records : DeliveryCall → Prop
  | record _ => True
  | _ => False

/-- `db'` is `db` with the request `r` in the place of the one of its id. -/
structure Db.Replaces (db : Db) (r : ServiceRequest) (db' : Db) : Prop where
  row : db'.request? r.id = some r
  others : ∀ id, id ≠ r.id → db'.request? id = db.request? id

theorem Db.Replaces.refl {db : Db} {r : ServiceRequest} (h : db.request? r.id = some r) :
    db.Replaces r db :=
  ⟨h, fun _ _ => rfl⟩

theorem Db.Replaces.trans {db db₁ db₂ : Db} {r r' : ServiceRequest} (h : db.Replaces r db₁)
    (h' : db₁.Replaces r' db₂) (hid : r'.id = r.id) : db.Replaces r' db₂ :=
  ⟨h'.row, fun id hne => (h'.others id hne).trans (h.others id (hid ▸ hne))⟩

theorem Db.replaces_updateRequest {db : Db} {r : ServiceRequest} (hrow : db.request? r.id = some r)
    (u : ServiceRequestUpdate) : db.Replaces (u.apply r) (db.updateRequest r.id u) := by
  refine ⟨?_, fun id hne => ?_⟩
  · rw [Db.request?_updateRequest, apply_id, if_pos rfl, hrow, Option.map_some]
  · rw [Db.request?_updateRequest]
    exact if_neg hne

/-- The row after an attempt has confirmed it. -/
def ServiceRequest.confirmed (r : ServiceRequest) (signature : String)
    (confirmed : Option TransactionResponse) : ServiceRequest :=
  { r with
    status := .confirmed
    txSignature := some signature
    slot := some ((confirmed.map TransactionResponse.slot).getD 0)
    blockTime := (confirmed.bind TransactionResponse.blockTime).map (· * 1000) }

section Attempt

variable {D : Answers deliverySig Failure Db} {faults : Prop} {rpc : String → Rpc}
  {row : ClaimableRequest} {reads : ℕ} {db : Db} {Ok : Job × Db → DeliveryCall → Prop}

/-- The database answers as it should, or `faults` holds and a statement throws. -/
def MayFault (D : Answers deliverySig Failure Db) (faults : Prop) : Prop :=
  ∀ db c db' r, D db c db' r → deliveryAnswers db c db' r ∨ faults ∧ faultyAnswers db c db' r

theorem MayFault.faulty (hD : MayFault D faults) {db db' : Db} {c : DeliveryCall}
    {r : Except Failure c.Resp} (h : D db c db' r) : faultyAnswers db c db' r := by
  rcases hD db c db' r h with h | ⟨_, h⟩
  · exact Or.inl h
  · exact h

theorem mayFault_faulty : MayFault faultyAnswers True :=
  fun _ _ _ _ h => Or.inr ⟨trivial, h⟩

theorem mayFault_delivery : MayFault deliveryAnswers False :=
  fun _ _ _ _ h => Or.inl h

theorem wp_chain (hD : MayFault D faults) (hOk : ∀ s c, ¬ c.Records → Ok s c) {c : ChainCall}
    {Q : Except Failure c.Resp → Job × Db → Prop}
    (h : Q ((rpc row.id).answer reads c)
      ((Job.held row reads).observe (.chain c) ((rpc row.id).answer reads c), db)) :
    (Program.perform (S := deliverySig) (.chain c)).wp (rpcAnswers D rpc) Ok Q
      (.held row reads, db) := by
  refine (Program.wp_perform _ _ _).2 ⟨hOk _ _ id, ?_⟩
  rintro ⟨job', db'⟩ r ⟨hanswer, hgives, hjob⟩
  obtain rfl : r = (rpc row.id).answer reads c := hgives row reads rfl
  obtain rfl : job' = _ := hjob
  obtain rfl : db' = db := by
    rcases hD.faulty hanswer with h | ⟨h, _⟩
    · exact h
    · exact h.elim
  exact h

theorem wp_update (hD : MayFault D faults) (hOk : ∀ s c, ¬ c.Records → Ok s c)
    {r : ServiceRequest} {u : ServiceRequestUpdate}
    (hrow : db.request? r.id = some r) {Q : Except Failure ServiceRequest → Job × Db → Prop}
    (hok : ∀ db', db.Replaces (u.apply r) db' → Q (.ok (u.apply r)) (.held row reads, db'))
    (hthrow : faults → ∀ e, Q (.error e) (.held row reads, db)) :
    (update r.id u).wp (rpcAnswers D rpc) Ok Q (.held row reads, db) := by
  refine (Program.wp_perform _ _ _).2 ⟨hOk _ _ id, ?_⟩
  rintro ⟨job', db'⟩ res ⟨hanswer, -, hjob⟩
  obtain rfl : job' = .held row reads := hjob
  have hexec : DeliveryCall.Exec db (.serviceRequestUpdate r.id u) db' res →
      Q res (.held row reads, db') := by
    intro h
    simp only [DeliveryCall.Exec, hrow] at h
    obtain ⟨rfl, rfl⟩ := h
    exact hok _ (Db.replaces_updateRequest hrow u)
  rcases hD _ _ _ _ hanswer with h | ⟨hfaults, h | ⟨_, rfl, e, rfl⟩⟩
  · exact hexec h
  · exact hexec h
  · exact hthrow hfaults e

theorem wp_record (hD : MayFault D faults) {recording : Recording}
    (hOk : Ok (.held row reads, db) (.record recording))
    {Q : Except Failure Unit → Job × Db → Prop} (h : Q (.ok ()) (.held row reads, db)) :
    (record recording).wp (rpcAnswers D rpc) Ok Q (.held row reads, db) := by
  refine (Program.wp_perform _ _ _).2 ⟨hOk, ?_⟩
  rintro ⟨job', db'⟩ r ⟨hanswer, -, hjob⟩
  obtain rfl : job' = .held row reads := hjob
  rcases hD.faulty hanswer with ⟨rfl, rfl⟩ | ⟨h, _⟩
  · exact h
  · exact h.elim

/-- How an attempt at `r` may end before the failure handler: confirmed, or with
the error that the answers lead to, if it is no fault of the database, and the row
still `IN_PROGRESS`. -/
def Processed (faults : Prop) (rpc : Rpc) (web3 : Web3) (r : ServiceRequest) (db : Db) :
    Except Failure Unit → Job × Db → Prop
  | .ok _, s => ∃ signature confirmed tx, rpc.Confirms web3 r.select signature confirmed tx ∧
      db.Replaces (r.confirmed signature confirmed) s.2
  | .error e, s => (faults ∨ rpc.outcome web3 r.select = .error e) ∧
      ∃ r' : ServiceRequest, r'.id = r.id ∧ r'.status = .inProgress ∧ db.Replaces r' s.2

/-- The row with a signature on record. -/
def ServiceRequest.signed (r : ServiceRequest) (signature : String) : ServiceRequest :=
  { r with txSignature := some signature }

theorem ServiceRequest.signed_eq_self {r : ServiceRequest} {signature : String}
    (h : r.txSignature = some signature) : r.signed signature = r := by
  rw [signed, ← h]

variable {env : WorkerEnv} {web3 : Web3} {r : ServiceRequest}

theorem signatureOf_wp (hD : MayFault D faults) (hOk : ∀ s c, ¬ c.Records → Ok s c)
    (hrow : db.request? r.id = some r)
    {Q : Except Failure String → Job × Db → Prop}
    (hok : ∀ signature db', (rpc r.id).Signs web3 r.select signature →
      db.Replaces (r.signed signature) db' → Q (.ok signature) (.held r.select 0, db'))
    (hthrow : ∀ e, (faults ∨ (rpc r.id).signature web3 r.select = .error e) →
      Q (.error e) (.held r.select 0, db)) :
    (signatureOf (solanaAdapter web3) r.select).wp (rpcAnswers D rpc) Ok Q
      (.held r.select 0, db) := by
  have hselect : r.select.txSignature = r.txSignature := rfl
  rw [signatureOf]
  cases hsignature : r.txSignature with
  | some signature =>
      rw [hselect, hsignature]
      refine hok signature db ((Rpc.signs_of_recorded _ _ _ hsignature).2 rfl) ?_
      rw [ServiceRequest.signed_eq_self hsignature]
      exact Db.Replaces.refl hrow
  | none =>
      rw [hselect, hsignature]
      refine (Program.wp_bind _ _ _ _).2 (wp_chain hD hOk ?_)
      simp only [Rpc.answer]
      cases hlamports : (rpc r.select.id).getRentExemptMinimum with
      | error e =>
          refine hthrow e (Or.inr ?_)
          simp only [Rpc.signature, hselect, hsignature, show (rpc r.id).getRentExemptMinimum = _
            from hlamports]
          rfl
      | ok lamports =>
          refine (Program.wp_bind _ _ _ _).2 ?_
          simp only [solanaAdapter]
          cases hrecipient : assertValidRecipient web3 r.select.recipientWallet with
          | error e =>
              refine hthrow e (Or.inr ?_)
              simp only [Rpc.signature, hselect, hsignature, show (rpc r.id).getRentExemptMinimum = _
                from hlamports, hrecipient]
              rfl
          | ok recipient =>
              refine wp_chain hD hOk ?_
              simp only [Rpc.answer]
              cases hsent : (rpc r.select.id).sendTransaction with
              | error e =>
                  refine hthrow e (Or.inr ?_)
                  simp only [Rpc.signature, hselect, hsignature,
                    show (rpc r.id).getRentExemptMinimum = _ from hlamports, hrecipient,
                    show (rpc r.id).sendTransaction = _ from hsent]
                  rfl
              | ok signature =>
                  have hsigned := (Rpc.signs_of_unsent (rpc r.id) web3 r.select hsignature).2
                    ⟨⟨_, hlamports⟩, ⟨_, hrecipient⟩, hsent⟩
                  refine (Program.wp_bind _ _ _ _).2 (wp_update hD hOk hrow (fun db' h => ?_) ?_)
                  · exact hok signature db' hsigned h
                  · exact fun hfaults e => hthrow e (Or.inl hfaults)

theorem confirmAndVerify_wp (hD : MayFault D faults) (hOk : ∀ s c, ¬ c.Records → Ok s c)
    {signature : String}
    (hrow : db.request? r.id = some (r.signed signature))
    (hsigns : (rpc r.id).getSolanaAdapter = .ok () ∧
      (rpc r.id).Signs web3 r.select signature)
    (hrecord : ∀ confirmed tx, (rpc r.id).Confirms web3 r.select signature confirmed tx →
      ∀ s recording, Ok s (.record recording))
    {Q : Except Failure Unit → Job × Db → Prop}
    (hok : ∀ confirmed tx s, (rpc r.id).Confirms web3 r.select signature confirmed tx →
      db.Replaces (r.confirmed signature confirmed) s.2 → Q (.ok ()) s)
    (hthrow : ∀ e reads, (faults ∨ (rpc r.id).outcome web3 r.select = .error e) →
      Q (.error e) (.held r.select reads, db)) :
    (confirmAndVerify env (solanaAdapter web3) r.select signature).wp (rpcAnswers D rpc) Ok Q
      (.held r.select 0, db) := by
  have hfails : ∀ e reads, (rpc r.select.id).verdict web3 r.select signature = .error e →
      Q (.error e) (.held r.select reads, db) := fun e reads h =>
    hthrow e reads (Or.inr ((Rpc.outcome_of_adapter hsigns.1 hsigns.2).trans h))
  rw [confirmAndVerify]
  refine (Program.wp_bind _ _ _ _).2 ((Program.wp_bind _ _ _ _).2 (wp_chain hD hOk ?_))
  simp only [Rpc.answer]
  cases hconfirm : (rpc r.select.id).confirmTransaction with
  | error e =>
      refine hfails e 0 ?_
      rw [Rpc.verdict, hconfirm]
      rfl
  | ok err =>
      refine (Program.wp_bind _ _ _ _).2 (wp_chain hD hOk ?_)
      simp only [Rpc.answer]
      cases hread : (rpc r.select.id).getTransaction 0 with
      | error e =>
          refine hfails e 0 ?_
          rw [Rpc.verdict, hconfirm, hread]
          rfl
      | ok confirmed =>
          refine (Program.wp_bind _ _ _ _).2 ((Program.wp_bind _ _ _ _).2 (wp_chain hD hOk ?_))
          simp only [Rpc.answer]
          cases hreread : (rpc r.select.id).getTransaction 1 with
          | error e =>
              refine hfails e 1 ?_
              rw [Rpc.verdict, hconfirm, hread, hreread]
              rfl
          | ok found =>
              have hverdict : (rpc r.select.id).verdict web3 r.select signature =
                  (decodeMemo web3 found >>= fun memo =>
                    if memo ≠ some r.select.expectedMemo then
                      throw (.memoMismatch r.select.id signature)
                    else pure ()) := by
                rw [Rpc.verdict, hconfirm, hread, hreread]
                rfl
              cases hmemo : decodeMemo web3 found with
              | error e =>
                  simp only [hmemo]
                  refine hfails e 2 ?_
                  rw [hverdict, hmemo]
                  rfl
              | ok memo =>
                  rw [hmemo] at hverdict
                  simp only [hmemo, Program.wp_pure]
                  by_cases hne : memo ≠ some r.select.expectedMemo
                  · rw [if_pos hne]
                    exact hfails _ 2 (hverdict.trans (if_pos hne))
                  · rw [if_neg hne]
                    obtain rfl := not_not.1 hne
                    obtain ⟨tx, rfl⟩ : ∃ tx, found = some tx := by
                      cases found with
                      | none => cases hmemo
                      | some tx => exact ⟨tx, rfl⟩
                    have hconfirms : (rpc r.id).Confirms web3 r.select signature confirmed tx :=
                      ⟨hsigns.1, hsigns.2, ⟨err, hconfirm⟩, hread, hreread, hmemo⟩
                    refine (Program.wp_bind _ _ _ _).2 (wp_update (r := r.signed signature) hD hOk hrow
                      (fun db' h => ?_) ?_)
                    · have hrecord := hrecord confirmed tx hconfirms
                      refine (Program.wp_bind _ _ _ _).2 (wp_record hD (hrecord _ _) ?_)
                      exact wp_record hD (hrecord _ _) (hok confirmed tx _ hconfirms h)
                    · exact fun hfaults e => hthrow e 2 (Or.inl hfaults)

/-- An attempt ends in the one way that the RPC leads it to, or with a fault of
the database. It starts recordings only if the RPC leads it to `CONFIRMED`. -/
theorem processServiceRequest_wp (hD : MayFault D faults) (hrow : db.request? r.id = some r)
    (hstatus : r.status = .inProgress) :
    (processServiceRequest env web3 r.select).wp (rpcAnswers D rpc)
      (fun _ c => c.Records → ∃ signature confirmed tx,
        (rpc r.id).Confirms web3 r.select signature confirmed tx)
      (Processed faults (rpc r.id) web3 r db) (.held r.select 0, db) := by
  have hOk : ∀ (s : Job × Db) (c : DeliveryCall), ¬ c.Records → c.Records →
      ∃ signature confirmed tx, (rpc r.id).Confirms web3 r.select signature confirmed tx :=
    fun _ _ h h' => absurd h' h
  rw [processServiceRequest_eq]
  refine (Program.wp_bind _ _ _ _).2 (wp_chain hD hOk ?_)
  simp only [Rpc.answer]
  cases hadapter : (rpc r.select.id).getSolanaAdapter with
  | error e =>
      refine ⟨Or.inr ?_, r, rfl, hstatus, .refl hrow⟩
      rw [Rpc.outcome, show (rpc r.id).getSolanaAdapter = _ from hadapter]
      rfl
  | ok _ =>
      refine (Program.wp_bind _ _ _ _).2 (signatureOf_wp hD hOk hrow
        (fun signature db' hsigns h => ?_) fun e h => ?_)
      · refine confirmAndVerify_wp (r := r) hD hOk h.row ⟨hadapter, hsigns⟩
          (fun confirmed tx hc _ _ _ => ⟨signature, confirmed, tx, hc⟩)
          (fun confirmed tx s hc h' => ?_) fun e reads h' => ?_
        · exact ⟨signature, confirmed, tx, hc, h.trans h' rfl⟩
        · exact ⟨h', r.signed signature, rfl, hstatus, h⟩
      · refine ⟨h.imp_right fun hsignature => ?_, r, rfl, hstatus, .refl hrow⟩
        rw [Rpc.outcome, show (rpc r.id).getSolanaAdapter = _ from hadapter, hsignature]
        rfl

end Attempt

/-- A chain on which the signature `sig-1` names `tx`. -/
def finalizes (tx : TransactionResponse) : Fate := fun signature =>
  if signature = "sig-1" then some tx else none

/-- The RPC of that chain, which sends as `sig-1` and finds its transaction at
once. -/
def promptRpc (tx : TransactionResponse) : Rpc where
  getSolanaAdapter := .ok ()
  getRentExemptMinimum := .ok 890880
  sendTransaction := .ok "sig-1"
  confirmTransaction := .ok tx.err
  getTransaction _ := .ok (some tx)

end EpsDapp
