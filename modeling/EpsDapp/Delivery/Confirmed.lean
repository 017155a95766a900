import EpsDapp.Delivery.Rpc

/-!
# What a confirmed delivery says about the chain

`confirm` does not look at the error that a confirmation resolves with, and
replaces what its re-read does not find by slot 0 and no block time. The memo
alone is verified. So a `CONFIRMED` row is sound for an RPC exactly when the
confirmation that leads to it carries no error and its first re-read finds the
transaction, or loses nothing by not finding it.
-/

set_option autoImplicit false

namespace EpsDapp

open Effect

/-- The row is right about the chain: its signature names a transaction that is
finalized without an error and carries the memo of the row, and the slot and the
block time are those of this transaction. -/
def ServiceRequest.ConfirmedOn (r : ServiceRequest) (fate : Fate) (web3 : Web3) : Prop :=
  ∃ signature tx, r.txSignature = some signature ∧ fate signature = some tx ∧
    tx.err = none ∧ tx.CarriesMemo web3 r.select.expectedMemo ∧
    r.slot = some tx.slot ∧ r.blockTime = tx.blockTime.map (· * 1000)

/-- The RPC is honest about `signature`. -/
def Rpc.HonestAbout (rpc : Rpc) (fate : Fate) (signature : String) : Prop :=
  Honest fate (.chain (.confirmTransaction signature)) rpc.confirmTransaction ∧
    ∀ n, Honest fate (.chain (.getTransaction signature)) (rpc.getTransaction n)

/-- Every `CONFIRMED` row that an attempt at `r` leaves is right about the
chain. -/
def ConfirmsSoundly (fate : Fate) (env : WorkerEnv) (web3 : Web3) (rpc : Rpc) (db : Db)
    (r : ServiceRequest) : Prop :=
  ∀ s result, (processServiceRequest env web3 r.select).Runs
      (rpcAnswers faultyAnswers fun _ => rpc) (.held r.select 0, db) s result →
    ∀ r', s.2.request? r.id = some r' → r'.status = .confirmed → r'.ConfirmedOn fate web3

section Soundness

variable {fate : Fate} {env : WorkerEnv} {web3 : Web3} {rpc : Rpc} {db : Db}
  {r : ServiceRequest}

/-- Answers that confirm a row do confirm it, unless the database throws. -/
theorem exists_runs_confirmed (env : WorkerEnv) (hrow : db.request? r.id = some r)
    (hstatus : r.status = .inProgress) {signature : String}
    {confirmed : Option TransactionResponse} {tx : TransactionResponse}
    (h : rpc.Confirms web3 r.select signature confirmed tx) :
    ∃ s, (processServiceRequest env web3 r.select).Runs
        (rpcAnswers faultyAnswers fun _ => rpc) (.held r.select 0, db) s (.ok ()) ∧
      s.2.request? r.id = some (r.confirmed signature confirmed) := by
  obtain ⟨s, result, hrun⟩ := Program.exists_runs (rpcAnswers_total fun _ => rpc)
    (processServiceRequest env web3 r.select) (.held r.select 0, db)
  have hends := Program.wp_runs _ (processServiceRequest_wp mayFault_delivery hrow hstatus) hrun
  cases result with
  | error e =>
      have houtcome : rpc.outcome web3 r.select = .error e := hends.1.resolve_left id
      rw [h.outcome_eq] at houtcome
      cases houtcome
  | ok _ =>
      obtain ⟨signature', confirmed', tx', h', hreplaces⟩ := hends
      obtain rfl : confirmed' = confirmed := Except.ok.inj (h'.read.symm.trans h.read)
      obtain rfl : signature' = signature := h'.signs.unique h.signs
      exact ⟨s, hrun.mono fun _ _ _ _ h => ⟨Or.inl h.1, h.2⟩, hreplaces.row⟩

/-- A confirmed row is right about the chain for the answers that confirmed it if
these carry no error, and the first re-read loses nothing. -/
theorem confirmedOn_iff {signature : String} {confirmed : Option TransactionResponse}
    {tx : TransactionResponse} (h : rpc.Confirms web3 r.select signature confirmed tx)
    (hhonest : rpc.HonestAbout fate signature) :
    (r.confirmed signature confirmed).ConfirmedOn fate web3 ↔
      rpc.confirmTransaction = .ok none ∧
        (confirmed = none → tx.slot = 0 ∧ tx.blockTime = none) := by
  have hfate : fate signature = some tx := by
    have hread := hhonest.2 1
    rw [h.reread] at hread
    exact hread
  obtain ⟨err, herr⟩ := h.resolves
  have hfailed : tx.err = err := by
    obtain hconfirm := hhonest.1
    rw [herr] at hconfirm
    obtain ⟨tx', hfate', rfl⟩ := hconfirm
    rw [Option.some.inj (hfate.symm.trans hfate')]
  have hmemo : tx.CarriesMemo web3 r.select.expectedMemo := (decodeMemo_eq_some_iff _ _ _).1 h.memo
  have hfirst : ∀ tx', confirmed = some tx' → tx' = tx := by
    rintro tx' rfl
    have hread := hhonest.2 0
    rw [h.read] at hread
    exact Option.some.inj (hread.symm.trans hfate)
  rw [herr, ← hfailed, Except.ok.injEq]
  constructor
  · rintro ⟨_, tx', ⟨⟩, hfate', hsuccess, -, hslot, htime⟩
    obtain rfl := Option.some.inj (hfate.symm.trans hfate')
    refine ⟨hsuccess, ?_⟩
    rintro rfl
    exact ⟨(Option.some.inj hslot).symm, Option.map_eq_none_iff.1 htime.symm⟩
  · rintro ⟨hsuccess, hlost⟩
    refine ⟨signature, tx, rfl, hfate, hsuccess, hmemo, ?_⟩
    cases confirmed with
    | none =>
        obtain ⟨hslot, htime⟩ := hlost rfl
        simp [ServiceRequest.confirmed, hslot, htime]
    | some tx' =>
        obtain rfl := hfirst tx' rfl
        exact ⟨rfl, rfl⟩

/-- The rows an attempt confirms are right about the chain exactly when the
answers that confirm one carry no error, and their first re-read finds the
transaction or has nothing to lose. -/
theorem confirmed_sound_iff (env : WorkerEnv) (hrow : db.request? r.id = some r)
    (hstatus : r.status = .inProgress)
    (hhonest : ∀ signature, rpc.Signs web3 r.select signature → rpc.HonestAbout fate signature) :
    ConfirmsSoundly fate env web3 rpc db r ↔
      ∀ signature confirmed tx, rpc.Confirms web3 r.select signature confirmed tx →
        rpc.confirmTransaction = .ok none ∧
          (confirmed = none → tx.slot = 0 ∧ tx.blockTime = none) := by
  constructor
  · intro hsound signature confirmed tx h
    obtain ⟨s, hrun, hrow'⟩ := exists_runs_confirmed env hrow hstatus h
    exact (confirmedOn_iff h (hhonest _ h.signs)).1 (hsound s _ hrun _ hrow' rfl)
  · intro hcond s result hrun r' hrow' hconfirmed
    have hends := Program.wp_runs _ (processServiceRequest_wp mayFault_faulty hrow hstatus) hrun
    cases result with
    | error e =>
        obtain ⟨-, r'', hid, hstatus', hreplaces⟩ := hends
        rw [← hid, hreplaces.row] at hrow'
        obtain rfl := Option.some.inj hrow'
        rw [hstatus'] at hconfirmed
        cases hconfirmed
    | ok _ =>
        obtain ⟨signature, confirmed, tx, h, hreplaces⟩ := hends
        obtain rfl := Option.some.inj (hreplaces.row.symm.trans hrow')
        exact (confirmedOn_iff h (hhonest _ h.signs)).2 (hcond _ _ _ h)

end Soundness

section Example

/-! ### The request of `oneInProgress`, sent for -/

/-- The transaction of the request, landed at slot 7. -/
def sentTransaction (err : Option String) : TransactionResponse :=
  asciiTransaction 7 (some 1770000000) err claimedRequest.select.expectedMemo

theorem promptRpc_signs_iff (tx : TransactionResponse) (signature : String) :
    (promptRpc tx).Signs asciiWeb3 claimedRequest.select signature ↔ signature = "sig-1" := by
  rw [Rpc.signs_of_unsent _ _ _ rfl]
  constructor
  · rintro ⟨-, -, h⟩
    exact (Except.ok.inj h).symm
  · rintro rfl
    exact ⟨⟨_, rfl⟩, ⟨List.replicate 32 0, by decide⟩, rfl⟩

theorem promptRpc_confirms (err : Option String) :
    (promptRpc (sentTransaction err)).Confirms asciiWeb3 claimedRequest.select "sig-1"
      (some (sentTransaction err)) (sentTransaction err) := by
  -- The error of a transaction is no part of what its memo is decoded from.
  have hmemo : decodeMemo asciiWeb3 (some (sentTransaction none)) =
      .ok (some claimedRequest.select.expectedMemo) := by
    decide
  exact ⟨rfl, (promptRpc_signs_iff _ _).2 rfl, ⟨_, rfl⟩, rfl, rfl, hmemo⟩

theorem promptRpc_honest (tx : TransactionResponse) :
    (promptRpc tx).HonestAbout (finalizes tx) "sig-1" :=
  ⟨⟨tx, rfl, rfl⟩, fun _ => rfl⟩

/-- A transaction that lands and fails confirms its request all the same. -/
theorem not_confirmed_sound_of_err :
    ¬ ConfirmsSoundly (finalizes (sentTransaction (some "InstructionError"))) ⟨none, none⟩
      asciiWeb3 (promptRpc (sentTransaction (some "InstructionError"))) oneInProgress
      claimedRequest := by
  intro hsound
  have h := promptRpc_confirms (some "InstructionError")
  have hclaimed : oneInProgress.request? claimedRequest.id = some claimedRequest := rfl
  obtain ⟨s, hrun, hrow⟩ := exists_runs_confirmed ⟨none, none⟩ hclaimed rfl h
  have hconfirmed := (confirmedOn_iff h (promptRpc_honest _)).1 (hsound s _ hrun _ hrow rfl)
  cases hconfirmed.1

/-- A transaction that lands and succeeds, and is found by both re-reads, is
confirmed soundly. -/
theorem confirmed_sound_of_prompt :
    ConfirmsSoundly (finalizes (sentTransaction none)) ⟨none, none⟩ asciiWeb3
      (promptRpc (sentTransaction none)) oneInProgress claimedRequest := by
  have hclaimed : oneInProgress.request? claimedRequest.id = some claimedRequest := rfl
  refine (confirmed_sound_iff ⟨none, none⟩ hclaimed rfl ?_).2 ?_
  · intro signature h
    obtain rfl := (promptRpc_signs_iff _ _).1 h
    exact promptRpc_honest _
  · rintro signature confirmed tx h
    refine ⟨rfl, ?_⟩
    rintro rfl
    cases h.read

end Example

end EpsDapp
