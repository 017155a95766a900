import EpsDapp.Delivery.Worker
import EpsDapp.Effect.Pool

/-!
# Jobs

A worker's job is read off the answers it gets: it has found a candidate, or it
holds the row its `updateMany` won. The lemmas here say what a worker may call in
which job: it claims only the candidate it has found, and from then on it touches
no other row.
-/

set_option autoImplicit false

namespace EpsDapp

open Effect DeliveryProgram

/-- What a worker is doing. A held row comes with the number of times its
transaction has been read from the chain. -/
inductive Job
  | idle
  | found (row : ClaimableRequest)
  | held (row : ClaimableRequest) (reads : ℕ)

namespace Job

/-- The job after a call is answered. -/
def observe : Job → (c : DeliveryCall) → Except Failure c.Resp → Job
  | _, .serviceRequestFindClaimable, .ok (some row) => .found row
  | .found row, .serviceRequestClaim _, .ok (_ + 1) =>
      .held { row with status := .inProgress } 0
  | .held row reads, .chain (.getTransaction _), .ok _ => .held row (reads + 1)
  | job, _, _ => job

/-- The worker holds the request `id`. -/
def Holds (job : Job) (id : String) : Prop :=
  ∃ row reads, job = .held row reads ∧ row.id = id

@[simp] theorem not_holds_idle (id : String) : ¬ idle.Holds id := by
  simp [Holds]

@[simp] theorem not_holds_found (row : ClaimableRequest) (id : String) :
    ¬ (found row).Holds id := by
  simp [Holds]

@[simp] theorem holds_held_iff (row : ClaimableRequest) (reads : ℕ) (id : String) :
    (held row reads).Holds id ↔ row.id = id := by
  simp [Holds]

end Job

namespace DeliveryCall

/-- The call broadcasts a transaction. -/
def Broadcasts : DeliveryCall → Prop
  | chain (.sendTransaction _ _ _) => True
  | _ => False

/-- The calls of an attempt at the request `id`: they write to no other row, and
an `update` leaves the status or confirms. -/
def OnRow (id : String) : DeliveryCall → Prop
  | serviceRequestUpdate i data =>
      i = id ∧ (data.status = none ∨ data.status = some .confirmed)
  | failServiceRequest input => input.serviceRequestId = id
  | chain _ | record _ => True
  | _ => False

/-- The calls of an attempt that broadcast nothing. -/
def Quiet (id : String) (c : DeliveryCall) : Prop := c.OnRow id ∧ ¬ c.Broadcasts

/-- The calls of an attempt at `row`, with what they carry. -/
def OfAttempt (env : WorkerEnv) (row : ClaimableRequest) : DeliveryCall → Prop
  | chain (.sendTransaction _ _ memo) => memo = row.expectedMemo
  | chain _ => True
  | serviceRequestUpdate id data =>
      id = row.id ∧ (data.status = none ∨ data.status = some .confirmed)
  | failServiceRequest input => input.serviceRequestId = row.id
  | record recording => recording = .recordOnHedera (row.hederaPayload env) ∨
      recording = .mintAndTransferProofNFT row.id env.hederaHcsTopicId
  | _ => False

theorem OfAttempt.onRow {env : WorkerEnv} {row : ClaimableRequest} {c : DeliveryCall}
    (h : c.OfAttempt env row) : c.OnRow row.id := by
  cases c with
  | serviceRequestUpdate id data => exact h
  | failServiceRequest input => exact h
  | chain c => trivial
  | record recording => trivial
  | _ => exact h.elim

theorem OnRow.write {id : String} {c : DeliveryCall} (h : c.OnRow id)
    {r : Except Failure c.Resp} {i : String} {u : ServiceRequestUpdate}
    (hwrite : c.write r = some (i, u)) : i = id := by
  cases c with
  | serviceRequestUpdate j data =>
      cases r with
      | error e => cases hwrite
      | ok row =>
          cases hwrite
          exact h.1
  | failServiceRequest input =>
      cases r with
      | error e => cases hwrite
      | ok restored =>
          cases hwrite
          exact h
  | chain c => cases hwrite
  | record _ => cases hwrite
  | _ => exact h.elim

end DeliveryCall

/-- The adapter that `processServiceRequest` builds is the Solana one. -/
theorem processServiceRequest_eq (env : WorkerEnv) (web3 : Web3) (row : ClaimableRequest) :
    processServiceRequest env web3 row =
      ((Program.perform (S := deliverySig) (.chain .getSolanaAdapter)) >>= fun _ =>
        signatureOf (solanaAdapter web3) row >>= fun signature =>
          confirmAndVerify env (solanaAdapter web3) row signature) := by
  rw [processServiceRequest, getSolanaAdapter, Program.bind_eq, Program.bind_eq,
    Program.bind_assoc]
  rfl

section Calls

variable (env : WorkerEnv) (web3 : Web3) (row : ClaimableRequest)

theorem confirmAndVerify_calls (signature : String) :
    (confirmAndVerify env (solanaAdapter web3) row signature).Only
      fun c : DeliveryCall => c.OfAttempt env row ∧ ¬ c.Broadcasts := by
  have hread : ∀ signature, (getTransaction signature).Only
      fun c : DeliveryCall => c.OfAttempt env row ∧ ¬ c.Broadcasts :=
    fun _ => (Program.only_perform _).2 ⟨trivial, id⟩
  refine Program.only_bind ?_ fun confirmation => Program.only_bind ?_ fun memo => ?_
  · refine Program.only_bind ((Program.only_perform _).2 ⟨trivial, id⟩) fun _ => ?_
    exact Program.only_bind (hread signature) fun _ => Program.only_pure _
  · refine Program.only_bind (hread signature) fun tx => ?_
    split
    · exact Program.only_pure _
    · exact Program.only_throw _
  · split
    · exact Program.only_throw _
    · refine Program.only_bind ((Program.only_perform _).2 ⟨⟨rfl, Or.inr rfl⟩, id⟩) fun _ => ?_
      refine Program.only_bind ((Program.only_perform _).2 ⟨Or.inl rfl, id⟩) fun _ => ?_
      exact (Program.only_perform _).2 ⟨Or.inr rfl, id⟩

theorem signatureOf_calls :
    (signatureOf (solanaAdapter web3) row).Only (DeliveryCall.OfAttempt env row) := by
  rw [signatureOf]
  split
  · exact Program.only_pure _
  · refine Program.only_bind ((Program.only_perform _).2 trivial) fun lamports => ?_
    refine Program.only_bind ?_ fun signature => ?_
    · simp only [solanaAdapter]
      split
      · exact (Program.only_perform _).2 rfl
      · exact Program.only_throw _
    · exact Program.only_bind ((Program.only_perform _).2 ⟨rfl, Or.inl rfl⟩)
        fun _ => Program.only_pure _

theorem processServiceRequest_calls :
    (processServiceRequest env web3 row).Only (DeliveryCall.OfAttempt env row) := by
  rw [processServiceRequest_eq]
  refine Program.only_bind ((Program.only_perform _).2 trivial) fun _ => ?_
  refine Program.only_bind (signatureOf_calls env web3 row) fun signature => ?_
  exact (confirmAndVerify_calls env web3 row signature).mono fun _ h => h.1

theorem attempt_calls : (attempt env web3 row).Only (DeliveryCall.OfAttempt env row) := by
  refine Program.only_tryCatch (processServiceRequest_calls env web3 row) fun e => ?_
  exact Program.only_bind ((Program.only_perform _).2 rfl) fun _ => Program.only_pure _

theorem confirmAndVerify_only (signature : String) :
    (confirmAndVerify env (solanaAdapter web3) row signature).Only
      (DeliveryCall.Quiet row.id) :=
  (confirmAndVerify_calls env web3 row signature).mono fun _ h => ⟨h.1.onRow, h.2⟩

theorem failRow_only (reason : String) :
    (failRow row reason).Only (DeliveryCall.Quiet row.id) :=
  Program.only_bind ((Program.only_perform _).2 ⟨rfl, id⟩) fun _ => Program.only_pure _

/-- An attempt at a row writes to that row only. -/
theorem attempt_only : (attempt env web3 row).Only (DeliveryCall.OnRow row.id) :=
  (attempt_calls env web3 row).mono fun _ h => h.onRow

end Calls

/-! ## The claim loop -/

/-- What is to be shown of a turn of the worker: it looks for a candidate, tries
to claim it, and attempts the row it has won. -/
theorem wp_runOnce {W : Type} {E : Answers deliverySig Failure W}
    {Ok : W → DeliveryCall → Prop} {Q : Except Failure Bool → W → Prop} {w : W}
    (env : WorkerEnv) (web3 : Web3) (hfind : Ok w .serviceRequestFindClaimable)
    (hthrow : ∀ w' e, E w .serviceRequestFindClaimable w' (.error e) → Q (.error e) w')
    (hempty : ∀ w', E w .serviceRequestFindClaimable w' (.ok none) → Q (.ok false) w')
    (hfound : ∀ w' row, E w .serviceRequestFindClaimable w' (.ok (some row)) →
      Ok w' (.serviceRequestClaim row.id) ∧
        (∀ w'' e, E w' (.serviceRequestClaim row.id) w'' (.error e) → Q (.error e) w'') ∧
        (∀ w'', E w' (.serviceRequestClaim row.id) w'' (.ok 0) → Q (.ok false) w'') ∧
        ∀ w'' n, E w' (.serviceRequestClaim row.id) w'' (.ok (n + 1)) →
          (attempt env web3 { row with status := .inProgress }).wp E Ok
            (fun r w => Q (r.map fun _ => true) w) w'') :
    (runOnce env web3).wp E Ok Q w := by
  rw [runOnce, Program.wp_bind, claimNext, Program.wp_bind]
  refine (Program.wp_perform _ _ _).2 ⟨hfind, fun w' r hr => ?_⟩
  cases r with
  | error e => exact hthrow w' e hr
  | ok candidate =>
      cases candidate with
      | none => exact hempty w' hr
      | some row =>
          obtain ⟨hOk, herror, hlost, hwon⟩ := hfound w' row hr
          refine (Program.wp_bind _ _ _ _).2 ((Program.wp_perform _ _ _).2 ⟨hOk, ?_⟩)
          intro w'' r hr
          cases r with
          | error e => exact herror w'' e hr
          | ok n =>
              cases n with
              | zero => exact hlost w'' hr
              | succ n =>
                  refine (Program.wp_bind _ _ _ _).2 ?_
                  refine Program.wp_mono _ (fun _ _ _ _ h => h) (fun _ _ h => h) ?_
                    (hwon w'' n hr)
                  intro r w h
                  cases r with
                  | error e => exact h
                  | ok _ => exact h

namespace Job

/-- What a worker may call in which job. -/
def Allows : Job → DeliveryCall → Prop
  | idle, .serviceRequestFindClaimable => True
  | found row, .serviceRequestClaim id => id = row.id
  | held row _, c => c.OnRow row.id
  | _, _ => False

/-- The job follows the answers. -/
def Follows (job : Job) (c : DeliveryCall) (job' : Job) (r : Except Failure c.Resp) : Prop :=
  job' = job.observe c r

end Job

/-- The answer of a claim that has won the row `id`. -/
def DeliveryCall.Wins : (c : DeliveryCall) → Except Failure c.Resp → String → Prop
  | serviceRequestClaim i, .ok (_ + 1), id => i = id
  | _, _, _ => False

theorem Job.observe_held {row : ClaimableRequest} {reads : ℕ} {c : DeliveryCall}
    (hc : c.OnRow row.id) (r : Except Failure c.Resp) :
    ∃ reads', (Job.held row reads).observe c r = .held row reads' := by
  cases c with
  | serviceRequestFindClaimable => exact hc.elim
  | chain c =>
      cases c with
      | getTransaction signature =>
          cases r with
          | error e => exact ⟨_, rfl⟩
          | ok tx => exact ⟨_, rfl⟩
      | _ => exact ⟨_, rfl⟩
  | _ => exact ⟨_, rfl⟩

/-- A worker comes to hold a row only by winning the claim of it. -/
theorem Job.holds_observe_iff {job : Job} {c : DeliveryCall} (hc : job.Allows c)
    (r : Except Failure c.Resp) (id : String) :
    (job.observe c r).Holds id ↔ job.Holds id ∨ c.Wins r id := by
  cases job with
  | idle =>
      cases c with
      | serviceRequestFindClaimable =>
          rcases r with e | _ | row
          · simp [Job.observe, DeliveryCall.Wins]
          · simp [Job.observe, DeliveryCall.Wins]
          · simp [Job.observe, DeliveryCall.Wins]
      | _ => exact hc.elim
  | found row =>
      cases c with
      | serviceRequestClaim i =>
          obtain rfl : i = row.id := hc
          rcases r with e | _ | n
          · simp [Job.observe, DeliveryCall.Wins]
          · simp [Job.observe, DeliveryCall.Wins]
          · simp [Job.observe, DeliveryCall.Wins]
      | _ => exact hc.elim
  | held row reads =>
      obtain ⟨reads', h⟩ := Job.observe_held hc r
      rw [h]
      simp only [Job.holds_held_iff]
      refine (or_iff_left ?_).symm
      cases c with
      | serviceRequestClaim i => exact hc.elim
      | _ => exact fun h => h

/-- A turn of the worker obeys the protocol, and whatever else holds of the calls
of an attempt at the row it holds. -/
theorem runOnce_conforms_and (env : WorkerEnv) (web3 : Web3)
    {A : ClaimableRequest → DeliveryCall → Prop}
    (hA : ∀ row, (attempt env web3 row).Only (A row)) :
    Machine.Conforms Job.Follows
      (fun job c => job.Allows c ∧ ∀ row reads, job = .held row reads → A row c)
      (runOnce env web3) .idle := by
  refine wp_runOnce env web3 ⟨trivial, fun _ _ h => by cases h⟩ (fun _ _ _ => trivial) (fun _ _ => trivial) ?_
  rintro _ row rfl
  refine ⟨⟨rfl, fun _ _ h => by cases h⟩, fun _ _ _ => trivial, fun _ _ => trivial, ?_⟩
  rintro _ n rfl
  refine Program.wp_mono _ (fun _ _ _ _ h => h) (fun _ _ h => h) (fun _ _ _ => trivial)
    (((attempt_only env web3 { row with status := .inProgress }).and (hA _)).wp
      (J := fun job => ∃ reads, job = .held { row with status := .inProgress } reads) ?_ ?_
      ⟨0, rfl⟩)
  · rintro _ c job' r hc ⟨reads, rfl⟩ rfl
    exact Job.observe_held hc.1 r
  · rintro _ c hc ⟨reads, rfl⟩
    refine ⟨hc.1, ?_⟩
    rintro row' reads' ⟨⟩
    exact hc.2

/-- A turn of the worker obeys the protocol. -/
theorem runOnce_conforms (env : WorkerEnv) (web3 : Web3) :
    Machine.Conforms Job.Follows Job.Allows (runOnce env web3) .idle :=
  Program.wp_mono _ (fun _ _ _ _ h => h) (fun _ _ h => h.1) (fun _ _ h => h)
    (runOnce_conforms_and env web3 (A := fun _ _ => True) fun _ =>
      (attempt_only env web3 _).mono fun _ _ => trivial)

/-- No call of a worker writes the status `STAGED`. -/
theorem Job.Allows.write_status {job : Job} {c : DeliveryCall} (hc : job.Allows c)
    {r : Except Failure c.Resp} {id : String} {u : ServiceRequestUpdate}
    (hwrite : c.write r = some (id, u)) : u.status ≠ some .staged := by
  have hrow : ∀ {i}, c.OnRow i → u.status ≠ some .staged := by
    intro i hi
    cases c with
    | serviceRequestUpdate j data =>
        rcases r with e | row
        · cases hwrite
        · cases hwrite
          rcases hi.2 with h | h <;> simp [h]
    | failServiceRequest input =>
        rcases r with e | restored
        · cases hwrite
        · cases hwrite
          simp [FailServiceRequestInput.update]
    | chain c => cases hwrite
    | record _ => cases hwrite
    | _ => exact hi.elim
  cases job with
  | idle =>
      cases c with
      | serviceRequestFindClaimable => cases hwrite
      | _ => exact hc.elim
  | found row =>
      cases c with
      | serviceRequestClaim i =>
          rcases r with e | _ | n
          · cases hwrite
          · cases hwrite
          · cases hwrite
            simp
      | _ => exact hc.elim
  | held row reads => exact hrow hc

/-- A worker writes to the row it holds, or claims. -/
theorem Job.Allows.write_cases {job : Job} {c : DeliveryCall} (hc : job.Allows c)
    {r : Except Failure c.Resp} {id : String} {u : ServiceRequestUpdate}
    (hwrite : c.write r = some (id, u)) :
    job.Holds id ∨ (c = .serviceRequestClaim id ∧ u = { status := some .inProgress }) := by
  cases job with
  | idle =>
      cases c with
      | serviceRequestFindClaimable => cases hwrite
      | _ => exact hc.elim
  | found row =>
      cases c with
      | serviceRequestClaim i =>
          rcases r with e | _ | n
          · cases hwrite
          · cases hwrite
          · cases hwrite
            exact Or.inr ⟨rfl, rfl⟩
      | _ => exact hc.elim
  | held row reads =>
      have hc : c.OnRow row.id := hc
      exact Or.inl ((Job.holds_held_iff row reads id).2 (hc.write hwrite).symm)

theorem DeliveryCall.Wins.write {c : DeliveryCall} {r : Except Failure c.Resp} {id : String}
    (h : c.Wins r id) :
    c = .serviceRequestClaim id ∧ c.write r = some (id, { status := some .inProgress }) := by
  cases c with
  | serviceRequestClaim i =>
      rcases r with e | _ | n
      · exact h.elim
      · exact h.elim
      · obtain rfl : i = id := h
        exact ⟨rfl, rfl⟩
  | _ => exact h.elim

/-- The row a claim wins exists and was claimable. -/
theorem claimable_of_wins {db db' : Db} {o : DeliveryCall} {r : Except Failure o.Resp}
    {id : String} (hwins : o.Wins r id) (h : faultyAnswers db o db' r) :
    ∃ row, db.request? id = some row ∧ row.status.Claimable ∧
      db'.request? id =
        some (({ status := some .inProgress } : ServiceRequestUpdate).apply row) := by
  obtain ⟨hclaim, hwrite⟩ := hwins.write
  have hreq := request?_of_faultyAnswers h id
  rcases rows_of_faultyAnswers h with ⟨i, u, row, hw, hrow, hclaimable, _⟩ | ⟨hw, _⟩
  · rw [hwrite] at hw
    cases hw
    refine ⟨row, hrow, hclaimable id hclaim, ?_⟩
    rw [hreq, hwrite]
    simp [hrow]
  · rw [hwrite] at hw
    cases hw

/-- A worker that wins a claim holds nothing yet. -/
theorem Job.not_holds_of_wins {job : Job} {c : DeliveryCall} (hc : job.Allows c)
    {r : Except Failure c.Resp} {id : String} (h : c.Wins r id) (id' : String) :
    ¬ job.Holds id' := by
  obtain ⟨rfl, _⟩ := h.write
  cases job with
  | idle => exact not_holds_idle id'
  | found row => exact not_holds_found row id'
  | held row reads => exact hc.elim

/-- The only request of `oneStaged`. -/
def stagedRequest : ServiceRequest := exampleFiling.row "sr-1" (some "org-1") 0

/-- The subscription of `oneStaged`, whose unit the request has consumed. -/
def chargedSubscription : Subscription :=
  ⟨"sub-1", "org-1", "tier1", .active, 0, 2678400000, 1⟩

/-- One request of one organization, staged and not sent. -/
def oneStaged : Db where
  organizations := Table.empty.insert ⟨"org-1", "clerk-1", "A", none, 0⟩ rfl
  subscriptions := Table.empty.insert chargedSubscription rfl
  serviceRequests := Table.empty.insert stagedRequest rfl

/-- The only row of a table is its oldest, if it is claimable. -/
theorem Db.oldest_of_singleton {db : Db} {r : ServiceRequest}
    (hrows : db.serviceRequests.rows = [r]) (hr : r.status.Claimable) : db.Oldest (some r) := by
  refine ⟨by simp [Table.mem_def, hrows], hr, fun r' hr' _ => ?_⟩
  obtain rfl : r' = r := by simpa [Table.mem_def, hrows] using hr'
  exact lt_irrefl _

theorem oneStaged_oldest : oneStaged.Oldest (some stagedRequest) :=
  Db.oldest_of_singleton rfl trivial

/-- The request of `oneStaged` once it is claimed. -/
def claimedRequest : ServiceRequest :=
  ({ status := some .inProgress } : ServiceRequestUpdate).apply stagedRequest

/-- `oneStaged` once its request is claimed. -/
def oneInProgress : Db := oneStaged.updateRequest "sr-1" { status := some .inProgress }

theorem oneInProgress_oldest : oneInProgress.Oldest (some claimedRequest) :=
  Db.oldest_of_singleton rfl trivial

end EpsDapp
