import EpsDapp.Delivery.Rpc
import EpsDapp.Effect.Restart

/-!
# Resuming after a crash

A worker dies at some point of an attempt after the signature of its row has been
persisted, and the row is claimed again, as often as that happens. The adapter gives
one answer for each signature, so the resumed attempts come to where the attempt would
have come that was cut short: the row and the meter are the same, nothing is sent
again, and a unit is given back once at most. The transaction of a failure is one call,
so a crash inside it is a crash before it.
-/

set_option autoImplicit false

namespace EpsDapp

open Effect DeliveryProgram

abbrev chainSig : Signature := ⟨ChainCall, ChainCall.Resp⟩

/-- The answers of the chain to a part of the adapter. -/
def onChain {χ : Type} (A : Answers chainSig Failure χ) : Answers deliverySig Failure χ :=
  fun s c s' r => match c, r with
    | .chain c, r => A s c s' r
    | _, _ => False

/-- A chain on which the adapter can be built and gives one answer for each signature. -/
structure SteadyChain (web3 : Web3) where
  State : Type
  answers : Answers chainSig Failure State
  settles : ∀ s c, ∃ s' r, answers s c s' r
  builds : ∀ s s' r, answers s .getSolanaAdapter s' r → r = .ok ()
  confirm : String → Except Failure ConfirmationResult
  getMemo : String → Except Failure (Option String)
  confirm_eq : ∀ signature s s' r,
    ((solanaAdapter web3).confirm signature).Runs (onChain answers) s s' r → r = confirm signature
  getMemo_eq : ∀ signature s s' r,
    ((solanaAdapter web3).getMemo signature).Runs (onChain answers) s s' r → r = getMemo signature

/-- The database and the chain, the transactions that have been sent, and the subscription that
each failure transaction has found and given a unit back to, if it had one. -/
structure ResumeWorld (χ : Type) where
  db : Db
  chain : χ
  sent : List ChainCall
  credited : List (Option Subscription)

/-- The transactions that a call sends. -/
def DeliveryCall.sends : DeliveryCall → List ChainCall
  | chain (.sendTransaction recipient lamports memo) => [.sendTransaction recipient lamports memo]
  | _ => []

namespace ResumeWorld

variable {χ : Type}

/-- The chain after a call. -/
def Moves (A : Answers chainSig Failure χ) (w w' : ResumeWorld χ) :
    (c : DeliveryCall) → Except Failure c.Resp → Prop
  | .chain c, r => A w.chain c w'.chain r
  | _, _ => w'.chain = w.chain

/-- What has been credited after a call. -/
def Credits (w w' : ResumeWorld χ) : (c : DeliveryCall) → Except Failure c.Resp → Prop
  | .failServiceRequest input, .ok _ => ∃ sel,
      w.db.LatestSubscription (.activeOfOrg input.orgId) sel ∧
        w'.db = (input.commit w.db sel).1 ∧ w'.credited = w.credited ++ [sel]
  | _, _ => w'.credited = w.credited

/-- The row has `signature` on record. -/
def OnRecord (id signature : String) (w : ResumeWorld χ) : Prop :=
  ∃ row, w.db.request? id = some row ∧ row.txSignature = some signature

/-- The signature of the row has been persisted. -/
def Persisted (id : String) (w : ResumeWorld χ) : Prop :=
  ∃ row, w.db.request? id = some row ∧ row.txSignature ≠ none

/-- The row is terminal, so that it is not claimed any more. -/
def Ended (id : String) (w : ResumeWorld χ) : Prop :=
  ∃ row, w.db.request? id = some row ∧ row.status.Terminal

end ResumeWorld

/-- The meters of `db'` are those of `db`, or one of them has been given a unit back. -/
def GivesBackOne (db db' : Db) : Prop :=
  db'.subscriptions = db.subscriptions ∨
    ∃ sel, db'.subscriptions = (db.credit sel).1.subscriptions

/-- Two runs have come to the same end for the row `id`. -/
structure SameEnd {χ : Type} (id : String) (w w' : ResumeWorld χ) : Prop where
  row : w.db.request? id = w'.db.request? id
  subscriptions : w.db.subscriptions = w'.db.subscriptions
  sent : w.sent = w'.sent
  credited : w.credited = w'.credited

/-- What a `findFirst` answers is the row `id`. -/
def Reclaims (id : String) : (c : DeliveryCall) → Except Failure c.Resp → Prop
  | .serviceRequestFindClaimable, r => ∃ row, r = .ok (some row) ∧ row.id = id
  | _, _ => True

/-- The answers to a worker that claims the row `id` whenever it starts. -/
def resumeAnswers {χ : Type} (A : Answers chainSig Failure χ) (id : String) :
    Answers deliverySig Failure (ResumeWorld χ) := fun w c w' r =>
  DeliveryCall.Exec w.db c w'.db r ∧ w.Moves A w' c r ∧ w.Credits w' c r ∧
    w'.sent = w.sent ++ c.sends ∧ Reclaims id c r

/-- A call of the chain moves the chain and is on record if it sends. -/
theorem resumeAnswers_chain {χ : Type} {A : Answers chainSig Failure χ} {id : String}
    {w w' : ResumeWorld χ} {c : ChainCall} {result : Except Failure c.Resp}
    (h : resumeAnswers A id w (.chain c) w' result) :
    A w.chain c w'.chain result ∧
      w' = { w with chain := w'.chain, sent := w.sent ++ DeliveryCall.sends (.chain c) } := by
  obtain ⟨hdb, hmoves, hcredited, hsent, -⟩ := h
  refine ⟨hmoves, ?_⟩
  obtain ⟨db', s, sent', credited'⟩ := w'
  obtain rfl : db' = w.db := hdb
  obtain rfl : sent' = _ := hsent
  obtain rfl : credited' = w.credited := hcredited
  rfl

/-- What has been credited stays on record. -/
theorem resumeAnswers_credited {χ : Type} {A : Answers chainSig Failure χ} {id : String}
    {w w' : ResumeWorld χ} {c : DeliveryCall} {result : Except Failure c.Resp}
    (h : resumeAnswers A id w c w' result) : ∀ sel ∈ w.credited, sel ∈ w'.credited := by
  obtain ⟨-, -, hcredits, -, -⟩ := h
  have hkept : w'.credited = w.credited ∨ ∃ sel, w'.credited = w.credited ++ [sel] := by
    cases c with
    | failServiceRequest input =>
        cases result with
        | ok restored =>
            obtain ⟨sel, -, -, hcredited⟩ := hcredits
            exact Or.inr ⟨sel, hcredited⟩
        | error e => exact Or.inl hcredits
    | _ => exact Or.inl hcredits
  intro sel hsel
  rcases hkept with hcredited | ⟨sel', hcredited⟩
  · rw [hcredited]
    exact hsel
  · rw [hcredited]
    exact List.mem_append_left _ hsel

section Settled

variable {web3 : Web3}

/-- What the adapter's answers for a signature say of the delivery. -/
def SteadyChain.verdict (chain : SteadyChain web3) (row : ClaimableRequest) (signature : String) :
    Except Failure ConfirmationResult :=
  match chain.confirm signature with
  | .error e => .error e
  | .ok confirmation =>
      match chain.getMemo signature with
      | .error e => .error e
      | .ok memo =>
          if memo ≠ some row.expectedMemo then .error (.memoMismatch row.id signature)
          else .ok confirmation

/-- The verdict parks the row: it is an error whose reason can be stored. -/
def ParksRow : Except Failure ConfirmationResult → Prop
  | .ok _ => False
  | .error e => ReasonStorable e.message

/-- The update that the verdict leads to; there is none if its reason cannot be stored. -/
def settlement : Except Failure ConfirmationResult → ServiceRequestUpdate
  | .ok confirmation => {
      status := some .confirmed
      slot := some confirmation.slot
      blockTime := some (confirmation.blockTime.map (· * 1000)) }
  | .error e =>
      if ReasonStorable e.message then
        { status := some .failed, failureReason := some (truncateReason e.message) }
      else {}

variable (chain : SteadyChain web3) (db : Db) (r : ServiceRequest)

/-- The row is signed and not settled, and no meter has been touched. -/
structure InFlight (signature : String) (sent : List ChainCall) (w : ResumeWorld chain.State) :
    Prop where
  row : w.db.request? r.id = some (r.signed signature)
  subscriptions : w.db.subscriptions = db.subscriptions
  sent : w.sent = sent
  credited : w.credited = []

/-- The row is settled by the verdict, and `sel` has been credited if it is parked. -/
structure Settled (signature : String) (sent : List ChainCall) (sel : Option Subscription)
    (w : ResumeWorld chain.State) : Prop where
  row : w.db.request? r.id =
    some ((settlement (chain.verdict r.select signature)).apply (r.signed signature))
  sent : w.sent = sent
  parked : ParksRow (chain.verdict r.select signature) →
    w.db.subscriptions = (db.credit sel).1.subscriptions ∧ w.credited = [sel]
  spared : ¬ ParksRow (chain.verdict r.select signature) →
    w.db.subscriptions = db.subscriptions ∧ w.credited = []

/-- The row is settled, and what is credited is an active subscription of its organization. -/
def Concluded (signature : String) (sent : List ChainCall) (w : ResumeWorld chain.State) : Prop :=
  ∃ sel, db.LatestSubscription (.activeOfOrg r.orgId) sel ∧
    Settled chain db r signature sent sel w

/-- The row has been claimed, and an attempt at it starts. -/
structure Claimed (w : ResumeWorld chain.State) : Prop where
  row : w.db.request? r.id = some r
  subscriptions : w.db.subscriptions = db.subscriptions
  sent : w.sent = []
  credited : w.credited = []

/-- The row has no signature yet. -/
structure Unsigned (w : ResumeWorld chain.State) : Prop where
  row : w.db.request? r.id = some r
  subscriptions : w.db.subscriptions = db.subscriptions
  sent : w.sent.length ≤ 1
  credited : w.credited = []

/-- The row has been parked without a signature. -/
structure ParkedUnsent (w : ResumeWorld chain.State) : Prop where
  row : ∃ row, w.db.request? r.id = some row ∧ row.txSignature = none
  sent : w.sent.length ≤ 1
  credited : w.credited.length ≤ 1
  meter : GivesBackOne db w.db

end Settled

/-- The calls of an attempt at `r`. -/
def DeliveryCall.AttemptsAt (r : ServiceRequest) : DeliveryCall → Prop
  | serviceRequestUpdate id _ => id = r.id
  | failServiceRequest input => input.serviceRequestId = r.id ∧ input.orgId = r.orgId
  | chain _ | record _ => True
  | _ => False

/-- Those that come after the signature has been persisted. -/
def DeliveryCall.Finishes (r : ServiceRequest) : DeliveryCall → Prop
  | serviceRequestUpdate id data => id = r.id ∧ data.txSignature = none
  | failServiceRequest input => input.serviceRequestId = r.id ∧ input.orgId = r.orgId
  | chain (.sendTransaction _ _ _) => False
  | chain _ | record _ => True
  | _ => False

/-- The calls of the adapter that read from the chain. -/
def DeliveryCall.Reads : DeliveryCall → Prop
  | chain (.confirmTransaction _) | chain (.getTransaction _) => True
  | _ => False

/-- The claim of a row that is `IN_PROGRESS` leaves it. -/
theorem ServiceRequest.claimed_eq_self {r : ServiceRequest} (h : r.status = .inProgress) :
    ({ status := some .inProgress } : ServiceRequestUpdate).apply r = r := by
  cases r
  cases h
  rfl

/-- The credit of a subscription, as far as the meters go, depends on the meters only. -/
theorem Db.credit_subscriptions_congr {db db' : Db} (h : db.subscriptions = db'.subscriptions)
    (sel : Option Subscription) :
    (db.credit sel).1.subscriptions = (db'.credit sel).1.subscriptions := by
  cases sel with
  | none => exact h
  | some s =>
      have hrow : db.subscription? s.id = db'.subscription? s.id := by
        rw [Db.subscription?, Db.subscription?, h]
      simp only [Db.credit, Db.updateSubscriptionWhere, hrow]
      split
      · split
        · simp only [Db.updateSubscription, h]
        · exact h
      · exact h

/-- A terminal failure leaves the meters as the credit does. -/
theorem FailServiceRequestInput.commit_subscriptions (input : FailServiceRequestInput) (db : Db)
    (sel : Option Subscription) :
    (input.commit db sel).1.subscriptions = (db.credit sel).1.subscriptions := by
  have h : (db.updateRequest input.serviceRequestId input.update).subscriptions =
      db.subscriptions := rfl
  exact Db.credit_subscriptions_congr h sel

/-- The subscription that an organization is credited on depends on the meters only as well. -/
theorem Db.LatestSubscription.congr {db db' : Db} {orgId : Option String}
    {sel : Option Subscription} (h : db.subscriptions = db'.subscriptions)
    (hsel : db.LatestSubscription (.activeOfOrg orgId) sel) :
    db'.LatestSubscription (.activeOfOrg orgId) sel := by
  have hmatches : SubscriptionWhere.Matches db (.activeOfOrg orgId) =
      SubscriptionWhere.Matches db' (.activeOfOrg orgId) := rfl
  rw [Db.LatestSubscription, h, hmatches] at hsel
  exact hsel

section Finish

variable {env : WorkerEnv} {web3 : Web3} {chain : SteadyChain web3} {db : Db} {r : ServiceRequest}
  {signature : String} {sent : List ChainCall} {row : ClaimableRequest}
  {w : ResumeWorld chain.State}

/-- What is called after the signature has been persisted, and where: once the row is settled
nothing is left but to start the recordings. -/
def Late (chain : SteadyChain web3) (db : Db) (r : ServiceRequest) (signature : String)
    (sent : List ChainCall) (w : ResumeWorld chain.State) (c : DeliveryCall) : Prop :=
  c.Finishes r ∧ (InFlight chain db r signature sent w ∨
    Concluded chain db r signature sent w ∧ c.Records)

/-- A part of the adapter that has one answer gives it, and moves nothing but the chain. -/
theorem wp_adapter {α : Type} {p : DeliveryProgram α} (honly : p.Only DeliveryCall.Reads)
    {answer : Except Failure α}
    (hruns : ∀ s s' result, p.Runs (onChain chain.answers) s s' result → result = answer)
    {Ok : ResumeWorld chain.State → DeliveryCall → Prop}
    (hOk : ∀ s c, c.Reads → Ok { w with chain := s } c) :
    p.wp (resumeAnswers chain.answers r.id) Ok
      (fun result w' => result = answer ∧ ∃ s, w' = { w with chain := s }) w := by
  have hchain : p.wp (onChain chain.answers) (fun _ c => c.Reads ∧ True)
      (fun result _ => True ∧ result = answer) w.chain :=
    Program.wp_and_ok honly.wp_ok (Program.wp_of_runs fun s' result => hruns w.chain s' result)
  refine Program.wp_simulated (R := fun w' s => w' = { w with chain := s }) ?_ ?_ ?_ hchain rfl
  · rintro _ s c rfl ⟨hc, -⟩
    exact hOk s c hc
  · rintro _ s c w' result rfl ⟨hc, -⟩ hanswer
    cases c with
    | chain c =>
        obtain ⟨hmoves, hw'⟩ := resumeAnswers_chain hanswer
        refine ⟨w'.chain, hmoves, hw'.trans ?_⟩
        cases c with
        | sendTransaction _ _ _ => exact hc.elim
        | _ => simp only [DeliveryCall.sends, List.append_nil]
    | _ => exact hc.elim
  · rintro result _ s rfl ⟨-, rfl⟩
    exact ⟨rfl, s, rfl⟩

theorem InFlight.moved (h : InFlight chain db r signature sent w) (s : chain.State) :
    InFlight chain db r signature sent { w with chain := s } :=
  ⟨h.row, h.subscriptions, h.sent, h.credited⟩

/-- Starting a recording leaves the outcome. -/
theorem wp_record_settled {recording : Recording} (h : Concluded chain db r signature sent w)
    {Q : Except Failure Unit → ResumeWorld chain.State → Prop}
    (hQ : ∀ w', Concluded chain db r signature sent w' → Q (.ok ()) w') :
    (record recording).wp (resumeAnswers chain.answers r.id) (Late chain db r signature sent) Q
      w := by
  refine (Program.wp_perform _ _ _).2 ⟨⟨trivial, Or.inr ⟨h, trivial⟩⟩, ?_⟩
  rintro w' result ⟨⟨hdb, rfl⟩, -, hcredited, hsent, -⟩
  obtain ⟨sel, hsel, hsettled⟩ := h
  have hcredited : w'.credited = w.credited := hcredited
  refine hQ w' ⟨sel, hsel, hdb ▸ hsettled.row, ?_, ?_, ?_⟩
  · exact (hsent.trans (List.append_nil _)).trans hsettled.sent
  · rw [hdb, hcredited]
    exact hsettled.parked
  · rw [hdb, hcredited]
    exact hsettled.spared

theorem InFlight.late (h : InFlight chain db r signature sent w) {c : DeliveryCall} (hc : c.Reads) :
    Late chain db r signature sent w c := by
  refine ⟨?_, Or.inl h⟩
  cases c with
  | chain c =>
      cases c with
      | sendTransaction _ _ _ => exact hc.elim
      | _ => trivial
  | _ => exact hc.elim

theorem solanaAdapter_reads (web3 : Web3) (signature : String) :
    ((solanaAdapter web3).confirm signature).Only DeliveryCall.Reads ∧
      ((solanaAdapter web3).getMemo signature).Only DeliveryCall.Reads := by
  refine ⟨?_, ?_⟩
  · refine Program.only_bind ((Program.only_perform _).2 trivial) fun _ => ?_
    exact Program.only_bind ((Program.only_perform _).2 trivial) fun _ => Program.only_pure _
  · refine Program.only_bind ((Program.only_perform _).2 trivial) fun tx => ?_
    split
    · exact Program.only_pure _
    · exact Program.only_throw _

/-- The update to `CONFIRMED` is the outcome of a verdict that confirms. -/
theorem wp_update_settled {confirmation : ConfirmationResult}
    (hverdict : chain.verdict r.select signature = .ok confirmation)
    (h : InFlight chain db r signature sent w)
    {Q : Except Failure ServiceRequest → ResumeWorld chain.State → Prop}
    (hQ : ∀ row w', Concluded chain db r signature sent w' → Q (.ok row) w') :
    (update r.id (settlement (.ok confirmation))).wp (resumeAnswers chain.answers r.id)
      (Late chain db r signature sent) Q w := by
  refine (Program.wp_perform _ _ _).2 ⟨⟨⟨rfl, rfl⟩, Or.inl h⟩, ?_⟩
  rintro w' result ⟨hexec, -, hcredited, hsent, -⟩
  simp only [DeliveryCall.Exec, h.row] at hexec
  obtain ⟨hdb, rfl⟩ := hexec
  have hcredited : w'.credited = w.credited := hcredited
  obtain ⟨sel, hsel⟩ := db.exists_latestSubscription (.activeOfOrg r.orgId)
  refine hQ _ w' ⟨sel, hsel, ?_, (hsent.trans (List.append_nil _)).trans h.sent, ?_, ?_⟩
  · rw [hdb, Db.request?_updateRequest, if_pos rfl, h.row, hverdict, Option.map_some]
  · rw [hverdict]
    exact False.elim
  · rw [hdb, hcredited]
    exact fun _ => ⟨h.subscriptions, h.credited⟩

/-- The second half of an attempt settles a signed row, or throws the error of the verdict. -/
theorem confirmAndVerify_resumes (hid : row.id = r.id)
    (hverdict : chain.verdict row signature = chain.verdict r.select signature)
    (h : InFlight chain db r signature sent w) :
    (confirmAndVerify env (solanaAdapter web3) row signature).wp
      (resumeAnswers chain.answers r.id) (Late chain db r signature sent)
      (fun result w' => match result with
        | .ok _ => Concluded chain db r signature sent w'
        | .error e => chain.verdict r.select signature = .error e ∧
            InFlight chain db r signature sent w') w := by
  obtain ⟨hconfirms, hmemos⟩ := solanaAdapter_reads web3 signature
  rw [confirmAndVerify]
  refine Program.wp_seq (wp_adapter hconfirms (chain.confirm_eq signature)
    fun s c hc => (h.moved s).late hc) ?_ ?_
  · rintro confirmation _ ⟨hconfirm, s, rfl⟩
    refine Program.wp_seq (wp_adapter hmemos (chain.getMemo_eq signature)
      fun s c hc => (h.moved s).late hc) ?_ ?_
    · rintro memo _ ⟨hmemo, s, rfl⟩
      rw [SteadyChain.verdict, ← hconfirm] at hverdict
      simp only [← hmemo] at hverdict
      split
      · rename_i hne
        rw [if_pos hne] at hverdict
        exact ⟨hverdict.symm, h.moved s⟩
      · rename_i heq
        rw [if_neg heq] at hverdict
        rw [hid]
        refine (Program.wp_bind _ _ _ _).2 (wp_update_settled hverdict.symm (h.moved s) ?_)
        intro _ w' h'
        refine (Program.wp_bind _ _ _ _).2 (wp_record_settled h' fun w' h' => ?_)
        exact wp_record_settled h' fun w' h' => h'
    · rintro e _ ⟨hmemo, s, rfl⟩
      rw [SteadyChain.verdict, ← hconfirm] at hverdict
      simp only [← hmemo] at hverdict
      exact ⟨hverdict.symm, h.moved s⟩
  · rintro e _ ⟨hconfirm, s, rfl⟩
    rw [SteadyChain.verdict, ← hconfirm] at hverdict
    exact ⟨hverdict.symm, h.moved s⟩

/-- A row whose reason cannot be stored stays as it is. -/
theorem InFlight.concluded {e : Failure} (h : InFlight chain db r signature sent w)
    (hverdict : chain.verdict r.select signature = .error e)
    (hreason : ¬ ReasonStorable e.message) : Concluded chain db r signature sent w := by
  obtain ⟨sel, hsel⟩ := db.exists_latestSubscription (.activeOfOrg r.orgId)
  refine ⟨sel, hsel, ?_, h.sent, ?_, fun _ => ⟨h.subscriptions, h.credited⟩⟩
  · rw [h.row, hverdict, settlement, if_neg hreason]
    rfl
  · rw [hverdict]
    exact fun hparks => absurd hparks hreason

/-- The failure transaction is the outcome of a verdict that is an error. -/
theorem failRow_resumes {e : Failure} (hid : row.id = r.id) (horgId : row.orgId = r.orgId)
    (horg : r.orgId ≠ none) (hverdict : chain.verdict r.select signature = .error e)
    (h : InFlight chain db r signature sent w) :
    (failRow row e.message).wp (resumeAnswers chain.answers r.id) (Late chain db r signature sent)
      (fun _ w' => Concluded chain db r signature sent w') w := by
  rw [failRow]
  refine (Program.wp_bind _ _ _ _).2 ((Program.wp_perform _ _ _).2
    ⟨⟨⟨hid, horgId⟩, Or.inl h⟩, ?_⟩)
  rintro w' result ⟨hexec, -, hcredits, hsent, -⟩
  rcases (failServiceRequest_runsAtomically_iff _ _ _ _).1 hexec with
    ⟨_, _, _, hreason, -, -, -, -, rfl⟩ | ⟨-, -, hmissing, -⟩ | ⟨-, -, -, hnone, -⟩ |
      ⟨hdb, hreason, rfl⟩
  · obtain ⟨sel, hsel, hdb, hcredited⟩ := hcredits
    rw [horgId] at hsel
    have hparks : ParksRow (chain.verdict r.select signature) := by
      rw [hverdict]
      exact hreason
    refine ⟨sel, hsel.congr h.subscriptions, ?_, (hsent.trans (List.append_nil _)).trans h.sent,
      fun _ => ⟨?_, ?_⟩, fun hspared => absurd hparks hspared⟩
    · rw [hdb, Db.request?, FailServiceRequestInput.commit_serviceRequests, ← Db.request?,
        Db.request?_updateRequest, hid, if_pos rfl, h.row, hverdict, Option.map_some, settlement,
        if_pos hreason]
      rfl
    · rw [hdb]
      exact (FailServiceRequestInput.commit_subscriptions _ _ _).trans
        (Db.credit_subscriptions_congr h.subscriptions sel)
    · rw [hcredited, h.credited]
      rfl
  · rw [hid] at hmissing
    cases hmissing.symm.trans h.row
  · exact absurd (horgId.symm.trans hnone) horg
  · have hcredited : w'.credited = w.credited := hcredits
    have hstays : InFlight chain db r signature sent w' :=
      ⟨hdb ▸ h.row, hdb ▸ h.subscriptions, (hsent.trans (List.append_nil _)).trans h.sent,
        hcredited.trans h.credited⟩
    exact hstays.concluded hverdict hreason

/-- An attempt at the signed row has the outcome of the verdict. -/
theorem attempt_resumes (hid : row.id = r.id) (horgId : row.orgId = r.orgId)
    (hsignature : row.txSignature = some signature)
    (hverdict : chain.verdict row signature = chain.verdict r.select signature)
    (horg : r.orgId ≠ none) (h : InFlight chain db r signature sent w) :
    (attempt env web3 row).wp (resumeAnswers chain.answers r.id) (Late chain db r signature sent)
      (fun _ w' => Concluded chain db r signature sent w') w := by
  rw [attempt, processServiceRequest_eq, signatureOf, hsignature]
  refine Program.wp_catch (R := fun result w' => match result with
    | .ok _ => Concluded chain db r signature sent w'
    | .error e => chain.verdict r.select signature = .error e ∧
        InFlight chain db r signature sent w') ?_ (fun _ _ h' => h') ?_
  · refine (Program.wp_bind _ _ _ _).2 ((Program.wp_perform _ _ _).2 ⟨⟨trivial, Or.inl h⟩, ?_⟩)
    intro w' result hanswer
    obtain ⟨hmoves, hw'⟩ := resumeAnswers_chain hanswer
    obtain rfl := chain.builds _ _ _ hmoves
    simp only [DeliveryCall.sends, List.append_nil] at hw'
    rw [hw']
    exact confirmAndVerify_resumes hid hverdict (h.moved _)
  · rintro e w' ⟨hverdict, h'⟩
    exact failRow_resumes hid horgId horg hverdict h'

/-- A settled row is terminal, or its reason cannot be stored and it is still in flight. -/
theorem Concluded.ended_or_inFlight (h : Concluded chain db r signature sent w) :
    w.Ended r.id ∨ InFlight chain db r signature sent w := by
  obtain ⟨sel, -, hsettled⟩ := h
  have hrow := hsettled.row
  have hspared := hsettled.spared
  cases hverdict : chain.verdict r.select signature with
  | ok confirmation =>
      rw [hverdict] at hrow
      exact Or.inl ⟨_, hrow, trivial⟩
  | error e =>
      rw [hverdict] at hrow hspared
      by_cases hreason : ReasonStorable e.message
      · rw [settlement, if_pos hreason] at hrow
        exact Or.inl ⟨_, hrow, trivial⟩
      · rw [settlement, if_neg hreason] at hrow
        obtain ⟨hsubscriptions, hcredited⟩ := hspared hreason
        exact Or.inr ⟨hrow, hsubscriptions, hsettled.sent, hcredited⟩

/-- What a restart finds. -/
theorem reclaimed {w' : ResumeWorld chain.State}
    (h : resumeAnswers chain.answers r.id w .serviceRequestFindClaimable w' (.ok (some row)))
    {r' : ServiceRequest} (hrow : w.db.request? r.id = some r') :
    w'.db = w.db ∧ row = r'.select ∧ r'.status.Claimable := by
  obtain ⟨hexec, -, -, -, _, hfound, hid⟩ := h
  cases hfound
  obtain ⟨hdb, found, hfound, hclaimable, rfl⟩ := candidate_of_faultyAnswers (Or.inl hexec)
  rw [show found.id = r.id from hid] at hfound
  obtain rfl := Option.some.inj (hfound.symm.trans hrow)
  exact ⟨hdb, rfl, hclaimable⟩

/-- A restart has the outcome too, unless it is cut short before. -/
theorem runOnce_resumes (hstatus : r.status = .inProgress) (horg : r.orgId ≠ none)
    (h : InFlight chain db r signature sent w ∨ Concluded chain db r signature sent w) :
    (runOnce env web3).wp (resumeAnswers chain.answers r.id)
      (fun w _ => InFlight chain db r signature sent w ∨ Concluded chain db r signature sent w)
      (fun _ w' => Concluded chain db r signature sent w') w := by
  refine wp_runOnce env web3 h ?_ ?_ ?_
  · rintro w' e ⟨⟨-, _, -, hfound⟩, -⟩
    cases hfound
  · rintro w' ⟨-, -, -, -, _, hfound, -⟩
    cases hfound
  intro w' row hfind
  have hstate : InFlight chain db r signature sent w ∨ w.Ended r.id :=
    h.elim Or.inl fun h => h.ended_or_inFlight.symm
  rcases hstate with h | hended
  · obtain ⟨hdb, rfl, -⟩ := reclaimed hfind h.row
    obtain ⟨-, -, hcredited, hsent, -⟩ := hfind
    have hcredited : w'.credited = w.credited := hcredited
    have h' : InFlight chain db r signature sent w' :=
      ⟨hdb ▸ h.row, hdb ▸ h.subscriptions, (hsent.trans (List.append_nil _)).trans h.sent,
        hcredited.trans h.credited⟩
    have hstatus : (r.signed signature).status = .inProgress := hstatus
    have hclaimable : (r.signed signature).status.Claimable := by
      rw [hstatus]
      exact trivial
    have hclaim := w'.db.claim_of_claimable h'.row hclaimable
    refine ⟨Or.inl h', ?_, ?_, ?_⟩
    · rintro w'' e ⟨⟨-, hcount⟩, -⟩
      cases hcount
    · rintro w'' ⟨⟨-, hcount⟩, -⟩
      rw [show (r.signed signature).select.id = r.id from rfl, hclaim] at hcount
      cases hcount
    · rintro w'' n ⟨⟨hdb', -⟩, -, hcredited', hsent', -⟩
      rw [show (r.signed signature).select.id = r.id from rfl, hclaim] at hdb'
      have hcredited' : w''.credited = w'.credited := hcredited'
      have hrow : w''.db.request? r.id = some (r.signed signature) := by
        rw [hdb', Db.request?_updateRequest, if_pos rfl, h'.row, Option.map_some,
          ServiceRequest.claimed_eq_self hstatus]
      have h'' : InFlight chain db r signature sent w'' :=
        ⟨hrow, hdb' ▸ h'.subscriptions, (hsent'.trans (List.append_nil _)).trans h'.sent,
          hcredited'.trans h'.credited⟩
      refine Program.wp_mono _ (fun _ _ _ _ h => h) (fun _ _ h => ?_) (fun _ _ h => h)
        (attempt_resumes rfl rfl rfl rfl horg h'')
      exact h.2.imp_right And.left
  · obtain ⟨r', hrow, hterminal⟩ := hended
    obtain ⟨-, -, hclaimable⟩ := reclaimed hfind hrow
    exact absurd hterminal ((ServiceStatus.claimable_iff_not_terminal _).1 hclaimable)

/-- What an attempt may have sent: one transaction at most, and none if `r` is signed. -/
structure SentFor (r : ServiceRequest) (sent : List ChainCall) : Prop where
  once : sent.length ≤ 1
  never : r.txSignature ≠ none → sent = []

/-- What an attempt at `r` calls, and where. -/
def Attempting (chain : SteadyChain web3) (db : Db) (r : ServiceRequest)
    (w : ResumeWorld chain.State) (c : DeliveryCall) : Prop :=
  (r.txSignature = none ∧ Unsigned chain db r w ∧ c.AttemptsAt r) ∨
    ∃ signature sent, SentFor r sent ∧ Late chain db r signature sent w c

theorem sentFor_nil : SentFor r [] :=
  ⟨Nat.zero_le 1, fun _ => rfl⟩

theorem Claimed.signed (h : Claimed chain db r w) (hsignature : r.txSignature = some signature) :
    InFlight chain db r signature [] w := by
  refine ⟨?_, h.subscriptions, h.sent, h.credited⟩
  rw [ServiceRequest.signed_eq_self hsignature]
  exact h.row

theorem Claimed.unsigned (h : Claimed chain db r w) : Unsigned chain db r w :=
  ⟨h.row, h.subscriptions, h.sent ▸ Nat.zero_le 1, h.credited⟩

/-- The first half of an attempt comes to a signed row, or throws before. -/
theorem signatureOf_resumes (h : Claimed chain db r w) :
    (signatureOf (solanaAdapter web3) r.select).wp (resumeAnswers chain.answers r.id)
      (Attempting chain db r)
      (fun result w' => match result with
        | .ok signature => ∃ sent, SentFor r sent ∧ InFlight chain db r signature sent w'
        | .error _ => r.txSignature = none ∧ Unsigned chain db r w') w := by
  have hselect : r.select.txSignature = r.txSignature := rfl
  rw [signatureOf, hselect]
  cases hsignature : r.txSignature with
  | some signature =>
      exact ⟨[], sentFor_nil, h.signed hsignature⟩
  | none =>
      have hunsigned : ∀ (s : chain.State) sent, sent.length ≤ 1 →
          Unsigned chain db r { w with chain := s, sent := sent } :=
        fun s sent hsent => ⟨h.row, h.subscriptions, hsent, h.credited⟩
      refine (Program.wp_bind _ _ _ _).2 ((Program.wp_perform _ _ _).2
        ⟨Or.inl ⟨hsignature, h.unsigned, trivial⟩, ?_⟩)
      intro w₁ minimum hanswer
      obtain ⟨-, hw₁⟩ := resumeAnswers_chain hanswer
      simp only [DeliveryCall.sends, List.append_nil] at hw₁
      cases minimum with
      | error e =>
          rw [hw₁]
          exact ⟨rfl, hunsigned _ _ h.unsigned.sent⟩
      | ok lamports =>
          rw [hw₁]
          refine (Program.wp_bind _ _ _ _).2 ?_
          simp only [solanaAdapter]
          cases assertValidRecipient web3 r.select.recipientWallet with
          | error e => exact ⟨trivial, hunsigned _ _ h.unsigned.sent⟩
          | ok recipient =>
              refine (Program.wp_perform _ _ _).2
                ⟨Or.inl ⟨hsignature, hunsigned _ _ h.unsigned.sent, trivial⟩, ?_⟩
              intro w₂ answer hanswer
              obtain ⟨-, hw₂⟩ := resumeAnswers_chain hanswer
              simp only [DeliveryCall.sends, h.sent, List.nil_append] at hw₂
              rw [hw₂]
              cases answer with
              | error e => exact ⟨trivial, hunsigned _ _ le_rfl⟩
              | ok signature =>
                  refine (Program.wp_bind _ _ _ _).2 ((Program.wp_perform _ _ _).2
                    ⟨Or.inl ⟨hsignature, hunsigned _ _ le_rfl, rfl⟩, ?_⟩)
                  rintro w₃ answer ⟨hexec, -, hcredited₃, hsent₃, -⟩
                  have hcredited₃ : w₃.credited = w.credited := hcredited₃
                  simp only [DeliveryCall.Exec, show r.select.id = r.id from rfl, h.row] at hexec
                  obtain ⟨hdb, rfl⟩ := hexec
                  refine ⟨_, ⟨le_rfl, fun h => absurd hsignature h⟩, ?_, ?_,
                    hsent₃.trans (List.append_nil _), hcredited₃.trans h.credited⟩
                  · rw [hdb, Db.request?_updateRequest, if_pos rfl, h.row, Option.map_some]
                    rfl
                  · rw [hdb]
                    exact h.subscriptions

/-- How an attempt at `r` may end. -/
def Attempted (chain : SteadyChain web3) (db : Db) (r : ServiceRequest)
    (w : ResumeWorld chain.State) : Prop :=
  (r.txSignature = none ∧ ParkedUnsent chain db r w) ∨
    ∃ signature sent, SentFor r sent ∧ Concluded chain db r signature sent w

/-- An attempt that throws before the row is signed parks it unsent. -/
theorem failRow_parks {e : Failure} (hsignature : r.txSignature = none)
    (h : Unsigned chain db r w) :
    (failRow r.select e.message).wp (resumeAnswers chain.answers r.id) (Attempting chain db r)
      (fun _ w' => Attempted chain db r w') w := by
  rw [failRow]
  refine (Program.wp_bind _ _ _ _).2 ((Program.wp_perform _ _ _).2
    ⟨Or.inl ⟨hsignature, h, rfl, rfl⟩, ?_⟩)
  rintro w' result ⟨hexec, -, hcredits, hsent, -⟩
  have hsent : w'.sent.length ≤ 1 := by
    rw [hsent.trans (List.append_nil _)]
    exact h.sent
  rcases failServiceRequest_commits_or_throws hexec with
    ⟨_, _, _, -, -, -, -, -, rfl⟩ | ⟨hdb, e', rfl⟩
  · obtain ⟨sel, -, hdb, hcredited⟩ := hcredits
    refine Or.inl ⟨hsignature, ?_, hsent, ?_, Or.inr ⟨sel, ?_⟩⟩
    · rw [hdb, Db.request?, FailServiceRequestInput.commit_serviceRequests, ← Db.request?,
        Db.request?_updateRequest, show r.select.id = r.id from rfl, if_pos rfl, h.row]
      exact ⟨_, rfl, hsignature⟩
    · rw [hcredited, h.credited, List.nil_append, List.length_singleton]
    · rw [hdb, FailServiceRequestInput.commit_subscriptions]
      exact Db.credit_subscriptions_congr h.subscriptions sel
  · have hcredited : w'.credited = w.credited := hcredits
    refine Or.inl ⟨hsignature, ⟨r, hdb ▸ h.row, hsignature⟩, hsent, ?_, Or.inl ?_⟩
    · rw [hcredited, h.credited, List.length_nil]
      exact Nat.zero_le 1
    · rw [hdb, h.subscriptions]

/-- An attempt at `r` settles it once it is signed. -/
theorem attempt_attempts (horg : r.orgId ≠ none) (h : Claimed chain db r w) :
    (attempt env web3 r.select).wp (resumeAnswers chain.answers r.id) (Attempting chain db r)
      (fun _ w' => Attempted chain db r w') w := by
  have hlate : ∀ signature sent, SentFor r sent → ∀ (w : ResumeWorld chain.State) c,
      Late chain db r signature sent w c → Attempting chain db r w c :=
    fun signature sent hsent _ _ h => Or.inr ⟨signature, sent, hsent, h⟩
  rw [attempt, processServiceRequest_eq]
  refine Program.wp_catch (R := fun result w' => match result with
    | .ok _ => ∃ signature sent, SentFor r sent ∧ Concluded chain db r signature sent w'
    | .error e => (r.txSignature = none ∧ Unsigned chain db r w') ∨
        ∃ signature sent, SentFor r sent ∧ chain.verdict r.select signature = .error e ∧
          InFlight chain db r signature sent w') ?_ (fun _ _ h' => Or.inr h') ?_
  · refine (Program.wp_bind _ _ _ _).2 ((Program.wp_perform _ _ _).2 ⟨?_, ?_⟩)
    · cases hsignature : r.txSignature with
      | none => exact Or.inl ⟨hsignature, h.unsigned, trivial⟩
      | some signature =>
          exact Or.inr ⟨signature, [], sentFor_nil, trivial, Or.inl (h.signed hsignature)⟩
    intro w' result hanswer
    obtain ⟨hmoves, hw'⟩ := resumeAnswers_chain hanswer
    obtain rfl := chain.builds _ _ _ hmoves
    simp only [DeliveryCall.sends, List.append_nil] at hw'
    rw [hw']
    refine Program.wp_seq (signatureOf_resumes ⟨h.row, h.subscriptions, h.sent, h.credited⟩) ?_ ?_
    · rintro signature w' ⟨sent, hsent, h⟩
      refine Program.wp_mono _ (fun _ _ _ _ h => h) (hlate signature sent hsent) ?_
        (confirmAndVerify_resumes rfl rfl h)
      rintro (e | _) w' h
      · exact Or.inr ⟨signature, sent, hsent, h⟩
      · exact ⟨signature, sent, hsent, h⟩
    · exact fun e w' h => Or.inl h
  · rintro e w' (⟨hsignature, h⟩ | ⟨signature, sent, hsent, hverdict, h⟩)
    · exact failRow_parks hsignature h
    · refine Program.wp_mono _ (fun _ _ _ _ h => h) (hlate signature sent hsent) ?_
        (failRow_resumes rfl rfl horg hverdict h)
      exact fun _ _ h => Or.inr ⟨signature, sent, hsent, h⟩

/-- The answers under which a failure credits `sel`. -/
def creditingAnswers {χ : Type} (A : Answers chainSig Failure χ) (id : String)
    (sel : Option Subscription) : Answers deliverySig Failure (ResumeWorld χ) :=
  fun w c w' result =>
    resumeAnswers A id w c w' result ∧ ∀ s ∈ w'.credited, s ∈ w.credited ∨ s = sel

/-- The row is signed with `signature`, and nothing but `sel` has been credited. -/
structure Follows {χ : Type} (r : ServiceRequest) (signature : String) (sent : List ChainCall)
    (sel : Option Subscription) (w : ResumeWorld χ) : Prop where
  row : w.OnRecord r.id signature
  sent : w.sent = sent
  credited : ∀ s ∈ w.credited, s = sel

theorem settlement_txSignature (verdict : Except Failure ConfirmationResult)
    (r : ServiceRequest) : ((settlement verdict).apply r).txSignature = r.txSignature := by
  cases verdict with
  | ok confirmation => rfl
  | error e =>
      rw [settlement]
      split
      · rfl
      · rfl

theorem Concluded.on_record (h : Concluded chain db r signature sent w) :
    w.OnRecord r.id signature := by
  obtain ⟨sel, -, hsettled⟩ := h
  exact ⟨_, hsettled.row, settlement_txSignature _ _⟩

theorem Concluded.sent_eq (h : Concluded chain db r signature sent w) : w.sent = sent := by
  obtain ⟨sel, -, hsettled⟩ := h
  exact hsettled.sent

/-- The row, signed or settled, has its signature on record. -/
theorem on_record_of_past
    (h : InFlight chain db r signature sent w ∨ Concluded chain db r signature sent w) :
    w.OnRecord r.id signature ∧ w.sent = sent := by
  rcases h with h | h
  · exact ⟨⟨_, h.row, rfl⟩, h.sent⟩
  · exact ⟨h.on_record, h.sent_eq⟩

theorem Late.past {c : DeliveryCall} (h : Late chain db r signature sent w c) :
    InFlight chain db r signature sent w ∨ Concluded chain db r signature sent w :=
  h.2.imp_right And.left

/-- An attempt whose row has `signature` on record has nothing left to do but to finish. -/
theorem Attempting.late {sel : Option Subscription} {c : DeliveryCall}
    (h : Attempting chain db r w c) (hfollows : Follows r signature sent sel w) :
    Late chain db r signature sent w c := by
  obtain ⟨row, hrow, hsignature⟩ := hfollows.row
  rcases h with ⟨hnone, hunsigned, -⟩ | ⟨signature', sent', -, h⟩
  · obtain rfl := Option.some.inj (hrow.symm.trans hunsigned.row)
    cases hnone.symm.trans hsignature
  · obtain ⟨⟨row', hrow', hsignature'⟩, hsent⟩ := on_record_of_past h.past
    obtain rfl := Option.some.inj (hrow.symm.trans hrow')
    obtain rfl := Option.some.inj (hsignature'.symm.trans hsignature)
    obtain rfl : sent' = sent := hsent.symm.trans hfollows.sent
    exact h

theorem DeliveryCall.Finishes.sends {c : DeliveryCall} (h : c.Finishes r) : c.sends = [] := by
  cases c with
  | chain c =>
      cases c with
      | sendTransaction _ _ _ => exact h.elim
      | _ => rfl
  | _ => rfl

/-- What is called after the signature has been persisted leaves it. -/
theorem DeliveryCall.Finishes.write {c : DeliveryCall} (h : c.Finishes r)
    {result : Except Failure c.Resp} {id : String} {u : ServiceRequestUpdate}
    (hwrite : c.write result = some (id, u)) : u.txSignature = none := by
  cases c with
  | serviceRequestUpdate id data =>
      cases result with
      | ok row =>
          cases hwrite
          exact h.2
      | error e => cases hwrite
  | failServiceRequest input =>
      cases result with
      | ok restored =>
          cases hwrite
          rfl
      | error e => cases hwrite
  | chain _ | record _ => cases hwrite
  | _ => exact h.elim

/-- To finish keeps the signature, sends nothing and credits `sel` only. -/
theorem Follows.step {A : Answers chainSig Failure chain.State} {sel : Option Subscription}
    {w' : ResumeWorld chain.State} {c : DeliveryCall} {result : Except Failure c.Resp}
    (h : Follows r signature sent sel w) (hc : c.Finishes r)
    (hanswer : creditingAnswers A r.id sel w c w' result) :
    Follows r signature sent sel w' := by
  obtain ⟨⟨hexec, -, -, hsent, -⟩, hcredited⟩ := hanswer
  obtain ⟨row, hrow, hsignature⟩ := h.row
  refine ⟨?_, ?_, fun s hs => (hcredited s hs).elim (h.credited s) id⟩
  · have hafter := request?_of_faultyAnswers (Or.inl hexec) r.id
    cases hwrite : c.write result with
    | none =>
        rw [hwrite] at hafter
        exact ⟨row, hafter.trans hrow, hsignature⟩
    | some p =>
        obtain ⟨id, u⟩ := p
        simp only [hwrite] at hafter
        by_cases hid : r.id = id
        · subst hid
          rw [if_pos rfl, hrow] at hafter
          refine ⟨_, hafter, ?_⟩
          rw [apply_txSignature, hc.write hwrite, Option.none_or, hsignature]
        · rw [if_neg hid] at hafter
          exact ⟨row, hafter.trans hrow, hsignature⟩
  · rw [hsent, hc.sends, List.append_nil, h.sent]

/-- What is left of an attempt can be run, with `sel` as the credit of a failure. -/
theorem Late.answered {sel : Option Subscription} {c : DeliveryCall} (horg : r.orgId ≠ none)
    (hsel : db.LatestSubscription (.activeOfOrg r.orgId) sel)
    (h : Late chain db r signature sent w c) :
    ∃ w' result, creditingAnswers chain.answers r.id sel w c w' result := by
  obtain ⟨row, hrow, -⟩ := (on_record_of_past h.past).1
  obtain ⟨hc, hstate⟩ := h
  cases c with
  | serviceRequestUpdate id data =>
      obtain ⟨rfl, -⟩ := hc
      refine ⟨{ w with db := w.db.updateRequest r.id data }, .ok (data.apply row),
        ⟨?_, rfl, rfl, (List.append_nil _).symm, trivial⟩, fun s hs => Or.inl hs⟩
      simp only [DeliveryCall.Exec, hrow]
      exact ⟨trivial, trivial⟩
  | failServiceRequest input =>
      obtain ⟨hid, horgId⟩ := hc
      obtain h | ⟨-, hrecords⟩ := hstate
      · rw [← horgId] at hsel horg
        have hsel := hsel.congr h.subscriptions.symm
        obtain ⟨o, ho⟩ := Option.ne_none_iff_exists'.1 horg
        by_cases hreason : ReasonStorable input.reason
        swap
        · refine ⟨w, .error .textRejected, ⟨?_, rfl, rfl, (List.append_nil _).symm, trivial⟩,
            fun s hs => Or.inl hs⟩
          exact (failServiceRequest_runsAtomically_iff input w.db _ _).2
            (Or.inr (Or.inr (Or.inr ⟨rfl, hreason, rfl⟩)))
        refine ⟨{ w with db := (input.commit w.db sel).1, credited := w.credited ++ [sel] },
          .ok (input.commit w.db sel).2,
          ⟨?_, rfl, ⟨sel, hsel, rfl, rfl⟩, (List.append_nil _).symm, trivial⟩, ?_⟩
        · rw [ho] at hsel
          exact (failServiceRequest_runsAtomically_iff input w.db _ _).2
            (Or.inl ⟨row, o, sel, hreason, hid ▸ hrow, ho, hsel, rfl, rfl⟩)
        · intro s hs
          exact (List.mem_append.1 hs).imp_right List.mem_singleton.1
      · exact hrecords.elim
  | chain c =>
      obtain ⟨s, result, hanswer⟩ := chain.settles w.chain c
      refine ⟨{ w with chain := s }, result, ⟨rfl, hanswer, rfl, ?_, trivial⟩,
        fun s hs => Or.inl hs⟩
      rw [hc.sends, List.append_nil]
  | record recording =>
      exact ⟨w, .ok (), ⟨⟨rfl, rfl⟩, rfl, rfl, (List.append_nil _).symm, trivial⟩,
        fun s hs => Or.inl hs⟩
  | _ => exact hc.elim

/-- Two outcomes are the same if they credit the same subscription. -/
theorem Settled.sameEnd {sel sel' : Option Subscription} {w' : ResumeWorld chain.State}
    (h : Settled chain db r signature sent sel w) (h' : Settled chain db r signature sent sel' w')
    (hcredited : ∀ s ∈ w.credited, s = sel') : SameEnd r.id w w' := by
  obtain ⟨hrow, hsent, hparked, hspared⟩ := h
  obtain ⟨hrow', hsent', hparked', hspared'⟩ := h'
  by_cases hparks : ParksRow (chain.verdict r.select signature)
  · obtain ⟨hmeter, hcredits⟩ := hparked hparks
    obtain ⟨hmeter', hcredits'⟩ := hparked' hparks
    obtain rfl : sel = sel' := hcredited sel (hcredits ▸ List.mem_singleton_self sel)
    exact ⟨hrow.trans hrow'.symm, hmeter.trans hmeter'.symm, hsent.trans hsent'.symm,
      hcredits.trans hcredits'.symm⟩
  · obtain ⟨hmeter, hcredits⟩ := hspared hparks
    obtain ⟨hmeter', hcredits'⟩ := hspared' hparks
    exact ⟨hrow.trans hrow'.symm, hmeter.trans hmeter'.symm, hsent.trans hsent'.symm,
      hcredits.trans hcredits'.symm⟩

/-- Where an attempt is cut short after the signature has been persisted. -/
theorem halted_signed {w₁ : ResumeWorld chain.State} {point : Program.Halt deliverySig Failure Unit}
    (horg : r.orgId ≠ none) (h : Claimed chain db r w)
    (hhalts : (attempt env web3 r.select).HaltsAt (resumeAnswers chain.answers r.id) w w₁ point)
    (hpersisted : w₁.Persisted r.id) :
    ∃ signature sent, SentFor r sent ∧
      (InFlight chain db r signature sent w₁ ∨ Concluded chain db r signature sent w₁) := by
  let Past (w : ResumeWorld chain.State) : Prop := ∃ signature sent, SentFor r sent ∧
    (InFlight chain db r signature sent w ∨ Concluded chain db r signature sent w)
  have hlate : ∀ w c, Attempting chain db r w c → w.Persisted r.id → Past w := by
    rintro w c (⟨hnone, hunsigned, -⟩ | ⟨signature, sent, hsent, -, h⟩) ⟨row, hrow, hsignature⟩
    · obtain rfl := Option.some.inj (hrow.symm.trans hunsigned.row)
      exact absurd hnone hsignature
    · exact ⟨signature, sent, hsent, h.imp_right And.left⟩
  have hended : ∀ w, Attempted chain db r w → w.Persisted r.id → Past w := by
    rintro w (⟨-, h⟩ | ⟨signature, sent, hsent, h⟩) ⟨row, hrow, hsignature⟩
    · obtain ⟨row', hrow', hnone⟩ := h.row
      obtain rfl := Option.some.inj (hrow.symm.trans hrow')
      exact absurd hnone hsignature
    · exact ⟨signature, sent, hsent, Or.inr h⟩
  exact Program.wp_haltsAt (P := fun w _ => w.Persisted r.id → Past w) _
    (Program.wp_mono _ (fun _ _ _ _ h => h) hlate (fun _ => hended) (attempt_attempts horg h))
    hhalts hpersisted

/-- The restarts come to the outcome, and what has been credited before stays on record. -/
theorem restarts_settle {w₁ w' : ResumeWorld chain.State} (hstatus : r.status = .inProgress)
    (horg : r.orgId ≠ none)
    (h : InFlight chain db r signature sent w₁ ∨ Concluded chain db r signature sent w₁)
    (hnext : Program.Restarts (resumeAnswers chain.answers r.id) (ResumeWorld.Persisted r.id)
      (ResumeWorld.Ended r.id) (runOnce env web3) w₁ w') :
    Concluded chain db r signature sent w' ∧ ∀ s ∈ w₁.credited, s ∈ w'.credited := by
  let Goal (w : ResumeWorld chain.State) : Prop :=
    Concluded chain db r signature sent w ∧ ∀ s ∈ w₁.credited, s ∈ w.credited
  let I (w : ResumeWorld chain.State) : Prop :=
    (InFlight chain db r signature sent w ∨ Concluded chain db r signature sent w) ∧
      ∀ s ∈ w₁.credited, s ∈ w.credited
  have hrun : ∀ w, I w → (runOnce env web3).wp (resumeAnswers chain.answers r.id)
      (fun w _ => w.Persisted r.id → I w)
      (fun _ w => Goal w ∧ (w.Persisted r.id → I w)) w := by
    intro w hw
    have hcredited := Program.wp_keeps (p := runOnce env web3)
      (E := resumeAnswers chain.answers r.id) (J := fun w => ∀ s ∈ w₁.credited, s ∈ w.credited)
      (fun w c w' result h hanswer s hs => resumeAnswers_credited hanswer s (h s hs)) hw.2
    refine Program.wp_mono _ (fun _ _ _ _ h => h) (fun _ _ h _ => h) (fun _ _ h => ?_)
      (Program.wp_and_ok (runOnce_resumes hstatus horg hw.1) hcredited)
    exact ⟨h, fun _ => ⟨Or.inr h.1, h.2⟩⟩
  have hover : ∀ w, I w → w.Ended r.id → Goal w := by
    rintro w hw ⟨row, hrow, hterminal⟩
    refine ⟨hw.1.resolve_left fun hsigned => ?_, hw.2⟩
    obtain rfl := Option.some.inj (hrow.symm.trans hsigned.row)
    have hstatus : (r.signed signature).status = .inProgress := hstatus
    rw [hstatus] at hterminal
    exact hterminal
  have hgoal : Goal w' := Program.Restarts.rule hrun hover hnext ⟨h, fun _ hs => hs⟩
  exact hgoal

/-- An attempt with a signature on record has come to the outcome of it. -/
theorem Attempted.outcome (h : Attempted chain db r w) (hrecord : w.OnRecord r.id signature) :
    ∃ sent, SentFor r sent ∧ Concluded chain db r signature sent w := by
  obtain ⟨row, hrow, hsignature⟩ := hrecord
  rcases h with ⟨-, h⟩ | ⟨signature', sent, hsent, h⟩
  · obtain ⟨row', hrow', hnone⟩ := h.row
    obtain rfl := Option.some.inj (hrow.symm.trans hrow')
    cases hnone.symm.trans hsignature
  · obtain ⟨sel, hsel, hsettled⟩ := h
    obtain rfl := Option.some.inj (hrow.symm.trans hsettled.row)
    obtain rfl := Option.some.inj ((settlement_txSignature _ _).symm.trans hsignature)
    exact ⟨sent, hsent, sel, hsel, hsettled⟩

/-- What is left of the attempt comes to the outcome that credits `sel`. -/
theorem halted_finishes {w₁ : ResumeWorld chain.State}
    {point : Program.Halt deliverySig Failure Unit} {sel : Option Subscription}
    (horg : r.orgId ≠ none) (h : Claimed chain db r w)
    (hhalts : (attempt env web3 r.select).HaltsAt (resumeAnswers chain.answers r.id) w w₁ point)
    (hsel : db.LatestSubscription (.activeOfOrg r.orgId) sel)
    (hfollows : Follows r signature sent sel w₁) :
    ∃ clean result, (attempt env web3 r.select).Runs (resumeAnswers chain.answers r.id) w clean
        result ∧ Concluded chain db r signature sent clean ∧ ∀ s ∈ clean.credited, s = sel := by
  obtain ⟨p, hwp, hruns⟩ := hhalts.rest
  have hp := hwp _ _ (attempt_attempts horg h)
  have hcrediting : p.wp (creditingAnswers chain.answers r.id sel) (Attempting chain db r)
      (fun _ w' => Attempted chain db r w') w₁ :=
    Program.wp_mono p (fun _ _ _ _ h => h.1) (fun _ _ h => h) (fun _ _ h => h) hp
  have hinv := Program.wp_invariant (J := Follows r signature sent sel) hcrediting
    (fun w c w' result hc hw hanswer => hw.step (hc.late hw).1 hanswer) hfollows
  obtain ⟨clean, result, hrun, hend, hclean⟩ := Program.exists_runs_of_wp (fun _ _ _ _ h => h)
    (fun w c hc => (hc.1.late hc.2).answered horg hsel) hinv
  refine ⟨clean, result, hruns clean result (hrun.mono fun _ _ _ _ h => h.1), ?_, hclean.credited⟩
  obtain ⟨sent', -, houtcome⟩ := hend.outcome hclean.row
  obtain rfl : sent' = sent := houtcome.sent_eq.symm.trans hclean.sent
  exact houtcome

theorem Settled.credited_eq {sel s : Option Subscription}
    (h : Settled chain db r signature sent sel w) (hs : s ∈ w.credited) : s = sel := by
  by_cases hparks : ParksRow (chain.verdict r.select signature)
  · rw [(h.parked hparks).2] at hs
    exact List.mem_singleton.1 hs
  · rw [(h.spared hparks).2] at hs
    cases hs

/-- An outcome is determined by the signature and the credit. -/
theorem Concluded.determined {signature' : String} {sent' : List ChainCall}
    {w' : ResumeWorld chain.State} (h : Concluded chain db r signature sent w)
    (h' : Concluded chain db r signature' sent' w') (hrecord : w.OnRecord r.id signature') :
    w.db.request? r.id = w'.db.request? r.id ∧
      (w.credited = w'.credited → w.db.subscriptions = w'.db.subscriptions) := by
  obtain ⟨sel, -, hrow, -, hparked, hspared⟩ := h
  obtain ⟨sel', -, hrow', -, hparked', hspared'⟩ := h'
  obtain ⟨row, hrecord, hsignature⟩ := hrecord
  obtain rfl := Option.some.inj (hrow.symm.trans hrecord)
  obtain rfl := Option.some.inj ((settlement_txSignature _ _).symm.trans hsignature)
  refine ⟨hrow.trans hrow'.symm, fun hcredited => ?_⟩
  by_cases hparks : ParksRow (chain.verdict r.select signature)
  · obtain ⟨hmeter, hcredits⟩ := hparked hparks
    obtain ⟨hmeter', hcredits'⟩ := hparked' hparks
    have hsel : [sel] = [sel'] := hcredits.symm.trans (hcredited.trans hcredits')
    obtain rfl := List.singleton_inj.1 hsel
    exact hmeter.trans hmeter'.symm
  · exact (hspared hparks).1.trans (hspared' hparks).1.symm

/-- A failure that is parked gives one unit back, and any other outcome none. -/
theorem Concluded.givesBackOne (h : Concluded chain db r signature sent w) :
    w.credited.length ≤ 1 ∧ GivesBackOne db w.db := by
  obtain ⟨sel, -, -, -, hparked, hspared⟩ := h
  by_cases hparks : ParksRow (chain.verdict r.select signature)
  · obtain ⟨hmeter, hcredits⟩ := hparked hparks
    rw [hcredits, List.length_singleton]
    exact ⟨le_rfl, Or.inr ⟨sel, hmeter⟩⟩
  · obtain ⟨hmeter, hcredits⟩ := hspared hparks
    rw [hcredits, List.length_nil]
    exact ⟨Nat.zero_le 1, Or.inl hmeter⟩

end Finish

section Resume

variable (env : WorkerEnv) {web3 : Web3} (chain : SteadyChain web3) (db : Db) (r : ServiceRequest)

/-- The world as `r` has been claimed. -/
def claimedWorld (s : chain.State) : ResumeWorld chain.State := ⟨db, s, [], []⟩

/-- An attempt at `r` that is resumed after each crash, with the signature persisted, comes to
`w'`. -/
def Resumes (s : chain.State) (w' : ResumeWorld chain.State) : Prop :=
  Program.Resumed (resumeAnswers chain.answers r.id) (ResumeWorld.Persisted r.id)
    (ResumeWorld.Ended r.id) (attempt env web3 r.select) (runOnce env web3)
    (claimedWorld chain db s) w'

/-- An attempt at `r` comes to `w'` without a crash. -/
def RunsThrough (s : chain.State) (w' : ResumeWorld chain.State) : Prop :=
  ∃ result, (attempt env web3 r.select).Runs (resumeAnswers chain.answers r.id)
    (claimedWorld chain db s) w' result

/-- The world `w'` is one that an uninterrupted attempt comes to, and all of those that have the
signature and the credit of `w'` agree with it. -/
structure Refines (s : chain.State) (w' : ResumeWorld chain.State) : Prop where
  uninterrupted : ∃ clean, RunsThrough env chain db r s clean ∧ SameEnd r.id clean w'
  determined : ∀ clean signature, RunsThrough env chain db r s clean →
    clean.OnRecord r.id signature → w'.OnRecord r.id signature →
      clean.db.request? r.id = w'.db.request? r.id ∧
        (clean.credited = w'.credited → clean.db.subscriptions = w'.db.subscriptions)
  sent : SentFor r w'.sent
  credited : w'.credited.length ≤ 1 ∧ GivesBackOne db w'.db

variable {env chain db r}

/-- A delivery that is resumed after each crash refines the one without crashes. -/
theorem resumes_refines (hrow : db.request? r.id = some r) (hstatus : r.status = .inProgress)
    (horg : r.orgId ≠ none) {s : chain.State} {w' : ResumeWorld chain.State}
    (h : Resumes env chain db r s w') : Refines env chain db r s w' := by
  have hclaimed : Claimed chain db r (claimedWorld chain db s) := ⟨hrow, rfl, rfl, rfl⟩
  have hattempted : ∀ clean, RunsThrough env chain db r s clean → Attempted chain db r clean :=
    fun clean ⟨result, hrun⟩ => Program.wp_runs _ (attempt_attempts horg hclaimed) hrun
  obtain ⟨hclean, hend⟩ : (∃ clean, RunsThrough env chain db r s clean ∧
      SameEnd r.id clean w') ∧ Attempted chain db r w' := by
    rcases h with hrun | ⟨w₁, point, hhalts, hmay, hnext⟩
    · exact ⟨⟨w', hrun, rfl, rfl, rfl, rfl⟩, hattempted w' hrun⟩
    · obtain ⟨signature, sent, hsent, hpast⟩ := halted_signed horg hclaimed hhalts hmay
      obtain ⟨houtcome, hkept⟩ := restarts_settle hstatus horg hpast hnext
      obtain ⟨sel, hsel, hsettled⟩ := houtcome
      obtain ⟨hrecord, hsent₁⟩ := on_record_of_past hpast
      have hfollows : Follows r signature sent sel w₁ :=
        ⟨hrecord, hsent₁, fun s hs => hsettled.credited_eq (hkept s hs)⟩
      obtain ⟨clean, result, hrun, ⟨sel', hsel', hclean⟩, hcredited⟩ :=
        halted_finishes horg hclaimed hhalts hsel hfollows
      exact ⟨⟨clean, ⟨result, hrun⟩, hclean.sameEnd hsettled hcredited⟩,
        Or.inr ⟨signature, sent, hsent, sel, hsel, hsettled⟩⟩
  refine ⟨hclean, fun clean signature hrun hrecord hrecord' => ?_, ?_, ?_⟩
  · obtain ⟨_, -, hcome⟩ := (hattempted clean hrun).outcome hrecord
    obtain ⟨_, -, hcome'⟩ := hend.outcome hrecord'
    exact hcome.determined hcome' hrecord
  · rcases hend with ⟨hnone, h⟩ | ⟨signature, sent, hsent, h⟩
    · exact ⟨h.sent, fun h => absurd hnone h⟩
    · exact h.sent_eq ▸ hsent
  · rcases hend with ⟨-, h⟩ | ⟨signature, sent, -, h⟩
    · exact ⟨h.credited, h.meter⟩
    · exact h.givesBackOne

end Resume

/-- A chain that gives each call the one answer of an RPC. -/
def Rpc.chain (rpc : Rpc) (web3 : Web3) (hbuilds : rpc.getSolanaAdapter = .ok ()) :
    SteadyChain web3 where
  State := Unit
  answers _ c _ r := r = rpc.answer 0 c
  settles _ c := ⟨(), rpc.answer 0 c, rfl⟩
  builds _ _ _ h := h.trans hbuilds
  confirm _ := do
    let _ ← rpc.confirmTransaction
    let confirmed ← rpc.getTransaction 0
    pure ⟨(confirmed.map TransactionResponse.slot).getD 0,
      confirmed.bind TransactionResponse.blockTime⟩
  getMemo _ := do
    let tx ← rpc.getTransaction 0
    decodeMemo web3 tx
  confirm_eq := by
    rintro signature s s' r ⟨s₁, r₁, hconfirm, hrun⟩
    obtain rfl : r₁ = rpc.confirmTransaction := hconfirm
    cases hconfirmed : rpc.confirmTransaction with
    | error e =>
        rw [hconfirmed] at hrun
        exact hrun.2
    | ok err =>
        rw [hconfirmed] at hrun
        obtain ⟨s₂, r₂, hread, hrun⟩ := hrun
        obtain rfl : r₂ = rpc.getTransaction 0 := hread
        cases hread : rpc.getTransaction 0 with
        | error e =>
            rw [hread] at hrun
            exact hrun.2
        | ok tx =>
            rw [hread] at hrun
            exact hrun.2
  getMemo_eq := by
    rintro signature s s' r ⟨s₁, r₁, hread, hrun⟩
    obtain rfl : r₁ = rpc.getTransaction 0 := hread
    cases hread : rpc.getTransaction 0 with
    | error e =>
        rw [hread] at hrun
        exact hrun.2
    | ok tx =>
        simp only [hread] at hrun
        cases hmemo : decodeMemo web3 tx with
        | error e =>
            simp only [Program.bind, hmemo] at hrun
            rw [hrun.2]
            exact hmemo.symm
        | ok memo =>
            simp only [Program.bind, hmemo] at hrun
            rw [hrun.2]
            exact hmemo.symm

section Example

/-! ### The request of `oneInProgress`, whose confirmation never comes -/

def timeoutRpc : Rpc :=
  { promptRpc (asciiTransaction 7 none none "") with
    confirmTransaction := .error (.error "timeout") }

def timeoutChain : SteadyChain asciiWeb3 := timeoutRpc.chain asciiWeb3 rfl

/-- The transaction that is sent for the request. -/
def oneSent : ChainCall :=
  .sendTransaction (List.replicate 32 0) 890880 claimedRequest.select.expectedMemo

/-- `oneInProgress` once the signature is on record. -/
def onePersisted : Db := oneInProgress.updateRequest "sr-1" { txSignature := some "sig-1" }

/-- `onePersisted` once its request is claimed again. -/
def oneReclaimed : Db := onePersisted.updateRequest "sr-1" { status := some .inProgress }

/-- The failure of the resumed attempt. -/
def resumedFailure : FailServiceRequestInput :=
  ⟨"sr-1", some "org-1", "timeout", some "sig-1"⟩

theorem timeoutChain_answers (db : Db) (sent : List ChainCall) (c : ChainCall) :
    resumeAnswers timeoutChain.answers "sr-1" ⟨db, (), sent, []⟩ (.chain c)
      ⟨db, (), sent ++ DeliveryCall.sends (.chain c), []⟩ (timeoutRpc.answer 0 c) :=
  ⟨rfl, rfl, rfl, rfl, trivial⟩

/-- The attempt dies as it waits for the confirmation. -/
theorem oneInProgress_halts :
    (attempt ⟨none, none⟩ asciiWeb3 claimedRequest.select).HaltsAt
      (resumeAnswers timeoutChain.answers "sr-1") (claimedWorld timeoutChain oneInProgress ())
      ⟨onePersisted, (), [oneSent], []⟩ (.awaiting (.chain (.confirmTransaction "sig-1"))) := by
  have hsigns : resumeAnswers timeoutChain.answers "sr-1" ⟨oneInProgress, (), [oneSent], []⟩
      (.serviceRequestUpdate "sr-1" { txSignature := some "sig-1" })
      ⟨onePersisted, (), [oneSent], []⟩ (.ok (claimedRequest.signed "sig-1")) :=
    ⟨⟨rfl, rfl⟩, rfl, rfl, rfl, trivial⟩
  exact .call (timeoutChain_answers _ _ .getSolanaAdapter) <|
    .call (timeoutChain_answers _ _ .getRentExemptMinimum) <|
    .call (timeoutChain_answers _ _ oneSent) <|
    .call hsigns <| Or.inl ⟨rfl, rfl⟩

/-- The request is claimed again, and parked. -/
theorem onePersisted_runs :
    (runOnce ⟨none, none⟩ asciiWeb3).Runs (resumeAnswers timeoutChain.answers "sr-1")
      ⟨onePersisted, (), [oneSent], []⟩
      ⟨(resumedFailure.commit oneReclaimed (some chargedSubscription)).1, (), [oneSent],
        [some chargedSubscription]⟩ (.ok true) := by
  have hlatest : oneReclaimed.LatestSubscription (.activeOfOrg (some "org-1"))
      (some chargedSubscription) :=
    Db.latestSubscription_of_singleton rfl ⟨rfl, rfl⟩
  have hfinds : resumeAnswers timeoutChain.answers "sr-1" ⟨onePersisted, (), [oneSent], []⟩
      .serviceRequestFindClaimable ⟨onePersisted, (), [oneSent], []⟩
      (.ok (some (claimedRequest.signed "sig-1").select)) :=
    ⟨⟨rfl, _, Db.oldest_of_singleton rfl trivial, rfl⟩, rfl, rfl, rfl, _, rfl, rfl⟩
  have hclaims : resumeAnswers timeoutChain.answers "sr-1" ⟨onePersisted, (), [oneSent], []⟩
      (.serviceRequestClaim "sr-1") ⟨oneReclaimed, (), [oneSent], []⟩ (.ok 1) :=
    ⟨⟨rfl, rfl⟩, rfl, rfl, rfl, trivial⟩
  have hparks : resumeAnswers timeoutChain.answers "sr-1" ⟨oneReclaimed, (), [oneSent], []⟩
      (.failServiceRequest resumedFailure)
      ⟨(resumedFailure.commit oneReclaimed (some chargedSubscription)).1, (), [oneSent],
        [some chargedSubscription]⟩ (.ok true) :=
    ⟨(failServiceRequest_runsAtomically_iff resumedFailure _ _ _).2
      (Or.inl ⟨_, "org-1", _, by decide, rfl, rfl, hlatest, rfl, rfl⟩), rfl, ⟨_, hlatest, rfl, rfl⟩, rfl,
      trivial⟩
  exact .call hfinds <| .call hclaims <|
    .call (timeoutChain_answers _ _ .getSolanaAdapter) <|
    .call (timeoutChain_answers _ _ (.confirmTransaction "sig-1")) <|
    .call hparks <| ⟨rfl, rfl⟩

/-- A worker dies as it waits for the confirmation, and another one resumes the request and
parks it: one transaction has been sent, and one unit is given back. -/
theorem resumes_refines_after_timeout :
    ∃ w' : ResumeWorld timeoutChain.State, w'.sent = [oneSent] ∧
      w'.credited = [some chargedSubscription] ∧
      Resumes ⟨none, none⟩ timeoutChain oneInProgress claimedRequest () w' ∧
      Refines ⟨none, none⟩ timeoutChain oneInProgress claimedRequest () w' := by
  have hresumes : Resumes ⟨none, none⟩ timeoutChain oneInProgress claimedRequest () _ :=
    Or.inr ⟨_, _, oneInProgress_halts, ⟨_, rfl, Option.some_ne_none _⟩, .ends onePersisted_runs⟩
  exact ⟨_, rfl, rfl, hresumes, resumes_refines rfl rfl (Option.some_ne_none _) hresumes⟩

end Example

end EpsDapp
