import EpsDapp.Delivery.Failed
import EpsDapp.Effect.Alike

/-!
# The signature in the audit of a failure

A worker that parks a request `FAILED` audits the signature that the row had when it was
claimed. A fresh attempt writes a signature to the row after that, so a failure that comes
later leaves a signature on the row that its audit has not.
-/

set_option autoImplicit false

namespace EpsDapp

open Effect DeliveryProgram

/-- The signature in the detail of an audit row. -/
def AuditMetadata.txSignature : AuditMetadata → Option String
  | .failed _ _ _ txSignature => txSignature
  | _ => none

/-- A database any statement of which may throw, with the exchanges written down. -/
def recordedAnswers : Answers deliverySig Failure (Db × List (Exchange deliverySig Failure)) :=
  faultyAnswers.observed fun trace c r => trace ++ [⟨c, r⟩]

/-- A signature has been written. -/
def SavesSignature : Exchange deliverySig Failure → Prop
  | ⟨.serviceRequestUpdate _ data, .ok _⟩ => data.txSignature ≠ none
  | _ => False

/-- The request `id` has been parked `FAILED`. -/
def Parks (id : String) : Exchange deliverySig Failure → Prop
  | ⟨.failServiceRequest input, .ok _⟩ => input.serviceRequestId = id
  | _ => False

/-- The failure of the request `id` has been audited with the signature of its row. -/
def Db.AuditsSignature (db db' : Db) (id : String) : Prop :=
  ∃ row a, db'.request? id = some row ∧ row.status = .failed ∧
    db'.auditLogs = db.auditLogs ++ [a] ∧ a.action = "SERVICE_FAILED" ∧ a.targetId = id ∧
    a.metadata.txSignature = row.txSignature

/-- The request had a signature on record, or has got none since. -/
def Db.KeepsSignature (db : Db) (trace : List (Exchange deliverySig Failure)) (id : String) : Prop :=
  ∃ row, db.request? id = some row ∧
    ((∃ signature, row.txSignature = some signature ∧ signature ≠ "") ∨
      row.txSignature = none ∧ ∀ e ∈ trace, ¬ SavesSignature e)

/-! ## What an attempt calls before it fails -/

/-- The calls of an attempt at the request `id` before its failure: it writes a signature only
if there is none on record. -/
def DeliveryCall.Attempts (id : String) (recorded : Option String) : DeliveryCall → Prop
  | serviceRequestUpdate i data => i = id ∧ (data.txSignature = none ∨ recorded = none)
  | chain _ | record _ => True
  | _ => False

theorem processServiceRequest_attempts (env : WorkerEnv) (web3 : Web3) (row : ClaimableRequest) :
    (processServiceRequest env web3 row).Only (DeliveryCall.Attempts row.id row.txSignature) := by
  have hchain : ∀ c, (Program.perform (S := deliverySig) (.chain c) :
      DeliveryProgram c.Resp).Only (DeliveryCall.Attempts row.id row.txSignature) := fun _ =>
    (Program.only_perform _).2 trivial
  rw [processServiceRequest_eq]
  refine Program.only_bind (hchain _) fun _ => Program.only_bind ?_ fun signature => ?_
  · rw [signatureOf]
    split
    · exact Program.only_pure _
    · rename_i hnone
      refine Program.only_bind (hchain _) fun lamports => Program.only_bind ?_ fun signature => ?_
      · simp only [solanaAdapter]
        split
        · exact hchain _
        · exact Program.only_throw _
      · exact Program.only_bind ((Program.only_perform _).2 ⟨rfl, Or.inr hnone⟩)
          fun _ => Program.only_pure _
  · refine Program.only_bind ?_ fun confirmation => Program.only_bind ?_ fun memo => ?_
    · refine Program.only_bind (hchain _) fun _ => ?_
      exact Program.only_bind (hchain _) fun _ => Program.only_pure _
    · refine Program.only_bind (hchain _) fun tx => ?_
      split
      · exact Program.only_pure _
      · exact Program.only_throw _
    · split
      · exact Program.only_throw _
      · refine Program.only_bind ((Program.only_perform _).2 ⟨rfl, Or.inl rfl⟩) fun _ => ?_
        refine Program.only_bind ((Program.only_perform _).2 trivial) fun _ => ?_
        exact (Program.only_perform _).2 trivial

section Attempt

variable {db : Db} {row : ServiceRequest} {s s' : Db × List (Exchange deliverySig Failure)}

/-- The worker is at work on the row that was `row` when the run began. -/
structure AtWorkOn (db : Db) (row : ServiceRequest) (s : Db × List (Exchange deliverySig Failure)) :
    Prop where
  before : db.request? row.id = some row
  auditLogs : s.1.auditLogs = db.auditLogs
  parks : ∀ e ∈ s.2, ∀ id, ¬ Parks id e
  signature : ∃ r, s.1.request? row.id = some r ∧
    (r.txSignature = row.txSignature ∧ (∀ e ∈ s.2, ¬ SavesSignature e) ∨
      row.txSignature = none ∧ r.txSignature ≠ none ∧ ∃ e ∈ s.2, SavesSignature e)

theorem forall_mem_concat {α : Type} {P : α → Prop} {l : List α} {a : α} (h : ∀ b ∈ l, P b)
    (ha : P a) : ∀ b ∈ l ++ [a], P b :=
  List.forall_mem_append.2 ⟨h, List.forall_mem_singleton.2 ha⟩

theorem AtWorkOn.next (h : AtWorkOn db row s) {c : DeliveryCall} {r : Except Failure c.Resp}
    (hanswer : recordedAnswers s c s' r) (haudits : c.audits r = [])
    (hparks : ∀ id, ¬ Parks id ⟨c, r⟩)
    (hsignature : ∃ r', s'.1.request? row.id = some r' ∧
      (r'.txSignature = row.txSignature ∧ (∀ e ∈ s'.2, ¬ SavesSignature e) ∨
        row.txSignature = none ∧ r'.txSignature ≠ none ∧ ∃ e ∈ s'.2, SavesSignature e)) :
    AtWorkOn db row s' := by
  obtain ⟨hfaulty, htrace⟩ := hanswer
  refine ⟨h.before, ?_, htrace ▸ forall_mem_concat h.parks hparks, hsignature⟩
  rw [auditLogs_of_faultyAnswers hfaulty, haudits, List.append_nil, h.auditLogs]

/-- A call that saves no signature. -/
theorem AtWorkOn.quiet (h : AtWorkOn db row s) {c : DeliveryCall} {r : Except Failure c.Resp}
    (hanswer : recordedAnswers s c s' r) (haudits : c.audits r = [])
    (hparks : ∀ id, ¬ Parks id ⟨c, r⟩) (hsaves : ¬ SavesSignature ⟨c, r⟩)
    (hwrite : ∀ i u, c.write r = some (i, u) → i = row.id ∧ u.txSignature = none) :
    AtWorkOn db row s' := by
  obtain ⟨r₀, hr₀, hsignature⟩ := h.signature
  have hrow : ∃ r', s'.1.request? row.id = some r' ∧ r'.txSignature = r₀.txSignature := by
    rw [request?_of_faultyAnswers hanswer.1]
    cases hw : c.write r with
    | none => exact ⟨r₀, hr₀, rfl⟩
    | some p =>
        obtain ⟨i, u⟩ := p
        obtain ⟨rfl, hnone⟩ := hwrite i u hw
        refine ⟨u.apply r₀, ?_, ?_⟩
        · exact (if_pos rfl).trans (by rw [hr₀, Option.map_some])
        · rw [apply_txSignature, hnone, Option.none_or]
  obtain ⟨r', hr', heq⟩ := hrow
  refine h.next hanswer haudits hparks ⟨r', hr', ?_⟩
  rw [heq, hanswer.2]
  rcases hsignature with ⟨hsame, hnone⟩ | ⟨hrow, hsome, e, he, hsaved⟩
  · exact Or.inl ⟨hsame, forall_mem_concat hnone hsaves⟩
  · exact Or.inr ⟨hrow, hsome, e, List.mem_append_left _ he, hsaved⟩

/-- A call of the attempt keeps the account of the signature. -/
theorem AtWorkOn.step (h : AtWorkOn db row s) {c : DeliveryCall} {r : Except Failure c.Resp}
    (hc : c.Attempts row.id row.txSignature) (hanswer : recordedAnswers s c s' r) :
    AtWorkOn db row s' := by
  cases c with
  | chain _ | record _ => exact h.quiet hanswer rfl (fun _ h => h) (fun h => h) fun _ _ h => by cases h
  | serviceRequestUpdate i data =>
      obtain ⟨rfl, hsignature⟩ := hc
      cases r with
      | error e => exact h.quiet hanswer rfl (fun _ h => h) (fun h => h) fun _ _ h => by cases h
      | ok row' =>
          cases hdata : data.txSignature with
          | none =>
              refine h.quiet hanswer rfl (fun _ h => h) (fun h => h hdata) ?_
              rintro _ _ ⟨⟩
              exact ⟨rfl, hdata⟩
          | some signature =>
              -- The signature that a fresh attempt has sent for.
              have hnone : row.txSignature = none := by
                rcases hsignature with h | h
                · rw [hdata] at h
                  cases h
                · exact h
              obtain ⟨r₀, hr₀, -⟩ := h.signature
              refine h.next hanswer rfl (fun _ h => h) ⟨data.apply r₀, ?_, Or.inr ⟨hnone, ?_, ?_⟩⟩
              · rw [request?_of_faultyAnswers hanswer.1]
                exact (if_pos rfl).trans (by rw [hr₀, Option.map_some])
              · rw [apply_txSignature, hdata, Option.some_or]
                exact Option.some_ne_none _
              · refine ⟨⟨.serviceRequestUpdate row.id data, .ok row'⟩, ?_, ?_⟩
                · rw [hanswer.2]
                  exact List.mem_append_right _ (List.mem_singleton_self _)
                show data.txSignature ≠ none
                rw [hdata]
                exact Option.some_ne_none _
  | _ => exact hc.elim

/-- If a run has parked the request, it has audited the signature exactly if it has kept it. -/
def Audits (db : Db) (s : Db × List (Exchange deliverySig Failure)) : Prop :=
  ∀ id, (∃ e ∈ s.2, Parks id e) → (db.AuditsSignature s.1 id ↔ db.KeepsSignature s.2 id)

theorem audits_of_not_parks (h : ∀ e ∈ s.2, ∀ id, ¬ Parks id e) : Audits db s := by
  rintro id ⟨e, he, hparks⟩
  exact absurd hparks (h e he id)

/-- The failure of the row. -/
theorem AtWorkOn.fail (h : AtWorkOn db row s) {input : FailServiceRequestInput}
    (hid : input.serviceRequestId = row.id) (hsignature : input.txSignature = row.txSignature)
    {r : Except Failure Bool} (hanswer : recordedAnswers s (.failServiceRequest input) s' r) :
    Audits db s' := by
  cases r with
  | error e =>
      refine audits_of_not_parks ?_
      rw [hanswer.2]
      exact forall_mem_concat h.parks fun _ h => h
  | ok restored =>
      rintro id ⟨e, he, hparks⟩
      have hid' : id = row.id := by
        rw [hanswer.2, List.mem_append, List.mem_singleton] at he
        rcases he with he | rfl
        · exact absurd hparks (h.parks e he id)
        · exact Eq.trans (Eq.symm hparks) hid
      subst hid'
      obtain ⟨r₀, hr₀, haccount⟩ := h.signature
      have hrow : s'.1.request? row.id = some (input.update.apply r₀) := by
        rw [request?_of_faultyAnswers hanswer.1]
        refine (if_pos hid.symm).trans ?_
        rw [hid, hr₀, Option.map_some]
      have hlogs : s'.1.auditLogs = db.auditLogs ++ [serviceFailed input restored] := by
        rw [auditLogs_of_faultyAnswers hanswer.1, h.auditLogs]
        rfl
      have hsaves : (∀ e ∈ s'.2, ¬ SavesSignature e) ↔ ∀ e ∈ s.2, ¬ SavesSignature e := by
        rw [hanswer.2]
        exact ⟨fun h e he => h e (List.mem_append_left _ he),
          fun h => forall_mem_concat h fun h => h⟩
      have haudit : db.AuditsSignature s'.1 row.id ↔
          row.txSignature.filter (fun signature => signature != "") = r₀.txSignature := by
        constructor
        · rintro ⟨row', a, hrow', -, hlogs', -, -, heq⟩
          obtain rfl := Option.some.inj (hrow.symm.trans hrow')
          obtain rfl := List.singleton_injective (List.append_cancel_left (hlogs.symm.trans hlogs'))
          rw [← hsignature]
          exact heq
        · intro heq
          refine ⟨_, _, hrow, rfl, hlogs, rfl, hid, ?_⟩
          rw [← hsignature] at heq
          exact heq
      have hkeeps : db.KeepsSignature s'.2 row.id ↔
          (∃ signature, row.txSignature = some signature ∧ signature ≠ "") ∨
            row.txSignature = none ∧ ∀ e ∈ s.2, ¬ SavesSignature e := by
        rw [← hsaves]
        constructor
        · rintro ⟨row', hrow', hkeeps⟩
          obtain rfl := Option.some.inj (h.before.symm.trans hrow')
          exact hkeeps
        · intro hkeeps
          exact ⟨row, h.before, hkeeps⟩
      rw [haudit, hkeeps]
      rcases haccount with ⟨hsame, hnone⟩ | ⟨hfresh, hsome, e, he, hsaved⟩
      · rw [hsame]
        cases hrecorded : row.txSignature with
        | none => exact iff_of_true rfl (Or.inr ⟨rfl, hnone⟩)
        | some signature => simp [Option.filter]
      · rw [hfresh]
        refine iff_of_false (fun heq => hsome heq.symm) ?_
        rintro (⟨_, h, -⟩ | ⟨-, h⟩)
        · cases h
        · exact h e he hsaved

/-- An attempt at the row, with its failure handler. -/
theorem attempt_audits (h : AtWorkOn db row s) (env : WorkerEnv) (web3 : Web3)
    {claimed : ClaimableRequest} (hid : claimed.id = row.id)
    (hsignature : claimed.txSignature = row.txSignature) :
    (attempt env web3 claimed).wp recordedAnswers (fun _ _ => True) (fun _ s => Audits db s) s := by
  have hprocess : (processServiceRequest env web3 claimed).wp recordedAnswers (fun _ _ => True)
      (fun _ s => AtWorkOn db row s) s := by
    refine (processServiceRequest_attempts env web3 claimed).wp ?_ (fun _ _ _ _ => trivial) h
    intro s c s' r hc h hanswer
    rw [hid, hsignature] at hc
    exact h.step hc hanswer
  refine Program.wp_catch hprocess (fun _ _ h => audits_of_not_parks h.parks) fun e s h => ?_
  refine (Program.wp_bind _ _ _ _).2 ((Program.wp_perform _ _ _).2 ⟨trivial, ?_⟩)
  intro s' r hanswer
  have haudits : Audits db s' := h.fail hid hsignature hanswer
  cases r with
  | error e => exact haudits
  | ok restored => exact haudits

end Attempt

/-- The calls of a claim. -/
def DeliveryCall.Claims : DeliveryCall → Prop
  | serviceRequestFindClaimable | serviceRequestClaim _ => True
  | _ => False

/-- Nothing has been parked, and no signature written. -/
def Untouched (trace : List (Exchange deliverySig Failure)) : Prop :=
  ∀ e ∈ trace, (∀ id, ¬ Parks id e) ∧ ¬ SavesSignature e

theorem Untouched.claim {s s' : Db × List (Exchange deliverySig Failure)} {c : DeliveryCall}
    {r : Except Failure c.Resp} (h : Untouched s.2) (hanswer : recordedAnswers s c s' r)
    (hc : c.Claims) : Untouched s'.2 := by
  have hnext : (∀ id, ¬ Parks id ⟨c, r⟩) ∧ ¬ SavesSignature ⟨c, r⟩ := by
    cases c with
    | serviceRequestFindClaimable | serviceRequestClaim _ => exact ⟨fun _ h => h, fun h => h⟩
    | _ => exact hc.elim
  rw [Untouched, hanswer.2]
  exact forall_mem_concat h hnext

theorem Untouched.audits {db : Db} {s : Db × List (Exchange deliverySig Failure)}
    (h : Untouched s.2) : Audits db s :=
  audits_of_not_parks fun e he => (h e he).1

theorem runOnce_audits (env : WorkerEnv) (web3 : Web3) (db : Db) :
    (runOnce env web3).wp recordedAnswers (fun _ _ => True) (fun _ s => Audits db s) (db, []) := by
  have hstart : Untouched [] := fun _ he => (List.not_mem_nil he).elim
  refine wp_runOnce env web3 trivial (fun s e h => ?_) (fun s h => ?_) fun s row h => ?_
  · exact Untouched.audits (hstart.claim h trivial)
  · exact Untouched.audits (hstart.claim h trivial)
  have htrace : Untouched s.2 := hstart.claim h trivial
  obtain ⟨hdb, r₀, hrow, hclaimable, rfl⟩ := candidate_of_faultyAnswers h.1
  refine ⟨trivial, fun s' e h' => ?_, fun s' h' => ?_, fun s' n h' => ?_⟩
  · exact Untouched.audits (htrace.claim h' trivial)
  · exact Untouched.audits (htrace.claim h' trivial)
  have htrace' : Untouched s'.2 := htrace.claim h' trivial
  obtain ⟨r₁, hr₁, -, hclaimed⟩ := claimable_of_wins
    (o := .serviceRequestClaim r₀.id) (r := .ok (n + 1)) rfl h'.1
  have hlogs := auditLogs_of_faultyAnswers h'.1
  rw [hdb] at hr₁ hlogs
  obtain rfl := Option.some.inj (hr₁.symm.trans hrow)
  have hwork : AtWorkOn db r₁ s' := by
    refine ⟨hrow, ?_, fun e he => (htrace' e he).1, _, hclaimed, ?_⟩
    · exact hlogs.trans (List.append_nil _)
    · exact Or.inl ⟨rfl, fun e he => (htrace' e he).2⟩
  exact attempt_audits hwork env web3 rfl rfl

/-- A turn of the worker that parks a request audits the signature that is stored exactly if
the request had one on record when it was claimed, or gets none in the turn. -/
theorem auditsSignature_iff {env : WorkerEnv} {web3 : Web3} {db db' : Db}
    {trace : List (Exchange deliverySig Failure)} {r : Except Failure Bool} {id : String}
    (hrun : (runOnce env web3).Runs recordedAnswers (db, []) (db', trace) r)
    (hparks : ∃ e ∈ trace, Parks id e) :
    db.AuditsSignature db' id ↔ db.KeepsSignature trace id :=
  Program.wp_runs _ (runOnce_audits env web3 db) hrun id hparks

/-! ## Two failures of the request of `oneStaged` -/

section Example

/-- `oneInProgress` once its request is parked `FAILED` before it is sent. -/
def oneUnsent : Db :=
  (FailServiceRequestInput.commit ⟨"sr-1", some "org-1", "blockhash not found", none⟩ oneInProgress
    (some chargedSubscription)).1

theorem faulty_fails {reason : String} (hreason : ReasonStorable reason) {db : Db}
    {row : ServiceRequest} (hrow : db.request? "sr-1" = some row)
    (hsubscriptions : db.subscriptions.rows = [chargedSubscription]) :
    faultyAnswers db (.failServiceRequest ⟨"sr-1", some "org-1", reason, none⟩)
      (FailServiceRequestInput.commit ⟨"sr-1", some "org-1", reason, none⟩ db
        (some chargedSubscription)).1
      (.ok (FailServiceRequestInput.commit ⟨"sr-1", some "org-1", reason, none⟩ db
        (some chargedSubscription)).2) := by
  have hlatest : db.LatestSubscription (.activeOfOrg (some "org-1")) (some chargedSubscription) :=
    Db.latestSubscription_of_singleton hsubscriptions ⟨rfl, rfl⟩
  exact faultyAnswers_parks hreason hrow rfl hlatest

theorem recorded {db db' : Db} {c : DeliveryCall} {r : Except Failure c.Resp}
    (h : faultyAnswers db c db' r) (trace : List (Exchange deliverySig Failure)) :
    recordedAnswers (db, trace) c (db', trace ++ [⟨c, r⟩]) r := ⟨h, rfl⟩

theorem faulty_finds : faultyAnswers oneStaged .serviceRequestFindClaimable oneStaged
    (.ok (some stagedRequest.select)) := Or.inl ⟨rfl, some stagedRequest, oneStaged_oldest, rfl⟩

theorem faulty_claims : faultyAnswers oneStaged (.serviceRequestClaim "sr-1") oneInProgress
    (.ok 1) := Or.inl ⟨rfl, rfl⟩

theorem faulty_chain (db : Db) (c : ChainCall) (r : Except Failure c.Resp) :
    faultyAnswers db (.chain c) db r := Or.inl rfl

theorem faulty_signs : faultyAnswers oneInProgress
    (.serviceRequestUpdate "sr-1" { txSignature := some "sig-1" }) oneSigned
    (.ok { claimedRequest with txSignature := some "sig-1" }) := Or.inl ⟨rfl, rfl⟩

/-- The exchanges of a turn that claims the request of `oneStaged`, up to the broadcast, which
is answered with `sent`. -/
def broadcastTrace (sent : Except Failure String) : List (Exchange deliverySig Failure) :=
  [⟨.serviceRequestFindClaimable, .ok (some stagedRequest.select)⟩,
    ⟨.serviceRequestClaim "sr-1", .ok 1⟩, ⟨.chain .getSolanaAdapter, .ok ()⟩,
    ⟨.chain .getRentExemptMinimum, .ok (890880 : ℕ)⟩,
    ⟨.chain (.sendTransaction (List.replicate 32 0) 890880 "||sr-1"), sent⟩]

/-- The exchanges of a turn whose confirmation times out. -/
def timeoutTrace : List (Exchange deliverySig Failure) :=
  broadcastTrace (.ok "sig-1") ++
    [⟨.serviceRequestUpdate "sr-1" { txSignature := some "sig-1" },
        .ok { claimedRequest with txSignature := some "sig-1" }⟩,
      ⟨.chain (.confirmTransaction "sig-1"), .error (.error "timeout")⟩,
      ⟨.failServiceRequest ⟨"sr-1", some "org-1", "timeout", none⟩, .ok true⟩]

/-- The exchanges of a turn whose broadcast fails. -/
def unsentTrace : List (Exchange deliverySig Failure) :=
  broadcastTrace (.error (.error "blockhash not found")) ++
    [⟨.failServiceRequest ⟨"sr-1", some "org-1", "blockhash not found", none⟩, .ok true⟩]

theorem timeout_runs : (runOnce ⟨none, none⟩ asciiWeb3).Runs recordedAnswers (oneStaged, [])
    (oneParked "timeout", timeoutTrace) (.ok true) := by
  refine .call (recorded faulty_finds _) <| .call (recorded faulty_claims _) ?_
  refine .call (recorded (faulty_chain _ .getSolanaAdapter (.ok ())) _) ?_
  refine .call (recorded (faulty_chain _ .getRentExemptMinimum (.ok (890880 : ℕ))) _) ?_
  refine .call (recorded (faulty_chain _ (.sendTransaction _ _ _) (.ok "sig-1")) _) ?_
  refine .call (recorded faulty_signs _) ?_
  refine .call (recorded (faulty_chain _ (.confirmTransaction "sig-1")
    (.error (.error "timeout"))) _) ?_
  have hreason : ReasonStorable "timeout" := by decide
  refine .call (recorded (faulty_fails hreason rfl rfl) _) ?_
  exact ⟨rfl, rfl⟩

theorem unsent_runs : (runOnce ⟨none, none⟩ asciiWeb3).Runs recordedAnswers (oneStaged, [])
    (oneUnsent, unsentTrace) (.ok true) := by
  refine .call (recorded faulty_finds _) <| .call (recorded faulty_claims _) ?_
  refine .call (recorded (faulty_chain _ .getSolanaAdapter (.ok ())) _) ?_
  refine .call (recorded (faulty_chain _ .getRentExemptMinimum (.ok (890880 : ℕ))) _) ?_
  refine .call (recorded (faulty_chain _ (.sendTransaction _ _ _)
    (.error (.error "blockhash not found"))) _) ?_
  have hreason : ReasonStorable "blockhash not found" := by decide
  refine .call (recorded (faulty_fails hreason rfl rfl) _) ?_
  exact ⟨rfl, rfl⟩

theorem exists_parks {reason : String} {trace : List (Exchange deliverySig Failure)}
    (h : ⟨.failServiceRequest ⟨"sr-1", some "org-1", reason, none⟩, .ok true⟩ ∈ trace) :
    ∃ e ∈ trace, Parks "sr-1" e :=
  ⟨_, h, rfl⟩

/-- The confirmation of a fresh attempt times out: its signature is on the row, and not in the
audit. -/
theorem not_auditsSignature_of_timeout :
    ¬ ∀ env web3 db db' trace r id, (runOnce env web3).Runs recordedAnswers (db, []) (db', trace) r →
      (∃ e ∈ trace, Parks id e) → db.AuditsSignature db' id := by
  intro h
  obtain ⟨row, a, hrow, -, hlogs, -, -, heq⟩ := h _ _ _ _ _ _ "sr-1" timeout_runs
    (exists_parks (List.mem_append_right _ (List.mem_cons_of_mem _ (List.mem_cons_of_mem _
      List.mem_cons_self))))
  obtain rfl := Option.some.inj hrow
  have hlogs : oneStaged.auditLogs ++ _ = oneStaged.auditLogs ++ [a] := hlogs
  obtain rfl := List.singleton_injective (List.append_cancel_left hlogs)
  cases heq

/-- A request that could not be sent is audited without a signature, and has none. -/
theorem auditsSignature_of_unsent : oneStaged.AuditsSignature oneUnsent "sr-1" := by
  refine (auditsSignature_iff unsent_runs (exists_parks (List.mem_append_right _
    List.mem_cons_self))).2
    ⟨stagedRequest, rfl, Or.inr ⟨rfl, ?_⟩⟩
  simp [unsentTrace, broadcastTrace, SavesSignature]

end Example

end EpsDapp
