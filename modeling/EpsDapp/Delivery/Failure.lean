import EpsDapp.Server.Calls
import EpsDapp.Text.Encoding

/-!
# Terminal failure of a delivery

`failServiceRequest` parks a request `FAILED`, gives back its quota unit and
audits the transition. It is the body of one transaction: run with
`Program.RunsAtomically`, all three writes commit or none does.
-/

set_option autoImplicit false

namespace EpsDapp

open Effect ServerProgram

/-- `FailServiceRequestInput`. The source types `orgId` as a string; what the
worker passes is the column, which may be null. -/
structure FailServiceRequestInput where
  serviceRequestId : String
  orgId : Option String
  reason : String
  txSignature : Option String
  deriving DecidableEq

/-- `MAX_REASON_LEN`. -/
def maxReasonLen : ℕ := 500

/-- `WORKER_ACTOR`. -/
def workerActor : String := "system:worker"

/-- The characters of `reason.slice(0, MAX_REASON_LEN)`. Where the cut splits a surrogate
pair, half of it is left at the end, which is no character. -/
def truncateReason (reason : String) : String :=
  String.ofList (takeUtf16 maxReasonLen reason.toList)

/-- The slice of the reason can be stored: its characters fill it, so that it ends in no
half of a surrogate pair, and U+0000, which Postgres rejects, is none of them. -/
def ReasonStorable (reason : String) : Prop :=
  utf16Length (truncateReason reason) = min maxReasonLen (utf16Length reason) ∧
    Char.ofNat 0 ∉ (truncateReason reason).toList

instance : DecidablePred ReasonStorable := fun _ => inferInstanceAs (Decidable (_ ∧ _))

/-- The audit row of a terminal failure. -/
def serviceFailed (input : FailServiceRequestInput) (quotaRestored : Bool) : AuditLog where
  action := "SERVICE_FAILED"
  actorId := workerActor
  targetId := input.serviceRequestId
  metadata := .failed input.orgId (truncateReason input.reason) quotaRestored
    (input.txSignature.filter fun signature => signature != "")

/-- What a terminal failure writes to its row. -/
def FailServiceRequestInput.update (input : FailServiceRequestInput) : ServiceRequestUpdate where
  status := some .failed
  failureReason := some (truncateReason input.reason)

/-- The transaction of `failServiceRequest`; its result is `quotaRestored`. -/
@[irreducible] def failServiceRequest (input : FailServiceRequestInput) : ServerProgram Bool :=
  -- The first statement already carries the reason, and is rejected with it.
  if ReasonStorable input.reason then do
    serviceRequestUpdate input.serviceRequestId input.update
    let quotaRestored ← quota (restoreQuota input.orgId)
    auditLogCreate (serviceFailed input quotaRestored)
    pure quotaRestored
  else throw .textRejected

/-- The database after a terminal failure that credits `sel`, and whether a unit
was given back. -/
def FailServiceRequestInput.commit (input : FailServiceRequestInput) (db : Db)
    (sel : Option Subscription) : Db × Bool :=
  let p := (db.updateRequest input.serviceRequestId input.update).credit sel
  (p.1.audit (serviceFailed input p.2), p.2)

theorem serviceRequestUpdate_runs_iff (db : Db) (id : String) (u : ServiceRequestUpdate)
    (db' : Db) (r : Except Failure Unit) :
    (ServerProgram.serviceRequestUpdate id u).Runs serverAnswers db db' r ↔
      match db.request? id with
      | some _ => db' = db.updateRequest id u ∧ r = .ok ()
      | none => db' = db ∧ r = .error .recordNotFound :=
  Program.runs_perform _ _ _ _

theorem auditLogCreate_runs_iff (db : Db) (a : AuditLog) (db' : Db)
    (r : Except Failure Unit) :
    (ServerProgram.auditLogCreate a).Runs serverAnswers db db' r ↔
      db' = db.audit a ∧ r = .ok () :=
  Program.runs_perform _ _ _ _

theorem quota_restoreQuota_runs_iff (orgId : Option String) (db db' : Db)
    (r : Except Failure Bool) :
    (ServerProgram.quota (restoreQuota orgId)).Runs serverAnswers db db' r ↔
      (orgId = none ∧ db' = db ∧ r = .error .validation) ∨
        ∃ o sel, orgId = some o ∧ db.LatestSubscription (.activeOfOrg orgId) sel ∧
          db' = (db.credit sel).1 ∧ r = .ok (db.credit sel).2 :=
  (runs_quota _ _ _ _ _).trans (restoreQuota_runs_iff orgId db db' r)

/-- The statements of the failure transaction, before it commits or rolls back. -/
theorem failServiceRequest_runs_iff (input : FailServiceRequestInput) (db db' : Db)
    (r : Except Failure Bool) :
    (failServiceRequest input).Runs serverAnswers db db' r ↔
      (ReasonStorable input.reason ∧
        ((∃ row o sel, db.request? input.serviceRequestId = some row ∧ input.orgId = some o ∧
            db.LatestSubscription (.activeOfOrg (some o)) sel ∧
            db' = (input.commit db sel).1 ∧ r = .ok (input.commit db sel).2) ∨
          (db' = db ∧ db.request? input.serviceRequestId = none ∧
            r = .error .recordNotFound) ∨
          (db' = db.updateRequest input.serviceRequestId input.update ∧
            (∃ row, db.request? input.serviceRequestId = some row) ∧
            input.orgId = none ∧ r = .error .validation))) ∨
      (¬ ReasonStorable input.reason ∧ db' = db ∧ r = .error .textRejected) := by
  by_cases hreason : ReasonStorable input.reason
  swap
  · rw [failServiceRequest, if_neg hreason]
    simp [hreason]
  rw [failServiceRequest, if_pos hreason, Program.runs_bind]
  simp only [hreason, true_and, not_true_eq_false, false_and, or_false]
  simp only [serviceRequestUpdate_runs_iff]
  cases hrow : db.request? input.serviceRequestId with
  | none => simp
  | some row =>
      simp only [reduceCtorEq, and_false, exists_false, false_and, or_false, false_or,
        Program.runs_bind, quota_restoreQuota_runs_iff, auditLogCreate_runs_iff,
        Program.runs_pure]
      constructor
      · rintro ⟨_, _, ⟨rfl, -⟩, ⟨restored, _, hcredit, haudit⟩ | ⟨e, hcredit, rfl⟩⟩
        · obtain ⟨o, sel, horg, hsel, rfl, h⟩ := hcredit
          obtain ⟨_, _, ⟨rfl, -⟩, rfl, rfl⟩ := haudit
          cases h
          rw [horg] at hsel
          exact Or.inl ⟨row, o, sel, rfl, horg, hsel, rfl, rfl⟩
        · obtain ⟨horg, rfl, h⟩ := hcredit
          cases h
          exact Or.inr ⟨rfl, ⟨row, rfl⟩, horg, rfl⟩
      · rintro (⟨_, o, sel, -, horg, hsel, rfl, rfl⟩ | ⟨rfl, -, horg, rfl⟩)
        · rw [← horg] at hsel
          exact ⟨(), _, ⟨rfl, trivial⟩,
            Or.inl ⟨_, _, ⟨o, sel, horg, hsel, rfl, rfl⟩, (), _, ⟨rfl, trivial⟩, rfl, rfl⟩⟩
        · exact ⟨(), _, ⟨rfl, trivial⟩, Or.inr ⟨_, ⟨horg, rfl, rfl⟩, rfl⟩⟩

/-- The transaction of a terminal failure commits all three writes, if its reason can be
stored, for a row that exists and has an organization; otherwise it throws and writes
nothing. -/
theorem failServiceRequest_runsAtomically_iff (input : FailServiceRequestInput) (db db' : Db)
    (r : Except Failure Bool) :
    (failServiceRequest input).RunsAtomically serverAnswers db db' r ↔
      (∃ row o sel, ReasonStorable input.reason ∧
          db.request? input.serviceRequestId = some row ∧ input.orgId = some o ∧
          db.LatestSubscription (.activeOfOrg (some o)) sel ∧
          db' = (input.commit db sel).1 ∧ r = .ok (input.commit db sel).2) ∨
        (db' = db ∧ ReasonStorable input.reason ∧
          db.request? input.serviceRequestId = none ∧ r = .error .recordNotFound) ∨
        (db' = db ∧ ReasonStorable input.reason ∧
          (∃ row, db.request? input.serviceRequestId = some row) ∧
          input.orgId = none ∧ r = .error .validation) ∨
        (db' = db ∧ ¬ ReasonStorable input.reason ∧ r = .error .textRejected) := by
  cases r with
  | ok restored =>
      simp only [Program.RunsAtomically, failServiceRequest_runs_iff, reduceCtorEq, and_false,
        or_false]
      constructor
      · rintro ⟨hreason, row, o, sel, hrow, horg, hsel, rfl, h⟩
        exact ⟨row, o, sel, hreason, hrow, horg, hsel, rfl, h⟩
      · rintro ⟨row, o, sel, hreason, hrow, horg, hsel, rfl, h⟩
        exact ⟨hreason, row, o, sel, hrow, horg, hsel, rfl, h⟩
  | error e =>
      simp only [Program.RunsAtomically, failServiceRequest_runs_iff, reduceCtorEq, and_false,
        exists_false, false_or, Except.error.injEq]
      constructor
      · rintro ⟨rfl, _, ⟨hreason, ⟨-, hrow, rfl⟩ | ⟨-, hrow, horg, rfl⟩⟩ | ⟨hreason, -, rfl⟩⟩
        · exact Or.inl ⟨rfl, hreason, hrow, rfl⟩
        · exact Or.inr (Or.inl ⟨rfl, hreason, hrow, horg, rfl⟩)
        · exact Or.inr (Or.inr ⟨rfl, hreason, rfl⟩)
      · rintro (⟨rfl, hreason, hrow, rfl⟩ | ⟨rfl, hreason, hrow, horg, rfl⟩ | ⟨rfl, hreason, rfl⟩)
        · exact ⟨rfl, _, Or.inl ⟨hreason, Or.inl ⟨rfl, hrow, rfl⟩⟩⟩
        · exact ⟨rfl, _, Or.inl ⟨hreason, Or.inr ⟨rfl, hrow, horg, rfl⟩⟩⟩
        · exact ⟨rfl, _, Or.inr ⟨hreason, rfl, rfl⟩⟩

/-- The transaction commits, or throws and leaves the database as it was. -/
theorem failServiceRequest_commits_or_throws {input : FailServiceRequestInput} {db db' : Db}
    {r : Except Failure Bool}
    (h : (failServiceRequest input).RunsAtomically serverAnswers db db' r) :
    (∃ row o sel, ReasonStorable input.reason ∧
        db.request? input.serviceRequestId = some row ∧ input.orgId = some o ∧
        db.LatestSubscription (.activeOfOrg (some o)) sel ∧
        db' = (input.commit db sel).1 ∧ r = .ok (input.commit db sel).2) ∨
      (db' = db ∧ ∃ e, r = .error e) := by
  rcases (failServiceRequest_runsAtomically_iff input db db' r).1 h with
    h | ⟨rfl, -, -, rfl⟩ | ⟨rfl, -, -, -, rfl⟩ | ⟨rfl, -, rfl⟩
  · exact Or.inl h
  · exact Or.inr ⟨rfl, _, rfl⟩
  · exact Or.inr ⟨rfl, _, rfl⟩
  · exact Or.inr ⟨rfl, _, rfl⟩

theorem Db.credit_serviceRequests (db : Db) (sel : Option Subscription) :
    (db.credit sel).1.serviceRequests = db.serviceRequests := by
  cases sel with
  | none => rfl
  | some s =>
      simp only [Db.credit, Db.updateSubscriptionWhere]
      split
      · split
        · rfl
        · rfl
      · rfl

theorem FailServiceRequestInput.commit_serviceRequests (input : FailServiceRequestInput)
    (db : Db) (sel : Option Subscription) :
    (input.commit db sel).1.serviceRequests =
      (db.updateRequest input.serviceRequestId input.update).serviceRequests :=
  Db.credit_serviceRequests _ sel

theorem Db.credit_auditLogs (db : Db) (sel : Option Subscription) :
    (db.credit sel).1.auditLogs = db.auditLogs := by
  cases sel with
  | none => rfl
  | some s =>
      simp only [Db.credit, Db.updateSubscriptionWhere]
      split
      · split
        · rfl
        · rfl
      · rfl

theorem FailServiceRequestInput.commit_auditLogs (input : FailServiceRequestInput)
    (db : Db) (sel : Option Subscription) :
    (input.commit db sel).1.auditLogs =
      db.auditLogs ++ [serviceFailed input (input.commit db sel).2] :=
  congrArg (· ++ _) (Db.credit_auditLogs _ sel)

end EpsDapp
