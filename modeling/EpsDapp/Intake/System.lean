import EpsDapp.Delivery.Broadcast
import EpsDapp.Intake.Notice
import EpsDapp.Intake.Post

/-!
# Staging and delivery together

The two entry points that stage a request and the workers that deliver it, any
number of each, over one database. The HTTP route runs call by call; the
transaction of `createServiceRequest` is one step, which commits with its result
or rolls back and throws. Any statement may throw and any process may die.
-/

set_option autoImplicit false

namespace EpsDapp

open Calendar Effect

/-- The calls of the system. -/
inductive SystemCall
  | server (c : ServerCall)
  | delivery (c : DeliveryCall)
  | createServiceRequest (input : CreateServiceRequestInput)

/-- The answer of each call. -/
@[reducible] def SystemCall.Resp : SystemCall → Type
  | server c => c.Resp
  | delivery c => c.Resp
  | createServiceRequest _ => StagedServiceRequest

abbrev systemSig : Signature := ⟨SystemCall, SystemCall.Resp⟩

abbrev SystemProgram := Program systemSig Failure

/-- What an intake and the libraries it uses are given. -/
structure SystemEnv where
  storage : StorageEnv
  crypto : NodeCrypto
  web3 : Web3
  worker : WorkerEnv

/-- The database and the broadcasts, the object store, and the requests that
`createServiceRequest` has staged. -/
structure SystemWorld extends DeliveryWorld where
  objects : ObjectStore
  intakes : List String

namespace SystemWorld

/-- The transaction of an intake: what has been put stays, and the rest commits
with the result or is rolled back. -/
def Transacts (env : SystemEnv) (input : CreateServiceRequestInput) (w w' : SystemWorld)
    (r : Except Failure StagedServiceRequest) : Prop :=
  ∃ s result, (createServiceRequest env.storage env.crypto input).Runs storageAnswers
      (w.db, w.objects) s result ∧
    w'.objects = s.2 ∧ w'.broadcasts = w.broadcasts ∧
    match r with
    | .ok staged => result = .ok staged ∧ w'.db = s.1 ∧ w'.intakes = staged.id :: w.intakes
    | .error _ => w'.db = w.db ∧ w'.intakes = w.intakes

/-- How the system may answer a call. -/
def Answers (env : SystemEnv) (job : Job) (w : SystemWorld) :
    (c : SystemCall) → SystemWorld → Except Failure c.Resp → Prop
  | .server c, w', r =>
      (c.Exec w.db w'.db r ∨ (w'.db = w.db ∧ ∃ e, r = .error e)) ∧
        w'.broadcasts = w.broadcasts ∧ w'.objects = w.objects ∧ w'.intakes = w.intakes
  | .delivery c, w', r => courierAnswers job w.toDeliveryWorld c w'.toDeliveryWorld r ∧
      w'.objects = w.objects ∧ w'.intakes = w.intakes
  | .createServiceRequest input, w', r => Transacts env input w w' r

/-- What others do meanwhile: a recording lands on the Hedera columns of a row,
objects are put, or other tables are written, the audit trail being appended
to. -/
inductive Drift (w : SystemWorld) : SystemWorld → Prop
  | record (id : String) (u : HederaUpdate) :
      Drift w { w with db := w.db.updateRequest id { hedera := u } }
  | put (objects : ObjectStore) : Drift w { w with objects := w.objects ++ objects }
  | other (db : Db) (hrows : db.serviceRequests = w.db.serviceRequests)
      (haudit : ∃ rows, db.auditLogs = w.db.auditLogs ++ rows) : Drift w { w with db := db }

end SystemWorld

/-- What may run: a request to the route, an intake, or a turn of a worker. -/
inductive SystemEntry (env : SystemEnv) : SystemProgram Unit → Prop
  | post (clientKey : String) (session : Session) (body : Option Json) :
      SystemEntry env ((fun _ => ()) <$>
        (postServiceRequests env.web3 env.worker.evmAppWalletAddress clientKey session body).lift
          (T := systemSig) SystemCall.server fun _ r => r)
  | createServiceRequest (input : CreateServiceRequestInput) :
      SystemEntry env ((fun _ => ()) <$>
        Program.perform (S := systemSig) (.createServiceRequest input))
  | runOnce :
      SystemEntry env ((fun _ => ()) <$>
        (runOnce env.worker env.web3).lift (T := systemSig) SystemCall.delivery fun _ r => r)

/-- The job of a thread after a call; only a worker has one. -/
def Job.watch (job : Job) (c : SystemCall) (r : Except Failure c.Resp) : Job :=
  match c, r with
  | .delivery c, r => job.observe c r
  | _, _ => job

/-- The system. -/
def system (ι : Type) (env : SystemEnv) :
    Machine systemSig Failure Unit ι Job SystemWorld where
  idle := .idle
  observe job c _ r := job.watch c r
  answers := SystemWorld.Answers env
  entry _ := SystemEntry env
  environment := SystemWorld.Drift

/-- The configurations of the threads `ι`. -/
abbrev SystemPool (ι : Type) := Pool systemSig Failure Unit ι Job SystemWorld

/-- No request has been staged yet. -/
def SystemPool.initial {ι : Type} (db : Db) : SystemPool ι :=
  ⟨⟨⟨{ db with serviceRequests := Table.empty }, []⟩, [], []⟩, fun _ => none⟩

/-! ## The protocol -/

/-- A transaction that is sent carries `memo`. -/
def DeliveryCall.SendsMemo (memo : String) : DeliveryCall → Prop
  | .chain (.sendTransaction _ _ m) => m = memo
  | _ => True

/-- An attempt sends no memo but the expected one. -/
theorem attempt_sendsMemo (env : WorkerEnv) (web3 : Web3) (row : ClaimableRequest) :
    (attempt env web3 row).Only (DeliveryCall.SendsMemo row.expectedMemo) := by
  refine (attempt_calls env web3 row).mono fun c hc => ?_
  cases c with
  | chain c =>
      cases c with
      | sendTransaction _ _ _ => exact hc
      | _ => trivial
  | _ => trivial

/-- What a thread may call: the calls of the route, an intake, or those of a
worker, which sends the memo expected of the row it holds. -/
def SystemCall.Allowed (job : Job) : SystemCall → Prop
  | server c => c.OfPost
  | delivery c => job.Allows c ∧
      ∀ row reads, job = .held row reads → c.SendsMemo row.expectedMemo
  | createServiceRequest _ => True

/-- The job a call and its answer lead to. -/
def SystemCall.Follows : Answers systemSig Failure Job := fun job c job' r => job' = job.watch c r

/-- The threads obey the protocol. -/
theorem SystemEntry.conforms {env : SystemEnv} {p : SystemProgram Unit} (h : SystemEntry env p) :
    Machine.Conforms SystemCall.Follows SystemCall.Allowed p .idle := by
  cases h with
  | post clientKey session body =>
      refine (Program.wp_map _ _ _ _).2 ((Program.wp_lift _ _).2 ?_)
      exact (postServiceRequests_only _ _ _ _ _).wp (J := fun _ => True)
        (fun _ _ _ _ _ _ _ => trivial) (fun _ _ h _ => h) trivial
  | createServiceRequest input =>
      exact (Program.wp_map _ _ _ _).2 ((Program.wp_perform _ _ _).2
        ⟨trivial, fun _ _ _ => trivial⟩)
  | runOnce =>
      refine (Program.wp_map _ _ _ _).2 ((Program.wp_lift _ _).2 ?_)
      refine Program.wp_mono _ ?_ (fun _ _ h => h) (fun _ _ _ => trivial)
        (runOnce_conforms_and env.worker env.web3 fun row => attempt_sendsMemo _ _ row)
      rintro job c job' r ⟨r', h, rfl⟩
      exact h

end EpsDapp
