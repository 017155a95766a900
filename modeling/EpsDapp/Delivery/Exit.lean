import EpsDapp.Delivery.Confirmed
import EpsDapp.Delivery.Drain
import EpsDapp.Effect.Restart
import EpsDapp.Hedera.Noninterference

/-!
# The exit of the worker

`processServiceRequest` starts two recordings for a request it has confirmed and
awaits neither. They end when Hedera lets them, one after the other or not at all,
while the drain goes on; `main` disconnects and exits as soon as the drain has
returned, or thrown. A recording for which Hedera is not configured is over before
it awaits anything. So the exit is clean, however long the recordings take, exactly
if the drain confirms no request, or no recording is configured.
-/

set_option autoImplicit false

namespace EpsDapp

open Effect DeliveryProgram

/-- The calls of `main`: those of the drain, `prisma.$disconnect` and
`process.exit`. -/
inductive MainCall
  | delivery (c : DeliveryCall)
  | disconnect
  | exit (code : ℕ)

@[reducible] def MainCall.Resp : MainCall → Type
  | delivery c => c.Resp
  | disconnect => Unit
  | exit _ => Unit

abbrev mainSig : Signature := ⟨MainCall, MainCall.Resp⟩

abbrev MainProgram := Program mainSig Failure

/-- The drain, as a part of `main`. -/
def drainProgram (env : WorkerEnv) (web3 : Web3) (fuel : ℕ) : MainProgram (Option ℕ) :=
  (drain env web3 fuel).lift (S := deliverySig) (T := mainSig) MainCall.delivery fun _ r => r

/-- `main` with `DRAIN_AND_EXIT=1`, and the handler of its promise. A drain that is cut off by
the fuel has not come to the exit yet. -/
def workerMain (env : WorkerEnv) (web3 : Web3) (fuel : ℕ) : MainProgram Unit :=
  tryCatch (do
    match ← drainProgram env web3 fuel with
    | none => pure ()
    | some _ => do
        Program.perform (S := mainSig) .disconnect
        Program.perform (S := mainSig) (.exit 0))
    fun _ => Program.perform (S := mainSig) (.exit 1)

/-- The worker with its database, and the recordings it has started, as far as they have
come. -/
abbrev MainWorld := (Job × Db) × List (RecordingProgram Unit)

/-- The recordings go on by themselves: some of their calls are answered, in any way. -/
def GoesOn (w w' : MainWorld) : Prop :=
  w'.1.1 = w.1.1 ∧ Relation.ReflTransGen (Progress fun _ _ _ _ => True)
    ⟨w.1.2, (), w.2, []⟩ ⟨w'.1.2, (), w'.2, []⟩

/-- The answers to `main`, whose drain meets the RPC given for each row. The recordings may
have gone on before a call is answered. -/
def mainAnswers (hedera : HederaVars) (rpc : String → Rpc) : Answers mainSig Failure MainWorld :=
  fun w c w' r => ∃ w₁, GoesOn w w₁ ∧ match c, r with
    | .delivery c, r =>
        (rpcAnswers deliveryAnswers rpc).observed (startRecording hedera) w₁ c w' r
    | .disconnect, _ => w' = w₁
    | .exit _, r => w' = w₁ ∧ r = .ok ()

/-- The recordings have all ended. -/
def TasksOver (tasks : List (RecordingProgram Unit)) : Prop := ∀ task ∈ tasks, ∃ r, task = .done r

/-- Whenever `main` stands at `process.exit`, all recordings have ended. -/
def ExitsClean (env : WorkerEnv) (hedera : HederaVars) (web3 : Web3) (rpc : String → Rpc)
    (db : Db) : Prop :=
  ∀ fuel w code, (workerMain env web3 fuel).HaltsAt (mainAnswers hedera rpc) ((.idle, db), []) w
    (.awaiting (.exit code)) → TasksOver w.2

/-- The drain may come to confirm the request: it is delivered, and no older request has a
failure that cannot be parked, at which the drain would throw. -/
def Db.Confirmable (db : Db) (rpc : String → Rpc) (web3 : Web3) (r : ServiceRequest) : Prop :=
  r ∈ db.backlog ∧ (rpc r.id).Delivers web3 r.select ∧
    ∀ r' ∈ db.backlog, r'.createdAt < r.createdAt → (rpc r'.id).Parks web3 r'

/-- Some recording awaits Hedera: a topic or a collection is set for `recordOnHedera`, or
`mintAndTransferProofNFT` has its credentials and is not refused on mainnet. -/
def HederaVars.Awaits (hedera : HederaVars) : Prop :=
  truthy hedera.hcsTopicId ≠ none ∨ truthy hedera.nftTokenId ≠ none ∨
    (truthy hedera.operatorId ≠ none ∧ truthy hedera.operatorKey ≠ none ∧
      (hedera.isMainnet && hedera.allowMainnet != some "true") = false)

/-- The turn of an oldest row makes no further request confirmable. -/
theorem Db.Confirmable.of_turn {db db' : Db} {rpc : String → Rpc} {web3 : Web3}
    {r r' : ServiceRequest} (hr : r ∈ db.backlog)
    (hturn : Settles (rpc r.id) web3 r db (.ok ()) db') (h : db'.Confirmable rpc web3 r') :
    db.Confirmable rpc web3 r' := by
  obtain ⟨hparks, r₁, hid, hterminal, hreplaces⟩ := hturn
  have hperm := hreplaces.backlog_perm hr hid hterminal
  refine ⟨hperm.mem_iff.2 (.tail _ h.1), h.2.1, fun r₂ hr₂ hlt => ?_⟩
  rcases List.mem_cons.1 (hperm.mem_iff.1 hr₂) with rfl | hr₂
  · exact hparks
  · exact h.2.2 r₂ hr₂ hlt

/-- A confirmable request is still so after the turn of another. -/
theorem Db.Confirmable.turn {db db' : Db} {rpc : String → Rpc} {web3 : Web3}
    {r r' : ServiceRequest} (h : db.Confirmable rpc web3 r') (hr : r ∈ db.backlog) (hne : r' ≠ r)
    (hturn : Settles (rpc r.id) web3 r db (.ok ()) db') : db'.Confirmable rpc web3 r' := by
  obtain ⟨-, r₁, hid, hterminal, hreplaces⟩ := hturn
  have hperm := hreplaces.backlog_perm hr hid hterminal
  refine ⟨(List.mem_cons.1 (hperm.mem_iff.1 h.1)).resolve_left hne, h.2.1, ?_⟩
  exact fun r₂ hr₂ => h.2.2 r₂ (hperm.mem_iff.2 (.tail _ hr₂))

section Awaits

variable {hedera : HederaVars}

/-- `recordOnHedera` is over at once exactly if neither a topic nor a collection is set. -/
theorem recordOnHedera_done_iff (payload : HederaPayload) :
    (∃ r, (Recording.recordOnHedera payload).task hedera = .done r) ↔
      truthy hedera.hcsTopicId = none ∧ truthy hedera.nftTokenId = none := by
  simp only [Recording.task, HederaProgram.recordOnHedera, HederaProgram.submitToHCS,
    HederaProgram.mintProofNFT]
  cases truthy hedera.hcsTopicId with
  | none =>
      cases truthy hedera.nftTokenId with
      | none => exact iff_of_true ⟨_, rfl⟩ ⟨rfl, rfl⟩
      | some tokenId => exact iff_of_false nofun nofun
  | some topicId =>
      cases truthy hedera.nftTokenId with
      | none => exact iff_of_false nofun nofun
      | some tokenId => exact iff_of_false nofun nofun

/-- `mintAndTransferProofNFT` is over at once exactly if it has no credentials, or is refused
on mainnet. -/
theorem mintAndTransferProofNFT_done_iff (caseId : String) (hcsTopicId : Option String) :
    (∃ r, (Recording.mintAndTransferProofNFT caseId hcsTopicId).task hedera = .done r) ↔
      ¬ (truthy hedera.operatorId ≠ none ∧ truthy hedera.operatorKey ≠ none ∧
        (hedera.isMainnet && hedera.allowMainnet != some "true") = false) := by
  simp only [Recording.task, HederaProgram.mintAndTransferProofNFT]
  cases truthy hedera.operatorId with
  | none => exact iff_of_true ⟨_, rfl⟩ (by simp)
  | some operatorId =>
      cases truthy hedera.operatorKey with
      | none => exact iff_of_true ⟨_, rfl⟩ (by simp)
      | some operatorKey =>
          cases hedera.isMainnet && hedera.allowMainnet != some "true" with
          | true => exact iff_of_true ⟨_, rfl⟩ (by simp)
          | false => exact iff_of_false nofun (by simp)

/-- Where nothing is configured, a recording is over at once. -/
theorem task_done_of_not_awaits (h : ¬ hedera.Awaits) (recording : Recording) :
    ∃ r, recording.task hedera = .done r := by
  simp only [HederaVars.Awaits, not_or, not_not] at h
  cases recording with
  | recordOnHedera payload => exact (recordOnHedera_done_iff payload).2 ⟨h.1, h.2.1⟩
  | mintAndTransferProofNFT caseId hcsTopicId =>
      exact (mintAndTransferProofNFT_done_iff caseId hcsTopicId).2 h.2.2

/-- Where something is, one of the two recordings of a request is not. -/
theorem not_over_of_awaits (h : hedera.Awaits) {tasks : List (RecordingProgram Unit)}
    {payload : HederaPayload} {caseId : String} {hcsTopicId : Option String}
    (hrecord : (Recording.recordOnHedera payload).task hedera ∈ tasks)
    (hmint : (Recording.mintAndTransferProofNFT caseId hcsTopicId).task hedera ∈ tasks) :
    ¬ TasksOver tasks := by
  intro hover
  have hrecorded := (recordOnHedera_done_iff payload).1 (hover _ hrecord)
  rcases h with htopic | htoken | hcredentials
  · exact htopic hrecorded.1
  · exact htoken hrecorded.2
  · exact (mintAndTransferProofNFT_done_iff caseId hcsTopicId).1 (hover _ hmint) hcredentials

theorem TasksOver.append {tasks tasks' : List (RecordingProgram Unit)} (h : TasksOver tasks)
    (h' : TasksOver tasks') : TasksOver (tasks ++ tasks') :=
  List.forall_mem_append.2 ⟨h, h'⟩

/-- A call that starts no recording, or none that awaits anything, leaves all over. -/
theorem TasksOver.startRecording {tasks : List (RecordingProgram Unit)} (h : TasksOver tasks)
    {c : DeliveryCall} (hc : c.Records → ¬ hedera.Awaits) (r : Except Failure c.Resp) :
    TasksOver (startRecording hedera tasks c r) := by
  cases c with
  | record recording =>
      cases r with
      | error e => exact h
      | ok _ => exact h.append fun task htask =>
          List.mem_singleton.1 htask ▸ task_done_of_not_awaits (hc trivial) recording
  | _ => exact h

/-- What is not over stays so while no recording goes on. -/
theorem not_over_startRecording {tasks : List (RecordingProgram Unit)} (h : ¬ TasksOver tasks)
    (c : DeliveryCall) (r : Except Failure c.Resp) :
    ¬ TasksOver (startRecording hedera tasks c r) := by
  cases c with
  | record recording =>
      cases r with
      | error e => exact h
      | ok _ => exact fun hover => h (List.forall_mem_append.1 hover).1
  | _ => exact h

/-- Nothing goes on where all is over. -/
theorem eq_of_goesOn {w w' : MainWorld} (hw : TasksOver w.2) (h : GoesOn w w') : w' = w := by
  obtain ⟨hjob, hprogress⟩ := h
  rcases Relation.ReflTransGen.cases_head hprogress with h | ⟨_, hstep, -⟩
  · obtain ⟨hdb, htasks⟩ : w.1.2 = w'.1.2 ∧ w.2 = w'.2 := by simpa using h
    exact Prod.ext (Prod.ext hjob hdb.symm) htasks.symm
  · have hcall : ∀ {before after : List (RecordingProgram Unit)} {c : RecordingCall}
        {k : Except Failure c.Resp → RecordingProgram Unit},
        w.2 ≠ before ++ .call c k :: after := by
      intro before after c k htasks
      obtain ⟨r, hr⟩ := hw (.call c k) (by rw [htasks]; simp)
      cases hr
    cases hstep with
    | hedera htask _ => exact absurd htask hcall
    | update htask _ => exact absurd htask hcall

end Awaits

section Quiet

variable {env : WorkerEnv} {hedera : HederaVars} {web3 : Web3} {rpc : String → Rpc} {db : Db}

/-- A drain that can confirm nothing starts no recording. -/
theorem drainFrom_quiet (fuel processed : ℕ) (job : Job) (log : List String)
    (h : ∀ r, ¬ db.Confirmable rpc web3 r) :
    (drainFrom env web3 fuel processed).wp (drainAnswers rpc) (fun _ c => ¬ c.Records)
      (fun _ _ => True) ((job, db), log) := by
  induction fuel generalizing processed job log db with
  | zero => trivial
  | succ fuel ih =>
      rw [drainFrom]
      refine Program.wp_seq (Program.wp_mono _ (fun _ _ _ _ h => h) ?_ (fun _ _ h => h)
        (runOnce_turns job db log)) ?_ fun _ _ _ => trivial
      · intro _ c hrecords hc
        obtain ⟨r, hr, holdest, hdelivers⟩ := hrecords hc
        exact h r ⟨hr, hdelivers, fun r' hr' hlt => absurd hlt (not_lt.2 (holdest r' hr'))⟩
      · rintro (_ | _) ⟨⟨job', db'⟩, log'⟩ hturn
        · trivial
        · obtain ⟨r, hr, -, -, hsettles⟩ := hturn
          exact ih _ _ _ fun r' h' => h r' (h'.of_turn hr hsettles)

/-- The recordings that a drain starts await nothing, if it can confirm nothing or nothing
is configured. -/
theorem drain_quiet (fuel : ℕ) (h : (∀ r, ¬ db.Confirmable rpc web3 r) ∨ ¬ hedera.Awaits) :
    (drain env web3 fuel).wp (drainAnswers rpc) (fun _ c => c.Records → ¬ hedera.Awaits)
      (fun _ _ => True) ((.idle, db), []) := by
  rcases h with hquiet | hawaits
  · exact Program.wp_mono _ (fun _ _ _ _ h => h) (fun _ _ hc h => absurd h hc) (fun _ _ h => h)
      (drainFrom_quiet fuel 0 .idle [] hquiet)
  · exact Program.wp_mono _ (fun _ _ _ _ h => h) (fun _ _ _ _ => hawaits) (fun _ _ h => h)
      (Program.wp_of_runs fun _ _ _ => trivial)

theorem drainProgram_quiet (fuel : ℕ)
    (h : (∀ r, ¬ db.Confirmable rpc web3 r) ∨ ¬ hedera.Awaits) :
    (drainProgram env web3 fuel).wp (mainAnswers hedera rpc) (fun w _ => TasksOver w.2)
      (fun _ w => TasksOver w.2) ((.idle, db), []) := by
  refine (Program.wp_lift _ _).2 (Program.wp_simulated
    (R := fun w v => w.1 = v.1 ∧ TasksOver w.2) ?_ ?_ ?_ (drain_quiet fuel h) ⟨rfl, nofun⟩)
  · rintro _ v o ⟨-, hover⟩ -
    exact hover
  · rintro w v c w' r ⟨hw, hover⟩ hc ⟨_, ⟨w₁, hgoes, hanswer, htasks⟩, rfl⟩
    obtain rfl := eq_of_goesOn hover hgoes
    refine ⟨(w'.1, watchClaims v.2 c _), ⟨hw ▸ hanswer, rfl⟩, rfl, ?_⟩
    rw [htasks]
    exact hover.startRecording hc _
  · rintro _ _ v ⟨-, hover⟩ -
    exact hover

/-- The calls of `main` after the drain. -/
def MainCall.Finishes : MainCall → Prop
  | delivery _ => False
  | disconnect | exit _ => True

/-- What `main` does after the drain leaves all over where all was. -/
theorem wp_finishes {c : MainCall} (hc : c.Finishes) {w : MainWorld} (hw : TasksOver w.2) :
    (Program.perform (S := mainSig) (ε := Failure) c).wp (mainAnswers hedera rpc)
      (fun w _ => TasksOver w.2) (fun _ w => TasksOver w.2) w := by
  refine (Program.wp_perform _ _ _).2 ⟨hw, ?_⟩
  rintro w' r ⟨w₁, hgoes, hanswer⟩
  obtain rfl := eq_of_goesOn hw hgoes
  cases c with
  | delivery c => exact hc.elim
  | disconnect =>
      obtain rfl : w' = w₁ := hanswer
      exact hw
  | exit code =>
      obtain ⟨rfl, -⟩ := hanswer
      exact hw

theorem exitsClean_of_quiet (h : (∀ r, ¬ db.Confirmable rpc web3 r) ∨ ¬ hedera.Awaits) :
    ExitsClean env hedera web3 rpc db := by
  intro fuel w code hhalts
  let Clean : MainWorld → Program.Halt mainSig Failure Unit → Prop := fun w _ => TasksOver w.2
  refine Program.wp_haltsAt (P := Clean) _ ?_ hhalts
  refine Program.wp_catch (R := fun _ w => TasksOver w.2) (Program.wp_seq (drainProgram_quiet fuel h)
    ?_ fun _ _ h => h) (fun _ _ h => h) fun _ w hw => wp_finishes (c := .exit 1) trivial hw
  rintro (_ | n) w hw
  · exact hw
  · exact Program.wp_seq (wp_finishes (c := .disconnect) trivial hw)
      (fun _ w hw => wp_finishes (c := .exit 0) trivial hw) fun _ _ h => h

end Quiet

section Loud

variable {env : WorkerEnv} {hedera : HederaVars} {web3 : Web3} {rpc : String → Rpc} {db : Db}
  {r : ServiceRequest}

/-- Answers that let no recording go on, and whose `findFirst` answers `r` where it may. -/
def slowAnswers (hedera : HederaVars) (rpc : String → Rpc) (r : ServiceRequest) :
    Answers deliverySig Failure MainWorld := fun w c w' result =>
  (rpcAnswers deliveryAnswers rpc).observed (startRecording hedera) w c w' result ∧
    match c, result with
    | .serviceRequestFindClaimable, result => w.1.2.Oldest (some r) → result = .ok (some r.select)
    | _, _ => True

theorem slowAnswers_total (w : MainWorld) (c : DeliveryCall) :
    ∃ w' result, slowAnswers hedera rpc r w c w' result := by
  by_cases hc : c = .serviceRequestFindClaimable ∧ w.1.2.Oldest (some r)
  · obtain ⟨rfl, holdest⟩ := hc
    let result : Except Failure (Option ClaimableRequest) := .ok (some r.select)
    exact ⟨((w.1.1.observe .serviceRequestFindClaimable result, w.1.2), w.2), result,
      ⟨⟨⟨rfl, some r, holdest, rfl⟩, trivial, rfl⟩, rfl⟩, fun _ => rfl⟩
  · obtain ⟨s, result, h⟩ := rpcAnswers_total rpc w.1 c
    refine ⟨(s, startRecording hedera w.2 c result), result, ⟨h, rfl⟩, ?_⟩
    cases c with
    | serviceRequestFindClaimable => exact fun holdest => absurd ⟨rfl, holdest⟩ hc
    | _ => trivial

/-- What is pending stays so. -/
theorem pending_of_slowAnswers {w w' : MainWorld} {c : DeliveryCall}
    {result : Except Failure c.Resp} (hw : ¬ TasksOver w.2)
    (h : slowAnswers hedera rpc r w c w' result) : ¬ TasksOver w'.2 := by
  rw [show w'.2 = startRecording hedera w.2 c result from h.1.2]
  exact not_over_startRecording hw c result

/-- The two recordings of a request, one of which awaits Hedera. -/
theorem records_pending (hawaits : hedera.Awaits) (payload : HederaPayload) (caseId : String)
    (hcsTopicId : Option String) (w : MainWorld) :
    (record (.recordOnHedera payload) >>= fun _ =>
      record (.mintAndTransferProofNFT caseId hcsTopicId)).wp (slowAnswers hedera rpc r)
      (fun _ _ => True) (fun result w => result = .ok () → ¬ TasksOver w.2) w := by
  refine (Program.wp_bind _ _ _ _).2 ((Program.wp_perform _ _ _).2 ⟨trivial, ?_⟩)
  rintro w₁ (e | _) ⟨⟨-, hfirst⟩, -⟩
  · nofun
  · refine (Program.wp_perform _ _ _).2 ⟨trivial, ?_⟩
    rintro w' result ⟨⟨-, hsecond⟩, -⟩ rfl
    have hsecond : w'.2 = w₁.2 ++ [(Recording.mintAndTransferProofNFT caseId hcsTopicId).task
      hedera] := hsecond
    have hfirst : w₁.2 = w.2 ++ [(Recording.recordOnHedera payload).task hedera] := hfirst
    rw [hsecond, hfirst]
    have hrecord : (Recording.recordOnHedera payload).task hedera ∈ w.2 ++
        [(Recording.recordOnHedera payload).task hedera] ++
          [(Recording.mintAndTransferProofNFT caseId hcsTopicId).task hedera] := by simp
    exact not_over_of_awaits hawaits hrecord (List.mem_append_right _ (List.mem_singleton_self _))

/-- An attempt that returns has started its recordings. -/
theorem processServiceRequest_records (hawaits : hedera.Awaits) (row : ClaimableRequest)
    (w : MainWorld) :
    (processServiceRequest env web3 row).wp (slowAnswers hedera rpc r) (fun _ _ => True)
      (fun result w => result = .ok () → ¬ TasksOver w.2) w := by
  have hany : ∀ {α : Type} (p : DeliveryProgram α) (w : MainWorld),
      p.wp (slowAnswers hedera rpc r) (fun _ _ => True) (fun _ _ => True) w := fun p w =>
    Program.wp_of_runs fun _ _ _ => trivial
  have hthrow : ∀ (e : Failure) (w : MainWorld), True → (.error e : Except Failure Unit) = .ok () →
      ¬ TasksOver w.2 := fun e w _ h => by cases h
  rw [processServiceRequest_eq]
  refine Program.wp_seq (hany _ _) (fun _ w _ => ?_) hthrow
  refine Program.wp_seq (hany _ _) (fun signature w _ => ?_) hthrow
  rw [confirmAndVerify]
  refine Program.wp_seq (hany _ _) (fun confirmation w _ => ?_) hthrow
  refine Program.wp_seq (hany _ _) (fun memo w _ => ?_) hthrow
  split
  · exact hthrow _ w trivial
  · exact Program.wp_seq (hany _ _) (fun _ w _ => records_pending hawaits _ _ _ w) hthrow

/-- The attempt at a request that is delivered starts recordings. -/
theorem attempt_records (hawaits : hedera.Awaits) (hrow : db.request? r.id = some r) (hstatus : r.status = .inProgress)
    (hdelivers : (rpc r.id).Delivers web3 r.select) (tasks : List (RecordingProgram Unit))
    (r' : ServiceRequest) :
    (attempt env web3 r.select).wp (slowAnswers hedera rpc r') (fun _ _ => True)
      (fun _ w => ¬ TasksOver w.2) ((.held r.select 0, db), tasks) := by
  have hprocess : (processServiceRequest env web3 r.select).wp
      ((rpcAnswers deliveryAnswers rpc).observed (startRecording hedera)) _ _
      ((.held r.select 0, db), tasks) :=
    Program.wp_observed (processServiceRequest_wp mayFault_delivery hrow hstatus) tasks
  refine Program.wp_catch (Program.wp_and (processServiceRequest_records hawaits _ _)
    (Program.wp_mono _ (fun _ _ _ _ h => h.1) (fun _ _ _ => trivial) (fun _ _ h => h) hprocess))
    (fun _ w h => h.1 rfl) ?_
  rintro e w ⟨-, hfails, -⟩
  obtain ⟨signature, confirmed, tx, h⟩ := hdelivers
  have houtcome : (rpc r.id).outcome web3 r.select = .error e := hfails.resolve_left id
  rw [h.outcome_eq] at houtcome
  cases houtcome

/-- A turn while `r` is confirmable: something comes to be pending, or `r` stays so. -/
theorem runOnce_loud (hawaits : hedera.Awaits) (job : Job) {tasks : List (RecordingProgram Unit)}
    (h : ¬ TasksOver tasks ∨ db.Confirmable rpc web3 r) :
    (runOnce env web3).wp (slowAnswers hedera rpc r) (fun _ _ => True)
      (fun result w => ¬ TasksOver w.2 ∨ result = .ok true ∧ w.1.2.Confirmable rpc web3 r)
      ((job, db), tasks) := by
  by_cases hpending : ¬ TasksOver tasks
  · have hkeeps : (runOnce env web3).wp (slowAnswers hedera rpc r) (fun w _ => ¬ TasksOver w.2)
        (fun _ w => ¬ TasksOver w.2) ((job, db), tasks) :=
      Program.wp_keeps (fun _ _ _ _ => pending_of_slowAnswers) hpending
    exact Program.wp_mono _ (fun _ _ _ _ h => h) (fun _ _ _ => trivial) (fun _ _ => Or.inl) hkeeps
  have hconfirmable := h.resolve_left hpending
  refine wp_turn (fun _ _ _ _ h => h.1.1) (fun _ _ _ => trivial) ?_ ?_
  · rintro s - - hempty
    have hmem : r ∈ db.backlog := hconfirmable.1
    rw [hempty] at hmem
    cases hmem
  · rintro r' ⟨_, tasks'⟩ ⟨_, tasks''⟩ db' n hr' holdest hfind - rfl hreplaces
    by_cases heq : r' = r
    · subst heq
      have hdelivers := ((rpc r'.id).delivers_inProgress_iff web3 r'.select).2 hconfirmable.2.1
      refine Program.wp_post _ (fun _ _ h => Or.inl h) ?_
      exact attempt_records hawaits hreplaces.row rfl hdelivers tasks'' r'
    · have hfirst : r'.createdAt < r.createdAt := by
        refine lt_of_le_of_ne (holdest r hconfirmable.1) fun hsame => heq ?_
        have hmem := Db.mem_backlog_iff.1 hconfirmable.1
        have hprefer := hfind.2 ⟨((Db.request?_eq_some_iff _ _ _).1 hmem.1).1, hmem.2,
          fun r₁ hr₁ hclaimable => not_lt.2 ?_⟩
        · have hid := congrArg ClaimableRequest.id (Option.some.inj (Except.ok.inj hprefer))
          refine Option.some.inj ((Db.mem_backlog_iff.1 hr').1.symm.trans ?_)
          exact (congrArg db.request? hid).trans hmem.1
        · rw [← hsame]
          refine holdest r₁ (Db.mem_backlog_iff.2 ⟨?_, hclaimable⟩)
          exact (Db.request?_eq_some_iff _ _ _).2 ⟨hr₁, rfl⟩
      refine Program.wp_mono _ (fun _ _ _ _ h => h.1) (fun _ _ _ => trivial) ?_
        (Program.wp_observed (attempt_settles_claimed hreplaces) tasks'')
      rintro (e | _) w hsettles
      · exact absurd (hconfirmable.2.2 r' hr' hfirst) hsettles
      · exact Or.inr ⟨rfl, hconfirmable.turn hr' (fun h => heq h.symm) hsettles⟩

theorem drainFrom_loud (hawaits : hedera.Awaits) (fuel processed : ℕ) (job : Job)
    {tasks : List (RecordingProgram Unit)} (h : ¬ TasksOver tasks ∨ db.Confirmable rpc web3 r) :
    (drainFrom env web3 fuel processed).wp (slowAnswers hedera rpc r) (fun _ _ => True)
      (fun result w => ¬ TasksOver w.2 ∨ result = .ok none) ((job, db), tasks) := by
  induction fuel generalizing processed job db tasks with
  | zero => exact Or.inr rfl
  | succ fuel ih =>
      rw [drainFrom]
      refine Program.wp_seq (runOnce_loud hawaits job h) ?_ ?_
      · rintro (_ | _) ⟨⟨job', db'⟩, tasks'⟩ hturn
        · exact Or.inl (hturn.resolve_right fun h => by cases h.1)
        · exact ih _ _ (hturn.imp_right And.right)
      · rintro e w hturn
        exact Or.inl (hturn.resolve_right fun h => by cases h.1)

/-- While `r` is confirmable, a drain may end with a recording pending. -/
theorem exists_drain_pending (hawaits : hedera.Awaits) (h : db.Confirmable rpc web3 r) :
    ∃ fuel w result, (drain env web3 fuel).Runs (slowAnswers hedera rpc r) ((.idle, db), []) w
      result ∧ ¬ TasksOver w.2 ∧ result ≠ .ok none := by
  have htotal : ∀ w c, ∃ w' result, slowAnswers hedera rpc r w c w' result := slowAnswers_total
  obtain ⟨w, result, hrun⟩ := Program.exists_runs htotal
    (drain env web3 (db.backlog.length + 1)) ((.idle, db), [])
  have hreturns : result ≠ .ok none := by
    rintro rfl
    obtain ⟨log, hlogged⟩ := (hrun.mono fun _ _ _ _ h => h.1).of_observed.observed watchClaims []
    exact absurd (Program.wp_runs _ (drainFrom_drains _ 0 .idle db []) hlogged) (by simp [Drains])
  refine ⟨_, w, result, hrun, ?_, hreturns⟩
  exact (Program.wp_runs _ (drainFrom_loud hawaits _ 0 .idle (Or.inr h)) hrun).resolve_right
    hreturns

theorem confirmable_lost (hawaits : hedera.Awaits) (h : db.Confirmable rpc web3 r) :
    ¬ ExitsClean env hedera web3 rpc db := by
  intro hclean
  obtain ⟨fuel, w, result, hrun, hpending, hreturns⟩ : ∃ fuel w result,
      (drain env web3 fuel).Runs (slowAnswers hedera rpc r) ((.idle, db), []) w result ∧
        ¬ TasksOver w.2 ∧ result ≠ .ok none := exists_drain_pending hawaits h
  have hstays : ∀ w : MainWorld, GoesOn w w := fun w => ⟨rfl, .refl⟩
  have hdrain : (drainProgram env web3 fuel).Runs (mainAnswers hedera rpc) ((.idle, db), []) w
      result :=
    (Program.runs_lift _ _ _ _ _).2
      (hrun.mono fun w c w' r h => ⟨r, ⟨w, hstays w, h.1⟩, rfl⟩)
  have hexit : ∀ code, (Program.perform (S := mainSig) (.exit code)).HaltsAt
      (mainAnswers hedera rpc) w w (.awaiting (.exit code)) := fun code => Or.inl ⟨rfl, rfl⟩
  rcases result with e | _ | n
  · exact hpending (hclean fuel w 1 (.handler
      ((Program.runs_bind _ _ _ _ _).2 (Or.inr ⟨e, hdrain, rfl⟩)) (hexit 1)))
  · exact hreturns rfl
  · refine hpending (hclean fuel w 0 (.guarded (.bind hdrain ?_)))
    have hdisconnects : (Program.perform (S := mainSig) .disconnect).Runs
        (mainAnswers hedera rpc) w w (.ok ()) :=
      (Program.runs_perform _ _ _ _).2 ⟨w, hstays w, rfl⟩
    exact .bind hdisconnects (hexit 0)

end Loud

/-- The worker exits with no recording pending, whatever the timing, exactly if its drain can
confirm no request, or no recording is configured to await Hedera. -/
theorem exitsClean_iff (env : WorkerEnv) (hedera : HederaVars) (web3 : Web3)
    (rpc : String → Rpc) (db : Db) :
    ExitsClean env hedera web3 rpc db ↔
      (∀ r, ¬ db.Confirmable rpc web3 r) ∨ ¬ hedera.Awaits := by
  refine ⟨fun h => ?_, exitsClean_of_quiet⟩
  by_contra hcond
  obtain ⟨hconfirmable, hawaits⟩ := not_or.1 hcond
  exact hconfirmable fun r hr => confirmable_lost (not_not.1 hawaits) hr h

/-- The variables of a worker with the credentials of an operator on the testnet. -/
def operatorVars : HederaVars := ⟨some "0.0.2", some "302e", none, none, none, none, none⟩

/-- One request that the RPC delivers at once: the worker may exit before Hedera has answered. -/
theorem not_exitsClean_of_slow :
    ¬ ExitsClean ⟨none, none⟩ operatorVars asciiWeb3 (fun _ => promptRpc (sentTransaction none))
      oneStaged := by
  have hawaits : operatorVars.Awaits := Or.inr (Or.inr ⟨nofun, nofun, rfl⟩)
  have hdelivers : (promptRpc (sentTransaction none)).Delivers asciiWeb3 claimedRequest.select :=
    ⟨_, _, _, promptRpc_confirms none⟩
  refine confirmable_lost hawaits (r := stagedRequest) ⟨by decide, ?_, fun r' hr' hlt => ?_⟩
  · exact (Rpc.delivers_inProgress_iff _ _ _).1 hdelivers
  · obtain rfl : r' = stagedRequest := List.mem_singleton.1 hr'
    exact absurd hlt (lt_irrefl _)

end EpsDapp
