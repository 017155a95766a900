import EpsDapp.Delivery.Jobs

/-!
# Exclusive claims

Any number of workers poll one table. The guard of the claim keeps two of them
from winning a `STAGED` row, but it admits `IN_PROGRESS` rows, so that the job of
a dead worker is resumed, and the row does not say whether its worker is dead.
Claims are exclusive in the runs where an `IN_PROGRESS` row is claimed by a worker
only while no other worker is in a turn.
-/

set_option autoImplicit false

namespace EpsDapp

open Effect

variable {ι : Type}

/-- The configurations of the workers `ι` on one database. -/
abbrev WorkerPool (ι : Type) := Pool deliverySig Failure Bool ι Job Db

/-- Workers on one database. Any statement may throw, any worker may die, and
the chain answers as it likes. -/
def workers (ι : Type) (env : WorkerEnv) (web3 : Web3) :
    Machine deliverySig Failure Bool ι Job Db where
  idle := .idle
  observe job c _ r := job.observe c r
  answers _ := faultyAnswers
  entry _ p := p = runOnce env web3
  environment := Db.Drift

/-- No worker is running. -/
def WorkerPool.initial (db : Db) : WorkerPool ι := ⟨db, fun _ => none⟩

/-- The live worker `i` holds the request `id`: its claim of it has succeeded
and its attempt has not finished. -/
def WorkerPool.Holds (c : WorkerPool ι) (i : ι) (id : String) : Prop :=
  ∃ t, c.thread i = some t ∧ t.mark.Holds id

/-- No two workers hold one request. -/
def WorkerPool.Exclusive (c : WorkerPool ι) : Prop :=
  ∀ i j id, c.Holds i id → c.Holds j id → i = j

/-- A worker claims an `IN_PROGRESS` row only while no other worker is in a turn. -/
def ResumesAlone (c : WorkerPool ι) (l : Label deliverySig Failure ι) (_ : WorkerPool ι) :
    Prop :=
  match l with
  | .act i (.serviceRequestClaim id) _ => ∀ row, c.world.request? id = some row →
      row.status = .inProgress → ∀ j, j ≠ i → c.thread j = none
  | _ => True

/-- What holds of a pool of workers throughout: they obey the protocol, and a
held row is no longer `STAGED`. -/
structure WorkerPool.Inv (c : WorkerPool ι) : Prop where
  conform : Machine.AllConform Job.Follows Job.Allows c
  started : ∀ i id, c.Holds i id →
    ∃ row, c.world.request? id = some row ∧ row.status ≠ .staged

theorem WorkerPool.inv_initial (db : Db) : (WorkerPool.initial db : WorkerPool ι).Inv where
  conform := fun _ _ h => by cases h
  started := fun _ _ ⟨_, h, _⟩ => by cases h

section Step

variable [DecidableEq ι] {env : WorkerEnv} {web3 : Web3}

/-- What a worker holds after its call is answered. -/
theorem holds_act_iff {c : WorkerPool ι} {i : ι} {o : DeliveryCall}
    {k : Except Failure o.Resp → DeliveryProgram Bool} {m : Job} (hc : c.Inv)
    (hthread : c.thread i = some ⟨.call o k, m⟩) (w : Db) (r : Except Failure o.Resp)
    (j : ι) (id : String) :
    WorkerPool.Holds ⟨w, Function.update c.thread i (some ⟨k r, m.observe o r⟩)⟩ j id ↔
      c.Holds j id ∨ (j = i ∧ o.Wins r id) := by
  have hallows : m.Allows o := hc.conform.allowed hthread
  by_cases hj : j = i
  · subst hj
    simp only [WorkerPool.Holds, Function.update_self, hthread, Option.some.injEq,
      exists_eq_left', true_and]
    exact Job.holds_observe_iff hallows r id
  · simp [WorkerPool.Holds, hj]

/-- A worker that ends, dies or starts holds nothing. -/
theorem holds_update_iff {c : WorkerPool ι} {i : ι} {v : Option (Thread deliverySig Failure Bool Job)}
    (hv : ∀ t ∈ v, t.mark = .idle) (j : ι) (id : String) :
    WorkerPool.Holds ⟨c.world, Function.update c.thread i v⟩ j id ↔ j ≠ i ∧ c.Holds j id := by
  by_cases hj : j = i
  · subst hj
    simp only [WorkerPool.Holds, Function.update_self, ne_eq, not_true_eq_false, false_and,
      iff_false, not_exists, not_and]
    intro t ht
    rw [hv t ht]
    exact Job.not_holds_idle id
  · simp [WorkerPool.Holds, hj]

/-- A row that has left `STAGED` does not return to it in a step of a worker. -/
theorem started_of_faultyAnswers {db db' : Db} {m : Job} {o : DeliveryCall}
    {r : Except Failure o.Resp} (hallows : m.Allows o) (h : faultyAnswers db o db' r)
    {id : String} (hrow : ∃ row, db.request? id = some row ∧ row.status ≠ .staged) :
    ∃ row, db'.request? id = some row ∧ row.status ≠ .staged := by
  obtain ⟨row, hrow, hstatus⟩ := hrow
  rw [request?_of_faultyAnswers h id]
  cases hwrite : o.write r with
  | none => exact ⟨row, hrow, hstatus⟩
  | some p =>
      obtain ⟨i, u⟩ := p
      have hu := hallows.write_status hwrite
      by_cases hi : id = i
      · subst hi
        refine ⟨u.apply row, by simp [hrow], ?_⟩
        cases hs : u.status with
        | none => simpa [hs] using hstatus
        | some s => simpa [hs] using hu
      · exact ⟨row, by simp [hi, hrow], hstatus⟩

theorem WorkerPool.Inv.step {c c' : WorkerPool ι} {l : Label deliverySig Failure ι}
    (hc : c.Inv) (h : (workers ι env web3).Step c l c') : WorkerPool.Inv c' where
  conform := by
    refine Machine.allConform_step ?_ ?_ hc.conform h
    · intro m w o w' r _
      rfl
    · rintro i p rfl
      exact runOnce_conforms env web3
  started := by
    intro j id hj
    cases h with
    | @act i o k m w r hthread hanswer =>
        rcases (holds_act_iff hc hthread w r j id).1 hj with hold | ⟨rfl, hwins⟩
        · exact started_of_faultyAnswers (hc.conform.allowed hthread) hanswer
            (hc.started j id hold)
        · obtain ⟨row, _, _, hrow⟩ := claimable_of_wins hwins hanswer
          exact ⟨_, hrow, by simp⟩
    | finish _ _ => exact hc.started j id ((holds_update_iff (by simp) j id).1 hj).2
    | crash _ _ => exact hc.started j id ((holds_update_iff (by simp) j id).1 hj).2
    | @start i p hthread hp =>
        refine hc.started j id ((holds_update_iff ?_ j id).1 hj).2
        rintro t ⟨rfl⟩
        rfl
    | environment hdrift =>
        obtain ⟨row, hrow, hstatus⟩ := hc.started j id hj
        obtain ⟨row', hrow', hselect⟩ := Db.Drift.retains hdrift id row hrow
        refine ⟨row', hrow', ?_⟩
        have : row'.status = row.status := congrArg ClaimableRequest.status hselect
        rw [this]
        exact hstatus

theorem WorkerPool.Exclusive.update {c : WorkerPool ι} (hc : c.Exclusive) {i : ι}
    {v : Option (Thread deliverySig Failure Bool Job)} (hv : ∀ t ∈ v, t.mark = .idle) :
    WorkerPool.Exclusive ⟨c.world, Function.update c.thread i v⟩ := by
  intro j j' id hj hj'
  exact hc j j' id ((holds_update_iff hv j id).1 hj).2 ((holds_update_iff hv j' id).1 hj').2

/-- Nobody holds the request that a claim is about to win, if the claim resumes a
job only while the other workers are idle. -/
theorem not_holds_of_resumesAlone {c c' : WorkerPool ι} {i : ι} {o : DeliveryCall}
    {k : Except Failure o.Resp → DeliveryProgram Bool} {m : Job} {w : Db}
    {r : Except Failure o.Resp} {id : String} (hinv : c.Inv)
    (hthread : c.thread i = some ⟨.call o k, m⟩) (hanswer : faultyAnswers c.world o w r)
    (hcond : ResumesAlone c (.act i o r) c') (hwins : o.Wins r id) (j : ι) :
    ¬ c.Holds j id := by
  intro hj
  obtain ⟨row, hrow, hclaimable, _⟩ := claimable_of_wins hwins hanswer
  obtain ⟨row', hrow', hstarted⟩ := hinv.started j id hj
  obtain rfl : row = row' := Option.some.inj (hrow.symm.trans hrow')
  have hstatus : row.status = .inProgress := by
    cases hs : row.status with
    | staged => exact absurd hs hstarted
    | inProgress => rfl
    | confirmed => simp [hs, ServiceStatus.Claimable] at hclaimable
    | failed => simp [hs, ServiceStatus.Claimable] at hclaimable
  obtain ⟨rfl, _⟩ := hwins.write
  obtain ⟨t, ht, hid⟩ := hj
  by_cases hji : j = i
  · -- the claiming worker itself has only found the row
    subst hji
    rw [hthread] at ht
    cases ht
    exact Job.not_holds_of_wins (hinv.conform.allowed hthread) hwins id hid
  · have hidle : c.thread j = none := hcond row hrow hstatus j hji
    simp [hidle] at ht

/-- A step that resumes a job only while the other workers are idle keeps the
claims exclusive. -/
theorem WorkerPool.Exclusive.step {c c' : WorkerPool ι} {l : Label deliverySig Failure ι}
    (hinv : c.Inv) (hc : c.Exclusive) (h : (workers ι env web3).Step c l c')
    (hcond : ResumesAlone c l c') : WorkerPool.Exclusive c' := by
  cases h with
  | @act i o k m w r hthread hanswer =>
      have hholds := holds_act_iff hinv hthread w r
      intro j j' id hj hj'
      have hfree : o.Wins r id → ∀ j, ¬ c.Holds j id :=
        not_holds_of_resumesAlone hinv hthread hanswer hcond
      rcases (hholds j id).1 hj with hold | ⟨rfl, hwins⟩
      · rcases (hholds j' id).1 hj' with hold' | ⟨rfl, hwins⟩
        · exact hc j j' id hold hold'
        · exact absurd hold (hfree hwins j)
      · rcases (hholds j' id).1 hj' with hold' | ⟨rfl, _⟩
        · exact absurd hold' (hfree hwins j')
        · rfl
  | finish _ _ => exact hc.update (by simp)
  | crash _ _ => exact hc.update (by simp)
  | start hthread hp =>
      refine hc.update ?_
      rintro t ⟨rfl⟩
      rfl
  | environment _ => exact hc

/-- No two workers hold one request in any state of a run whose steps claim an
`IN_PROGRESS` row only while no other worker is in a turn. -/
theorem exclusive_of_resumesAlone {db : Db}
    {run : List (Label deliverySig Failure ι × WorkerPool ι)}
    (hrun : IsRun (fun c l c' => (workers ι env web3).Step c l c' ∧ ResumesAlone c l c')
      (WorkerPool.initial db) run) :
    ∀ c ∈ statesOf (WorkerPool.initial db) run, WorkerPool.Exclusive c := by
  have hstep : ∀ (c : WorkerPool ι) l c', (c.Inv ∧ c.Exclusive) →
      ((workers ι env web3).Step c l c' ∧ ResumesAlone c l c') →
        WorkerPool.Inv c' ∧ WorkerPool.Exclusive c' :=
    fun c l c' ⟨hinv, hc⟩ ⟨h, hcond⟩ => ⟨hinv.step h, hc.step hinv h hcond⟩
  have hinitial : (WorkerPool.initial db : WorkerPool ι).Exclusive :=
    fun _ _ _ ⟨_, h, _⟩ => by cases h
  exact fun c hc => (hrun.invariant hstep ⟨WorkerPool.inv_initial db, hinitial⟩ c hc).2

end Step

/-- Two workers find one staged request. The claim of the first makes it
`IN_PROGRESS`, and the guard lets the claim of the second win it again. -/
theorem not_exclusive_of_two_workers :
    ¬ ∀ c, Reaches (workers Bool ⟨none, none⟩ asciiWeb3).Step (WorkerPool.initial oneStaged) c →
      WorkerPool.Exclusive c := by
  intro h
  have hfind : faultyAnswers oneStaged .serviceRequestFindClaimable oneStaged
      (.ok (some stagedRequest.select)) :=
    Or.inl ⟨rfl, some stagedRequest, oneStaged_oldest, rfl⟩
  have hexcl := h _ <|
    .head (.start (i := true) rfl rfl) <| .head (.start (i := false) rfl rfl) <|
    .head (.act (i := true) rfl hfind) <| .head (.act (i := false) rfl hfind) <|
    .head (.act (i := true) rfl (Or.inl ⟨rfl, rfl⟩)) <|
    .head (.act (i := false) rfl (Or.inl ⟨rfl, rfl⟩)) <| .refl _ _
  have hboth : true = false :=
    hexcl true false "sr-1" ⟨_, rfl, _, _, rfl, rfl⟩ ⟨_, rfl, _, _, rfl, rfl⟩
  cases hboth

/-- A worker claims the staged request and dies, and another one resumes it. -/
theorem exclusive_of_resumed_orphan :
    ∃ run, IsRun (workers Bool ⟨none, none⟩ asciiWeb3).Step (WorkerPool.initial oneStaged) run ∧
      (∃ c ∈ statesOf (WorkerPool.initial oneStaged) run, WorkerPool.Holds c true "sr-1") ∧
      (∃ c ∈ statesOf (WorkerPool.initial oneStaged) run, WorkerPool.Holds c false "sr-1") ∧
      ∀ c ∈ statesOf (WorkerPool.initial oneStaged) run, WorkerPool.Exclusive c := by
  have hfind : faultyAnswers oneStaged .serviceRequestFindClaimable oneStaged
      (.ok (some stagedRequest.select)) :=
    Or.inl ⟨rfl, some stagedRequest, oneStaged_oldest, rfl⟩
  have hfind' : faultyAnswers oneInProgress .serviceRequestFindClaimable oneInProgress
      (.ok (some claimedRequest.select)) :=
    Or.inl ⟨rfl, some claimedRequest, oneInProgress_oldest, rfl⟩
  obtain ⟨run, hrun, htrue, hfalse⟩ : ∃ run,
      IsRun (fun c l c' => (workers Bool ⟨none, none⟩ asciiWeb3).Step c l c' ∧
        ResumesAlone c l c') (WorkerPool.initial oneStaged) run ∧
      (∃ c ∈ statesOf (WorkerPool.initial oneStaged) run, WorkerPool.Holds c true "sr-1") ∧
      ∃ c ∈ statesOf (WorkerPool.initial oneStaged) run, WorkerPool.Holds c false "sr-1" := by
    refine ⟨[(_, _), (_, _), (_, _), (_, _), (_, _), (_, _), (_, _)],
      ⟨⟨.start (i := true) rfl rfl, trivial⟩, ⟨.act (i := true) rfl hfind, trivial⟩,
        ⟨.act (i := true) rfl (Or.inl ⟨rfl, rfl⟩), ?_⟩, ⟨.crash (i := true) rfl trivial, trivial⟩,
        ⟨.start (i := false) rfl rfl, trivial⟩, ⟨.act (i := false) rfl hfind', trivial⟩,
        ⟨.act (i := false) rfl (Or.inl ⟨rfl, rfl⟩), ?_⟩, trivial⟩, ?_, ?_⟩
    · -- the first claim finds the row staged
      intro row hrow hstatus
      cases hrow
      cases hstatus
    · -- the second one finds it in progress, and the first worker dead
      intro row _ _ j hj
      cases j with
      | false => exact absurd rfl hj
      | true => rfl
    · exact ⟨_, .tail _ (.tail _ (.tail _ (.head _))), _, rfl, _, _, rfl, rfl⟩
    · refine ⟨_, .tail _ (.tail _ (.tail _ (.tail _ (.tail _ (.tail _ (.tail _ (.head _))))))), ?_⟩
      exact ⟨_, rfl, _, _, rfl, rfl⟩
  exact ⟨run, hrun.mono (fun _ _ _ h => h.1), htrue, hfalse, exclusive_of_resumesAlone hrun⟩

end EpsDapp
