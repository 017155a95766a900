import EpsDapp.Intake.Binding

/-!
# The audit trail

Every change of a request's status is to have one audit row of its own, written
in the same transaction. `createServiceRequest` and `failServiceRequest` write
theirs; the HTTP route, the claim and the confirmation write none. So a run is
audited throughout exactly if none of these three changes a status in it.
-/

set_option autoImplicit false

namespace EpsDapp

open Effect

variable {ι : Type}

/-- The status of the request `id`. -/
def Db.status? (db : Db) (id : String) : Option ServiceStatus :=
  (db.request? id).map ServiceRequest.status

/-- The change from `db` to `db'` is audited: every request whose status changes, by
its creation included, gets exactly one audit row. -/
def Db.Audits (db db' : Db) : Prop :=
  ∀ id, db'.status? id ≠ db.status? id → ∃ rows, db'.auditLogs = db.auditLogs ++ rows ∧
    (rows.filter fun a => a.targetId == id).length = 1

/-- The step is audited. -/
def Audited (c : SystemPool ι) (_ : Label systemSig Failure ι) (c' : SystemPool ι) : Prop :=
  c.world.db.Audits c'.world.db

/-- The call changes no status without an audit row of its own: the route creates no
request, a claim wins no `STAGED` row, and an update writes the status that the row
has. -/
def SystemCall.Unchanging (db : Db) : (c : SystemCall) → Except Failure c.Resp → Prop
  | server (.serviceRequestCreate _), .ok _ => False
  | delivery (.serviceRequestClaim id), .ok (_ + 1) =>
      ∀ row, db.request? id = some row → row.status ≠ .staged
  | delivery (.serviceRequestUpdate id data), .ok _ =>
      ∀ row s, db.request? id = some row → data.status = some s → row.status = s
  | _, _ => True

/-- The condition on a step. -/
def ChangesAudited (c : SystemPool ι) (l : Label systemSig Failure ι) (_ : SystemPool ι) : Prop :=
  match l with
  | .act _ call r => call.Unchanging c.world.db r
  | _ => True

namespace Db

theorem Audits.of_status {db db' : Db} (h : db'.status? = db.status?) : db.Audits db' :=
  fun id hid => absurd (congrFun h id) hid

theorem Audits.of_eq {db db' : Db} (h : db' = db) : db.Audits db' :=
  .of_status (congrArg status? h)

/-- Without an audit row, an audited change leaves every status. -/
theorem audits_iff_of_auditLogs {db db' : Db} (h : db'.auditLogs = db.auditLogs) :
    db.Audits db' ↔ db'.status? = db.status? := by
  refine ⟨fun haudits => ?_, .of_status⟩
  funext id
  by_contra hid
  obtain ⟨rows, hrows, hlength⟩ := haudits id hid
  have hnil : rows = [] := by simpa [h] using hrows.symm
  rw [hnil] at hlength
  cases hlength

theorem status?_of_some {db : Db} {id : String} {row : ServiceRequest}
    (h : db.request? id = some row) : db.status? id = some row.status := by
  rw [status?, h, Option.map_some]

theorem status?_congr {db db' : Db} (h : db'.serviceRequests = db.serviceRequests) :
    db'.status? = db.status? := by
  funext id
  rw [status?, status?, request?, request?, h]

/-- The statuses after an update of the row `id`. -/
theorem status?_updateRequest {db : Db} {id : String} {row : ServiceRequest}
    (h : db.request? id = some row) (u : ServiceRequestUpdate) :
    (db.updateRequest id u).status? =
      Function.update db.status? id (some (u.status.getD row.status)) := by
  funext j
  rw [status?, request?_updateRequest]
  by_cases hj : j = id
  · subst hj
    simp [h]
  · simp [hj, status?]

/-- An update leaves every status exactly if it writes the one that the row has. -/
theorem status?_updateRequest_eq_iff {db : Db} {id : String} {row : ServiceRequest}
    (h : db.request? id = some row) (u : ServiceRequestUpdate) :
    (db.updateRequest id u).status? = db.status? ↔ ∀ s, u.status = some s → row.status = s := by
  rw [status?_updateRequest h, Function.update_eq_self_iff, status?_of_some h, Option.some.injEq]
  cases u.status with
  | none => simp
  | some s => simp [eq_comm]

/-- The statuses after a creation. -/
theorem status?_insertRequest (db : Db) (r : ServiceRequest) (h : db.request? r.id = none) :
    (db.insertRequest r h).status? = Function.update db.status? r.id (some r.status) := by
  funext j
  rw [status?, request?_insertRequest]
  by_cases hj : j = r.id
  · rw [if_pos hj, hj, Function.update_self, Option.map_some]
  · rw [if_neg hj, Function.update_of_ne hj, status?]

/-- A creation changes a status. -/
theorem status?_insertRequest_ne (db : Db) (r : ServiceRequest) (h : db.request? r.id = none) :
    (db.insertRequest r h).status? ≠ db.status? := by
  rw [status?_insertRequest]
  intro heq
  have hid := Function.update_eq_self_iff.1 heq
  rw [status?, h] at hid
  cases hid

end Db

/-! ## One call -/

/-- A call of the route is audited exactly if it creates no request. -/
theorem audits_iff_of_server {db db' : Db} {c : ServerCall} {r : Except Failure c.Resp}
    (hc : c.OfPost) (h : c.Exec db db' r ∨ (db' = db ∧ ∃ e, r = .error e)) :
    db.Audits db' ↔ (SystemCall.server c).Unchanging db r := by
  rcases h with h | ⟨rfl, e, rfl⟩
  · rw [Db.audits_iff_of_auditLogs (SystemWorld.exec_ofPost hc h).1]
    cases c with
    | rateLimit _ | resolveENS _ | getAgentENSName =>
        obtain ⟨rfl, -⟩ := h
        exact iff_of_true rfl trivial
    | recordOnHedera _ =>
        obtain rfl : db' = db := h
        exact iff_of_true rfl trivial
    | quota c =>
        obtain ⟨subscriptions, rfl⟩ := QuotaCall.Exec.subscriptions h
        exact iff_of_true rfl trivial
    | serviceRequestCreate data =>
        rcases h with ⟨-, id, orgId, createdAt, hfree, -, rfl, rfl⟩ | ⟨rfl, -, rfl⟩ | ⟨rfl, -, rfl⟩
        · exact iff_of_false (db.status?_insertRequest_ne _ hfree) fun h => h
        · exact iff_of_true rfl trivial
        · exact iff_of_true rfl trivial
    | serviceRequestUpdate id data =>
        simp only [ServerCall.Exec] at h
        split at h
        · rename_i row hrow
          obtain ⟨rfl, -⟩ := h
          obtain ⟨u, rfl⟩ := hc
          exact iff_of_true ((Db.status?_updateRequest_eq_iff hrow _).2 fun _ h => by cases h) trivial
        · obtain ⟨rfl, -⟩ := h
          exact iff_of_true rfl trivial
    | _ => exact hc.elim
  · refine iff_of_true (.of_eq rfl) ?_
    cases c <;> trivial

/-- A call of a worker is audited exactly if it is a terminal failure, or leaves the
status. -/
theorem audits_iff_of_delivery {db db' : Db} {c : DeliveryCall} {r : Except Failure c.Resp}
    (h : faultyAnswers db c db' r) :
    db.Audits db' ↔ (SystemCall.delivery c).Unchanging db r := by
  have haudit := auditLogs_of_faultyAnswers h
  rcases rows_of_faultyAnswers h with ⟨id, u, row, hwrite, hrow, hclaimable, hrows⟩ | ⟨hwrite, hrows⟩
  · have hstatus : db'.status? = (db.updateRequest id u).status? := Db.status?_congr hrows
    cases c with
    | serviceRequestClaim i =>
        rcases r with e | _ | n
        · cases hwrite
        · cases hwrite
        · cases hwrite
          have hrow' : row.status.Claimable := hclaimable id rfl
          rw [Db.audits_iff_of_auditLogs (haudit.trans (List.append_nil _)), hstatus,
            Db.status?_updateRequest_eq_iff hrow]
          simp only [SystemCall.Unchanging, hrow, Option.some.injEq, forall_eq']
          cases hs : row.status <;> simp_all [ServiceStatus.Claimable]
    | serviceRequestUpdate i data =>
        rcases r with e | row'
        · cases hwrite
        · cases hwrite
          rw [Db.audits_iff_of_auditLogs (haudit.trans (List.append_nil _)), hstatus,
            Db.status?_updateRequest_eq_iff hrow]
          simp only [SystemCall.Unchanging, hrow, Option.some.injEq]
          exact ⟨fun h _ s hr hs => hr ▸ h s hs, fun h s hs => h _ s rfl hs⟩
    | failServiceRequest input =>
        rcases r with e | restored
        · cases hwrite
        · cases hwrite
          refine iff_of_true (fun id hid => ⟨_, haudit, ?_⟩) trivial
          have hid : id = input.serviceRequestId := by
            by_contra hne
            exact hid (by rw [hstatus, Db.status?_updateRequest hrow, Function.update_of_ne hne])
          simp [DeliveryCall.audits, serviceFailed, hid]
    | _ => cases hwrite
  · refine iff_of_true (.of_status (Db.status?_congr hrows)) ?_
    cases c with
    | serviceRequestClaim i =>
        rcases r with e | _ | n
        · trivial
        · trivial
        · cases hwrite
    | serviceRequestUpdate i data =>
        rcases r with e | row'
        · trivial
        · cases hwrite
    | _ => trivial

/-- An intake is audited. -/
theorem audits_of_transacts {env : SystemEnv} {input : CreateServiceRequestInput}
    {w w' : SystemWorld} {r : Except Failure StagedServiceRequest}
    (h : SystemWorld.Transacts env input w w' r) : w.db.Audits w'.db := by
  obtain ⟨s, result, hruns, -, -, hresult⟩ := h
  cases r with
  | error e => exact .of_eq hresult.1
  | ok staged =>
      obtain ⟨rfl, hdb, -⟩ := hresult
      have hstages := (Program.wp_runs _ (createServiceRequest_wp _ _ input _) hruns).2 staged rfl
      obtain ⟨subscriptions, orgId, attestedAt, createdAt, hfree, hdb'⟩ := hstages.db
      intro id hid
      refine ⟨[input.audit staged.id staged.objectKey staged.sha256], by rw [hdb, hdb']; rfl, ?_⟩
      have hid : id = staged.id := by
        by_contra hne
        refine hid ?_
        rw [hdb, hdb']
        refine (congrFun (Db.status?_insertRequest { w.db with subscriptions := subscriptions } _
          hfree) id).trans ?_
        exact Function.update_of_ne hne _ _
      simp [CreateServiceRequestInput.audit, hid]

/-! ## Any run -/

section Step

variable [DecidableEq ι] {env : SystemEnv}

/-- A step is audited exactly if it meets the condition. -/
theorem audited_iff_step {c c' : SystemPool ι} {l : Label systemSig Failure ι}
    (hc : c.Inv env) (h : (system ι env).Step c l c') :
    Audited c l c' ↔ ChangesAudited c l c' := by
  cases h with
  | @act i o k m w r hthread hanswer =>
      have hallowed := hc.conform.allowed hthread
      cases o with
      | server call => exact audits_iff_of_server hallowed hanswer.1
      | delivery call =>
          by_cases hsend : call.Broadcasts
          · have hdb : w.db = c.world.db := by
              cases call with
              | chain call =>
                  cases call with
                  | sendTransaction _ _ _ => exact hanswer.1.1
                  | _ => exact hsend.elim
              | _ => exact hsend.elim
            refine iff_of_true (.of_eq hdb) ?_
            cases call with
            | chain call => trivial
            | _ => exact hsend.elim
          · exact audits_iff_of_delivery (courierAnswers_of_not_broadcasts hsend hanswer.1).1
      | createServiceRequest input => exact iff_of_true (audits_of_transacts hanswer) trivial
  | environment hdrift =>
      refine iff_of_true ?_ trivial
      cases hdrift with
      | record id u =>
          cases hrow : c.world.db.request? id with
          | none =>
              refine .of_status ?_
              funext j
              rw [Db.status?, Db.request?_updateRequest]
              by_cases hj : j = id
              · subst hj
                simp [hrow, Db.status?]
              · simp [hj, Db.status?]
          | some row => exact .of_status ((Db.status?_updateRequest_eq_iff hrow _).2 nofun)
      | put objects => exact .of_eq rfl
      | other db hrows _ => exact .of_status (Db.status?_congr hrows)
  | finish _ _ | crash _ _ | start _ _ => exact iff_of_true (.of_eq rfl) trivial

/-- A run is audited throughout exactly if no call of it changes a status without an
audit row. -/
theorem audited_iff_changesAudited {db : Db}
    {run : List (Label systemSig Failure ι × SystemPool ι)}
    (hrun : IsRun (system ι env).Step (SystemPool.initial db) run) :
    IsRun Audited (SystemPool.initial db) run ↔ IsRun ChangesAudited (SystemPool.initial db) run :=
  hrun.iff_of_step (fun _ _ _ (hc : SystemPool.Inv env _) h _ => hc.step h)
    (fun _ _ _ hc h => audited_iff_step hc h) (SystemPool.inv_initial env db)

end Step

/-- The route stages a request, and writes no audit row. -/
theorem not_audited_of_post :
    ¬ ∀ run, IsRun (system Unit plainEnv).Step (SystemPool.initial {}) run →
      IsRun Audited (SystemPool.initial {}) run := by
  intro h
  obtain ⟨_, _, _, _, hcreate, _⟩ := h [(_, _), (_, _), (_, _), (_, _), (_, _)] ⟨
    .start (i := ()) rfl (.post "ip" exampleSession (some exampleBody)),
    .act (i := ()) rfl post_rateLimit, .act (i := ()) rfl post_agentENSName,
    .act (i := ()) rfl post_now, .act (i := ()) rfl post_create, trivial⟩
  obtain ⟨rows, hrows, hlength⟩ := hcreate "sr-1" nofun
  obtain rfl : [] = rows := hrows
  cases hlength

/-- An intake is audited. -/
theorem audited_of_intake :
    ∃ run, IsRun (system Unit plainEnv).Step (SystemPool.initial oneOrg) run ∧ run.length = 2 ∧
      IsRun Audited (SystemPool.initial oneOrg) run := by
  have hstage : (system Unit plainEnv).Step
      ⟨postedWorld oneOrg [], Function.update (fun _ => none) () (some ⟨(fun _ => ()) <$>
        Program.perform (S := systemSig) (.createServiceRequest exampleIntake), .idle⟩)⟩
      (.act () (.createServiceRequest exampleIntake) intakeAnswer) ⟨intakeWorld oneIntake, _⟩ :=
    .act rfl intake_stage
  have hrun : IsRun (system Unit plainEnv).Step (SystemPool.initial oneOrg) [(_, _), (_, _)] :=
    ⟨.start (i := ()) rfl (.createServiceRequest exampleIntake), hstage, trivial⟩
  exact ⟨_, hrun, rfl, (audited_iff_changesAudited hrun).2 ⟨trivial, trivial, trivial⟩⟩

end EpsDapp
