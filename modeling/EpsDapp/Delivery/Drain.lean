import EpsDapp.Delivery.Rpc

/-!
# Draining a backlog

One worker with the database to itself drains whatever is claimable, each row
against an RPC of its own. A turn takes the oldest row of the backlog and leaves
it terminal, or throws; and it throws exactly when the delivery fails and the
failure transaction does too: the row has no organization, so that `restoreQuota`
filters by a null `orgId`, or the reason cannot be stored. So the backlog is
drained if and only if every delivery that fails can be parked.
-/

set_option autoImplicit false

namespace EpsDapp

open Effect DeliveryProgram

/-- The claimable rows. -/
def Db.backlog (db : Db) : List ServiceRequest :=
  db.serviceRequests.rows.filter fun r => r.status.Claimable

theorem Db.mem_backlog_iff {db : Db} {r : ServiceRequest} :
    r ∈ db.backlog ↔ db.request? r.id = some r ∧ r.status.Claimable := by
  simp [backlog, request?_eq_some_iff, Table.mem_def]

theorem Db.nodup_backlog (db : Db) : db.backlog.Nodup :=
  db.serviceRequests.nodup.of_map.filter _

/-- A row that becomes terminal leaves the backlog. -/
theorem Db.Replaces.backlog_perm {db db' : Db} {r r' : ServiceRequest} (h : db.Replaces r' db')
    (hr : r ∈ db.backlog) (hid : r'.id = r.id) (hterminal : r'.status.Terminal) :
    db.backlog.Perm (r :: db'.backlog) := by
  have hrow : db.request? r.id = some r := (Db.mem_backlog_iff.1 hr).1
  have hgone : ∀ r'' ∈ db'.backlog, r''.id ≠ r.id := by
    rintro r'' hmem heq
    obtain ⟨hrow'', hclaimable⟩ := Db.mem_backlog_iff.1 hmem
    rw [heq, ← hid, h.row] at hrow''
    obtain rfl := Option.some.inj hrow''
    exact (ServiceStatus.claimable_iff_not_terminal _).1 hclaimable hterminal
  refine (List.perm_ext_iff_of_nodup db.nodup_backlog ?_).2 fun r'' => ?_
  · exact List.nodup_cons.2 ⟨fun hmem => hgone r hmem rfl, db'.nodup_backlog⟩
  · rw [List.mem_cons]
    by_cases heq : r''.id = r.id
    · rw [or_iff_left fun hmem => hgone r'' hmem heq]
      constructor
      · intro hmem
        have hrow'' := (Db.mem_backlog_iff.1 hmem).1
        rw [heq, hrow] at hrow''
        exact (Option.some.inj hrow'').symm
      · rintro rfl
        exact hr
    · rw [or_iff_right fun h => heq (congrArg _ h), Db.mem_backlog_iff, Db.mem_backlog_iff,
        h.others _ (hid ▸ heq)]

/-- The RPC delivers the row. -/
def Rpc.Delivers (rpc : Rpc) (web3 : Web3) (row : ClaimableRequest) : Prop :=
  ∃ signature confirmed tx, rpc.Confirms web3 row signature confirmed tx

/-- The status of a row is no part of what its delivery depends on. -/
theorem Rpc.delivers_inProgress_iff (rpc : Rpc) (web3 : Web3) (row : ClaimableRequest) :
    rpc.Delivers web3 { row with status := .inProgress } ↔ rpc.Delivers web3 row := by
  constructor
  · rintro ⟨signature, confirmed, tx, h⟩
    exact ⟨signature, confirmed, tx, h.adapter, h.signs, h.resolves, h.read, h.reread, h.memo⟩
  · rintro ⟨signature, confirmed, tx, h⟩
    exact ⟨signature, confirmed, tx, h.adapter, h.signs, h.resolves, h.read, h.reread, h.memo⟩

/-- If the delivery of `r` fails, the failure can be parked: there is an organization to
give the unit back to, and the reason can be stored. -/
def Rpc.Parks (rpc : Rpc) (web3 : Web3) (r : ServiceRequest) : Prop :=
  ∀ e, rpc.outcome web3 r.select = .error e → r.orgId ≠ none ∧ ReasonStorable e.message

theorem Rpc.parks_of_outcome_ok {rpc : Rpc} {web3 : Web3} {r : ServiceRequest}
    (h : rpc.outcome web3 r.select = .ok ()) : rpc.Parks web3 r := fun e he => by
  rw [h] at he
  cases he

theorem Rpc.parks_iff_of_error {rpc : Rpc} {web3 : Web3} {r : ServiceRequest} {e : Failure}
    (h : rpc.outcome web3 r.select = .error e) :
    rpc.Parks web3 r ↔ r.orgId ≠ none ∧ ReasonStorable e.message := by
  simp [Parks, h]

/-- The failure transaction of a row parks it, if the row has an organization and the
reason can be stored. -/
theorem failServiceRequest_parks {db db' : Db} {r : ServiceRequest}
    (hrow : db.request? r.id = some r) {input : FailServiceRequestInput}
    (hid : input.serviceRequestId = r.id) {result : Except Failure Bool}
    (h : (failServiceRequest input).RunsAtomically serverAnswers db db' result) :
    ((input.orgId ≠ none ∧ ReasonStorable input.reason) ∧ ∃ restored r', result = .ok restored ∧
        r'.id = r.id ∧ r'.status = .failed ∧ db.Replaces r' db') ∨
      (¬ (input.orgId ≠ none ∧ ReasonStorable input.reason) ∧ ∃ e, result = .error e) := by
  rcases (failServiceRequest_runsAtomically_iff input db db' result).1 h with
    ⟨row, o, sel, hreason, hrow', horg, -, rfl, rfl⟩ | ⟨-, -, hnone, -⟩ | ⟨-, -, -, horg, rfl⟩ |
      ⟨-, hreason, rfl⟩
  · refine Or.inl ⟨⟨by simp [horg], hreason⟩, _, input.update.apply r, rfl, rfl, rfl, ?_,
      fun id hne => ?_⟩
    · rw [Db.request?, input.commit_serviceRequests db sel]
      refine (db.request?_updateRequest _ _ _).trans ?_
      rw [hid, apply_id, if_pos rfl, hrow, Option.map_some]
    · rw [Db.request?, input.commit_serviceRequests db sel]
      refine (db.request?_updateRequest _ _ _).trans ?_
      rw [hid]
      exact if_neg hne
  · rw [hid, hrow] at hnone
    cases hnone
  · exact Or.inr ⟨fun h => h.1 horg, _, rfl⟩
  · exact Or.inr ⟨fun h => hreason h.2, _, rfl⟩

section Turn

variable {env : WorkerEnv} {web3 : Web3} {rpc : String → Rpc} {r : ServiceRequest} {db : Db}

/-- What an attempt at `r` comes to: the row is terminal, or its failure cannot be parked. -/
def Settles (rpc : Rpc) (web3 : Web3) (r : ServiceRequest) (db : Db) {α : Type} :
    Except Failure α → Db → Prop
  | .ok _, db' => rpc.Parks web3 r ∧ ∃ r', r'.id = r.id ∧ r'.status.Terminal ∧ db.Replaces r' db'
  | .error _, _ => ¬ rpc.Parks web3 r

theorem attempt_settles (hrow : db.request? r.id = some r) (hstatus : r.status = .inProgress) :
    (attempt env web3 r.select).wp (rpcAnswers deliveryAnswers rpc)
      (fun _ c => c.Records → (rpc r.id).Delivers web3 r.select)
      (fun result s => Settles (rpc r.id) web3 r db result s.2) (.held r.select 0, db) := by
  refine Program.wp_catch (processServiceRequest_wp mayFault_delivery hrow hstatus) ?_ ?_
  · rintro _ s ⟨signature, confirmed, tx, h, hreplaces⟩
    exact ⟨Rpc.parks_of_outcome_ok h.outcome_eq, r.confirmed signature confirmed, rfl,
      trivial, hreplaces⟩
  · rintro e s ⟨hfails, r', hid, -, hreplaces⟩
    have houtcome : (rpc r.id).outcome web3 r.select = .error e := hfails.resolve_left id
    refine (Program.wp_bind _ _ _ _).2 ((Program.wp_perform _ _ _).2 ⟨fun h => h.elim, ?_⟩)
    rintro s' result ⟨hfail, -, -⟩
    rcases failServiceRequest_parks (r := r') (hid ▸ hreplaces.row) hid.symm hfail with
      ⟨hparks, restored, r'', rfl, hid', hfailed, hparked⟩ | ⟨hparks, e', rfl⟩
    · refine ⟨(Rpc.parks_iff_of_error houtcome).2 hparks, r'', hid'.trans hid, ?_,
        hreplaces.trans hparked hid'⟩
      rw [hfailed]
      trivial
    · exact mt (Rpc.parks_iff_of_error houtcome).1 hparks

/-- The attempt that a claim leads to. -/
theorem attempt_settles_claimed {db' : Db}
    (h : db.Replaces (({ status := some .inProgress } : ServiceRequestUpdate).apply r) db') :
    (attempt env web3 { r.select with status := .inProgress }).wp (rpcAnswers deliveryAnswers rpc)
      (fun _ c => c.Records → (rpc r.id).Delivers web3 r.select)
      (fun result s => Settles (rpc r.id) web3 r db result s.2)
      (.held { r.select with status := .inProgress } 0, db') := by
  have hdelivers := (rpc r.id).delivers_inProgress_iff web3 r.select
  refine Program.wp_mono _ (fun _ _ _ _ h => h) (fun _ _ h hc => hdelivers.1 (h hc)) ?_
    (attempt_settles h.row rfl)
  rintro (e | _) s hsettles
  · exact hsettles
  · obtain ⟨hparks, r', hid, hterminal, hreplaces⟩ := hsettles
    exact ⟨hparks, r', hid, hterminal, h.trans hreplaces hid⟩

/-- The jobs whose claims have succeeded, in order. -/
def watchClaims (log : List String) : (c : DeliveryCall) → Except Failure c.Resp → List String
  | .serviceRequestClaim id, .ok (_ + 1) => log ++ [id]
  | _, _ => log

/-- The worker alone with its database, each attempt against the RPC of its row,
and a log of the jobs it has claimed. -/
def drainAnswers (rpc : String → Rpc) : Answers deliverySig Failure ((Job × Db) × List String) :=
  (rpcAnswers deliveryAnswers rpc).observed watchClaims

theorem watchClaims_of_onRow {id : String} {c : DeliveryCall} (hc : c.OnRow id)
    (log : List String) (r : Except Failure c.Resp) : watchClaims log c r = log := by
  cases c with
  | serviceRequestClaim _ => exact hc.elim
  | _ => rfl

/-- A turn finds the backlog empty, or takes an oldest row of it and settles that
row. -/
def Turns (rpc : String → Rpc) (web3 : Web3) (db : Db) (log : List String) :
    Except Failure Bool → (Job × Db) × List String → Prop
  | .ok false, s => s.1.2 = db ∧ s.2 = log ∧ db.backlog = []
  | .ok true, s => ∃ r ∈ db.backlog, (∀ r' ∈ db.backlog, r.createdAt ≤ r'.createdAt) ∧
      s.2 = log ++ [r.id] ∧ Settles (rpc r.id) web3 r db (.ok ()) s.1.2
  | .error _, _ => ∃ r ∈ db.backlog, ¬ (rpc r.id).Parks web3 r

/-- The rule of a turn of a worker that has the database to itself: it finds the backlog
empty, or it attempts an oldest row of it, which it has claimed. -/
theorem wp_turn {G : Type} {E : Answers deliverySig Failure ((Job × Db) × G)}
    {Ok : (Job × Db) × G → DeliveryCall → Prop}
    {Q : Except Failure Bool → (Job × Db) × G → Prop} {job : Job} {g : G}
    (hE : ∀ s c s' r, E s c s' r → rpcAnswers deliveryAnswers rpc s.1 c s'.1 r)
    (hOk : ∀ s c, ¬ c.Records → Ok s c)
    (hempty : ∀ s, E ((job, db), g) .serviceRequestFindClaimable s (.ok none) →
      s.1.2 = db → db.backlog = [] → Q (.ok false) s)
    (hturn : ∀ r s s' db' n, r ∈ db.backlog → (∀ r' ∈ db.backlog, r.createdAt ≤ r'.createdAt) →
      E ((job, db), g) .serviceRequestFindClaimable s (.ok (some r.select)) →
      E s (.serviceRequestClaim r.id) s' (.ok (n + 1)) →
      s'.1 = (.held { r.select with status := .inProgress } 0, db') →
      db.Replaces (({ status := some .inProgress } : ServiceRequestUpdate).apply r) db' →
      (attempt env web3 { r.select with status := .inProgress }).wp E Ok
        (fun result s => Q (result.map fun _ => true) s) s') :
    (runOnce env web3).wp E Ok Q ((job, db), g) := by
  refine wp_runOnce env web3 (hOk _ _ id) ?_ ?_ ?_
  · intro s e h
    obtain ⟨⟨_, candidate, _, h⟩, _⟩ := hE _ _ _ _ h
    cases h
  · intro s h
    obtain ⟨⟨hdb, candidate, holdest, hcandidate⟩, _⟩ := hE _ _ _ _ h
    cases candidate with
    | some r => cases hcandidate
    | none =>
        refine hempty s h hdb (List.filter_eq_nil_iff.2 fun r hr => ?_)
        simpa using holdest r hr
  · rintro ⟨⟨job', db'⟩, g'⟩ row hfind
    obtain ⟨⟨hdb, candidate, holdest, hcandidate⟩, _, hjob⟩ := hE _ _ _ _ hfind
    obtain rfl : db' = db := hdb
    cases candidate with
    | none => cases hcandidate
    | some r =>
        cases hcandidate
        obtain rfl : job' = .found r.select := hjob
        obtain ⟨hmem, hclaimable, hfirst⟩ := holdest
        have hrow : db'.request? r.id = some r := (Db.request?_eq_some_iff _ _ _).2 ⟨hmem, rfl⟩
        have hclaim := db'.claim_of_claimable hrow hclaimable
        refine ⟨hOk _ _ id, ?_, ?_, ?_⟩
        · intro s e h
          obtain ⟨⟨_, h⟩, _⟩ := hE _ _ _ _ h
          cases h
        · intro s h
          obtain ⟨⟨_, h⟩, _⟩ := hE _ _ _ _ h
          cases h.trans (congrArg (fun p => Except.ok p.2) hclaim)
        · intro s n h
          obtain ⟨⟨hdb, -⟩, _, hjob⟩ := hE _ _ _ _ h
          refine hturn r _ s s.1.2 n (Db.mem_backlog_iff.2 ⟨hrow, hclaimable⟩) ?_ hfind h
            (Prod.ext hjob rfl) ?_
          · intro r' hr'
            obtain ⟨hrow', hclaimable'⟩ := Db.mem_backlog_iff.1 hr'
            exact not_lt.1 (hfirst r' ((Db.request?_eq_some_iff _ _ _).1 hrow').1 hclaimable')
          · rw [show s.1.2 = db'.updateRequest r.id { status := some .inProgress } from
              hdb.trans (congrArg Prod.fst hclaim)]
            exact Db.replaces_updateRequest hrow _

/-- A turn takes an oldest row, and starts recordings only if this row is delivered. -/
theorem runOnce_turns (job : Job) (db : Db) (log : List String) :
    (runOnce env web3).wp (drainAnswers rpc)
      (fun _ c => c.Records → ∃ r ∈ db.backlog, (∀ r' ∈ db.backlog, r.createdAt ≤ r'.createdAt) ∧
        (rpc r.id).Delivers web3 r.select)
      (Turns rpc web3 db log) ((job, db), log) := by
  refine wp_turn (fun _ _ _ _ h => h.1) (fun _ _ h h' => absurd h' h) ?_ ?_
  · rintro s ⟨-, hlog⟩ hdb hempty
    exact ⟨hdb, hlog, hempty⟩
  · rintro r ⟨_, log'⟩ ⟨_, log''⟩ db' n hr holdest ⟨-, hfound⟩ ⟨-, hclaimed⟩ rfl hreplaces
    obtain rfl : log' = log := hfound
    obtain rfl : log'' = log' ++ [r.id] := hclaimed
    have hlogged : (attempt env web3 { r.select with status := .inProgress }).wp
        (drainAnswers rpc) (fun _ _ => True) (fun _ s => s.2 = log' ++ [r.id])
        ((.held { r.select with status := .inProgress } 0, db'), log' ++ [r.id]) := by
      refine (attempt_only env web3 _).wp (fun s c s' result hc hs hanswer => ?_)
        (fun _ _ _ _ => trivial) rfl
      rw [hanswer.2, watchClaims_of_onRow hc, hs]
    refine Program.wp_mono _ (fun _ _ _ _ h => h) (fun _ _ h hc => ⟨r, hr, holdest, h hc⟩) ?_
      (Program.wp_and (Program.wp_observed (attempt_settles_claimed hreplaces) _) hlogged)
    rintro (e | _) s ⟨h, hlog⟩
    · exact ⟨r, hr, h⟩
    · exact ⟨r, hr, holdest, hlog, h⟩

/-- `order` is the backlog of `db` from the oldest row on, each row of it is
terminal in `db'`, and no other row has changed. -/
structure Drained (db : Db) (order : List ServiceRequest) (db' : Db) : Prop where
  perm : order.Perm db.backlog
  sorted : order.Pairwise fun r r' => r.createdAt ≤ r'.createdAt
  terminal : ∀ r ∈ order, ∃ r', db'.request? r.id = some r' ∧ r'.status.Terminal
  others : ∀ id, (∀ r ∈ order, r.id ≠ id) → db'.request? id = db.request? id

theorem Drained.cons {db db₁ db' : Db} {r r' : ServiceRequest} {order : List ServiceRequest}
    (hr : r ∈ db.backlog) (holdest : ∀ r'' ∈ db.backlog, r.createdAt ≤ r''.createdAt)
    (hid : r'.id = r.id) (hterminal : r'.status.Terminal) (hreplaces : db.Replaces r' db₁)
    (h : Drained db₁ order db') : Drained db (r :: order) db' := by
  have hperm := hreplaces.backlog_perm hr hid hterminal
  have hmem : ∀ r'' ∈ order, r'' ∈ db.backlog ∧ r''.id ≠ r.id := by
    intro r'' hr''
    have hr₁ : r'' ∈ db₁.backlog := h.perm.mem_iff.1 hr''
    refine ⟨hperm.mem_iff.2 (List.mem_cons_of_mem _ hr₁), fun heq => ?_⟩
    obtain ⟨hrow, hclaimable⟩ := Db.mem_backlog_iff.1 hr₁
    rw [heq, ← hid, hreplaces.row] at hrow
    obtain rfl := Option.some.inj hrow
    exact (ServiceStatus.claimable_iff_not_terminal _).1 hclaimable hterminal
  refine ⟨(h.perm.cons r).trans hperm.symm, ?_, ?_, fun id hne => ?_⟩
  · exact List.pairwise_cons.2 ⟨fun r'' hr'' => holdest r'' (hmem r'' hr'').1, h.sorted⟩
  · refine List.forall_mem_cons.2 ⟨⟨r', ?_, hterminal⟩, h.terminal⟩
    rw [h.others r.id fun r'' hr'' => (hmem r'' hr'').2, ← hid]
    exact hreplaces.row
  · rw [h.others id fun r'' hr'' => hne r'' (List.mem_cons_of_mem _ hr'')]
    exact hreplaces.others id fun heq => hne r List.mem_cons_self (heq.trans hid).symm

/-- What the loop of `drain` comes to: the backlog is drained, the fuel runs out
before the backlog does, or a delivery fails that cannot be parked. -/
def Drains (rpc : String → Rpc) (web3 : Web3) (fuel processed : ℕ) (db : Db)
    (log : List String) : Except Failure (Option ℕ) → (Job × Db) × List String → Prop
  | .ok (some n), s => ∃ order, Drained db order s.1.2 ∧ s.2 = log ++ order.map (·.id) ∧
      n = processed + order.length ∧
      ∀ r ∈ order, (rpc r.id).Parks web3 r
  | .ok none, _ => fuel ≤ db.backlog.length
  | .error _, _ => ∃ r ∈ db.backlog, ¬ (rpc r.id).Parks web3 r

theorem drainFrom_drains (fuel processed : ℕ) (job : Job) (db : Db) (log : List String) :
    (drainFrom env web3 fuel processed).wp (drainAnswers rpc) (fun _ _ => True)
      (Drains rpc web3 fuel processed db log) ((job, db), log) := by
  induction fuel generalizing processed job db log with
  | zero => exact Nat.zero_le _
  | succ fuel ih =>
      rw [drainFrom]
      refine Program.wp_seq (Program.wp_mono _ (fun _ _ _ _ h => h) (fun _ _ _ => trivial)
        (fun _ _ h => h) (runOnce_turns job db log)) ?_ fun e s h => h
      rintro more ⟨⟨job', db₁⟩, log'⟩ h
      cases more with
      | false =>
          obtain ⟨hdb, hlog, hempty⟩ := h
          obtain rfl : db₁ = db := hdb
          refine ⟨[], ⟨?_, .nil, by simp, fun _ _ => rfl⟩, by simpa using hlog, rfl, by simp⟩
          rw [hempty]
      | true =>
          obtain ⟨r, hr, holdest, hlog, hparks, r', hid, hterminal, hreplaces⟩ := h
          obtain rfl : log' = log ++ [r.id] := hlog
          have hperm := hreplaces.backlog_perm hr hid hterminal
          refine Program.wp_post _ ?_ (ih (processed + 1) job' db₁ (log ++ [r.id]))
          rintro (e | _ | n) s h
          · obtain ⟨r₀, hr₀, hfails⟩ := h
            exact ⟨r₀, hperm.mem_iff.2 (List.mem_cons_of_mem _ hr₀), hfails⟩
          · have hlength : db.backlog.length = db₁.backlog.length + 1 := hperm.length_eq
            exact (Nat.succ_le_succ h).trans_eq hlength.symm
          · obtain ⟨order, hdrained, hlog, hn, hall⟩ := h
            refine ⟨r :: order, .cons hr holdest hid hterminal hreplaces hdrained, ?_, ?_, ?_⟩
            · rw [hlog, List.map_cons, List.append_assoc, List.singleton_append]
            · rw [hn, List.length_cons]
              omega
            · exact List.forall_mem_cons.2 ⟨hparks, hall⟩

end Turn

/-- Every run of `drain` with enough fuel returns the number of claimable rows,
has processed each of them once in the order of `createdAt`, and leaves each of
them `CONFIRMED` or `FAILED`. -/
def DrainsBacklog (env : WorkerEnv) (web3 : Web3) (rpc : String → Rpc) (db : Db) : Prop :=
  ∀ fuel, db.backlog.length < fuel → ∀ s result,
    (drain env web3 fuel).Runs (drainAnswers rpc) ((.idle, db), []) s result →
    ∃ order : List ServiceRequest, order.Perm db.backlog ∧
      order.Pairwise (fun r r' => r.createdAt ≤ r'.createdAt) ∧ s.2 = order.map (·.id) ∧
      result = .ok (some db.backlog.length) ∧
      ∀ r ∈ db.backlog, ∃ r', s.1.2.request? r.id = some r' ∧ r'.status.Terminal

section Backlog

variable {env : WorkerEnv} {web3 : Web3} {rpc : String → Rpc} {db : Db}

theorem drainAnswers_total (rpc : String → Rpc) (s : (Job × Db) × List String)
    (c : DeliveryCall) : ∃ s' r, drainAnswers rpc s c s' r := by
  obtain ⟨s', r, h⟩ := rpcAnswers_total rpc s.1 c
  exact ⟨(s', watchClaims s.2 c r), r, h, rfl⟩

/-- If the backlog is drained, every delivery of it that fails can be parked. -/
theorem parks_of_drainsBacklog (h : DrainsBacklog env web3 rpc db) :
    ∀ r ∈ db.backlog, (rpc r.id).Parks web3 r := by
  obtain ⟨s, result, hrun⟩ := Program.exists_runs (drainAnswers_total rpc)
    (drain env web3 (db.backlog.length + 1)) ((.idle, db), [])
  obtain ⟨_, _, _, _, rfl, _⟩ := h _ (Nat.lt_succ_self _) s result hrun
  obtain ⟨order, hdrained, _, _, hall⟩ := Program.wp_runs _ (drainFrom_drains _ 0 .idle db []) hrun
  exact fun r hr => hall r (hdrained.perm.mem_iff.2 hr)

/-- A worker drains its backlog exactly when each delivery of it that fails is of a row with
an organization, and has a reason that can be stored. -/
theorem drainsBacklog_iff (env : WorkerEnv) (web3 : Web3) (rpc : String → Rpc) (db : Db) :
    DrainsBacklog env web3 rpc db ↔ ∀ r ∈ db.backlog, (rpc r.id).Parks web3 r := by
  refine ⟨parks_of_drainsBacklog, fun hall fuel hfuel s result hrun => ?_⟩
  have h := Program.wp_runs _ (drainFrom_drains fuel 0 .idle db []) hrun
  rcases result with e | _ | n
  · obtain ⟨r, hr, hparks⟩ := h
    exact absurd (hall r hr) hparks
  · exact absurd h (not_le.2 hfuel)
  · obtain ⟨order, hdrained, hlog, hn, _⟩ := h
    refine ⟨order, hdrained.perm, hdrained.sorted, by simpa using hlog, ?_, fun r hr => ?_⟩
    · rw [hn, hdrained.perm.length_eq, Nat.zero_add]
    · exact hdrained.terminal r (hdrained.perm.mem_iff.2 hr)

end Backlog

/-- A request staged by a filer without an organization. -/
def filerRequest : ServiceRequest :=
  ServiceRequestCreate.row { exampleFiling with userId := some "user-1", organization := none }
    "sr-1" none 0

/-- The first delivery of a filer without an organization fails, and the queue is
blocked. -/
theorem not_drainsBacklog_of_filer :
    ¬ DrainsBacklog ⟨none, none⟩ asciiWeb3
      (fun _ => { promptRpc (asciiTransaction 7 none none "") with
        sendTransaction := .error (.error "blockhash not found") })
      { serviceRequests := Table.empty.insert filerRequest rfl } := by
  intro h
  have hparks := parks_of_drainsBacklog h filerRequest (by decide)
  have hfails : Rpc.outcome { promptRpc (asciiTransaction 7 none none "") with
      sendTransaction := .error (.error "blockhash not found") } asciiWeb3 filerRequest.select =
        .error (.error "blockhash not found") := rfl
  exact (hparks _ hfails).1 rfl

end EpsDapp
