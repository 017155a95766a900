import EpsDapp.Intake.Binding

/-!
# Metered staging at the HTTP entry point

`POST /api/service-requests` charges the organization in one statement and
creates the row in a later one, outside any transaction. So a run of it may be
cut off in between: the meter is charged, and no row is there. In every other run
the meter is charged exactly if the row is there.
-/

set_option autoImplicit false

namespace EpsDapp

open Effect ServerProgram

namespace Db

/-- From `db` to `db'` the meter of the organization has gone one unit up, or has been
rolled over to its first unit. -/
def Charged (orgId : String) (db db' : Db) : Prop :=
  ∃ s u, db.LatestSubscription (.activeOfClerkOrg orgId) (some s) ∧
    db'.subscriptions = (db.updateSubscription s.id u).subscriptions ∧
    (u = { usageCount := (· + 1) } ∨ ∃ now, s.periodEnd < now ∧ u = rollover now)

/-- From `db` to `db'` a request has been staged. -/
def Staged (db db' : Db) : Prop :=
  ∃ id row, db.request? id = none ∧ db'.request? id = some row ∧ row.status = .staged

/-- The meter is charged exactly if a request has been staged, and is left as it was
otherwise. -/
def AllOrNothing (orgId : String) (db db' : Db) : Prop :=
  (db.Charged orgId db' ↔ db.Staged db') ∧
    (¬ db.Charged orgId db' → db'.subscriptions = db.subscriptions)

/-- A meter that is charged is not as it was. -/
theorem Charged.subscriptions_ne {orgId : String} {db db' : Db} (h : db.Charged orgId db') :
    db'.subscriptions ≠ db.subscriptions := by
  obtain ⟨s, u, ⟨hs, -, -⟩, hdb', hu⟩ := h
  intro heq
  have hsome : db.subscription? s.id = some s := db.subscriptions.get?_key_eq hs
  have hupdated := db.subscription?_updateSubscription s.id s.id u
  rw [if_pos rfl, hsome, subscription?, ← hdb', heq] at hupdated
  have happly : s = u.apply s := Option.some.inj (hsome.symm.trans hupdated)
  rcases hu with rfl | ⟨now, hnow, rfl⟩
  · have hcount : s.usageCount = s.usageCount + 1 := congrArg Subscription.usageCount happly
    omega
  · have hend : s.periodEnd = nextPeriodEnd now := congrArg Subscription.periodEnd happly
    exact lt_asymm hnow (hend ▸ Calendar.lt_addMonths now one_pos)

theorem not_staged_of_serviceRequests {db db' : Db}
    (h : db'.serviceRequests = db.serviceRequests) : ¬ db.Staged db' := by
  rintro ⟨id, row, hnone, hsome, -⟩
  rw [request?, h, ← request?, hnone] at hsome
  cases hsome

theorem allOrNothing_refl (orgId : String) (db : Db) : db.AllOrNothing orgId db := by
  have hcharged : ¬ db.Charged orgId db := fun h => h.subscriptions_ne rfl
  exact ⟨iff_of_false hcharged (not_staged_of_serviceRequests rfl), fun _ => rfl⟩

end Db

/-! ## Runs that may be cut off -/

/-- A call that was answered, with its answer. -/
abbrev Answered := (c : ServerCall) × Except Failure c.Resp

/-- The statement has charged a meter. -/
def Charges : Answered → Prop
  | ⟨.quota (.subscriptionUpdate _ _), .ok _⟩ => True
  | ⟨.quota (.subscriptionIncrement _ _), .ok (_ + 1)⟩ => True
  | _ => False

/-- The creation of the row has failed. -/
def CreateFails : Answered → Prop
  | ⟨.serviceRequestCreate _, .error _⟩ => True
  | _ => False

/-- What the route awaits between the charge and the row. -/
def ServerCall.BeforeRow : ServerCall → Prop
  | quota .now | serviceRequestCreate _ => True
  | _ => False

/-- The answers to a run of the route: every call but the clock's may fail, and leaves
the database as it was. -/
def routeAnswers : Answers serverSig Failure Db := fun db c db' r =>
  c.Exec db db' r ∨ (c ≠ .quota .now ∧ db' = db ∧ ∃ e, r = .error e)

/-- They are written down in order. -/
def tracedAnswers : Answers serverSig Failure (Db × List Answered) :=
  routeAnswers.observed fun trace c r => trace ++ [⟨c, r⟩]

/-- The creation of the row does not fail, and the process does not die between the
charge and it. -/
def Uninterrupted {α : Type} (trace : List Answered) (point : Program.Halt serverSig Failure α) :
    Prop :=
  (∀ a ∈ trace, ¬ CreateFails a) ∧
    ∀ c, point = .awaiting c → c.BeforeRow → ∀ a ∈ trace, ¬ Charges a

/-! ## The three phases of a run -/

variable {orgId : String} {db : Db} {s s' : Db × List Answered}

/-- Nothing has been charged. -/
structure Uncharged (db : Db) (s : Db × List Answered) : Prop where
  db : s.1 = db
  charges : ∀ a ∈ s.2, ¬ Charges a
  creates : ∀ a ∈ s.2, ¬ CreateFails a

/-- The meter has been charged, and no request staged. -/
structure ChargedOnly (orgId : String) (db : Db) (s : Db × List Answered) : Prop where
  charged : db.Charged orgId s.1
  requests : s.1.serviceRequests = db.serviceRequests
  charges : ∃ a ∈ s.2, Charges a
  creates : ∀ a ∈ s.2, ¬ CreateFails a

/-- The meter has been charged, and the request staged. -/
structure ChargedAndStaged (orgId : String) (db : Db) (s : Db × List Answered) : Prop where
  charged : db.Charged orgId s.1
  staged : db.Staged s.1
  creates : ∀ a ∈ s.2, ¬ CreateFails a

/-- What is to be shown of a run that has come to `point`. -/
def Tallied (orgId : String) (db : Db) {α : Type} (s : Db × List Answered)
    (point : Program.Halt serverSig Failure α) : Prop :=
  db.AllOrNothing orgId s.1 ↔ Uninterrupted s.2 point

section Phases

variable {α : Type} {point : Program.Halt serverSig Failure α}

theorem Uncharged.tallied (h : Uncharged db s) : Tallied orgId db s point :=
  iff_of_true (h.db ▸ Db.allOrNothing_refl orgId db) ⟨h.creates, fun _ _ _ => h.charges⟩

theorem ChargedOnly.not_allOrNothing (h : ChargedOnly orgId db s) :
    ¬ db.AllOrNothing orgId s.1 :=
  fun hall => Db.not_staged_of_serviceRequests h.requests (hall.1.1 h.charged)

theorem ChargedOnly.tallied_awaiting (h : ChargedOnly orgId db s) {c : ServerCall}
    (hc : c.BeforeRow) : Tallied orgId db s (.awaiting c : Program.Halt serverSig Failure α) := by
  refine iff_of_false h.not_allOrNothing fun hpoint => ?_
  obtain ⟨a, ha, hcharges⟩ := h.charges
  exact hpoint.2 c rfl hc a ha hcharges

theorem ChargedOnly.tallied_of_createFails (h : ChargedOnly orgId db s) (hdb : s'.1 = s.1)
    (hfails : ∃ a ∈ s'.2, CreateFails a) : Tallied orgId db s' point := by
  refine iff_of_false (hdb ▸ h.not_allOrNothing) fun hpoint => ?_
  obtain ⟨a, ha, hcreate⟩ := hfails
  exact hpoint.1 a ha hcreate

theorem ChargedAndStaged.tallied (h : ChargedAndStaged orgId db s)
    (hpoint : ∀ c, point = .awaiting c → ¬ c.BeforeRow) : Tallied orgId db s point := by
  refine iff_of_true ⟨iff_of_true h.charged h.staged, fun hnot => absurd h.charged hnot⟩ ?_
  exact ⟨h.creates, fun c hc hbefore => absurd hbefore (hpoint c hc)⟩

theorem forall_mem_step {P : Answered → Prop} {trace : List Answered} {a : Answered}
    (h : ∀ b ∈ trace, ¬ P b) (ha : ¬ P a) : ∀ b ∈ trace ++ [a], ¬ P b := by
  intro b hb
  rcases List.mem_append.1 hb with hb | hb
  · exact h b hb
  · exact List.mem_singleton.1 hb ▸ ha

/-- A call that changes nothing leaves a run uncharged. -/
theorem Uncharged.step (h : Uncharged db s) {c : ServerCall} {r : Except Failure c.Resp}
    (hanswer : tracedAnswers s c s' r) (hdb : s'.1 = s.1) (hcharges : ¬ Charges ⟨c, r⟩)
    (hcreates : ¬ CreateFails ⟨c, r⟩) : Uncharged db s' :=
  ⟨hdb.trans h.db, hanswer.2 ▸ forall_mem_step h.charges hcharges,
    hanswer.2 ▸ forall_mem_step h.creates hcreates⟩

/-- The charge. -/
theorem Uncharged.charge (h : Uncharged db s) {c : ServerCall} {r : Except Failure c.Resp}
    (hanswer : tracedAnswers s c s' r) (hcharges : Charges ⟨c, r⟩)
    (hcreates : ¬ CreateFails ⟨c, r⟩) (hcharged : db.Charged orgId s'.1)
    (hrequests : s'.1.serviceRequests = db.serviceRequests) : ChargedOnly orgId db s' :=
  ⟨hcharged, hrequests, hanswer.2 ▸ ⟨_, List.mem_append_right _ (List.mem_singleton_self _), hcharges⟩,
    hanswer.2 ▸ forall_mem_step h.creates hcreates⟩

end Phases

/-! ## What the route does -/

/-- The process may die while it awaits the call. -/
def MayDie (orgId : String) (db : Db) (s : Db × List Answered) (c : ServerCall) : Prop :=
  Tallied orgId db s (.awaiting c : Program.Halt serverSig Failure IntakeResponse)

theorem Uncharged.mayDie (h : Uncharged db s) (c : ServerCall) : MayDie orgId db s c :=
  h.tallied

/-- The meter charges once it returns, and not before. -/
theorem checkAndDecrementQuota_charges (h : Uncharged db s) :
    (quota (checkAndDecrementQuota orgId)).wp tracedAnswers (MayDie orgId db)
      (fun r s' => match r with
        | .ok _ => ChargedOnly orgId db s'
        | .error _ => Uncharged db s') s := by
  rw [quota, Program.wp_lift, checkAndDecrementQuota]
  refine (Program.wp_bind _ _ _ _).2 ((Program.wp_perform _ _ _).2 ⟨h.mayDie _, ?_⟩)
  rintro s₁ _ ⟨found, hfind, rfl⟩
  have hsame : s₁.1 = s.1 := by
    rcases hfind.1 with ⟨hdb, -⟩ | ⟨-, hdb, -⟩
    · exact hdb
    · exact hdb
  have h₁ : Uncharged db s₁ := h.step hfind hsame (fun h => h) fun h => h
  rcases found with e | _ | subscription
  · exact h₁
  · exact h₁
  have hlatest : db.LatestSubscription (.activeOfClerkOrg orgId) (some subscription) := by
    rcases hfind.1 with ⟨-, ⟨-, _, hlatest, hr⟩ | ⟨-, hr⟩⟩ | ⟨-, -, _, hr⟩
    · cases hr
      exact h.db ▸ hlatest
    · cases hr
    · cases hr
  have hsubscription : db.subscription? subscription.id = some subscription :=
    db.subscriptions.get?_key_eq hlatest.1
  simp only
  split
  · exact h₁
  rename_i limit hlimit
  refine (Program.wp_bind _ _ _ _).2 ((Program.wp_perform _ _ _).2 ⟨h₁.mayDie _, ?_⟩)
  rintro s₂ _ ⟨r, hnow, rfl⟩
  obtain ⟨hdb₂, now, rfl⟩ : s₂.1 = s₁.1 ∧ ∃ now, r = .ok now := by
    rcases hnow.1 with h | ⟨hne, -⟩
    · exact h
    · exact absurd rfl hne
  have h₂ : Uncharged db s₂ := h₁.step hnow hdb₂ (fun h => h) fun h => h
  simp only
  split
  · -- The rollover.
    rename_i helapsed
    refine (Program.wp_bind _ _ _ _).2 ((Program.wp_perform _ _ _).2 ⟨h₂.mayDie _, ?_⟩)
    rintro s₃ _ ⟨r, hupdate, rfl⟩
    have hanswer : (s₃.1 = db.updateSubscription subscription.id (rollover now) ∧
        ∃ row, r = .ok row) ∨ (s₃.1 = s₂.1 ∧ ∃ e, r = .error e) := by
      rcases hupdate.1 with hexec | ⟨-, hdb, e, rfl⟩
      · simp only [ServerCall.Exec, QuotaCall.Exec, h₂.db, hsubscription] at hexec
        exact Or.inl ⟨hexec.1, _, hexec.2⟩
      · exact Or.inr ⟨hdb, e, rfl⟩
    rcases hanswer with ⟨hdb, row, rfl⟩ | ⟨hdb, e, rfl⟩
    · refine h₂.charge hupdate trivial (fun h => h) ?_ (hdb ▸ rfl)
      exact ⟨subscription, _, hlatest, hdb ▸ rfl, Or.inr ⟨now, helapsed, rfl⟩⟩
    · exact h₂.step hupdate hdb (fun h => h) fun h => h
  · -- The guarded increment.
    refine (Program.wp_bind _ _ _ _).2 ((Program.wp_perform _ _ _).2 ⟨h₂.mayDie _, ?_⟩)
    rintro s₃ _ ⟨r, hincrement, rfl⟩
    have hanswer : (s₃.1 = db.updateSubscription subscription.id { usageCount := (· + 1) } ∧
        r = .ok 1) ∨ (s₃.1 = s₂.1 ∧ (r = .ok 0 ∨ ∃ e, r = .error e)) := by
      rcases hincrement.1 with hexec | ⟨-, hdb, e, rfl⟩
      · simp only [ServerCall.Exec, QuotaCall.Exec, h₂.db,
          db.updateSubscriptionWhere_of_some _ _ hsubscription] at hexec
        split at hexec
        · obtain ⟨hdb, hr⟩ := Prod.mk.inj hexec
          exact Or.inl ⟨hdb, hr⟩
        · obtain ⟨hdb, hr⟩ := Prod.mk.inj hexec
          exact Or.inr ⟨hdb.trans h₂.db.symm, Or.inl hr⟩
      · exact Or.inr ⟨hdb, Or.inr ⟨e, rfl⟩⟩
    rcases hanswer with ⟨hdb, rfl⟩ | ⟨hdb, rfl | ⟨e, rfl⟩⟩
    · refine h₂.charge hincrement trivial (fun h => h) ?_ (hdb ▸ rfl)
      exact ⟨subscription, _, hlatest, hdb ▸ rfl, Or.inl rfl⟩
    · exact h₂.step hincrement hdb (fun h => h) fun h => h
    · exact h₂.step hincrement hdb (fun h => h) fun h => h

/-- The charge, and what the route answers when there is none. -/
theorem chargeOrg_charges (h : Uncharged db s) (hne : orgId ≠ "") :
    (chargeOrg (some orgId)).wp tracedAnswers (MayDie orgId db)
      (fun r s' => match r with
        | .ok none => ChargedOnly orgId db s'
        | _ => Uncharged db s') s := by
  have htruthy : truthy (some orgId) = some orgId := by simp [truthy, Option.filter, hne]
  rw [chargeOrg, htruthy]
  refine Program.wp_catch (R := fun r s' => (r = .ok none ∧ ChargedOnly orgId db s') ∨
    ((∃ e, r = .error e) ∧ Uncharged db s')) ?_ ?_ ?_
  · refine Program.wp_seq (checkAndDecrementQuota_charges h) ?_ ?_
    · intro _ s' h'
      exact Or.inl ⟨rfl, h'⟩
    · intro e s' h'
      exact Or.inr ⟨⟨e, rfl⟩, h'⟩
  · rintro _ s' (⟨⟨⟩, h'⟩ | ⟨⟨_, ⟨⟩⟩, -⟩)
    exact h'
  · rintro e s' (⟨⟨⟩, -⟩ | ⟨-, h'⟩)
    split
    · exact h'
    · exact h'
    · exact h'

/-- Anchoring leaves the charge and the request. -/
theorem anchorOnHedera_keeps (h : ChargedAndStaged orgId db s) (id : String)
    (payload : HederaPayload) :
    (anchorOnHedera id payload).wp tracedAnswers (MayDie orgId db)
      (fun _ s' => ChargedAndStaged orgId db s') s := by
  have hrecord : ∀ {s s' : Db × List Answered} {r}, ChargedAndStaged orgId db s →
      tracedAnswers s (.recordOnHedera payload) s' r → ChargedAndStaged orgId db s' := by
    intro s s' r h hanswer
    have hdb : s'.1 = s.1 := by
      rcases hanswer.1 with hdb | ⟨-, hdb, -⟩
      · exact hdb
      · exact hdb
    exact ⟨hdb ▸ h.charged, hdb ▸ h.staged, hanswer.2 ▸ forall_mem_step h.creates fun h => h⟩
  have hupdate : ∀ {s s' : Db × List Answered} {u r}, ChargedAndStaged orgId db s →
      tracedAnswers s (.serviceRequestUpdate id { hedera := u }) s' r →
      ChargedAndStaged orgId db s' := by
    intro s s' u r h hanswer
    have hcreates : ∀ a ∈ s'.2, ¬ CreateFails a :=
      hanswer.2 ▸ forall_mem_step h.creates fun h => h
    have hdb : s'.1 = s.1 ∨ s'.1 = s.1.updateRequest id { hedera := u } := by
      rcases hanswer.1 with hexec | ⟨-, hdb, -⟩
      · simp only [ServerCall.Exec] at hexec
        split at hexec
        · exact Or.inr hexec.1
        · exact Or.inl hexec.1
      · exact Or.inl hdb
    rcases hdb with hdb | hdb
    · exact ⟨hdb ▸ h.charged, hdb ▸ h.staged, hcreates⟩
    · refine ⟨?_, ?_, hcreates⟩
      · obtain ⟨sub, w, hlatest, hsubs, hw⟩ := h.charged
        exact ⟨sub, w, hlatest, hdb ▸ hsubs, hw⟩
      · obtain ⟨j, row, hnone, hsome, hstatus⟩ := h.staged
        rw [hdb]
        by_cases hj : j = id
        · subst hj
          refine ⟨j, ({ hedera := u } : ServiceRequestUpdate).apply row, hnone, ?_, hstatus⟩
          rw [Db.request?_updateRequest, if_pos rfl, hsome, Option.map_some]
        · refine ⟨j, row, hnone, ?_, hstatus⟩
          rw [Db.request?_updateRequest, if_neg hj, hsome]
  have hdie : ∀ {s c}, ChargedAndStaged orgId db s → ¬ c.BeforeRow → MayDie orgId db s c := by
    intro s c h hc
    exact h.tallied fun c' hc' => by cases hc'; exact hc
  refine Program.wp_catch (R := fun _ s' => ChargedAndStaged orgId db s') ?_
    (fun _ _ h => h) (fun _ _ h => h)
  refine (Program.wp_bind _ _ _ _).2 ((Program.wp_perform _ _ _).2 ⟨hdie h fun h => h, ?_⟩)
  intro s₁ r hanswer
  have h₁ := hrecord h hanswer
  cases r with
  | error e => exact h₁
  | ok result =>
      simp only
      split
      · exact (Program.wp_perform _ _ _).2 ⟨hdie h₁ fun h => h, fun _ _ => hupdate h₁⟩
      · exact h₁

/-- The steps after the charge. -/
theorem stage_tallied (h : ChargedOnly orgId db s) (evmAppWalletAddress : Option String)
    (input : ServiceRequestInput) (auth : UserAuthContext) (recipient : Recipient)
    (agentENSName : Option String) :
    (stage evmAppWalletAddress input auth recipient agentENSName).wp tracedAnswers
      (MayDie orgId db) (fun r s' => Tallied orgId db s' (.ended r)) s := by
  rw [stage, now, quota, QuotaProgram.now]
  refine (Program.wp_bind _ _ _ _).2 ((Program.wp_perform _ _ _).2
    ⟨h.tallied_awaiting trivial, ?_⟩)
  intro s₁ r hnow
  obtain ⟨hdb₁, attestedAt, rfl⟩ : s₁.1 = s.1 ∧ ∃ now, r = .ok now := by
    rcases hnow.1 with h | ⟨hne, -⟩
    · exact h
    · exact absurd rfl hne
  have h₁ : ChargedOnly orgId db s₁ := by
    refine ⟨hdb₁ ▸ h.charged, hdb₁ ▸ h.requests, ?_, hnow.2 ▸ forall_mem_step h.creates fun h => h⟩
    obtain ⟨a, ha, hcharges⟩ := h.charges
    exact hnow.2 ▸ ⟨a, List.mem_append_left _ ha, hcharges⟩
  refine (Program.wp_bind _ _ _ _).2 ((Program.wp_perform _ _ _).2
    ⟨h₁.tallied_awaiting trivial, ?_⟩)
  intro s₂ r hcreate
  have hfails : s₂.1 = s₁.1 → ∀ e, r = .error e → Tallied orgId db s₂ (.ended (.error e) :
      Program.Halt serverSig Failure IntakeResponse) := by
    rintro hdb e rfl
    exact h₁.tallied_of_createFails hdb
      (hcreate.2 ▸ ⟨_, List.mem_append_right _ (List.mem_singleton_self _), trivial⟩)
  rcases hcreate.1 with (⟨-, id, column, createdAt, hfree, -, hdb, rfl⟩ | ⟨hdb, -, rfl⟩ |
    ⟨hdb, -, rfl⟩) | ⟨-, hdb, e, rfl⟩
  · have h₂ : ChargedAndStaged orgId db s₂ := by
      refine ⟨?_, ?_, hcreate.2 ▸ forall_mem_step h₁.creates fun h => h⟩
      · obtain ⟨sub, w, hlatest, hsubs, hw⟩ := h₁.charged
        exact ⟨sub, w, hlatest, hdb ▸ hsubs, hw⟩
      · refine ⟨id, (input.data auth recipient agentENSName attestedAt).row id column createdAt,
          ?_, ?_, rfl⟩
        · rw [Db.request?, ← h₁.requests]
          exact hfree
        · rw [hdb]
          exact (Db.request?_insertRequest _ _ hfree id).trans (if_pos rfl)
    refine Program.wp_seq (anchorOnHedera_keeps h₂ _ _) ?_ ?_
    · intro _ s' h'
      exact h'.tallied fun c hc => by cases hc
    · intro _ s' h'
      exact h'.tallied fun c hc => by cases hc
  · exact hfails hdb _ rfl
  · exact hfails hdb _ rfl
  · exact hfails hdb _ rfl

/-- A call to another service. -/
def ServerCall.Elsewhere : ServerCall → Prop
  | rateLimit _ | resolveENS _ | getAgentENSName => True
  | _ => False

/-- What other services answer changes nothing. -/
theorem Uncharged.elsewhere (h : Uncharged db s) {c : ServerCall} (hc : c.Elsewhere)
    {r : Except Failure c.Resp} (hanswer : tracedAnswers s c s' r) : Uncharged db s' := by
  have hdb : s'.1 = s.1 := by
    rcases hanswer.1 with hexec | ⟨-, hdb, -⟩
    · cases c with
      | rateLimit _ | resolveENS _ | getAgentENSName => exact hexec.1
      | _ => exact hc.elim
    · exact hdb
  cases c with
  | rateLimit _ | resolveENS _ | getAgentENSName =>
      exact h.step hanswer hdb (fun h => h) fun h => h
  | _ => exact hc.elim

theorem wp_elsewhere {β : Type} (h : Uncharged db s) (c : ServerCall) (hc : c.Elsewhere)
    {f : c.Resp → ServerProgram β} {Q : Except Failure β → Db × List Answered → Prop}
    (hok : ∀ a s', Uncharged db s' → (f a).wp tracedAnswers (MayDie orgId db) Q s')
    (herror : ∀ e s', Uncharged db s' → Q (.error e) s') :
    (Program.perform (S := serverSig) c >>= f).wp tracedAnswers (MayDie orgId db) Q s := by
  refine (Program.wp_bind _ _ _ _).2 ((Program.wp_perform _ _ _).2 ⟨h.mayDie _, ?_⟩)
  intro s' r hanswer
  have h' : Uncharged db s' := h.elsewhere hc hanswer
  cases r with
  | error e => exact herror e s' h'
  | ok a => exact hok a s' h'

theorem serve_tallied (h : Uncharged db s) (hne : orgId ≠ "") (web3 : Web3)
    (evmAppWalletAddress : Option String) (input : ServiceRequestInput) (userId : String) :
    (serve web3 evmAppWalletAddress input ⟨userId, some orgId⟩).wp tracedAnswers (MayDie orgId db)
      (fun r s' => Tallied orgId db s' (.ended r)) s := by
  have hresolve : (resolveRecipient input).wp tracedAnswers (MayDie orgId db)
      (fun _ s' => Uncharged db s') s := by
    rw [resolveRecipient]
    split
    · exact wp_elsewhere h (.resolveENS _) trivial (fun _ _ h' => h') fun _ _ h' => h'
    · exact h
  refine Program.wp_seq hresolve ?_ fun _ _ h' => h'.tallied
  intro resolved s₁ h₁
  cases resolved with
  | error response => exact h₁.tallied
  | ok recipient =>
      refine wp_elsewhere h₁ .getAgentENSName trivial ?_ fun _ _ h' => h'.tallied
      intro agentENSName s₂ h₂
      refine (Program.wp_bind _ _ _ _).2 ?_
      rw [Program.wp_done]
      cases refuseWallet web3 recipient.wallet with
      | error e => exact h₂.tallied
      | ok refusal =>
          cases refusal with
          | some response => exact h₂.tallied
          | none =>
              refine Program.wp_seq (chargeOrg_charges h₂ hne) ?_ fun _ _ h' => h'.tallied
              intro response s₃ h₃
              cases response with
              | some response => exact Uncharged.tallied h₃
              | none => exact stage_tallied h₃ _ _ _ _ _

theorem postServiceRequests_tallied (h : Uncharged db s) (web3 : Web3)
    (evmAppWalletAddress : Option String) (clientKey : String) {session : Session}
    (horg : truthy session.orgId = some orgId) (body : Option Json) :
    (postServiceRequests web3 evmAppWalletAddress clientKey session body).wp tracedAnswers
      (MayDie orgId db) (fun r s' => Tallied orgId db s' (.ended r)) s := by
  obtain ⟨hsession, hne⟩ : session.orgId = some orgId ∧ orgId ≠ "" := by
    simpa [truthy, Option.filter_eq_some_iff] using horg
  refine wp_elsewhere h (.rateLimit _) trivial ?_ fun _ _ h' => h'.tallied
  intro refused s₁ h₁
  cases refused with
  | some _ => exact h₁.tallied
  | none =>
      simp only [requireUser]
      cases truthy session.userId with
      | none => exact h₁.tallied
      | some userId =>
          cases body with
          | none => exact h₁.tallied
          | some body =>
              simp only
              cases ServiceRequestInput.safeParse body with
              | error issues => exact h₁.tallied
              | ok input =>
                  rw [hsession]
                  exact serve_tallied h₁ hne _ _ _ _

/-- A request to the route, wherever it is cut off, charges the organization exactly if
it stages a request, and leaves the meter as it was otherwise, exactly if it is
not cut off between the two. -/
theorem allOrNothing_iff_uninterrupted {web3 : Web3} {evmAppWalletAddress : Option String}
    {clientKey : String} {session : Session} {body : Option Json} {trace : List Answered} {db' : Db}
    {point : Program.Halt serverSig Failure IntakeResponse}
    (horg : truthy session.orgId = some orgId)
    (hrun : (postServiceRequests web3 evmAppWalletAddress clientKey session body).HaltsAt
      tracedAnswers (db, []) (db', trace) point) :
    db.AllOrNothing orgId db' ↔ Uninterrupted trace point := by
  have hstart : Uncharged db (db, []) := 
    ⟨rfl, fun _ ha => (List.not_mem_nil ha).elim, fun _ ha => (List.not_mem_nil ha).elim⟩
  exact Program.wp_haltsAt (P := Tallied orgId db) _
    (postServiceRequests_tallied hstart web3 evmAppWalletAddress clientKey horg body) hrun

/-! ## A charge without a row -/

/-- The session of a user with an active organization. -/
def orgSession : Session := ⟨some "user-1", some "clerk-1", false⟩

/-- `oneOrg` once its organization is charged. -/
def oneCharged : Db := oneOrg.updateSubscription "sub-1" { usageCount := (· + 1) }

/-- What the route stages for `orgSession`. -/
def orgPostedData : ServiceRequestCreate :=
  exampleInput.data ⟨"user-1", some "clerk-1"⟩ ⟨systemProgramAddress, none⟩ none 0

/-- The calls of the route up to the creation of the row. -/
def chargedTrace : List Answered :=
  [⟨.rateLimit "service-requests:ip", .ok none⟩, ⟨.getAgentENSName, .ok none⟩,
    ⟨.quota (.subscriptionFindFirst (.activeOfClerkOrg "clerk-1")), .ok (some freshSubscription)⟩,
    ⟨.quota .now, .ok (0 : ℤ)⟩, ⟨.quota (.subscriptionIncrement "sub-1" 1), .ok 1⟩,
    ⟨.quota .now, .ok (0 : ℤ)⟩]

/-- The database is lost while the row is created. -/
def lostConnection : Failure := .error "Can't reach database server"

theorem post_charges {point : Program.Halt serverSig Failure IntakeResponse} {db : Db}
    {trace : List Answered}
    (h : (stage none exampleInput ⟨"user-1", some "clerk-1"⟩ ⟨systemProgramAddress, none⟩ none).HaltsAt
      tracedAnswers (oneCharged, chargedTrace.take 5) (db, trace) point) :
    (postServiceRequests plainEnv.web3 none "ip" orgSession (some exampleBody)).HaltsAt
      tracedAnswers (oneOrg, []) (db, trace) point := by
  have hlimit : tracedAnswers (oneOrg, []) (.rateLimit "service-requests:ip")
      (oneOrg, chargedTrace.take 1) (.ok none) := ⟨Or.inl ⟨rfl, none, rfl⟩, rfl⟩
  have hagent : tracedAnswers (oneOrg, chargedTrace.take 1) .getAgentENSName
      (oneOrg, chargedTrace.take 2) (.ok none) := ⟨Or.inl ⟨rfl, none, rfl⟩, rfl⟩
  have hfind : tracedAnswers (oneOrg, chargedTrace.take 2)
      (.quota (.subscriptionFindFirst (.activeOfClerkOrg "clerk-1")))
      (oneOrg, chargedTrace.take 3) (.ok (some freshSubscription)) :=
    ⟨Or.inl ⟨rfl, Or.inl ⟨trivial, _, Db.latestSubscription_of_singleton rfl ⟨rfl, rfl⟩, rfl⟩⟩, rfl⟩
  have hnow : tracedAnswers (oneOrg, chargedTrace.take 3) (.quota .now)
      (oneOrg, chargedTrace.take 4) (.ok (0 : ℤ)) := ⟨Or.inl ⟨rfl, 0, rfl⟩, rfl⟩
  have hcharge : tracedAnswers (oneOrg, chargedTrace.take 4)
      (.quota (.subscriptionIncrement "sub-1" 1)) (oneCharged, chargedTrace.take 5) (.ok 1) :=
    ⟨Or.inl rfl, rfl⟩
  exact .call hlimit <| .call hagent <| .call hfind <| .call hnow <| .call hcharge h

theorem stage_now : tracedAnswers (oneCharged, chargedTrace.take 5) (.quota .now)
    (oneCharged, chargedTrace) (.ok (0 : ℤ)) := ⟨Or.inl ⟨rfl, 0, rfl⟩, rfl⟩

/-- The creation fails after the charge, and the unit is lost. -/
theorem not_allOrNothing_of_lostConnection :
    ¬ ∀ web3 evmAppWalletAddress clientKey session body orgId db db' trace
      (point : Program.Halt serverSig Failure IntakeResponse),
      truthy session.orgId = some orgId →
      (postServiceRequests web3 evmAppWalletAddress clientKey session body).HaltsAt tracedAnswers
        (db, []) (db', trace) point → db.AllOrNothing orgId db' := by
  intro h
  have hcreate : tracedAnswers (oneCharged, chargedTrace) (.serviceRequestCreate orgPostedData)
      (oneCharged, chargedTrace ++ [⟨.serviceRequestCreate orgPostedData, .error lostConnection⟩])
      (.error lostConnection) := ⟨Or.inr ⟨nofun, rfl, _, rfl⟩, rfl⟩
  have hall : oneOrg.AllOrNothing "clerk-1" oneCharged :=
    h _ _ _ _ _ _ _ _ _ _ (by decide)
      (post_charges (.call stage_now <| .call hcreate (t := .ended (.error lostConnection)) ⟨rfl, rfl⟩))
  have hcharged : oneOrg.Charged "clerk-1" oneCharged :=
    ⟨freshSubscription, _, Db.latestSubscription_of_singleton rfl ⟨rfl, rfl⟩, rfl, Or.inl rfl⟩
  exact Db.not_staged_of_serviceRequests rfl (hall.1.1 hcharged)

/-- `oneCharged` with the request that is staged then. -/
def orgPosted : Db := oneCharged.insertRequest (orgPostedData.row "sr-1" (some "org-1") 0) rfl

/-- What the route anchors of it. -/
def orgPayload : HederaPayload := ⟨"sr-1", "", "A v. B", systemProgramAddress, "eps-agent"⟩

/-- A request that is answered has charged its organization and is staged, though it could
not be anchored. -/
theorem allOrNothing_of_created : oneOrg.AllOrNothing "clerk-1" orgPosted := by
  let created : List Answered := chargedTrace ++ [⟨.serviceRequestCreate orgPostedData, .ok "sr-1"⟩]
  have hcreate : tracedAnswers (oneCharged, chargedTrace) (.serviceRequestCreate orgPostedData)
      (orgPosted, created) (.ok "sr-1") :=
    ⟨Or.inl (Or.inl ⟨Or.inl rfl, "sr-1", some "org-1", 0, rfl,
      ⟨_, List.mem_singleton_self _, rfl, rfl⟩, rfl, rfl⟩), rfl⟩
  have hrecord : tracedAnswers (orgPosted, created) (.recordOnHedera orgPayload)
      (orgPosted, created ++ [⟨.recordOnHedera orgPayload, .error lostConnection⟩])
      (.error lostConnection) := ⟨Or.inl rfl, rfl⟩
  refine (allOrNothing_iff_uninterrupted (by decide) (post_charges (.call stage_now <|
    .call hcreate <| .call hrecord
      (t := .ended (.ok (.created "sr-1" .staged))) ⟨rfl, rfl⟩))).2 ⟨?_, ?_⟩
  · simp [created, chargedTrace, CreateFails]
  · intro c hc
    cases hc

end EpsDapp
