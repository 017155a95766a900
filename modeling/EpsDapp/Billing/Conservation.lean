import EpsDapp.Billing.Ledger
import EpsDapp.Effect.Run
import EpsDapp.Intake.Binding

/-!
# Conservation of the quota

An intake takes a unit from a subscription, and a terminal failure gives a unit
back. Both look up the latest active subscription of the organization at their own
time, and between them its meter may be reset or another subscription may have
come. The meters agree with the ledger in every run whose failures come in the period
of their intake, while its subscription is still the latest active one.
-/

set_option autoImplicit false

namespace EpsDapp

open Calendar Effect ServerProgram

/-! ## The operations -/

/-- What moves the meters; a period is rolled over by the intake that finds it
elapsed. -/
inductive MeterOperation
  | intake (input : CreateServiceRequestInput)
  | fail (input : FailServiceRequestInput)
  | compGrant (actor : AuthContext) (targetOrgId : String) (now : Instant)
  | webhook (event : StripeEvent)

/-- The transaction of an operation. -/
def MeterOperation.program (env : StorageEnv) (crypto : NodeCrypto) :
    MeterOperation → ServerProgram Unit
  | intake input => (fun _ => ()) <$> createServiceRequest env crypto input
  | fail input => (fun _ => ()) <$> failServiceRequest input
  | compGrant actor targetOrgId now => (fun _ => ()) <$> EpsDapp.compGrant actor targetOrgId now
  | webhook event => processEvent event

/-- An operation commits, or aborts and changes nothing. -/
def MeterStep (env : StorageEnv) (crypto : NodeCrypto) (s : Books) (o : MeterOperation)
    (s' : Books) : Prop :=
  ∃ r, (o.program env crypto).RunsAtomically booksAnswers (s.1, { s.2 with taken := none }) s' r

/-- The books after a step are conserved, and a failure that gives a unit back gives it to
the subscription on which its request is counted. -/
structure Conserves (s : Books) (o : MeterOperation) (s' : Books) : Prop where
  conserved : Conserved s'
  own : ∀ input, o = .fail input → ∀ id sub sub', s.1.subscription? id = some sub →
    s'.1.subscription? id = some sub' → sub'.usageCount < sub.usageCount →
      s.2.Counts s.1 input.serviceRequestId id

/-! ## Failures in the period of the intake -/

/-- The step files the request and writes to the subscription under `id`. -/
structure Files (request id : String) (s s' : Books) : Prop where
  new : s.1.request? request = none
  filed : ∃ row, s'.1.request? request = some row
  written : s'.1.subscription? id ≠ s.1.subscription? id

/-- The meter under `id` is reset: an intake opens a new period of the subscription, or a
grant writes to it. -/
def Resets (id : String) (s : Books) (o : MeterOperation) (s' : Books) : Prop :=
  match o with
  | .intake _ => (s'.1.subscription? id).map Subscription.periodEnd ≠
      (s.1.subscription? id).map Subscription.periodEnd
  | .compGrant _ _ _ => s'.1.subscription? id ≠ s.1.subscription? id
  | .fail _ | .webhook _ => False

/-- The step does not reset the meter under `id`, and the request has not ended `FAILED`. -/
structure Spares (request id : String) (s : Books) (o : MeterOperation) (s' : Books) : Prop where
  meter : ¬ Resets id s o s'
  request : (s'.1.request? request).map ServiceRequest.status ≠ some .failed

/-- At the end of `run`, the request was filed in it and has not failed since, and the meter
of the subscription its intake wrote to was not reset since. -/
def InPeriod (s : Books) (run : List (MeterOperation × Books)) (request id : String) : Prop :=
  ∃ early intake filed late, run = early ++ (.intake intake, filed) :: late ∧
    Files request id (endOf s early) filed ∧ IsRun (Spares request id) filed late

/-- Every failure that is committed comes in the period of its intake, while the
subscription its intake wrote to is still the only latest active one. -/
def FailsInPeriod (s : Books) (run : List (MeterOperation × Books)) : Prop :=
  ∀ before input s' after, run = before ++ (.fail input, s') :: after →
    s'.1 ≠ (endOf s before).1 → ∃ id, InPeriod s before input.serviceRequestId id ∧
      ∀ sel, (endOf s before).1.LatestSubscription (.activeOfOrg input.orgId) sel →
        sel.map Subscription.id = some id

section Operations

variable {s s' : Books}

/-! ## What a failure gives back -/

section Failure

variable {input : FailServiceRequestInput} {sel : Option Subscription} {id : String}

/-- When the subscription `sel` is found, the one under `id` gets a unit back. -/
def GivesBack (sel : Option Subscription) (id : String) : Prop :=
  ∃ sub, sel = some sub ∧ sub.id = id ∧ 0 < sub.usageCount

theorem commit_subscription? (s : Books) {found : Subscription}
    (hfound : s.1.subscription? found.id = some found) (id : String) :
    (input.commit s.1 (some found)).1.subscription? id =
      (if 0 < found.usageCount then s.1.updateSubscription found.id { usageCount := (· - 1) }
        else s.1).subscription? id := by
  let db := s.1.updateRequest input.serviceRequestId input.update
  change (db.updateSubscriptionWhere _ _ _).1.subscription? id = _
  rw [db.updateSubscriptionWhere_of_some _ _ hfound]
  split
  · rfl
  · rfl

/-- A meter loses a unit exactly if its subscription gets one back. -/
theorem commit_usageCount (input : FailServiceRequestInput) (s : Books) {sub : Subscription}
    (hsel : ∀ sub, sel = some sub → s.1.subscription? sub.id = some sub)
    (hsub : s.1.subscription? id = some sub) :
    ∃ sub', (input.commit s.1 sel).1.subscription? id = some sub' ∧
      ((GivesBack sel id ∧ sub'.usageCount = sub.usageCount - 1) ∨
        (¬ GivesBack sel id ∧ sub'.usageCount = sub.usageCount)) := by
  rcases sel with _ | found
  · refine ⟨sub, hsub, Or.inr ⟨?_, rfl⟩⟩
    rintro ⟨_, h, -⟩
    cases h
  have hfound := hsel found rfl
  rw [commit_subscription? s hfound]
  by_cases hpos : 0 < found.usageCount
  · rw [if_pos hpos, Db.subscription?_updateSubscription]
    by_cases hid : id = found.id
    · subst hid
      obtain rfl : found = sub := Option.some.inj (hfound.symm.trans hsub)
      rw [if_pos rfl, hfound]
      exact ⟨_, rfl, Or.inl ⟨⟨found, rfl, rfl, hpos⟩, rfl⟩⟩
    · rw [if_neg hid]
      refine ⟨sub, hsub, Or.inr ⟨?_, rfl⟩⟩
      rintro ⟨_, ⟨⟩, h, -⟩
      exact hid h.symm
  · rw [if_neg hpos]
    refine ⟨sub, hsub, Or.inr ⟨?_, rfl⟩⟩
    rintro ⟨_, ⟨⟩, -, h⟩
    exact hpos h

/-- No subscription is opened. -/
theorem exists_of_commit (s : Books) {sub' : Subscription}
    (hsel : ∀ sub, sel = some sub → s.1.subscription? sub.id = some sub)
    (hsub' : (input.commit s.1 sel).1.subscription? id = some sub') :
    ∃ sub, s.1.subscription? id = some sub := by
  rcases sel with _ | found
  · exact ⟨sub', hsub'⟩
  rw [commit_subscription? s (hsel found rfl)] at hsub'
  split at hsub'
  · rw [Db.subscription?_updateSubscription] at hsub'
    split at hsub'
    · rename_i hid
      exact ⟨found, hid ▸ hsel found rfl⟩
    · exact ⟨sub', hsub'⟩
  · exact ⟨sub', hsub'⟩

/-- A failure that is committed leaves its audit row. -/
theorem commit_ne (s : Books) : (input.commit s.1 sel).1 ≠ s.1 := by
  intro h
  have hlogs := input.commit_auditLogs s.1 sel
  simp [h] at hlogs

/-- A subscription counts one request less exactly if the failed one was counted on it. -/
theorem commit_count {s : Books} (sel : Option Subscription) (id : String) (h : Balanced s none)
    {row : ServiceRequest}
    (hrow : s.1.request? input.serviceRequestId = some row) :
    (s.2.Counts s.1 input.serviceRequestId id ∧
        s.2.count s.1 id = s.2.count (input.commit s.1 sel).1 id + 1) ∨
      (¬ s.2.Counts s.1 input.serviceRequestId id ∧
        s.2.count s.1 id = s.2.count (input.commit s.1 sel).1 id) := by
  have hrequest : ∀ j, (input.commit s.1 sel).1.request? j =
      if j = input.serviceRequestId then some (input.update.apply row) else s.1.request? j := by
    intro j
    refine (congrArg (fun t => Table.get? t j) (input.commit_serviceRequests s.1 sel)).trans ?_
    refine (Db.request?_updateRequest s.1 input.serviceRequestId j input.update).trans ?_
    rw [hrow, Option.map_some]
  have hstands : ∀ c : Charge, c.Stands (input.commit s.1 sel).1 ↔
      c.Stands s.1 ∧ c.request ≠ input.serviceRequestId := by
    intro c
    rw [Charge.Stands, hrequest]
    split
    · rename_i hc
      simp [hc, FailServiceRequestInput.update]
    · rename_i hc
      simp [hc, Charge.Stands]
  have hcount : s.2.count (input.commit s.1 sel).1 id = s.2.charges.countP fun c =>
      decide ((c.subscription = id ∧ c.Stands s.1) ∧ c.request ≠ input.serviceRequestId) := by
    refine List.countP_congr fun c _ => ?_
    simp only [decide_eq_true_eq, hstands, and_assoc]
  have hsplit := Ledger.countP_eq_add_ite Charge.request
    (fun c => c.subscription = id ∧ c.Stands s.1) input.serviceRequestId h.requests
  have hiff : (∃ c ∈ s.2.charges, c.request = input.serviceRequestId ∧ c.subscription = id ∧
      c.Stands s.1) ↔ s.2.Counts s.1 input.serviceRequestId id := by
    constructor
    · rintro ⟨⟨_, _⟩, hc, rfl, rfl, hstands⟩
      exact ⟨hc, hstands⟩
    · rintro ⟨hc, hstands⟩
      exact ⟨_, hc, rfl, rfl, hstands⟩
  rw [hcount]
  by_cases hcounts : s.2.Counts s.1 input.serviceRequestId id
  · exact Or.inl ⟨hcounts, hsplit.trans (congrArg _ (if_pos (hiff.2 hcounts)))⟩
  · exact Or.inr ⟨hcounts, hsplit.trans (congrArg _ (if_neg (mt hiff.1 hcounts)))⟩

variable {s : Books} {row : ServiceRequest}

theorem commit_balanced (h : Balanced s none)
    (hrow : s.1.request? input.serviceRequestId = some row)
    (hsel : ∀ sub, sel = some sub → s.1.subscription? sub.id = some sub)
    (hconserved : Conserved ((input.commit s.1 sel).1, s.2)) :
    Balanced ((input.commit s.1 sel).1, s.2) none where
  requests := h.requests
  filed c hc := by
    obtain ⟨r, hr⟩ := h.filed c hc
    refine ⟨if c.request = input.serviceRequestId then input.update.apply row else r, ?_⟩
    refine (congrArg (fun t => Table.get? t c.request) (input.commit_serviceRequests s.1 sel)).trans ?_
    refine (Db.request?_updateRequest s.1 input.serviceRequestId c.request input.update).trans ?_
    split
    · rw [hrow, Option.map_some]
    · exact hr
  opened c hc := by
    obtain ⟨sub, hsub⟩ := h.opened c hc
    obtain ⟨sub', hsub', -⟩ := commit_usageCount input s hsel hsub
    exact ⟨sub', hsub'⟩
  owes := nofun
  counted j sub hsub := by simpa using hconserved j sub hsub

/-- A failure conserves balanced books exactly if the subscription that gets a unit back
is the one on which the request is counted. -/
theorem commit_conserved_iff (h : Balanced s none)
    (hrow : s.1.request? input.serviceRequestId = some row)
    (hsel : ∀ sub, sel = some sub → s.1.subscription? sub.id = some sub) :
    Conserved ((input.commit s.1 sel).1, s.2) ↔
      ∀ id, s.2.Counts s.1 input.serviceRequestId id ↔ GivesBack sel id := by
  constructor
  · intro hconserved id
    have hopen : s.2.Counts s.1 input.serviceRequestId id ∨ GivesBack sel id →
        ∃ sub, s.1.subscription? id = some sub := by
      rintro (⟨hc, -⟩ | ⟨sub, hsub, rfl, -⟩)
      · exact h.opened _ hc
      · exact ⟨sub, hsel sub hsub⟩
    by_cases hid : s.2.Counts s.1 input.serviceRequestId id ∨ GivesBack sel id
    · obtain ⟨sub, hsub⟩ := hopen hid
      obtain ⟨sub', hsub', husage⟩ := commit_usageCount input s hsel hsub
      have hbefore := h.conserved id sub hsub
      have hafter := hconserved id sub' hsub'
      rcases husage with ⟨hgives, husage⟩ | ⟨hgives, husage⟩
      · rcases commit_count sel id h hrow with ⟨hcounts, hcount⟩ | ⟨-, hcount⟩
        · exact iff_of_true hcounts hgives
        · simp only at hafter
          omega
      · rcases commit_count sel id h hrow with ⟨-, hcount⟩ | ⟨hcounts, hcount⟩
        · simp only at hafter
          omega
        · exact iff_of_false hcounts hgives
    · exact iff_of_false (mt Or.inl hid) (mt Or.inr hid)
  · intro hiff id sub' hsub'
    obtain ⟨sub, hsub⟩ := exists_of_commit s hsel hsub'
    obtain ⟨_, hsub'', husage⟩ := commit_usageCount input s hsel hsub
    obtain rfl := Option.some.inj (hsub'.symm.trans hsub'')
    have hbefore := h.conserved id sub hsub
    rcases husage with ⟨hgives, husage⟩ | ⟨hgives, husage⟩
    · rcases commit_count sel id h hrow with ⟨-, hcount⟩ | ⟨hcounts, -⟩
      · simp only
        omega
      · exact absurd ((hiff id).2 hgives) hcounts
    · rcases commit_count sel id h hrow with ⟨hcounts, -⟩ | ⟨-, hcount⟩
      · exact absurd ((hiff id).1 hcounts) hgives
      · simp only
        omega

end Failure

/-! ## Any run -/

section Run

variable {env : StorageEnv} {crypto : NodeCrypto}

/-- A transaction that commits nothing for its result has committed what `p` has. -/
theorem runs_of_commits {α : Type} {p : ServerProgram α} {u : Unit}
    (h : ((fun _ => ()) <$> p).Runs booksAnswers s s' (.ok u)) :
    ∃ a, p.Runs booksAnswers s s' (.ok a) := by
  obtain ⟨r₀, hrun, hr⟩ := (Program.runs_map _ _ _ _ _).1 h
  rcases r₀ with e | a
  · cases hr
  · exact ⟨a, hrun⟩

/-- An operation that is not a failure commits what it does to the books. -/
theorem Balanced.step (h : Balanced s none) {o : MeterOperation}
    (ho : ∀ input, o ≠ .fail input) (hstep : MeterStep env crypto s o s') : Balanced s' none := by
  have h₀ : Balanced (s.1, { s.2 with taken := none }) none := h.congr rfl rfl rfl
  obtain ⟨r, hrun⟩ := hstep
  rcases r with e | _
  · obtain ⟨rfl, -⟩ := hrun
    exact h₀
  · cases o with
    | intake input =>
        obtain ⟨staged, hrun⟩ := runs_of_commits hrun
        obtain ⟨row, id, hcharges⟩ :=
          Program.wp_runs _ (createServiceRequest_charges env crypto input _) hrun staged rfl
        exact hcharges.balanced h₀
    | fail input => exact absurd rfl (ho input)
    | compGrant actor targetOrgId now =>
        obtain ⟨sub, hrun⟩ := runs_of_commits hrun
        exact Program.wp_runs _ (h₀.grants_wp (compGrant_only actor targetOrgId now)) hrun
    | webhook event =>
        exact Program.wp_runs _ (h₀.grants_wp ((processEvent_activates event).mono
          fun _ hc => hc.grants)) hrun

/-- A failure commits, giving a unit back to what it finds, or changes nothing. -/
theorem MeterStep.fail_cases {input : FailServiceRequestInput}
    (hstep : MeterStep env crypto s (.fail input) s') :
    (∃ row o sel, s.1.request? input.serviceRequestId = some row ∧ input.orgId = some o ∧
      s.1.LatestSubscription (.activeOfOrg (some o)) sel ∧
        s' = ((input.commit s.1 sel).1, { s.2 with taken := none })) ∨
      s' = (s.1, { s.2 with taken := none }) := by
  simp only [MeterStep, MeterOperation.program] at hstep
  obtain ⟨r, hrun⟩ := hstep
  rcases r with e | u
  · exact Or.inr hrun.1
  · simp only [Program.RunsAtomically] at hrun
    obtain ⟨restored, hcommits⟩ := runs_of_commits hrun
    have hwp := failServiceRequest_commits input (s.1, { s.2 with taken := none })
    exact Or.inl (Program.wp_runs _ hwp hcommits restored rfl)

/-- Each subscription that may be found is found in some run of a failure. -/
theorem MeterStep.fail {input : FailServiceRequestInput} {row : ServiceRequest} {o : String}
    {sel : Option Subscription} (hreason : ReasonStorable input.reason)
    (hrow : s.1.request? input.serviceRequestId = some row)
    (horg : input.orgId = some o) (hsel : s.1.LatestSubscription (.activeOfOrg (some o)) sel) :
    MeterStep env crypto s (.fail input) ((input.commit s.1 sel).1, { s.2 with taken := none }) := by
  have hrun := (failServiceRequest_runs_iff input s.1 _ _).2
    (Or.inl ⟨hreason, Or.inl ⟨row, o, sel, hrow, horg, hsel, rfl, rfl⟩⟩)
  obtain ⟨l', hobserved⟩ := Program.Runs.observed (E := billingAnswers)
    (hrun.mono fun _ _ _ _ h => Or.inl h) Ledger.watch { s.2 with taken := none }
  have hwp := failServiceRequest_commits input (s.1, { s.2 with taken := none })
  obtain ⟨_, _, sel', -, -, -, heq⟩ := Program.wp_runs _ hwp hobserved _ rfl
  obtain rfl : l' = { s.2 with taken := none } := congrArg Prod.snd heq
  exact ⟨.ok (), (Program.runs_map _ _ _ _ _).2 ⟨_, hobserved, rfl⟩⟩

/-! ### What stays charged -/

/-- An intake that files a request has charged it to the subscription it wrote to. -/
theorem MeterStep.files_counts {input : CreateServiceRequestInput} {request id : String}
    (hstep : MeterStep env crypto s (.intake input) s') (hfiles : Files request id s s') :
    s'.2.Counts s'.1 request id := by
  obtain ⟨r, hrun⟩ := hstep
  rcases r with e | _
  · obtain ⟨rfl, -⟩ := hrun
    exact absurd rfl hfiles.written
  obtain ⟨staged, hrun⟩ := runs_of_commits hrun
  obtain ⟨row, j, hcharges⟩ :=
    Program.wp_runs _ (createServiceRequest_charges env crypto input _) hrun staged rfl
  obtain ⟨s₁, htakes, hsubscriptions, hledger⟩ := hcharges.takes
  have hrequest : ∀ k, s'.1.request? k = if k = row.id then some row else s.1.request? k := by
    intro k
    refine (congrArg (fun t => Table.get? t k) hcharges.requests).trans ?_
    exact Db.request?_insertRequest s.1 row hcharges.free k
  obtain rfl : request = row.id := by
    by_contra hne
    obtain ⟨row', hrow'⟩ := hfiles.filed
    rw [hrequest, if_neg hne, hfiles.new] at hrow'
    cases hrow'
  obtain rfl : id = j := by
    by_contra hne
    refine hfiles.written ((congrArg (fun t => Table.get? t id) hsubscriptions).trans ?_)
    exact htakes.subscription?_of_ne hne
  refine ⟨?_, ?_⟩
  · rw [hledger]
    exact List.mem_append_right _ (List.mem_singleton_self _)
  · rw [Charge.Stands, hrequest, if_pos rfl, Option.map_some, hcharges.staged]
    decide

/-- An intake that does not reset the meter leaves what is charged there. -/
theorem ChargesTo.keeps_charge {row : ServiceRequest} {request id j : String}
    (hcharges : ChargesTo s row j s') (hc : ⟨request, id⟩ ∈ s.2.charges)
    (hmeter : (s'.1.subscription? id).map Subscription.periodEnd =
      (s.1.subscription? id).map Subscription.periodEnd) : ⟨request, id⟩ ∈ s'.2.charges := by
  obtain ⟨s₁, htakes, hsubscriptions, hledger⟩ := hcharges.takes
  rw [hledger]
  refine List.mem_append_left _ ?_
  rcases htakes.meter with ⟨-, hkept⟩ | ⟨sub, now, hsub, hend, hrollover, hkept⟩
  · exact hkept ▸ hc
  · rw [hkept]
    refine List.mem_filter.2 ⟨hc, decide_eq_true ?_⟩
    -- The period that is opened ends later than the one that has elapsed.
    rintro rfl
    have hrow : s'.1.subscription? id = some ((rollover now).apply sub) := by
      refine (congrArg (fun t => Table.get? t id) (hsubscriptions.trans hrollover)).trans ?_
      refine (Db.subscription?_updateSubscription s.1 id id (rollover now)).trans ?_
      rw [if_pos rfl, hsub, Option.map_some]
    rw [hrow, hsub] at hmeter
    have heq : nextPeriodEnd now = sub.periodEnd := Option.some.inj hmeter
    have hlt : sub.periodEnd < nextPeriodEnd now := hend.trans (lt_addMonths now one_pos)
    exact absurd heq hlt.ne'

/-- A meter on which a request is counted is not empty. -/
theorem Balanced.usageCount_pos (h : Balanced s none) {request id : String}
    (hc : s.2.Counts s.1 request id) {sub : Subscription}
    (hsub : s.1.subscription? id = some sub) : 0 < sub.usageCount := by
  have hpos : 0 < s.2.count s.1 id :=
    List.countP_pos_iff.2 ⟨_, hc.1, decide_eq_true ⟨rfl, hc.2⟩⟩
  rw [h.conserved id sub hsub]
  exact Int.natCast_pos.2 hpos

/-- A grant that writes to no row on which a request is charged leaves it charged. -/
theorem compGrant_keeps_charge (actor : AuthContext) (targetOrgId : String) (now : Instant)
    (h : Balanced s none) {charge : Charge} (hc : charge ∈ s.2.charges) :
    (compGrant actor targetOrgId now).wp booksAnswers (fun _ _ => True)
      (fun _ w => Balanced w none ∧ (charge ∈ w.2.charges ∨
        ∃ sub, w.1.subscription? charge.subscription = some sub ∧ sub.usageCount = 0)) s := by
  refine (compGrant_only actor targetOrgId now).wp ?_ (fun _ _ _ _ => trivial) ⟨h, Or.inl hc⟩
  rintro w c w' r hcall ⟨hw, hkept⟩ hE
  have hgranted := hcall.grantsTo hE
  refine ⟨hgranted.balanced hw, hgranted.keeps_charge ?_ hkept⟩
  rcases hkept with hc | ⟨sub, hsub, -⟩
  · exact hw.opened _ hc
  · exact ⟨sub, hsub⟩

/-- A step that spares a request and the meter it is charged to leaves it counted there. -/
theorem MeterStep.keeps_counts {o : MeterOperation} {request id : String}
    (hstep : MeterStep env crypto s o s') (h : Balanced s none)
    (hc : s.2.Counts s.1 request id) (hspares : Spares request id s o s') :
    s'.2.Counts s'.1 request id := by
  refine ⟨?_, hspares.request⟩
  have h₀ : Balanced (s.1, { s.2 with taken := none }) none := h.congr rfl rfl rfl
  have hmeter := hspares.meter
  cases o with
  | intake input =>
      obtain ⟨e | _, hrun⟩ := hstep
      · exact hrun.1 ▸ hc.1
      obtain ⟨staged, hrun⟩ := runs_of_commits hrun
      obtain ⟨row, j, hcharges⟩ :=
        Program.wp_runs _ (createServiceRequest_charges env crypto input _) hrun staged rfl
      exact hcharges.keeps_charge hc.1 (not_not.1 hmeter)
  | fail input =>
      rcases hstep.fail_cases with ⟨-, -, sel, -, -, -, rfl⟩ | rfl
      · exact hc.1
      · exact hc.1
  | compGrant actor targetOrgId now =>
      obtain ⟨e | _, hrun⟩ := hstep
      · exact hrun.1 ▸ hc.1
      obtain ⟨_, hrun⟩ := runs_of_commits hrun
      obtain ⟨-, hkept | ⟨sub', hsub', husage⟩⟩ :=
        Program.wp_runs _ (compGrant_keeps_charge actor targetOrgId now h₀ hc.1) hrun
      · exact hkept
      · -- The meter was not empty before, so that its row was written.
        obtain ⟨sub, hsub⟩ := h.opened _ hc.1
        have hrow : s'.1.subscription? id = s.1.subscription? id := not_not.1 hmeter
        obtain rfl : sub' = sub := Option.some.inj (hsub'.symm.trans (hrow.trans hsub))
        exact absurd husage (h.usageCount_pos hc hsub).ne'
  | webhook event =>
      obtain ⟨e | _, hrun⟩ := hstep
      · exact hrun.1 ▸ hc.1
      have hkept : (processEvent event).wp booksAnswers (fun _ _ => True)
          (fun _ w => w.2.charges = s.2.charges) (s.1, { s.2 with taken := none }) :=
        (processEvent_activates event).wp
          (fun _ _ _ _ hcall hw hE => (hcall.charges hE).trans hw) (fun _ _ _ _ => trivial) rfl
      exact Program.wp_runs _ hkept hrun ▸ hc.1

/-- Meters that are empty balance, with nothing charged. -/
theorem balanced_of_unused {db : Db}
    (hdb : ∀ id sub, db.subscription? id = some sub → sub.usageCount = 0) :
    Balanced (db, {}) none :=
  ⟨List.nodup_nil, nofun, nofun, nofun, hdb⟩

/-! ### Runs -/

/-- The step ends with balanced books, and conserves. -/
def BalancedStep (s : Books) (o : MeterOperation) (s' : Books) : Prop :=
  Balanced s' none ∧ Conserves s o s'

/-- In the period of its intake, a request is counted on the subscription its intake wrote
to. -/
theorem InPeriod.counts {run : List (MeterOperation × Books)} {request id : String}
    (h : InPeriod s run request id)
    (hrun : IsRun (MeterStep env crypto) s run) (hbalanced : IsRun BalancedStep s run) :
    (endOf s run).2.Counts (endOf s run).1 request id := by
  obtain ⟨early, intake, filed, late, rfl, hfiles, hspares⟩ := h
  obtain ⟨-, hintake, hlate⟩ := IsRun.append_iff.1 hrun
  obtain ⟨-, ⟨hfiled, -⟩, hbalanced⟩ := IsRun.append_iff.1 hbalanced
  rw [endOf_append, endOf_cons]
  have hboth := IsRun.and_iff.2 ⟨hlate, IsRun.and_iff.2 ⟨hspares, hbalanced⟩⟩
  have hstep : ∀ t o t', (Balanced t none ∧ t.2.Counts t.1 request id) →
      (MeterStep env crypto t o t' ∧ Spares request id t o t' ∧ BalancedStep t o t') →
      Balanced t' none ∧ t'.2.Counts t'.1 request id := by
    rintro t o t' ⟨ht, hc⟩ ⟨hstep, hspared, ht', -⟩
    exact ⟨ht', hstep.keeps_counts ht hc hspared⟩
  exact (hboth.endOf_invariant hstep ⟨hfiled, hintake.files_counts hfiles⟩).2

/-- The only subscription that is found gives back the unit of the request that is counted
on it. -/
theorem Balanced.counts_iff_givesBack (h : Balanced s none) {request id : String}
    (hc : s.2.Counts s.1 request id) {sel : Option Subscription}
    (hsel : ∀ sub, sel = some sub → s.1.subscription? sub.id = some sub)
    (hid : sel.map Subscription.id = some id) (j : String) :
    s.2.Counts s.1 request j ↔ GivesBack sel j := by
  obtain ⟨sub, rfl, rfl⟩ := Option.map_eq_some_iff.1 hid
  constructor
  · intro hj
    obtain ⟨⟩ := List.inj_on_of_nodup_map h.requests hc.1 hj.1 rfl
    exact ⟨sub, rfl, rfl, h.usageCount_pos hc (hsel sub rfl)⟩
  · rintro ⟨_, ⟨⟩, rfl, -⟩
    exact hc

/-- A failure that finds the subscription on which its request is counted conserves. -/
theorem Balanced.fail_conserves (h : Balanced s none) {input : FailServiceRequestInput}
    (hstep : MeterStep env crypto s (.fail input) s')
    (hown : s'.1 ≠ s.1 → ∀ sel, s.1.LatestSubscription (.activeOfOrg input.orgId) sel →
      ∀ id, s.2.Counts s.1 input.serviceRequestId id ↔ GivesBack sel id) :
    BalancedStep s (.fail input) s' := by
  rcases hstep.fail_cases with ⟨row, orgId, sel, hrow, horg, hsel, rfl⟩ | rfl
  · have hiff := hown (commit_ne s) sel (horg ▸ hsel)
    have hconserved : Conserved ((input.commit s.1 sel).1, s.2) :=
      (commit_conserved_iff h hrow hsel.subscription?).2 hiff
    have h' := commit_balanced h hrow hsel.subscription? hconserved
    refine ⟨h'.congr rfl rfl rfl, hconserved, ?_⟩
    rintro _ ⟨⟩ id sub sub' hsub hsub' hlt
    obtain ⟨_, hsub'', husage⟩ := commit_usageCount input s hsel.subscription? hsub
    obtain rfl := Option.some.inj (hsub'.symm.trans hsub'')
    rcases husage with ⟨hgives, -⟩ | ⟨-, husage⟩
    · exact (hiff id).2 hgives
    · exact absurd hlt husage.not_lt
  · refine ⟨h.congr rfl rfl rfl, h.conserved, ?_⟩
    rintro _ - id sub sub' hsub hsub' hlt
    obtain rfl := Option.some.inj (hsub.symm.trans hsub')
    exact absurd hlt (lt_irrefl _)

/-- In a run from empty meters whose failures come in the period of their intake, the
books stay conserved. -/
theorem conserves_of_failsInPeriod {db : Db}
    (hdb : ∀ id sub, db.subscription? id = some sub → sub.usageCount = 0)
    {run : List (MeterOperation × Books)} (hrun : IsRun (MeterStep env crypto) (db, {}) run)
    (hperiod : FailsInPeriod (db, {}) run) : IsRun Conserves (db, {}) run := by
  have hs := balanced_of_unused hdb
  refine IsRun.mono (fun _ _ _ h => h.2) (?_ : IsRun BalancedStep (db, {}) run)
  induction run using List.reverseRecOn with
  | nil => trivial
  | append_singleton run p ih =>
      obtain ⟨o, t⟩ := p
      obtain ⟨hbefore, hstep, -⟩ := IsRun.append_iff.1 hrun
      have hbalanced := ih hbefore fun before input s' after heq =>
        hperiod before input s' (after ++ [(o, t)]) (by simp [heq])
      refine IsRun.append_iff.2 ⟨hbalanced, ?_, trivial⟩
      have hkeeps : ∀ s o s', Balanced s none → BalancedStep s o s' → Balanced s' none :=
        fun _ _ _ _ h => h.1
      have hend := hbalanced.endOf_invariant hkeeps hs
      by_cases ho : ∃ input, o = .fail input
      · obtain ⟨input, rfl⟩ := ho
        refine hend.fail_conserves hstep fun hwrites sel hsel => ?_
        obtain ⟨id, hin, hlatest⟩ := hperiod run input t [] rfl hwrites
        exact hend.counts_iff_givesBack (hin.counts hbefore hbalanced) hsel.subscription?
          (hlatest sel hsel)
      · have h' := hend.step (fun input hinput => ho ⟨input, hinput⟩) hstep
        exact ⟨h', h'.conserved, fun input hinput => absurd ⟨input, hinput⟩ ho⟩

end Run

end Operations

/-! ## One request -/

theorem oneOrg_unused (id : String) (sub : Subscription) (h : oneOrg.subscription? id = some sub) :
    sub.usageCount = 0 := by
  obtain rfl := List.mem_singleton.1 ((Table.get?_eq_some_iff _ _ _).1 h).1
  rfl

/-- The books once the request is charged. -/
def chargedBooks : Books := (oneIntake, ⟨[⟨"sr-1", "sub-1"⟩], some "sub-1"⟩)

/-- The intake charges it. -/
theorem intake_charges : MeterStep plainEnv.storage plainCrypto (oneOrg, {})
    (.intake exampleIntake) chargedBooks := by
  let charged := oneOrg.updateSubscription "sub-1" { usageCount := (· + 1) }
  let taken : Ledger := ⟨[], some "sub-1"⟩
  have htoken : booksAnswers (oneOrg, {}) (.randomBytes 16) (oneOrg, {})
      (.ok (List.replicate 16 0)) := ⟨Or.inl ⟨rfl, _, rfl, rfl⟩, rfl⟩
  have hfind : booksAnswers (oneOrg, {}) (.quota (.subscriptionFindFirst
      (.activeOfClerkOrg "clerk-1"))) (oneOrg, {}) (.ok (some freshSubscription)) :=
    ⟨Or.inl ⟨rfl, Or.inl ⟨trivial, _, Db.latestSubscription_of_singleton rfl ⟨rfl, rfl⟩, rfl⟩⟩,
      rfl⟩
  have hnow : ∀ s : Books, booksAnswers s (.quota .now) s (.ok (0 : ℤ)) :=
    fun _ => ⟨Or.inl ⟨rfl, _, rfl⟩, rfl⟩
  have hcharge : booksAnswers (oneOrg, {}) (.quota (.subscriptionIncrement "sub-1" 1))
      (charged, taken) (.ok 1) := ⟨Or.inl rfl, rfl⟩
  have hiv : booksAnswers (charged, taken) (.randomBytes 12) (charged, taken)
      (.ok (List.replicate 12 0)) := ⟨Or.inl ⟨rfl, _, rfl, rfl⟩, rfl⟩
  have huuid : booksAnswers (charged, taken) .randomUUID (charged, taken) (.ok "uuid-1") :=
    ⟨Or.inl ⟨rfl, _, rfl⟩, rfl⟩
  have hput : booksAnswers (charged, taken) (.putObject "documents/uuid-1" [0xeb, 0xf7, 0x04, 0x7b])
      (charged, taken) (.ok ()) := ⟨Or.inl rfl, rfl⟩
  have hcreate : booksAnswers (charged, taken)
      (.serviceRequestCreate (exampleIntake.data exampleProof.2 exampleProof.1 0))
      (charged.insertRequest intakeRequest rfl, chargedBooks.2) (.ok "sr-1") :=
    ⟨Or.inl (Or.inl ⟨Or.inr (fun _ hr => by cases hr), "sr-1", some "org-1", 0, rfl,
      ⟨_, List.mem_singleton_self _, rfl, rfl⟩, rfl, rfl⟩), rfl⟩
  have haudit : booksAnswers (charged.insertRequest intakeRequest rfl, chargedBooks.2)
      (.auditLogCreate (exampleIntake.audit "sr-1" "documents/uuid-1" exampleProof.1))
      chargedBooks (.ok ()) := ⟨Or.inl ⟨rfl, rfl⟩, rfl⟩
  exact ⟨.ok (), .call htoken <| .call hfind <| .call (hnow _) <| .call hcharge <| .call hiv <|
    .call huuid <| .call hput <| .call (hnow _) <| .call hcreate <| .call haudit ⟨rfl, rfl⟩⟩

/-- The failure of the request. -/
def exampleFailure : FailServiceRequestInput := ⟨"sr-1", some "org-1", "rejected", none⟩

/-- A second checkout of the organization, one millisecond later. -/
def secondCheckout : StripeEvent :=
  ⟨"evt_2", .checkoutSessionCompleted ⟨some "clerk-1", some ⟨none, some "tier1"⟩, some (.id "sub_2")⟩⟩

/-- The database with its subscription. -/
def secondSubscribed : Db :=
  { oneIntake with webhookEvents := Table.empty.insert ⟨"evt_2", 0⟩ rfl }.insertSubscription
    ((checkoutCreate "org-1" "tier1" 1).row "sub_2") rfl

theorem second_subscribes : MeterStep plainEnv.storage plainCrypto chargedBooks
    (.webhook secondCheckout) (secondSubscribed, ⟨[⟨"sr-1", "sub-1"⟩], none⟩) := by
  let ledger : Ledger := ⟨[⟨"sr-1", "sub-1"⟩], none⟩
  let recorded : Db := { oneIntake with webhookEvents := Table.empty.insert ⟨"evt_2", 0⟩ rfl }
  have hrecord : booksAnswers (oneIntake, ledger) (.webhookEventCreate "evt_2") (recorded, ledger)
      (.ok ()) := ⟨Or.inl (Or.inl ⟨0, rfl, rfl, rfl⟩), rfl⟩
  have horg : booksAnswers (recorded, ledger) (.organizationUpsert "clerk-1") (recorded, ledger)
      (.ok ⟨"org-1", "clerk-1", "A", none, 0⟩) :=
    ⟨Or.inl (Or.inl ⟨_, List.mem_singleton_self _, rfl, rfl, rfl⟩), rfl⟩
  have hnow : booksAnswers (recorded, ledger) (.quota .now) (recorded, ledger) (.ok (1 : ℤ)) :=
    ⟨Or.inl ⟨rfl, _, rfl⟩, rfl⟩
  have hactivate : booksAnswers (recorded, ledger)
      (.subscriptionUpsert "sub_2" (checkoutCreate "org-1" "tier1" 1)) (secondSubscribed, ledger)
      (.ok ()) := ⟨Or.inl ⟨rfl, Or.inr ⟨rfl, rfl⟩⟩, rfl⟩
  exact ⟨.ok (), .call hrecord <| .call horg <| .call hnow <| .call hactivate ⟨rfl, rfl⟩⟩

/-- The failure finds the second subscription, which has no unit to give back; the first
stays charged for the failed request. -/
theorem not_conserves_of_second_subscription :
    ¬ ∀ env crypto db, (∀ id sub, db.subscription? id = some sub → sub.usageCount = 0) →
      ∀ run, IsRun (MeterStep env crypto) (db, {}) run → IsRun Conserves (db, {}) run := by
  intro h
  let second := (checkoutCreate "org-1" "tier1" 1).row "sub_2"
  have hlatest : secondSubscribed.LatestSubscription (.activeOfOrg (some "org-1")) (some second) := by
    refine ⟨List.mem_cons_of_mem _ (List.mem_singleton_self _), ⟨rfl, rfl⟩, ?_⟩
    intro sub hsub _
    rcases List.mem_cons.1 hsub with rfl | hsub
    · decide
    · obtain rfl := List.mem_singleton.1 hsub
      decide
  have hfail : MeterStep plainEnv.storage plainCrypto
      (secondSubscribed, ⟨[⟨"sr-1", "sub-1"⟩], none⟩) (.fail exampleFailure) _ :=
    .fail (by decide) rfl rfl hlatest
  obtain ⟨-, -, ⟨hconserved, -⟩, -⟩ := h _ _ _ oneOrg_unused [(_, _), (_, _), (_, _)]
    ⟨intake_charges, second_subscribes, hfail, trivial⟩
  have hmeter := hconserved "sub-1" _ rfl
  revert hmeter
  decide

/-- A checkout of another organization. -/
def otherCheckout : StripeEvent :=
  ⟨"evt_2", .checkoutSessionCompleted ⟨some "clerk-2", some ⟨none, some "tier1"⟩, some (.id "sub_2")⟩⟩

/-- The database with the other organization, -/
def otherAttributed : Db :=
  { oneIntake with
    webhookEvents := Table.empty.insert ⟨"evt_2", 0⟩ rfl
    organizations := oneOrg.organizations.insert ⟨"org-2", "clerk-2", "clerk-2", none, 1⟩ rfl }

/-- and with its subscription. -/
def otherSubscribed : Db :=
  otherAttributed.insertSubscription ((checkoutCreate "org-2" "tier1" 1).row "sub_2") rfl

/-- The books with the request charged. -/
def otherBooks : Books := (otherSubscribed, ⟨[⟨"sr-1", "sub-1"⟩], none⟩)

theorem other_subscribes : MeterStep plainEnv.storage plainCrypto chargedBooks
    (.webhook otherCheckout) otherBooks := by
  let ledger : Ledger := ⟨[⟨"sr-1", "sub-1"⟩], none⟩
  let recorded : Db := { oneIntake with webhookEvents := Table.empty.insert ⟨"evt_2", 0⟩ rfl }
  have hrecord : booksAnswers (oneIntake, ledger) (.webhookEventCreate "evt_2") (recorded, ledger)
      (.ok ()) := ⟨Or.inl (Or.inl ⟨0, rfl, rfl, rfl⟩), rfl⟩
  have hnew : ∀ org ∈ recorded.organizations, org.clerkOrgId ≠ "clerk-2" := by
    intro org horg
    obtain rfl := List.mem_singleton.1 horg
    decide
  have horg : booksAnswers (recorded, ledger) (.organizationUpsert "clerk-2")
      (otherAttributed, ledger) (.ok ⟨"org-2", "clerk-2", "clerk-2", none, 1⟩) :=
    ⟨Or.inl (Or.inr ⟨hnew, "org-2", 1, rfl, rfl, rfl⟩), rfl⟩
  have hnow : booksAnswers (otherAttributed, ledger) (.quota .now) (otherAttributed, ledger)
      (.ok (1 : ℤ)) := ⟨Or.inl ⟨rfl, _, rfl⟩, rfl⟩
  have hactivate : booksAnswers (otherAttributed, ledger)
      (.subscriptionUpsert "sub_2" (checkoutCreate "org-2" "tier1" 1)) (otherSubscribed, ledger)
      (.ok ()) := ⟨Or.inl ⟨rfl, Or.inr ⟨rfl, rfl⟩⟩, rfl⟩
  exact ⟨.ok (), .call hrecord <| .call horg <| .call hnow <| .call hactivate ⟨rfl, rfl⟩⟩

theorem other_matches {sub : Subscription} (hsub : sub ∈ otherSubscribed.subscriptions)
    (hmatches : SubscriptionWhere.Matches otherSubscribed (.activeOfOrg (some "org-1")) sub) :
    sub = chargedSubscription := by
  rcases List.mem_cons.1 hsub with rfl | hsub
  · rfl
  · obtain rfl := List.mem_singleton.1 hsub
    exact absurd hmatches.2 (by decide)

theorem other_latest : otherSubscribed.LatestSubscription (.activeOfOrg (some "org-1"))
    (some chargedSubscription) := by
  refine ⟨List.mem_cons_self, ⟨rfl, rfl⟩, fun sub hsub h => ?_⟩
  obtain rfl := other_matches hsub h
  exact lt_irrefl _

theorem other_only {sel : Option Subscription}
    (h : otherSubscribed.LatestSubscription (.activeOfOrg (some "org-1")) sel) :
    sel = some chargedSubscription := by
  rcases sel with _ | sub
  · exact absurd other_latest.2.1 (h _ other_latest.1)
  · exact congrArg some (other_matches h.1 h.2.1)

/-- The failure of the request in its own period gives its unit back, with a checkout of
another organization in between. -/
theorem conserves_of_failure_in_period :
    ∃ run, IsRun (MeterStep plainEnv.storage plainCrypto) (oneOrg, {}) run ∧
      run.map Prod.fst = [.intake exampleIntake, .webhook otherCheckout, .fail exampleFailure] ∧
      IsRun Conserves (oneOrg, {}) run := by
  have hfail : MeterStep plainEnv.storage plainCrypto otherBooks (.fail exampleFailure) _ :=
    .fail (by decide) rfl rfl other_latest
  have hrun : IsRun (MeterStep plainEnv.storage plainCrypto) (oneOrg, {})
      [(_, _), (_, _), (_, _)] := ⟨intake_charges, other_subscribes, hfail, trivial⟩
  have hin : InPeriod (oneOrg, {}) [(.intake exampleIntake, chargedBooks),
      (.webhook otherCheckout, otherBooks)] "sr-1" "sub-1" := by
    refine ⟨[], exampleIntake, chargedBooks, [_], rfl, ⟨rfl, ⟨_, rfl⟩, ?_⟩, ⟨?_, ?_⟩, trivial⟩
    · decide
    · exact id
    · decide
  refine ⟨_, hrun, rfl, conserves_of_failsInPeriod oneOrg_unused hrun ?_⟩
  rintro before input s' after heq -
  rcases before with _ | ⟨_, _ | ⟨_, _ | ⟨_, before⟩⟩⟩
  · cases heq
  · cases heq
  · cases heq
    exact ⟨"sub-1", hin, fun sel hsel => congrArg (Option.map Subscription.id) (other_only hsel)⟩
  · simp at heq

end EpsDapp
