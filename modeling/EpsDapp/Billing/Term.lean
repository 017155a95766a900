import EpsDapp.Billing.Grants
import EpsDapp.Quota.Concurrency

/-!
# The term of a complimentary grant

A grant has no term but the `periodEnd` of its subscription, and the quota meter
reads `periodEnd` as the end of a period that renews itself: the first call after
it rolls the grant over. So a grant is used within its term exactly if no call is
made after it.
-/

set_option autoImplicit false

namespace EpsDapp

open Calendar Effect ServerProgram

namespace Db

/-- What the constraints of the schema guarantee of organizations: `clerkOrgId` is unique,
and the organization of a subscription is there. -/
structure Consistent (db : Db) : Prop where
  clerkOrgId : ∀ o ∈ db.organizations, ∀ o' ∈ db.organizations,
    o.clerkOrgId = o'.clerkOrgId → o = o'
  organization : ∀ s ∈ db.subscriptions, ∃ o, db.organizations.get? s.orgId = some o

/-- The subscriptions of an organization. -/
def SubscriptionOf (db : Db) (clerkOrgId : String) (s : Subscription) : Prop :=
  s ∈ db.subscriptions ∧
    (db.organizations.get? s.orgId).map Organization.clerkOrgId = some clerkOrgId

theorem subscriptionOf_updateSubscription {db : Db} {clerkOrgId id : String}
    {u : SubscriptionUpdate} {s : Subscription} :
    (db.updateSubscription id u).SubscriptionOf clerkOrgId s ↔
      ∃ s₀, db.SubscriptionOf clerkOrgId s₀ ∧ s = if s₀.id = id then u.apply s₀ else s₀ := by
  constructor
  · rintro ⟨hs, horg⟩
    obtain ⟨s₀, hs₀, rfl⟩ := (db.subscriptions.mem_modify_iff id u.apply (fun _ => rfl) s).1 hs
    refine ⟨s₀, ⟨hs₀, ?_⟩, rfl⟩
    by_cases hid : s₀.id = id
    · rw [if_pos hid] at horg
      exact horg
    · rw [if_neg hid] at horg
      exact horg
  · rintro ⟨s₀, ⟨hs₀, horg⟩, rfl⟩
    refine ⟨(db.subscriptions.mem_modify_iff id u.apply (fun _ => rfl) _).2 ⟨s₀, hs₀, rfl⟩, ?_⟩
    by_cases hid : s₀.id = id
    · rw [if_pos hid]
      exact horg
    · rw [if_neg hid]
      exact horg

end Db

/-- The organization has one subscription, the grant that ends at `periodEnd`. -/
def Granted (clerkOrgId : String) (periodEnd : Instant) (db : Db) : Prop :=
  ∃ s : Subscription, s.tierId = compGrantTier ∧ s.status = .active ∧ s.periodEnd = periodEnd ∧
    ∀ s', db.SubscriptionOf clerkOrgId s' ↔ s' = s

/-- A write leaves the tier, the status and the period. -/
def SubscriptionUpdate.KeepsTerm (u : SubscriptionUpdate) : Prop :=
  u.tierId = none ∧ u.status = none ∧ u.periodEnd = none

namespace Granted

variable {clerkOrgId : String} {periodEnd : Instant} {db : Db}

/-- A write that leaves the term of the grant, or that goes to another organization. -/
theorem update (h : Granted clerkOrgId periodEnd db) {id : String} {u : SubscriptionUpdate}
    (hu : u.KeepsTerm ∨ ∀ s, db.SubscriptionOf clerkOrgId s → s.id ≠ id) :
    Granted clerkOrgId periodEnd (db.updateSubscription id u) := by
  obtain ⟨s, htier, hstatus, hend, honly⟩ := h
  refine ⟨if s.id = id then u.apply s else s, ?_, ?_, ?_, fun s' => ?_⟩
  · split
    · rename_i hid
      obtain ⟨hutier, -, -⟩ := hu.resolve_right fun h => h s ((honly s).2 rfl) hid
      simp [SubscriptionUpdate.apply, hutier, htier]
    · exact htier
  · split
    · rename_i hid
      obtain ⟨-, hustatus, -⟩ := hu.resolve_right fun h => h s ((honly s).2 rfl) hid
      simp [SubscriptionUpdate.apply, hustatus, hstatus]
    · exact hstatus
  · split
    · rename_i hid
      obtain ⟨-, -, huend⟩ := hu.resolve_right fun h => h s ((honly s).2 rfl) hid
      simp [SubscriptionUpdate.apply, huend, hend]
    · exact hend
  · rw [Db.subscriptionOf_updateSubscription]
    simp only [honly, exists_eq_left]

theorem updateWhere (h : Granted clerkOrgId periodEnd db) {id : String}
    {guard : Subscription → Prop} [DecidablePred guard] {u : SubscriptionUpdate}
    (hu : u.KeepsTerm) :
    Granted clerkOrgId periodEnd (db.updateSubscriptionWhere id guard u).1 := by
  rw [Db.updateSubscriptionWhere]
  split
  · split
    · exact h.update (Or.inl hu)
    · exact h
  · exact h

/-- What is found is the grant. -/
theorem latest (h : Granted clerkOrgId periodEnd db) {found : Option Subscription}
    (hfound : db.LatestSubscription (.activeOfClerkOrg clerkOrgId) found) :
    ∃ s, found = some s ∧ s.tierId = compGrantTier ∧ s.periodEnd = periodEnd ∧
      db.subscription? s.id = some s := by
  obtain ⟨s, htier, hstatus, hend, honly⟩ := h
  obtain ⟨hmem, horg⟩ := (honly s).2 rfl
  cases found with
  | none => exact absurd ⟨hstatus, horg⟩ (hfound s hmem)
  | some s' =>
      obtain ⟨hmem', ⟨-, horg'⟩, -⟩ := hfound
      obtain rfl := (honly s').1 ⟨hmem', horg'⟩
      exact ⟨s', rfl, htier, hend, db.subscriptions.get?_key_eq hmem'⟩

end Granted

/-! ## One call -/

/-- The answers to a call that is made at an instant. -/
def answersAt (time : Instant) : Answers quotaSig Failure Db := fun db c db' r =>
  c.Exec db db' r ∧ c.Timely time r

section Call

variable {clerkOrgId : String} {periodEnd time : Instant} {db : Db}

/-- A call for the organization leaves the grant within its term, and after it succeeds. -/
theorem checkAndDecrementQuota_granted (h : Granted clerkOrgId periodEnd db) :
    (checkAndDecrementQuota clerkOrgId).wp (answersAt time) (fun _ _ => True)
      (fun r db' => (time ≤ periodEnd → Granted clerkOrgId periodEnd db') ∧
        (periodEnd < time → ∃ q, r = .ok q)) db := by
  refine (Program.wp_bind _ _ _ _).2 ((Program.wp_perform _ _ _).2 ⟨trivial, ?_⟩)
  rintro _ r ⟨⟨rfl, hfind⟩, -⟩
  rcases hfind with ⟨-, found, hfound, rfl⟩ | ⟨hinvalid, -⟩
  · obtain ⟨s, rfl, htier, rfl, hs⟩ := h.latest hfound
    simp only [htier]
    refine (Program.wp_bind _ _ _ _).2 ((Program.wp_perform _ _ _).2 ⟨trivial, ?_⟩)
    rintro _ r ⟨⟨rfl, -⟩, rfl⟩
    simp only
    split
    · -- After its end the grant is rolled over.
      rename_i hlate
      refine (Program.wp_bind _ _ _ _).2 ((Program.wp_perform _ _ _).2 ⟨trivial, ?_⟩)
      rintro db' r ⟨hupdate, -⟩
      simp only [QuotaCall.Exec, hs] at hupdate
      obtain ⟨-, rfl⟩ := hupdate
      exact ⟨fun hle => absurd hlate (not_lt.2 hle), fun _ => ⟨_, rfl⟩⟩
    · rename_i hlate
      refine (Program.wp_bind _ _ _ _).2 ((Program.wp_perform _ _ _).2 ⟨trivial, ?_⟩)
      rintro db' r ⟨hincrement, -⟩
      obtain ⟨rfl, rfl⟩ := Prod.mk.inj hincrement
      simp only
      split
      · exact ⟨fun _ => h.updateWhere ⟨rfl, rfl, rfl⟩, fun hlt => absurd hlt hlate⟩
      · exact ⟨fun _ => h.updateWhere ⟨rfl, rfl, rfl⟩, fun _ => ⟨_, rfl⟩⟩
  · exact absurd trivial hinvalid

/-- A call for another organization leaves the grant. -/
theorem checkAndDecrementQuota_other (h : Granted clerkOrgId periodEnd db) {other : String}
    (hother : other ≠ clerkOrgId) :
    (checkAndDecrementQuota other).wp (answersAt time) (fun _ _ => True)
      (fun _ db' => Granted clerkOrgId periodEnd db') db := by
  refine (Program.wp_bind _ _ _ _).2 ((Program.wp_perform _ _ _).2 ⟨trivial, ?_⟩)
  rintro _ r ⟨⟨rfl, hfind⟩, -⟩
  rcases hfind with ⟨-, found, hfound, rfl⟩ | ⟨hinvalid, -⟩
  · cases found with
    | none => exact h
    | some s =>
        obtain ⟨hmem, ⟨-, horg⟩, -⟩ := hfound
        simp only
        split
        · exact h
        refine (Program.wp_bind _ _ _ _).2 ((Program.wp_perform _ _ _).2 ⟨trivial, ?_⟩)
        rintro _ r ⟨⟨rfl, -⟩, rfl⟩
        simp only
        split
        · refine (Program.wp_bind _ _ _ _).2 ((Program.wp_perform _ _ _).2 ⟨trivial, ?_⟩)
          rintro db' r ⟨hupdate, -⟩
          simp only [QuotaCall.Exec] at hupdate
          split at hupdate
          · obtain ⟨rfl, rfl⟩ := hupdate
            refine h.update (Or.inr fun s' hs' hid => hother ?_)
            obtain rfl := Table.eq_of_key_eq _ hs'.1 hmem hid
            exact Option.some.inj (horg.symm.trans hs'.2)
          · obtain ⟨rfl, rfl⟩ := hupdate
            exact h
        · refine (Program.wp_bind _ _ _ _).2 ((Program.wp_perform _ _ _).2 ⟨trivial, ?_⟩)
          rintro db' r ⟨hincrement, -⟩
          obtain ⟨rfl, rfl⟩ := Prod.mk.inj hincrement
          simp only
          split
          · exact h.updateWhere ⟨rfl, rfl, rfl⟩
          · exact h.updateWhere ⟨rfl, rfl, rfl⟩
  · exact absurd trivial hinvalid

theorem restoreQuota_granted (h : Granted clerkOrgId periodEnd db) {orgId : Option String} {db' : Db}
    {r : Except Failure Bool} (hrun : (restoreQuota orgId).Runs quotaAnswers db db' r) :
    Granted clerkOrgId periodEnd db' := by
  rcases (restoreQuota_runs_iff orgId db db' r).1 hrun with ⟨-, rfl, -⟩ | ⟨o, found, -, -, rfl, -⟩
  · exact h
  · cases found with
    | none => exact h
    | some s => exact h.updateWhere ⟨rfl, rfl, rfl⟩

end Call

/-! ## The grant -/

section Grant

variable {clerkOrgId : String} {db : Db}

/-- Creating an organization gives it no subscription. -/
theorem organizationUpsert_subscriptionOf (hdb : db.Consistent)
    (hnone : ∀ s, ¬ db.SubscriptionOf clerkOrgId s) :
    (organizationUpsert clerkOrgId).wp serverAnswers (fun _ _ => True)
      (fun r db' => ∀ org, r = .ok org → db'.organizations.get? org.id = some org ∧
        org.clerkOrgId = clerkOrgId ∧ ∀ s, ¬ db'.SubscriptionOf clerkOrgId s) db := by
  rw [organizationUpsert]
  refine (Program.wp_perform _ _ _).2 ⟨trivial, ?_⟩
  rintro db' r (⟨org, hmem, horg, rfl, rfl⟩ | ⟨hfresh, id, createdAt, hfree, rfl, rfl⟩)
  · rintro _ ⟨⟩
    exact ⟨db'.organizations.get?_key_eq hmem, horg, hnone⟩
  · rintro _ ⟨⟩
    refine ⟨?_, rfl, ?_⟩
    · exact (Table.get?_insert _ _ hfree id).trans (if_pos rfl)
    · rintro s ⟨hs, horg⟩
      obtain ⟨o, ho⟩ := hdb.organization s hs
      have hne : s.orgId ≠ id := by
        rintro heq
        rw [heq, hfree] at ho
        cases ho
      refine hfresh o ((Table.get?_eq_some_iff _ _ _).1 ho).1 ?_
      have hget : (db.organizations.insert ⟨id, clerkOrgId, clerkOrgId, none, createdAt⟩
          hfree).get? s.orgId = some o := (Table.get?_insert _ _ hfree s.orgId).trans
        ((if_neg hne).trans ho)
      rw [hget] at horg
      exact Option.some.inj horg

/-- The grant of an organization without a subscription. -/
theorem compGrant_granted (hdb : db.Consistent) (hnone : ∀ s, ¬ db.SubscriptionOf clerkOrgId s)
    (actor : AuthContext) (now : Instant) :
    (compGrant actor clerkOrgId now).wp serverAnswers (fun _ _ => True)
      (fun r db' => ∀ sub, r = .ok sub → Granted clerkOrgId (addMonths now compGrantMonths) db')
      db := by
  refine Program.wp_seq (organizationUpsert_subscriptionOf hdb hnone) ?_ fun _ _ _ => nofun
  intro org db₁ horg
  obtain ⟨hget, hclerk, hnone₁⟩ := horg org rfl
  refine (Program.wp_bind _ _ _ _).2 ((Program.wp_bind _ _ _ _).2
    ((Program.wp_perform _ _ _).2 ⟨trivial, ?_⟩))
  rintro db₂ r ⟨hdb₂, ⟨-, found, hfound, rfl⟩ | ⟨hinvalid, -⟩⟩
  · obtain rfl : db₂ = db₁ := hdb₂
    cases found with
    | some s =>
        obtain ⟨hmem, hs, -⟩ := hfound
        refine absurd ⟨hmem, ?_⟩ (hnone₁ s)
        rw [show s.orgId = org.id from hs, hget, Option.map_some, hclerk]
    | none =>
        refine (Program.wp_perform _ _ _).2 ⟨trivial, ?_⟩
        rintro db₃ r ⟨id, hfree, rfl, rfl⟩
        refine (Program.wp_bind _ _ _ _).2 ((Program.wp_perform _ _ _).2 ⟨trivial, ?_⟩)
        rintro db₄ r ⟨rfl, rfl⟩
        rintro _ ⟨⟩
        let row := (compGrantCreate org.id now).row id
        refine ⟨row, rfl, rfl, rfl, fun s => ⟨?_, ?_⟩⟩
        · rintro ⟨hs, horg⟩
          rcases (db₂.subscriptions.mem_insert_iff row hfree s).1 hs with hs | rfl
          · exact absurd ⟨hs, horg⟩ (hnone₁ s)
          · rfl
        · rintro rfl
          refine ⟨(db₂.subscriptions.mem_insert_iff row hfree row).2 (Or.inr rfl), ?_⟩
          exact (congrArg _ hget).trans (congrArg some hclerk)
  · exact absurd trivial hinvalid

end Grant

/-! ## Any run after the grant -/

/-- What happens after a grant: a call of the meter for some organization, at an instant; a
unit given back; anything else. -/
inductive Usage
  | consume (clerkOrgId : String) (time : Instant) (r : Except Failure QuotaResult)
  | restore (orgId : Option String)
  | others

/-- A step after the only grant of an organization: whatever others do, they activate no
other subscription of it. -/
inductive UsageStep (clerkOrgId : String) : Db → Usage → Db → Prop
  | consume {db db' other time r}
      (hrun : (checkAndDecrementQuota other).Runs (answersAt time) db db' r) :
      UsageStep clerkOrgId db (.consume other time r) db'
  | restore {db db' orgId r} (hrun : (restoreQuota orgId).Runs quotaAnswers db db' r) :
      UsageStep clerkOrgId db (.restore orgId) db'
  | others {db db'} (h : ∀ s, db'.SubscriptionOf clerkOrgId s ↔ db.SubscriptionOf clerkOrgId s) :
      UsageStep clerkOrgId db .others db'

/-- No call for the organization succeeds later than `periodEnd`. -/
def Expires (clerkOrgId : String) (periodEnd : Instant) (_ : Db) (l : Usage) (_ : Db) : Prop :=
  ∀ time q, l = .consume clerkOrgId time (.ok q) → time ≤ periodEnd

/-- No call for the organization is made later than `periodEnd`. -/
def WithinTerm (clerkOrgId : String) (periodEnd : Instant) (_ : Db) (l : Usage) (_ : Db) : Prop :=
  ∀ time r, l = .consume clerkOrgId time r → time ≤ periodEnd

section Run

variable {clerkOrgId : String} {periodEnd : Instant}

/-- A call after the end of the grant succeeds. -/
theorem expires_iff_step {db db' : Db} {l : Usage} (h : Granted clerkOrgId periodEnd db)
    (hstep : UsageStep clerkOrgId db l db') :
    Expires clerkOrgId periodEnd db l db' ↔ WithinTerm clerkOrgId periodEnd db l db' := by
  refine ⟨?_, fun hin time q hl => hin time _ hl⟩
  rintro hexpires time r rfl
  obtain ⟨hrun⟩ := hstep
  by_contra hlate
  obtain ⟨-, hok⟩ := Program.wp_runs _ (checkAndDecrementQuota_granted h) hrun
  obtain ⟨q, rfl⟩ := hok (not_le.1 hlate)
  exact hlate (hexpires time q rfl)

theorem Granted.step {db db' : Db} {l : Usage} (h : Granted clerkOrgId periodEnd db)
    (hstep : UsageStep clerkOrgId db l db') (hin : WithinTerm clerkOrgId periodEnd db l db') :
    Granted clerkOrgId periodEnd db' := by
  cases hstep with
  | @consume _ other time r hrun =>
      by_cases hother : other = clerkOrgId
      · subst hother
        exact (Program.wp_runs _ (checkAndDecrementQuota_granted h) hrun).1 (hin time r rfl)
      · exact Program.wp_runs _ (checkAndDecrementQuota_other h hother) hrun
  | restore hrun => exact restoreQuota_granted h hrun
  | others hsame =>
      obtain ⟨s, htier, hstatus, hend, honly⟩ := h
      exact ⟨s, htier, hstatus, hend, fun s' => (hsame s').trans (honly s')⟩

/-- A grant is not used after its term in a run exactly if no call is made after it: the
first one that is made succeeds. -/
theorem expires_iff_withinTerm {db₀ db₁ : Db} {actor : AuthContext} {now : Instant}
    {sub : Subscription} (hdb : db₀.Consistent) (hnone : ∀ s, ¬ db₀.SubscriptionOf clerkOrgId s)
    (hgrant : (compGrant actor clerkOrgId now).RunsAtomically serverAnswers db₀ db₁ (.ok sub))
    {run : List (Usage × Db)} (hrun : IsRun (UsageStep clerkOrgId) db₁ run) :
    IsRun (Expires clerkOrgId (addMonths now compGrantMonths)) db₁ run ↔
      IsRun (WithinTerm clerkOrgId (addMonths now compGrantMonths)) db₁ run :=
  hrun.iff_of_step
    (fun _ _ _ h hstep hexpires => h.step hstep ((expires_iff_step h hstep).1 hexpires))
    (fun _ _ _ h hstep => expires_iff_step h hstep)
    (Program.wp_runs _ (compGrant_granted hdb hnone actor now) hgrant sub rfl)

end Run

/-! ## One grant -/

/-- The subscription of a grant to `clerk-1` at the epoch. -/
def grantedSubscription : Subscription := (compGrantCreate "org-1" 0).row "sub-1"

/-- The administrator who grants it. -/
def exampleAdmin : AuthContext := ⟨"user-0", "clerk-0"⟩

/-- The database once its organization is there, -/
def grantOrganization : Db where
  organizations := Table.empty.insert ⟨"org-1", "clerk-1", "clerk-1", none, 0⟩
    (Table.get?_empty "org-1")

/-- and once it has its subscription. -/
def oneGrant : Db :=
  (grantOrganization.insertSubscription grantedSubscription rfl).audit
    (compGrantAudit exampleAdmin "clerk-1" "sub-1")

theorem oneGrant_runs : (compGrant exampleAdmin "clerk-1" 0).RunsAtomically serverAnswers {}
    oneGrant (.ok grantedSubscription) := by
  have hupsert : serverAnswers {} (.organizationUpsert "clerk-1") grantOrganization
      (.ok ⟨"org-1", "clerk-1", "clerk-1", none, 0⟩) :=
    Or.inr ⟨fun _ h => (List.not_mem_nil h).elim, "org-1", 0, rfl, rfl, rfl⟩
  have hfind : serverAnswers grantOrganization (.quota (.subscriptionFindFirst (.ofOrg "org-1")))
      grantOrganization (.ok none) :=
    ⟨rfl, Or.inl ⟨trivial, none, fun _ h => (List.not_mem_nil h).elim, rfl⟩⟩
  have hcreate : serverAnswers grantOrganization (.subscriptionCreate (compGrantCreate "org-1" 0))
      (grantOrganization.insertSubscription grantedSubscription rfl) (.ok grantedSubscription) :=
    ⟨"sub-1", rfl, rfl, rfl⟩
  have haudit : serverAnswers (grantOrganization.insertSubscription grantedSubscription rfl)
      (.auditLogCreate (compGrantAudit exampleAdmin "clerk-1" "sub-1")) oneGrant (.ok ()) :=
    ⟨rfl, rfl⟩
  exact .call hupsert <| .call hfind <| .call hcreate <| .call haudit ⟨rfl, rfl⟩

theorem consistent_empty : Db.Consistent {} where
  clerkOrgId := fun _ h => (List.not_mem_nil h).elim
  organization := fun _ h => (List.not_mem_nil h).elim

theorem not_subscriptionOf_empty (s : Subscription) : ¬ Db.SubscriptionOf {} "clerk-1" s :=
  fun h => List.not_mem_nil h.1

/-- A call finds the grant at any time. -/
theorem oneGrant_finds (time : Instant) : answersAt time oneGrant
    (.subscriptionFindFirst (.activeOfClerkOrg "clerk-1")) oneGrant
    (.ok (some grantedSubscription)) :=
  ⟨⟨rfl, Or.inl ⟨trivial, _, Db.latestSubscription_of_singleton rfl ⟨rfl, rfl⟩, rfl⟩⟩, trivial⟩

/-- A call one millisecond after the end of the grant renews it. -/
theorem not_expires_of_late_call :
    ¬ ∀ clerkOrgId db₀ db₁ actor now sub, db₀.Consistent →
      (∀ s, ¬ db₀.SubscriptionOf clerkOrgId s) →
      (compGrant actor clerkOrgId now).RunsAtomically serverAnswers db₀ db₁ (.ok sub) →
      ∀ run, IsRun (UsageStep clerkOrgId) db₁ run →
        IsRun (Expires clerkOrgId (addMonths now compGrantMonths)) db₁ run := by
  intro h
  let late : Instant := addMonths 0 24 + 1
  have hnow : answersAt late oneGrant .now oneGrant (.ok late) := ⟨⟨rfl, late, rfl⟩, rfl⟩
  have hrollover : answersAt late oneGrant (.subscriptionUpdate "sub-1" (rollover late))
      (oneGrant.updateSubscription "sub-1" (rollover late))
      (.ok ((rollover late).apply grantedSubscription)) := ⟨⟨rfl, rfl⟩, trivial⟩
  have hcall : UsageStep "clerk-1" oneGrant (.consume "clerk-1" late (.ok ⟨1, 999⟩))
      (oneGrant.updateSubscription "sub-1" (rollover late)) :=
    .consume (.call (oneGrant_finds late) <| .call hnow <| .call hrollover ⟨rfl, rfl⟩)
  obtain ⟨hexpires, -⟩ := h "clerk-1" {} oneGrant exampleAdmin 0 _ consistent_empty
    not_subscriptionOf_empty oneGrant_runs [(_, _)] ⟨hcall, trivial⟩
  exact absurd (hexpires late _ rfl) (by decide)

/-- A grant that is called at its beginning only is used within its term. -/
theorem expires_of_early_call :
    ∃ run, IsRun (UsageStep "clerk-1") oneGrant run ∧ run.length = 1 ∧
      IsRun (Expires "clerk-1" (addMonths 0 compGrantMonths)) oneGrant run := by
  have hnow : answersAt 0 oneGrant .now oneGrant (.ok (0 : ℤ)) := ⟨⟨rfl, 0, rfl⟩, rfl⟩
  have hincrement : answersAt 0 oneGrant (.subscriptionIncrement "sub-1" 999)
      (oneGrant.updateSubscription "sub-1" { usageCount := (· + 1) }) (.ok 1) := ⟨rfl, trivial⟩
  have hcall : UsageStep "clerk-1" oneGrant (.consume "clerk-1" 0 (.ok ⟨1, 999⟩))
      (oneGrant.updateSubscription "sub-1" { usageCount := (· + 1) }) :=
    .consume (.call (oneGrant_finds 0) <| .call hnow <| .call hincrement ⟨rfl, rfl⟩)
  have hrun : IsRun (UsageStep "clerk-1") oneGrant [(_, _)] := ⟨hcall, trivial⟩
  refine ⟨_, hrun, rfl, (expires_iff_withinTerm consistent_empty not_subscriptionOf_empty
    oneGrant_runs hrun).2 ⟨?_, trivial⟩⟩
  rintro time r ⟨⟩
  decide

end EpsDapp
