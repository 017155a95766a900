import EpsDapp.Effect.Wp
import EpsDapp.Schema.Failure
import EpsDapp.Schema.Models

/-!
# The quota meter

The functions of `lib/quota.ts` over the calls of their `QuotaDbClient`. Each
call is one SQL statement: `findFirst` answers some row with the latest
`periodEnd` among those that match, an `update` throws when its row is missing,
and an `updateMany` reports how many rows its guard let through.
-/

set_option autoImplicit false

namespace EpsDapp

open Calendar Effect

/-- The `where` clauses under which a subscription is looked up. -/
inductive SubscriptionWhere
  /-- `{ status: "ACTIVE", organization: { clerkOrgId } }` -/
  | activeOfClerkOrg (clerkOrgId : String)
  /-- `{ status: "ACTIVE", orgId }` -/
  | activeOfOrg (orgId : Option String)
  /-- `{ orgId }` -/
  | ofOrg (orgId : String)

namespace SubscriptionWhere

/-- The rows a clause selects. -/
def Matches (db : Db) : SubscriptionWhere → Subscription → Prop
  | activeOfClerkOrg clerkOrgId, s => s.status = .active ∧
      (db.organizations.get? s.orgId).map Organization.clerkOrgId = some clerkOrgId
  | activeOfOrg orgId, s => s.status = .active ∧ orgId = some s.orgId
  | ofOrg orgId, s => s.orgId = orgId

instance (db : Db) (q : SubscriptionWhere) : DecidablePred (q.Matches db) := fun s => by
  cases q <;> unfold Matches <;> infer_instance

/-- Prisma refuses `null` in a filter on a column that is not nullable. -/
def Valid : SubscriptionWhere → Prop
  | activeOfOrg orgId => orgId ≠ none
  | _ => True

end SubscriptionWhere

/-- `s` is what `findFirst` with `orderBy: { periodEnd: "desc" }` may answer. -/
def Db.LatestSubscription (db : Db) (q : SubscriptionWhere) (s : Option Subscription) : Prop :=
  db.subscriptions.IsFirst (q.Matches db) (fun s s' => s'.periodEnd < s.periodEnd) s

theorem Db.exists_latestSubscription (db : Db) (q : SubscriptionWhere) :
    ∃ s, db.LatestSubscription q s :=
  ⟨_, db.subscriptions.findFirst_isFirst (q.Matches db) fun s => OrderDual.toDual s.periodEnd⟩

/-- The only row of a table is its latest, if it matches. -/
theorem Db.latestSubscription_of_singleton {db : Db} {q : SubscriptionWhere} {s : Subscription}
    (hrows : db.subscriptions.rows = [s]) (hs : q.Matches db s) :
    db.LatestSubscription q (some s) := by
  refine ⟨by simp [Table.mem_def, hrows], hs, fun s' hs' _ => ?_⟩
  obtain rfl : s' = s := by simpa [Table.mem_def, hrows] using hs'
  exact lt_irrefl _

/-- The calls of `QuotaDbClient`, and `new Date()`. -/
inductive QuotaCall
  | now
  | subscriptionFindFirst (q : SubscriptionWhere)
  | subscriptionUpdate (id : String) (data : SubscriptionUpdate)
  /-- `updateMany` with the guard `usageCount < limit`. -/
  | subscriptionIncrement (id : String) (limit : ℕ)
  /-- `updateMany` with the guard `usageCount > 0`. -/
  | subscriptionDecrement (id : String)

/-- The answer of each call; an `updateMany` answers its `count`. -/
@[reducible] def QuotaCall.Resp : QuotaCall → Type
  | now => Instant
  | subscriptionFindFirst _ => Option Subscription
  | subscriptionUpdate _ _ => Subscription
  | subscriptionIncrement _ _ => ℕ
  | subscriptionDecrement _ => ℕ

abbrev quotaSig : Signature := ⟨QuotaCall, QuotaCall.Resp⟩

abbrev QuotaProgram := Program quotaSig Failure

/-- A guarded `updateMany` on one row. -/
def Db.updateSubscriptionWhere (db : Db) (id : String) (guard : Subscription → Prop)
    [DecidablePred guard] (u : SubscriptionUpdate) : Db × ℕ :=
  match db.subscription? id with
  | some s => if guard s then (db.updateSubscription id u, 1) else (db, 0)
  | none => (db, 0)

/-- What each call does to the database and answers. -/
def QuotaCall.Exec (db : Db) : (c : QuotaCall) → Db → Except Failure c.Resp → Prop
  | now, db', r => db' = db ∧ ∃ t, r = .ok t
  | subscriptionFindFirst q, db', r => db' = db ∧
      ((q.Valid ∧ ∃ s, db.LatestSubscription q s ∧ r = .ok s) ∨
        (¬ q.Valid ∧ r = .error .validation))
  | subscriptionUpdate id data, db', r =>
      match db.subscription? id with
      | some s => db' = db.updateSubscription id data ∧ r = .ok (data.apply s)
      | none => db' = db ∧ r = .error .recordNotFound
  | subscriptionIncrement id limit, db', r =>
      (db', r) = (fun p => (p.1, .ok p.2)) (db.updateSubscriptionWhere id
        (fun s => s.usageCount < limit) { usageCount := (· + 1) })
  | subscriptionDecrement id, db', r =>
      (db', r) = (fun p => (p.1, .ok p.2)) (db.updateSubscriptionWhere id
        (fun s => 0 < s.usageCount) { usageCount := (· - 1) })

/-- The answers of the database to a `QuotaDbClient`. -/
def quotaAnswers : Answers quotaSig Failure Db := QuotaCall.Exec

namespace QuotaProgram

def now : QuotaProgram Instant := Program.perform (S := quotaSig) .now

def subscriptionFindFirst (q : SubscriptionWhere) : QuotaProgram (Option Subscription) :=
  Program.perform (S := quotaSig) (.subscriptionFindFirst q)

def subscriptionUpdate (id : String) (data : SubscriptionUpdate) : QuotaProgram Subscription :=
  Program.perform (S := quotaSig) (.subscriptionUpdate id data)

def subscriptionIncrement (id : String) (limit : ℕ) : QuotaProgram ℕ :=
  Program.perform (S := quotaSig) (.subscriptionIncrement id limit)

def subscriptionDecrement (id : String) : QuotaProgram ℕ :=
  Program.perform (S := quotaSig) (.subscriptionDecrement id)

end QuotaProgram

/-- `TIER_QUOTA`. -/
def tierQuota : String → Option ℕ
  | "tier1" => some 1
  | "tier2" => some 9
  | "tier3" => some 999
  | _ => none

/-- `QuotaResult`. -/
structure QuotaResult where
  usageCount : ℤ
  limit : ℕ
  deriving DecidableEq

/-- `nextPeriodEnd`. -/
def nextPeriodEnd (start : Instant) : Instant := addMonths start 1

/-- The write that rolls a subscription over: its meter restarts at the unit the
caller consumes. -/
def rollover (now : Instant) : SubscriptionUpdate where
  usageCount := fun _ => 1
  periodStart := some now
  periodEnd := some (nextPeriodEnd now)

open QuotaProgram in
/-- `checkAndDecrementQuota`. -/
def checkAndDecrementQuota (orgId : String) : QuotaProgram QuotaResult := do
  match ← subscriptionFindFirst (.activeOfClerkOrg orgId) with
  | none => throw (.noActiveSubscription orgId)
  | some subscription =>
      match tierQuota subscription.tierId with
      | none => throw (.error ("Unknown subscription tier '" ++ subscription.tierId ++
          "' for org " ++ orgId ++ "."))
      | some limit => do
          let now ← now
          if subscription.periodEnd < now then do
            let _ ← subscriptionUpdate subscription.id (rollover now)
            pure ⟨1, limit⟩
          else do
            let count ← subscriptionIncrement subscription.id limit
            if count = 0 then throw (.quotaExceeded orgId limit)
            else pure ⟨subscription.usageCount + 1, limit⟩

open QuotaProgram in
/-- `restoreQuota`. -/
def restoreQuota (orgId : Option String) : QuotaProgram Bool := do
  match ← subscriptionFindFirst (.activeOfOrg orgId) with
  | none => pure false
  | some subscription => do
      let count ← subscriptionDecrement subscription.id
      pure (decide (0 < count))

/-! ## What the functions do -/

theorem Db.updateSubscriptionWhere_of_some (db : Db) {id : String} {s : Subscription}
    (guard : Subscription → Prop) [DecidablePred guard] (u : SubscriptionUpdate)
    (hs : db.subscription? id = some s) :
    db.updateSubscriptionWhere id guard u =
      if guard s then (db.updateSubscription id u, 1) else (db, 0) := by
  rw [updateSubscriptionWhere, hs]

/-- A call of the meter writes to no table but the subscriptions. -/
theorem QuotaCall.Exec.subscriptions {db db' : Db} {c : QuotaCall} {r : Except Failure c.Resp}
    (h : c.Exec db db' r) : ∃ subscriptions, db' = { db with subscriptions := subscriptions } := by
  have hwhere : ∀ id (guard : Subscription → Prop) [DecidablePred guard] u,
      ∃ subscriptions, (db.updateSubscriptionWhere id guard u).1 =
        { db with subscriptions := subscriptions } := by
    intro id guard _ u
    rw [Db.updateSubscriptionWhere]
    split
    · split
      · exact ⟨_, rfl⟩
      · exact ⟨_, rfl⟩
    · exact ⟨_, rfl⟩
  cases c with
  | now => exact ⟨_, h.1⟩
  | subscriptionFindFirst q => exact ⟨_, h.1⟩
  | subscriptionUpdate id data =>
      simp only [QuotaCall.Exec] at h
      split at h
      · exact ⟨_, h.1⟩
      · exact ⟨_, h.1⟩
  | subscriptionIncrement id limit =>
      obtain ⟨hdb, -⟩ := Prod.mk.inj h
      exact hdb ▸ hwhere _ _ _
  | subscriptionDecrement id =>
      obtain ⟨hdb, -⟩ := Prod.mk.inj h
      exact hdb ▸ hwhere _ _ _

/-- The credit of one unit to the subscription that was found, and whether there
was one to give back. -/
def Db.credit (db : Db) : Option Subscription → Db × Bool
  | none => (db, false)
  | some s =>
      let p := db.updateSubscriptionWhere s.id (fun s => 0 < s.usageCount)
        { usageCount := (· - 1) }
      (p.1, decide (0 < p.2))

/-- A run of `restoreQuota` credits the latest active subscription of the
organization, and rejects when there is no organization. -/
theorem restoreQuota_runs_iff (orgId : Option String) (db db' : Db)
    (r : Except Failure Bool) :
    (restoreQuota orgId).Runs quotaAnswers db db' r ↔
      (orgId = none ∧ db' = db ∧ r = .error .validation) ∨
        ∃ o sel, orgId = some o ∧ db.LatestSubscription (.activeOfOrg orgId) sel ∧
          db' = (db.credit sel).1 ∧ r = .ok (db.credit sel).2 := by
  rw [restoreQuota, Program.runs_bind]
  constructor
  · rintro (⟨found, w, hfind, hr⟩ | ⟨e, hfind, rfl⟩)
    · obtain ⟨rfl, ⟨hvalid, s, hs, h⟩ | ⟨_, h⟩⟩ := (Program.runs_perform _ _ _ _).1 hfind
      · cases h
        cases orgId with
        | none => exact absurd rfl hvalid
        | some o =>
            refine Or.inr ⟨o, found, rfl, hs, ?_⟩
            cases found with
            | none => exact hr
            | some s =>
                rcases (Program.runs_bind _ _ _ _ _).1 hr with
                  ⟨n, _, hn, hdone⟩ | ⟨e, he, _⟩
                · cases (Program.runs_perform _ _ _ _).1 hn
                  exact hdone
                · cases (Program.runs_perform _ _ _ _).1 he
      · cases h
    · obtain ⟨rfl, ⟨_, _, _, h⟩ | ⟨hvalid, h⟩⟩ := (Program.runs_perform _ _ _ _).1 hfind
      · cases h
      · cases h
        refine Or.inl ⟨?_, rfl, rfl⟩
        cases orgId with
        | none => rfl
        | some o => exact absurd (Option.some_ne_none o) hvalid
  · rintro (⟨rfl, rfl, rfl⟩ | ⟨o, sel, rfl, hsel, rfl, rfl⟩)
    · refine Or.inr ⟨.validation, (Program.runs_perform _ _ _ _).2 ?_, rfl⟩
      exact ⟨rfl, Or.inr ⟨fun h => h rfl, rfl⟩⟩
    · refine Or.inl ⟨sel, db, (Program.runs_perform _ _ _ _).2 ?_, ?_⟩
      · exact ⟨rfl, Or.inl ⟨Option.some_ne_none o, sel, hsel, rfl⟩⟩
      · cases sel with
        | none => exact ⟨rfl, rfl⟩
        | some s =>
            refine (Program.runs_bind _ _ _ _ _).2 (Or.inl ⟨_, _, ?_, rfl, rfl⟩)
            exact (Program.runs_perform _ _ _ _).2 rfl

/-- A successful `checkAndDecrementQuota`, call by call: it finds a subscription
of a known tier, reads the clock, and rolls the subscription over or wins the
guarded increment. -/
theorem checkAndDecrementQuota_runs_ok_iff {W : Type} (E : Answers quotaSig Failure W)
    (orgId : String) (w w' : W) (q : QuotaResult) :
    (checkAndDecrementQuota orgId).Runs E w w' (.ok q) ↔
      ∃ w₁ s limit w₂ t,
        E w (.subscriptionFindFirst (.activeOfClerkOrg orgId)) w₁ (.ok (some s)) ∧
        tierQuota s.tierId = some limit ∧ E w₁ .now w₂ (.ok t) ∧
        ((s.periodEnd < t ∧ q = ⟨1, limit⟩ ∧
            ∃ s', E w₂ (.subscriptionUpdate s.id (rollover t)) w' (.ok s')) ∨
          (¬ s.periodEnd < t ∧ q = ⟨s.usageCount + 1, limit⟩ ∧
            ∃ n, n ≠ 0 ∧ E w₂ (.subscriptionIncrement s.id limit) w' (.ok n))) := by
  rw [checkAndDecrementQuota, Program.runs_bind]
  simp only [reduceCtorEq, and_false, exists_false, or_false]
  constructor
  · rintro ⟨found, w₁, hfind, hr⟩
    rcases found with _ | s
    · cases hr.2
    simp only at hr
    split at hr
    · cases hr.2
    rename_i limit hlimit
    rw [Program.runs_bind] at hr
    simp only [reduceCtorEq, and_false, exists_false, or_false] at hr
    obtain ⟨t, w₂, hnow, hr⟩ := hr
    refine ⟨w₁, s, limit, w₂, t, (Program.runs_perform _ _ _ _).1 hfind, hlimit,
      (Program.runs_perform _ _ _ _).1 hnow, ?_⟩
    split at hr
    · rename_i hlt
      rw [Program.runs_bind] at hr
      simp only [reduceCtorEq, and_false, exists_false, or_false] at hr
      obtain ⟨s', w₃, hupdate, rfl, hq⟩ := hr
      cases hq
      exact Or.inl ⟨hlt, rfl, s', (Program.runs_perform _ _ _ _).1 hupdate⟩
    · rename_i hlt
      rw [Program.runs_bind] at hr
      simp only [reduceCtorEq, and_false, exists_false, or_false] at hr
      obtain ⟨n, w₃, hincrement, hr⟩ := hr
      split at hr
      · cases hr.2
      · rename_i hn
        obtain ⟨rfl, hq⟩ := hr
        cases hq
        exact Or.inr ⟨hlt, rfl, n, hn, (Program.runs_perform _ _ _ _).1 hincrement⟩
  · rintro ⟨w₁, s, limit, w₂, t, hfind, hlimit, hnow, hrest⟩
    refine ⟨some s, w₁, (Program.runs_perform _ _ _ _).2 hfind, ?_⟩
    simp only [hlimit]
    rw [Program.runs_bind]
    refine Or.inl ⟨t, w₂, (Program.runs_perform _ _ _ _).2 hnow, ?_⟩
    rcases hrest with ⟨hlt, rfl, s', hupdate⟩ | ⟨hlt, rfl, n, hn, hincrement⟩
    · rw [if_pos hlt, Program.runs_bind]
      exact Or.inl ⟨s', w', (Program.runs_perform _ _ _ _).2 hupdate, rfl, rfl⟩
    · rw [if_neg hlt, Program.runs_bind]
      refine Or.inl ⟨n, w', (Program.runs_perform _ _ _ _).2 hincrement, ?_⟩
      rw [if_neg hn]
      exact ⟨rfl, rfl⟩

end EpsDapp
