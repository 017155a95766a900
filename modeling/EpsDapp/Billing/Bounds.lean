import EpsDapp.Billing.Grants
import EpsDapp.Effect.Pool

/-!
# The bounds of the meters

Four functions write to the meters: `checkAndDecrementQuota`, `restoreQuota`, the
complimentary grant and the checkout webhook. Their statements may be interleaved
in any way, and each of them may act on a row that has changed since it was read.
What keeps every meter within the quota of its tier is that a tier only ever
changes to the largest one: a limit that is stale is too small, never too large.
-/

set_option autoImplicit false

namespace EpsDapp

open Effect

/-- The meter of the subscription is within the quota of its tier. -/
def Subscription.Bounded (s : Subscription) : Prop :=
  ∃ limit : ℕ, tierQuota s.tierId = some limit ∧ 0 ≤ s.usageCount ∧ s.usageCount ≤ limit

/-- Every meter is. -/
def Db.Bounded (db : Db) : Prop := ∀ s ∈ db.subscriptions, s.Bounded

/-- What a tier allows is allowed by the other one. -/
def TierLE (tierId tierId' : String) : Prop :=
  ∀ limit, tierQuota tierId = some limit → ∃ limit', tierQuota tierId' = some limit' ∧ limit ≤ limit'

theorem TierLE.refl (tierId : String) : TierLE tierId tierId :=
  fun limit h => ⟨limit, h, le_rfl⟩

theorem TierLE.trans {a b c : String} (h : TierLE a b) (h' : TierLE b c) : TierLE a c := by
  intro limit hlimit
  obtain ⟨limit', hlimit', hle⟩ := h limit hlimit
  obtain ⟨limit'', hlimit'', hle'⟩ := h' limit' hlimit'
  exact ⟨limit'', hlimit'', hle.trans hle'⟩

/-- The tier of a complimentary grant is the largest. -/
theorem tierLE_compGrantTier (tierId : String) : TierLE tierId compGrantTier := by
  intro limit h
  refine ⟨999, rfl, ?_⟩
  unfold tierQuota at h
  split at h <;> cases h <;> decide

/-! ## The calls of the four functions -/

/-- The subscription that was found last. -/
structure Finding where
  found : Option Subscription := none

namespace Finding

/-- The mark after a call is answered. -/
def observe (m : Finding) : (c : ServerCall) → Except Failure c.Resp → Finding
  | .quota (.subscriptionFindFirst _), .ok (some s) => ⟨some s⟩
  | _, _ => m

/-- The mark a call and its answer lead to. -/
def Follows : Answers serverSig Failure Finding := fun m c m' r => m' = m.observe c r

/-- The calls of the four functions: an increment goes to the subscription that was found,
below the quota of the tier it was found in. -/
def Allows (m : Finding) : ServerCall → Prop
  | .quota (.subscriptionUpdate _ data) => ∃ now, data = rollover now ∨ data = compGrantUpdate now
  | .quota (.subscriptionIncrement id limit) => ∃ s, m.found = some s ∧ s.id = id ∧
      tierQuota s.tierId = some limit
  | .subscriptionCreate data => ∃ limit, tierQuota data.tierId = some limit
  | .subscriptionUpsert _ create => ∃ limit, tierQuota create.tierId = some limit
  | _ => True

end Finding

/-- The tier that the event activates, if any, is a tier. -/
def StripeEvent.KnownTier (event : StripeEvent) : Prop :=
  ∀ session a, event.data = .checkoutSessionCompleted session → session.attribution = some a →
    ∃ limit, tierQuota a.tierId = some limit

/-- What may run. -/
inductive BillingEntry : ServerProgram Unit → Prop
  | checkAndDecrementQuota (orgId : String) : BillingEntry ((fun _ => ()) <$>
      ServerProgram.quota (EpsDapp.checkAndDecrementQuota orgId))
  | restoreQuota (orgId : Option String) : BillingEntry ((fun _ => ()) <$>
      ServerProgram.quota (EpsDapp.restoreQuota orgId))
  | compGrant (session : Session) (body : Option Json) : BillingEntry ((fun _ => ()) <$>
      postCompGrant session body)
  | webhook (event : StripeEvent) (htier : event.KnownTier) : BillingEntry (processEvent event)

/-- A program that makes only calls that are allowed throughout. -/
theorem Finding.conforms_of_only {α : Type} {p : ServerProgram α}
    (h : p.Only fun c => ∀ m : Finding, m.Allows c) (m : Finding) :
    Machine.Conforms Finding.Follows Finding.Allows p m :=
  Program.wp_post _ (fun _ _ _ => trivial) (h.wp (J := fun _ => True)
    (fun _ _ _ _ _ _ _ => trivial) (fun m _ hc _ => hc m) trivial)

theorem postCompGrant_only (session : Session) (body : Option Json) :
    (postCompGrant session body).Only fun c => ∀ m : Finding, m.Allows c := by
  rw [postCompGrant]
  split
  · exact Program.only_pure _
  · exact Program.only_pure _
  · exact Program.only_throw _
  · split
    · exact Program.only_pure _
    · split
      · exact Program.only_pure _
      · refine Program.only_bind ((Program.only_perform _).2 fun _ => trivial) fun now => ?_
        refine Program.only_bind ?_ fun sub => Program.only_pure _
        refine Program.only_bind ((Program.only_perform _).2 fun _ => trivial) fun org => ?_
        refine Program.only_bind ?_ fun sub => ?_
        · refine Program.only_bind ((Program.only_perform _).2 fun _ => trivial) fun existing => ?_
          split
          · exact (Program.only_perform _).2 fun _ => ⟨now, Or.inr rfl⟩
          · exact (Program.only_perform _).2 fun _ => ⟨999, rfl⟩
        · exact Program.only_bind ((Program.only_perform _).2 fun _ => trivial) fun _ =>
            Program.only_pure _

theorem processEvent_only {event : StripeEvent} (htier : event.KnownTier) :
    (processEvent event).Only fun c => ∀ m : Finding, m.Allows c := by
  refine Program.only_bind ((Program.only_perform _).2 fun _ => trivial) fun _ => ?_
  split
  · rename_i session hdata
    rw [applyCheckoutCompleted]
    split
    · exact Program.only_pure _
    · rename_i a ha
      refine Program.only_bind ((Program.only_perform _).2 fun _ => trivial) fun org => ?_
      refine Program.only_bind ((Program.only_perform _).2 fun _ => trivial) fun now => ?_
      exact (Program.only_perform _).2 fun _ => htier session a hdata ha
  · exact Program.only_pure _

open Program in
theorem BillingEntry.conforms {p : ServerProgram Unit} (h : BillingEntry p) :
    Machine.Conforms Finding.Follows Finding.Allows p {} := by
  cases h with
  | checkAndDecrementQuota orgId =>
      rw [Machine.Conforms, wp_map, ServerProgram.quota, wp_lift, EpsDapp.checkAndDecrementQuota]
      refine (wp_bind _ _ _ _).2 ((wp_perform _ _ _).2 ⟨trivial, ?_⟩)
      rintro _ _ ⟨e | _ | s, rfl, rfl⟩
      · trivial
      · trivial
      simp only
      split
      · trivial
      rename_i limit hlimit
      refine (wp_bind _ _ _ _).2 ((wp_perform _ _ _).2 ⟨trivial, ?_⟩)
      rintro _ _ ⟨e | now, rfl, rfl⟩
      · trivial
      simp only
      split
      · refine (wp_bind _ _ _ _).2 ((wp_perform _ _ _).2 ⟨⟨now, Or.inl rfl⟩, ?_⟩)
        rintro _ _ ⟨e | s', rfl, rfl⟩
        · trivial
        · trivial
      · refine (wp_bind _ _ _ _).2 ((wp_perform _ _ _).2 ⟨⟨s, rfl, rfl, hlimit⟩, ?_⟩)
        rintro _ _ ⟨e | n, rfl, rfl⟩
        · trivial
        · simp only
          split <;> trivial
  | restoreQuota orgId =>
      rw [Machine.Conforms, wp_map, ServerProgram.quota, wp_lift, EpsDapp.restoreQuota]
      refine (wp_bind _ _ _ _).2 ((wp_perform _ _ _).2 ⟨trivial, ?_⟩)
      rintro _ _ ⟨e | _ | s, rfl, rfl⟩
      · trivial
      · trivial
      refine (wp_bind _ _ _ _).2 ((wp_perform _ _ _).2 ⟨trivial, ?_⟩)
      rintro _ _ ⟨e | n, rfl, rfl⟩
      · trivial
      · trivial
  | compGrant session body =>
      exact (wp_map _ _ _ _).2 (Finding.conforms_of_only (postCompGrant_only session body) _)
  | webhook event htier => exact Finding.conforms_of_only (processEvent_only htier) _

/-! ## Any interleaving -/

/-- The four functions on one database, statement by statement. -/
def billing (ι : Type) : Machine serverSig Failure Unit ι Finding Db where
  idle := {}
  observe m c _ r := m.observe c r
  answers _ := billingAnswers
  entry _ := BillingEntry
  environment db db' := db'.subscriptions = db.subscriptions

/-- The subscriptions stay, and their tiers grow. -/
def Db.TiersGrow (db db' : Db) : Prop :=
  ∀ id s, db.subscription? id = some s → ∃ s', db'.subscription? id = some s' ∧
    TierLE s.tierId s'.tierId

/-- A subscription that was found is still there, in a tier that allows as much. -/
def Finding.Valid (m : Finding) (db : Db) : Prop :=
  ∀ s, m.found = some s → ∃ s', db.subscription? s.id = some s' ∧ TierLE s.tierId s'.tierId

/-- What is to be shown of a step. -/
structure Db.Keeps (db db' : Db) : Prop where
  tiers : db.TiersGrow db'
  bounded : db.Bounded → db'.Bounded

namespace Db

theorem Keeps.of_subscriptions {db db' : Db} (h : db'.subscriptions = db.subscriptions) :
    db.Keeps db' where
  tiers id s hs := ⟨s, by rw [subscription?, h, ← subscription?, hs], TierLE.refl _⟩
  bounded hdb s hs := hdb s (h ▸ hs)

/-- A write keeps the bounds when the row it leaves has them and the tier it had. -/
theorem Keeps.update {db : Db} {id : String} {u : SubscriptionUpdate}
    (htier : ∀ s, db.subscription? id = some s → TierLE s.tierId (u.apply s).tierId)
    (hbounded : ∀ s, db.subscription? id = some s → s.Bounded → (u.apply s).Bounded) :
    db.Keeps (db.updateSubscription id u) where
  tiers j s hs := by
    rw [subscription?_updateSubscription]
    by_cases hj : j = id
    · subst hj
      rw [if_pos rfl, hs]
      exact ⟨_, rfl, htier s hs⟩
    · rw [if_neg hj]
      exact ⟨s, hs, TierLE.refl _⟩
  bounded hdb s hs := by
    obtain ⟨s₀, hs₀, rfl⟩ := (db.subscriptions.mem_modify_iff id u.apply (fun _ => rfl) s).1 hs
    by_cases hid : s₀.id = id
    · rw [if_pos hid]
      exact hbounded s₀ (hid ▸ db.subscriptions.get?_key_eq hs₀) (hdb s₀ hs₀)
    · rw [if_neg hid]
      exact hdb s₀ hs₀

theorem Keeps.insert {db : Db} {s : Subscription} (h : db.subscription? s.id = none)
    (hs : s.Bounded) : db.Keeps (db.insertSubscription s h) where
  tiers id s₀ hs₀ := by
    refine ⟨s₀, ?_, TierLE.refl _⟩
    rw [subscription?_insertSubscription, if_neg, hs₀]
    rintro rfl
    rw [h] at hs₀
    cases hs₀
  bounded hdb s₀ hs₀ := by
    rcases (db.subscriptions.mem_insert_iff s h s₀).1 hs₀ with hs₀ | rfl
    · exact hdb s₀ hs₀
    · exact hs

end Db

/-- A rollover counts one unit, which every tier allows. -/
theorem keeps_rollover (db : Db) (id : String) (now : Calendar.Instant) :
    db.Keeps (db.updateSubscription id (rollover now)) := by
  refine .update (fun _ _ => TierLE.refl _) fun s _ hs => ?_
  obtain ⟨limit, hlimit, -⟩ := hs
  refine ⟨limit, hlimit, zero_le_one, ?_⟩
  have hone : 1 ≤ limit := by
    unfold tierQuota at hlimit
    split at hlimit <;> cases hlimit <;> decide
  show (1 : ℤ) ≤ limit
  exact_mod_cast hone

/-- A grant empties the meter, in the largest tier. -/
theorem keeps_compGrant (db : Db) (id : String) (now : Calendar.Instant) :
    db.Keeps (db.updateSubscription id (compGrantUpdate now)) :=
  .update (fun _ _ => tierLE_compGrantTier _) fun _ _ _ => ⟨999, rfl, le_rfl, Int.natCast_nonneg 999⟩

/-- An increment below a limit that was read earlier stays within the limit of today. -/
theorem keeps_increment {db : Db} {id : String} {s : Subscription} {tierId : String} {limit : ℕ}
    (hs : db.subscription? id = some s) (hlimit : tierQuota tierId = some limit)
    (htier : TierLE tierId s.tierId) (hguard : s.usageCount < limit) :
    db.Keeps (db.updateSubscription id { usageCount := (· + 1) }) := by
  refine .update (fun _ _ => TierLE.refl _) fun s' hs' hbounded => ?_
  obtain rfl : s = s' := Option.some.inj (hs.symm.trans hs')
  obtain ⟨limit', hlimit', hle⟩ := htier limit hlimit
  obtain ⟨_, -, hpos, -⟩ := hbounded
  refine ⟨limit', hlimit', ?_, ?_⟩
  · show 0 ≤ s.usageCount + 1
    omega
  · show s.usageCount + 1 ≤ limit'
    omega

/-- A decrement of a meter above zero. -/
theorem keeps_decrement {db : Db} {id : String} {s : Subscription}
    (hs : db.subscription? id = some s) (hguard : 0 < s.usageCount) :
    db.Keeps (db.updateSubscription id { usageCount := (· - 1) }) := by
  refine .update (fun _ _ => TierLE.refl _) fun s' hs' hbounded => ?_
  obtain rfl : s = s' := Option.some.inj (hs.symm.trans hs')
  obtain ⟨limit, hlimit, hpos, hle⟩ := hbounded
  refine ⟨limit, hlimit, ?_, ?_⟩
  · show 0 ≤ s.usageCount - 1
    omega
  · show s.usageCount - 1 ≤ limit
    omega

theorem keeps_updateSubscriptionWhere {db : Db} {id : String} {guard : Subscription → Prop}
    [DecidablePred guard] {u : SubscriptionUpdate}
    (h : ∀ s, db.subscription? id = some s → guard s → db.Keeps (db.updateSubscription id u)) :
    db.Keeps (db.updateSubscriptionWhere id guard u).1 := by
  rw [Db.updateSubscriptionWhere]
  split
  · rename_i s hs
    split
    · exact h s hs ‹_›
    · exact .of_subscriptions rfl
  · exact .of_subscriptions rfl

/-- Whatever has happened since the subscription was found, a call that is allowed keeps
the bounds. -/
theorem keeps_of_answers {m : Finding} {db db' : Db} {c : ServerCall} {r : Except Failure c.Resp}
    (h : billingAnswers db c db' r) (hm : m.Valid db) (hc : m.Allows c) : db.Keeps db' := by
  rcases h with h | ⟨rfl, -⟩
  · cases c with
    | quota c =>
        cases c with
        | now => exact .of_subscriptions (congrArg Db.subscriptions h.1)
        | subscriptionFindFirst q => exact .of_subscriptions (congrArg Db.subscriptions h.1)
        | subscriptionUpdate id data =>
            simp only [ServerCall.Exec, QuotaCall.Exec] at h
            split at h
            · obtain ⟨rfl, -⟩ := h
              obtain ⟨now, rfl | rfl⟩ := hc
              · exact keeps_rollover db id now
              · exact keeps_compGrant db id now
            · obtain ⟨rfl, -⟩ := h
              exact .of_subscriptions rfl
        | subscriptionIncrement id limit =>
            obtain ⟨rfl, -⟩ := Prod.mk.inj h
            obtain ⟨found, hfound, rfl, hlimit⟩ := hc
            obtain ⟨s, hs, htier⟩ := hm found hfound
            refine keeps_updateSubscriptionWhere fun s' hs' hguard => ?_
            obtain rfl : s = s' := Option.some.inj (hs.symm.trans hs')
            exact keeps_increment hs hlimit htier hguard
        | subscriptionDecrement id =>
            obtain ⟨rfl, -⟩ := Prod.mk.inj h
            exact keeps_updateSubscriptionWhere fun s hs hguard => keeps_decrement hs hguard
    | subscriptionCreate data =>
        obtain ⟨id, hfree, rfl, -⟩ := h
        obtain ⟨limit, hlimit⟩ := hc
        exact .insert hfree ⟨limit, hlimit, le_rfl, Int.natCast_nonneg _⟩
    | subscriptionUpsert id create =>
        obtain ⟨-, ⟨s, -, rfl⟩ | ⟨hfree, rfl⟩⟩ := h
        · exact .update (fun _ _ => TierLE.refl _) fun s _ hs => hs
        · obtain ⟨limit, hlimit⟩ := hc
          exact .insert hfree ⟨limit, hlimit, le_rfl, Int.natCast_nonneg _⟩
    | serviceRequestCreate data =>
        rcases h with ⟨-, id, orgId, createdAt, hfree, -, rfl, -⟩ | ⟨rfl, -⟩ | ⟨rfl, -⟩
        · exact .of_subscriptions rfl
        · exact .of_subscriptions rfl
        · exact .of_subscriptions rfl
    | serviceRequestUpdate id data =>
        simp only [ServerCall.Exec] at h
        split at h
        · obtain ⟨rfl, -⟩ := h
          exact .of_subscriptions rfl
        · obtain ⟨rfl, -⟩ := h
          exact .of_subscriptions rfl
    | organizationUpsert clerkOrgId =>
        rcases h with ⟨org, -, -, rfl, -⟩ | ⟨-, id, createdAt, hfree, rfl, -⟩
        · exact .of_subscriptions rfl
        · exact .of_subscriptions rfl
    | webhookEventCreate eventId =>
        rcases h with ⟨processedAt, hfree, rfl, -⟩ | ⟨-, rfl, -⟩
        · exact .of_subscriptions rfl
        · exact .of_subscriptions rfl
    | rateLimit _ | randomBytes _ | randomUUID | auditLogCreate _ | resolveENS _ |
        getAgentENSName => exact .of_subscriptions (h.1 ▸ rfl)
    | putObject _ _ | recordOnHedera _ =>
        obtain rfl : db' = db := h
        exact .of_subscriptions rfl
  · exact .of_subscriptions rfl

theorem Finding.Valid.grow {m : Finding} {db db' : Db} (hm : m.Valid db) (h : db.TiersGrow db') :
    m.Valid db' := by
  intro s hs
  obtain ⟨s', hs', htier⟩ := hm s hs
  obtain ⟨s'', hs'', htier'⟩ := h s.id s' hs'
  exact ⟨s'', hs'', htier.trans htier'⟩

/-- What is found is there. -/
theorem Finding.Valid.observe {m : Finding} {db db' : Db} {c : ServerCall}
    {r : Except Failure c.Resp} (hm : m.Valid db') (h : billingAnswers db c db' r) :
    (m.observe c r).Valid db' := by
  unfold Finding.observe
  split
  · rename_i q s
    rintro _ ⟨⟩
    rcases h with ⟨rfl, ⟨-, found, hlatest, hr⟩ | ⟨-, hr⟩⟩ | ⟨-, _, hr⟩
    · cases hr
      exact ⟨s, db'.subscriptions.get?_key_eq hlatest.1, TierLE.refl _⟩
    · cases hr
    · cases hr
  · exact hm

variable {ι : Type}

abbrev BillingPool (ι : Type) := Pool serverSig Failure Unit ι Finding Db

/-- What holds throughout. -/
structure BillingPool.Inv (c : BillingPool ι) : Prop where
  conform : Machine.AllConform Finding.Follows Finding.Allows c
  valid : ∀ i t, c.thread i = some t → t.mark.Valid c.world
  bounded : c.world.Bounded

theorem BillingPool.inv_empty : BillingPool.Inv (⟨{}, fun _ => none⟩ : BillingPool ι) where
  conform := fun _ _ h => by cases h
  valid := fun _ _ h => by cases h
  bounded := fun _ h => by cases h

section Step

variable [DecidableEq ι]

theorem BillingPool.Inv.step {c c' : BillingPool ι} {l : Label serverSig Failure ι}
    (hc : c.Inv) (h : (billing ι).Step c l c') : BillingPool.Inv c' := by
  have hconform : Machine.AllConform Finding.Follows Finding.Allows c' := by
    refine Machine.allConform_step ?_ ?_ hc.conform h
    · intro m w o w' r _
      rfl
    · intro i p hp
      exact BillingEntry.conforms hp
  refine ⟨hconform, ?_, ?_⟩
  · intro j t ht
    cases h with
    | @act i o k m w r hthread hanswer =>
        have hkeeps := keeps_of_answers hanswer (hc.valid i _ hthread) (hc.conform.allowed hthread)
        rcases Machine.thread_of_update ht with ⟨rfl, hnew⟩ | ⟨_, hold⟩
        · cases hnew
          exact ((hc.valid j _ hthread).grow hkeeps.tiers).observe hanswer
        · exact (hc.valid j t hold).grow hkeeps.tiers
    | finish hthread _ | crash hthread _ =>
        rcases Machine.thread_of_update ht with ⟨_, hnew⟩ | ⟨_, hold⟩
        · cases hnew
        · exact hc.valid j t hold
    | start hthread _ =>
        rcases Machine.thread_of_update ht with ⟨_, hnew⟩ | ⟨_, hold⟩
        · cases hnew
          exact fun _ h => by cases h
        · exact hc.valid j t hold
    | environment henv => exact (hc.valid j t ht).grow (Db.Keeps.of_subscriptions henv).tiers
  · cases h with
    | act hthread hanswer =>
        exact (keeps_of_answers hanswer (hc.valid _ _ hthread)
          (hc.conform.allowed hthread)).bounded hc.bounded
    | environment henv => exact (Db.Keeps.of_subscriptions henv).bounded hc.bounded
    | finish _ _ | crash _ _ | start _ _ => exact hc.bounded

end Step

/-! ## A call that throws -/

/-- The answers to a call between whose statements others do what they like. It is
recorded whether a statement of its own has changed anything. -/
def amongOthers : Answers quotaSig Failure (Db × Prop) := fun s c s' r =>
  ∃ db, (c.Exec db s'.1 r ∨ (s'.1 = db ∧ ∃ message, r = .error (.error message))) ∧
    s'.2 = (s.2 ∨ s'.1 ≠ db)

/-- Quota is refused. -/
def Failure.RefusesQuota : Failure → Prop
  | quotaExceeded _ _ | noActiveSubscription _ => True
  | _ => False

theorem amongOthers_unchanged {s s' : Db × Prop} {c : QuotaCall} {r : Except Failure c.Resp}
    (h : amongOthers s c s' r) (hs : ¬ s.2) (hexec : ∀ db, c.Exec db s'.1 r → s'.1 = db) :
    ¬ s'.2 := by
  obtain ⟨db, hanswer, hchanged⟩ := h
  have hdb : s'.1 = db := hanswer.elim (hexec db) fun h => h.1
  rw [hchanged]
  exact fun h => h.elim hs fun hne => hne hdb

/-- A call that refuses quota has changed nothing. -/
theorem checkAndDecrementQuota_refuses (orgId : String) {s : Db × Prop} (hs : ¬ s.2) :
    (checkAndDecrementQuota orgId).wp amongOthers (fun _ _ => True)
      (fun r s' => ∀ e, r = .error e → e.RefusesQuota → ¬ s'.2) s := by
  refine (Program.wp_bind _ _ _ _).2 ((Program.wp_perform _ _ _).2 ⟨trivial, ?_⟩)
  intro s₁ r hfind
  have h₁ : ¬ s₁.2 := amongOthers_unchanged hfind hs fun _ h => h.1
  rcases r with e | _ | subscription
  · exact fun _ _ _ => h₁
  · exact fun _ _ _ => h₁
  simp only
  split
  · exact fun _ _ _ => h₁
  refine (Program.wp_bind _ _ _ _).2 ((Program.wp_perform _ _ _).2 ⟨trivial, ?_⟩)
  intro s₂ r hnow
  have h₂ : ¬ s₂.2 := amongOthers_unchanged hnow h₁ fun _ h => h.1
  rcases r with e | now
  · exact fun _ _ _ => h₂
  simp only
  split
  · -- A rollover refuses nothing: it succeeds, or fails for another reason.
    refine (Program.wp_bind _ _ _ _).2 ((Program.wp_perform _ _ _).2 ⟨trivial, ?_⟩)
    intro s₃ r hupdate
    rcases r with e | row
    · rintro _ ⟨⟩ hrefuses
      obtain ⟨db, hexec | ⟨-, message, ⟨⟩⟩, -⟩ := hupdate
      · simp only [QuotaCall.Exec] at hexec
        split at hexec
        · cases hexec.2
        · cases hexec.2
          exact hrefuses.elim
      · exact hrefuses.elim
    · rintro _ ⟨⟩
  · refine (Program.wp_bind _ _ _ _).2 ((Program.wp_perform _ _ _).2 ⟨trivial, ?_⟩)
    intro s₃ r hincrement
    rcases r with e | n
    · rintro _ ⟨⟩ hrefuses
      obtain ⟨db, hexec | ⟨-, message, ⟨⟩⟩, -⟩ := hincrement
      · cases (Prod.mk.inj hexec).2
      · exact hrefuses.elim
    · simp only
      split
      · rename_i hn
        subst hn
        -- The guard let no row through.
        have h₃ : ¬ s₃.2 := by
          refine amongOthers_unchanged hincrement h₂ fun db hexec => ?_
          obtain ⟨hdb, hcount⟩ := Prod.mk.inj hexec
          rw [hdb]
          revert hcount
          rw [Db.updateSubscriptionWhere]
          split
          · split
            · intro h
              cases h
            · exact fun _ => rfl
          · exact fun _ => rfl
        exact fun _ _ _ => h₃
      · rintro _ ⟨⟩

/-- In every state that any interleaving of the four functions can reach from an empty
database each meter is within the quota of its tier, and a call that refuses
quota, whatever others did meanwhile, has changed nothing. -/
theorem meters_bounded [DecidableEq ι] :
    (∀ c : BillingPool ι, Reaches (billing ι).Step ⟨{}, fun _ => none⟩ c →
      ∀ s ∈ c.world.subscriptions, ∃ limit : ℕ, tierQuota s.tierId = some limit ∧
        0 ≤ s.usageCount ∧ s.usageCount ≤ limit) ∧
      ∀ orgId db s e, e.RefusesQuota →
        (checkAndDecrementQuota orgId).Runs amongOthers (db, False) s (.error e) → ¬ s.2 := by
  refine ⟨fun c hc => ?_, fun orgId db s e he hrun => ?_⟩
  · have hinv : c.Inv := hc.invariant (fun _ _ _ h hstep => h.step hstep) BillingPool.inv_empty
    exact hinv.bounded
  · exact Program.wp_runs _ (checkAndDecrementQuota_refuses orgId id) hrun e rfl he

/-! ## A checkout, a charge and a rollover -/

/-- The subscription of the checkout. -/
def checkoutSubscription : Subscription := (checkoutCreate "org-1" "tier1" 0).row "sub_1"

/-- The database once its one unit is taken, -/
def checkoutCharged : Db := oneCheckout.updateSubscription "sub_1" { usageCount := (· + 1) }

/-- and once a millisecond after its period a call has begun the next one. -/
def checkoutRolled : Db :=
  checkoutCharged.updateSubscription "sub_1" (rollover (nextPeriodEnd 0 + 1))

/-- The subscription in between. -/
def usedSubscription : Subscription := { checkoutSubscription with usageCount := 1 }

theorem checkout_finds {db : Db} {s : Subscription} (hrows : db.subscriptions.rows = [s])
    (hs : (SubscriptionWhere.activeOfClerkOrg "clerk-1").Matches db s) :
    QuotaCall.Exec db (.subscriptionFindFirst (.activeOfClerkOrg "clerk-1")) db (.ok (some s)) :=
  ⟨rfl, Or.inl ⟨trivial, _, Db.latestSubscription_of_singleton hrows hs, rfl⟩⟩

/-- Two calls of the meter, the first within the period and the second after it. -/
theorem checkout_reaches : ∃ thread, Reaches (billing Unit).Step ⟨{}, fun _ => none⟩
    ⟨checkoutRolled, thread⟩ := by
  have htier : exampleCheckout.KnownTier := by
    rintro session a ⟨⟩ ⟨⟩
    exact ⟨1, rfl⟩
  have hfirst : billingAnswers oneCheckout
      (.quota (.subscriptionFindFirst (.activeOfClerkOrg "clerk-1"))) oneCheckout
      (.ok (some checkoutSubscription)) :=
    Or.inl (checkout_finds rfl ⟨rfl, rfl⟩)
  have hnow : ∀ (db : Db) (now : Calendar.Instant),
      billingAnswers db (.quota .now) db (.ok now) := fun _ now => Or.inl ⟨rfl, now, rfl⟩
  have hcharge : billingAnswers oneCheckout (.quota (.subscriptionIncrement "sub_1" 1))
      checkoutCharged (.ok 1) := Or.inl rfl
  have hagain : billingAnswers checkoutCharged
      (.quota (.subscriptionFindFirst (.activeOfClerkOrg "clerk-1"))) checkoutCharged
      (.ok (some usedSubscription)) :=
    Or.inl (checkout_finds rfl ⟨rfl, rfl⟩)
  have hrollover : billingAnswers checkoutCharged
      (.quota (.subscriptionUpdate "sub_1" (rollover (nextPeriodEnd 0 + 1)))) checkoutRolled
      (.ok ((rollover (nextPeriodEnd 0 + 1)).apply usedSubscription)) := Or.inl ⟨rfl, rfl⟩
  exact ⟨_,
    .head (.start (i := ()) rfl (.webhook exampleCheckout htier)) <|
    .head (.act (i := ()) rfl checkout_records) <| .head (.act (i := ()) rfl checkout_attributes) <|
    .head (.act (i := ()) rfl checkout_now) <| .head (.act (i := ()) rfl checkout_activates) <|
    .head (.finish (i := ()) rfl trivial) <|
    .head (.start (i := ()) rfl (.checkAndDecrementQuota "clerk-1")) <|
    .head (.act (i := ()) rfl hfirst) <| .head (.act (i := ()) rfl (hnow oneCheckout 0)) <|
    .head (.act (i := ()) rfl hcharge) <| .head (.finish (i := ()) rfl trivial) <|
    .head (.start (i := ()) rfl (.checkAndDecrementQuota "clerk-1")) <|
    .head (.act (i := ()) rfl hagain) <|
    .head (.act (i := ()) rfl (hnow checkoutCharged (nextPeriodEnd 0 + 1))) <|
    .head (.act (i := ()) rfl hrollover) <| .refl _ _⟩

/-- The meter that was used up and rolled over is within its quota; and a call within the first
period, which finds it used up and is refused, has changed nothing. -/
theorem meters_bounded_of_rollover :
    (∀ s ∈ checkoutRolled.subscriptions, ∃ limit : ℕ, tierQuota s.tierId = some limit ∧
      0 ≤ s.usageCount ∧ s.usageCount ≤ limit) ∧
    (checkAndDecrementQuota "clerk-1").Runs amongOthers (checkoutCharged, False)
      (checkoutCharged, False) (.error (.quotaExceeded "clerk-1" 1)) ∧ ¬ False := by
  obtain ⟨thread, hreaches⟩ := checkout_reaches
  have hanswer : ∀ (c : QuotaCall) (r : Except Failure c.Resp),
      c.Exec checkoutCharged checkoutCharged r →
        amongOthers (checkoutCharged, False) c (checkoutCharged, False) r :=
    fun c r hexec => ⟨checkoutCharged, Or.inl hexec, by simp⟩
  have hfind := hanswer (.subscriptionFindFirst (.activeOfClerkOrg "clerk-1"))
    (.ok (some usedSubscription)) (checkout_finds rfl ⟨rfl, rfl⟩)
  have hnow := hanswer .now (.ok (0 : ℤ)) ⟨rfl, _, rfl⟩
  have hincrement := hanswer (.subscriptionIncrement "sub_1" 1) (.ok 0) rfl
  have hrun : (checkAndDecrementQuota "clerk-1").Runs amongOthers (checkoutCharged, False)
      (checkoutCharged, False) (.error (.quotaExceeded "clerk-1" 1)) :=
    .call hfind <| .call hnow <| .call hincrement ⟨rfl, rfl⟩
  exact ⟨(meters_bounded (ι := Unit)).1 _ hreaches, hrun,
    (meters_bounded (ι := Unit)).2 _ _ _ (.quotaExceeded "clerk-1" 1) trivial hrun⟩

end EpsDapp
