import EpsDapp.Billing.Grants

/-!
# Exactly-once webhooks

Stripe delivers each event any number of times, in any order, and a delivery may
fail at any statement, at its commit, or before its answer is received. What an
event is to do is stated here on the tables: it is recorded, and a checkout
finds or creates its organization and its subscription. The deliveries do what
their events do, each once, at its first delivery that commits.
-/

set_option autoImplicit false

namespace EpsDapp

open Calendar Effect ServerProgram

/-! ## What an event does -/

namespace Db

/-- The event is recorded. -/
def Recorded (db : Db) (eventId : String) : Bool := (db.webhookEvents.get? eventId).isSome

/-- The event, which has not been recorded, is. -/
def Records (eventId : String) (db db' : Db) : Prop :=
  ∃ processedAt, ∃ h : db.webhookEvents.get? eventId = none,
    db' = { db with webhookEvents := db.webhookEvents.insert ⟨eventId, processedAt⟩ h }

/-- The organization is there, or is created. -/
def FindsOrCreates (clerkOrgId : String) (org : Organization) (db db' : Db) : Prop :=
  (org ∈ db.organizations ∧ org.clerkOrgId = clerkOrgId ∧ db' = db) ∨
    ((∀ o ∈ db.organizations, o.clerkOrgId ≠ clerkOrgId) ∧
      org.clerkOrgId = clerkOrgId ∧ org.name = clerkOrgId ∧ org.ownerEmail = none ∧
        ∃ h, db' = { db with organizations := db.organizations.insert org h })

/-- The subscription is activated, if it is there, or created. -/
def Activates (id : String) (create : SubscriptionCreate) (db db' : Db) : Prop :=
  (∃ s, db.subscription? id = some s ∧ db' = db.updateSubscription id { status := some .active }) ∨
    ∃ h, db' = db.insertSubscription (create.row id) h

end Db

/-- The checkout that the event completes, when it is attributed. -/
def StripeEvent.checkout? (event : StripeEvent) : Option Attribution :=
  match event.data with
  | .checkoutSessionCompleted session => session.attribution
  | .other _ => none

/-- What an event does, once. -/
def StripeEvent.Applies (event : StripeEvent) (db db' : Db) : Prop :=
  ∃ db₁, db.Records event.id db₁ ∧
    match event.checkout? with
    | none => db' = db₁
    | some a => ∃ org now db₂, db₁.FindsOrCreates a.clerkOrgId org db₂ ∧
        db₂.Activates a.stripeSubscriptionId (checkoutCreate org.id a.tierId now) db'

/-- What a list of events does, each once and in order. -/
def AppliesEach : List StripeEvent → Db → Db → Prop
  | [], db, db' => db' = db
  | event :: events, db, db' => ∃ db₁, event.Applies db db₁ ∧ AppliesEach events db₁ db'

theorem StripeEvent.Applies.recorded {event : StripeEvent} {db db' : Db}
    (h : event.Applies db db') :
    db.Recorded event.id = false ∧
      ∀ id, db'.Recorded id = (db.Recorded id || id == event.id) := by
  obtain ⟨db₁, ⟨processedAt, hfree, rfl⟩, hrest⟩ := h
  have hevents : db'.webhookEvents = db.webhookEvents.insert ⟨event.id, processedAt⟩ hfree := by
    split at hrest
    · rw [hrest]
    · obtain ⟨org, now, db₂, horg, hactivates⟩ := hrest
      have horg : db₂.webhookEvents = db.webhookEvents.insert ⟨event.id, processedAt⟩ hfree := by
        rcases horg with ⟨-, -, rfl⟩ | ⟨-, -, -, -, -, rfl⟩
        · rfl
        · rfl
      rcases hactivates with ⟨_, -, rfl⟩ | ⟨_, rfl⟩
      · exact horg
      · exact horg
  refine ⟨by rw [Db.Recorded, hfree]; rfl, fun id => ?_⟩
  rw [Db.Recorded, hevents, Table.get?_insert, Db.Recorded]
  by_cases hid : id = event.id
  · simp [hid]
  · simp [hid]

/-! ## What the transaction does -/

theorem organizationUpsert_wp (clerkOrgId : String) (db : Db) :
    (organizationUpsert clerkOrgId).wp billingAnswers (fun _ _ => True)
      (fun r db' => match r with
        | .ok org => db.FindsOrCreates clerkOrgId org db'
        | .error e => e ≠ .uniqueConstraint) db := by
  rw [organizationUpsert]
  refine (Program.wp_perform _ _ _).2 ⟨trivial, ?_⟩
  rintro db' r ((⟨org, hmem, horg, rfl, rfl⟩ | ⟨hnone, id, createdAt, hfree, rfl, rfl⟩) |
    ⟨rfl, message, rfl⟩)
  · exact Or.inl ⟨hmem, horg, rfl⟩
  · exact Or.inr ⟨hnone, rfl, rfl, rfl, hfree, rfl⟩
  · nofun

theorem applyCheckoutCompleted_wp (session : CheckoutSession) (db : Db) :
    (applyCheckoutCompleted session).wp billingAnswers (fun _ _ => True)
      (fun r db' => match r with
        | .ok _ => match session.attribution with
          | none => db' = db
          | some a => ∃ org now db₂, db.FindsOrCreates a.clerkOrgId org db₂ ∧
              db₂.Activates a.stripeSubscriptionId (checkoutCreate org.id a.tierId now) db'
        | .error e => e ≠ .uniqueConstraint) db := by
  rw [applyCheckoutCompleted]
  cases session.attribution with
  | none => exact rfl
  | some a =>
      refine Program.wp_seq (organizationUpsert_wp a.clerkOrgId db) ?_ fun _ _ h => h
      intro org db₂ horg
      refine (Program.wp_bind _ _ _ _).2 ((Program.wp_perform _ _ _).2 ⟨trivial, ?_⟩)
      rintro _ _ (⟨rfl, now, rfl⟩ | ⟨rfl, message, rfl⟩)
      · refine (Program.wp_perform _ _ _).2 ⟨trivial, ?_⟩
        rintro db' _ (⟨rfl, hactivates⟩ | ⟨rfl, message, rfl⟩)
        · exact ⟨org, now, _, horg, hactivates⟩
        · nofun
      · nofun

/-- A transaction that returns has done what the event does, and one that violates a unique
constraint has found it recorded. -/
theorem processEvent_wp (event : StripeEvent) (db : Db) :
    (processEvent event).wp billingAnswers (fun _ _ => True)
      (fun r db' => match r with
        | .ok _ => event.Applies db db'
        | .error e => e = .uniqueConstraint → db.Recorded event.id = true) db := by
  refine (Program.wp_bind _ _ _ _).2 ((Program.wp_perform _ _ _).2 ⟨trivial, ?_⟩)
  rintro db₁ _ ((⟨processedAt, hfree, rfl, rfl⟩ | ⟨hrecorded, rfl, rfl⟩) | ⟨rfl, message, rfl⟩)
  · have hrecords : db.Records event.id _ := ⟨processedAt, hfree, rfl⟩
    simp only
    split
    · rename_i session hdata
      refine Program.wp_post _ ?_ (applyCheckoutCompleted_wp session _)
      rintro (e | _) db' hr
      · exact fun he => absurd he hr
      · refine ⟨_, hrecords, ?_⟩
        rw [StripeEvent.checkout?, hdata]
        exact hr
    · rename_i type hdata
      refine ⟨_, hrecords, ?_⟩
      rw [StripeEvent.checkout?, hdata]
  · exact fun _ => Option.isSome_iff_ne_none.2 hrecorded
  · rintro ⟨⟩

/-! ## Deliveries -/

/-- How the transaction of a delivery has ended. -/
inductive Outcome
  | committed
  | replayed
  | aborted
  deriving DecidableEq

/-- The outcome of a transaction with this result. -/
def Outcome.of : Except Failure Unit → Outcome
  | .ok _ => committed
  | .error .uniqueConstraint => replayed
  | .error _ => aborted

/-- A delivery of a verified event: how its transaction has ended, and what was answered,
unless the answer was lost. -/
structure Delivery where
  event : StripeEvent
  outcome : Outcome
  answer : Option (Except Failure WebhookResponse)

/-- A delivery, whose transaction ends with its last statement or fails at its commit. -/
inductive Delivery.Happens : Delivery → Db → Db → Prop
  | ended {event db db' r answer}
      (hrun : (processEvent event).RunsAtomically billingAnswers db db' r)
      (hanswer : answer = none ∨ answer = some (webhookResponse r)) :
      Happens ⟨event, .of r, answer⟩ db db'
  | aborted {event db message answer}
      (hanswer : answer = none ∨ answer = some (.error (.error message))) :
      Happens ⟨event, .aborted, answer⟩ db db

/-- Deliveries, one after the other. -/
def Deliveries : List Delivery → Db → Db → Prop
  | [], db, db' => db' = db
  | d :: ds, db, db' => ∃ db₁, d.Happens db db₁ ∧ Deliveries ds db₁ db'

/-- Each distinct event once, in the order of its first delivery that is not aborted. -/
def firstProcessed (seen : String → Bool) : List Delivery → List StripeEvent
  | [] => []
  | d :: ds =>
      if d.outcome = .aborted ∨ seen d.event.id then firstProcessed seen ds
      else d.event :: firstProcessed (fun id => seen id || id == d.event.id) ds

/-- What a delivery does. -/
theorem Delivery.Happens.cases {d : Delivery} {db db' : Db} (h : d.Happens db db') :
    match d.outcome with
    | .committed => d.event.Applies db db'
    | .replayed => db.Recorded d.event.id = true ∧ db' = db
    | .aborted => db' = db := by
  cases h with
  | @ended event _ _ r answer hrun _ =>
      rcases r with e | _
      · obtain ⟨rfl, db₁, hrun⟩ := hrun
        have hwp := Program.wp_runs _ (processEvent_wp event db') hrun
        cases e with
        | uniqueConstraint => exact ⟨hwp rfl, rfl⟩
        | _ => exact rfl
      · exact Program.wp_runs _ (processEvent_wp event db) hrun
  | aborted _ => exact rfl

theorem Deliveries.append {ds ds' : List Delivery} {db db' : Db} :
    Deliveries (ds ++ ds') db db' ↔ ∃ db₁, Deliveries ds db db₁ ∧ Deliveries ds' db₁ db' := by
  induction ds generalizing db with
  | nil => simp [Deliveries]
  | cons d ds ih =>
      simp only [List.cons_append, Deliveries, ih]
      constructor
      · rintro ⟨db₁, hd, db₂, hds, hds'⟩
        exact ⟨db₂, ⟨db₁, hd, hds⟩, hds'⟩
      · rintro ⟨db₂, ⟨db₁, hd, hds⟩, hds'⟩
        exact ⟨db₁, hd, db₂, hds, hds'⟩

/-- The deliveries do what each distinct event does, once. -/
theorem Deliveries.appliesEach {ds : List Delivery} {db db' : Db} (h : Deliveries ds db db') :
    AppliesEach (firstProcessed db.Recorded ds) db db' := by
  induction ds generalizing db with
  | nil => exact h
  | cons d ds ih =>
      obtain ⟨db₁, hd, hds⟩ := h
      have hcases := hd.cases
      have hrest := ih hds
      rw [firstProcessed]
      cases houtcome : d.outcome with
      | committed =>
          rw [houtcome] at hcases
          obtain ⟨hfree, hrecorded⟩ := hcases.recorded
          have hseen : db₁.Recorded = fun id => db.Recorded id || id == d.event.id :=
            funext hrecorded
          rw [if_neg (by simp [hfree])]
          exact ⟨db₁, hcases, hseen ▸ hrest⟩
      | replayed =>
          rw [houtcome] at hcases
          obtain ⟨hrecorded, rfl⟩ := hcases
          rw [if_pos (Or.inr hrecorded)]
          exact hrest
      | aborted =>
          rw [houtcome] at hcases
          obtain rfl : db₁ = db := hcases
          rw [if_pos (Or.inl rfl)]
          exact hrest

/-- What is recorded in the end. -/
theorem AppliesEach.recorded {events : List StripeEvent} {db db' : Db}
    (h : AppliesEach events db db') (id : String) :
    db'.Recorded id = true ↔ db.Recorded id = true ∨ ∃ event ∈ events, event.id = id := by
  induction events generalizing db with
  | nil =>
      obtain rfl : db' = db := h
      simp
  | cons event events ih =>
      obtain ⟨db₁, happlies, hrest⟩ := h
      rw [ih hrest, happlies.recorded.2 id]
      simp only [Bool.or_eq_true, beq_iff_eq, List.mem_cons, exists_eq_or_imp, or_assoc,
        eq_comm (a := id)]

/-- A delivery answered 200 is recorded. -/
theorem Delivery.Happens.recorded_of_received {d : Delivery} {db db' : Db} (h : d.Happens db db')
    {deduped : Bool} (hanswer : d.answer = some (.ok (.received deduped))) :
    db'.Recorded d.event.id = true := by
  have hcases := h.cases
  have houtcome : d.outcome ≠ .aborted := by
    cases h with
    | @ended event _ _ r answer _ hsent =>
        obtain rfl : answer = some _ := hanswer
        rcases hsent with hnone | hsent
        · cases hnone
        · have hresponse : webhookResponse r = .ok (.received deduped) :=
            (Option.some.inj hsent).symm
          rcases r with e | _
          · cases e with
            | uniqueConstraint => nofun
            | _ => cases hresponse
          · nofun
    | @aborted event _ message answer hsent =>
        obtain rfl : answer = some _ := hanswer
        rcases hsent with hnone | hsent
        · cases hnone
        · cases Option.some.inj hsent
  cases hd : d.outcome with
  | committed =>
      rw [hd] at hcases
      rw [hcases.recorded.2]
      simp
  | replayed =>
      rw [hd] at hcases
      exact hcases.2 ▸ hcases.1
  | aborted => exact absurd hd houtcome

/-- The tier and the meter of a subscription are left alone. -/
structure Subscription.SameMeter (s s' : Subscription) : Prop where
  tierId : s'.tierId = s.tierId
  periodStart : s'.periodStart = s.periodStart
  periodEnd : s'.periodEnd = s.periodEnd
  usageCount : s'.usageCount = s.usageCount

theorem Subscription.SameMeter.refl (s : Subscription) : s.SameMeter s := ⟨rfl, rfl, rfl, rfl⟩

theorem Db.Activates.sameMeter {id : String} {create : SubscriptionCreate} {db db' : Db}
    (h : db.Activates id create db') {j : String} {s : Subscription}
    (hs : db.subscription? j = some s) : ∃ s', db'.subscription? j = some s' ∧ s.SameMeter s' := by
  rcases h with ⟨_, -, rfl⟩ | ⟨hfree, rfl⟩
  · rw [subscription?_updateSubscription]
    by_cases hj : j = id
    · subst hj
      rw [if_pos rfl, hs]
      exact ⟨_, rfl, rfl, rfl, rfl, rfl⟩
    · rw [if_neg hj]
      exact ⟨s, hs, .refl s⟩
  · refine ⟨s, ?_, .refl s⟩
    rw [subscription?_insertSubscription, if_neg, hs]
    rintro rfl
    cases hfree.symm.trans hs

/-- An event leaves the meters of the subscriptions that are there. -/
theorem StripeEvent.Applies.sameMeter {event : StripeEvent} {db db' : Db}
    (h : event.Applies db db') {id : String} {s : Subscription}
    (hs : db.subscription? id = some s) :
    ∃ s', db'.subscription? id = some s' ∧ s.SameMeter s' := by
  obtain ⟨db₁, ⟨processedAt, hfree, rfl⟩, hrest⟩ := h
  split at hrest
  · exact ⟨s, hrest ▸ hs, .refl s⟩
  · obtain ⟨org, now, db₂, horg, hactivates⟩ := hrest
    have hs₂ : db₂.subscription? id = some s := by
      rcases horg with ⟨-, -, rfl⟩ | ⟨-, -, -, -, -, rfl⟩
      · exact hs
      · exact hs
    exact hactivates.sameMeter hs₂

/-- Whatever is delivered, in whatever order, repeated and aborted: the tables are those
that each distinct event leaves, done once in the order of the first delivery that
was not aborted; a delivery that is answered 200 is recorded and what it does is
done; and a subscription that is there keeps its tier, its period and its meter. -/
theorem webhook_exactlyOnce :
    (∀ ds db db', Deliveries ds db db' →
      AppliesEach (firstProcessed db.Recorded ds) db db') ∧
    (∀ ds d db db' deduped, Deliveries (ds ++ [d]) db db' →
      d.answer = some (.ok (.received deduped)) → db'.Recorded d.event.id = true ∧
        (db.Recorded d.event.id = true ∨
          ∃ event ∈ firstProcessed db.Recorded (ds ++ [d]), event.id = d.event.id)) ∧
    ∀ (d : Delivery) (db db' : Db) id s, d.Happens db db' → db.subscription? id = some s →
      ∃ s', db'.subscription? id = some s' ∧ s.SameMeter s' := by
  refine ⟨fun ds db db' h => h.appliesEach, fun ds d db db' deduped h hanswer => ?_,
    fun d db db' id s h hs => ?_⟩
  · obtain ⟨db₁, -, _, hd, rfl⟩ := Deliveries.append.1 h
    have hrecorded := hd.recorded_of_received hanswer
    exact ⟨hrecorded, (h.appliesEach.recorded d.event.id).1 hrecorded⟩
  · have hcases := h.cases
    split at hcases
    · exact hcases.sameMeter hs
    · obtain ⟨-, rfl⟩ := hcases
      exact ⟨s, hs, .refl s⟩
    · obtain rfl : db' = db := hcases
      exact ⟨s, hs, .refl s⟩

/-- A checkout that is delivered twice, its first answer being lost. -/
theorem webhook_exactlyOnce_twice :
    AppliesEach [exampleCheckout] {} oneCheckout ∧ oneCheckout.Recorded "evt_1" = true ∧
      ∃ s', oneCheckout.subscription? "sub_1" = some s' ∧
        ((checkoutCreate "org-1" "tier1" 0).row "sub_1").SameMeter s' := by
  have hfirst : Delivery.Happens ⟨exampleCheckout, .committed, none⟩ {} oneCheckout :=
    .ended (r := .ok ()) (.call checkout_records <| .call checkout_attributes <|
      .call checkout_now <| .call checkout_activates ⟨rfl, rfl⟩) (Or.inl rfl)
  have hreplayed : billingAnswers oneCheckout (.webhookEventCreate "evt_1") oneCheckout
      (.error .uniqueConstraint) := Or.inl (Or.inr ⟨nofun, rfl, rfl⟩)
  have hsecond : Delivery.Happens ⟨exampleCheckout, .replayed, some (.ok (.received true))⟩
      oneCheckout oneCheckout :=
    .ended (r := .error .uniqueConstraint) ⟨rfl, oneCheckout, .call hreplayed ⟨rfl, rfl⟩⟩
      (Or.inr rfl)
  have htwice : Deliveries [⟨exampleCheckout, .committed, none⟩,
      ⟨exampleCheckout, .replayed, some (.ok (.received true))⟩] {} oneCheckout :=
    ⟨_, hfirst, _, hsecond, rfl⟩
  obtain ⟨honce, hreceived, hmeter⟩ := webhook_exactlyOnce
  exact ⟨honce _ _ _ htwice, (hreceived [_] _ _ _ _ htwice rfl).1, hmeter _ _ _ _ _ hsecond rfl⟩

end EpsDapp
