import EpsDapp.Effect.Pool
import EpsDapp.Server.Calls

/-!
# Concurrent consumption

Any number of `checkAndDecrementQuota` calls share one database and one clock.
The history of the meters records, latest first, when a period began and when a
unit was consumed. A period lasts from the entry that opened it to its
`periodEnd`, whatever happens to the row meanwhile: a second rollover within it
opens another period but does not end the first.

The guarded increment is safe by itself. The rollover is an unguarded update
decided on an earlier read, and what is needed of it is that the row it
overwrites still holds an elapsed period.
-/

set_option autoImplicit false

namespace EpsDapp

open Calendar Effect

/-! ## The history of the meters -/

/-- An entry in the history of the meters. -/
inductive MeterEntry
  | opened (id : String) (periodEnd : Instant)
  | charged (id : String) (time : Instant)
  deriving DecidableEq

/-- The entry is a unit of the subscription `id`, consumed by `periodEnd`. -/
def MeterEntry.ChargedTo (id : String) (periodEnd : Instant) : MeterEntry → Bool
  | charged i time => decide (i = id ∧ time ≤ periodEnd)
  | opened _ _ => false

/-- The units of the subscription `id` that were consumed by `periodEnd`. -/
def chargedTo (id : String) (periodEnd : Instant) (history : List MeterEntry) : ℕ :=
  history.countP (MeterEntry.ChargedTo id periodEnd)

section ChargedTo

variable (id i : String) (periodEnd e time : Instant) (history : List MeterEntry)

@[simp] theorem chargedTo_nil : chargedTo id periodEnd [] = 0 := rfl

@[simp] theorem chargedTo_opened :
    chargedTo id periodEnd (.opened i e :: history) = chargedTo id periodEnd history := by
  simp [chargedTo, MeterEntry.ChargedTo]

@[simp] theorem chargedTo_charged :
    chargedTo id periodEnd (.charged i time :: history) =
      chargedTo id periodEnd history + if i = id ∧ time ≤ periodEnd then 1 else 0 := by
  simp [chargedTo, MeterEntry.ChargedTo, List.countP_cons]

end ChargedTo

/-- The database, the clock, and the history of the meters. -/
structure MeterWorld where
  db : Db
  clock : Instant
  history : List MeterEntry

/-- What the answer of a call adds to the history. -/
def QuotaCall.entries (clock : Instant) :
    (c : QuotaCall) → Except Failure c.Resp → List MeterEntry
  | .subscriptionUpdate id _, .ok s => [.charged id clock, .opened id s.periodEnd]
  | .subscriptionIncrement id _, .ok (_ + 1) => [.charged id clock]
  | _, _ => []

/-- `new Date()` answers the clock. -/
def QuotaCall.Timely (clock : Instant) : (c : QuotaCall) → Except Failure c.Resp → Prop
  | .now, r => r = .ok clock
  | _, _ => True

/-- The answers to the callers of one database. -/
def meterAnswers : Answers quotaSig Failure MeterWorld := fun w c w' r =>
  QuotaCall.Exec w.db c w'.db r ∧ c.Timely w.clock r ∧ w'.clock = w.clock ∧
    w'.history = c.entries w.clock r ++ w.history

namespace MeterWorld

/-- What others may do meanwhile: time passes, a subscription is created or
changes its status, other tables are written. They neither give units back nor
grant any. -/
inductive Drift (w : MeterWorld) : MeterWorld → Prop
  | tick (clock : Instant) (h : w.clock ≤ clock) : Drift w { w with clock := clock }
  | create (id : String) (data : SubscriptionCreate)
      (h : w.db.subscription? (data.row id).id = none) : Drift w { w with
        db := w.db.insertSubscription (data.row id) h
        history := .opened id data.periodEnd :: w.history }
  | setStatus (id : String) (status : SubscriptionStatus) :
      Drift w { w with db := w.db.updateSubscription id { status := some status } }
  | other (db : Db) (h : db.subscriptions = w.db.subscriptions) : Drift w { w with db := db }

/-- No period is charged more than the quota of its subscription's tier. -/
def WithinQuota (w : MeterWorld) : Prop :=
  ∀ newer older id periodEnd s limit,
    w.history = newer ++ .opened id periodEnd :: older → w.db.subscription? id = some s →
      tierQuota s.tierId = some limit → chargedTo id periodEnd newer ≤ limit

/-- A database whose meters have been running, each in an open period. -/
def initial (db : Db) (clock : Instant) : MeterWorld :=
  ⟨db, clock, db.subscriptions.rows.map fun s => .opened s.id s.periodEnd⟩

end MeterWorld

/-! ## What can happen to a meter -/

/-- The columns of a subscription that metering depends on. -/
structure Meter where
  tierId : String
  periodEnd : Instant
  usageCount : ℤ

/-- The meter of a subscription. -/
def Subscription.meter (s : Subscription) : Meter := ⟨s.tierId, s.periodEnd, s.usageCount⟩

namespace MeterWorld

/-- The meter of the subscription `id`. -/
def meter? (w : MeterWorld) (id : String) : Option Meter :=
  (w.db.subscription? id).map Subscription.meter

/-- The moves of the meters, when a rollover overwrites an elapsed period. -/
inductive Moves (w w' : MeterWorld) : Prop
  | quiet (hclock : w.clock ≤ w'.clock) (hhistory : w'.history = w.history)
      (hmeter : w'.meter? = w.meter?)
  | opened (id : String) (m : Meter) (hclock : w'.clock = w.clock)
      (hhistory : w'.history = .opened id m.periodEnd :: w.history)
      (hfree : w.meter? id = none) (husage : m.usageCount = 0)
      (hmeter : w'.meter? = Function.update w.meter? id (some m))
  | incremented (id : String) (m : Meter) (limit : ℕ) (hclock : w'.clock = w.clock)
      (hhistory : w'.history = .charged id w.clock :: w.history)
      (hfound : w.meter? id = some m) (hlimit : tierQuota m.tierId = some limit)
      (hguard : m.usageCount < limit)
      (hmeter : w'.meter? = Function.update w.meter? id
        (some { m with usageCount := m.usageCount + 1 }))
  | rolledOver (id : String) (m : Meter) (periodEnd : Instant) (hclock : w'.clock = w.clock)
      (hhistory : w'.history = .charged id w.clock :: .opened id periodEnd :: w.history)
      (hfound : w.meter? id = some m) (helapsed : m.periodEnd < w.clock)
      (hmeter : w'.meter? = Function.update w.meter? id
        (some { m with usageCount := 1, periodEnd := periodEnd }))

/-- Time does not run backwards, and a subscription keeps its tier. -/
structure Persists (w w' : MeterWorld) : Prop where
  clock : w.clock ≤ w'.clock
  tier : ∀ id m, w.meter? id = some m → ∃ m', w'.meter? id = some m' ∧ m'.tierId = m.tierId

theorem persists_update {w w' : MeterWorld} {id : String} {m' : Meter}
    (hclock : w'.clock = w.clock) (hmeter : w'.meter? = Function.update w.meter? id (some m'))
    (htier : ∀ m, w.meter? id = some m → m'.tierId = m.tierId) : w.Persists w' where
  clock := hclock.ge
  tier := by
    intro i m hm
    rw [hmeter]
    by_cases hi : i = id
    · subst hi
      exact ⟨m', Function.update_self .., htier m hm⟩
    · exact ⟨m, by rw [Function.update_of_ne hi, hm], rfl⟩

theorem Moves.persists {w w' : MeterWorld} (h : w.Moves w') : w.Persists w' := by
  cases h with
  | quiet hclock hhistory hmeter => exact ⟨hclock, fun id m hm => ⟨m, by rw [hmeter, hm], rfl⟩⟩
  | opened id m hclock _ hfree _ hmeter =>
      refine persists_update hclock hmeter fun m' hm' => ?_
      rw [hfree] at hm'
      cases hm'
  | incremented id m limit hclock _ hfound _ _ hmeter =>
      refine persists_update hclock hmeter fun m' hm' => ?_
      cases hfound.symm.trans hm'
      rfl
  | rolledOver id m periodEnd hclock _ hfound _ hmeter =>
      refine persists_update hclock hmeter fun m' hm' => ?_
      cases hfound.symm.trans hm'
      rfl

/-- How the period of `id` that ended at `periodEnd` stands after the entries
`newer`: within the quota, and either the one in the row, whose meter has counted
its units, or over. -/
def Stands (w : MeterWorld) (newer : List MeterEntry) (id : String) (periodEnd : Instant) :
    Prop :=
  ∃ m, w.meter? id = some m ∧
    (∀ limit, tierQuota m.tierId = some limit → chargedTo id periodEnd newer ≤ limit) ∧
    (m.periodEnd = periodEnd ∧ (chargedTo id periodEnd newer : ℤ) ≤ m.usageCount ∨
      periodEnd < w.clock)

/-- Every period in the history stands so. -/
def Metered (w : MeterWorld) : Prop :=
  ∀ newer older id periodEnd, w.history = newer ++ .opened id periodEnd :: older →
    w.Stands newer id periodEnd

theorem Metered.withinQuota {w : MeterWorld} (h : w.Metered) : w.WithinQuota := by
  intro newer older id periodEnd s limit hhistory hs hlimit
  obtain ⟨m, hm, hwithin, _⟩ := h newer older id periodEnd hhistory
  rw [meter?, hs] at hm
  cases hm
  exact hwithin limit hlimit

/-- A period of another subscription stands as before. -/
theorem Stands.of_ne {w w' : MeterWorld} {newer newer' : List MeterEntry} {id i : String}
    {periodEnd : Instant} {m' : Meter} (h : w.Stands newer id periodEnd)
    (hclock : w'.clock = w.clock) (hmeter : w'.meter? = Function.update w.meter? i (some m'))
    (hi : id ≠ i) (hcount : chargedTo id periodEnd newer' = chargedTo id periodEnd newer) :
    w'.Stands newer' id periodEnd := by
  obtain ⟨m, hm, hwithin, hstands⟩ := h
  refine ⟨m, by rw [hmeter, Function.update_of_ne hi, hm], ?_, ?_⟩
  · rwa [hcount]
  · rwa [hcount, hclock]

theorem one_le_tierQuota {tierId : String} {limit : ℕ} (h : tierQuota tierId = some limit) :
    1 ≤ limit := by
  unfold tierQuota at h
  split at h <;> cases h <;> decide

/-- A guarded increment charges the period in the row within the quota, and no
period that is over. -/
theorem Stands.incremented {w w' : MeterWorld} {newer : List MeterEntry} {id i : String}
    {periodEnd : Instant} {m : Meter} {limit : ℕ} (h : w.Stands newer id periodEnd)
    (hclock : w'.clock = w.clock) (hfound : w.meter? i = some m)
    (hlimit : tierQuota m.tierId = some limit) (hguard : m.usageCount < limit)
    (hmeter : w'.meter? = Function.update w.meter? i
      (some { m with usageCount := m.usageCount + 1 })) :
    w'.Stands (.charged i w.clock :: newer) id periodEnd := by
  by_cases hi : id = i
  · subst hi
    obtain ⟨m', hm', hwithin, hstands⟩ := h
    cases hfound.symm.trans hm'
    refine ⟨_, by rw [hmeter, Function.update_self], ?_, ?_⟩
    · intro limit' hlimit'
      cases hlimit.symm.trans hlimit'
      rcases hstands with ⟨_, husage⟩ | hover
      · rw [chargedTo_charged]
        split <;> omega
      · simpa [not_le.2 hover] using hwithin limit hlimit
    · rw [hclock]
      refine hstands.imp_left fun ⟨hperiod, husage⟩ => ⟨hperiod, ?_⟩
      rw [chargedTo_charged]
      simp only
      split <;> omega
  · exact h.of_ne hclock hmeter hi (by simp [Ne.symm hi])

/-- A rollover ends the periods before it. -/
theorem Stands.rolledOver {w w' : MeterWorld} {newer : List MeterEntry} {id i : String}
    {periodEnd next : Instant} {m : Meter} (h : w.Stands newer id periodEnd)
    (hclock : w'.clock = w.clock) (hfound : w.meter? i = some m)
    (helapsed : m.periodEnd < w.clock)
    (hmeter : w'.meter? = Function.update w.meter? i
      (some { m with usageCount := 1, periodEnd := next })) :
    w'.Stands (.charged i w.clock :: .opened i next :: newer) id periodEnd := by
  by_cases hi : id = i
  · subst hi
    obtain ⟨m', hm', hwithin, hstands⟩ := h
    cases hfound.symm.trans hm'
    have hover : periodEnd < w.clock := hstands.elim (fun h => h.1 ▸ helapsed) fun h => h
    refine ⟨_, by rw [hmeter, Function.update_self], fun limit hlimit => ?_, Or.inr (hclock ▸ hover)⟩
    simpa [not_le.2 hover] using hwithin limit hlimit
  · exact h.of_ne hclock hmeter hi (by simp [Ne.symm hi])

/-- What the moves keep. -/
theorem Metered.moves {w w' : MeterWorld} (hw : w.Metered) (h : w.Moves w') : w'.Metered := by
  intro newer older id periodEnd hsplit
  cases h with
  | quiet hclock hhistory hmeter =>
      obtain ⟨m, hm, hwithin, hstands⟩ := hw newer older id periodEnd (hhistory ▸ hsplit)
      exact ⟨m, by rw [hmeter, hm], hwithin, hstands.imp_right fun h => h.trans_le hclock⟩
  | opened i m hclock hhistory hfree husage hmeter =>
      rcases List.cons_eq_append_iff.1 (hhistory.symm.trans hsplit) with
        ⟨rfl, heq⟩ | ⟨newer, rfl, hrest⟩
      · cases heq
        refine ⟨m, by rw [hmeter, Function.update_self], fun _ _ => by simp, ?_⟩
        exact Or.inl ⟨rfl, by simp [husage]⟩
      · have h := hw newer older id periodEnd hrest
        refine h.of_ne hclock hmeter ?_ (chargedTo_opened ..)
        rintro rfl
        obtain ⟨_, hm, _⟩ := h
        rw [hfree] at hm
        cases hm
  | incremented i m limit hclock hhistory hfound hlimit hguard hmeter =>
      rcases List.cons_eq_append_iff.1 (hhistory.symm.trans hsplit) with
        ⟨rfl, heq⟩ | ⟨newer, rfl, hrest⟩
      · cases heq
      · exact (hw newer older id periodEnd hrest).incremented hclock hfound hlimit hguard hmeter
  | rolledOver i m next hclock hhistory hfound helapsed hmeter =>
      rcases List.cons_eq_append_iff.1 (hhistory.symm.trans hsplit) with
        ⟨rfl, heq⟩ | ⟨newer, rfl, hrest⟩
      · cases heq
      · rcases List.cons_eq_append_iff.1 hrest with ⟨rfl, heq⟩ | ⟨newer, rfl, hrest⟩
        · cases heq
          refine ⟨_, by rw [hmeter, Function.update_self], fun limit hlimit => ?_, ?_⟩
          · have hone := one_le_tierQuota hlimit
            rw [chargedTo_charged, chargedTo_nil]
            split <;> omega
          · refine Or.inl ⟨rfl, ?_⟩
            rw [chargedTo_charged, chargedTo_nil]
            simp only
            split <;> omega
        · have hold := hw newer older id periodEnd (List.cons.inj hrest).2
          exact hold.rolledOver hclock hfound helapsed hmeter

theorem metered_initial {db : Db} (hdb : ∀ s ∈ db.subscriptions, 0 ≤ s.usageCount)
    (clock : Instant) : (initial db clock).Metered := by
  intro newer older id periodEnd hsplit
  obtain ⟨l, l', hrows, rfl, hrest⟩ := List.map_eq_append_iff.1 hsplit
  obtain ⟨s, l'', rfl, hs, rfl⟩ := List.map_eq_cons_iff.1 hrest
  cases hs
  have hmem : s ∈ db.subscriptions := by simp [Table.mem_def, hrows]
  have hzero : chargedTo s.id s.periodEnd (l.map fun s => .opened s.id s.periodEnd) = 0 := by
    rw [chargedTo, List.countP_eq_zero]
    simp [MeterEntry.ChargedTo]
  refine ⟨s.meter, ?_, ?_, Or.inl ⟨rfl, ?_⟩⟩
  · exact congrArg (Option.map Subscription.meter) (db.subscriptions.get?_key_eq hmem)
  · simp [hzero]
  · simpa [hzero, Subscription.meter] using hdb s hmem

end MeterWorld

/-! ## The calls of a consumer -/

/-- What a consumer has been answered: the subscription it found, the instant it
read, and whether its write has consumed a unit. -/
structure Metering where
  found : Option Subscription := none
  now : Option Instant := none
  charged : Bool := false

namespace Metering

/-- The mark after a call is answered. -/
def observe (m : Metering) : (c : QuotaCall) → Except Failure c.Resp → Metering
  | .subscriptionFindFirst _, .ok (some s) => { m with found := some s }
  | .now, .ok t => { m with now := some t }
  | .subscriptionUpdate _ _, .ok _ => { m with charged := true }
  | .subscriptionIncrement _ _, .ok (_ + 1) => { m with charged := true }
  | _, _ => m

/-- The mark a call and its answer lead to. -/
def Follows : Answers quotaSig Failure Metering := fun m c m' r => m' = m.observe c r

/-- The calls of a consumer: it writes only to the subscription it found, and
rolls it over to the instant it read or increments it below its tier's quota. -/
def Allows (m : Metering) : QuotaCall → Prop
  | .now | .subscriptionFindFirst _ => True
  | .subscriptionUpdate id data => ∃ s now, m.found = some s ∧ m.now = some now ∧ s.id = id ∧
      data = rollover now
  | .subscriptionIncrement id limit => ∃ s, m.found = some s ∧ s.id = id ∧
      tierQuota s.tierId = some limit
  | .subscriptionDecrement _ => False

end Metering

/-- A call returns exactly when a write of it has consumed a unit. -/
theorem checkAndDecrementQuota_wp (orgId : String) :
    (checkAndDecrementQuota orgId).wp Metering.Follows Metering.Allows
      (fun r m => (∃ q, r = .ok q) ↔ m.charged) {} := by
  refine (Program.wp_bind _ _ _ _).2 ((Program.wp_perform _ _ _).2 ⟨trivial, ?_⟩)
  rintro _ (e | _ | s) rfl
  · simp [Metering.observe]
  · simp [Metering.observe]
  simp only
  split
  · simp [Metering.observe]
  rename_i limit hlimit
  refine (Program.wp_bind _ _ _ _).2 ((Program.wp_perform _ _ _).2 ⟨trivial, ?_⟩)
  rintro _ (e | now) rfl
  · simp [Metering.observe]
  simp only
  split
  · refine (Program.wp_bind _ _ _ _).2 ((Program.wp_perform _ _ _).2 ⟨?_, ?_⟩)
    · exact ⟨s, now, rfl, rfl, rfl, rfl⟩
    · rintro _ (e | s') rfl
      · simp [Metering.observe]
      · simp [Metering.observe]
  · refine (Program.wp_bind _ _ _ _).2 ((Program.wp_perform _ _ _).2 ⟨?_, ?_⟩)
    · exact ⟨s, rfl, rfl, hlimit⟩
    · rintro _ (e | _ | n) rfl
      · simp [Metering.observe]
      · simp [Metering.observe]
      · simp [Metering.observe]

/-! ## Any number of consumers -/

variable {ι : Type}

/-- The configurations of the consumers `ι` on one database. -/
abbrev MeterPool (ι : Type) := Pool quotaSig Failure QuotaResult ι Metering MeterWorld

/-- Consumers on one database: each statement is atomic, and a process may die
between two of them. -/
def consumers (ι : Type) : Machine quotaSig Failure QuotaResult ι Metering MeterWorld where
  idle := {}
  observe m c _ r := m.observe c r
  answers _ := meterAnswers
  entry _ p := ∃ orgId, p = checkAndDecrementQuota orgId
  environment := MeterWorld.Drift

/-- No call is running. -/
def MeterPool.initial (db : Db) (clock : Instant) : MeterPool ι :=
  ⟨.initial db clock, fun _ => none⟩

/-- A rollover overwrites a period that has ended by the instant it was decided
on. -/
def RollsOverElapsed (c : MeterPool ι) (l : Label quotaSig Failure ι) (_ : MeterPool ι) : Prop :=
  match l with
  | .act _ (.subscriptionUpdate id data) _ => ∀ s now, c.world.db.subscription? id = some s →
      data = rollover now → s.periodEnd < now
  | _ => True

/-- What a mark says about the world: the subscription found is still there, in
its tier, and the instant read has been reached. -/
structure Metering.Valid (m : Metering) (w : MeterWorld) : Prop where
  found : ∀ s, m.found = some s → ∃ m', w.meter? s.id = some m' ∧ m'.tierId = s.tierId
  now : ∀ t, m.now = some t → t ≤ w.clock

theorem Metering.Valid.persists {m : Metering} {w w' : MeterWorld} (h : m.Valid w)
    (hw : w.Persists w') : m.Valid w' where
  found := by
    intro s hs
    obtain ⟨m₁, hm₁, htier₁⟩ := h.found s hs
    obtain ⟨m₂, hm₂, htier₂⟩ := hw.tier s.id m₁ hm₁
    exact ⟨m₂, hm₂, htier₂.trans htier₁⟩
  now t ht := (h.now t ht).trans hw.clock

/-- The mark stays valid when its call is answered. -/
theorem Metering.Valid.observe {m : Metering} {w w' : MeterWorld} {c : QuotaCall}
    {r : Except Failure c.Resp} (h : m.Valid w) (hanswer : meterAnswers w c w' r)
    (hw : w.Persists w') : (m.observe c r).Valid w' := by
  have hold := h.persists hw
  obtain ⟨hexec, htimely, hclock, -⟩ := hanswer
  cases c with
  | now =>
      obtain rfl : r = .ok w.clock := htimely
      refine ⟨hold.found, fun t ht => ?_⟩
      cases ht
      exact hclock.ge
  | subscriptionFindFirst q =>
      rcases r with e | _ | s
      · exact hold
      · exact hold
      obtain ⟨-, ⟨-, found, hlatest, hr⟩ | ⟨-, hr⟩⟩ := hexec
      · cases hr
        have hrow : w.meter? s.id = some s.meter :=
          congrArg (Option.map Subscription.meter) (w.db.subscriptions.get?_key_eq hlatest.1)
        refine ⟨fun s' hs' => ?_, hold.now⟩
        cases hs'
        exact hw.tier s.id s.meter hrow
      · cases hr
  | subscriptionUpdate id data =>
      cases r with
      | error e => exact hold
      | ok s => exact ⟨hold.found, hold.now⟩
  | subscriptionIncrement id limit =>
      rcases r with e | _ | n
      · exact hold
      · exact hold
      · exact ⟨hold.found, hold.now⟩
  | subscriptionDecrement id => exact hold

namespace MeterWorld

theorem meter?_of_updateSubscription {w w' : MeterWorld} {id : String} {s : Subscription}
    {u : SubscriptionUpdate} (hs : w.db.subscription? id = some s)
    (hdb : w'.db = w.db.updateSubscription id u) :
    w'.meter? = Function.update w.meter? id (some (u.apply s).meter) := by
  funext i
  rw [meter?, hdb, Db.subscription?_updateSubscription]
  by_cases hi : i = id
  · subst hi
    simp [hs]
  · simp [hi, meter?]

theorem meter?_congr {w w' : MeterWorld} (h : w'.db.subscriptions = w.db.subscriptions) :
    w'.meter? = w.meter? := by
  funext i
  rw [meter?, meter?, Db.subscription?, h, Db.subscription?]

/-- What others do to the meters. -/
theorem Drift.moves {w w' : MeterWorld} (h : w.Drift w') : w.Moves w' := by
  cases h with
  | tick clock h => exact .quiet h rfl rfl
  | create id data hfree =>
      refine .opened (data.row id).id (data.row id).meter rfl rfl (by simp [meter?, hfree]) rfl ?_
      funext i
      rw [meter?, Db.subscription?_insertSubscription]
      by_cases hi : i = (data.row id).id
      · rw [hi, if_pos rfl, Function.update_self, Option.map_some]
      · rw [if_neg hi, Function.update_of_ne hi, meter?]
  | setStatus id status =>
      refine .quiet le_rfl rfl ?_
      cases hs : w.db.subscription? id with
      | none =>
          funext i
          rw [meter?, Db.subscription?_updateSubscription]
          by_cases hi : i = id
          · subst hi
            simp [hs, meter?]
          · simp [hi, meter?]
      | some s =>
          rw [meter?_of_updateSubscription hs rfl]
          exact Function.update_eq_self_iff.2 (by simp [meter?, hs, Subscription.meter, SubscriptionUpdate.apply])
  | other db h => exact .quiet le_rfl rfl (meter?_congr h)

/-- What a consumer does to the meters, when a rollover overwrites an elapsed
period. -/
theorem moves_of_answers {w w' : MeterWorld} {m : Metering} {c : QuotaCall}
    {r : Except Failure c.Resp} (h : meterAnswers w c w' r) (hallows : m.Allows c)
    (hvalid : m.Valid w)
    (helapsed : ∀ id data s now, c = .subscriptionUpdate id data →
      w.db.subscription? id = some s → data = rollover now → s.periodEnd < now) :
    w.Moves w' := by
  obtain ⟨hexec, htimely, hclock, hhistory⟩ := h
  cases c with
  | now => exact .quiet hclock.ge hhistory (meter?_congr (congrArg _ hexec.1))
  | subscriptionFindFirst q =>
      have hempty : QuotaCall.entries w.clock (.subscriptionFindFirst q) r = [] := by
        cases r <;> rfl
      exact .quiet hclock.ge (by simpa [hempty] using hhistory) (meter?_congr (congrArg _ hexec.1))
  | subscriptionUpdate id data =>
      obtain ⟨s₀, now, -, hnow, -, rfl⟩ := hallows
      simp only [QuotaCall.Exec] at hexec
      cases hs : w.db.subscription? id with
      | none =>
          simp only [hs] at hexec
          obtain ⟨hdb, rfl⟩ := hexec
          exact .quiet hclock.ge hhistory (meter?_congr (congrArg _ hdb))
      | some s =>
          simp only [hs] at hexec
          obtain ⟨hdb, rfl⟩ := hexec
          have hend : s.periodEnd < now := helapsed id _ s now rfl hs rfl
          exact .rolledOver id s.meter (nextPeriodEnd now) hclock hhistory
            (congrArg (Option.map Subscription.meter) hs) (hend.trans_le (hvalid.now now hnow))
            (meter?_of_updateSubscription hs hdb)
  | subscriptionIncrement id limit =>
      obtain ⟨s₀, hfound, rfl, hlimit⟩ := hallows
      obtain ⟨m₀, hm₀, htier⟩ := hvalid.found s₀ hfound
      obtain ⟨s, hs, rfl⟩ := Option.map_eq_some_iff.1 hm₀
      simp only [QuotaCall.Exec, Db.updateSubscriptionWhere_of_some _ _ _ hs] at hexec
      split at hexec
      · rename_i hguard
        obtain ⟨hdb, rfl⟩ := Prod.mk.inj hexec
        refine .incremented s₀.id s.meter limit hclock hhistory hm₀ ?_ hguard
          (meter?_of_updateSubscription hs hdb)
        rw [htier]
        exact hlimit
      · obtain ⟨hdb, rfl⟩ := Prod.mk.inj hexec
        exact .quiet hclock.ge hhistory (meter?_congr (congrArg _ hdb))
  | subscriptionDecrement id => exact hallows.elim

end MeterWorld

/-- What holds of the consumers throughout. -/
structure MeterPool.Inv (c : MeterPool ι) : Prop where
  conform : Machine.AllConform Metering.Follows Metering.Allows c
  valid : ∀ i t, c.thread i = some t → t.mark.Valid c.world
  metered : c.world.Metered

theorem MeterPool.inv_initial {db : Db} (hdb : ∀ s ∈ db.subscriptions, 0 ≤ s.usageCount)
    (clock : Instant) : (MeterPool.initial db clock : MeterPool ι).Inv where
  conform := fun _ _ h => by cases h
  valid := fun _ _ h => by cases h
  metered := MeterWorld.metered_initial hdb clock

section Step

variable [DecidableEq ι]

theorem MeterPool.Inv.step {c c' : MeterPool ι} {l : Label quotaSig Failure ι} (hc : c.Inv)
    (h : (consumers ι).Step c l c') (helapsed : RollsOverElapsed c l c') :
    MeterPool.Inv c' := by
  have hconform : Machine.AllConform Metering.Follows Metering.Allows c' := by
    refine Machine.allConform_step ?_ ?_ hc.conform h
    · intro m w o w' r _
      rfl
    · rintro i p ⟨orgId, rfl⟩
      exact Program.wp_post _ (fun _ _ _ => trivial) (checkAndDecrementQuota_wp orgId)
  refine ⟨hconform, ?_, ?_⟩
  · intro j t ht
    cases h with
    | @act i o k m w r hthread hanswer =>
        have hmoves : c.world.Moves w := by
          refine MeterWorld.moves_of_answers hanswer (hc.conform.allowed hthread)
            (hc.valid i _ hthread) ?_
          rintro id data s now rfl
          exact helapsed s now
        rcases Machine.thread_of_update ht with ⟨rfl, hnew⟩ | ⟨_, hold⟩
        · cases hnew
          exact (hc.valid j _ hthread).observe hanswer hmoves.persists
        · exact (hc.valid j t hold).persists hmoves.persists
    | finish hthread _ =>
        rcases Machine.thread_of_update ht with ⟨_, hnew⟩ | ⟨_, hold⟩
        · cases hnew
        · exact hc.valid j t hold
    | crash hthread _ =>
        rcases Machine.thread_of_update ht with ⟨_, hnew⟩ | ⟨_, hold⟩
        · cases hnew
        · exact hc.valid j t hold
    | start hthread _ =>
        rcases Machine.thread_of_update ht with ⟨_, hnew⟩ | ⟨_, hold⟩
        · cases hnew
          exact ⟨nofun, nofun⟩
        · exact hc.valid j t hold
    | environment hdrift => exact (hc.valid j t ht).persists hdrift.moves.persists
  · cases h with
    | @act i o k m w r hthread hanswer =>
        refine hc.metered.moves (MeterWorld.moves_of_answers hanswer
          (hc.conform.allowed hthread) (hc.valid i _ hthread) ?_)
        rintro id data s now rfl
        exact helapsed s now
    | environment hdrift => exact hc.metered.moves hdrift.moves
    | finish _ _ | crash _ _ | start _ _ => exact hc.metered

/-- No period is charged more than its quota in a run of any consumers whose
rollovers all overwrite an elapsed period. -/
theorem withinQuota_of_rollsOverElapsed {db : Db}
    (hdb : ∀ s ∈ db.subscriptions, 0 ≤ s.usageCount) (clock : Instant)
    {run : List (Label quotaSig Failure ι × MeterPool ι)}
    (hrun : IsRun (consumers ι).Step (MeterPool.initial db clock) run)
    (helapsed : IsRun RollsOverElapsed (MeterPool.initial db clock) run) :
    ∀ c ∈ statesOf (MeterPool.initial db clock) run, c.world.WithinQuota := by
  have hboth := IsRun.and_iff.2 ⟨hrun, helapsed⟩
  intro c hc
  have hinv : MeterPool.Inv c :=
    hboth.invariant (fun _ _ _ hinv h => hinv.step h.1 h.2) (MeterPool.inv_initial hdb clock) c hc
  exact hinv.metered.withinQuota

end Step

/-! ## Two rollovers of one period -/

/-- A `tier1` subscription whose period ended at the epoch. -/
def elapsedSubscription : Subscription := ⟨"sub-1", "org-1", "tier1", .active, -1, 0, 1⟩

/-- A database with one organization, and its subscription. -/
def oneElapsed : Db where
  organizations := ⟨[⟨"org-1", "clerk-1", "clerk-1", none, 0⟩], by simp⟩
  subscriptions := ⟨[elapsedSubscription], by simp⟩

theorem oneElapsed_latest :
    oneElapsed.LatestSubscription (.activeOfClerkOrg "clerk-1") (some elapsedSubscription) :=
  Db.latestSubscription_of_singleton rfl ⟨rfl, rfl⟩

theorem find_elapsed (clock : Instant) (history : List MeterEntry) :
    meterAnswers ⟨oneElapsed, clock, history⟩ (.subscriptionFindFirst (.activeOfClerkOrg "clerk-1"))
      ⟨oneElapsed, clock, history⟩ (.ok (some elapsedSubscription)) :=
  ⟨⟨rfl, Or.inl ⟨trivial, _, oneElapsed_latest, rfl⟩⟩, trivial, rfl, rfl⟩

theorem now_answers (w : MeterWorld) : meterAnswers w .now w (.ok w.clock) :=
  ⟨⟨rfl, _, rfl⟩, rfl, rfl, rfl⟩

theorem rollover_answers {w : MeterWorld} {id : String} {s : Subscription} (now : Instant)
    (hs : w.db.subscription? id = some s) :
    meterAnswers w (.subscriptionUpdate id (rollover now))
      ⟨w.db.updateSubscription id (rollover now), w.clock,
        .charged id w.clock :: .opened id (nextPeriodEnd now) :: w.history⟩
      (.ok ((rollover now).apply s)) := by
  refine ⟨?_, trivial, rfl, rfl⟩
  simp only [QuotaCall.Exec, hs, and_self]

/-- Two calls read one elapsed period and both roll it over: the period that the
first of them opens is charged for both, in a tier of one. -/
theorem not_withinQuota_of_two_rollovers :
    ¬ ∀ c, Reaches (consumers Bool).Step (MeterPool.initial oneElapsed 1) c →
      c.world.WithinQuota := by
  intro h
  have hwithin := h _ <|
    .head (.start (i := true) rfl ⟨"clerk-1", rfl⟩) <|
    .head (.start (i := false) rfl ⟨"clerk-1", rfl⟩) <|
    .head (.act (i := true) rfl (find_elapsed 1 _)) <| .head (.act (i := false) rfl (find_elapsed 1 _)) <|
    .head (.act (i := true) rfl (now_answers _)) <|
    .head (.act (i := false) rfl (now_answers _)) <|
    .head (.act (i := true) rfl (rollover_answers 1 rfl)) <|
    .head (.act (i := false) rfl (rollover_answers 1 rfl)) <|
    .head (.finish (i := true) (r := .ok ⟨1, 1⟩) rfl trivial) <|
    .head (.finish (i := false) (r := .ok ⟨1, 1⟩) rfl trivial) <| .refl _ _
  have hone := hwithin [_, .opened "sub-1" _, _] _ "sub-1" (nextPeriodEnd 1) _ 1 rfl rfl rfl
  revert hone
  decide

/-- One call alone overwrites the period it found. -/
theorem withinQuota_of_one_rollover :
    ∃ run, IsRun (consumers Bool).Step (MeterPool.initial oneElapsed 1) run ∧ run.length = 4 ∧
      ∀ c ∈ statesOf (MeterPool.initial oneElapsed 1) run, c.world.WithinQuota := by
  obtain ⟨run, hrun, hlength, helapsed⟩ : ∃ run,
      IsRun (consumers Bool).Step (MeterPool.initial oneElapsed 1) run ∧ run.length = 4 ∧
        IsRun RollsOverElapsed (MeterPool.initial oneElapsed 1) run := by
    refine ⟨[(_, _), (_, _), (_, _), (_, _)],
      ⟨.start (i := true) rfl ⟨"clerk-1", rfl⟩, .act (i := true) rfl (find_elapsed 1 _),
        .act (i := true) rfl (now_answers _), .act (i := true) rfl (rollover_answers 1 rfl),
        trivial⟩, rfl, trivial, trivial, trivial, ?_, trivial⟩
    intro s now hs hnow
    cases hs
    have hstart : some 1 = some now := congrArg SubscriptionUpdate.periodStart hnow
    cases hstart
    decide
  refine ⟨run, hrun, hlength, withinQuota_of_rollsOverElapsed ?_ 1 hrun helapsed⟩
  intro s hs
  obtain rfl : s = elapsedSubscription := by simpa [Table.mem_def, oneElapsed] using hs
  decide

end EpsDapp
