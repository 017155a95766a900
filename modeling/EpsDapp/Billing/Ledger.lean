import EpsDapp.Billing.Grants
import EpsDapp.Delivery.Failure
import EpsDapp.Intake.Stage

/-!
# The ledger of the charges

The database does not say which subscription a request was charged to. The ledger
does: it watches the calls of the transactions, and knows what every subscription is
charged since its meter was last reset. The books balance when every meter is the
number of the requests that are charged and have not failed; the intakes and the
grants keep them balanced.
-/

set_option autoImplicit false

namespace EpsDapp

open Calendar Effect ServerProgram

/-! ## The ledger -/

/-- A request that is charged to a subscription. -/
structure Charge where
  request : String
  subscription : String
  deriving DecidableEq

/-- What every subscription is charged since its meter was last reset, and the
subscription that the transaction at hand has taken a unit from. -/
structure Ledger where
  charges : List Charge := []
  taken : Option String := none

/-- The ledger after a call: a meter that is written starts anew, and a request that is
created is charged to the subscription its transaction has taken a unit from. -/
def Ledger.watch (l : Ledger) (c : ServerCall) (r : Except Failure c.Resp) : Ledger :=
  match c, r with
  | .quota (.subscriptionUpdate id _), .ok _ =>
      ⟨l.charges.filter fun c => c.subscription ≠ id, some id⟩
  | .quota (.subscriptionIncrement id _), .ok n => if n = 0 then l else { l with taken := some id }
  | .serviceRequestCreate _, .ok id =>
      { l with charges := l.charges ++ (l.taken.map (Charge.mk id)).toList }
  | _, _ => l

/-- The database and the ledger. -/
abbrev Books := Db × Ledger

/-- The answers to the server, with the ledger. -/
def booksAnswers : Answers serverSig Failure Books := billingAnswers.observed Ledger.watch

/-- The request of the charge has not ended `FAILED`. -/
def Charge.Stands (db : Db) (c : Charge) : Prop :=
  (db.request? c.request).map ServiceRequest.status ≠ some .failed

instance (db : Db) : DecidablePred (Charge.Stands db) := fun c => by
  unfold Charge.Stands
  infer_instance

namespace Ledger

/-- The number of requests that are counted on a subscription. -/
def count (l : Ledger) (db : Db) (id : String) : ℕ :=
  l.charges.countP fun c => decide (c.subscription = id ∧ c.Stands db)

/-- The request is counted on the subscription. -/
def Counts (l : Ledger) (db : Db) (request id : String) : Prop :=
  ⟨request, id⟩ ∈ l.charges ∧ Charge.Stands db ⟨request, id⟩

end Ledger

/-- Every meter is the number of the requests that are counted on its subscription. -/
def Conserved (s : Books) : Prop :=
  ∀ id sub, s.1.subscription? id = some sub → sub.usageCount = s.2.count s.1 id

/-! ## Balanced books -/

/-- A write to a subscription leaves it there. -/
theorem exists_subscription?_updateSubscription {db : Db} {id j : String} {u : SubscriptionUpdate}
    (h : ∃ sub, db.subscription? j = some sub) :
    ∃ sub, (db.updateSubscription id u).subscription? j = some sub := by
  obtain ⟨sub, hsub⟩ := h
  rw [Db.subscription?_updateSubscription]
  split
  · rename_i hj
    exact ⟨_, by rw [← hj, hsub]; rfl⟩
  · exact ⟨sub, hsub⟩

/-- The books balance when the subscription `owed` is short of one unit, for which no
request is charged yet. -/
structure Balanced (s : Books) (owed : Option String) : Prop where
  requests : (s.2.charges.map Charge.request).Nodup
  filed : ∀ c ∈ s.2.charges, ∃ r, s.1.request? c.request = some r
  opened : ∀ c ∈ s.2.charges, ∃ sub, s.1.subscription? c.subscription = some sub
  owes : ∀ id, owed = some id → ∃ sub, s.1.subscription? id = some sub
  counted : ∀ id sub, s.1.subscription? id = some sub →
    sub.usageCount = s.2.count s.1 id + if owed = some id then 1 else 0

namespace Ledger

/-- What is counted depends on which charges stand. -/
theorem count_congr {l : Ledger} {db db' : Db} (id : String)
    (h : ∀ c ∈ l.charges, c.Stands db' ↔ c.Stands db) : l.count db' id = l.count db id := by
  refine List.countP_congr fun c hc => ?_
  simp only [decide_eq_true_eq]
  exact and_congr_right fun _ => h c hc

/-- A subscription that is not charged counts nothing. -/
theorem count_eq_zero {l : Ledger} {db : Db} {id : String}
    (h : ∀ c ∈ l.charges, c.subscription ≠ id) : l.count db id = 0 := by
  refine List.countP_eq_zero.2 fun c hc => ?_
  simp only [decide_eq_true_eq]
  exact fun hcount => h c hc hcount.1

/-- A reset of one meter keeps what the others count. -/
theorem count_filter_of_ne {l : Ledger} (db : Db) {id j : String} {taken : Option String}
    (h : j ≠ id) : Ledger.count ⟨l.charges.filter fun c => c.subscription ≠ id, taken⟩ db j =
      l.count db j := by
  simp only [count, List.countP_filter]
  refine List.countP_congr fun c _ => ?_
  simp only [ne_eq, decide_not, Bool.and_eq_true, decide_eq_true_eq, Bool.not_eq_true',
    decide_eq_false_iff_not, and_iff_left_iff_imp]
  rintro ⟨rfl, -⟩
  exact h

/-- Of a list without repetitions by `f`, what is counted is counted with or without the
element at `b`. -/
theorem countP_eq_add_ite {α β : Type} [DecidableEq β] (f : α → β) (p : α → Prop)
    [DecidablePred p] (b : β) {l : List α} (h : (l.map f).Nodup) :
    l.countP (fun a => decide (p a)) = l.countP (fun a => decide (p a ∧ f a ≠ b)) +
      if ∃ a ∈ l, f a = b ∧ p a then 1 else 0 := by
  induction l with
  | nil => simp
  | cons a l ih =>
      obtain ⟨hnot, hl⟩ := List.nodup_cons.1 h
      rw [List.countP_cons, List.countP_cons, ih hl]
      by_cases hb : f a = b
      · have hnone : ¬ ∃ a' ∈ l, f a' = b ∧ p a' := by
          rintro ⟨a', ha', hb', -⟩
          exact hnot (List.mem_map.2 ⟨a', ha', hb'.trans hb.symm⟩)
        by_cases hp : p a
        · simp [hb, hp, hnone]
        · simp [hb, hp]
      · by_cases hp : p a
        · simp [hb, hp]
          omega
        · simp [hb, hp]

end Ledger

namespace Balanced

variable {s : Books} {owed : Option String}

/-- Balanced books are conserved when nothing is owed. -/
theorem conserved (h : Balanced s none) : Conserved s := by
  intro id sub hsub
  simpa using h.counted id sub hsub

/-- What balances depends on the subscriptions, the requests and the charges. -/
theorem congr {s' : Books} (h : Balanced s owed)
    (hsubscriptions : s'.1.subscriptions = s.1.subscriptions)
    (hrequests : s'.1.serviceRequests = s.1.serviceRequests)
    (hcharges : s'.2.charges = s.2.charges) : Balanced s' owed := by
  have hrequest : ∀ id, s'.1.request? id = s.1.request? id := fun id =>
    congrArg (fun t => Table.get? t id) hrequests
  have hsubscription : ∀ id, s'.1.subscription? id = s.1.subscription? id := fun id =>
    congrArg (fun t => Table.get? t id) hsubscriptions
  refine ⟨?_, ?_, ?_, ?_, ?_⟩
  · rw [hcharges]
    exact h.requests
  · intro c hc
    rw [hrequest]
    exact h.filed c (hcharges ▸ hc)
  · intro c hc
    rw [hsubscription]
    exact h.opened c (hcharges ▸ hc)
  · intro id hid
    rw [hsubscription]
    exact h.owes id hid
  · intro id sub hsub
    rw [hsubscription] at hsub
    have hcount : s'.2.count s'.1 id = s.2.count s.1 id := by
      rw [Ledger.count, Ledger.count, hcharges]
      refine List.countP_congr fun c _ => ?_
      simp only [decide_eq_true_eq]
      rw [Charge.Stands, Charge.Stands, hrequest]
    rw [hcount]
    exact h.counted id sub hsub

/-- A unit is taken. -/
theorem take {id : String} (h : Balanced s none)
    (hid : ∃ sub, s.1.subscription? id = some sub) :
    Balanced (s.1.updateSubscription id { usageCount := (· + 1) }, { s.2 with taken := some id })
      (some id) where
  requests := h.requests
  filed := h.filed
  opened c hc := exists_subscription?_updateSubscription (h.opened c hc)
  owes := by
    rintro _ ⟨⟩
    exact exists_subscription?_updateSubscription hid
  counted j sub hsub := by
    rw [Db.subscription?_updateSubscription] at hsub
    have hcount : s.2.count (s.1.updateSubscription id { usageCount := (· + 1) }) j =
        s.2.count s.1 j := rfl
    change sub.usageCount = (s.2.count _ j : ℤ) + _
    rw [hcount]
    split at hsub
    · rename_i hj
      subst hj
      obtain ⟨sub₀, hsub₀, rfl⟩ := Option.map_eq_some_iff.1 hsub
      have hcounted := h.counted j sub₀ hsub₀
      simp only [reduceCtorEq, if_false, add_zero] at hcounted
      simp [SubscriptionUpdate.apply, hcounted]
    · rename_i hj
      have hcounted := h.counted j sub hsub
      simpa [Ne.symm hj] using hcounted

/-- A meter is reset, at the unit that is taken if one is owed. -/
theorem reset {id : String} {u : SubscriptionUpdate} (h : Balanced s none)
    (howed : owed = none ∨ owed = some id)
    (hu : ∀ sub, (u.apply sub).usageCount = if owed = some id then 1 else 0)
    (hid : ∃ sub, s.1.subscription? id = some sub) :
    Balanced (s.1.updateSubscription id u,
      ⟨s.2.charges.filter fun c => c.subscription ≠ id, some id⟩) owed where
  requests := h.requests.sublist (List.filter_sublist.map _)
  filed c hc := h.filed c (List.mem_of_mem_filter hc)
  opened c hc := exists_subscription?_updateSubscription (h.opened c (List.mem_of_mem_filter hc))
  owes j hj := by
    rcases howed with rfl | rfl
    · cases hj
    · cases hj
      exact exists_subscription?_updateSubscription hid
  counted j sub hsub := by
    rw [Db.subscription?_updateSubscription] at hsub
    split at hsub
    · rename_i hj
      subst hj
      obtain ⟨sub₀, -, rfl⟩ := Option.map_eq_some_iff.1 hsub
      have hzero : Ledger.count ⟨s.2.charges.filter fun c => c.subscription ≠ j, some j⟩
          (s.1.updateSubscription j u) j = 0 :=
        Ledger.count_eq_zero fun c hc => by simpa using (List.mem_filter.1 hc).2
      rw [hu, hzero, Nat.cast_zero, zero_add]
    · rename_i hj
      have hcount : Ledger.count ⟨s.2.charges.filter fun c => c.subscription ≠ id, some id⟩
          (s.1.updateSubscription id u) j = s.2.count s.1 j :=
        Ledger.count_filter_of_ne (s.1.updateSubscription id u) hj
      have hne : owed ≠ some j := by
        rcases howed with rfl | rfl
        · nofun
        · exact fun h => hj (Option.some.inj h).symm
      have hcounted := h.counted j sub hsub
      simp only [reduceCtorEq, if_false, add_zero] at hcounted
      rw [hcount, hcounted, if_neg hne, add_zero]

/-- The request is created for which the unit was taken. -/
theorem charge {id : String} {row : ServiceRequest} {taken : Option String}
    (h : Balanced s (some id)) (hfree : s.1.request? row.id = none) (hrow : row.status = .staged) :
    Balanced (s.1.insertRequest row hfree, ⟨s.2.charges ++ [⟨row.id, id⟩], taken⟩) none := by
  have hne : ∀ c ∈ s.2.charges, c.request ≠ row.id := by
    rintro c hc heq
    obtain ⟨r, hr⟩ := h.filed c hc
    rw [heq, hfree] at hr
    cases hr
  have hstands : ∀ c ∈ s.2.charges,
      c.Stands (s.1.insertRequest row hfree) ↔ c.Stands s.1 := by
    intro c hc
    rw [Charge.Stands, Charge.Stands, Db.request?_insertRequest, if_neg (hne c hc)]
  have hnew : Charge.Stands (s.1.insertRequest row hfree) ⟨row.id, id⟩ := by
    rw [Charge.Stands, Db.request?_insertRequest, if_pos rfl, Option.map_some, hrow]
    decide
  refine ⟨?_, ?_, ?_, nofun, ?_⟩
  · rw [List.map_append, List.nodup_append]
    refine ⟨h.requests, List.nodup_singleton _, ?_⟩
    rintro _ hreq _ hnew rfl
    obtain ⟨c, hc, rfl⟩ := List.mem_map.1 hreq
    exact hne c hc (by simpa using hnew)
  · intro c hc
    rcases List.mem_append.1 hc with hc | hc
    · obtain ⟨r, hr⟩ := h.filed c hc
      exact ⟨r, by rw [Db.request?_insertRequest, if_neg (hne c hc), hr]⟩
    · obtain rfl := List.mem_singleton.1 hc
      exact ⟨row, by rw [Db.request?_insertRequest, if_pos rfl]⟩
  · intro c hc
    rcases List.mem_append.1 hc with hc | hc
    · exact h.opened c hc
    · obtain rfl := List.mem_singleton.1 hc
      exact h.owes id rfl
  · intro j sub hsub
    have hcount : Ledger.count ⟨s.2.charges ++ [⟨row.id, id⟩], taken⟩
        (s.1.insertRequest row hfree) j = s.2.count s.1 j + if id = j then 1 else 0 := by
      rw [Ledger.count, List.countP_append, List.countP_singleton]
      refine congrArg₂ (· + ·) (Ledger.count_congr j hstands) ?_
      by_cases hj : id = j
      · simp [hj, hj ▸ hnew]
      · simp [hj]
    have hcounted := h.counted j sub hsub
    rw [hcount, hcounted]
    by_cases hj : id = j
    · simp [hj]
    · simp [hj]

/-- A subscription is opened. -/
theorem openSubscription {sub : Subscription} {l : Ledger} (h : Balanced s none)
    (hl : l.charges = s.2.charges) (hfree : s.1.subscription? sub.id = none)
    (husage : sub.usageCount = 0) : Balanced (s.1.insertSubscription sub hfree, l) none := by
  have hne : ∀ c ∈ s.2.charges, c.subscription ≠ sub.id := by
    rintro c hc heq
    obtain ⟨sub', hsub'⟩ := h.opened c hc
    rw [heq, hfree] at hsub'
    cases hsub'
  have hcount : ∀ j, l.count (s.1.insertSubscription sub hfree) j = s.2.count s.1 j := by
    intro j
    rw [Ledger.count, hl]
    rfl
  refine ⟨?_, ?_, ?_, nofun, ?_⟩
  · exact hl ▸ h.requests
  · intro c hc
    exact h.filed c (hl ▸ hc)
  · intro c hc
    have hc : c ∈ s.2.charges := hl ▸ hc
    obtain ⟨sub', hsub'⟩ := h.opened c hc
    exact ⟨sub', by rw [Db.subscription?_insertSubscription, if_neg (hne c hc), hsub']⟩
  · intro j sub' hsub'
    rw [Db.subscription?_insertSubscription] at hsub'
    split at hsub'
    · rename_i hj
      cases hsub'
      have hzero : s.2.count s.1 j = 0 := Ledger.count_eq_zero fun c hc => hj ▸ hne c hc
      rw [hcount, hzero, husage]
      rfl
    · rw [hcount]
      exact h.counted j sub' hsub'

/-- A write that leaves the meter alone. -/
theorem leave {id : String} {u : SubscriptionUpdate} {l : Ledger} (h : Balanced s none)
    (hl : l.charges = s.2.charges) (hu : ∀ sub, (u.apply sub).usageCount = sub.usageCount) :
    Balanced (s.1.updateSubscription id u, l) none := by
  have hcount : ∀ j, l.count (s.1.updateSubscription id u) j = s.2.count s.1 j := by
    intro j
    rw [Ledger.count, hl]
    rfl
  refine ⟨?_, ?_, ?_, nofun, ?_⟩
  · exact hl ▸ h.requests
  · intro c hc
    exact h.filed c (hl ▸ hc)
  · intro c hc
    exact exists_subscription?_updateSubscription (h.opened c (hl ▸ hc))
  · intro j sub hsub
    rw [hcount]
    rw [Db.subscription?_updateSubscription] at hsub
    split at hsub
    · rename_i hj
      subst hj
      obtain ⟨sub₀, hsub₀, rfl⟩ := Option.map_eq_some_iff.1 hsub
      rw [hu]
      exact h.counted j sub₀ hsub₀
    · exact h.counted j sub hsub

end Balanced

/-! ## What the operations do to balanced books -/

/-- The calls that leave the subscriptions, the requests and the ledger. -/
def ServerCall.Unmetered : ServerCall → Prop
  | .quota .now | .quota (.subscriptionFindFirst _) | .randomBytes _ | .randomUUID
  | .putObject _ _ | .organizationUpsert _ | .auditLogCreate _ | .webhookEventCreate _ => True
  | _ => False

/-- The calls of the grants. -/
def ServerCall.Grants : ServerCall → Prop
  | .quota (.subscriptionUpdate _ data) => ∃ now, data = compGrantUpdate now
  | .subscriptionCreate _ | .subscriptionUpsert _ _ => True
  | c => c.Unmetered

/-- The calls of the webhook. -/
def ServerCall.Activates (c : ServerCall) : Prop :=
  c.Unmetered ∨ ∃ id create, c = .subscriptionUpsert id create

section Operations

variable {s s' : Books}

/-- An error leaves the ledger. -/
theorem Ledger.watch_error (l : Ledger) (c : ServerCall) (e : Failure) :
    l.watch c (.error e) = l := by
  cases c with
  | quota c => cases c <;> rfl
  | _ => rfl

theorem Ledger.watch_unmetered (l : Ledger) {c : ServerCall} (hc : c.Unmetered)
    (r : Except Failure c.Resp) : l.watch c r = l := by
  cases c with
  | quota c =>
      cases c with
      | subscriptionUpdate id data => exact hc.elim
      | subscriptionIncrement id limit => exact hc.elim
      | _ => rfl
  | serviceRequestCreate data => exact hc.elim
  | _ => rfl

theorem ServerCall.Unmetered.tables {db db' : Db} {c : ServerCall} (hc : c.Unmetered)
    {r : Except Failure c.Resp} (h : billingAnswers db c db' r) :
    db'.subscriptions = db.subscriptions ∧ db'.serviceRequests = db.serviceRequests := by
  rcases h with h | ⟨rfl, -⟩
  · cases c with
    | quota c =>
        cases c with
        | now => exact h.1 ▸ ⟨rfl, rfl⟩
        | subscriptionFindFirst q => exact h.1 ▸ ⟨rfl, rfl⟩
        | _ => exact hc.elim
    | randomBytes n => exact h.1 ▸ ⟨rfl, rfl⟩
    | randomUUID => exact h.1 ▸ ⟨rfl, rfl⟩
    | putObject key body =>
        obtain rfl : db' = db := h
        exact ⟨rfl, rfl⟩
    | organizationUpsert clerkOrgId =>
        rcases h with ⟨_, -, -, rfl, -⟩ | ⟨-, _, _, _, rfl, -⟩
        · exact ⟨rfl, rfl⟩
        · exact ⟨rfl, rfl⟩
    | auditLogCreate data => exact h.1 ▸ ⟨rfl, rfl⟩
    | webhookEventCreate eventId =>
        rcases h with ⟨_, _, rfl, -⟩ | ⟨-, rfl, -⟩
        · exact ⟨rfl, rfl⟩
        · exact ⟨rfl, rfl⟩
    | _ => exact hc.elim
  · exact ⟨rfl, rfl⟩

/-- A step that leaves the subscriptions, the requests and the ledger. -/
structure SameBooks (s s' : Books) : Prop where
  subscriptions : s'.1.subscriptions = s.1.subscriptions
  requests : s'.1.serviceRequests = s.1.serviceRequests
  ledger : s'.2 = s.2

theorem SameBooks.refl (s : Books) : SameBooks s s := ⟨rfl, rfl, rfl⟩

theorem SameBooks.trans {s₁ s₂ s₃ : Books} (h : SameBooks s₁ s₂) (h' : SameBooks s₂ s₃) :
    SameBooks s₁ s₃ :=
  ⟨h'.subscriptions.trans h.subscriptions, h'.requests.trans h.requests, h'.ledger.trans h.ledger⟩

theorem ServerCall.Unmetered.sameBooks {c : ServerCall} (hc : c.Unmetered)
    {r : Except Failure c.Resp} (hE : booksAnswers s c s' r) : SameBooks s s' := by
  obtain ⟨hsubscriptions, hrequests⟩ := hc.tables hE.1
  exact ⟨hsubscriptions, hrequests, hE.2.trans (Ledger.watch_unmetered _ hc r)⟩

/-- What a call of the grants does: nothing to the meters, or it resets one, or opens a
subscription, or writes a status. -/
inductive GrantsTo (s s' : Books) : Prop
  | same (h : SameBooks s s')
  | reset (id : String) (now : Instant) (sub : Subscription) (hsub : s.1.subscription? id = some sub)
    (hdb : s'.1 = s.1.updateSubscription id (compGrantUpdate now))
    (hledger : s'.2 = ⟨s.2.charges.filter fun c => c.subscription ≠ id, some id⟩)
  | opened (sub : Subscription) (hfree : s.1.subscription? sub.id = none)
    (husage : sub.usageCount = 0) (hdb : s'.1 = s.1.insertSubscription sub hfree)
    (hledger : s'.2 = s.2)
  | activated (id : String) (hdb : s'.1 = s.1.updateSubscription id { status := some .active })
    (hledger : s'.2 = s.2)

theorem ServerCall.Grants.grantsTo {c : ServerCall} (hc : c.Grants) {r : Except Failure c.Resp}
    (hE : booksAnswers s c s' r) : GrantsTo s s' := by
  by_cases hquiet : c.Unmetered
  · exact .same (hquiet.sameBooks hE)
  obtain ⟨hexec, hledger⟩ := hE
  rcases hexec with hexec | ⟨hdb, message, rfl⟩
  · cases c with
    | quota c =>
        cases c with
        | subscriptionUpdate id data =>
            obtain ⟨now, rfl⟩ := hc
            simp only [ServerCall.Exec, QuotaCall.Exec] at hexec
            split at hexec
            · rename_i sub hsub
              obtain ⟨hdb, rfl⟩ := hexec
              exact .reset id now sub hsub hdb hledger
            · obtain ⟨hdb, rfl⟩ := hexec
              exact .same ⟨congrArg Db.subscriptions hdb, congrArg Db.serviceRequests hdb, hledger⟩
        | subscriptionIncrement id limit => exact hc.elim
        | subscriptionDecrement id => exact hc.elim
        | _ => exact absurd trivial hquiet
    | subscriptionCreate data =>
        obtain ⟨id, hfree, hdb, rfl⟩ := hexec
        exact .opened _ hfree rfl hdb hledger
    | subscriptionUpsert id create =>
        obtain ⟨rfl, ⟨_, -, hdb⟩ | ⟨hfree, hdb⟩⟩ := hexec
        · exact .activated id hdb hledger
        · exact .opened _ hfree rfl hdb hledger
    | _ => first | exact hc.elim | exact absurd trivial hquiet
  · exact .same ⟨congrArg Db.subscriptions hdb, congrArg Db.serviceRequests hdb,
      hledger.trans (Ledger.watch_error _ c _)⟩

/-- The calls of the grants keep the books balanced. -/
theorem GrantsTo.balanced (hg : GrantsTo s s') (h : Balanced s none) : Balanced s' none := by
  obtain ⟨db', l'⟩ := s'
  cases hg with
  | same hsame => exact h.congr hsame.subscriptions hsame.requests (congrArg Ledger.charges hsame.ledger)
  | reset id now sub hsub hdb hledger =>
      obtain rfl : db' = _ := hdb
      obtain rfl : l' = _ := hledger
      exact h.reset (Or.inl rfl) (fun _ => rfl) ⟨sub, hsub⟩
  | opened sub hfree husage hdb hledger =>
      obtain rfl : db' = _ := hdb
      exact h.openSubscription (congrArg Ledger.charges hledger) hfree husage
  | activated id hdb hledger =>
      obtain rfl : db' = _ := hdb
      exact h.leave (congrArg Ledger.charges hledger) fun _ => rfl

/-- A charge stays, or the meter of its subscription is emptied. -/
theorem GrantsTo.keeps_charge (hg : GrantsTo s s') {charge : Charge}
    (hopen : ∃ sub, s.1.subscription? charge.subscription = some sub)
    (h : charge ∈ s.2.charges ∨
      ∃ sub, s.1.subscription? charge.subscription = some sub ∧ sub.usageCount = 0) :
    charge ∈ s'.2.charges ∨
      ∃ sub, s'.1.subscription? charge.subscription = some sub ∧ sub.usageCount = 0 := by
  cases hg with
  | same hsame =>
      rw [hsame.ledger, Db.subscription?, hsame.subscriptions]
      exact h
  | reset id now sub hsub hdb hledger =>
      rw [hledger, hdb, Db.subscription?_updateSubscription]
      by_cases hid : charge.subscription = id
      · rw [if_pos hid, hsub]
        exact Or.inr ⟨_, rfl, rfl⟩
      · rw [if_neg hid]
        exact h.imp_left fun hc => List.mem_filter.2 ⟨hc, by simpa using hid⟩
  | opened sub hfree husage hdb hledger =>
      have hid : charge.subscription ≠ sub.id := by
        rintro hid
        obtain ⟨sub', hsub'⟩ := hopen
        rw [hid, hfree] at hsub'
        cases hsub'
      rw [hledger, hdb, Db.subscription?_insertSubscription, if_neg hid]
      exact h
  | activated id hdb hledger =>
      rw [hledger, hdb, Db.subscription?_updateSubscription]
      refine h.imp_right ?_
      rintro ⟨sub, hsub, husage⟩
      by_cases hid : charge.subscription = id
      · rw [if_pos hid, ← hid, hsub]
        exact ⟨_, rfl, husage⟩
      · rw [if_neg hid]
        exact ⟨sub, hsub, husage⟩

/-- The calls of the webhook leave the charges. -/
theorem ServerCall.Activates.charges {c : ServerCall} (hc : c.Activates)
    {r : Except Failure c.Resp} (hE : booksAnswers s c s' r) : s'.2.charges = s.2.charges := by
  refine (congrArg Ledger.charges hE.2).trans ?_
  rcases hc with hc | ⟨id, create, rfl⟩
  · exact congrArg Ledger.charges (Ledger.watch_unmetered _ hc r)
  · rfl

theorem compGrant_only (actor : AuthContext) (targetOrgId : String) (now : Instant) :
    (compGrant actor targetOrgId now).Only ServerCall.Grants := by
  refine Program.only_bind ((Program.only_perform _).2 trivial) fun org => ?_
  refine Program.only_bind ?_ fun sub => ?_
  · refine Program.only_bind ((Program.only_perform _).2 trivial) fun existing => ?_
    split
    · exact (Program.only_perform _).2 ⟨now, rfl⟩
    · exact (Program.only_perform _).2 trivial
  · exact Program.only_bind ((Program.only_perform _).2 trivial) fun _ => Program.only_pure _

theorem processEvent_activates (event : StripeEvent) :
    (processEvent event).Only ServerCall.Activates := by
  refine Program.only_bind ((Program.only_perform _).2 (Or.inl trivial)) fun _ => ?_
  split
  · rw [applyCheckoutCompleted]
    split
    · exact Program.only_pure _
    · refine Program.only_bind ((Program.only_perform _).2 (Or.inl trivial)) fun org => ?_
      refine Program.only_bind ((Program.only_perform _).2 (Or.inl trivial)) fun now => ?_
      exact (Program.only_perform _).2 (Or.inr ⟨_, _, rfl⟩)
  · exact Program.only_pure _

theorem ServerCall.Activates.grants {c : ServerCall} (hc : c.Activates) : c.Grants := by
  rcases hc with hc | ⟨id, create, rfl⟩
  · cases c with
    | quota c =>
        cases c with
        | now => trivial
        | subscriptionFindFirst q => trivial
        | _ => exact hc.elim
    | subscriptionCreate data => trivial
    | subscriptionUpsert id create => trivial
    | _ => exact hc
  · trivial

/-- The grants keep the books balanced. -/
theorem Balanced.grants_wp {α : Type} {p : ServerProgram α} (hp : p.Only ServerCall.Grants)
    (h : Balanced s none) :
    p.wp booksAnswers (fun _ _ => True) (fun _ s' => Balanced s' none) s :=
  hp.wp (fun _ _ _ _ hc h hE => (hc.grantsTo hE).balanced h) (fun _ _ _ _ => trivial) h

/-! ### An intake -/

/-- The subscription that is found is there. -/
theorem Db.LatestSubscription.subscription? {db : Db} {q : SubscriptionWhere}
    {sel : Option Subscription} (h : db.LatestSubscription q sel) :
    ∀ sub, sel = some sub → db.subscription? sub.id = some sub := by
  rintro sub rfl
  exact db.subscriptions.get?_key_eq h.1

/-- A unit is taken from the subscription under `id`: its meter goes up by one, or starts
anew at that unit, its period having elapsed. -/
structure Takes (s : Books) (id : String) (s' : Books) : Prop where
  found : ∃ sub, s.1.subscription? id = some sub
  requests : s'.1.serviceRequests = s.1.serviceRequests
  taken : s'.2.taken = some id
  meter :
    (s'.1.subscriptions = (s.1.updateSubscription id { usageCount := (· + 1) }).subscriptions ∧
      s'.2.charges = s.2.charges) ∨
    ∃ sub now, s.1.subscription? id = some sub ∧ sub.periodEnd < now ∧
      s'.1.subscriptions = (s.1.updateSubscription id (rollover now)).subscriptions ∧
      s'.2.charges = s.2.charges.filter fun c => c.subscription ≠ id

theorem Takes.balanced {id : String} (ht : Takes s id s') (h : Balanced s none) :
    Balanced s' (some id) := by
  rcases ht.meter with ⟨hsubscriptions, hcharges⟩ | ⟨sub, now, -, -, hsubscriptions, hcharges⟩
  · exact (h.take ht.found).congr hsubscriptions ht.requests hcharges
  · refine Balanced.congr (h.reset (Or.inr rfl) (fun _ => ?_) ht.found) hsubscriptions
      ht.requests hcharges
    exact (if_pos rfl).symm

theorem Takes.of_sameBooks {s₀ : Books} {id : String} (ht : Takes s id s')
    (hsame : SameBooks s₀ s) : Takes s₀ id s' := by
  have hfind : s.1.subscription? id = s₀.1.subscription? id :=
    congrArg (fun t => Table.get? t id) hsame.subscriptions
  have hwrite : ∀ u, (s.1.updateSubscription id u).subscriptions =
      (s₀.1.updateSubscription id u).subscriptions :=
    fun u => congrArg (fun t => Table.modify t id u.apply fun _ => rfl) hsame.subscriptions
  refine ⟨hfind ▸ ht.found, ht.requests.trans hsame.requests, ht.taken, ?_⟩
  rcases ht.meter with ⟨h, hcharges⟩ | ⟨sub, now, hsub, hend, h, hcharges⟩
  · exact Or.inl ⟨h.trans (hwrite _), hsame.ledger ▸ hcharges⟩
  · exact Or.inr ⟨sub, now, hfind ▸ hsub, hend, h.trans (hwrite _), hsame.ledger ▸ hcharges⟩

/-- No other subscription is written. -/
theorem Takes.subscription?_of_ne {id j : String} (ht : Takes s id s') (hj : j ≠ id) :
    s'.1.subscription? j = s.1.subscription? j := by
  have hupdate : ∀ u, s'.1.subscriptions = (s.1.updateSubscription id u).subscriptions →
      s'.1.subscription? j = s.1.subscription? j := by
    intro u hu
    refine (congrArg (fun t => Table.get? t j) hu).trans ?_
    exact (Db.subscription?_updateSubscription s.1 id j u).trans (if_neg hj)
  rcases ht.meter with ⟨h, -⟩ | ⟨_, now, -, -, h, -⟩
  · exact hupdate _ h
  · exact hupdate _ h

/-- A charge that succeeds has taken a unit. -/
theorem checkAndDecrementQuota_takes (orgId : String) (s : Books) :
    (quota (checkAndDecrementQuota orgId)).wp booksAnswers (fun _ _ => True)
      (fun r s' => ∀ q, r = .ok q → ∃ id, Takes s id s') s := by
  refine Program.wp_of_runs fun s' r hrun q hq => ?_
  subst hq
  obtain ⟨s₁, sub, limit, s₂, t, ⟨r₁, hfind, hr₁⟩, -, ⟨r₂, hnow, -⟩, hcharge⟩ :=
    (checkAndDecrementQuota_runs_ok_iff _ _ _ _ _).1 ((Program.runs_lift _ _ _ _ _).1 hrun)
  obtain rfl : r₁ = .ok (some sub) := hr₁
  have hquiet : SameBooks s s₂ :=
    (ServerCall.Unmetered.sameBooks (c := .quota (.subscriptionFindFirst _)) trivial hfind).trans
      (ServerCall.Unmetered.sameBooks (c := .quota .now) trivial hnow)
  have hsub : s₂.1.subscription? sub.id = some sub := by
    refine (congrArg (fun t => Table.get? t sub.id) hquiet.subscriptions).trans ?_
    rcases hfind.1 with ⟨-, ⟨-, _, hlatest, ⟨⟩⟩ | ⟨-, ⟨⟩⟩⟩ | ⟨-, _, ⟨⟩⟩
    exact hlatest.subscription? sub rfl
  refine ⟨sub.id, Takes.of_sameBooks ?_ hquiet⟩
  rcases hcharge with ⟨hend, -, _, _, ⟨hupdate, hledger⟩, rfl⟩ |
    ⟨-, -, n, hn, _, ⟨hincrement, hledger⟩, rfl⟩
  · rcases hupdate with hupdate | ⟨-, _, ⟨⟩⟩
    simp only [ServerCall.Exec, QuotaCall.Exec, hsub] at hupdate
    have hdb : s'.1 = s₂.1.updateSubscription sub.id (rollover t) := hupdate.1
    refine ⟨⟨sub, hsub⟩, ?_, ?_, Or.inr ⟨sub, t, hsub, hend, ?_, ?_⟩⟩
    · rw [hdb, Db.updateSubscription]
    · rw [hledger, Ledger.watch]
    · rw [hdb]
    · rw [hledger, Ledger.watch]
  · rcases hincrement with hincrement | ⟨-, _, ⟨⟩⟩
    simp only [ServerCall.Exec, QuotaCall.Exec,
      Db.updateSubscriptionWhere_of_some _ _ _ hsub] at hincrement
    obtain ⟨hdb, hcount⟩ := Prod.mk.inj hincrement
    -- A guard that does not hold lets no row through.
    split at hdb
    · have hledger : s'.2 = { s₂.2 with taken := some sub.id } := hledger.trans (if_neg hn)
      refine ⟨⟨sub, hsub⟩, ?_, ?_, Or.inl ⟨?_, ?_⟩⟩
      · rw [hdb, Db.updateSubscription]
      · rw [hledger]
      · rw [hdb]
      · rw [hledger]
    · rename_i hguard
      rw [if_neg hguard] at hcount
      exact absurd (Except.ok.inj hcount) hn

theorem storeDocument_only (env : StorageEnv) (crypto : NodeCrypto) (buf : Bytes) :
    (storeDocument env crypto buf).Only ServerCall.Unmetered := by
  rw [storeDocument]
  refine Program.only_bind (Program.only_done _) fun key => ?_
  refine Program.only_bind ((Program.only_perform _).2 trivial) fun iv => ?_
  refine Program.only_bind ((Program.only_perform _).2 trivial) fun uuid => ?_
  refine Program.only_bind (Program.only_done _) fun _ => ?_
  exact Program.only_bind ((Program.only_perform _).2 trivial) fun _ => Program.only_pure _

/-- The request `row` is filed, and charged to the subscription under `id`. -/
structure ChargesTo (s : Books) (row : ServiceRequest) (id : String) (s' : Books) : Prop where
  free : s.1.request? row.id = none
  staged : row.status = .staged
  requests : s'.1.serviceRequests = (s.1.insertRequest row free).serviceRequests
  takes : ∃ s₁, Takes s id s₁ ∧ s'.1.subscriptions = s₁.1.subscriptions ∧
    s'.2.charges = s₁.2.charges ++ [⟨row.id, id⟩]

theorem ChargesTo.balanced {row : ServiceRequest} {id : String} (hc : ChargesTo s row id s')
    (h : Balanced s none) : Balanced s' none := by
  obtain ⟨s₁, htakes, hsubscriptions, hcharges⟩ := hc.takes
  have hfree : s₁.1.request? row.id = none :=
    (congrArg (fun t => Table.get? t row.id) htakes.requests).trans hc.free
  have hcharged : Balanced (s₁.1.insertRequest row hfree, ⟨s₁.2.charges ++ [⟨row.id, id⟩], none⟩)
      none := (htakes.balanced h).charge hfree hc.staged
  refine hcharged.congr hsubscriptions (hc.requests.trans ?_) hcharges
  simp [Db.insertRequest, htakes.requests]

theorem ChargesTo.of_sameBooks {s'' : Books} {row : ServiceRequest} {id : String}
    (hc : ChargesTo s row id s') (hsame : SameBooks s' s'') : ChargesTo s row id s'' := by
  obtain ⟨s₁, htakes, hsubscriptions, hcharges⟩ := hc.takes
  refine ⟨hc.free, hc.staged, hsame.requests.trans hc.requests, s₁, htakes, ?_, ?_⟩
  · exact hsame.subscriptions.trans hsubscriptions
  · exact (congrArg Ledger.charges hsame.ledger).trans hcharges

/-- An intake that returns has charged its request for the unit it has taken. -/
theorem createServiceRequest_charges (env : StorageEnv) (crypto : NodeCrypto)
    (input : CreateServiceRequestInput) (s : Books) :
    (createServiceRequest env crypto input).wp booksAnswers (fun _ _ => True)
      (fun r s' => ∀ staged, r = .ok staged → ∃ row id, ChargesTo s row id s') s := by
  refine (Program.wp_bind _ _ _ _).2 <| (Program.wp_bind _ _ _ _).2
    ((Program.wp_perform _ _ _).2 ⟨trivial, ?_⟩)
  rintro s₁ r htoken
  have h₁ : SameBooks s s₁ := ServerCall.Unmetered.sameBooks (c := .randomBytes 16) trivial htoken
  rcases r with e | bytes
  · rintro _ ⟨⟩
  refine Program.wp_seq (checkAndDecrementQuota_takes _ s₁) ?_ fun _ _ _ _ h => by cases h
  intro q s₂ htakes
  obtain ⟨id, htakes⟩ := htakes q rfl
  refine Program.wp_seq ((storeDocument_only env crypto input.document).wp (J := SameBooks s₂)
    (fun _ _ _ _ hc hsame hE => hsame.trans (hc.sameBooks hE)) (fun _ _ _ _ => trivial) (.refl s₂))
    ?_ fun _ _ _ _ h => by cases h
  rintro stored s₃ h₃
  refine (Program.wp_bind _ _ _ _).2 ((Program.wp_perform _ _ _).2 ⟨trivial, ?_⟩)
  rintro s₄ r hnow
  have h₄ : SameBooks s₂ s₄ :=
    h₃.trans (ServerCall.Unmetered.sameBooks (c := .quota .now) trivial hnow)
  rcases r with e | attestedAt
  · rintro _ ⟨⟩
  refine (Program.wp_bind _ _ _ _).2 ((Program.wp_perform _ _ _).2 ⟨trivial, ?_⟩)
  rintro s₅ r ⟨hcreate, hledger⟩
  rcases hcreate with (⟨-, id', orgId, createdAt, hfree, -, hdb, rfl⟩ | ⟨-, -, rfl⟩ | ⟨-, -, rfl⟩) |
    ⟨-, message, rfl⟩
  · let row := (input.data (hexEncode bytes) stored.sha256 attestedAt).row id' orgId createdAt
    have htaken : s₄.2.taken = some id := h₄.ledger ▸ htakes.taken
    have hrequests : s₄.1.serviceRequests = s.1.serviceRequests :=
      h₄.requests.trans (htakes.requests.trans h₁.requests)
    have hcharges : ChargesTo s row id s₅ := by
      refine ⟨?_, rfl, ?_, s₂, ?_, ?_, ?_⟩
      · exact (congrArg (fun t => Table.get? t row.id) hrequests).symm.trans hfree
      · refine (congrArg Db.serviceRequests hdb).trans ?_
        simp [Db.insertRequest, hrequests, row]
      · exact htakes.of_sameBooks h₁
      · exact (congrArg Db.subscriptions hdb).trans h₄.subscriptions
      · rw [hledger, ← h₄.ledger]
        change s₄.2.charges ++ (s₄.2.taken.map (Charge.mk id')).toList = _
        rw [htaken]
        rfl
    refine (Program.wp_bind _ _ _ _).2 ((Program.wp_perform _ _ _).2 ⟨trivial, ?_⟩)
    rintro s₆ r haudit
    have h₆ : SameBooks s₅ s₆ := ServerCall.Unmetered.sameBooks (c := .auditLogCreate _) trivial haudit
    rcases r with e | _
    · rintro _ ⟨⟩
    · exact fun _ _ => ⟨row, id, hcharges.of_sameBooks h₆⟩
  · rintro _ ⟨⟩
  · rintro _ ⟨⟩
  · rintro _ ⟨⟩

/-! ### A failure -/

theorem restoreQuota_credits (orgId : Option String) (s : Books) :
    (quota (restoreQuota orgId)).wp booksAnswers (fun _ _ => True)
      (fun r s' => ∀ restored, r = .ok restored → ∃ o sel, orgId = some o ∧
        s.1.LatestSubscription (.activeOfOrg orgId) sel ∧ s' = ((s.1.credit sel).1, s.2) ∧
          restored = (s.1.credit sel).2) s := by
  obtain ⟨db, l⟩ := s
  rw [quota, Program.wp_lift, restoreQuota]
  refine (Program.wp_bind _ _ _ _).2 ((Program.wp_perform _ _ _).2 ⟨trivial, ?_⟩)
  rintro ⟨db₁, l₁⟩ _ ⟨found, ⟨hfind, hl₁⟩, rfl⟩
  rcases hfind with ⟨hdb, ⟨hvalid, sel, hsel, rfl⟩ | ⟨-, rfl⟩⟩ | ⟨-, message, rfl⟩
  · obtain rfl : db₁ = db := hdb
    obtain rfl : l₁ = l := hl₁
    obtain ⟨o, rfl⟩ := Option.ne_none_iff_exists'.1 hvalid
    rcases sel with _ | sub
    · rintro _ ⟨⟩
      exact ⟨o, none, rfl, hsel, rfl, rfl⟩
    · refine (Program.wp_bind _ _ _ _).2 ((Program.wp_perform _ _ _).2 ⟨trivial, ?_⟩)
      rintro ⟨db₂, l₂⟩ _ ⟨r, ⟨hdecrement, hl₂⟩, rfl⟩
      rcases hdecrement with hdecrement | ⟨-, message, rfl⟩
      · obtain rfl : l₂ = l₁ := hl₂
        obtain ⟨hdb₂, rfl⟩ := Prod.mk.inj hdecrement
        obtain rfl : db₂ = _ := hdb₂
        rintro _ ⟨⟩
        exact ⟨o, some sub, rfl, hsel, rfl, rfl⟩
      · rintro _ ⟨⟩
  · rintro _ ⟨⟩
  · rintro _ ⟨⟩

/-- A failure that returns has committed its writes. -/
theorem failServiceRequest_commits (input : FailServiceRequestInput) (s : Books) :
    (failServiceRequest input).wp booksAnswers (fun _ _ => True)
      (fun r s' => ∀ restored, r = .ok restored → ∃ row o sel,
        s.1.request? input.serviceRequestId = some row ∧ input.orgId = some o ∧
          s.1.LatestSubscription (.activeOfOrg (some o)) sel ∧
            s' = ((input.commit s.1 sel).1, s.2)) s := by
  obtain ⟨db, l⟩ := s
  rw [failServiceRequest]
  split
  · refine (Program.wp_bind _ _ _ _).2 ((Program.wp_perform _ _ _).2 ⟨trivial, ?_⟩)
    rintro ⟨db₁, l₁⟩ r ⟨hupdate, hl₁⟩
    rcases hupdate with hupdate | ⟨-, message, rfl⟩
    · simp only [ServerCall.Exec] at hupdate
      split at hupdate
      · rename_i row hrow
        obtain ⟨rfl, rfl⟩ := hupdate
        obtain rfl : l₁ = l := hl₁
        refine Program.wp_seq (restoreQuota_credits input.orgId _) ?_ fun _ _ _ _ h => by cases h
        rintro restored s₂ hcredit
        obtain ⟨o, sel, horg, hsel, rfl, rfl⟩ := hcredit restored rfl
        refine (Program.wp_bind _ _ _ _).2 ((Program.wp_perform _ _ _).2 ⟨trivial, ?_⟩)
        rintro ⟨db₃, l₃⟩ r ⟨haudit, hl₃⟩
        rcases haudit with ⟨hdb, rfl⟩ | ⟨-, message, rfl⟩
        · obtain rfl : l₃ = l₁ := hl₃
          obtain rfl : db₃ = _ := hdb
          rintro _ ⟨⟩
          exact ⟨row, o, sel, hrow, horg, horg ▸ hsel, rfl⟩
        · rintro _ ⟨⟩
      · obtain ⟨-, rfl⟩ := hupdate
        rintro _ ⟨⟩
    · rintro _ ⟨⟩
  · rintro _ ⟨⟩

end Operations

end EpsDapp
