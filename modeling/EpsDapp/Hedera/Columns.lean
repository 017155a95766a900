import EpsDapp.Delivery.Calls
import EpsDapp.Server.Calls
import Mathlib.Logic.Function.Basic

/-!
# Databases that differ in the Hedera columns

`db.withHedera columns` is `db` with other Hedera columns in its requests. No statement
looks at these columns: whatever it does to `db`, it does to `db.withHedera columns`, and
the databases then differ in the Hedera columns only. What it answers differs in them
where it answers a whole row.
-/

set_option autoImplicit false

namespace EpsDapp

/-- The request with other Hedera columns. -/
def ServiceRequest.withHedera (r : ServiceRequest) (columns : HederaColumns) : ServiceRequest :=
  { r with hedera := columns }

namespace Db

/-- The database with other Hedera columns, which are given for each id. -/
def withHedera (db : Db) (columns : String → HederaColumns) : Db :=
  { db with
    serviceRequests := db.serviceRequests.map (fun r => r.withHedera (columns r.id)) fun _ => rfl }

/-- The databases can differ in the Hedera columns only. -/
def SameButHedera (db db' : Db) : Prop := ∃ columns, db' = db.withHedera columns

variable {db db' : Db} {columns : String → HederaColumns}

theorem mem_withHedera_iff {r : ServiceRequest} :
    r ∈ (db.withHedera columns).serviceRequests ↔
      ∃ r₀ ∈ db.serviceRequests, r₀.withHedera (columns r₀.id) = r :=
  db.serviceRequests.mem_map_iff (fun r => r.withHedera (columns r.id)) (fun _ => rfl) r

theorem request?_withHedera (id : String) : (db.withHedera columns).request? id =
    (db.request? id).map fun r => r.withHedera (columns r.id) :=
  db.serviceRequests.get?_map (fun r => r.withHedera (columns r.id)) (fun _ => rfl) id

theorem request?_withHedera_eq_none_iff (id : String) :
    (db.withHedera columns).request? id = none ↔ db.request? id = none := by
  rw [request?_withHedera, Option.map_eq_none_iff]

theorem withHedera_withHedera (columns columns' : String → HederaColumns) :
    (db.withHedera columns).withHedera columns' = db.withHedera columns' := by
  refine congrArg (fun t => { db with serviceRequests := t }) (Table.ext_rows ?_)
  exact List.map_map ..

/-- An update is made to the row with its Hedera columns. -/
theorem updateRequest_withHedera (id : String) (u : ServiceRequestUpdate) :
    (db.withHedera columns).updateRequest id u = (db.updateRequest id u).withHedera
      (Function.update columns id (u.hedera.apply (columns id))) := by
  refine congrArg (fun t => { db with serviceRequests := t }) (Table.ext_rows ?_)
  refine (List.map_map ..).trans (Eq.trans ?_ (List.map_map ..).symm)
  refine List.map_congr_left fun r _ => ?_
  by_cases hid : r.id = id
  · subst hid
    simp [ServiceRequest.withHedera, ServiceRequestUpdate.apply]
  · simp [ServiceRequest.withHedera, hid]

/-- A row is added with its Hedera columns. -/
theorem insertRequest_withHedera (columns : String → HederaColumns) (r : ServiceRequest) (h : db.request? r.id = none) :
    (db.withHedera columns).insertRequest r ((request?_withHedera_eq_none_iff r.id).2 h) =
      (db.insertRequest r h).withHedera (Function.update columns r.id r.hedera) := by
  refine congrArg (fun t => { db with serviceRequests := t }) (Table.ext_rows ?_)
  refine Eq.trans ?_ (List.map_append ..).symm
  refine congrArg₂ (· ++ ·) (List.map_congr_left fun r' hr' => ?_) ?_
  · have hne : r'.id ≠ r.id := (db.serviceRequests.get?_eq_none_iff r.id).1 h r' hr'
    rw [Function.update_of_ne hne]
  · rw [List.map_singleton, Function.update_self]
    rfl

namespace SameButHedera

theorem refl (db : Db) : db.SameButHedera db := by
  refine ⟨fun id => ((db.request? id).map ServiceRequest.hedera).getD {}, ?_⟩
  refine congrArg (fun t => { db with serviceRequests := t }) (Table.ext_rows ?_)
  refine (List.map_id' _).symm.trans (List.map_congr_left fun r hr => ?_)
  have hrow : db.request? r.id = some r := db.serviceRequests.get?_key_eq hr
  have hcolumns : ((db.request? r.id).map ServiceRequest.hedera).getD {} = r.hedera := by
    rw [hrow]
    rfl
  exact congrArg r.withHedera hcolumns.symm

/-- The Hedera columns of one side are written. -/
theorem hedera_left (h : db.SameButHedera db') (id : String) (u : HederaUpdate) :
    (db.updateRequest id { hedera := u }).SameButHedera db' := by
  obtain ⟨columns, rfl⟩ := h
  refine ⟨columns, congrArg (fun t => { db with serviceRequests := t }) (Table.ext_rows ?_)⟩
  refine Eq.trans ?_ (List.map_map ..).symm
  refine List.map_congr_left fun r _ => ?_
  by_cases hid : r.id = id
  · simp [ServiceRequest.withHedera, ServiceRequestUpdate.apply, hid]
  · simp [hid]

theorem hedera_right (h : db.SameButHedera db') (id : String) (u : HederaUpdate) :
    db.SameButHedera (db'.updateRequest id { hedera := u }) := by
  obtain ⟨columns, rfl⟩ := h
  obtain ⟨columns', h'⟩ := hedera_left (refl db) id u
  rw [updateRequest_withHedera, ← withHedera_withHedera columns' _, ← h']
  exact ⟨_, rfl⟩

end SameButHedera

theorem oldest_withHedera {candidate : Option ServiceRequest} (h : db.Oldest candidate) :
    (db.withHedera columns).Oldest (candidate.map fun r => r.withHedera (columns r.id)) := by
  cases candidate with
  | none =>
      intro r hr
      obtain ⟨r₀, hr₀, rfl⟩ := mem_withHedera_iff.1 hr
      exact h r₀ hr₀
  | some r =>
      obtain ⟨hr, hclaimable, hfirst⟩ := h
      refine ⟨mem_withHedera_iff.2 ⟨r, hr, rfl⟩, hclaimable, fun r' hr' hclaimable' => ?_⟩
      obtain ⟨r₀, hr₀, rfl⟩ := mem_withHedera_iff.1 hr'
      exact hfirst r₀ hr₀ hclaimable'

theorem tokenFree_withHedera_iff (token : Option String) :
    (db.withHedera columns).TokenFree token ↔ db.TokenFree token := by
  refine or_congr_right ⟨fun h r hr => ?_, fun h r hr => ?_⟩
  · exact h (r.withHedera (columns r.id)) (mem_withHedera_iff.2 ⟨r, hr, rfl⟩)
  · obtain ⟨r₀, hr₀, rfl⟩ := mem_withHedera_iff.1 hr
    exact h r₀ hr₀

theorem updateSubscriptionWhere_withHedera (id : String) (guard : Subscription → Prop)
    [DecidablePred guard] (u : SubscriptionUpdate) :
    (db.withHedera columns).updateSubscriptionWhere id guard u =
      ((db.updateSubscriptionWhere id guard u).1.withHedera columns,
        (db.updateSubscriptionWhere id guard u).2) := by
  have hsub : (db.withHedera columns).subscription? id = db.subscription? id := rfl
  rw [updateSubscriptionWhere, updateSubscriptionWhere, hsub]
  split
  · split
    · rfl
    · rfl
  · rfl

theorem credit_withHedera (sel : Option Subscription) : (db.withHedera columns).credit sel =
    ((db.credit sel).1.withHedera columns, (db.credit sel).2) := by
  cases sel with
  | none => rfl
  | some s => simp only [credit, updateSubscriptionWhere_withHedera]

/-- A claim does not look at the Hedera columns. -/
theorem claim_withHedera (id : String) : ∃ columns', (db.withHedera columns).claim id =
    ((db.claim id).1.withHedera columns', (db.claim id).2) := by
  have hrow : (db.withHedera columns).request? id =
      (db.request? id).map fun r => r.withHedera (columns r.id) := request?_withHedera id
  rw [claim, claim, hrow]
  cases db.request? id with
  | none => exact ⟨columns, rfl⟩
  | some row =>
      have hstatus : (row.withHedera (columns row.id)).status = row.status := rfl
      simp only [Option.map_some, hstatus]
      split
      · exact ⟨_, Prod.ext (updateRequest_withHedera id _) rfl⟩
      · exact ⟨columns, rfl⟩

end Db

/-- The failure transaction does not look at the Hedera columns. -/
theorem failServiceRequest_withHedera {db db' : Db} {input : FailServiceRequestInput}
    {r : Except Failure Bool} (columns : String → HederaColumns)
    (h : (failServiceRequest input).RunsAtomically serverAnswers db db' r) :
    ∃ columns', (failServiceRequest input).RunsAtomically serverAnswers (db.withHedera columns)
      (db'.withHedera columns') r := by
  have hrow : ∀ {row}, db.request? input.serviceRequestId = some row →
      (db.withHedera columns).request? input.serviceRequestId =
        some (row.withHedera (columns row.id)) := fun h => by
    rw [Db.request?_withHedera, h, Option.map_some]
  simp only [failServiceRequest_runsAtomically_iff] at h ⊢
  rcases h with ⟨row, o, sel, hreason, hsome, horg, hsel, rfl, rfl⟩ | ⟨rfl, hreason, hnone, rfl⟩ |
    ⟨rfl, hreason, ⟨row, hsome⟩, horg, rfl⟩ | ⟨rfl, hreason, rfl⟩
  · obtain ⟨columns', hcommit⟩ : ∃ columns', input.commit (db.withHedera columns) sel =
        ((input.commit db sel).1.withHedera columns', (input.commit db sel).2) := by
      simp only [FailServiceRequestInput.commit, Db.updateRequest_withHedera,
        Db.credit_withHedera]
      exact ⟨_, rfl⟩
    refine ⟨columns', Or.inl ⟨_, o, sel, hreason, hrow hsome, horg, hsel, ?_, ?_⟩⟩
    · rw [hcommit]
    · rw [hcommit]
  · refine ⟨columns, Or.inr (Or.inl ⟨rfl, hreason, ?_, rfl⟩)⟩
    rw [Db.request?_withHedera, hnone, Option.map_none]
  · exact ⟨columns, Or.inr (Or.inr (Or.inl ⟨rfl, hreason, ⟨_, hrow hsome⟩, horg, rfl⟩))⟩
  · exact ⟨columns, Or.inr (Or.inr (Or.inr ⟨rfl, hreason, rfl⟩))⟩

/-- The meter does not look at the Hedera columns. -/
theorem QuotaCall.Exec.withHedera {db db' : Db} {c : QuotaCall} {r : Except Failure c.Resp}
    (h : c.Exec db db' r) (columns : String → HederaColumns) :
    c.Exec (db.withHedera columns) (db'.withHedera columns) r := by
  cases c with
  | now => exact ⟨congrArg (·.withHedera columns) h.1, h.2⟩
  | subscriptionFindFirst q => exact ⟨congrArg (·.withHedera columns) h.1, h.2⟩
  | subscriptionUpdate id data =>
      have hsub : (db.withHedera columns).subscription? id = db.subscription? id := rfl
      simp only [QuotaCall.Exec, hsub] at h ⊢
      split at h
      · obtain ⟨rfl, rfl⟩ := h
        exact ⟨rfl, rfl⟩
      · obtain ⟨rfl, rfl⟩ := h
        exact ⟨rfl, rfl⟩
  | subscriptionIncrement id limit =>
      obtain ⟨rfl, rfl⟩ := Prod.mk.inj h
      exact (congrArg (fun p : Db × ℕ => (p.1, Except.ok p.2))
        (Db.updateSubscriptionWhere_withHedera _ _ _)).symm
  | subscriptionDecrement id =>
      obtain ⟨rfl, rfl⟩ := Prod.mk.inj h
      exact (congrArg (fun p : Db × ℕ => (p.1, Except.ok p.2))
        (Db.updateSubscriptionWhere_withHedera _ _ _)).symm

/-- No statement of the server looks at the Hedera columns. -/
theorem ServerCall.Exec.withHedera {db db' : Db} {c : ServerCall} {r : Except Failure c.Resp}
    (h : c.Exec db db' r) (columns : String → HederaColumns) :
    ∃ columns', c.Exec (db.withHedera columns) (db'.withHedera columns') r := by
  cases c with
  | quota c => exact ⟨columns, QuotaCall.Exec.withHedera h columns⟩
  | rateLimit _ | randomBytes _ | randomUUID | resolveENS _ | getAgentENSName =>
      exact ⟨columns, congrArg (·.withHedera columns) h.1, h.2⟩
  | putObject _ _ | recordOnHedera _ =>
      obtain rfl : db' = db := h
      exact ⟨columns, rfl⟩
  | organizationUpsert clerkOrgId =>
      rcases h with ⟨org, horg, hid, rfl, rfl⟩ | ⟨hnone, id, createdAt, hfree, rfl, rfl⟩
      · exact ⟨columns, Or.inl ⟨org, horg, hid, rfl, rfl⟩⟩
      · exact ⟨columns, Or.inr ⟨hnone, id, createdAt, hfree, rfl, rfl⟩⟩
  | subscriptionCreate data =>
      obtain ⟨id, hfree, rfl, rfl⟩ := h
      exact ⟨columns, id, hfree, rfl, rfl⟩
  | subscriptionUpsert id create =>
      obtain ⟨rfl, ⟨s, hs, rfl⟩ | ⟨hfree, rfl⟩⟩ := h
      · exact ⟨columns, rfl, Or.inl ⟨s, hs, rfl⟩⟩
      · exact ⟨columns, rfl, Or.inr ⟨hfree, rfl⟩⟩
  | serviceRequestCreate data =>
      rcases h with ⟨htoken, id, orgId, createdAt, hfree, horg, rfl, rfl⟩ | ⟨rfl, horg, rfl⟩ |
        ⟨rfl, htoken, rfl⟩
      · have hinsert := Db.insertRequest_withHedera columns (data.row id orgId createdAt) hfree
        exact ⟨_, Or.inl ⟨(Db.tokenFree_withHedera_iff _).2 htoken, id, orgId, createdAt,
          (Db.request?_withHedera_eq_none_iff id).2 hfree, horg, hinsert.symm, rfl⟩⟩
      · exact ⟨columns, Or.inr (Or.inl ⟨rfl, horg, rfl⟩)⟩
      · exact ⟨columns, Or.inr (Or.inr ⟨rfl, mt (Db.tokenFree_withHedera_iff _).1 htoken, rfl⟩)⟩
  | serviceRequestUpdate id data =>
      simp only [ServerCall.Exec, Db.request?_withHedera] at h ⊢
      cases hrow : db.request? id with
      | some row =>
          simp only [hrow] at h
          obtain ⟨rfl, rfl⟩ := h
          exact ⟨_, (Db.updateRequest_withHedera id data).symm, rfl⟩
      | none =>
          simp only [hrow] at h
          obtain ⟨rfl, rfl⟩ := h
          exact ⟨columns, rfl, rfl⟩
  | auditLogCreate data =>
      obtain ⟨rfl, rfl⟩ := h
      exact ⟨columns, rfl, rfl⟩
  | webhookEventCreate eventId =>
      rcases h with ⟨processedAt, hfree, rfl, rfl⟩ | ⟨hevent, rfl, rfl⟩
      · exact ⟨columns, Or.inl ⟨processedAt, hfree, rfl, rfl⟩⟩
      · exact ⟨columns, Or.inr ⟨hevent, rfl, rfl⟩⟩

/-- What a call answers, less the Hedera columns of the rows. -/
def DeliveryCall.visible : (c : DeliveryCall) → Except Failure c.Resp → Except Failure c.Resp
  | serviceRequestUpdate _ _, r => r.map fun row => row.withHedera {}
  | serviceRequestFindOwned _ _, r => r.map (Option.map fun row => row.withHedera {})
  | _, r => r

/-- No statement of a delivery looks at the Hedera columns. -/
theorem faultyAnswers_withHedera {db db' : Db} {c : DeliveryCall} {r : Except Failure c.Resp}
    (h : faultyAnswers db c db' r) (columns : String → HederaColumns) :
    ∃ columns' r', faultyAnswers (db.withHedera columns) c (db'.withHedera columns') r' ∧
      c.visible r' = c.visible r := by
  rcases h with h | ⟨hc, rfl, e, rfl⟩
  swap
  · exact ⟨columns, .error e, Or.inr ⟨hc, rfl, e, rfl⟩, rfl⟩
  cases c with
  | serviceRequestFindClaimable =>
      obtain ⟨rfl, candidate, holdest, rfl⟩ := h
      refine ⟨columns, _, Or.inl ⟨rfl, _, Db.oldest_withHedera holdest, rfl⟩, ?_⟩
      cases candidate with
      | none => rfl
      | some r => rfl
  | serviceRequestClaim id =>
      obtain ⟨rfl, rfl⟩ := h
      have hclaimed : ∃ columns', (db.withHedera columns).claim id = _ := Db.claim_withHedera id
      obtain ⟨columns', hclaim⟩ := hclaimed
      exact ⟨columns', _, Or.inl ⟨(congrArg Prod.fst hclaim).symm,
        (congrArg (fun p => Except.ok p.2) hclaim).symm⟩, rfl⟩
  | serviceRequestUpdate id data =>
      simp only [DeliveryCall.Exec] at h
      cases hrow : db.request? id with
      | some row =>
          simp only [hrow] at h
          obtain ⟨rfl, rfl⟩ := h
          refine ⟨Function.update columns id (data.hedera.apply (columns id)),
            .ok (data.apply (row.withHedera (columns row.id))), Or.inl ?_, rfl⟩
          simp only [DeliveryCall.Exec, Db.request?_withHedera, hrow]
          exact ⟨(Db.updateRequest_withHedera id data).symm, rfl⟩
      | none =>
          simp only [hrow] at h
          obtain ⟨rfl, rfl⟩ := h
          refine ⟨columns, .error .recordNotFound, Or.inl ?_, rfl⟩
          simp only [DeliveryCall.Exec, Db.request?_withHedera, hrow]
          trivial
  | serviceRequestFindOwned id userId =>
      obtain ⟨rfl, rfl⟩ := h
      refine ⟨columns, _, Or.inl ⟨rfl, rfl⟩, ?_⟩
      rw [Db.request?_withHedera]
      cases db'.request? id with
      | none => rfl
      | some row =>
          simp only [DeliveryCall.visible, Except.map, Option.map_some, Option.filter_some,
            ServiceRequest.withHedera]
          split
          · rfl
          · rfl
  | failServiceRequest input =>
      obtain ⟨columns', h'⟩ := failServiceRequest_withHedera columns h
      exact ⟨columns', r, Or.inl h', rfl⟩
  | chain c =>
      obtain rfl : db' = db := h
      exact ⟨columns, r, Or.inl rfl, rfl⟩
  | record recording =>
      obtain ⟨rfl, rfl⟩ := h
      exact ⟨columns, _, Or.inl ⟨rfl, rfl⟩, rfl⟩
  | topicMessageSubmit _ | mintAndTransferProofNFT _ =>
      obtain rfl : db' = db := h
      exact ⟨columns, r, Or.inl rfl, rfl⟩

end EpsDapp
