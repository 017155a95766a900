import EpsDapp.Delivery.Drain
import EpsDapp.Delivery.Status

/-!
# Draining under interference

One worker drains while others write to the same rows: further workers, the demo
routes, and whoever stages a request. `claimNext` answers `null` both when its
`findFirst` matches nothing and when its `updateMany` changes nothing, and `drain`
stops at either. So a drain that returns has seen an empty backlog if and only if
none of its claims comes after another writer has ended the row it found.
-/

set_option autoImplicit false

namespace EpsDapp

open Effect DeliveryProgram

/-- What the programs of the writers return. -/
inductive WriterResult
  | drained (processed : Option ℕ)
  | polled (more : Bool)
  | answered (response : DemoResponse)

/-- What is observed of a writer: the backlog at its last `findFirst`, and whether
it has lost the row found there to another writer. -/
structure Search where
  backlog : Option (List ServiceRequest) := none
  lost : Bool := false

namespace Search

/-- What is observed after a call is answered. -/
def observe (m : Search) : (c : DeliveryCall) → Db → Except Failure c.Resp → Search
  | .serviceRequestFindClaimable, db, _ => { backlog := some db.backlog }
  | .serviceRequestClaim _, _, .ok 0 => { m with lost := true }
  | _, _, _ => m

/-- What is known of an answer and of the search it leads to. -/
def Follows (m : Search) (c : DeliveryCall) (m' : Search) (r : Except Failure c.Resp) : Prop :=
  ∃ db db', faultyAnswers db c db' r ∧ m' = m.observe c db' r

/-- A turn returns `false` when it has found nothing, and when it has lost the
row it found. -/
def Turn : Except Failure Bool → Search → Prop
  | .ok false, m => m.lost = true ∧ m.backlog ≠ some [] ∨ m.lost = false ∧ m.backlog = some []
  | _, m => m.lost = false

/-- How a drain ends: it stops when it has lost a row, and otherwise returns only
when its last `findFirst` has matched nothing. -/
structure Ends (result : Except Failure WriterResult) (m : Search) : Prop where
  lost : m.lost = true → m.backlog ≠ some [] ∧ ∃ n, result = .ok (.drained (some n))
  found : m.lost = false → ∀ n, result = .ok (.drained (some n)) → m.backlog = some []

end Search

/-- If the call is a claim that the database answers, its row is still claimable. -/
def DeliveryCall.InTime (db : Db) : (c : DeliveryCall) → Except Failure c.Resp → Prop
  | .serviceRequestClaim id, .ok _ => ∃ row, db.request? id = some row ∧ row.status.Claimable
  | _, _ => True

/-- The worker or the demo routes, any of which may write beside a drain. -/
inductive WriterEntry (env : WorkerEnv) (web3 : Web3) : DeliveryProgram WriterResult → Prop
  | runOnce : WriterEntry env web3 (WriterResult.polled <$> runOnce env web3)
  | skipPayment (demoMode : Bool) (session : Session) (body : DemoBody) :
      WriterEntry env web3 (WriterResult.answered <$> skipPayment demoMode session body)
  | fulfill (demoMode : Bool) (hedera : HederaEnv) (timestamp : String) (session : Session)
      (body : DemoBody) :
      WriterEntry env web3
        (WriterResult.answered <$> fulfill demoMode hedera timestamp session body)

/-- A drain, the thread `none`, among other writers on one database. Any statement
may throw, any process may die, and the chain and Hedera answer as they like. -/
def drainers (κ : Type) (env : WorkerEnv) (web3 : Web3) :
    Machine deliverySig Failure WriterResult (Option κ) Search Db where
  idle := {}
  observe := Search.observe
  answers _ db c db' r := faultyAnswers db c db' r
  entry
    | none => fun p => ∃ fuel, p = WriterResult.drained <$> drain env web3 fuel
    | some _ => WriterEntry env web3
  environment := Db.Drift

/-- The configurations of a drain among the writers `κ`. -/
abbrev DrainPool (κ : Type) :=
  Pool deliverySig Failure WriterResult (Option κ) Search Db

namespace DrainPool

variable {κ : Type}

/-- No writer is running. -/
def initial (db : Db) : DrainPool κ := ⟨db, fun _ => none⟩

/-- If the drain has returned, its last `findFirst` matched no claimable row. -/
def LeavesNoBacklog (c : DrainPool κ) : Prop :=
  ∀ n m, c.thread none = some ⟨.done (.ok (.drained (some n))), m⟩ → m.backlog = some []

/-- The claims of the drain are in time. -/
def ClaimsInTime (c : DrainPool κ) (l : Label deliverySig Failure (Option κ))
    (_ : DrainPool κ) : Prop :=
  match l with
  | .act none o r => o.InTime c.world r
  | _ => True

end DrainPool

section Search

theorem Search.observe_of_onRow {id : String} {c : DeliveryCall} (hc : c.OnRow id) (m : Search)
    (db : Db) (r : Except Failure c.Resp) : m.observe c db r = m := by
  cases c with
  | serviceRequestFindClaimable => exact hc.elim
  | serviceRequestClaim _ => exact hc.elim
  | _ => rfl

/-- A `findFirst` matches nothing exactly when the backlog is empty. -/
theorem backlog_of_finds {db db' : Db} {candidate : Option ClaimableRequest}
    (h : faultyAnswers db .serviceRequestFindClaimable db' (.ok candidate)) :
    candidate = none ↔ db'.backlog = [] := by
  rcases h with ⟨rfl, first, hfirst, h⟩ | ⟨_, _, _, h⟩
  · obtain rfl := Except.ok.inj h
    cases first with
    | none =>
        refine iff_of_true rfl (List.filter_eq_nil_iff.2 fun r hr => ?_)
        simpa using hfirst r hr
    | some r =>
        refine iff_of_false (by simp) (List.ne_nil_of_mem (a := r) ?_)
        exact Db.mem_backlog_iff.2 ⟨(Db.request?_eq_some_iff _ _ _).2 ⟨hfirst.1, rfl⟩, hfirst.2.1⟩
  · cases h

variable (env : WorkerEnv) (web3 : Web3)

theorem runOnce_turn {m : Search} (hm : m.lost = false) :
    (runOnce env web3).wp Search.Follows (fun m _ => m.lost = false) Search.Turn m := by
  refine wp_runOnce env web3 hm ?_ ?_ ?_
  · rintro _ e ⟨_, _, _, rfl⟩
    rfl
  · rintro _ ⟨db, db', hfinds, rfl⟩
    exact Or.inr ⟨rfl, congrArg some ((backlog_of_finds hfinds).1 rfl)⟩
  · rintro _ row ⟨db, db', hfinds, rfl⟩
    have hbacklog : db'.backlog ≠ [] := fun h => by
      cases (backlog_of_finds hfinds).2 h
    refine ⟨rfl, ?_, ?_, ?_⟩
    · rintro _ e ⟨_, _, _, rfl⟩
      rfl
    · rintro _ ⟨_, _, _, rfl⟩
      exact Or.inl ⟨rfl, fun h => hbacklog (Option.some.inj h)⟩
    · rintro _ n ⟨_, _, _, rfl⟩
      refine Program.wp_post _ ?_ ((attempt_only env web3 { row with status := .inProgress }).wp
        (J := fun m => m = { backlog := some db'.backlog }) ?_ ?_ rfl)
      · rintro (e | _) _ rfl
        · rfl
        · rfl
      · rintro _ c m' r hc rfl ⟨_, db'', _, rfl⟩
        exact Search.observe_of_onRow hc _ db'' r
      · rintro _ c _ rfl
        rfl

theorem Search.ends_of_not_returned {result : Except Failure WriterResult} {m : Search}
    (hm : m.lost = false) (h : ∀ n, result ≠ .ok (.drained (some n))) : Search.Ends result m where
  lost hlost := by
    rw [hm] at hlost
    cases hlost
  found _ n hn := absurd hn (h n)

theorem drainFrom_ends (fuel processed : ℕ) {m : Search} (hm : m.lost = false) :
    (drainFrom env web3 fuel processed).wp Search.Follows (fun m _ => m.lost = false)
      (fun r m => Search.Ends (r.map .drained) m) m := by
  induction fuel generalizing processed m with
  | zero => exact Search.ends_of_not_returned hm fun n h => by cases h
  | succ fuel ih =>
      rw [drainFrom]
      refine Program.wp_seq (runOnce_turn env web3 hm) ?_ ?_
      · rintro (_ | _) m' h
        · rcases h with ⟨hlost, hbacklog⟩ | ⟨hfound, hbacklog⟩
          · refine ⟨fun _ => ⟨hbacklog, processed, rfl⟩, fun hfound => ?_⟩
            rw [hlost] at hfound
            cases hfound
          · refine ⟨fun hlost => ?_, fun _ _ _ => hbacklog⟩
            rw [hfound] at hlost
            cases hlost
        · exact ih (processed + 1) h
      · intro e m' h
        exact Search.ends_of_not_returned h fun n h => by cases h

theorem drain_ends (fuel : ℕ) : (WriterResult.drained <$> drain env web3 fuel).wp Search.Follows
    (fun m _ => m.lost = false) Search.Ends {} :=
  (Program.wp_map _ _ _ _).2 (drainFrom_ends env web3 fuel 0 rfl)

end Search

/-- A drain that loses a row stops there. -/
theorem Search.stops_of_lost {p : DeliveryProgram WriterResult} {m : Search}
    (h : p.wp Search.Follows (fun m _ => m.lost = false) Search.Ends m) (hlost : m.lost = true) :
    m.backlog ≠ some [] ∧ ∃ n, p = .done (.ok (.drained (some n))) := by
  cases p with
  | call o k =>
      rw [show m.lost = false from h.1] at hlost
      cases hlost
  | done r =>
      obtain ⟨hbacklog, n, rfl⟩ := Search.Ends.lost h hlost
      exact ⟨hbacklog, n, rfl⟩

/-- A search that has lost no row loses one by a claim that comes too late. -/
theorem Search.lost_iff {m : Search} (hm : m.lost = false) {db db' : Db} {c : DeliveryCall}
    {r : Except Failure c.Resp} (h : faultyAnswers db c db' r) :
    (m.observe c db' r).lost = true ↔ ¬ c.InTime db r := by
  cases c with
  | serviceRequestFindClaimable => exact iff_of_false (by simp [observe]) (not_not.2 trivial)
  | serviceRequestClaim id =>
      rcases r with e | n
      · exact iff_of_false (by simp [observe, hm]) (not_not.2 trivial)
      · rcases h with ⟨_, h⟩ | ⟨_, _, _, h⟩
        · obtain rfl := Except.ok.inj h
          by_cases hopen : ∃ row, db.request? id = some row ∧ row.status.Claimable
          · obtain ⟨row, hrow, hclaimable⟩ := hopen
            rw [db.claim_of_claimable hrow hclaimable]
            exact iff_of_false (by simp [observe, hm]) (not_not.2 ⟨row, hrow, hclaimable⟩)
          · rw [db.claim_of_not_claimable fun row hrow h => hopen ⟨row, hrow, h⟩]
            exact iff_of_true rfl hopen
        · cases h
  | _ => exact iff_of_false (by simp [observe, hm]) (not_not.2 trivial)

namespace DrainPool

variable {κ : Type}

/-- The drain obeys its protocol. -/
def Inv (c : DrainPool κ) : Prop :=
  Machine.Ends Search.Follows (fun m _ => m.lost = false) Search.Ends none c

theorem inv_initial (db : Db) : (initial db : DrainPool κ).Inv := fun _ h => by cases h

variable {c c' : DrainPool κ}

/-- A drain that has lost no row leaves no backlog. -/
theorem Inv.leavesNoBacklog (hc : c.Inv)
    (h : ∀ t, c.thread none = some t → t.mark.lost = false) : c.LeavesNoBacklog :=
  fun n _ ht => Search.Ends.found (hc _ ht) (h _ ht) n rfl

/-- After a call of the drain it leaves no backlog exactly if the call was in
time. -/
theorem Inv.leavesNoBacklog_act_iff (hc : c.Inv) {o : DeliveryCall}
    {k : Except Failure o.Resp → DeliveryProgram WriterResult} {m : Search}
    (hthread : c.thread none = some ⟨.call o k, m⟩) {db' : Db} {r : Except Failure o.Resp}
    (hanswer : faultyAnswers c.world o db' r)
    (hself : c'.thread none = some ⟨k r, m.observe o db' r⟩) (hc' : c'.Inv) :
    c'.LeavesNoBacklog ↔ o.InTime c.world r := by
  have hm : m.lost = false := (hc _ hthread).1
  rw [← not_not (a := o.InTime c.world r), ← Search.lost_iff hm hanswer, Bool.not_eq_true]
  constructor
  · intro hleaves
    by_contra hlost
    rw [Bool.not_eq_false] at hlost
    obtain ⟨hbacklog, n, hstops⟩ := Search.stops_of_lost (hc' _ hself) hlost
    have hstops : k r = .done (.ok (.drained (some n))) := hstops
    exact hbacklog (hleaves n _ (hself.trans (by rw [hstops])))
  · intro hfound
    refine hc'.leavesNoBacklog fun t ht => ?_
    obtain rfl := Option.some.inj (hself.symm.trans ht)
    exact hfound

variable [DecidableEq κ] {env : WorkerEnv} {web3 : Web3} {l : Label deliverySig Failure (Option κ)}

theorem Inv.step (hc : c.Inv) (h : (drainers κ env web3).Step c l c') : c'.Inv := by
  refine Machine.ends_step ?_ ?_ hc h
  · intro m db o db' r hanswer
    exact ⟨db, db', hanswer, rfl⟩
  · rintro p ⟨fuel, rfl⟩
    exact drain_ends env web3 fuel

/-- A step leaves no backlog exactly if the drain claims in time. -/
theorem Inv.leavesNoBacklog_iff (hc : c.Inv) (hleaves : c.LeavesNoBacklog)
    (h : (drainers κ env web3).Step c l c') : c'.LeavesNoBacklog ↔ ClaimsInTime c l c' := by
  have hc' : c'.Inv := hc.step h
  -- A step of another writer, or the end of the drain, leaves its thread as it was or empty.
  have hother : ∀ {i : Option κ} {t : Option (Thread deliverySig Failure WriterResult Search)}
      {db : Db}, (i = none → t = none) →
      LeavesNoBacklog ⟨db, Function.update c.thread i t⟩ := by
    intro i t db hi n m ht
    rcases Machine.thread_of_update ht with ⟨hnone, hnew⟩ | ⟨_, ht⟩
    · rw [hi hnone.symm] at hnew
      cases hnew
    · exact hleaves n m ht
  cases h with
  | @act i o k m w r hthread hanswer =>
      cases i with
      | none =>
          have hself : Function.update c.thread none (some ⟨k r, m.observe o w r⟩) none =
            some ⟨k r, m.observe o w r⟩ := Function.update_self _ _ _
          exact hc.leavesNoBacklog_act_iff hthread hanswer hself hc'
      | some i => exact iff_of_true (hother (by simp)) trivial
  | finish _ _ => exact iff_of_true (hother fun _ => rfl) trivial
  | crash _ _ => exact iff_of_true (hother fun _ => rfl) trivial
  | @start i p _ _ =>
      cases i with
      | none =>
          refine iff_of_true (hc'.leavesNoBacklog fun t ht => ?_) trivial
          have ht : Function.update c.thread none (some ⟨p, {}⟩) none = some t := ht
          rcases Machine.thread_of_update ht with ⟨_, hnew⟩ | ⟨h, _⟩
          · cases hnew
            rfl
          · exact absurd rfl h
      | some i => exact iff_of_true (hother (by simp)) trivial
  | environment _ => exact iff_of_true hleaves trivial

/-- Throughout a run a drain that has returned leaves no backlog exactly if it
claims each row before another writer ends it. -/
theorem leavesNoBacklog_iff_claimsInTime {db : Db}
    {run : List (Label deliverySig Failure (Option κ) × DrainPool κ)}
    (hrun : IsRun (drainers κ env web3).Step (initial db) run) :
    (∀ c ∈ statesOf (initial db) run, c.LeavesNoBacklog) ↔
      IsRun ClaimsInTime (initial db) run :=
  hrun.forall_iff (fun _ _ _ (hc : Inv _) h => hc.step h)
    (fun _ _ _ hc hleaves h => hc.leavesNoBacklog_iff hleaves h) (inv_initial db)
    fun _ _ h => by cases h

end DrainPool

section Example

/-! ### A drain that loses a request to its filer -/

/-- A later request than `ownedRequest`. -/
def laterRequest : ServiceRequest := exampleFiling.row "sr-2" (some "org-1") 1

/-- Two staged requests, the older one of a filer. -/
def twoStaged : Db where
  serviceRequests := oneOwned.serviceRequests.insert laterRequest rfl

/-- A drain and one other writer. -/
abbrev demoDrainers : Machine deliverySig Failure WriterResult (Option Unit) Search Db :=
  drainers Unit ⟨none, none⟩ asciiWeb3

theorem twoStaged_rows : twoStaged.serviceRequests.rows = [ownedRequest, laterRequest] := rfl

theorem twoStaged_oldest : twoStaged.Oldest (some ownedRequest) := by
  refine ⟨by simp [Table.mem_def, twoStaged_rows], trivial, fun r hr _ => ?_⟩
  rw [Table.mem_def, twoStaged_rows, List.mem_pair] at hr
  rcases hr with rfl | rfl
  · exact lt_irrefl _
  · decide

theorem drain_finds : faultyAnswers twoStaged .serviceRequestFindClaimable twoStaged
    (.ok (some ownedRequest.select)) :=
  Or.inl ⟨rfl, some ownedRequest, twoStaged_oldest, rfl⟩

theorem owner_finds : faultyAnswers twoStaged (.serviceRequestFindOwned "sr-1" "user-1") twoStaged
    (.ok (some ownedRequest)) := Or.inl ⟨rfl, rfl⟩

/-- The filer fulfills the older request between the `findFirst` of the drain and
its claim. The drain returns, and the other request stays in the backlog. -/
theorem not_leavesNoBacklog_of_fulfill :
    ∃ c, Reaches demoDrainers.Step (DrainPool.initial twoStaged) c ∧
      ¬ DrainPool.LeavesNoBacklog c ∧ laterRequest ∈ c.world.backlog := by
  refine ⟨_, .head (.start (i := none) rfl ⟨2, rfl⟩) <|
    .head (.act (i := none) rfl drain_finds) <|
    .head (.start (i := some ()) rfl (.fulfill true demoHedera "2026-01-31T12:00:00.000Z"
      ownerSession (.json (some "sr-1")))) <|
    .head (.act (i := some ()) rfl owner_finds) <|
    .head (.act (i := some ()) rfl (w := twoStaged) (r := .ok ("0.0.1@1", (1 : ℤ))) (Or.inl rfl)) <|
    .head (.act (i := some ()) rfl (w := twoStaged) (r := .ok (none : Option ProofNFT))
      (Or.inl rfl)) <|
    .head (.act (i := some ()) rfl (r := .ok _) (Or.inl ⟨rfl, rfl⟩)) <|
    .head (.act (i := none) rfl (r := .ok _) (Or.inl ⟨rfl, rfl⟩)) <| .refl _ _, ?_, ?_⟩
  · intro h
    have hbacklog := h 0 _ rfl
    cases hbacklog
  · exact Db.mem_backlog_iff.2 ⟨rfl, trivial⟩

/-- A drain that comes after the filer finds nothing left, and returns. -/
theorem leavesNoBacklog_of_fulfilled :
    ∃ run, IsRun demoDrainers.Step (DrainPool.initial oneOwned) run ∧
      (∃ c ∈ statesOf (DrainPool.initial oneOwned) run, ∃ m,
        c.thread none = some ⟨.done (.ok (.drained (some 0))), m⟩) ∧
      ∀ c ∈ statesOf (DrainPool.initial oneOwned) run, DrainPool.LeavesNoBacklog c := by
  have hrun : ∃ run, IsRun demoDrainers.Step (DrainPool.initial oneOwned) run ∧
      (∃ c ∈ statesOf (DrainPool.initial oneOwned) run, ∃ m,
        c.thread none = some ⟨.done (.ok (.drained (some 0))), m⟩) ∧
      IsRun DrainPool.ClaimsInTime (DrainPool.initial oneOwned) run := by
    refine ⟨[(_, _), (_, _), (_, _), (_, _), (_, _), (_, _), (_, _)], ⟨
      .start (i := some ()) rfl (.fulfill true demoHedera "2026-01-31T12:00:00.000Z"
        ownerSession (.json (some "sr-1"))),
      .act (i := some ()) rfl (w := oneOwned) (r := .ok _) (Or.inl ⟨rfl, rfl⟩),
      .act (i := some ()) rfl (w := oneOwned) (r := .ok ("0.0.1@1", (1 : ℤ))) (Or.inl rfl),
      .act (i := some ()) rfl (w := oneOwned) (r := .ok (none : Option ProofNFT)) (Or.inl rfl),
      .act (i := some ()) rfl (r := .ok _) (Or.inl ⟨rfl, rfl⟩),
      .start (i := none) rfl ⟨1, rfl⟩,
      .act (i := none) rfl (r := .ok none) (Or.inl ⟨rfl, none, ?_, rfl⟩), trivial⟩,
      ⟨_, List.mem_of_getLast? rfl, _, rfl⟩, ?_⟩
    · intro r hr
      obtain rfl := List.mem_singleton.1 hr
      exact fun h => h
    · exact ⟨trivial, trivial, trivial, trivial, trivial, trivial, trivial, trivial⟩
  obtain ⟨run, hrun, hreturns, hclaims⟩ := hrun
  exact ⟨run, hrun, hreturns, (DrainPool.leavesNoBacklog_iff_claimsInTime hrun).2 hclaims⟩

end Example

end EpsDapp
