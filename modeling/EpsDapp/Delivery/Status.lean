import EpsDapp.Delivery.Jobs
import EpsDapp.Delivery.Demo

/-!
# Terminal states

Five writers move the status of a request: the claim, the two writes of an
attempt, and the two demo routes. Only the claim is guarded; the others write by
id what an earlier look at the row has allowed, a claim won or a row found. So
terminal states are absorbing throughout a run exactly if no such write comes
after another writer has ended the request with another status.
-/

set_option autoImplicit false

namespace EpsDapp

open Effect DeliveryProgram

/-- The lifecycle of a request: `STAGED`, `IN_PROGRESS`, then `CONFIRMED` or
`FAILED`, which nothing leaves. -/
def ServiceStatus.MovesTo (s s' : ServiceStatus) : Prop :=
  s' = s ∨ (¬ s.Terminal ∧ s' ≠ .staged)

/-- Every row moves along the lifecycle from `db` to `db'`. -/
def Db.StatusMoves (db db' : Db) : Prop :=
  ∀ id row, db.request? id = some row →
    ∃ row', db'.request? id = some row' ∧ row.status.MovesTo row'.status

/-- The status a call writes, and the row it writes it to. -/
def DeliveryCall.statusWrite (c : DeliveryCall) (r : Except Failure c.Resp) :
    Option (String × ServiceStatus) :=
  (c.write r).bind fun p => p.2.status.map fun s => (p.1, s)

/-- The database, and every status written so far. -/
structure StatusWorld where
  db : Db
  written : List (String × ServiceStatus)

/-- What a writer knows: nothing, the candidate it has found, the row it has
claimed, or the row its route has found. The last two come with the number of
statuses written before. -/
inductive Writer
  | idle
  | found (row : ClaimableRequest)
  | claimed (row : ClaimableRequest) (since : ℕ)
  | checked (row : ServiceRequest) (since : ℕ)

namespace Writer

/-- What a writer knows after a call is answered. -/
def observe : Writer → (c : DeliveryCall) → StatusWorld → Except Failure c.Resp → Writer
  | _, .serviceRequestFindClaimable, _, .ok (some row) => .found row
  | .found row, .serviceRequestClaim _, w, .ok (_ + 1) =>
      .claimed { row with status := .inProgress } w.written.length
  | _, .serviceRequestFindOwned _ _, w, .ok (some row) => .checked row w.written.length
  | m, _, _, _ => m

/-- The writer has looked at the row `id` when `since` statuses had been written,
and found it open. -/
def Checked : Writer → String → ℕ → Prop
  | claimed row n, id, since => row.id = id ∧ n = since
  | checked row n, id, since => row.id = id ∧ n = since ∧ ¬ row.status.Terminal
  | _, _, _ => False

/-- What a writer may call: the calls of a worker, or those of a demo route. -/
def Allows : Writer → DeliveryCall → Prop
  | idle, .serviceRequestFindClaimable => True
  | idle, .serviceRequestFindOwned _ _ => True
  | found row, .serviceRequestClaim id => id = row.id
  | claimed row _, c => c.OnRow row.id
  | checked row _, .serviceRequestUpdate id data => id = row.id ∧ ¬ row.status.Terminal ∧
      (data.status = some .inProgress ∨ data.status = some .confirmed)
  | checked _ _, .topicMessageSubmit _ => True
  | checked _ _, .mintAndTransferProofNFT _ => True
  | _, _ => False

/-- What is known of an answer and of the writer it leads to. -/
def Follows (m : Writer) (c : DeliveryCall) (m' : Writer) (r : Except Failure c.Resp) : Prop :=
  ∃ w, m' = m.observe c w r

end Writer

/-- The worker or the demo routes, any of which a thread may run. -/
inductive StatusEntry (env : WorkerEnv) (web3 : Web3) :
    DeliveryProgram (Bool ⊕ DemoResponse) → Prop
  | runOnce : StatusEntry env web3 (Sum.inl <$> runOnce env web3)
  | skipPayment (demoMode : Bool) (session : Session) (body : DemoBody) :
      StatusEntry env web3 (Sum.inr <$> skipPayment demoMode session body)
  | fulfill (demoMode : Bool) (hedera : HederaEnv) (timestamp : String) (session : Session)
      (body : DemoBody) :
      StatusEntry env web3 (Sum.inr <$> fulfill demoMode hedera timestamp session body)

/-- Any number of workers and users on one database. Any statement may throw, any
process may die, and the chain and Hedera answer as they like. -/
def writers (ι : Type) (env : WorkerEnv) (web3 : Web3) :
    Machine deliverySig Failure (Bool ⊕ DemoResponse) ι Writer StatusWorld where
  idle := .idle
  observe := Writer.observe
  answers _ w c w' r := faultyAnswers w.db c w'.db r ∧
    w'.written = w.written ++ (c.statusWrite r).toList
  entry _ := StatusEntry env web3
  environment w w' := w.db.Drift w'.db ∧ w'.written = w.written

/-- The configurations of the writers `ι`. -/
abbrev WriterPool (ι : Type) :=
  Pool deliverySig Failure (Bool ⊕ DemoResponse) ι Writer StatusWorld

/-- No writer is running, and nothing has been written. -/
def WriterPool.initial {ι : Type} (db : Db) : WriterPool ι := ⟨⟨db, []⟩, fun _ => none⟩

/-- Every row moves along the lifecycle in the step. -/
def MovesAlong {ι : Type} (c : WriterPool ι) (_ : Label deliverySig Failure ι)
    (c' : WriterPool ι) : Prop :=
  c.world.db.StatusMoves c'.world.db

/-- A status that is written on an earlier look at the row is the only terminal
one that the row has been given since. -/
def Undisturbed {ι : Type} (c : WriterPool ι) (l : Label deliverySig Failure ι)
    (_ : WriterPool ι) : Prop :=
  match l with
  | .act i o r => ∀ t id s since, c.thread i = some t → t.mark.Checked id since →
      o.statusWrite r = some (id, s) →
      ∀ s', (id, s') ∈ c.world.written.drop since → s'.Terminal → s' = s
  | _ => True

/-- As long as no status has been written none is disturbed. -/
theorem undisturbed_of_nil {ι : Type} {c c' : WriterPool ι} {l : Label deliverySig Failure ι}
    (h : c.world.written = []) : Undisturbed c l c' := by
  cases l with
  | act i o r =>
      intro t id s since _ _ _ s' hs'
      simp [h] at hs'
  | _ => trivial

section Conform

theorem statusWrite_eq_some_iff {c : DeliveryCall} {r : Except Failure c.Resp} {id : String}
    {s : ServiceStatus} : c.statusWrite r = some (id, s) ↔
      ∃ u, c.write r = some (id, u) ∧ u.status = some s := by
  simp [DeliveryCall.statusWrite, Option.bind_eq_some_iff]

theorem Writer.observe_claimed {row : ClaimableRequest} {since : ℕ} {c : DeliveryCall}
    (hc : c.OnRow row.id) (w : StatusWorld) (r : Except Failure c.Resp) :
    (Writer.claimed row since).observe c w r = .claimed row since := by
  cases c with
  | serviceRequestFindClaimable => exact hc.elim
  | serviceRequestFindOwned id userId => exact hc.elim
  | _ => rfl

/-- A turn of the worker obeys the protocol. -/
theorem runOnce_follows (env : WorkerEnv) (web3 : Web3) :
    Machine.Conforms Writer.Follows Writer.Allows (runOnce env web3) .idle := by
  refine wp_runOnce env web3 trivial (fun _ _ _ => trivial) (fun _ _ => trivial) ?_
  rintro _ row ⟨_, rfl⟩
  refine ⟨rfl, fun _ _ _ => trivial, fun _ _ => trivial, ?_⟩
  rintro _ n ⟨w, rfl⟩
  refine Program.wp_post _ (fun _ _ _ => trivial)
    ((attempt_only env web3 { row with status := .inProgress }).wp
      (J := fun m => m = .claimed { row with status := .inProgress } w.written.length) ?_ ?_ rfl)
  · rintro _ c m' r hc rfl ⟨w', rfl⟩
    exact Writer.observe_claimed hc w' r
  · rintro _ c hc rfl
    exact hc

theorem demoRoute_follows {demoMode : Bool} {session : Session} {body : DemoBody}
    {handler : String → String → DeliveryProgram DemoResponse}
    (h : ∀ id userId, Machine.Conforms Writer.Follows Writer.Allows (handler id userId) .idle) :
    Machine.Conforms Writer.Follows Writer.Allows (demoRoute demoMode session body handler)
      .idle := by
  rw [demoRoute]
  split
  · split
    · trivial
    · trivial
    · split
      · trivial
      · split
        · trivial
        · exact h _ _
  · trivial

/-- What a route does after its `findFirst`, for a row that is found. -/
theorem findOwned_follows {id userId : String}
    {k : Option ServiceRequest → DeliveryProgram DemoResponse}
    (hnone : Machine.Conforms Writer.Follows Writer.Allows (k none) .idle)
    (hsome : ∀ row since, Machine.Conforms Writer.Follows Writer.Allows (k (some row))
      (.checked row since)) :
    Machine.Conforms Writer.Follows Writer.Allows (findOwned id userId >>= k) .idle := by
  refine (Program.wp_bind _ _ _ _).2 ((Program.wp_perform _ _ _).2 ⟨trivial, ?_⟩)
  rintro _ r ⟨w, rfl⟩
  rcases r with e | _ | row
  · trivial
  · exact hnone
  · exact hsome row w.written.length

theorem skipPayment_follows (demoMode : Bool) (session : Session) (body : DemoBody) :
    Machine.Conforms Writer.Follows Writer.Allows (skipPayment demoMode session body) .idle := by
  refine demoRoute_follows fun id userId => findOwned_follows trivial fun row since => ?_
  show Program.wp _ _ (ite _ _ _) _ _
  split
  · trivial
  · rename_i hstaged
    have hstaged : row.status = .staged := not_not.1 hstaged
    refine (Program.wp_bind _ _ _ _).2 ((Program.wp_perform _ _ _).2 ⟨⟨rfl, ?_, Or.inl rfl⟩, ?_⟩)
    · simp [hstaged, ServiceStatus.Terminal]
    · rintro _ (e | updated) _
      · trivial
      · trivial

/-- The calls of the Hedera half of `fulfill`. -/
theorem fulfillProof_only (env : HederaEnv) (timestamp topicId : String) {row : ServiceRequest}
    (hopen : ¬ row.status.Terminal) (since : ℕ) :
    (fulfillProof env timestamp topicId row).Only (Writer.checked row since).Allows := by
  have hcaught : ∀ {c : DeliveryCall}, (Writer.checked row since).Allows c →
      Program.Only (Writer.checked row since).Allows
        (tryCatch (Except.ok <$> Program.perform (S := deliverySig) c)
          fun e => pure (Except.error (ε := Failure) e)) :=
    fun hc => Program.only_tryCatch (Program.only_map _ ((Program.only_perform _).2 hc))
      fun _ => Program.only_pure _
  rw [fulfillProof]
  split
  · exact Program.only_throw _
  · refine Program.only_bind (hcaught (c := .topicMessageSubmit row.id) trivial)
      fun submitted => ?_
    split
    · exact Program.only_pure _
    · refine Program.only_bind (hcaught (c := .mintAndTransferProofNFT row.id) trivial)
        fun minted => ?_
      refine Program.only_bind ((Program.only_perform _).2 ⟨rfl, hopen, Or.inr rfl⟩) fun _ => ?_
      exact Program.only_pure _

theorem Writer.observe_checked {row : ServiceRequest} {since : ℕ} {c : DeliveryCall}
    (hc : (Writer.checked row since).Allows c) (w : StatusWorld) (r : Except Failure c.Resp) :
    (Writer.checked row since).observe c w r = .checked row since := by
  cases c with
  | serviceRequestFindClaimable => exact hc.elim
  | serviceRequestFindOwned id userId => exact hc.elim
  | _ => rfl

theorem fulfill_follows (demoMode : Bool) (hedera : HederaEnv) (timestamp : String)
    (session : Session) (body : DemoBody) :
    Machine.Conforms Writer.Follows Writer.Allows
      (fulfill demoMode hedera timestamp session body) .idle := by
  refine demoRoute_follows fun id userId => findOwned_follows trivial fun row since => ?_
  have hproof : ∀ topicId, ¬ row.status.Terminal → Machine.Conforms Writer.Follows Writer.Allows
      (fulfillProof hedera timestamp topicId row) (.checked row since) := by
    intro topicId hopen
    refine Program.wp_post _ (fun _ _ _ => trivial)
      ((fulfillProof_only hedera timestamp topicId hopen since).wp
        (J := fun m => m = .checked row since) ?_ ?_ rfl)
    · rintro _ c m' r hc rfl ⟨w, rfl⟩
      exact Writer.observe_checked hc w r
    · rintro _ c hc rfl
      exact hc
  dsimp only
  split
  · trivial
  · trivial
  · rename_i hconfirmed hfailed
    have hopen : ¬ row.status.Terminal := by
      cases hs : row.status with
      | staged => exact fun h => h
      | inProgress => exact fun h => h
      | confirmed => exact absurd hs hconfirmed
      | failed => exact absurd hs hfailed
    split
    · exact hproof _ hopen
    · trivial

theorem statusEntry_follows {env : WorkerEnv} {web3 : Web3}
    {p : DeliveryProgram (Bool ⊕ DemoResponse)} (h : StatusEntry env web3 p) :
    Machine.Conforms Writer.Follows Writer.Allows p .idle := by
  cases h with
  | runOnce => exact (Program.wp_map _ _ _ _).2 (runOnce_follows env web3)
  | skipPayment demoMode session body =>
      exact (Program.wp_map _ _ _ _).2 (skipPayment_follows demoMode session body)
  | fulfill demoMode hedera timestamp session body =>
      exact (Program.wp_map _ _ _ _).2 (fulfill_follows demoMode hedera timestamp session body)

end Conform

section Moves

theorem ServiceStatus.MovesTo.refl (s : ServiceStatus) : s.MovesTo s := Or.inl rfl

theorem Db.Retains.statusMoves {db db' : Db} (h : db.Retains db') : db.StatusMoves db' := by
  intro id row hrow
  obtain ⟨row', hrow', hselect⟩ := h id row hrow
  exact ⟨row', hrow', Or.inl (congrArg ClaimableRequest.status hselect)⟩

/-- The status of a row after a call. -/
theorem status_of_faultyAnswers {db db' : Db} {c : DeliveryCall} {r : Except Failure c.Resp}
    (h : faultyAnswers db c db' r) {id : String} {row : ServiceRequest}
    (hrow : db.request? id = some row) :
    ∃ row', db'.request? id = some row' ∧
      (row'.status = row.status ∧ (∀ s, c.statusWrite r ≠ some (id, s)) ∨
        c.statusWrite r = some (id, row'.status)) := by
  have hafter := request?_of_faultyAnswers h id
  cases hwrite : c.write r with
  | none =>
      rw [hwrite] at hafter
      exact ⟨row, hafter.trans hrow, Or.inl ⟨rfl, by simp [DeliveryCall.statusWrite, hwrite]⟩⟩
  | some p =>
      obtain ⟨i, u⟩ := p
      rw [hwrite] at hafter
      by_cases hi : id = i
      · subst hi
        refine ⟨u.apply row, by rw [hafter]; simp [hrow], ?_⟩
        cases hs : u.status with
        | none => simp [DeliveryCall.statusWrite, hwrite, hs]
        | some s => simp [DeliveryCall.statusWrite, hwrite, hs]
      · refine ⟨row, by rw [hafter]; simp [hi, hrow], Or.inl ⟨rfl, ?_⟩⟩
        simp [DeliveryCall.statusWrite, hwrite, Ne.symm hi]

/-- A writer that may write a status has claimed the row, or has looked at it. -/
theorem Writer.Allows.statusWrite {m : Writer} {c : DeliveryCall} (hc : m.Allows c)
    {r : Except Failure c.Resp} {id : String} {s : ServiceStatus}
    (h : c.statusWrite r = some (id, s)) :
    s ≠ .staged ∧ (c.Wins r id ∨ ∃ since, m.Checked id since) := by
  obtain ⟨u, hwrite, hu⟩ := statusWrite_eq_some_iff.1 h
  cases m with
  | idle =>
      cases c with
      | serviceRequestFindClaimable => cases hwrite
      | serviceRequestFindOwned i userId => cases hwrite
      | _ => exact hc.elim
  | found row =>
      cases c with
      | serviceRequestClaim i =>
          rcases r with e | _ | n
          · cases hwrite
          · cases hwrite
          · cases hwrite
            exact ⟨(by rintro rfl; cases hu), Or.inl rfl⟩
      | _ => exact hc.elim
  | claimed row since =>
      have hallows : (Job.held row 0).Allows c := hc
      have hstaged : u.status ≠ some .staged := hallows.write_status hwrite
      refine ⟨(by rintro rfl; exact hstaged hu), Or.inr ⟨since, ?_, rfl⟩⟩
      exact (DeliveryCall.OnRow.write hc hwrite).symm
  | checked row since =>
      cases c with
      | serviceRequestUpdate i data =>
          rcases r with e | updated
          · cases hwrite
          · cases hwrite
            obtain ⟨rfl, hopen, hstatus⟩ := hc
            refine ⟨?_, Or.inr ⟨since, rfl, rfl, hopen⟩⟩
            rcases hstatus with h | h
            · rw [h] at hu
              cases hu
              decide
            · rw [h] at hu
              cases hu
              decide
      | topicMessageSubmit i => cases hwrite
      | mintAndTransferProofNFT i => cases hwrite
      | _ => exact hc.elim

end Moves

/-- What has become of the row `id` since a look at it that found it open, when
`since` statuses had been written: a terminal status it has now has been written
since, and no other one has. -/
structure Tracked (w : StatusWorld) (id : String) (since : ℕ) : Prop where
  past : since ≤ w.written.length
  row : ∃ row, w.db.request? id = some row ∧
    (row.status.Terminal → (id, row.status) ∈ w.written.drop since) ∧
    ∀ s, (id, s) ∈ w.written.drop since → s.Terminal → row.status = s

theorem Tracked.fresh {w : StatusWorld} {id : String} {row : ServiceRequest}
    (hrow : w.db.request? id = some row) (hopen : ¬ row.status.Terminal) :
    Tracked w id w.written.length :=
  ⟨le_rfl, row, hrow, fun h => absurd h hopen, by simp⟩

theorem Tracked.step {w w' : StatusWorld} {id : String} {since : ℕ} {c : DeliveryCall}
    {r : Except Failure c.Resp} (h : Tracked w id since) (hanswer : faultyAnswers w.db c w'.db r)
    (hwritten : w'.written = w.written ++ (c.statusWrite r).toList)
    (hmoves : w.db.StatusMoves w'.db) : Tracked w' id since := by
  obtain ⟨hpast, row, hrow, hnow, hsince⟩ := h
  obtain ⟨row', hrow', hstatus⟩ := status_of_faultyAnswers hanswer hrow
  have hdrop : w'.written.drop since = w.written.drop since ++ (c.statusWrite r).toList := by
    rw [hwritten, List.drop_append_of_le_length hpast]
  refine ⟨by rw [hwritten, List.length_append]; omega, row', hrow', ?_⟩
  rw [hdrop]
  rcases hstatus with ⟨hsame, hother⟩ | hwrite
  · have hmem : ∀ s, (id, s) ∈ w.written.drop since ++ (c.statusWrite r).toList ↔
        (id, s) ∈ w.written.drop since := by
      intro s
      simp [hother s]
    rw [hsame]
    exact ⟨fun hterminal => (hmem _).2 (hnow hterminal),
      fun s hs => hsince s ((hmem s).1 hs)⟩
  · rw [hwrite]
    refine ⟨fun _ => by simp, fun s hs hterminal => ?_⟩
    rcases List.mem_append.1 hs with hs | hs
    · -- The row had the status `s`, and no move leaves it.
      obtain ⟨row'', hrow'', hmove⟩ := hmoves id row hrow
      obtain rfl := Option.some.inj (hrow'.symm.trans hrow'')
      have hs := hsince s hs hterminal
      rcases hmove with heq | ⟨hopen, _⟩
      · exact heq.trans hs
      · exact absurd (hs ▸ hterminal) hopen
    · simpa using (Prod.mk.inj (List.mem_singleton.1 hs)).2.symm

theorem Tracked.drift {w w' : StatusWorld} {id : String} {since : ℕ} (h : Tracked w id since)
    (hdrift : w.db.Drift w'.db) (hwritten : w'.written = w.written) : Tracked w' id since := by
  obtain ⟨hpast, row, hrow, hnow, hsince⟩ := h
  obtain ⟨row', hrow', hselect⟩ := hdrift.retains id row hrow
  have hstatus : row'.status = row.status := congrArg ClaimableRequest.status hselect
  refine ⟨by rwa [hwritten], row', hrow', ?_⟩
  rw [hwritten, hstatus]
  exact ⟨hnow, hsince⟩

/-- Every writer obeys the protocol, and what it has looked at is tracked. -/
structure WriterPool.Inv {ι : Type} (c : WriterPool ι) : Prop where
  conform : Machine.AllConform Writer.Follows Writer.Allows c
  tracked : ∀ i t id since, c.thread i = some t → t.mark.Checked id since →
    Tracked c.world id since

theorem WriterPool.inv_initial {ι : Type} (db : Db) : (WriterPool.initial db : WriterPool ι).Inv where
  conform := fun _ _ h => by cases h
  tracked := fun _ _ _ _ h => by cases h

section Run

variable {ι : Type} [DecidableEq ι] {env : WorkerEnv} {web3 : Web3} {c c' : WriterPool ι}
  {l : Label deliverySig Failure ι}

/-- What a writer has just looked at and found open is tracked from there on. -/
theorem tracked_of_observe {m : Writer} {w w' : StatusWorld} {o : DeliveryCall}
    {r : Except Failure o.Resp} (hallows : m.Allows o) (hanswer : faultyAnswers w.db o w'.db r)
    {id : String} {since : ℕ} (h : (m.observe o w' r).Checked id since) :
    m.Checked id since ∨ Tracked w' id since := by
  cases m with
  | idle =>
      cases o with
      | serviceRequestFindClaimable =>
          rcases r with e | _ | row
          · exact h.elim
          · exact h.elim
          · exact h.elim
      | serviceRequestFindOwned i userId =>
          rcases r with e | _ | row
          · exact h.elim
          · exact h.elim
          · obtain ⟨rfl, rfl, hopen⟩ := h
            right
            rcases hanswer with ⟨hdb, hr⟩ | ⟨_, _, e, hr⟩
            · have hrow := (Option.filter_eq_some_iff.1 (Except.ok.inj hr).symm).1
              obtain rfl := w.db.request?_id hrow
              rw [← hdb] at hrow
              exact Tracked.fresh hrow hopen
            · cases hr
      | _ => exact hallows.elim
  | found row =>
      cases o with
      | serviceRequestClaim i =>
          rcases r with e | _ | n
          · exact h.elim
          · exact h.elim
          · obtain ⟨rfl, rfl⟩ := h
            obtain rfl : i = row.id := hallows
            have hwins : DeliveryCall.Wins (.serviceRequestClaim row.id) (.ok (n + 1)) row.id :=
              rfl
            obtain ⟨row', _, _, hwon⟩ := claimable_of_wins hwins hanswer
            exact Or.inr (Tracked.fresh hwon (by simp [ServiceStatus.Terminal]))
      | _ => exact hallows.elim
  | claimed row n =>
      rw [Writer.observe_claimed hallows] at h
      exact Or.inl h
  | checked row n =>
      rw [Writer.observe_checked hallows] at h
      exact Or.inl h

theorem WriterPool.Inv.step (hc : c.Inv) (h : (writers ι env web3).Step c l c')
    (hmoves : MovesAlong c l c') : WriterPool.Inv c' where
  conform := by
    refine Machine.allConform_step ?_ (fun _ _ => statusEntry_follows) hc.conform h
    intro m w o w' r _
    exact ⟨w', rfl⟩
  tracked := by
    intro j t id since ht hchecked
    cases h with
    | @act i o k m w r hthread hanswer =>
        have hold : Tracked c.world id since → Tracked w id since :=
          fun h => h.step hanswer.1 hanswer.2 hmoves
        rcases Machine.thread_of_update ht with ⟨rfl, hnew⟩ | ⟨_, ht⟩
        · cases hnew
          rcases tracked_of_observe (hc.conform.allowed hthread) hanswer.1 hchecked with h | h
          · exact hold (hc.tracked j _ id since hthread h)
          · exact h
        · exact hold (hc.tracked j t id since ht hchecked)
    | finish _ _ =>
        rcases Machine.thread_of_update ht with ⟨_, hnew⟩ | ⟨_, ht⟩
        · cases hnew
        · exact hc.tracked j t id since ht hchecked
    | crash _ _ =>
        rcases Machine.thread_of_update ht with ⟨_, hnew⟩ | ⟨_, ht⟩
        · cases hnew
        · exact hc.tracked j t id since ht hchecked
    | start _ _ =>
        rcases Machine.thread_of_update ht with ⟨_, hnew⟩ | ⟨_, ht⟩
        · cases hnew
          exact hchecked.elim
        · exact hc.tracked j t id since ht hchecked
    | environment henv =>
        exact (hc.tracked j t id since ht hchecked).drift henv.1 henv.2

/-- A step moves every row along the lifecycle exactly if what it writes on an
earlier look is undisturbed. -/
theorem WriterPool.Inv.movesAlong_iff (hc : c.Inv) (h : (writers ι env web3).Step c l c') :
    MovesAlong c l c' ↔ Undisturbed c l c' := by
  cases h with
  | @act i o k m w r hthread hanswer =>
      have hallows : m.Allows o := hc.conform.allowed hthread
      constructor
      · intro hmoves t id s since ht hchecked hwrite s' hs' hterminal
        obtain ⟨_, row, hrow, _, hsince⟩ := hc.tracked i t id since ht hchecked
        obtain ⟨row', hrow', hmove⟩ := hmoves id row hrow
        obtain ⟨row'', hrow'', hstatus⟩ := status_of_faultyAnswers hanswer.1 hrow
        obtain rfl := Option.some.inj (hrow'.symm.trans hrow'')
        have hwritten : row'.status = s := by
          rcases hstatus with ⟨_, hother⟩ | hstatus
          · exact absurd hwrite (hother s)
          · rw [hwrite] at hstatus
            exact (Prod.mk.inj (Option.some.inj hstatus)).2.symm
        have hnow := hsince s' hs' hterminal
        rcases hmove with heq | ⟨hopen, _⟩
        · rw [← hnow, ← heq, hwritten]
        · exact absurd (hnow ▸ hterminal) hopen
      · intro hundisturbed id row hrow
        obtain ⟨row', hrow', hstatus⟩ := status_of_faultyAnswers hanswer.1 hrow
        refine ⟨row', hrow', ?_⟩
        rcases hstatus with ⟨hsame, _⟩ | hwrite
        · exact Or.inl hsame
        · obtain ⟨hstaged, hwins | ⟨since, hchecked⟩⟩ := hallows.statusWrite hwrite
          · obtain ⟨row₁, hrow₁, hclaimable, _⟩ := claimable_of_wins hwins hanswer.1
            obtain rfl := Option.some.inj (hrow.symm.trans hrow₁)
            exact Or.inr ⟨(ServiceStatus.claimable_iff_not_terminal _).1 hclaimable, hstaged⟩
          · obtain ⟨_, row₁, hrow₁, hnow, _⟩ := hc.tracked i _ id since hthread hchecked
            obtain rfl := Option.some.inj (hrow.symm.trans hrow₁)
            by_cases hterminal : row.status.Terminal
            · exact Or.inl (hundisturbed _ id _ since hthread hchecked hwrite _
                (hnow hterminal) hterminal).symm
            · exact Or.inr ⟨hterminal, hstaged⟩
  | finish _ _ => exact iff_of_true (Db.Retains.refl _).statusMoves trivial
  | crash _ _ => exact iff_of_true (Db.Retains.refl _).statusMoves trivial
  | start _ _ => exact iff_of_true (Db.Retains.refl _).statusMoves trivial
  | environment henv => exact iff_of_true henv.1.retains.statusMoves trivial

/-- Every row moves along the lifecycle throughout a run exactly if every status
that is written on an earlier look at the row is undisturbed. -/
theorem movesAlong_iff_undisturbed {db : Db}
    {run : List (Label deliverySig Failure ι × WriterPool ι)}
    (hrun : IsRun (writers ι env web3).Step (WriterPool.initial db) run) :
    IsRun MovesAlong (WriterPool.initial db) run ↔
      IsRun Undisturbed (WriterPool.initial db) run :=
  hrun.iff_of_step (fun _ _ _ (hc : WriterPool.Inv _) h hmoves => hc.step h hmoves)
    (fun _ _ _ hc h => hc.movesAlong_iff h) (WriterPool.inv_initial db)

end Run

section Example

/-! ### A request that its filer skips the payment of and fulfills -/

/-- The request of a filer, staged. -/
def ownedRequest : ServiceRequest := { stagedRequest with userId := some "user-1" }

/-- The database with that request only. -/
def oneOwned : Db := { serviceRequests := Table.empty.insert ownedRequest rfl }

def ownerSession : Session := ⟨some "user-1", none, false⟩

def demoHedera : HederaEnv := ⟨some "0.0.1", some "302e", some "0.0.2", false, .ok ()⟩

/-- Two processes on the database of that request. -/
abbrev demoWriters : Machine deliverySig Failure (Bool ⊕ DemoResponse) Bool Writer StatusWorld :=
  writers Bool ⟨none, none⟩ asciiWeb3

variable (m : Writer)

theorem demo_finds {w : StatusWorld} {row : ServiceRequest}
    (hrow : (w.db.request? "sr-1").filter (fun row => row.userId == some "user-1") = some row) :
    demoWriters.answers m w (.serviceRequestFindOwned "sr-1" "user-1") w (.ok (some row)) :=
  ⟨Or.inl ⟨rfl, congrArg Except.ok hrow.symm⟩, (List.append_nil _).symm⟩

theorem demo_submits (w : StatusWorld) :
    demoWriters.answers m w (.topicMessageSubmit "sr-1") w (.ok ("0.0.1@1", (1 : ℤ))) :=
  ⟨Or.inl rfl, (List.append_nil _).symm⟩

theorem demo_mints (w : StatusWorld) :
    demoWriters.answers m w (.mintAndTransferProofNFT "sr-1") w (.ok (none : Option ProofNFT)) :=
  ⟨Or.inl rfl, (List.append_nil _).symm⟩

theorem demo_writes {db : Db} {written : List (String × ServiceStatus)} {row : ServiceRequest}
    (hrow : db.request? "sr-1" = some row) (u : ServiceRequestUpdate) {s : ServiceStatus}
    (hs : u.status = some s) : demoWriters.answers m ⟨db, written⟩ (.serviceRequestUpdate "sr-1" u)
    ⟨db.updateRequest "sr-1" u, written ++ [("sr-1", s)]⟩ (.ok (u.apply row)) := by
  refine ⟨Or.inl ?_, ?_⟩
  · simp [DeliveryCall.Exec, hrow]
  · simp [DeliveryCall.statusWrite, DeliveryCall.write, hs]

/-- The payment of a staged request is skipped on a look at the row that precedes
its fulfillment, and the write of it reopens the confirmed request. -/
theorem not_movesAlong_of_skipPayment :
    ¬ ∀ run, IsRun demoWriters.Step (WriterPool.initial oneOwned) run →
      IsRun MovesAlong (WriterPool.initial oneOwned) run := by
  intro h
  have hmoves := h [(_, _), (_, _), (_, _), (_, _), (_, _), (_, _), (_, _), (_, _)] ⟨
    .start (i := true) rfl (.skipPayment true ownerSession (.json (some "sr-1"))),
    .start (i := false) rfl
      (.fulfill true demoHedera "2026-01-31T12:00:00.000Z" ownerSession (.json (some "sr-1"))),
    .act (i := true) rfl (demo_finds _ rfl), .act (i := false) rfl (demo_finds _ rfl),
    .act (i := false) rfl (demo_submits _ _), .act (i := false) rfl (demo_mints _ _),
    .act (i := false) rfl (demo_writes _ rfl _ rfl),
    .act (i := true) rfl (demo_writes _ rfl _ rfl), trivial⟩
  obtain ⟨_, _, _, _, _, _, _, hreopens, _⟩ := hmoves
  obtain ⟨row', hrow', hmove⟩ := hreopens "sr-1" _ rfl
  obtain rfl := Option.some.inj hrow'
  rcases hmove with heq | ⟨hopen, _⟩
  · cases heq
  · exact hopen trivial

/-- A fulfillment by itself moves the request along. -/
theorem movesAlong_of_fulfill :
    ∃ run, IsRun demoWriters.Step (WriterPool.initial oneOwned) run ∧ run.length = 5 ∧
      IsRun MovesAlong (WriterPool.initial oneOwned) run := by
  obtain ⟨run, hrun, hlength, hundisturbed⟩ :
      ∃ run, IsRun demoWriters.Step (WriterPool.initial oneOwned) run ∧ run.length = 5 ∧
        IsRun Undisturbed (WriterPool.initial oneOwned) run := by
    refine ⟨[(_, _), (_, _), (_, _), (_, _), (_, _)], ⟨.start (i := false) rfl
      (.fulfill true demoHedera "2026-01-31T12:00:00.000Z" ownerSession (.json (some "sr-1"))),
      .act (i := false) rfl (demo_finds _ rfl), .act (i := false) rfl (demo_submits _ _),
      .act (i := false) rfl (demo_mints _ _), .act (i := false) rfl (demo_writes _ rfl _ rfl),
      trivial⟩, rfl, trivial, ?_, ?_, ?_, ?_, trivial⟩
    all_goals exact undisturbed_of_nil rfl
  exact ⟨run, hrun, hlength, (movesAlong_iff_undisturbed hrun).2 hundisturbed⟩

end Example

end EpsDapp
