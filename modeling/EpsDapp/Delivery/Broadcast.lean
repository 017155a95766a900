import EpsDapp.Delivery.Jobs

/-!
# Broadcasts

One worker runs against a chain that answers as it likes: it may reject a
transaction, broadcast it and lose the answer, or die between any two steps. The
signature of a broadcast is written to the row right after it, and a row with a
signature is never sent for again. The window between the two is what is left: a
run broadcasts at most once for each request if the worker never lets go of a
request, by dying or by an error that leaves `runOnce`, while its broadcast is
not yet on record.
-/

set_option autoImplicit false

namespace EpsDapp

open Effect DeliveryProgram

/-- A transaction that was broadcast, and the request it was broadcast for. -/
structure Broadcast where
  request : String
  memo : String
  signature : String
  deriving DecidableEq

/-- The database, and everything broadcast so far. -/
structure DeliveryWorld where
  db : Db
  broadcasts : List Broadcast

/-- The broadcasts for one request. -/
def DeliveryWorld.sent (w : DeliveryWorld) (id : String) : List Broadcast :=
  w.broadcasts.filter fun b => b.request == id

/-- How the world may answer a worker: `sendTransaction` broadcasts for the
request the worker holds, whether or not it then resolves, or it rejects without
a broadcast. -/
def courierAnswers (job : Job) (w : DeliveryWorld) :
    (c : DeliveryCall) → DeliveryWorld → Except Failure c.Resp → Prop
  | .chain (.sendTransaction _ _ memo), w', r => w'.db = w.db ∧
      ((∃ id signature, job.Holds id ∧
          w'.broadcasts = w.broadcasts ++ [⟨id, memo, signature⟩] ∧
          (r = .ok signature ∨ ∃ e, r = .error e)) ∨
        (w'.broadcasts = w.broadcasts ∧ ∃ e, r = .error e))
  | c, w', r => faultyAnswers w.db c w'.db r ∧ w'.broadcasts = w.broadcasts

/-- A move of others: it broadcasts nothing. -/
def OthersMove (w w' : DeliveryWorld) : Prop :=
  w.db.Drift w'.db ∧ w'.broadcasts = w.broadcasts

/-- One worker that may die and be started again, any number of times. -/
def courier (env : WorkerEnv) (web3 : Web3) :
    Machine deliverySig Failure Bool Unit Job DeliveryWorld where
  idle := .idle
  observe job c _ r := job.observe c r
  answers := courierAnswers
  entry _ p := p = runOnce env web3
  environment := OthersMove

/-- The row `id` will not be sent for again: it is terminal, or it has a
signature. -/
def Db.Settled (db : Db) (id : String) : Prop :=
  ∃ row, db.request? id = some row ∧ (row.status.Terminal ∨ row.txSignature ≠ none)

/-- What a worker lets go of is settled: nothing it has broadcast for the request
it holds is off the record. -/
def LetsGoSettled (job : Job) (w : DeliveryWorld) : Prop :=
  ∀ b ∈ w.broadcasts, job.Holds b.request → w.db.Settled b.request

/-- At most one broadcast for each request, each held or settled. -/
structure AtMostOnce (job : Job) (w : DeliveryWorld) : Prop where
  once : ∀ id, (w.sent id).length ≤ 1
  kept : ∀ b ∈ w.broadcasts, job.Holds b.request ∨ w.db.Settled b.request

theorem DeliveryWorld.mem_sent_iff (w : DeliveryWorld) (id : String) (b : Broadcast) :
    b ∈ w.sent id ↔ b ∈ w.broadcasts ∧ b.request = id := by
  simp [sent]

theorem DeliveryWorld.sent_congr {w w' : DeliveryWorld} (h : w'.broadcasts = w.broadcasts)
    (id : String) : w'.sent id = w.sent id := by
  rw [sent, h, sent]

theorem DeliveryWorld.sent_append {w w' : DeliveryWorld} {b : Broadcast}
    (h : w'.broadcasts = w.broadcasts ++ [b]) (id : String) :
    w'.sent id = w.sent id ++ if b.request = id then [b] else [] := by
  by_cases hid : b.request = id
  · simp [sent, h, hid]
  · simp [sent, h, hid]

theorem courierAnswers_of_not_broadcasts {job : Job} {w w' : DeliveryWorld} {c : DeliveryCall}
    {r : Except Failure c.Resp} (hc : ¬ c.Broadcasts) (h : courierAnswers job w c w' r) :
    faultyAnswers w.db c w'.db r ∧ w'.broadcasts = w.broadcasts := by
  cases c with
  | chain c =>
      cases c with
      | sendTransaction _ _ _ => exact absurd trivial hc
      | _ => exact h
  | _ => exact h

theorem Db.Retains.settled {db db' : Db} (h : db.Retains db') {id : String}
    (hsettled : db.Settled id) : db'.Settled id := by
  obtain ⟨row, hrow, hrow'⟩ := hsettled
  obtain ⟨row', hrow'', hselect⟩ := h id row hrow
  have hstatus : row'.status = row.status := congrArg ClaimableRequest.status hselect
  have hsignature : row'.txSignature = row.txSignature :=
    congrArg ClaimableRequest.txSignature hselect
  exact ⟨row', hrow'', by rwa [hstatus, hsignature]⟩

/-- The moves of others, however many, broadcast nothing and retain the rows. -/
theorem othersMove_star {w w' : DeliveryWorld} (h : Relation.ReflTransGen OthersMove w w') :
    w.db.Retains w'.db ∧ w'.broadcasts = w.broadcasts := by
  induction h with
  | refl => exact ⟨Db.Retains.refl _, rfl⟩
  | tail _ hstep ih => exact ⟨ih.1.trans hstep.1.retains, hstep.2.trans ih.2⟩

/-- A settled row that the worker does not hold stays settled. -/
theorem settled_of_faultyAnswers {db db' : Db} {job : Job} {c : DeliveryCall}
    {r : Except Failure c.Resp} (hallows : job.Allows c) (h : faultyAnswers db c db' r)
    {id : String} (hsettled : db.Settled id) (hheld : ¬ job.Holds id) : db'.Settled id := by
  obtain ⟨row, hrow, hrow'⟩ := hsettled
  have hafter := request?_of_faultyAnswers h id
  rcases rows_of_faultyAnswers h with ⟨i, u, row₁, hwrite, hrow₁, hclaimable, _⟩ | ⟨hwrite, _⟩
  · rw [hwrite] at hafter
    by_cases hi : id = i
    · subst hi
      obtain rfl : row = row₁ := Option.some.inj (hrow.symm.trans hrow₁)
      obtain ⟨rfl, rfl⟩ := (hallows.write_cases hwrite).resolve_left hheld
      have hopen : ¬ row.status.Terminal :=
        (ServiceStatus.claimable_iff_not_terminal _).1 (hclaimable id rfl)
      refine ⟨({ status := some .inProgress } : ServiceRequestUpdate).apply row,
        by rw [hafter]; simp [hrow], Or.inr ?_⟩
      simpa using hrow'.resolve_left hopen
    · exact ⟨row, by rw [hafter]; simp [hi, hrow], hrow'⟩
  · rw [hwrite] at hafter
    exact ⟨row, hafter.trans hrow, hrow'⟩

theorem AtMostOnce.quiet {env : WorkerEnv} {web3 : Web3} {job job' : Job}
    {w w' : DeliveryWorld} {c : DeliveryCall} {r : Except Failure c.Resp}
    (h : AtMostOnce job w) (hallows : job.Allows c) (hquiet : ¬ c.Broadcasts)
    (hseen : (courier env web3).seen (job, w) c (job', w') r) :
    AtMostOnce job' w' ∧ w'.broadcasts = w.broadcasts := by
  obtain ⟨w₁, henv, hanswer, hjob⟩ := hseen
  obtain rfl : job' = job.observe c r := hjob
  obtain ⟨hretains, hsame⟩ := othersMove_star henv
  obtain ⟨hfaulty, hsame'⟩ := courierAnswers_of_not_broadcasts hquiet hanswer
  have hbroadcasts : w'.broadcasts = w.broadcasts := hsame'.trans hsame
  refine ⟨⟨fun id => ?_, fun b hb => ?_⟩, hbroadcasts⟩
  · rw [DeliveryWorld.sent_congr hbroadcasts]
    exact h.once id
  · rw [hbroadcasts] at hb
    by_cases hheld : job.Holds b.request
    · exact Or.inl ((Job.holds_observe_iff hallows r b.request).2 (Or.inl hheld))
    · have hsettled := (h.kept b hb).resolve_left hheld
      exact Or.inr (settled_of_faultyAnswers hallows hfaulty (hretains.settled hsettled) hheld)

/-- The worker holds `row`, its broadcasts in order. -/
def Holding (row : ClaimableRequest) (s : Job × DeliveryWorld) : Prop :=
  (∃ reads, s.1 = .held row reads) ∧ AtMostOnce s.1 s.2

/-- The worker holds `row`, for which nothing has been broadcast. -/
def Unsent (row : ClaimableRequest) (s : Job × DeliveryWorld) : Prop :=
  Holding row s ∧ s.2.sent row.id = []

section Attempt

variable {env : WorkerEnv} {web3 : Web3} {row : ClaimableRequest}

theorem Holding.quiet {s s' : Job × DeliveryWorld} {c : DeliveryCall}
    {r : Except Failure c.Resp} (hc : c.Quiet row.id) (h : Holding row s)
    (hseen : (courier env web3).seen s c s' r) :
    Holding row s' ∧ s'.2.broadcasts = s.2.broadcasts := by
  obtain ⟨job, w⟩ := s
  obtain ⟨job', w'⟩ := s'
  obtain ⟨⟨reads, rfl⟩, honce⟩ := h
  have hallows : (Job.held row reads).Allows c := hc.1
  obtain ⟨honce', hsame⟩ := honce.quiet hallows hc.2 hseen
  obtain ⟨_, _, _, hjob⟩ := hseen
  obtain rfl : job' = (Job.held row reads).observe c r := hjob
  exact ⟨⟨Job.observe_held hc.1 r, honce'⟩, hsame⟩

/-- A program that only makes quiet calls on the row keeps holding it. -/
theorem Holding.wp {α : Type} {p : DeliveryProgram α} (hp : p.Only (DeliveryCall.Quiet row.id))
    {s : Job × DeliveryWorld} (h : Holding row s) :
    p.wp (courier env web3).seen (fun s _ => AtMostOnce s.1 s.2) (fun _ s => Holding row s) s :=
  hp.wp (fun _ _ _ _ hc h hseen => (h.quiet hc hseen).1) (fun _ _ _ h => h.2) h

theorem Unsent.wp {α : Type} {p : DeliveryProgram α} (hp : p.Only (DeliveryCall.Quiet row.id))
    {s : Job × DeliveryWorld} (h : Unsent row s) :
    p.wp (courier env web3).seen (fun s _ => AtMostOnce s.1 s.2) (fun _ s => Unsent row s) s := by
  refine hp.wp (fun s c s' r hc h hseen => ?_) (fun _ _ _ h => h.1.2) h
  obtain ⟨hholding, hsame⟩ := h.1.quiet hc hseen
  exact ⟨hholding, (DeliveryWorld.sent_congr hsame row.id).trans h.2⟩

/-- What `sendTransaction` may do, as the worker that holds `row` sees it. -/
theorem send_cases {reads : ℕ} {w w' : DeliveryWorld} {job' : Job} {recipient : PublicKey}
    {lamports : ℕ} {memo : String} {r : Except Failure String}
    (hseen : (courier env web3).seen (.held row reads, w)
      (.chain (.sendTransaction recipient lamports memo)) (job', w') r) :
    job' = .held row reads ∧ w.db.Retains w'.db ∧
      ((∃ signature, w'.broadcasts = w.broadcasts ++ [⟨row.id, memo, signature⟩] ∧
          (r = .ok signature ∨ ∃ e, r = .error e)) ∨
        (w'.broadcasts = w.broadcasts ∧ ∃ e, r = .error e)) := by
  obtain ⟨w₁, henv, ⟨hdb, hanswer⟩, hjob⟩ := hseen
  obtain ⟨hretains, hsame⟩ := othersMove_star henv
  have hdb : w'.db = w₁.db := hdb
  have hsame : w₁.broadcasts = w.broadcasts := hsame
  refine ⟨hjob, hdb ▸ hretains, ?_⟩
  rcases hanswer with ⟨id, signature, hid, hnew, hr⟩ | ⟨hnone, hr⟩
  · obtain rfl : row.id = id := (Job.holds_held_iff row reads id).1 hid
    refine Or.inl ⟨signature, ?_, hr⟩
    rw [← hsame]
    exact hnew
  · exact Or.inr ⟨hnone.trans hsame, hr⟩

/-- The broadcast of a fresh attempt is the first one for its row. -/
theorem Unsent.send {reads : ℕ} {w w' : DeliveryWorld} {job' : Job} {recipient : PublicKey}
    {lamports : ℕ} {memo : String} {r : Except Failure String}
    (honce : AtMostOnce (.held row reads) w) (hunsent : w.sent row.id = [])
    (hseen : (courier env web3).seen (.held row reads, w)
      (.chain (.sendTransaction recipient lamports memo)) (job', w') r) :
    AtMostOnce job' w' := by
  obtain ⟨rfl, hretains, hcases⟩ := send_cases hseen
  have hkept : ∀ b ∈ w.broadcasts,
      (Job.held row reads).Holds b.request ∨ w'.db.Settled b.request :=
    fun b hb => (honce.kept b hb).imp_right hretains.settled
  rcases hcases with ⟨signature, hnew, _⟩ | ⟨hnone, _⟩
  · refine ⟨fun id => ?_, fun b hb => ?_⟩
    · rw [DeliveryWorld.sent_append hnew]
      by_cases hid : row.id = id
      · subst hid
        simp [hunsent]
      · simpa [hid] using honce.once id
    · rw [hnew] at hb
      rcases List.mem_append.1 hb with hb | hb
      · exact hkept b hb
      · rw [List.mem_singleton.1 hb]
        exact Or.inl ⟨row, reads, rfl, rfl⟩
  · refine ⟨fun id => ?_, fun b hb => ?_⟩
    · rw [DeliveryWorld.sent_congr hnone]
      exact honce.once id
    · rw [hnone] at hb
      exact hkept b hb

/-- An attempt keeps its broadcasts in order, a resumed one and a fresh one. -/
theorem attempt_keeps {s : Job × DeliveryWorld} (h : Holding row s)
    (hunsent : row.txSignature = none → s.2.sent row.id = []) :
    (attempt env web3 row).wp (courier env web3).seen (fun s _ => AtMostOnce s.1 s.2)
      (fun _ s => AtMostOnce s.1 s.2) s := by
  have hquiet : ∀ {c}, c.OnRow row.id → ¬ c.Broadcasts →
      (Program.perform (S := deliverySig) (ε := Failure) c).Only (DeliveryCall.Quiet row.id) :=
    fun hc hb => (Program.only_perform _).2 ⟨hc, hb⟩
  -- Once the signature is at hand nothing more is broadcast.
  have hrest : ∀ signature s, Holding row s →
      (confirmAndVerify env (solanaAdapter web3) row signature).wp (courier env web3).seen
        (fun s _ => AtMostOnce s.1 s.2) (fun _ s => Holding row s) s :=
    fun signature s h => h.wp (confirmAndVerify_only env web3 row signature)
  refine Program.wp_catch (R := fun _ s => Holding row s) ?_ (fun _ _ h => h.2) fun e s h =>
    Program.wp_post _ (fun _ _ h => h.2) (h.wp (failRow_only row _))
  rw [processServiceRequest_eq, signatureOf]
  cases hsignature : row.txSignature with
  | some signature =>
      exact Program.wp_seq (h.wp (hquiet (c := .chain .getSolanaAdapter) trivial id))
        (fun _ s h => hrest signature s h) fun _ _ h => h
  | none =>
      refine Program.wp_seq (Unsent.wp (hquiet (c := .chain .getSolanaAdapter) trivial id)
        ⟨h, hunsent hsignature⟩) (fun _ s h => ?_) fun _ _ h => h.1
      refine Program.wp_seq (R := fun _ s => Holding row s) ?_ (hrest · ·) fun _ _ h => h
      refine Program.wp_seq (Unsent.wp (hquiet (c := .chain .getRentExemptMinimum) trivial id) h)
        (fun lamports s h => ?_) fun _ _ h => h.1
      refine Program.wp_seq (R := fun _ s => Holding row s) ?_ (fun signature s h => ?_)
        fun _ _ h => h
      · simp only [solanaAdapter]
        split
        · refine (Program.wp_perform _ _ _).2 ⟨h.1.2, fun s' r hseen => ?_⟩
          obtain ⟨⟨⟨reads, hjob⟩, honce⟩, hunsent⟩ := h
          obtain ⟨job, w⟩ := s
          obtain rfl : job = .held row reads := hjob
          exact ⟨⟨reads, (send_cases hseen).1⟩, Unsent.send honce hunsent hseen⟩
        · exact h.1
      · exact Program.wp_seq (h.wp (hquiet (c := .serviceRequestUpdate row.id _)
          ⟨rfl, Or.inl rfl⟩ id)) (fun _ _ h => h) fun _ _ h => h

end Attempt

/-- A worker that has just claimed a row without a signature has broadcast nothing
for it: the row was claimable, and what is broadcast for it is not its own. -/
theorem unsent_of_found {job : Job} {w w' : DeliveryWorld} {r : ServiceRequest}
    (h : AtMostOnce job w) (hheld : ∀ id, ¬ job.Holds id) (hrow : w.db.request? r.id = some r)
    (hclaimable : r.status.Claimable) (hsame : w'.broadcasts = w.broadcasts)
    (hsignature : r.txSignature = none) : w'.sent r.id = [] := by
  rw [DeliveryWorld.sent_congr hsame]
  refine List.eq_nil_iff_forall_not_mem.2 fun b hb => ?_
  obtain ⟨hb, hid⟩ := (DeliveryWorld.mem_sent_iff _ _ _).1 hb
  obtain ⟨row, hrow', hsettled⟩ := (h.kept b hb).resolve_left (hheld _)
  rw [hid, hrow] at hrow'
  obtain rfl := Option.some.inj hrow'
  rcases hsettled with hterminal | hsigned
  · exact (ServiceStatus.claimable_iff_not_terminal _).1 hclaimable hterminal
  · exact hsigned hsignature

/-- A turn of the worker keeps its broadcasts in order. -/
theorem runOnce_keeps (env : WorkerEnv) (web3 : Web3) {w : DeliveryWorld}
    (h : AtMostOnce .idle w) :
    (courier env web3).Keeps AtMostOnce (runOnce env web3) .idle w := by
  have hfind : ∀ {s' : Job × DeliveryWorld} {r},
      (courier env web3).seen (.idle, w) .serviceRequestFindClaimable s' r →
        AtMostOnce s'.1 s'.2 :=
    fun hseen => (h.quiet (c := .serviceRequestFindClaimable) trivial id hseen).1
  refine wp_runOnce env web3 h (fun _ _ => hfind) (fun _ => hfind) fun s row hseen => ?_
  have hs := hfind hseen
  obtain ⟨job, w'⟩ := s
  obtain ⟨w₁, _, ⟨hanswer, _⟩, hjob⟩ := hseen
  obtain rfl : job = .found row := hjob
  obtain ⟨hdb, r, hrow, hclaimable, rfl⟩ := candidate_of_faultyAnswers hanswer
  have hclaim : ∀ {s'' : Job × DeliveryWorld} {r'},
      (courier env web3).seen (.found r.select, w') (.serviceRequestClaim r.id) s'' r' →
        AtMostOnce s''.1 s''.2 ∧ s''.2.broadcasts = w'.broadcasts :=
    fun hseen => hs.quiet (c := .serviceRequestClaim r.id) rfl id hseen
  refine ⟨hs, fun _ _ h => (hclaim h).1, fun _ h => (hclaim h).1, fun s'' n hseen => ?_⟩
  obtain ⟨honce, hsame⟩ := hclaim hseen
  refine Program.wp_post _ (fun _ _ h => h) (attempt_keeps ⟨⟨0, ?_⟩, honce⟩ fun hsignature => ?_)
  · obtain ⟨_, _, _, hjob⟩ := hseen
    exact hjob
  · refine unsent_of_found hs (fun id => Job.not_holds_found _ id) ?_ hclaimable hsame hsignature
    have hdb : w'.db = w₁.db := hdb
    rw [hdb]
    exact hrow

/-- In every run whose worker lets go of a request only when its broadcast is on
record, each request is broadcast for at most once. -/
theorem at_most_one_broadcast {env : WorkerEnv} {web3 : Web3} {db : Db}
    {c : Pool deliverySig Failure Bool Unit Job DeliveryWorld}
    (h : Reaches ((courier env web3).under (fun _ _ _ _ _ => True) LetsGoSettled).Step
      ⟨⟨db, []⟩, fun _ => none⟩ c) (id : String) :
    (c.world.sent id).length ≤ 1 := by
  have hkeeps : ∃ job, AtMostOnce job c.world := by
    refine Machine.solo_run ?_ ?_ ?_ ⟨fun _ => by simp [DeliveryWorld.sent], ?_⟩ h ()
    · rintro _ p w rfl hw
      exact Program.wp_mono _ (fun _ _ _ _ hseen => (Machine.seen_of_under hseen).1)
        (fun _ _ h => h) (fun _ _ h => h) (runOnce_keeps env web3 hw)
    · rintro job w w' ⟨hdrift, hsame⟩ hw
      refine ⟨fun id => ?_, fun b hb => ?_⟩
      · rw [DeliveryWorld.sent_congr hsame]
        exact hw.once id
      · rw [hsame] at hb
        exact (hw.kept b hb).imp_right hdrift.retains.settled
    · rintro job w ⟨_, hsettled⟩ hw
      refine ⟨hw.once, fun b hb => Or.inr ?_⟩
      exact (hw.kept b hb).elim (hsettled b hb) fun h => h
    · intro b hb
      cases hb
  obtain ⟨job, hjob⟩ := hkeeps
  exact hjob.once id

section Example

/-! ### One request, claimed and sent for -/

variable (sent : List Broadcast)

theorem courier_finds_staged : courierAnswers .idle ⟨oneStaged, sent⟩
    .serviceRequestFindClaimable ⟨oneStaged, sent⟩ (.ok (some stagedRequest.select)) :=
  ⟨Or.inl ⟨rfl, some stagedRequest, oneStaged_oldest, rfl⟩, rfl⟩

theorem courier_claims_staged : courierAnswers .idle ⟨oneStaged, sent⟩
    (.serviceRequestClaim "sr-1") ⟨oneInProgress, sent⟩ (.ok (1 : ℕ)) :=
  ⟨Or.inl ⟨rfl, rfl⟩, rfl⟩

theorem courier_finds_orphan : courierAnswers .idle ⟨oneInProgress, sent⟩
    .serviceRequestFindClaimable ⟨oneInProgress, sent⟩ (.ok (some claimedRequest.select)) :=
  ⟨Or.inl ⟨rfl, some claimedRequest, oneInProgress_oldest, rfl⟩, rfl⟩

theorem courier_claims_orphan : courierAnswers .idle ⟨oneInProgress, sent⟩
    (.serviceRequestClaim "sr-1") ⟨oneInProgress, sent⟩ (.ok (1 : ℕ)) :=
  ⟨Or.inl ⟨rfl, rfl⟩, rfl⟩

theorem courier_builds_adapter (db : Db) : courierAnswers .idle ⟨db, sent⟩
    (.chain .getSolanaAdapter) ⟨db, sent⟩ (.ok ()) :=
  ⟨Or.inl rfl, rfl⟩

theorem courier_reads_rent (db : Db) : courierAnswers .idle ⟨db, sent⟩
    (.chain .getRentExemptMinimum) ⟨db, sent⟩ (.ok (890880 : ℕ)) :=
  ⟨Or.inl rfl, rfl⟩

theorem courier_sends {row : ClaimableRequest} (hrow : row.id = "sr-1")
    (signature : String) : courierAnswers (.held row 0) ⟨oneInProgress, sent⟩
    (.chain (.sendTransaction (List.replicate 32 0) 890880 row.expectedMemo))
    ⟨oneInProgress, sent ++ [⟨"sr-1", row.expectedMemo, signature⟩]⟩ (.ok signature) :=
  ⟨rfl, Or.inl ⟨_, _, ⟨row, 0, rfl, hrow⟩, rfl, Or.inl rfl⟩⟩

end Example

/-- The worker dies after `sendTransaction` has resolved and before the signature
is written; started again, it sends for the same request once more. -/
theorem not_at_most_one_broadcast_after_crash :
    ¬ ∀ c, Reaches (courier ⟨none, none⟩ asciiWeb3).Step ⟨⟨oneStaged, []⟩, fun _ => none⟩ c →
      ∀ id, (c.world.sent id).length ≤ 1 := by
  intro h
  have htwice := h _ (
    .head (.start (i := ()) rfl rfl) <|
    .head (.act (i := ()) rfl (courier_finds_staged _)) <|
    .head (.act (i := ()) rfl (courier_claims_staged _)) <|
    .head (.act (i := ()) rfl (courier_builds_adapter _ _)) <|
    .head (.act (i := ()) rfl (courier_reads_rent _ _)) <|
    .head (.act (i := ()) rfl (courier_sends _ rfl "sig-1")) <|
    .head (.crash (i := ()) rfl trivial) <|
    .head (.start (i := ()) rfl rfl) <|
    .head (.act (i := ()) rfl (courier_finds_orphan _)) <|
    .head (.act (i := ()) rfl (courier_claims_orphan _)) <|
    .head (.act (i := ()) rfl (courier_builds_adapter _ _)) <|
    .head (.act (i := ()) rfl (courier_reads_rent _ _)) <|
    .head (.act (i := ()) rfl (courier_sends _ rfl "sig-2")) <| .refl _ _) "sr-1"
  revert htwice
  decide

/-- A worker that dies once the signature is written has broadcast once. -/
theorem at_most_one_broadcast_after_signature :
    ∃ c, (Reaches ((courier ⟨none, none⟩ asciiWeb3).under (fun _ _ _ _ _ => True)
        LetsGoSettled).Step ⟨⟨oneStaged, []⟩, fun _ => none⟩ c ∧ c.world.sent "sr-1" ≠ []) ∧
      ∀ id, (c.world.sent id).length ≤ 1 := by
  obtain ⟨c, hc, hsent⟩ : ∃ c, Reaches ((courier ⟨none, none⟩ asciiWeb3).under
      (fun _ _ _ _ _ => True) LetsGoSettled).Step ⟨⟨oneStaged, []⟩, fun _ => none⟩ c ∧
      c.world.sent "sr-1" ≠ [] := by
    refine ⟨_, .head (.start (i := ()) rfl rfl) <|
      .head (.act (i := ()) rfl ⟨courier_finds_staged _, trivial⟩) <|
      .head (.act (i := ()) rfl ⟨courier_claims_staged _, trivial⟩) <|
      .head (.act (i := ()) rfl ⟨courier_builds_adapter _ _, trivial⟩) <|
      .head (.act (i := ()) rfl ⟨courier_reads_rent _ _, trivial⟩) <|
      .head (.act (i := ()) rfl ⟨courier_sends _ rfl "sig-1", trivial⟩) <|
      .head (.act (i := ()) (w := ⟨oneInProgress.updateRequest "sr-1"
        { txSignature := some "sig-1" }, _⟩) rfl ⟨⟨Or.inl ⟨rfl, rfl⟩, rfl⟩, trivial⟩) <|
      .head (.crash (i := ()) rfl ⟨trivial, ?_⟩) <| .refl _ _, ?_⟩
    · intro b hb _
      obtain rfl := List.mem_singleton.1 hb
      exact ⟨_, rfl, Or.inr (by decide)⟩
    · decide
  exact ⟨c, ⟨hc, hsent⟩, at_most_one_broadcast hc⟩

end EpsDapp
