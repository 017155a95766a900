import EpsDapp.Delivery.Broadcast
import EpsDapp.Delivery.Rpc

/-!
# What a failed delivery says about the chain

A signature has a fate: the finalized transaction that it names in the end, or
none. The RPC is honest about fates, but it may be late: a call may throw, and a
read may find nothing. The worker parks a request `FAILED` for any of these, as
for a memo that does not match. Parking is right for a mismatch, whatever the
chain does later, and wrong for the others exactly when a broadcast of the
request is still delivered. So `FAILED` is sound in every run in which no error
and no missing re-read reaches a worker at work on a request one of whose
broadcasts will be delivered.
-/

set_option autoImplicit false

namespace EpsDapp

open Effect DeliveryProgram

/-- The broadcast `b` finalizes successfully with the memo `memo`. -/
def Delivered (fate : Fate) (web3 : Web3) (b : Broadcast) (memo : String) : Prop :=
  ∃ tx, fate b.signature = some tx ∧ tx.err = none ∧ tx.CarriesMemo web3 memo

/-- An answer that says nothing about the fate of a transaction and still ends
the attempt: an error, or a re-read that finds nothing. -/
def Inconclusive : Job → (c : DeliveryCall) → Except Failure c.Resp → Prop
  | job, .chain (.getTransaction _), .ok tx => (∃ row, job = .held row 1) ∧ tx = none
  | _, .failServiceRequest _, _ => False
  | _, _, .error _ => True
  | _, _, .ok _ => False

/-- No broadcast for `row` is delivered with its memo. -/
def Undelivered (fate : Fate) (web3 : Web3) (row : ClaimableRequest) (w : DeliveryWorld) :
    Prop :=
  ∀ b ∈ w.broadcasts, b.request = row.id → ¬ Delivered fate web3 b row.expectedMemo

/-- The RPC is honest, and an inconclusive answer reaches a worker only when no
broadcast for the row it holds is delivered. -/
def ConclusiveWhenDelivered (fate : Fate) (web3 : Web3) (job : Job) (_ : DeliveryWorld)
    (c : DeliveryCall) (w' : DeliveryWorld) (r : Except Failure c.Resp) : Prop :=
  Honest fate c r ∧ (Inconclusive job c r →
    ∀ row reads, job = .held row reads → Undelivered fate web3 row w')

/-- What the database says of a broadcast: its request is there, no other
signature is recorded for it, and it is not `FAILED` if the broadcast is
delivered. -/
def Db.AccountsFor (fate : Fate) (web3 : Web3) (db : Db) (b : Broadcast) : Prop :=
  ∃ row, db.request? b.request = some row ∧
    (∀ signature, row.txSignature = some signature → b.signature = signature) ∧
    (row.status = .failed → ¬ Delivered fate web3 b row.select.expectedMemo)

/-- Broadcasts are in order and accounted for. -/
structure Accounted (fate : Fate) (web3 : Web3) (job : Job) (w : DeliveryWorld) : Prop
    extends AtMostOnce job w where
  accounted : ∀ b ∈ w.broadcasts, w.db.AccountsFor fate web3 b

/-- A failed request of a world whose broadcasts are accounted for has no
delivered broadcast. -/
theorem Accounted.undelivered {fate : Fate} {web3 : Web3} {job : Job} {w : DeliveryWorld}
    (h : Accounted fate web3 job w) {id : String} {row : ServiceRequest}
    (hrow : w.db.request? id = some row) (hfailed : row.status = .failed) :
    ∀ b ∈ w.broadcasts, b.request = id → ¬ Delivered fate web3 b row.select.expectedMemo := by
  rintro b hb rfl
  obtain ⟨row', hrow', _, hundelivered⟩ := h.accounted b hb
  obtain rfl := Option.some.inj (hrow.symm.trans hrow')
  exact hundelivered hfailed

section Accounts

variable {fate : Fate} {web3 : Web3}

theorem expectedMemo_of_select_eq {r r' : ServiceRequest} (h : r'.select = r.select) :
    r'.select.expectedMemo = r.select.expectedMemo := by
  rw [h]

@[simp] theorem apply_select_expectedMemo (u : ServiceRequestUpdate) (r : ServiceRequest) :
    (u.apply r).select.expectedMemo = r.select.expectedMemo := rfl

theorem Db.Retains.accountsFor {db db' : Db} (h : db.Retains db') {b : Broadcast}
    (hb : db.AccountsFor fate web3 b) : db'.AccountsFor fate web3 b := by
  obtain ⟨row, hrow, hsignature, hfailed⟩ := hb
  obtain ⟨row', hrow', hselect⟩ := h _ row hrow
  have hstatus' : row'.status = row.status := congrArg ClaimableRequest.status hselect
  have hsignature' : row'.txSignature = row.txSignature :=
    congrArg ClaimableRequest.txSignature hselect
  refine ⟨row', hrow', ?_, ?_⟩
  · rw [hsignature']
    exact hsignature
  · rw [hstatus', hselect]
    exact hfailed

/-- What a call may write to the row of a broadcast: the signature of the
broadcast, and `FAILED` only if the broadcast is not delivered. -/
def WriteSound (fate : Fate) (web3 : Web3) (db : Db) (u : ServiceRequestUpdate)
    (b : Broadcast) : Prop :=
  (∀ signature, u.txSignature = some signature → b.signature = signature) ∧
    (u.status = some .failed → ∀ row, db.request? b.request = some row →
      ¬ Delivered fate web3 b row.select.expectedMemo)

theorem accountsFor_of_faultyAnswers {db db' : Db} {c : DeliveryCall}
    {r : Except Failure c.Resp} (h : faultyAnswers db c db' r) {b : Broadcast}
    (hb : db.AccountsFor fate web3 b)
    (hwrite : ∀ u, c.write r = some (b.request, u) → WriteSound fate web3 db u b) :
    db'.AccountsFor fate web3 b := by
  obtain ⟨row, hrow, hsignature, hfailed⟩ := hb
  have hafter := request?_of_faultyAnswers h b.request
  cases hw : c.write r with
  | none =>
      rw [hw] at hafter
      exact ⟨row, hafter.trans hrow, hsignature, hfailed⟩
  | some p =>
      obtain ⟨i, u⟩ := p
      rw [hw] at hafter
      by_cases hi : b.request = i
      · subst hi
        obtain ⟨hsound, hsound'⟩ := hwrite u hw
        refine ⟨u.apply row, by rw [hafter]; simp [hrow], ?_, ?_⟩
        · intro signature
          rw [apply_txSignature, Option.or_eq_some_iff]
          rintro (hu | ⟨_, hr⟩)
          · exact hsound signature hu
          · exact hsignature signature hr
        · rw [apply_status, apply_select_expectedMemo]
          cases hs : u.status with
          | none => exact hfailed
          | some s =>
              rintro rfl
              exact hsound' hs row hrow
      · exact ⟨row, by rw [hafter]; simp [hi, hrow], hsignature, hfailed⟩

end Accounts

/-- No call changes the memo a row is to be delivered with. -/
theorem memo_of_faultyAnswers {db db' : Db} {c : DeliveryCall} {r : Except Failure c.Resp}
    (h : faultyAnswers db c db' r) {id memo : String}
    (hrow : ∃ row, db.request? id = some row ∧ row.select.expectedMemo = memo) :
    ∃ row, db'.request? id = some row ∧ row.select.expectedMemo = memo := by
  obtain ⟨row, hrow, hmemo⟩ := hrow
  rw [request?_of_faultyAnswers h id]
  cases c.write r with
  | none => exact ⟨row, hrow, hmemo⟩
  | some p =>
      by_cases hi : id = p.1
      · exact ⟨p.2.apply row, by simp [← hi, hrow], hmemo⟩
      · exact ⟨row, by simp [hi, hrow], hmemo⟩

/-- The worker of `courier` on a chain with fates, under the condition of this
module. -/
def conclusiveCourier (fate : Fate) (env : WorkerEnv) (web3 : Web3) :
    Machine deliverySig Failure Bool Unit Job DeliveryWorld :=
  (courier env web3).under (ConclusiveWhenDelivered fate web3) LetsGoSettled

section Steps

variable {fate : Fate} {env : WorkerEnv} {web3 : Web3}

/-- A call that broadcasts nothing keeps the account, if what it writes is
sound. -/
theorem Accounted.quiet {job job' : Job} {w w' : DeliveryWorld} {c : DeliveryCall}
    {r : Except Failure c.Resp} (h : Accounted fate web3 job w) (hallows : job.Allows c)
    (hquiet : ¬ c.Broadcasts)
    (hwrite : ∀ b ∈ w.broadcasts, ∀ u, c.write r = some (b.request, u) →
      WriteSound fate web3 w.db u b)
    (hseen : (courier env web3).seen (job, w) c (job', w') r) :
    Accounted fate web3 job' w' ∧ w'.broadcasts = w.broadcasts := by
  obtain ⟨honce, hsame⟩ := h.toAtMostOnce.quiet hallows hquiet hseen
  obtain ⟨w₁, henv, hanswer, _⟩ := hseen
  obtain ⟨hretains, _⟩ := othersMove_star henv
  obtain ⟨hfaulty, _⟩ := courierAnswers_of_not_broadcasts hquiet hanswer
  refine ⟨⟨honce, fun b hb => ?_⟩, hsame⟩
  rw [hsame] at hb
  have hacc := h.accounted b hb
  refine accountsFor_of_faultyAnswers hfaulty (hretains.accountsFor hacc) fun u hu => ?_
  obtain ⟨hsignature, hfailed⟩ := hwrite b hb u hu
  refine ⟨hsignature, fun hs row₁ hrow₁ => ?_⟩
  obtain ⟨row, hrow, _⟩ := hacc
  obtain ⟨row₂, hrow₂, hselect⟩ := hretains _ row hrow
  obtain rfl := Option.some.inj (hrow₁.symm.trans hrow₂)
  rw [hselect]
  exact hfailed hs row hrow

/-- The worker is at work on `row`, whose transaction it has read `reads` times,
and everything is accounted for. -/
structure AtWork (fate : Fate) (web3 : Web3) (row : ClaimableRequest) (reads : ℕ)
    (s : Job × DeliveryWorld) : Prop where
  job : s.1 = .held row reads
  accounted : Accounted fate web3 s.1 s.2
  memo : ∃ r, s.2.db.request? row.id = some r ∧ r.select.expectedMemo = row.expectedMemo

/-- What a call may write while the worker is at work on `row`. -/
def SoundAt (fate : Fate) (web3 : Web3) (row : ClaimableRequest) (w : DeliveryWorld)
    (u : ServiceRequestUpdate) : Prop :=
  (∀ signature, u.txSignature = some signature →
      ∀ b ∈ w.broadcasts, b.request = row.id → b.signature = signature) ∧
    (u.status = some .failed → Undelivered fate web3 row w)

theorem AtWork.quiet {row : ClaimableRequest} {reads : ℕ} {s s' : Job × DeliveryWorld}
    {c : DeliveryCall} {r : Except Failure c.Resp} (h : AtWork fate web3 row reads s)
    (hc : c.Quiet row.id)
    (hwrite : ∀ u, c.write r = some (row.id, u) → SoundAt fate web3 row s.2 u)
    (hseen : (conclusiveCourier fate env web3).seen s c s' r) :
    ∃ reads', (Job.held row reads).observe c r = .held row reads' ∧
      AtWork fate web3 row reads' s' ∧ s'.2.broadcasts = s.2.broadcasts ∧
      (c.write r = none → s.2.db.Retains s'.2.db) ∧ Honest fate c r ∧
      (Inconclusive (.held row reads) c r → Undelivered fate web3 row s'.2) := by
  obtain ⟨hseen, w₂, hhonest, hconclusive⟩ := Machine.seen_of_under hseen
  obtain ⟨job, w⟩ := s
  obtain ⟨job', w'⟩ := s'
  obtain ⟨hjob, hacc, ⟨r₀, hr₀, hmemo⟩⟩ := h
  obtain rfl : job = .held row reads := hjob
  obtain ⟨w₁, henv, hanswer, hjob⟩ := id hseen
  obtain rfl : job' = (Job.held row reads).observe c r := hjob
  obtain ⟨hretains, _⟩ := othersMove_star henv
  obtain ⟨hfaulty, _⟩ := courierAnswers_of_not_broadcasts hc.2 hanswer
  obtain ⟨reads', hreads⟩ : ∃ reads', (Job.held row reads).observe c r = .held row reads' :=
    Job.observe_held hc.1 r
  have hsound : ∀ b ∈ w.broadcasts, ∀ u, c.write r = some (b.request, u) →
      WriteSound fate web3 w.db u b := by
    intro b hb u hu
    have hid : b.request = row.id := hc.1.write hu
    obtain ⟨hsignature, hfailed⟩ := hwrite u (hid ▸ hu)
    refine ⟨fun signature hs => hsignature signature hs b hb hid, fun hs r hr => ?_⟩
    rw [hid] at hr
    obtain rfl := Option.some.inj (hr.symm.trans hr₀)
    rw [hmemo]
    exact hfailed hs b hb hid
  obtain ⟨hacc', hsame⟩ := Accounted.quiet hacc hc.1 hc.2 hsound hseen
  refine ⟨reads', hreads, ⟨hreads, hacc', ?_⟩, hsame, fun hnone => ?_, hhonest, fun hr => ?_⟩
  · obtain ⟨r₁, hr₁, hselect⟩ := hretains _ r₀ hr₀
    exact memo_of_faultyAnswers hfaulty ⟨r₁, hr₁, by rw [hselect, hmemo]⟩
  · refine hretains.trans fun id rw hrw => ⟨rw, ?_, rfl⟩
    rw [request?_of_faultyAnswers hfaulty id, hnone]
    exact hrw
  · exact hconclusive hr row reads rfl

/-- The worker is at work on `row`, and what it has broadcast for it has the
signature at hand. -/
structure Signed (fate : Fate) (web3 : Web3) (row : ClaimableRequest) (signature : String)
    (reads : ℕ) (s : Job × DeliveryWorld) : Prop
    extends AtWork fate web3 row reads s where
  signed : ∀ b ∈ s.2.broadcasts, b.request = row.id → b.signature = signature

/-- The worker is at work on `row`, for which nothing has been broadcast or
recorded. -/
structure Fresh (fate : Fate) (web3 : Web3) (row : ClaimableRequest) (s : Job × DeliveryWorld) :
    Prop extends AtWork fate web3 row 0 s where
  unsent : s.2.sent row.id = []
  unsigned : ∃ r, s.2.db.request? row.id = some r ∧ r.txSignature = none ∧ r.status ≠ .failed

/-- How a part of an attempt at `row` may end: with a value, in a state where `P`
holds of it, or with an error, and then no broadcast for the row is delivered. -/
def EndsSoundly {α : Type} (fate : Fate) (web3 : Web3) (row : ClaimableRequest)
    (P : α → Job × DeliveryWorld → Prop) : Except Failure α → Job × DeliveryWorld → Prop
  | .ok a, s => P a s
  | .error _, s => (∃ reads, AtWork fate web3 row reads s) ∧ Undelivered fate web3 row s.2

variable {row : ClaimableRequest} {signature : String} {reads : ℕ}
  {s s' : Job × DeliveryWorld}

theorem Fresh.undelivered (h : Fresh fate web3 row s) : Undelivered fate web3 row s.2 := by
  intro b hb hid
  have hmem := (DeliveryWorld.mem_sent_iff s.2 row.id b).2 ⟨hb, hid⟩
  rw [h.unsent] at hmem
  cases hmem

theorem Signed.quiet {c : DeliveryCall} {r : Except Failure c.Resp}
    (h : Signed fate web3 row signature reads s) (hc : c.Quiet row.id)
    (hwrite : ∀ u, c.write r = some (row.id, u) →
      (u.txSignature = none ∨ u.txSignature = some signature) ∧ u.status ≠ some .failed)
    (hseen : (conclusiveCourier fate env web3).seen s c s' r) :
    ∃ reads', (Job.held row reads).observe c r = .held row reads' ∧
      Signed fate web3 row signature reads' s' ∧ Honest fate c r ∧
      (Inconclusive (.held row reads) c r → Undelivered fate web3 row s'.2) := by
  have hsound : ∀ u, c.write r = some (row.id, u) → SoundAt fate web3 row s.2 u := by
    intro u hu
    obtain ⟨hsignature, hfailed⟩ := hwrite u hu
    refine ⟨fun sg hs b hb hid => ?_, fun hs => absurd hs hfailed⟩
    rw [h.signed b hb hid]
    rcases hsignature with hnone | hsome
    · rw [hnone] at hs
      cases hs
    · exact Option.some.inj (hsome.symm.trans hs)
  obtain ⟨reads', hreads, hwork, hsame, -, hhonest, hconclusive⟩ :=
    h.toAtWork.quiet hc hsound hseen
  refine ⟨reads', hreads, ⟨hwork, ?_⟩, hhonest, hconclusive⟩
  rw [hsame]
  exact h.signed

/-- A call of the chain other than a broadcast writes nothing and is quiet. -/
theorem chain_quiet {c : ChainCall} (hc : ¬ (DeliveryCall.chain c).Broadcasts) (id : String) :
    (DeliveryCall.chain c).Quiet id :=
  ⟨trivial, hc⟩

theorem Fresh.ask {c : ChainCall} {r : Except Failure c.Resp} (h : Fresh fate web3 row s)
    (hc : ¬ (DeliveryCall.chain c).Broadcasts) (hread : ∀ sg, c ≠ .getTransaction sg)
    (hseen : (conclusiveCourier fate env web3).seen s (.chain c) s' r) :
    Fresh fate web3 row s' := by
  obtain ⟨reads', hreads, hwork, hsame, hretains, -⟩ := h.toAtWork.quiet
    (c := .chain c) (chain_quiet hc row.id) (fun u hu => by cases hu) hseen
  have hzero : (Job.held row 0).observe (.chain c) r = .held row 0 := by
    cases c with
    | getTransaction sg => exact absurd rfl (hread sg)
    | _ => rfl
  obtain rfl : reads' = 0 := by
    rw [hzero] at hreads
    cases hreads
    rfl
  obtain ⟨r₀, hr₀, hunsigned, hstatus⟩ := h.unsigned
  obtain ⟨r₁, hr₁, hselect⟩ := hretains rfl _ r₀ hr₀
  refine ⟨hwork, (DeliveryWorld.sent_congr hsame row.id).trans h.unsent, r₁, hr₁, ?_, ?_⟩
  · rw [show r₁.txSignature = r₀.txSignature from congrArg ClaimableRequest.txSignature hselect]
    exact hunsigned
  · rw [show r₁.status = r₀.status from congrArg ClaimableRequest.status hselect]
    exact hstatus

/-- The broadcast of a fresh attempt. -/
theorem Fresh.send {recipient : PublicKey} {lamports : ℕ} {memo : String}
    {r : Except Failure String} (h : Fresh fate web3 row s)
    (hseen : (conclusiveCourier fate env web3).seen s
      (.chain (.sendTransaction recipient lamports memo)) s' r) :
    AtWork fate web3 row 0 s' ∧
      match r with
      | .ok signature => ∀ b ∈ s'.2.broadcasts, b.request = row.id → b.signature = signature
      | .error _ => Undelivered fate web3 row s'.2 := by
  obtain ⟨hseen, w₂, -, hconclusive⟩ := Machine.seen_of_under hseen
  obtain ⟨job, w⟩ := s
  obtain ⟨job', w'⟩ := s'
  have hundelivered := h.undelivered
  obtain ⟨⟨hjob, hacc, ⟨r₀, hr₀, hmemo⟩⟩, hunsent, ⟨r₁, hr₁, hunsigned, hstatus⟩⟩ := h
  obtain rfl : job = .held row 0 := hjob
  have honce := Unsent.send hacc.toAtMostOnce hunsent hseen
  obtain ⟨rfl, hretains, hcases⟩ := send_cases hseen
  obtain ⟨r₂, hr₂, hselect⟩ := hretains _ r₀ hr₀
  have hmemo₂ : r₂.select.expectedMemo = row.expectedMemo := by
    rw [hselect, hmemo]
  have hold : ∀ b ∈ w.broadcasts, w'.db.AccountsFor fate web3 b :=
    fun b hb => hretains.accountsFor (hacc.accounted b hb)
  have hconclusive : (∃ e, r = .error e) → Undelivered fate web3 row w' := by
    rintro ⟨e, rfl⟩
    exact hconclusive trivial row 0 rfl
  rcases hcases with ⟨signature, hnew, hr⟩ | ⟨hsame, e, rfl⟩
  · have hnew : w'.broadcasts = w.broadcasts ++ [⟨row.id, memo, signature⟩] := hnew
    refine ⟨⟨rfl, ⟨honce, fun b hb => ?_⟩, r₂, hr₂, hmemo₂⟩, ?_⟩
    · have hb : b ∈ w'.broadcasts := hb
      rw [hnew] at hb
      rcases List.mem_append.1 hb with hb | hb
      · exact hold b hb
      · obtain rfl := List.mem_singleton.1 hb
        obtain rfl := Option.some.inj (hr₀.symm.trans hr₁)
        refine ⟨r₂, hr₂, ?_, fun hfailed => ?_⟩
        · rw [show r₂.txSignature = r₀.txSignature from
            congrArg ClaimableRequest.txSignature hselect, hunsigned]
          rintro _ ⟨⟩
        · rw [show r₂.status = r₀.status from congrArg ClaimableRequest.status hselect] at hfailed
          exact absurd hfailed hstatus
    · cases r with
      | error e => exact hconclusive ⟨e, rfl⟩
      | ok sg =>
          obtain rfl : sg = signature := by
            rcases hr with hr | ⟨e, hr⟩
            · exact Except.ok.inj hr
            · cases hr
          intro b hb hid
          have hb : b ∈ w'.broadcasts := hb
          rw [hnew] at hb
          rcases List.mem_append.1 hb with hb | hb
          · have hmem := (DeliveryWorld.mem_sent_iff w row.id b).2 ⟨hb, hid⟩
            rw [hunsent] at hmem
            cases hmem
          · rw [List.mem_singleton.1 hb]
  · refine ⟨⟨rfl, ⟨honce, fun b hb => ?_⟩, r₂, hr₂, hmemo₂⟩, hconclusive ⟨e, rfl⟩⟩
    have hb : b ∈ w'.broadcasts := hb
    rw [hsame] at hb
    exact hold b hb

/-- The obligation of a part of an attempt. -/
abbrev Soundly {α : Type} (fate : Fate) (env : WorkerEnv) (web3 : Web3) (row : ClaimableRequest)
    (p : DeliveryProgram α) (P : α → Job × DeliveryWorld → Prop) (s : Job × DeliveryWorld) :
    Prop :=
  p.wp (conclusiveCourier fate env web3).seen (fun s _ => Accounted fate web3 s.1 s.2)
    (EndsSoundly fate web3 row P) s

theorem Soundly.seq {α β : Type} {p : DeliveryProgram α} {f : α → DeliveryProgram β}
    {P : α → Job × DeliveryWorld → Prop} {Q : β → Job × DeliveryWorld → Prop}
    (hp : Soundly fate env web3 row p P s)
    (hf : ∀ a s, P a s → Soundly fate env web3 row (f a) Q s) :
    Soundly fate env web3 row (p >>= f) Q s :=
  Program.wp_seq hp hf fun _ _ h => h

/-- One quiet call of an attempt whose signature is at hand. -/
theorem Signed.perform {c : DeliveryCall} (h : Signed fate web3 row signature reads s)
    (hc : c.Quiet row.id) (hfail : ∀ input, c ≠ .failServiceRequest input)
    (hwrite : ∀ r u, c.write r = some (row.id, u) →
      (u.txSignature = none ∨ u.txSignature = some signature) ∧ u.status ≠ some .failed) :
    Soundly fate env web3 row (Program.perform (S := deliverySig) c)
      (fun a s' => ∃ reads', (Job.held row reads).observe c (.ok a) = .held row reads' ∧
        Signed fate web3 row signature reads' s' ∧ Honest fate c (.ok a) ∧
        (Inconclusive (.held row reads) c (.ok a) → Undelivered fate web3 row s'.2)) s := by
  refine (Program.wp_perform _ _ _).2 ⟨h.accounted, fun s' r hseen => ?_⟩
  obtain ⟨reads', hreads, hsigned, hhonest, hconclusive⟩ := h.quiet hc (hwrite r) hseen
  cases r with
  | ok a => exact ⟨reads', hreads, hsigned, hhonest, hconclusive⟩
  | error e =>
      refine ⟨⟨reads', hsigned.toAtWork⟩, hconclusive ?_⟩
      cases c with
      | failServiceRequest input => exact absurd rfl (hfail input)
      | chain c =>
          cases c with
          | _ => trivial
      | _ => trivial

/-- A call of the chain writes nothing. -/
theorem Signed.ask {c : ChainCall} (h : Signed fate web3 row signature reads s)
    (hc : ¬ (DeliveryCall.chain c).Broadcasts) :
    Soundly fate env web3 row (Program.perform (S := deliverySig) (.chain c))
      (fun a s' => ∃ reads',
        (Job.held row reads).observe (.chain c) (.ok a) = .held row reads' ∧
        Signed fate web3 row signature reads' s' ∧ Honest fate (.chain c) (.ok a) ∧
        (Inconclusive (.held row reads) (.chain c) (.ok a) → Undelivered fate web3 row s'.2)) s :=
  h.perform (chain_quiet hc row.id) (fun _ => nofun) fun r u hu => by cases hu

/-- A transaction that the chain has recorded under the signature at hand, and
that does not decode to the memo, is no delivery. -/
theorem Signed.undelivered_of_decode {tx : TransactionResponse}
    (h : Signed fate web3 row signature reads s) (htx : fate signature = some tx)
    (hmemo : decodeMemo web3 (some tx) ≠ .ok (some row.expectedMemo)) :
    Undelivered fate web3 row s.2 := by
  rintro b hb hid ⟨tx', hfate, -, hcarries⟩
  rw [h.signed b hb hid, htx] at hfate
  obtain rfl := Option.some.inj hfate
  exact hmemo ((decodeMemo_eq_some_iff _ _ _).2 hcarries)

/-- Confirming and verifying ends in an error only when nothing is delivered. -/
theorem confirmAndVerify_soundly (h : Signed fate web3 row signature 0 s) :
    Soundly fate env web3 row (confirmAndVerify env (solanaAdapter web3) row signature)
      (fun _ s => ∃ reads, AtWork fate web3 row reads s) s := by
  refine Soundly.seq (P := fun _ => Signed fate web3 row signature 1) ?_ fun confirmation s h => ?_
  · refine Soundly.seq (h.ask id) ?_
    rintro err s ⟨_, ⟨⟩, h, -⟩
    refine Soundly.seq (h.ask id) ?_
    rintro tx s ⟨_, ⟨⟩, h, -⟩
    exact h
  refine Soundly.seq (P := fun memo s => Signed fate web3 row signature 2 s ∧
    (memo ≠ some row.expectedMemo → Undelivered fate web3 row s.2)) ?_ ?_
  · refine Soundly.seq (h.ask id) ?_
    rintro tx s ⟨_, ⟨⟩, h, hhonest, hmissed⟩
    have hundelivered : decodeMemo web3 tx ≠ .ok (some row.expectedMemo) →
        Undelivered fate web3 row s.2 := by
      intro hmemo
      cases tx with
      | none => exact hmissed ⟨⟨row, rfl⟩, rfl⟩
      | some tx => exact h.undelivered_of_decode hhonest hmemo
    cases hdecode : decodeMemo web3 tx with
    | ok memo =>
        refine ⟨h, fun hmemo => hundelivered ?_⟩
        rw [hdecode]
        exact fun heq => hmemo (Except.ok.inj heq)
    | error e =>
        refine ⟨⟨2, h.toAtWork⟩, hundelivered ?_⟩
        rw [hdecode]
        exact nofun
  · rintro memo s ⟨h, hmemo⟩
    by_cases hne : memo ≠ some row.expectedMemo
    · rw [if_pos hne]
      exact ⟨⟨2, h.toAtWork⟩, hmemo hne⟩
    · rw [if_neg hne]
      refine Soundly.seq (h.perform (c := .serviceRequestUpdate row.id _)
        ⟨⟨rfl, Or.inr rfl⟩, id⟩ (fun _ => nofun) ?_) ?_
      · rintro (e | updated) u ⟨⟩
        exact ⟨Or.inl rfl, by simp⟩
      · rintro _ s ⟨_, ⟨⟩, h, -⟩
        have hrecord : ∀ (recording : Recording) {s reads},
            Signed fate web3 row signature reads s →
            Soundly fate env web3 row (record recording)
              (fun _ => Signed fate web3 row signature reads) s := by
          intro recording s reads h
          refine Program.wp_post _ (fun r s h => ?_) (h.perform (c := .record recording)
            ⟨trivial, id⟩ (fun _ => nofun) fun r u hu => by cases hu)
          cases r with
          | ok _ =>
              obtain ⟨_, ⟨⟩, h, -⟩ := h
              exact h
          | error e => exact h
        refine Soundly.seq (hrecord _ h) fun _ s h => ?_
        refine Program.wp_post _ (fun r s h => ?_) (hrecord _ h)
        cases r with
        | ok _ => exact ⟨2, h.toAtWork⟩
        | error e => exact h

/-- The signature of an attempt is that of its only broadcast, if there is one. -/
theorem signatureOf_soundly (hresumed : ∀ signature, row.txSignature = some signature →
      Signed fate web3 row signature 0 s)
    (hfresh : row.txSignature = none → Fresh fate web3 row s) :
    Soundly fate env web3 row (signatureOf (solanaAdapter web3) row)
      (fun signature => Signed fate web3 row signature 0) s := by
  rw [signatureOf]
  cases hsignature : row.txSignature with
  | some signature => exact hresumed signature hsignature
  | none =>
      have h := hfresh hsignature
      refine Soundly.seq (P := fun _ => Fresh fate web3 row) ?_ fun lamports s h => ?_
      · refine (Program.wp_perform _ _ _).2 ⟨h.accounted, fun s' r hseen => ?_⟩
        have h' := h.ask (c := .getRentExemptMinimum) id (fun _ h => by cases h) hseen
        cases r with
        | ok _ => exact h'
        | error e => exact ⟨⟨0, h'.toAtWork⟩, h'.undelivered⟩
      refine Soundly.seq (P := fun signature => Signed fate web3 row signature 0) ?_ ?_
      · simp only [solanaAdapter]
        split
        · refine (Program.wp_perform _ _ _).2 ⟨h.accounted, fun s' r hseen => ?_⟩
          obtain ⟨hwork, hsent⟩ := h.send hseen
          cases r with
          | ok signature => exact ⟨hwork, hsent⟩
          | error e => exact ⟨⟨0, hwork⟩, hsent⟩
        · exact ⟨⟨0, h.toAtWork⟩, h.undelivered⟩
      · intro signature s h
        refine Soundly.seq (h.perform (c := .serviceRequestUpdate row.id _)
          ⟨⟨rfl, Or.inl rfl⟩, id⟩ (fun _ h => by cases h) ?_) ?_
        · rintro (e | updated) u ⟨⟩
          exact ⟨Or.inr rfl, by simp⟩
        · rintro _ s ⟨_, ⟨⟩, h, -⟩
          exact h

/-- An attempt keeps the account: it parks the row `FAILED` only after an end that
is sound. -/
theorem attempt_accounts (hresumed : ∀ signature, row.txSignature = some signature →
      Signed fate web3 row signature 0 s)
    (hfresh : row.txSignature = none → Fresh fate web3 row s) :
    (attempt env web3 row).wp (conclusiveCourier fate env web3).seen
      (fun s _ => Accounted fate web3 s.1 s.2) (fun _ s => Accounted fate web3 s.1 s.2) s := by
  have hprocess : Soundly fate env web3 row (processServiceRequest env web3 row)
      (fun _ s => ∃ reads, AtWork fate web3 row reads s) s := by
    rw [processServiceRequest_eq]
    cases hsignature : row.txSignature with
    | some signature =>
        refine Soundly.seq ((hresumed signature hsignature).ask (c := .getSolanaAdapter) id) ?_
        rintro _ s ⟨_, ⟨⟩, h, -⟩
        refine Soundly.seq (signatureOf_soundly (fun sg hsg => ?_) fun hnone => ?_)
          fun _ _ => confirmAndVerify_soundly
        · obtain rfl := Option.some.inj (hsignature.symm.trans hsg)
          exact h
        · rw [hsignature] at hnone
          cases hnone
    | none =>
        have h := hfresh hsignature
        refine Soundly.seq (P := fun _ => Fresh fate web3 row) ?_ fun _ s h => ?_
        · refine (Program.wp_perform _ _ _).2 ⟨h.accounted, fun s' r hseen => ?_⟩
          have h' := h.ask (c := .getSolanaAdapter) id (fun _ => nofun) hseen
          cases r with
          | ok _ => exact h'
          | error e => exact ⟨⟨0, h'.toAtWork⟩, h'.undelivered⟩
        · refine Soundly.seq (signatureOf_soundly (fun sg hsg => ?_) fun _ => h)
            fun _ _ => confirmAndVerify_soundly
          rw [hsignature] at hsg
          cases hsg
  refine Program.wp_catch hprocess (fun _ s ⟨_, h⟩ => h.accounted) ?_
  rintro e s ⟨⟨reads, h⟩, hundelivered⟩
  refine Program.wp_seq (R := fun _ s => Accounted fate web3 s.1 s.2) ?_
    (fun _ _ h => (Program.wp_pure _ _ _).2 h) fun _ _ h => h
  refine (Program.wp_perform _ _ _).2 ⟨h.accounted, fun s' r hseen => ?_⟩
  have hsound : ∀ u, DeliveryCall.write (.failServiceRequest ⟨row.id, row.orgId, e.message,
      row.txSignature⟩) r = some (row.id, u) → SoundAt fate web3 row s.2 u := by
    intro u hu
    cases r with
    | ok _ =>
        cases hu
        exact ⟨fun _ => nofun, fun _ => hundelivered⟩
    | error e => cases hu
  have hquiet : DeliveryCall.Quiet row.id (.failServiceRequest ⟨row.id, row.orgId, e.message,
      row.txSignature⟩) := ⟨rfl, id⟩
  obtain ⟨_, _, h, -⟩ := h.quiet hquiet hsound hseen
  exact h.accounted

/-- A turn of the worker keeps the account. -/
theorem runOnce_accounts (env : WorkerEnv) {w : DeliveryWorld}
    (h : Accounted fate web3 .idle w) :
    (conclusiveCourier fate env web3).Keeps (Accounted fate web3) (runOnce env web3) .idle w := by
  have hfind : ∀ {s' : Job × DeliveryWorld} {r}, (conclusiveCourier fate env web3).seen
      (.idle, w) .serviceRequestFindClaimable s' r → Accounted fate web3 s'.1 s'.2 :=
    fun hseen => (h.quiet (c := .serviceRequestFindClaimable) trivial id
      (fun _ _ u hu => by cases hu) (Machine.seen_of_under hseen).1).1
  refine wp_runOnce env web3 h (fun _ _ => hfind) (fun _ => hfind) fun s row hseen => ?_
  have hs := hfind hseen
  obtain ⟨job, w'⟩ := s
  obtain ⟨w₁, _, ⟨⟨hanswer, _⟩, -⟩, hjob⟩ := hseen
  obtain rfl : job = .found row := hjob
  obtain ⟨hdb, r, hrow, hclaimable, rfl⟩ := candidate_of_faultyAnswers hanswer
  have hrow : w'.db.request? r.id = some r := by
    rw [show w'.db = w₁.db from hdb]
    exact hrow
  have hclaim : ∀ {s'' : Job × DeliveryWorld} {r'}, (conclusiveCourier fate env web3).seen
      (.found r.select, w') (.serviceRequestClaim r.id) s'' r' →
        Accounted fate web3 s''.1 s''.2 ∧ s''.2.broadcasts = w'.broadcasts := by
    intro s'' r' hseen
    refine hs.quiet (c := .serviceRequestClaim r.id) rfl id ?_ (Machine.seen_of_under hseen).1
    rintro b hb u hu
    rcases r' with e | _ | n
    · cases hu
    · cases hu
    · obtain ⟨-, rfl⟩ := Prod.mk.inj (Option.some.inj hu)
      exact ⟨fun _ => nofun, nofun⟩
  refine ⟨hs, fun _ _ h => (hclaim h).1, fun _ h => (hclaim h).1, fun s'' n hseen => ?_⟩
  obtain ⟨hacc, hsame⟩ := hclaim hseen
  obtain ⟨w₂, henv, ⟨⟨hfaulty, _⟩, -⟩, hjob⟩ := hseen
  obtain ⟨r₂, hr₂, hselect⟩ := (othersMove_star henv).1 _ r hrow
  have hwins : DeliveryCall.Wins (.serviceRequestClaim r.id) (.ok (n + 1)) r.id := rfl
  obtain ⟨r₃, hr₃, _, hwon⟩ := claimable_of_wins hwins hfaulty
  obtain rfl := Option.some.inj (hr₂.symm.trans hr₃)
  have hwork : AtWork fate web3 { r.select with status := .inProgress } 0 s'' :=
    ⟨hjob, hacc, _, hwon, (expectedMemo_of_select_eq hselect :)⟩
  refine attempt_accounts (fun signature hsignature => ⟨hwork, fun b hb hid => ?_⟩)
    fun hsignature => ⟨hwork, ?_, _, hwon, ?_, by simp⟩
  · rw [hsame] at hb
    obtain ⟨r₁, hr₁, hsigned, _⟩ := hs.accounted b hb
    rw [hid] at hr₁
    obtain rfl := Option.some.inj (hrow.symm.trans hr₁)
    exact hsigned signature hsignature
  · exact unsent_of_found hs.toAtMostOnce (fun id => Job.not_holds_found _ id) hrow hclaimable
      hsame hsignature
  · rw [apply_txSignature,
      show r₂.txSignature = r.txSignature from congrArg ClaimableRequest.txSignature hselect]
    exact hsignature

/-- In every run in which nothing inconclusive reaches a worker at work on a
request that will be delivered, and which lets go of a request only when its
broadcast is on record, no broadcast for a `FAILED` request is ever delivered. -/
theorem failed_undelivered {db : Db}
    {c : Pool deliverySig Failure Bool Unit Job DeliveryWorld}
    (h : Reaches (conclusiveCourier fate env web3).Step ⟨⟨db, []⟩, fun _ => none⟩ c)
    {id : String} {row : ServiceRequest} (hrow : c.world.db.request? id = some row)
    (hfailed : row.status = .failed) :
    ∀ b ∈ c.world.broadcasts, b.request = id →
      ¬ Delivered fate web3 b row.select.expectedMemo := by
  have hkeeps : ∃ job, Accounted fate web3 job c.world := by
    refine Machine.solo_run ?_ ?_ ?_ ⟨⟨fun _ => by simp [DeliveryWorld.sent], ?_⟩, ?_⟩ h ()
    · rintro _ p w rfl hw
      exact runOnce_accounts env hw
    · rintro job w w' ⟨hdrift, hsame⟩ hw
      refine ⟨⟨fun id => ?_, fun b hb => ?_⟩, fun b hb => ?_⟩
      · rw [DeliveryWorld.sent_congr hsame]
        exact hw.once id
      · rw [hsame] at hb
        exact (hw.kept b hb).imp_right hdrift.retains.settled
      · rw [hsame] at hb
        exact hdrift.retains.accountsFor (hw.accounted b hb)
    · rintro job w ⟨_, hsettled⟩ hw
      refine ⟨⟨hw.once, fun b hb => Or.inr ?_⟩, hw.accounted⟩
      exact (hw.kept b hb).elim (hsettled b hb) fun h => h
    · intro b hb
      cases hb
    · intro b hb
      cases hb
  obtain ⟨job, hjob⟩ := hkeeps
  exact hjob.undelivered hrow hfailed

end Steps

section Example

/-! ### The request of `oneStaged`, parked after its broadcast -/

/-- `oneInProgress` once the signature of its broadcast is on record. -/
def oneSigned : Db := oneInProgress.updateRequest "sr-1" { txSignature := some "sig-1" }

/-- `oneSigned` once its request is parked `FAILED` for `reason`. -/
def oneParked (reason : String) : Db :=
  (FailServiceRequestInput.commit ⟨"sr-1", some "org-1", reason, none⟩ oneSigned
    (some chargedSubscription)).1

/-- A transaction that has landed with the memo `memo`. -/
def landed (memo : String) : TransactionResponse :=
  asciiTransaction 7 (some 1770000000) none memo

variable (sent : List Broadcast)

theorem courier_signs : courierAnswers .idle ⟨oneInProgress, sent⟩
    (.serviceRequestUpdate "sr-1" { txSignature := some "sig-1" }) ⟨oneSigned, sent⟩
    (.ok { claimedRequest with txSignature := some "sig-1" }) :=
  ⟨Or.inl ⟨rfl, rfl⟩, rfl⟩

theorem courier_confirms (r : Except Failure (Option String)) : courierAnswers .idle
    ⟨oneSigned, sent⟩ (.chain (.confirmTransaction "sig-1")) ⟨oneSigned, sent⟩ r :=
  ⟨Or.inl rfl, rfl⟩

theorem courier_reads (r : Except Failure (Option TransactionResponse)) : courierAnswers .idle
    ⟨oneSigned, sent⟩ (.chain (.getTransaction "sig-1")) ⟨oneSigned, sent⟩ r :=
  ⟨Or.inl rfl, rfl⟩

theorem courier_parks {reason : String} (hreason : ReasonStorable reason) :
    courierAnswers .idle ⟨oneSigned, sent⟩
      (.failServiceRequest ⟨"sr-1", some "org-1", reason, none⟩) ⟨oneParked reason, sent⟩
      (.ok true) := by
  have hlatest : oneSigned.LatestSubscription (.activeOfOrg (some "org-1"))
      (some chargedSubscription) :=
    Db.latestSubscription_of_singleton rfl ⟨rfl, rfl⟩
  exact ⟨faultyAnswers_parks hreason rfl rfl hlatest, rfl⟩

end Example

/-- `confirmTransaction` times out once, after the signature is on record: the
request is parked `FAILED` and its unit is given back, and the transaction
finalizes all the same. -/
theorem failed_and_delivered_after_timeout :
    ¬ ∀ c, Reaches ((courier ⟨none, none⟩ asciiWeb3).under
        (fun _ _ call _ r => Honest (finalizes (landed stagedRequest.select.expectedMemo)) call r)
        (fun _ _ => True)).Step ⟨⟨oneStaged, []⟩, fun _ => none⟩ c →
      ∀ row, c.world.db.request? "sr-1" = some row → row.status = .failed →
        ∀ b ∈ c.world.broadcasts, b.request = "sr-1" →
          ¬ Delivered (finalizes (landed stagedRequest.select.expectedMemo)) asciiWeb3 b
            row.select.expectedMemo := by
  intro h
  have hreason : ReasonStorable "timeout" := by decide
  have hfailed := h _ (
    .head (.start (i := ()) rfl rfl) <|
    .head (.act (i := ()) rfl ⟨courier_finds_staged _, trivial⟩) <|
    .head (.act (i := ()) rfl ⟨courier_claims_staged _, trivial⟩) <|
    .head (.act (i := ()) rfl ⟨courier_builds_adapter _ _, trivial⟩) <|
    .head (.act (i := ()) rfl ⟨courier_reads_rent _ _, trivial⟩) <|
    .head (.act (i := ()) rfl ⟨courier_sends _ rfl "sig-1", trivial⟩) <|
    .head (.act (i := ()) rfl ⟨courier_signs _, trivial⟩) <|
    .head (.act (i := ()) rfl ⟨courier_confirms _ (.error (.error "timeout")), trivial⟩) <|
    .head (.act (i := ()) rfl ⟨courier_parks _ hreason, trivial⟩) <| .refl _ _)
    _ rfl rfl _ List.mem_cons_self rfl
  refine hfailed ⟨_, rfl, rfl, (decodeMemo_eq_some_iff _ _ _).1 ?_⟩
  decide

/-- A request parked for a memo that does not match: its broadcast finalizes, and
it is no delivery. -/
theorem failed_undelivered_after_mismatch :
    ∃ c, (Reaches (conclusiveCourier (finalizes (landed "tampered")) ⟨none, none⟩ asciiWeb3).Step
        ⟨⟨oneStaged, []⟩, fun _ => none⟩ c ∧ c.world.broadcasts ≠ [] ∧
        ∃ row, c.world.db.request? "sr-1" = some row ∧ row.status = .failed) ∧
      ∀ row, c.world.db.request? "sr-1" = some row → row.status = .failed →
        ∀ b ∈ c.world.broadcasts, b.request = "sr-1" →
          ¬ Delivered (finalizes (landed "tampered")) asciiWeb3 b row.select.expectedMemo := by
  let tx := landed "tampered"
  have hreason : ReasonStorable (Failure.memoMismatch "sr-1" "sig-1").message := by decide
  have hfate : finalizes tx "sig-1" = some tx := rfl
  have hconclusive : ∀ {job : Job} {w w' : DeliveryWorld} {c : DeliveryCall}
      {r : Except Failure c.Resp}, Honest (finalizes (landed "tampered")) c r →
      (¬ Inconclusive job c r) →
      ConclusiveWhenDelivered (finalizes (landed "tampered")) asciiWeb3 job w c w' r :=
    fun hhonest hr => ⟨hhonest, fun h => absurd h hr⟩
  obtain ⟨c, hc, hsent, hrow⟩ : ∃ c, Reaches
      (conclusiveCourier (finalizes (landed "tampered")) ⟨none, none⟩ asciiWeb3).Step
      ⟨⟨oneStaged, []⟩, fun _ => none⟩ c ∧ c.world.broadcasts ≠ [] ∧
      ∃ row, c.world.db.request? "sr-1" = some row ∧ row.status = .failed := by
    refine ⟨_,
      .head (.start (i := ()) rfl rfl) <|
      .head (.act (i := ()) rfl ⟨courier_finds_staged _, hconclusive trivial id⟩) <|
      .head (.act (i := ()) rfl ⟨courier_claims_staged _, hconclusive trivial id⟩) <|
      .head (.act (i := ()) rfl ⟨courier_builds_adapter _ _, hconclusive trivial id⟩) <|
      .head (.act (i := ()) rfl ⟨courier_reads_rent _ _, hconclusive trivial id⟩) <|
      .head (.act (i := ()) rfl ⟨courier_sends _ rfl "sig-1", hconclusive trivial id⟩) <|
      .head (.act (i := ()) rfl ⟨courier_signs _, hconclusive trivial id⟩) <|
      .head (.act (i := ()) rfl ⟨courier_confirms _ (.ok none),
        hconclusive ⟨tx, hfate, rfl⟩ id⟩) <|
      .head (.act (i := ()) rfl ⟨courier_reads _ (.ok (some tx)), hconclusive hfate nofun⟩) <|
      .head (.act (i := ()) rfl ⟨courier_reads _ (.ok (some tx)), hconclusive hfate nofun⟩) <|
      .head (.act (i := ()) rfl ⟨courier_parks _ hreason, hconclusive trivial id⟩) <| .refl _ _,
      by decide, _, rfl, rfl⟩
  exact ⟨c, ⟨hc, hsent, hrow⟩, fun row hrow hfailed => failed_undelivered hc hrow hfailed⟩

end EpsDapp
