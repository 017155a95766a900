import EpsDapp.Delivery.Worker
import EpsDapp.Intake.Metering
import EpsDapp.Intake.Validation

/-!
# The recipients that intake stages

`POST /api/service-requests` takes a recipient as a raw address or as a name. A raw
address is served as it is; a name is served at the address that the server resolves
it to or, when it resolves it to none, at the one that the form has resolved it to. The wallet
that comes out is an EVM address or one that `SolanaAdapter.send` accepts. The name that is
stored beside it is chosen separately: the one the form sends goes first, whatever has been
resolved.
-/

set_option autoImplicit false

namespace EpsDapp

open Calendar Effect DeliveryProgram

/-! ## Resolution -/

/-- What is used of `@ensdomains/ensjs`: the address that a name resolves to, and the name of
an address. -/
structure EnsClient where
  getAddressRecord : String → Except Failure (Option String)
  getName : String → Except Failure (Option String)

/-- `resolveENS`: it never throws. -/
def EnsClient.resolveENS (ens : EnsClient) (input : String) : ENSResolution :=
  let trimmed := trim input
  if !isEvmAddress trimmed && trimmed.toList.contains '.' then
    match ens.getAddressRecord trimmed with
    | .ok value => ⟨value, trimmed, true⟩
    | .error _ => ⟨none, trimmed, true⟩
  else if isEvmAddress trimmed then
    match ens.getName trimmed with
    | .ok name => ⟨some trimmed, name.getD trimmed, false⟩
    | .error _ => ⟨some trimmed, trimmed, false⟩
  else ⟨none, trimmed, false⟩

/-- The address that the server resolves a name to, if it resolves it. -/
def EnsClient.address (ens : EnsClient) (name : String) : Option String :=
  truthy ((ens.getAddressRecord name).toOption.join)

/-- The recipient that step (2a) comes to. -/
def ServiceRequestInput.resolved (ens : EnsClient) (input : ServiceRequestInput) :
    Except IntakeResponse Recipient :=
  if looksLikeEns input.recipientWallet then
    input.recipient (ens.resolveENS input.recipientWallet)
  else .ok ⟨input.recipientWallet, none⟩

/-- An EVM address has no dot. -/
theorem not_mem_of_isEvmAddress {s : String} (h : isEvmAddress s = true) : '.' ∉ s.toList := by
  rw [isEvmAddress] at h
  split at h
  · rename_i digits hs
    obtain ⟨-, hdigits⟩ := Bool.and_eq_true_iff.1 h
    intro hdot
    rw [hs] at hdot
    have hdot : '.' ∈ digits := by simpa using hdot
    exact absurd (List.all_eq_true.1 hdigits _ hdot) (by decide)
  · cases h

/-- It has a zero. -/
theorem zero_mem_of_isEvmAddress {s : String} (h : isEvmAddress s = true) : '0' ∈ s.toList := by
  rw [isEvmAddress] at h
  split at h
  · rename_i digits hs
    rw [hs]
    exact List.mem_cons_self
  · cases h

theorem mem_of_looksLikeEns {s : String} (h : looksLikeEns s = true) : '.' ∈ s.toList := by
  rw [looksLikeEns, Bool.and_eq_true_iff] at h
  exact List.contains_iff_mem.1 h.1

/-- What looks like a name is looked up as one. -/
theorem EnsClient.resolveENS_of_looksLikeEns (ens : EnsClient) {name : String}
    (hname : looksLikeEns name = true) (htrim : trim name = name) :
    (ens.resolveENS name).displayName = name ∧ (ens.resolveENS name).wasENSName = true ∧
      truthy (ens.resolveENS name).address = ens.address name := by
  have hdot := mem_of_looksLikeEns hname
  have hevm : isEvmAddress name = false :=
    Bool.eq_false_iff.2 fun h => not_mem_of_isEvmAddress h hdot
  have hcontains : name.toList.contains '.' = true := List.contains_iff_mem.2 hdot
  simp only [resolveENS, htrim, hevm, hcontains, Bool.not_false, Bool.and_self, if_true, address]
  cases ens.getAddressRecord name with
  | error e => exact ⟨rfl, rfl, rfl⟩
  | ok value => exact ⟨rfl, rfl, rfl⟩

/-! ## What the route stages -/

/-- The row has been staged for the input: it has the recipient that the name was resolved to,
which is not refused. -/
def ServiceRequestInput.Stages (ens : EnsClient) (web3 : Web3) (input : ServiceRequestInput)
    (row : ServiceRequest) : Prop :=
  ∃ recipient, input.resolved ens = .ok recipient ∧
    refuseWallet web3 recipient.wallet = .ok none ∧
    ∃ auth agentENSName attestedAt orgId createdAt, { row with hedera := {} } =
      (input.data auth recipient agentENSName attestedAt).row row.id orgId createdAt

/-- The row has been staged for the body. -/
def StagedFor (ens : EnsClient) (web3 : Web3) (body : Json) (row : ServiceRequest) : Prop :=
  ∃ input, ServiceRequestInput.safeParse body = .ok input ∧ input.Stages ens web3 row

/-- The rows of `db'` that `db` has not satisfy `P`. -/
def Db.AddsOnly (P : ServiceRequest → Prop) (db db' : Db) : Prop :=
  ∀ id row, db.request? id = none → db'.request? id = some row → P row

theorem Db.addsOnly_of_serviceRequests {P : ServiceRequest → Prop} {db db' : Db}
    (h : db'.serviceRequests = db.serviceRequests) : db.AddsOnly P db' := by
  intro id row hnone hsome
  rw [request?, h, ← request?, hnone] at hsome
  cases hsome

/-- A call of the route that stages no request but one that satisfies `P`. -/
def ServerCall.StagesOnly (P : ServiceRequest → Prop) : ServerCall → Prop
  | rateLimit _ | quota _ | resolveENS _ | getAgentENSName | recordOnHedera _ => True
  | serviceRequestCreate data => ∀ id orgId createdAt, P (data.row id orgId createdAt)
  | serviceRequestUpdate _ data => ∃ u, data = { hedera := u }
  | _ => False

/-- The call to the resolver is answered with what `ens` resolves the input to. -/
def EnsClient.Resolves (ens : EnsClient) : (c : ServerCall) → Except Failure c.Resp → Prop
  | .resolveENS input, r => r = .ok (ens.resolveENS input)
  | _, _ => True

/-- The answers to a run of the route, any call of which but the clock's may fail, with the
resolver `ens`. -/
def ensAnswers (ens : EnsClient) : Answers serverSig Failure Db := fun db c db' r =>
  routeAnswers db c db' r ∧ ens.Resolves c r

section Run

variable {ens : EnsClient} {web3 : Web3} {P : ServiceRequest → Prop} {db w w' : Db}

theorem Db.AddsOnly.step (hstable : ∀ row u, P row → P (({ hedera := u } :
      ServiceRequestUpdate).apply row)) {c : ServerCall} {r : Except Failure c.Resp}
    (hc : c.StagesOnly P) (h : db.AddsOnly P w) (hanswer : routeAnswers w c w' r) :
    db.AddsOnly P w' := by
  rcases hanswer with hexec | ⟨-, rfl, -⟩
  · cases c with
    | rateLimit _ | resolveENS _ | getAgentENSName =>
        obtain ⟨rfl, -⟩ := hexec
        exact h
    | recordOnHedera _ =>
        obtain rfl : w' = w := hexec
        exact h
    | quota c =>
        obtain ⟨subscriptions, rfl⟩ := QuotaCall.Exec.subscriptions hexec
        exact h
    | serviceRequestCreate data =>
        rcases hexec with ⟨-, j, orgId, createdAt, hfree, -, rfl, -⟩ | ⟨rfl, -⟩ | ⟨rfl, -⟩
        · intro id row hnone hsome
          have hinsert : (w.insertRequest (data.row j orgId createdAt) hfree).request? id =
              if id = j then some (data.row j orgId createdAt) else w.request? id :=
            w.request?_insertRequest (data.row j orgId createdAt) hfree id
          rw [hinsert] at hsome
          split at hsome
          · cases hsome
            exact hc j orgId createdAt
          · exact h id row hnone hsome
        · exact h
        · exact h
    | serviceRequestUpdate j data =>
        obtain ⟨u, rfl⟩ := hc
        simp only [ServerCall.Exec] at hexec
        split at hexec
        · obtain ⟨rfl, -⟩ := hexec
          intro id row hnone hsome
          rw [request?_updateRequest] at hsome
          split at hsome
          · rename_i hid
            subst hid
            obtain ⟨row₀, hrow₀, rfl⟩ := Option.map_eq_some_iff.1 hsome
            exact hstable _ _ (h id row₀ hnone hrow₀)
          · exact h id row hnone hsome
        · obtain ⟨rfl, -⟩ := hexec
          exact h
    | _ => exact hc.elim
  · exact h

theorem stagedFor_hedera {body : Json} (row : ServiceRequest) (u : HederaUpdate)
    (h : StagedFor ens web3 body row) :
    StagedFor ens web3 body (({ hedera := u } : ServiceRequestUpdate).apply row) := h

/-- A run that makes only calls that stage rows for the body adds no others. -/
theorem wp_of_only {α : Type} {body : Json} {p : ServerProgram α}
    (h : p.Only (ServerCall.StagesOnly (StagedFor ens web3 body)))
    (hw : db.AddsOnly (StagedFor ens web3 body) w) :
    p.wp (ensAnswers ens) (fun w _ => db.AddsOnly (StagedFor ens web3 body) w)
      (fun _ w => db.AddsOnly (StagedFor ens web3 body) w) w :=
  h.wp (fun _ _ _ _ hc hw hanswer => hw.step stagedFor_hedera hc hanswer.1)
    (fun _ _ _ hw => hw) hw

/-- What the route resolves the recipient to. -/
theorem resolveRecipient_wp {body : Json} (input : ServiceRequestInput)
    (hw : db.AddsOnly (StagedFor ens web3 body) w) :
    (resolveRecipient input).wp (ensAnswers ens)
      (fun w _ => db.AddsOnly (StagedFor ens web3 body) w)
      (fun r w => db.AddsOnly (StagedFor ens web3 body) w ∧ r = .ok (input.resolved ens)) w := by
  rw [resolveRecipient, ServiceRequestInput.resolved]
  split
  · refine (Program.wp_bind _ _ _ _).2 ((Program.wp_perform _ _ _).2 ⟨hw, ?_⟩)
    rintro w' r ⟨hanswer, rfl⟩
    exact ⟨hw.step (c := .resolveENS _) stagedFor_hedera trivial hanswer, rfl⟩
  · exact ⟨hw, rfl⟩

theorem serve_addsOnly {evmAppWalletAddress : Option String} {body : Json}
    {input : ServiceRequestInput} (hbody : ServiceRequestInput.safeParse body = .ok input)
    (auth : UserAuthContext) (hw : db.AddsOnly (StagedFor ens web3 body) w) :
    (serve web3 evmAppWalletAddress input auth).wp (ensAnswers ens)
      (fun w _ => db.AddsOnly (StagedFor ens web3 body) w)
      (fun _ w => db.AddsOnly (StagedFor ens web3 body) w) w := by
  refine Program.wp_seq (resolveRecipient_wp input hw) ?_ fun _ _ h => h.1
  rintro resolved w₁ ⟨hw₁, hresolved⟩
  cases resolved with
  | error response => exact hw₁
  | ok recipient =>
      refine wp_of_only ?_ hw₁
      refine Program.only_bind ((Program.only_perform _).2 trivial) fun agentENSName => ?_
      refine Program.only_done_bind fun refusal hrefuse => ?_
      cases refusal with
      | some response => exact trivial
      | none =>
          refine Program.only_bind (chargeOrg_only (fun _ => trivial) _) fun response => ?_
          cases response with
          | some response => exact trivial
          | none =>
              refine stage_only (fun _ => trivial) (fun _ => trivial) (fun _ _ => ⟨_, rfl⟩) ?_
              intro attestedAt id orgId createdAt
              exact ⟨input, hbody, recipient, (Except.ok.inj hresolved).symm, hrefuse, auth,
                agentENSName, attestedAt, orgId, createdAt, rfl⟩

/-- Wherever a run of the route is cut off, the rows it has added are staged for its
body. -/
theorem stagedFor_of_haltsAt {evmAppWalletAddress : Option String} {clientKey : String}
    {session : Session} {body : Option Json} {db' : Db}
    {point : Program.Halt serverSig Failure IntakeResponse}
    (hrun : (postServiceRequests web3 evmAppWalletAddress clientKey session body).HaltsAt
      (ensAnswers ens) db db' point) {id : String} {row : ServiceRequest}
    (hnone : db.request? id = none) (hsome : db'.request? id = some row) :
    ∃ json, body = some json ∧ StagedFor ens web3 json row := by
  let staged (row : ServiceRequest) : Prop := ∃ json, body = some json ∧ StagedFor ens web3 json row
  have hstart : db.AddsOnly staged db := Db.addsOnly_of_serviceRequests rfl
  refine Program.wp_haltsAt (P := fun w _ => db.AddsOnly staged w) _ ?_ hrun id row hnone hsome
  refine (Program.wp_bind _ _ _ _).2 ((Program.wp_perform _ _ _).2 ⟨hstart, ?_⟩)
  rintro w r ⟨hanswer, -⟩
  obtain rfl : w = db := by
    rcases hanswer with ⟨hw, -⟩ | ⟨-, hw, -⟩
    · exact hw
    · exact hw
  cases r with
  | error e => exact hstart
  | ok refused =>
      cases refused with
      | some _ => exact hstart
      | none =>
          simp only
          cases requireUser session with
          | error e => exact hstart
          | ok auth =>
              cases body with
              | none => exact hstart
              | some json =>
                  simp only
                  cases hbody : ServiceRequestInput.safeParse json with
                  | error issues => exact hstart
                  | ok input =>
                      have hadds : ∀ {w' : Db}, w.AddsOnly (StagedFor ens web3 json) w' →
                          w.AddsOnly staged w' := fun h id row hnone hsome =>
                        ⟨json, rfl, h id row hnone hsome⟩
                      exact Program.wp_mono _ (fun _ _ _ _ h => h) (fun _ _ h => hadds h)
                        (fun _ _ h => hadds h)
                        (serve_addsOnly hbody auth (Db.addsOnly_of_serviceRequests rfl))

end Run

/-! ## The wallet -/

theorem refuseWallet_eq_none_iff (web3 : Web3) (wallet : String) :
    refuseWallet web3 wallet = .ok none ↔
      isEvmAddress wallet = true ∨ ∃ recipient, assertValidRecipient web3 wallet = .ok recipient := by
  rw [refuseWallet]
  cases isEvmAddress wallet with
  | true => simp
  | false =>
      cases assertValidRecipient web3 wallet with
      | ok recipient => simp
      | error e => cases e <;> simp

/-- The wallet and the name of a staged row. -/
theorem ServiceRequestInput.Stages.columns {ens : EnsClient} {web3 : Web3}
    {input : ServiceRequestInput} {row : ServiceRequest} (h : input.Stages ens web3 row) :
    ∃ recipient, input.resolved ens = .ok recipient ∧
      refuseWallet web3 row.recipientWallet = .ok none ∧ row.recipientWallet = recipient.wallet ∧
      row.recipientEnsName = input.recipientEnsName.or recipient.ensDisplayName := by
  obtain ⟨recipient, hresolved, hrefuse, auth, agentENSName, attestedAt, orgId, createdAt, hrow⟩ := h
  have hwallet : row.recipientWallet = recipient.wallet :=
    congrArg ServiceRequest.recipientWallet hrow
  exact ⟨recipient, hresolved, hwallet ▸ hrefuse, hwallet,
    congrArg ServiceRequest.recipientEnsName hrow⟩

section Claims

variable {ens : EnsClient} {web3 : Web3} {evmAppWalletAddress : Option String}
  {clientKey : String} {session : Session} {body : Option Json} {db db' : Db}
  {point : Program.Halt serverSig Failure IntakeResponse} {id : String} {row : ServiceRequest}

/-! ### The recipient of a body -/

/-- The server resolves the name that the body gives to the address or, when it resolves it to
none, the form has. -/
def ServiceRequestInput.ResolvesTo (ens : EnsClient) (input : ServiceRequestInput)
    (address : String) : Prop :=
  ens.address input.recipientWallet = some address ∨
    ens.address input.recipientWallet = none ∧ input.clientResolved = some address

/-- A name comes with the address that it resolves to. -/
theorem ServiceRequestInput.resolved_of_looksLikeEns {input : ServiceRequestInput}
    {recipient : Recipient} (hname : looksLikeEns input.recipientWallet = true)
    (htrim : trim input.recipientWallet = input.recipientWallet)
    (h : input.resolved ens = .ok recipient) : input.ResolvesTo ens recipient.wallet ∧
      ∀ name, recipient.ensDisplayName = some name → name = input.recipientWallet := by
  obtain ⟨hdisplay, hwas, haddress⟩ := ens.resolveENS_of_looksLikeEns hname htrim
  rw [resolved, if_pos hname, ServiceRequestInput.recipient, haddress] at h
  cases hserver : ens.address input.recipientWallet with
  | some address =>
      simp only [hserver] at h
      cases h
      refine ⟨Or.inl hserver, fun name hsome => ?_⟩
      simp only [Option.ite_none_right_eq_some] at hsome
      exact (Option.some.inj hsome.2).symm.trans hdisplay
  | none =>
      simp only [hserver] at h
      cases hclient : input.clientResolved with
      | some address =>
          simp only [hclient] at h
          cases h
          exact ⟨Or.inr ⟨hserver, hclient⟩, fun name hsome => (Option.some.inj hsome).symm⟩
      | none =>
          simp only [hclient, hwas, if_true] at h
          cases h

theorem ServiceRequestInput.resolved_of_raw {input : ServiceRequestInput} {recipient : Recipient}
    (hraw : looksLikeEns input.recipientWallet = false) (h : input.resolved ens = .ok recipient) :
    recipient = ⟨input.recipientWallet, none⟩ := by
  rw [resolved, hraw] at h
  exact (Except.ok.inj h).symm

/-- The address at which the recipient of the body is served: a raw address itself, or what
the name resolves to. -/
def ServiceRequestInput.ServedAt (ens : EnsClient) (input : ServiceRequestInput)
    (address : String) : Prop :=
  if looksLikeEns input.recipientWallet then input.ResolvesTo ens address
  else address = input.recipientWallet

theorem ServiceRequestInput.ResolvesTo.unique {input : ServiceRequestInput}
    {address address' : String} (h : input.ResolvesTo ens address)
    (h' : input.ResolvesTo ens address') : address' = address := by
  rcases h with h | ⟨h, hclient⟩
  · rcases h' with h' | ⟨h', -⟩
    · exact Option.some.inj (h'.symm.trans h)
    · cases h'.symm.trans h
  · rcases h' with h' | ⟨-, hclient'⟩
    · cases h'.symm.trans h
    · exact Option.some.inj (hclient'.symm.trans hclient)

theorem ServiceRequestInput.servedAt_iff {input : ServiceRequestInput} {recipient : Recipient}
    (htrim : trim input.recipientWallet = input.recipientWallet)
    (h : input.resolved ens = .ok recipient) (address : String) :
    input.ServedAt ens address ↔ address = recipient.wallet := by
  cases hlooks : looksLikeEns input.recipientWallet with
  | true =>
      obtain ⟨hresolves, -⟩ := ServiceRequestInput.resolved_of_looksLikeEns hlooks htrim h
      rw [ServedAt, if_pos hlooks]
      exact ⟨hresolves.unique, fun heq => heq ▸ hresolves⟩
  | false =>
      obtain rfl := ServiceRequestInput.resolved_of_raw hlooks h
      rw [ServedAt, hlooks]
      exact Iff.rfl

/-- `SolanaAdapter.send` accepts the recipient, and goes on to broadcast. -/
def Web3.Accepts (web3 : Web3) (recipientWallet : String) : Prop :=
  ∃ recipient, assertValidRecipient web3 recipientWallet = .ok recipient ∧
    ∀ lamports memoParts,
      (solanaAdapter web3).send ⟨recipientWallet, lamports, memoParts⟩ =
        sendTransaction recipient lamports (String.intercalate " | " memoParts)

theorem Web3.accepts_iff (web3 : Web3) (recipientWallet : String) :
    web3.Accepts recipientWallet ↔
      ∃ recipient, assertValidRecipient web3 recipientWallet = .ok recipient := by
  refine exists_congr fun recipient => and_iff_left_of_imp fun h lamports memoParts => ?_
  simp only [solanaAdapter, h]

/-- An EVM address is no public key: its first character is not of the base58 alphabet. -/
theorem not_accepts_of_isEvmAddress (hkeys : ∀ text, '0' ∈ text.toList →
    web3.parsePublicKey text = none) {wallet : String} (h : isEvmAddress wallet = true) :
    ¬ web3.Accepts wallet := by
  rw [web3.accepts_iff, assertValidRecipient, hkeys wallet (zero_mem_of_isEvmAddress h)]
  nofun

/-- The recipient of a staged request is accepted by the worker exactly if the body's does
not come to an EVM address. -/
theorem accepts_iff_of_staged
    (hkeys : ∀ text, '0' ∈ text.toList → web3.parsePublicKey text = none)
    (hrun : (postServiceRequests web3 evmAppWalletAddress clientKey session body).HaltsAt
      (ensAnswers ens) db db' point) (hnone : db.request? id = none)
    (hsome : db'.request? id = some row) :
    ∃ json input, body = some json ∧ ServiceRequestInput.safeParse json = .ok input ∧
      (web3.Accepts row.recipientWallet ↔
        ∀ address, input.ServedAt ens address → isEvmAddress address = false) := by
  obtain ⟨json, hbody, input, hinput, hstages⟩ := stagedFor_of_haltsAt hrun hnone hsome
  obtain ⟨recipient, hresolved, hrefuse, hwallet, -⟩ := hstages.columns
  have htrim := (ServiceRequestInput.valid_of_safeParse hinput).recipientWallet
  refine ⟨json, input, hbody, hinput, ?_⟩
  simp only [ServiceRequestInput.servedAt_iff htrim hresolved, forall_eq, ← hwallet]
  constructor
  · exact fun haccepts => Bool.eq_false_iff.2 fun h => not_accepts_of_isEvmAddress hkeys h haccepts
  · intro hevm
    rw [web3.accepts_iff]
    refine ((refuseWallet_eq_none_iff web3 row.recipientWallet).1 hrefuse).resolve_left ?_
    exact Bool.eq_false_iff.1 hevm

/-! ## The name -/

/-- The name of the row is the one that the body gives, and resolves to its wallet; a row with
a raw address has none. -/
structure ServiceRequestInput.NamesServed (ens : EnsClient) (input : ServiceRequestInput)
    (row : ServiceRequest) : Prop where
  named : ∀ name, row.recipientEnsName = some name →
    name = input.recipientWallet ∧ input.ResolvesTo ens row.recipientWallet
  raw : looksLikeEns input.recipientWallet = false → row.recipientEnsName = none

/-- A staged request names the party it is served to exactly if the form sends no name of
its own, or the one that it gives as the recipient. -/
theorem namesServed_iff
    (hrun : (postServiceRequests web3 evmAppWalletAddress clientKey session body).HaltsAt
      (ensAnswers ens) db db' point) (hnone : db.request? id = none)
    (hsome : db'.request? id = some row) :
    ∃ json input, body = some json ∧ ServiceRequestInput.safeParse json = .ok input ∧
      (input.NamesServed ens row ↔ input.recipientEnsName = none ∨
        looksLikeEns input.recipientWallet = true ∧
          input.recipientEnsName = some input.recipientWallet) := by
  obtain ⟨json, hbody, input, hinput, hstages⟩ := stagedFor_of_haltsAt hrun hnone hsome
  obtain ⟨recipient, hresolved, -, hwallet, hname⟩ := hstages.columns
  refine ⟨json, input, hbody, hinput, fun h => ?_, fun h => ⟨fun name hrow => ?_, fun hraw => ?_⟩⟩
  · cases hform : input.recipientEnsName with
    | none => exact Or.inl rfl
    | some name =>
        rw [hform, Option.some_or] at hname
        obtain ⟨rfl, -⟩ := h.named name hname
        refine Or.inr ⟨Bool.of_not_eq_false fun hraw => ?_, rfl⟩
        rw [h.raw hraw] at hname
        cases hname
  · have htrim := (ServiceRequestInput.valid_of_safeParse hinput).recipientWallet
    rw [hname] at hrow
    cases hlooks : looksLikeEns input.recipientWallet with
    | true =>
        obtain ⟨hresolves, hdisplay⟩ :=
          ServiceRequestInput.resolved_of_looksLikeEns hlooks htrim hresolved
        refine ⟨?_, hwallet ▸ hresolves⟩
        rcases h with h | ⟨-, h⟩
        · rw [h, Option.none_or] at hrow
          exact hdisplay name hrow
        · rw [h, Option.some_or] at hrow
          exact (Option.some.inj hrow).symm
    | false =>
        obtain rfl := ServiceRequestInput.resolved_of_raw hlooks hresolved
        rcases h with h | ⟨h, -⟩
        · rw [h] at hrow
          cases hrow
        · rw [hlooks] at h
          cases h
  · obtain rfl := ServiceRequestInput.resolved_of_raw hraw hresolved
    rcases h with h | ⟨h, -⟩
    · rw [hname, h, Option.none_or]
    · rw [hraw] at h
      cases h

end Claims

/-! ## Three requests -/

section Examples

/-- An EVM address. -/
def exampleEvmAddress : String := "0x52908400098527886E0F7030069857D2E4169EE7"

/-- A resolver that resolves `defendant.eth` and no other name. -/
def exampleEns : EnsClient where
  getAddressRecord name := .ok (if name = "defendant.eth" then some exampleEvmAddress else none)
  getName _ := .ok none

/-- What the route stages for `exampleSession`. -/
def servedData (input : ServiceRequestInput) (recipient : Recipient) : ServiceRequestCreate :=
  input.data ⟨"user-1", none⟩ recipient none 0

/-- A database with this request only. -/
def oneServed (input : ServiceRequestInput) (recipient : Recipient) : Db :=
  ({} : Db).insertRequest ((servedData input recipient).row "sr-1" none 0) rfl

theorem request?_oneServed (input : ServiceRequestInput) (recipient : Recipient) :
    (oneServed input recipient).request? "sr-1" =
      some ((servedData input recipient).row "sr-1" none 0) := rfl

theorem stage_exampleSession (input : ServiceRequestInput) (recipient : Recipient) :
    (stage none input ⟨"user-1", none⟩ recipient none).Runs (ensAnswers exampleEns) {}
      (oneServed input recipient) (.ok (.created "sr-1" .staged)) := by
  have hnow : ensAnswers exampleEns {} (.quota .now) {} (.ok (0 : ℤ)) :=
    ⟨Or.inl ⟨rfl, 0, rfl⟩, trivial⟩
  have hcreate : ensAnswers exampleEns {} (.serviceRequestCreate (servedData input recipient))
      (oneServed input recipient) (.ok "sr-1") :=
    ⟨Or.inl (Or.inl ⟨Or.inl rfl, "sr-1", none, 0, rfl, rfl, rfl, rfl⟩), trivial⟩
  have hrecord : ∀ payload, ensAnswers exampleEns (oneServed input recipient)
      (.recordOnHedera payload) (oneServed input recipient) (.error (.error "unavailable")) :=
    fun _ => ⟨Or.inl rfl, trivial⟩
  exact .call hnow <| .call hcreate <| .call (hrecord _) ⟨rfl, rfl⟩

theorem resolveRecipient_runs (input : ServiceRequestInput) :
    (resolveRecipient input).Runs (ensAnswers exampleEns) {} {}
      (.ok (input.resolved exampleEns)) := by
  have hlookup : ensAnswers exampleEns {} (.resolveENS input.recipientWallet) {}
      (.ok (exampleEns.resolveENS input.recipientWallet)) := ⟨Or.inl ⟨rfl, _, rfl⟩, rfl⟩
  rw [resolveRecipient, ServiceRequestInput.resolved]
  split
  · exact .call hlookup ⟨rfl, rfl⟩
  · exact ⟨rfl, rfl⟩

/-- A run of the route that stages a request. -/
theorem post_exampleSession (body : Json) (input : ServiceRequestInput) (recipient : Recipient)
    (hbody : ServiceRequestInput.safeParse body = .ok input)
    (hresolved : input.resolved exampleEns = .ok recipient)
    (hrefuse : refuseWallet asciiWeb3 recipient.wallet = .ok none) :
    (postServiceRequests asciiWeb3 none "ip" exampleSession (some body)).HaltsAt
      (ensAnswers exampleEns) {} (oneServed input recipient)
      (.ended (.ok (.created "sr-1" .staged))) := by
  have hlimit : ensAnswers exampleEns {} (.rateLimit "service-requests:ip") {} (.ok none) :=
    ⟨Or.inl ⟨rfl, none, rfl⟩, trivial⟩
  have hagent : ensAnswers exampleEns {} .getAgentENSName {} (.ok none) :=
    ⟨Or.inl ⟨rfl, none, rfl⟩, trivial⟩
  have hserve : (serve asciiWeb3 none input ⟨"user-1", none⟩).Runs (ensAnswers exampleEns) {}
      (oneServed input recipient) (.ok (.created "sr-1" .staged)) := by
    have hresolve := resolveRecipient_runs input
    rw [hresolved] at hresolve
    refine (Program.runs_bind _ _ _ _ _).2 (Or.inl ⟨_, _, hresolve, .call hagent ?_⟩)
    rw [hrefuse]
    exact stage_exampleSession input recipient
  refine Program.Runs.haltsAt (.call hlimit ?_)
  simp only [hbody]
  exact hserve

/-- A body with this recipient, and the name that the form sends. -/
def recipientBody (wallet : String) (name : Option String) : Json :=
  .object [("caseCaption", .string "A v. B"), ("plaintiffName", .string "A"),
    ("defendantName", .string "B"), ("recipientWallet", .string wallet),
    ("recipientEnsName", name.elim .null .string), ("attested", .bool true)]

/-- What it parses to. -/
def recipientInput (wallet : String) (name : Option String) : ServiceRequestInput :=
  { exampleInput with recipientWallet := wallet, recipientEnsName := name }

theorem safeParse_evm : ServiceRequestInput.safeParse (recipientBody exampleEvmAddress none) =
    .ok (recipientInput exampleEvmAddress none) := by decide

theorem safeParse_raw (name : Option String) (hname : name = none ∨ name = some "other.eth") :
    ServiceRequestInput.safeParse (recipientBody systemProgramAddress name) =
      .ok (recipientInput systemProgramAddress name) := by
  rcases hname with rfl | rfl
  · decide
  · decide

theorem safeParse_name : ServiceRequestInput.safeParse
    (recipientBody "defendant.eth" (some "defendant.eth")) =
      .ok (recipientInput "defendant.eth" (some "defendant.eth")) := by decide

theorem resolved_raw (wallet : String) (name : Option String) (hraw : looksLikeEns wallet = false) :
    (recipientInput wallet name).resolved exampleEns = .ok ⟨wallet, none⟩ := by
  have hwallet : (recipientInput wallet name).recipientWallet = wallet := rfl
  rw [ServiceRequestInput.resolved, hwallet, hraw]
  rfl

theorem refuseWallet_evm : refuseWallet asciiWeb3 exampleEvmAddress = .ok none := by decide

theorem refuseWallet_systemProgram : refuseWallet asciiWeb3 systemProgramAddress = .ok none := by
  decide

/-- The wallet of a request to an EVM address is not accepted. -/
theorem not_accepted_of_evmAddress :
    ¬ ∀ ens web3 evmAppWalletAddress clientKey session body db db'
      (point : Program.Halt serverSig Failure IntakeResponse) id row,
      (postServiceRequests web3 evmAppWalletAddress clientKey session body).HaltsAt
        (ensAnswers ens) db db' point → db.request? id = none → db'.request? id = some row →
      ∃ recipient, assertValidRecipient web3 row.recipientWallet = .ok recipient := by
  intro h
  have hrun := post_exampleSession _ _ ⟨exampleEvmAddress, none⟩ safeParse_evm
    (resolved_raw exampleEvmAddress none (by decide)) refuseWallet_evm
  have haccepted := h _ _ _ _ _ _ _ _ _ _ _ hrun rfl (request?_oneServed _ _)
  have hmalformed : assertValidRecipient asciiWeb3 exampleEvmAddress =
      .error (.invalidRecipient exampleEvmAddress .malformed) := rfl
  simp only [servedData, ServiceRequestInput.data, ServiceRequestCreate.row, hmalformed,
    reduceCtorEq, exists_false] at haccepted

/-- The worker accepts the recipient of a staged request to the system program. -/
theorem accepts_iff_of_systemProgram : ∃ json input,
    some (recipientBody systemProgramAddress none) = some json ∧
      ServiceRequestInput.safeParse json = .ok input ∧
      (asciiWeb3.Accepts systemProgramAddress ↔
        ∀ address, input.ServedAt exampleEns address → isEvmAddress address = false) := by
  have hkeys : ∀ text, '0' ∈ text.toList → asciiWeb3.parsePublicKey text = none := by
    rintro text htext
    refine if_neg ?_
    rintro rfl
    exact absurd htext (by decide)
  have hrun := post_exampleSession _ _ ⟨systemProgramAddress, none⟩
    (safeParse_raw none (Or.inl rfl)) (resolved_raw systemProgramAddress none (by decide))
    refuseWallet_systemProgram
  exact accepts_iff_of_staged hkeys hrun rfl (request?_oneServed _ _)

/-- The name that the form sends is stored beside a raw address. -/
theorem not_namesServed_of_formName :
    ¬ ∀ ens web3 evmAppWalletAddress clientKey session body db db'
      (point : Program.Halt serverSig Failure IntakeResponse) id row,
      (postServiceRequests web3 evmAppWalletAddress clientKey session body).HaltsAt
        (ensAnswers ens) db db' point → db.request? id = none → db'.request? id = some row →
      ∃ json input, body = some json ∧ ServiceRequestInput.safeParse json = .ok input ∧
        input.NamesServed ens row := by
  intro h
  have hparse := safeParse_raw (some "other.eth") (Or.inr rfl)
  have hrun := post_exampleSession _ _ ⟨systemProgramAddress, none⟩ hparse
    (resolved_raw systemProgramAddress (some "other.eth") (by decide)) refuseWallet_systemProgram
  obtain ⟨json, input, hjson, hinput, hserved⟩ :=
    h _ _ _ _ _ _ _ _ _ _ _ hrun rfl (request?_oneServed _ _)
  obtain rfl := Option.some.inj hjson
  obtain rfl := Except.ok.inj (hparse.symm.trans hinput)
  cases hserved.raw (by decide)

/-- The request to a name that resolves is stored under it. -/
theorem namesServed_of_resolved : ∃ json input,
    some (recipientBody "defendant.eth" (some "defendant.eth")) = some json ∧
      ServiceRequestInput.safeParse json = .ok input ∧
      (input.NamesServed exampleEns ((servedData (recipientInput "defendant.eth"
        (some "defendant.eth")) ⟨exampleEvmAddress, some "defendant.eth"⟩).row "sr-1" none 0) ↔
        input.recipientEnsName = none ∨ looksLikeEns input.recipientWallet = true ∧
          input.recipientEnsName = some input.recipientWallet) := by
  have hresolved : (recipientInput "defendant.eth" (some "defendant.eth")).resolved exampleEns =
      .ok ⟨exampleEvmAddress, some "defendant.eth"⟩ := by decide
  have hrun := post_exampleSession _ _ ⟨exampleEvmAddress, some "defendant.eth"⟩ safeParse_name
    hresolved refuseWallet_evm
  exact namesServed_iff hrun rfl (request?_oneServed _ _)

end Examples

end EpsDapp
