import EpsDapp.Intake.System

/-!
# Deliveries and their documents

What a delivery proves is bound to the request by its memo: the digest of a
document that was stored for it, and the token of a link that resolves to it.
`createServiceRequest` fills in both; the HTTP route fills in neither, and the
worker then sends, and verifies, a memo with two empty fields. So the memos of a
request are bound exactly if it was staged by `createServiceRequest`.
-/

set_option autoImplicit false

namespace EpsDapp

open Calendar Effect

/-- The columns of a request that its memo is built from: the digest and the
token. -/
abbrev Proof := Option String × Option String

/-- The memo of the request `id`. -/
def Proof.memo (p : Proof) (id : String) : String :=
  buildServiceMemo (p.1.getD "") (p.2.getD "") id

/-- The digest and the token of the request `id`. -/
def Db.proof? (db : Db) (id : String) : Option Proof :=
  (db.request? id).map fun r => (r.documentSha256, r.noticeToken)

theorem Db.proof?_eq_some {db : Db} {id : String} {r : ServiceRequest}
    (h : db.request? id = some r) : db.proof? id = some (r.documentSha256, r.noticeToken) := by
  rw [proof?, h, Option.map_some]

theorem Db.tokensUnique_iff (db : Db) : db.TokensUnique ↔
    ∀ id id' sha sha' token, db.proof? id = some (sha, some token) →
      db.proof? id' = some (sha', some token) → id = id' := by
  constructor
  · intro h id id' sha sha' token hid hid'
    obtain ⟨r, hr, hp⟩ := Option.map_eq_some_iff.1 hid
    obtain ⟨r', hr', hp'⟩ := Option.map_eq_some_iff.1 hid'
    obtain ⟨hmem, rfl⟩ := (db.request?_eq_some_iff id r).1 hr
    obtain ⟨hmem', rfl⟩ := (db.request?_eq_some_iff id' r').1 hr'
    rw [h r hmem r' hmem' token (congrArg Prod.snd hp) (congrArg Prod.snd hp')]
  · intro h r hr r' hr' token htoken htoken'
    have hp := db.proof?_eq_some ((db.request?_eq_some_iff r.id r).2 ⟨hr, rfl⟩)
    have hp' := db.proof?_eq_some ((db.request?_eq_some_iff r'.id r').2 ⟨hr', rfl⟩)
    rw [htoken] at hp
    rw [htoken'] at hp'
    exact db.serviceRequests.eq_of_key_eq hr hr' (h _ _ _ _ token hp hp')

namespace SystemWorld

variable {env : SystemEnv}

/-- The document was stored for the request `id`: the audit row of its intake has
the key of an object that holds it, and its digest. -/
def HasDocument (env : SystemEnv) (w : SystemWorld) (id : String) (document : Bytes) : Prop :=
  ∃ a ∈ w.db.auditLogs, ∃ orgId objectKey, a.targetId = id ∧
    a.metadata = .staged orgId objectKey (env.crypto.digest document) ∧
    w.objects.Holds env.storage env.crypto objectKey document

/-- The memo contains the digest of a document that was stored for the request, and
a token of 32 hexadecimal digits whose link resolves to it. -/
def Binds (env : SystemEnv) (w : SystemWorld) (id memo : String) : Prop :=
  ∃ document token, w.HasDocument env id document ∧ tokenRe token = true ∧
    (loadNotice w.db token).map NoticeView.id = some id ∧
    memo = buildServiceMemo (env.crypto.digest document) token id

/-- What holds of the requests throughout. -/
structure Bound (env : SystemEnv) (w : SystemWorld) : Prop where
  staged : ∀ id ∈ w.intakes, ∃ document bytes, bytes.length = 16 ∧
    w.db.proof? id = some (some (env.crypto.digest document), some (hexEncode bytes)) ∧
    w.HasDocument env id document
  posted : ∀ id p, w.db.proof? id = some p → id ∉ w.intakes → p = (none, none)
  tokens : w.db.TokensUnique
  memos : ∀ b ∈ w.broadcasts, ∃ p, w.db.proof? b.request = some p ∧ b.memo = p.memo b.request

/-- Nothing of the audit trail or the object store is lost, and every new broadcast
carries the memo of its request. -/
structure Grows (w w' : SystemWorld) : Prop where
  auditLogs : ∀ a ∈ w.db.auditLogs, a ∈ w'.db.auditLogs
  objects : ∀ o ∈ w.objects, o ∈ w'.objects
  broadcasts : ∀ b ∈ w'.broadcasts, b ∈ w.broadcasts ∨
    ∃ p, w.db.proof? b.request = some p ∧ b.memo = p.memo b.request

/-- What a step does to the digests and tokens of the requests. -/
inductive Moves (env : SystemEnv) (w w' : SystemWorld) : Prop
  | keeps (hproof : w'.db.proof? = w.db.proof?) (hintakes : w'.intakes = w.intakes)
  | posts (id : String) (hfree : w.db.proof? id = none)
      (hproof : w'.db.proof? = Function.update w.db.proof? id (some (none, none)))
      (hintakes : w'.intakes = w.intakes)
  | stages (id : String) (document bytes : Bytes) (hlength : bytes.length = 16)
      (hfree : w.db.proof? id = none)
      (htoken : ∀ i sha, w.db.proof? i ≠ some (sha, some (hexEncode bytes)))
      (hproof : w'.db.proof? = Function.update w.db.proof? id
        (some (some (env.crypto.digest document), some (hexEncode bytes))))
      (hdocument : w'.HasDocument env id document) (hintakes : w'.intakes = id :: w.intakes)

theorem HasDocument.grows {w w' : SystemWorld} {id : String} {document : Bytes}
    (h : w.HasDocument env id document) (hw : w.Grows w') : w'.HasDocument env id document := by
  obtain ⟨a, ha, orgId, objectKey, hid, hmetadata, key, iv, hkey, hobject⟩ := h
  exact ⟨a, hw.auditLogs a ha, orgId, objectKey, hid, hmetadata, key, iv, hkey,
    hw.objects _ hobject⟩

/-- A request keeps its digest and its token. -/
theorem Moves.proof? {w w' : SystemWorld} (h : w.Moves env w') {id : String} {p : Proof}
    (hp : w.db.proof? id = some p) : w'.db.proof? id = some p := by
  have hupdate : ∀ {i : String} {q : Option Proof}, w.db.proof? i = none →
      w'.db.proof? = Function.update w.db.proof? i q → w'.db.proof? id = some p := by
    intro i q hfree hproof
    have hi : id ≠ i := by
      rintro rfl
      rw [hfree] at hp
      cases hp
    rw [hproof, Function.update_of_ne hi, hp]
  cases h with
  | keeps hproof _ => rw [hproof, hp]
  | posts i hfree hproof _ => exact hupdate hfree hproof
  | stages i document bytes _ hfree _ hproof _ _ => exact hupdate hfree hproof

theorem Moves.intakes {w w' : SystemWorld} (h : w.Moves env w') :
    ∀ id ∈ w.intakes, id ∈ w'.intakes := by
  intro id hid
  cases h with
  | keeps _ hintakes => rwa [hintakes]
  | posts _ _ _ hintakes => rwa [hintakes]
  | stages _ _ _ _ _ _ _ _ hintakes =>
      rw [hintakes]
      exact List.mem_cons_of_mem _ hid

/-- What the steps keep. -/
theorem Bound.moves {w w' : SystemWorld} (hw : w.Bound env) (h : w.Moves env w')
    (hgrows : w.Grows w') : w'.Bound env where
  staged := by
    have hold : ∀ id ∈ w.intakes, ∃ document bytes, bytes.length = 16 ∧
        w'.db.proof? id = some (some (env.crypto.digest document), some (hexEncode bytes)) ∧
        w'.HasDocument env id document := by
      intro id hid
      obtain ⟨document, bytes, hlength, hproof, hdocument⟩ := hw.staged id hid
      exact ⟨document, bytes, hlength, h.proof? hproof, hdocument.grows hgrows⟩
    intro id hid
    cases h with
    | keeps _ hintakes => exact hold id (hintakes ▸ hid)
    | posts _ _ _ hintakes => exact hold id (hintakes ▸ hid)
    | stages i document bytes hlength _ _ hproof hdocument hintakes =>
        rw [hintakes] at hid
        rcases List.mem_cons.1 hid with rfl | hid
        · exact ⟨document, bytes, hlength, by rw [hproof, Function.update_self], hdocument⟩
        · exact hold id hid
  posted := by
    intro id p hp hid
    have hid' : id ∉ w.intakes := fun hmem => hid (h.intakes id hmem)
    cases h with
    | keeps hproof _ =>
        rw [hproof] at hp
        exact hw.posted id p hp hid'
    | posts i hfree hproof _ =>
        rw [hproof] at hp
        by_cases hi : id = i
        · subst hi
          rw [Function.update_self] at hp
          exact (Option.some.inj hp).symm
        · rw [Function.update_of_ne hi] at hp
          exact hw.posted id p hp hid'
    | stages i document bytes _ _ _ hproof _ hintakes =>
        have hi : id ≠ i := by
          rintro rfl
          exact hid (hintakes ▸ List.mem_cons_self)
        rw [hproof, Function.update_of_ne hi] at hp
        exact hw.posted id p hp hid'
  tokens := by
    have hunique := w.db.tokensUnique_iff.1 hw.tokens
    refine w'.db.tokensUnique_iff.2 fun id id' sha sha' token hp hp' => ?_
    cases h with
    | keeps hproof _ =>
        rw [hproof] at hp hp'
        exact hunique id id' sha sha' token hp hp'
    | posts i hfree hproof _ =>
        rw [hproof] at hp hp'
        have hne : ∀ {j : String} {s : Option String},
            Function.update w.db.proof? i (some (none, none)) j = some (s, some token) →
              j ≠ i := by
          rintro j s hj rfl
          rw [Function.update_self] at hj
          cases hj
        rw [Function.update_of_ne (hne hp)] at hp
        rw [Function.update_of_ne (hne hp')] at hp'
        exact hunique id id' sha sha' token hp hp'
    | stages i document bytes _ _ htoken hproof _ _ =>
        rw [hproof] at hp hp'
        by_cases hi : id = i
        · by_cases hi' : id' = i
          · exact hi.trans hi'.symm
          · rw [hi, Function.update_self] at hp
            rw [Function.update_of_ne hi'] at hp'
            cases hp
            exact absurd hp' (htoken id' sha')
        · rw [Function.update_of_ne hi] at hp
          by_cases hi' : id' = i
          · rw [hi', Function.update_self] at hp'
            cases hp'
            exact absurd hp (htoken id sha)
          · rw [Function.update_of_ne hi'] at hp'
            exact hunique id id' sha sha' token hp hp'
  memos := by
    intro b hb
    rcases hgrows.broadcasts b hb with hold | ⟨p, hp, hmemo⟩
    · obtain ⟨p, hp, hmemo⟩ := hw.memos b hold
      exact ⟨p, h.proof? hp, hmemo⟩
    · exact ⟨p, h.proof? hp, hmemo⟩

/-- The memo of a request is bound exactly if `createServiceRequest` has staged
it. -/
theorem Bound.binds_iff {w : SystemWorld} (hw : w.Bound env) {id : String} {p : Proof}
    (hp : w.db.proof? id = some p) : w.Binds env id (p.memo id) ↔ id ∈ w.intakes := by
  constructor
  · rintro ⟨document, token, -, hre, -, hmemo⟩
    by_contra hid
    obtain rfl := hw.posted id p hp hid
    -- A memo with two empty fields is too short to hold a token.
    have hlength := congrArg (fun s : String => s.toList.length) hmemo
    have htoken : token.toList.length = 32 := by
      simp only [tokenRe, Bool.and_eq_true, decide_eq_true_eq] at hre
      exact hre.1
    simp only [Proof.memo, buildServiceMemo, Option.getD_none, String.toList_append,
      List.length_append, htoken] at hlength
    simp at hlength
  · intro hid
    obtain ⟨document, bytes, hlength, hproof, hdocument⟩ := hw.staged id hid
    cases hp.symm.trans hproof
    obtain ⟨r, hr, hrp⟩ := Option.map_eq_some_iff.1 hproof
    obtain ⟨hmem, rfl⟩ := (w.db.request?_eq_some_iff id r).1 hr
    refine ⟨document, hexEncode bytes, hdocument, tokenRe_hexEncode hlength, ?_, rfl⟩
    rw [loadNotice_noticeToken hw.tokens hmem (congrArg Prod.snd hrp) (tokenRe_hexEncode hlength)]
    rfl

/-- A request has a digest and a token exactly if `createServiceRequest` has staged
it. -/
theorem Bound.filled_iff {w : SystemWorld} (hw : w.Bound env) {id : String} {p : Proof}
    (hp : w.db.proof? id = some p) :
    (p.1.getD "" ≠ "" ∧ p.2.getD "" ≠ "") ↔ id ∈ w.intakes := by
  constructor
  · intro h
    by_contra hid
    obtain rfl := hw.posted id p hp hid
    exact h.1 rfl
  · intro hid
    obtain ⟨document, bytes, hlength, hproof, -⟩ := hw.staged id hid
    cases hp.symm.trans hproof
    have hne : ∀ {data : Bytes}, data ≠ [] → hexEncode data ≠ "" := by
      intro data hdata hempty
      have hlength := length_hexEncode data
      rw [hempty] at hlength
      cases data with
      | nil => exact hdata rfl
      | cons b data => simp at hlength
    refine ⟨hne fun h => ?_, hne fun h => ?_⟩
    · have hsha := env.crypto.length_sha256 document
      rw [h] at hsha
      cases hsha
    · rw [h] at hlength
      cases hlength

/-! ## What the calls do -/

theorem proof?_of_faultyAnswers {db db' : Db} {c : DeliveryCall} {r : Except Failure c.Resp}
    (h : faultyAnswers db c db' r) : db'.proof? = db.proof? := by
  funext j
  rw [Db.proof?, request?_of_faultyAnswers h j]
  cases c.write r with
  | none => rfl
  | some q =>
      by_cases hj : j = q.1
      · subst hj
        simp [Db.proof?, Function.comp_def]
      · simp [hj, Db.proof?]

theorem proof?_updateRequest (db : Db) (id : String) (u : ServiceRequestUpdate) :
    (db.updateRequest id u).proof? = db.proof? := by
  funext j
  rw [Db.proof?, Db.request?_updateRequest]
  by_cases hj : j = id
  · subst hj
    simp [Db.proof?, Function.comp_def]
  · simp [hj, Db.proof?]

theorem proof?_insertRequest (db : Db) (r : ServiceRequest) (h : db.request? r.id = none) :
    (db.insertRequest r h).proof? =
      Function.update db.proof? r.id (some (r.documentSha256, r.noticeToken)) := by
  funext j
  rw [Db.proof?, Db.request?_insertRequest]
  by_cases hj : j = r.id
  · rw [if_pos hj, hj, Function.update_self, Option.map_some]
  · rw [if_neg hj, Function.update_of_ne hj, Db.proof?]

/-- A call of the route posts a request or keeps the digests and tokens, and leaves
the audit trail. -/
theorem exec_ofPost {db db' : Db} {c : ServerCall} {r : Except Failure c.Resp} (hc : c.OfPost)
    (h : c.Exec db db' r) : db'.auditLogs = db.auditLogs ∧
      (db'.proof? = db.proof? ∨ ∃ id, db.proof? id = none ∧
        db'.proof? = Function.update db.proof? id (some (none, none))) := by
  cases c with
  | rateLimit _ | resolveENS _ | getAgentENSName =>
      obtain ⟨rfl, -⟩ := h
      exact ⟨rfl, Or.inl rfl⟩
  | recordOnHedera _ =>
      obtain rfl : db' = db := h
      exact ⟨rfl, Or.inl rfl⟩
  | quota c =>
      obtain ⟨subscriptions, rfl⟩ := QuotaCall.Exec.subscriptions h
      exact ⟨rfl, Or.inl rfl⟩
  | serviceRequestCreate data =>
      rcases h with ⟨-, id, orgId, createdAt, hfree, -, rfl, -⟩ | ⟨rfl, -⟩ | ⟨rfl, -⟩
      · refine ⟨rfl, Or.inr ⟨id, congrArg (Option.map _) hfree, ?_⟩⟩
        refine (proof?_insertRequest db (data.row id orgId createdAt) hfree).trans ?_
        simp only [ServiceRequestCreate.row, hc.1, hc.2]
      · exact ⟨rfl, Or.inl rfl⟩
      · exact ⟨rfl, Or.inl rfl⟩
  | serviceRequestUpdate id data =>
      simp only [ServerCall.Exec] at h
      split at h
      · obtain ⟨rfl, -⟩ := h
        exact ⟨rfl, Or.inl (proof?_updateRequest db id data)⟩
      · obtain ⟨rfl, -⟩ := h
        exact ⟨rfl, Or.inl rfl⟩
  | _ => exact hc.elim

/-- The digest and the token that a worker has read of its row are still the
row's. -/
def Knows (w : SystemWorld) (job : Job) : Prop :=
  ∀ row, (job = .found row ∨ ∃ reads, job = .held row reads) →
    w.db.proof? row.id = some (row.documentSha256, row.noticeToken)

theorem knows_idle (w : SystemWorld) : w.Knows .idle := by
  rintro row (h | ⟨_, h⟩) <;> cases h

theorem Knows.moves {w w' : SystemWorld} {job : Job} (h : w.Knows job) (hw : w.Moves env w') :
    w'.Knows job := fun row hrow => hw.proof? (h row hrow)

theorem Grows.of_eq {w w' : SystemWorld} (hauditLogs : w'.db.auditLogs = w.db.auditLogs)
    (hobjects : w'.objects = w.objects) (hbroadcasts : w'.broadcasts = w.broadcasts) :
    w.Grows w' where
  auditLogs _ ha := hauditLogs ▸ ha
  objects _ ho := hobjects ▸ ho
  broadcasts _ hb := Or.inl (hbroadcasts ▸ hb)

/-- A call of a worker keeps the digests and the tokens, and broadcasts the memo of
the row it holds. -/
theorem moves_of_courierAnswers {job : Job} {w w' : SystemWorld} {c : DeliveryCall}
    {r : Except Failure c.Resp}
    (h : courierAnswers job w.toDeliveryWorld c w'.toDeliveryWorld r)
    (hobjects : w'.objects = w.objects) (hintakes : w'.intakes = w.intakes)
    (hmemo : ∀ row reads, job = .held row reads → c.SendsMemo row.expectedMemo)
    (hjob : w.Knows job) : w.Moves env w' ∧ w.Grows w' := by
  by_cases hc : c.Broadcasts
  · obtain ⟨recipient, lamports, memo, rfl⟩ :
        ∃ recipient lamports memo, c = .chain (.sendTransaction recipient lamports memo) := by
      cases c with
      | chain c =>
          cases c with
          | sendTransaction recipient lamports memo => exact ⟨_, _, _, rfl⟩
          | _ => exact hc.elim
      | _ => exact hc.elim
    obtain ⟨hdb, hsent⟩ := h
    refine ⟨.keeps (congrArg Db.proof? hdb) hintakes,
      ⟨fun a ha => hdb ▸ ha, fun o ho => hobjects ▸ ho, fun b hb => ?_⟩⟩
    rcases hsent with ⟨id, signature, ⟨row, reads, rfl, rfl⟩, hbroadcasts, -⟩ | ⟨hbroadcasts, -⟩
    · rw [hbroadcasts] at hb
      rcases List.mem_append.1 hb with hb | hb
      · exact Or.inl hb
      · obtain rfl := List.mem_singleton.1 hb
        refine Or.inr ⟨_, hjob row (Or.inr ⟨reads, rfl⟩), ?_⟩
        exact hmemo row reads rfl
    · exact Or.inl (hbroadcasts ▸ hb)
  · obtain ⟨hfaulty, hbroadcasts⟩ := courierAnswers_of_not_broadcasts hc h
    refine ⟨.keeps (proof?_of_faultyAnswers hfaulty) hintakes,
      ⟨fun a ha => ?_, fun o ho => hobjects ▸ ho, fun b hb => Or.inl (hbroadcasts ▸ hb)⟩⟩
    rw [auditLogs_of_faultyAnswers hfaulty]
    exact List.mem_append_left _ ha

/-- An intake stages its request with the digest of its document and a fresh token,
or leaves the database. -/
theorem moves_of_transacts {input : CreateServiceRequestInput} {w w' : SystemWorld}
    {r : Except Failure StagedServiceRequest} (h : Transacts env input w w' r) :
    w.Moves env w' ∧ w.Grows w' := by
  obtain ⟨s, result, hruns, hobjects, hbroadcasts, hresult⟩ := h
  obtain ⟨⟨put, hput⟩, hstages⟩ := Program.wp_runs _ (createServiceRequest_wp _ _ input _) hruns
  have hgrows : ∀ o ∈ w.objects, o ∈ w'.objects := by
    intro o ho
    rw [hobjects, hput]
    exact List.mem_append_left _ ho
  cases r with
  | error e =>
      obtain ⟨hdb, hintakes⟩ := hresult
      exact ⟨.keeps (congrArg Db.proof? hdb) hintakes,
        ⟨fun a ha => hdb ▸ ha, hgrows, fun b hb => Or.inl (hbroadcasts ▸ hb)⟩⟩
  | ok staged =>
      obtain ⟨rfl, hdb, hintakes⟩ := hresult
      obtain ⟨-, hholds, hsha256, ⟨bytes, hlength, htoken⟩, hfree, hrow⟩ := hstages staged rfl
      obtain ⟨subscriptions, orgId, attestedAt, createdAt, hid, hdb'⟩ := hrow
      have haudit : w'.db.auditLogs = w.db.auditLogs ++
          [input.audit staged.id staged.objectKey staged.sha256] := by rw [hdb, hdb']; rfl
      refine ⟨.stages staged.id input.document bytes hlength (congrArg (Option.map _) hid) ?_ ?_
        ?_ hintakes, ⟨fun a ha => ?_, hgrows, fun b hb => Or.inl (hbroadcasts ▸ hb)⟩⟩
      · intro i sha hi
        obtain ⟨r, hr, hp⟩ := Option.map_eq_some_iff.1 hi
        rcases hfree with hnone | hne
        · cases hnone
        · refine hne r ((w.db.request?_eq_some_iff i r).1 hr).1 ?_
          rw [htoken]
          exact congrArg Prod.snd hp
      · rw [hdb, hdb', ← htoken, ← hsha256]
        exact proof?_insertRequest { w.db with subscriptions := subscriptions } _ hid
      · refine ⟨_, by rw [haudit]; exact List.mem_append_right _ (List.mem_singleton_self _),
          input.orgId, staged.objectKey, rfl, by rw [← hsha256]; rfl, ?_⟩
        rw [hobjects]
        exact hholds
      · rw [haudit]
        exact List.mem_append_left _ ha

/-- What any call does. -/
theorem moves_of_answers {job : Job} {w w' : SystemWorld} {c : SystemCall}
    {r : Except Failure c.Resp} (h : Answers env job w c w' r) (hallowed : c.Allowed job)
    (hjob : w.Knows job) : w.Moves env w' ∧ w.Grows w' := by
  cases c with
  | server c =>
      obtain ⟨hexec, hbroadcasts, hobjects, hintakes⟩ := h
      rcases hexec with hexec | ⟨hdb, -⟩
      · obtain ⟨hauditLogs, hproof⟩ := exec_ofPost hallowed hexec
        refine ⟨?_, .of_eq hauditLogs hobjects hbroadcasts⟩
        rcases hproof with hproof | ⟨id, hfree, hproof⟩
        · exact .keeps hproof hintakes
        · exact .posts id hfree hproof hintakes
      · exact ⟨.keeps (congrArg Db.proof? hdb) hintakes,
          .of_eq (congrArg Db.auditLogs hdb) hobjects hbroadcasts⟩
  | delivery c => exact moves_of_courierAnswers h.1 h.2.1 h.2.2 hallowed.2 hjob
  | createServiceRequest input => exact moves_of_transacts h

theorem Drift.moves {w w' : SystemWorld} (h : w.Drift w') : w.Moves env w' ∧ w.Grows w' := by
  cases h with
  | record id u =>
      exact ⟨.keeps (proof?_updateRequest _ _ _) rfl, .of_eq rfl rfl rfl⟩
  | put objects =>
      exact ⟨.keeps rfl rfl, fun _ ha => ha, fun _ ho => List.mem_append_left _ ho,
        fun _ hb => Or.inl hb⟩
  | other db hrows haudit =>
      obtain ⟨rows, haudit⟩ := haudit
      refine ⟨.keeps ?_ rfl, fun a ha => ?_, fun _ ho => ho, fun _ hb => Or.inl hb⟩
      · funext id
        rw [Db.proof?, Db.request?, hrows, Db.proof?, Db.request?]
      · rw [haudit]
        exact List.mem_append_left _ ha

/-- A worker knows its row once it has found it. -/
theorem Knows.watch {job : Job} {w w' : SystemWorld} {c : SystemCall} {r : Except Failure c.Resp}
    (h : Answers env job w c w' r) (hallowed : c.Allowed job) (hjob : w.Knows job)
    (hmoves : w.Moves env w') : w'.Knows (job.watch c r) := by
  have hold := hjob.moves hmoves
  cases c with
  | server c => exact hold
  | createServiceRequest input => exact hold
  | delivery c =>
      cases c with
      | serviceRequestFindClaimable =>
          rcases r with e | _ | row
          · exact hold
          · exact hold
          · obtain ⟨-, r, hr, -, rfl⟩ := candidate_of_faultyAnswers h.1.1
            rintro row (hrow | ⟨_, hrow⟩)
            · cases hrow
              exact hmoves.proof? (Db.proof?_eq_some hr)
            · cases hrow
      | serviceRequestClaim id =>
          cases job with
          | found row =>
              rcases r with e | _ | n
              · exact hold
              · exact hold
              · rintro row' (hrow | ⟨_, hrow⟩)
                · cases hrow
                · cases hrow
                  exact hold row (Or.inl rfl)
          | _ => exact hold
      | chain c =>
          cases c with
          | getTransaction signature =>
              cases job with
              | held row reads =>
                  cases r with
                  | error e => exact hold
                  | ok tx =>
                      rintro row' (hrow | ⟨_, hrow⟩)
                      · cases hrow
                      · cases hrow
                        exact hold row (Or.inr ⟨reads, rfl⟩)
              | _ => exact hold
          | _ => exact hold
      | _ => exact hold

end SystemWorld

/-! ## Any run -/

variable {ι : Type}

/-- What holds of the system throughout. -/
structure SystemPool.Inv (env : SystemEnv) (c : SystemPool ι) : Prop where
  conform : Machine.AllConform SystemCall.Follows SystemCall.Allowed c
  knows : ∀ i t, c.thread i = some t → c.world.Knows t.mark
  bound : c.world.Bound env

theorem SystemPool.inv_initial (env : SystemEnv) (db : Db) :
    (SystemPool.initial db : SystemPool ι).Inv env where
  conform := fun _ _ h => by cases h
  knows := fun _ _ h => by cases h
  bound := by
    have hnone : ∀ id, (SystemPool.initial db : SystemPool ι).world.db.proof? id = none :=
      fun _ => rfl
    refine ⟨fun id hid => ?_, fun id p hp => ?_, fun r hr => ?_, fun b hb => ?_⟩
    · cases hid
    · rw [hnone id] at hp
      cases hp
    · cases hr
    · cases hb

section Step

variable [DecidableEq ι] {env : SystemEnv}

theorem SystemPool.Inv.step {c c' : SystemPool ι} {l : Label systemSig Failure ι}
    (hc : c.Inv env) (h : (system ι env).Step c l c') : SystemPool.Inv env c' where
  conform := by
    refine Machine.allConform_step ?_ ?_ hc.conform h
    · intro m w o w' r _
      rfl
    · intro i p hp
      exact SystemEntry.conforms hp
  knows := by
    intro j t ht
    cases h with
    | @act i o k m w r hthread hanswer =>
        have hallowed := hc.conform.allowed hthread
        have hmoves := SystemWorld.moves_of_answers hanswer hallowed (hc.knows i _ hthread)
        rcases Machine.thread_of_update ht with ⟨rfl, hnew⟩ | ⟨_, hold⟩
        · cases hnew
          exact (hc.knows j _ hthread).watch hanswer hallowed hmoves.1
        · exact (hc.knows j t hold).moves hmoves.1
    | finish hthread _ | crash hthread _ =>
        rcases Machine.thread_of_update ht with ⟨_, hnew⟩ | ⟨_, hold⟩
        · cases hnew
        · exact hc.knows j t hold
    | start hthread _ =>
        rcases Machine.thread_of_update ht with ⟨_, hnew⟩ | ⟨_, hold⟩
        · cases hnew
          exact SystemWorld.knows_idle _
        · exact hc.knows j t hold
    | @environment w hdrift =>
        have hmoves : c.world.Moves env w ∧ c.world.Grows w := SystemWorld.Drift.moves hdrift
        exact (hc.knows j t ht).moves hmoves.1
  bound := by
    cases h with
    | @act i o k m w r hthread hanswer =>
        have hmoves := SystemWorld.moves_of_answers hanswer (hc.conform.allowed hthread)
          (hc.knows i _ hthread)
        exact hc.bound.moves hmoves.1 hmoves.2
    | @environment w hdrift =>
        have hmoves : c.world.Moves env w ∧ c.world.Grows w := SystemWorld.Drift.moves hdrift
        exact hc.bound.moves hmoves.1 hmoves.2
    | finish _ _ | crash _ _ | start _ _ => exact hc.bound

end Step

/-- The memo was broadcast for the request, or a worker that holds the request
verifies against it. -/
def SystemPool.Uses (c : SystemPool ι) (id memo : String) : Prop :=
  (∃ b ∈ c.world.broadcasts, b.request = id ∧ b.memo = memo) ∨
    ∃ i t row reads, c.thread i = some t ∧ t.mark = .held row reads ∧ row.id = id ∧
      row.expectedMemo = memo

theorem SystemPool.Inv.proof?_of_uses {env : SystemEnv} {c : SystemPool ι} (hc : c.Inv env)
    {id memo : String} (h : c.Uses id memo) :
    ∃ p, c.world.db.proof? id = some p ∧ memo = p.memo id := by
  rcases h with ⟨b, hb, rfl, rfl⟩ | ⟨i, t, row, reads, ht, hmark, rfl, rfl⟩
  · exact hc.bound.memos b hb
  · exact ⟨_, hc.knows i t ht row (Or.inr ⟨reads, hmark⟩), rfl⟩

/-- In every run the memos of a request are bound to a stored document and to its
link, and its digest and token are there once it is `CONFIRMED`, exactly if
`createServiceRequest` has staged it. -/
theorem binds_iff_staged_by_intake [DecidableEq ι] {env : SystemEnv} {db : Db}
    {c : SystemPool ι} (hc : Reaches (system ι env).Step (SystemPool.initial db) c)
    (id : String) :
    (∀ memo, c.Uses id memo → (c.world.Binds env id memo ↔ id ∈ c.world.intakes)) ∧
      ∀ row, c.world.db.request? id = some row → row.status = .confirmed →
        ((row.documentSha256.getD "" ≠ "" ∧ row.noticeToken.getD "" ≠ "") ↔
          id ∈ c.world.intakes) := by
  have hinv : c.Inv env :=
    hc.invariant (fun _ _ _ h hstep => h.step hstep) (SystemPool.inv_initial env db)
  refine ⟨fun memo huses => ?_, fun row hrow _ => ?_⟩
  · obtain ⟨p, hp, rfl⟩ := hinv.proof?_of_uses huses
    exact hinv.bound.binds_iff hp
  · exact hinv.bound.filled_iff (Db.proof?_eq_some hrow)

/-! ## One request by each entry point -/

/-- The bytes `%PDF`. -/
def pdfDocument : Bytes := [0x25, 0x50, 0x44, 0x46]

/-- A mask laid over bytes, as far as it reaches. -/
def masked : Bytes → Bytes → Bytes
  | m :: mask, b :: bytes => (m ^^^ b) :: masked mask bytes
  | _, bytes => bytes

theorem masked_masked (mask bytes : Bytes) : masked mask (masked mask bytes) = bytes := by
  induction mask generalizing bytes with
  | nil => cases bytes <;> rfl
  | cons m mask ih =>
      cases bytes with
      | nil => rfl
      | cons b bytes => simp [masked, ih, ← UInt8.xor_assoc]

/-- The key stream under the zero key, as far as the document goes, and its authentication
tag, for the vectors of zeros and of ones. -/
def pdfKeystream (iv : Bytes) : Bytes :=
  if iv = List.replicate 12 0 then [0xce, 0xa7, 0x40, 0x3d] else [0x75, 0x40, 0xc3, 0x6a]

def pdfTag (iv : Bytes) : Bytes :=
  if iv = List.replicate 12 0 then
    [0x00, 0x17, 0xd7, 0x8e, 0x7d, 0xa9, 0x1e, 0xd2, 0xb3, 0xa7, 0xa7, 0xd0, 0x82, 0x8d, 0x60, 0xac]
  else
    [0x4c, 0xff, 0x79, 0xc2, 0x11, 0x95, 0xb5, 0x32, 0x03, 0x37, 0x15, 0xf6, 0x78, 0x0b, 0x47, 0xec]

/-- `node:crypto` for runs on fixed inputs: what it answers for the document under the zero
key. -/
def plainCrypto : NodeCrypto where
  sha256 _ :=
    [0x31, 0x5d, 0x42, 0x9b, 0x77, 0x14, 0xce, 0xdb, 0x6a, 0xd0, 0x4a, 0xc3, 0x12, 0x40, 0x14, 0x52,
      0x57, 0x69, 0x26, 0x30, 0x45, 0x7f, 0x3c, 0x88, 0x25, 0x3c, 0x5b, 0xec, 0xea, 0xc7, 0x60, 0x27]
  aes256gcm _ iv plaintext := (masked (pdfKeystream iv) plaintext, pdfTag iv)
  gcmOpen _ iv ciphertext authTag :=
    if pdfTag iv = authTag then some (masked (pdfKeystream iv) ciphertext) else none
  length_sha256 _ := rfl
  gcmOpen_eq_some_iff := by
    intro key iv ciphertext authTag plaintext
    have hmask : masked (pdfKeystream iv) ciphertext = plaintext ↔
        masked (pdfKeystream iv) plaintext = ciphertext := by
      constructor
      · rintro rfl
        exact masked_masked _ _
      · rintro rfl
        exact masked_masked _ _
    by_cases h : pdfTag iv = authTag
    · simp [h, hmask]
    · simp [h]

/-- An environment in which documents can be stored. -/
def plainEnv : SystemEnv where
  storage := ⟨some "0000000000000000000000000000000000000000000000000000000000000000",
    some "http://minio:9000", some "minio", some "minio"⟩
  crypto := plainCrypto
  web3 := asciiWeb3
  worker := ⟨none, none⟩

/-- A body that names the system program as the recipient. -/
def exampleBody : Json :=
  .object [("caseCaption", .string "A v. B"), ("plaintiffName", .string "A"),
    ("defendantName", .string "B"), ("recipientWallet", .string systemProgramAddress),
    ("attested", .bool true)]

/-- What the body parses to. -/
def exampleInput : ServiceRequestInput where
  caseCaption := "A v. B"
  plaintiffName := "A"
  defendantName := "B"
  recipientWallet := systemProgramAddress
  recipientEnsName := none
  recipientResolvedAddress := none
  courtOrderFlag := false

example : ServiceRequestInput.safeParse exampleBody = .ok exampleInput := by decide

/-- The session of a user without an organization. -/
def exampleSession : Session := ⟨some "user-1", none, false⟩

/-- What the route stages for it. -/
def postedData : ServiceRequestCreate :=
  exampleInput.data ⟨"user-1", none⟩ ⟨systemProgramAddress, none⟩ none 0

/-- The request of `onePosted`. -/
def postedRequest : ServiceRequest := postedData.row "sr-1" none 0

/-- A database with this request only. -/
def onePosted : Db := ({} : Db).insertRequest postedRequest rfl

/-- The world with this database and these broadcasts, without any intake. -/
def postedWorld (db : Db) (sent : List Broadcast) : SystemWorld := ⟨⟨db, sent⟩, [], []⟩

section Answers

variable {env : SystemEnv} {w : SystemWorld} {job : Job}

theorem SystemWorld.answers_server {c : ServerCall} {db : Db} {r : Except Failure c.Resp}
    (h : c.Exec w.db db r) :
    w.Answers env job (.server c) ⟨⟨db, w.broadcasts⟩, w.objects, w.intakes⟩ r :=
  ⟨Or.inl h, rfl, rfl, rfl⟩

theorem SystemWorld.answers_statement {c : DeliveryCall} {db : Db} {r : Except Failure c.Resp}
    (hc : c.Statement) (h : c.Exec w.db db r) :
    w.Answers env job (.delivery c) ⟨⟨db, w.broadcasts⟩, w.objects, w.intakes⟩ r := by
  refine ⟨?_, rfl, rfl⟩
  cases c with
  | chain _ | record _ | topicMessageSubmit _ | mintAndTransferProofNFT _ => exact hc.elim
  | _ => exact ⟨Or.inl h, rfl⟩

end Answers

theorem post_rateLimit : SystemWorld.Answers plainEnv .idle (postedWorld {} [])
    (.server (.rateLimit "service-requests:ip")) (postedWorld {} []) (.ok none) :=
  SystemWorld.answers_server ⟨rfl, none, rfl⟩

theorem post_agentENSName : SystemWorld.Answers plainEnv .idle (postedWorld {} [])
    (.server .getAgentENSName) (postedWorld {} []) (.ok none) :=
  SystemWorld.answers_server ⟨rfl, none, rfl⟩

theorem post_now : SystemWorld.Answers plainEnv .idle (postedWorld {} [])
    (.server (.quota .now)) (postedWorld {} []) (.ok (0 : ℤ)) :=
  SystemWorld.answers_server ⟨rfl, 0, rfl⟩

theorem post_create : SystemWorld.Answers plainEnv .idle (postedWorld {} [])
    (.server (.serviceRequestCreate postedData)) (postedWorld onePosted []) (.ok "sr-1") :=
  SystemWorld.answers_server (Or.inl ⟨Or.inl rfl, "sr-1", none, 0, rfl, rfl, rfl, rfl⟩)

/-- The row of `onePosted` once it is claimed. -/
def postedClaim : ClaimableRequest := { postedRequest.select with status := .inProgress }

/-- `onePosted` once its request is claimed. -/
def onePostedClaimed : Db := onePosted.updateRequest "sr-1" { status := some .inProgress }

theorem posted_find : SystemWorld.Answers plainEnv .idle (postedWorld onePosted [])
    (.delivery .serviceRequestFindClaimable) (postedWorld onePosted [])
    (.ok (some postedRequest.select)) :=
  SystemWorld.answers_statement trivial
    ⟨rfl, some postedRequest, Db.oldest_of_singleton rfl trivial, rfl⟩

theorem posted_claim : SystemWorld.Answers plainEnv (.found postedRequest.select)
    (postedWorld onePosted []) (.delivery (.serviceRequestClaim "sr-1"))
    (postedWorld onePostedClaimed []) (.ok 1) :=
  SystemWorld.answers_statement trivial ⟨rfl, rfl⟩

theorem posted_adapter : SystemWorld.Answers plainEnv (.held postedClaim 0)
    (postedWorld onePostedClaimed []) (.delivery (.chain .getSolanaAdapter))
    (postedWorld onePostedClaimed []) (.ok ()) :=
  ⟨⟨Or.inl rfl, rfl⟩, rfl, rfl⟩

theorem posted_lamports : SystemWorld.Answers plainEnv (.held postedClaim 0)
    (postedWorld onePostedClaimed []) (.delivery (.chain .getRentExemptMinimum))
    (postedWorld onePostedClaimed []) (.ok (890880 : ℕ)) :=
  ⟨⟨Or.inl rfl, rfl⟩, rfl, rfl⟩

theorem posted_send : SystemWorld.Answers plainEnv (.held postedClaim 0)
    (postedWorld onePostedClaimed [])
    (.delivery (.chain (.sendTransaction (List.replicate 32 0) 890880 "||sr-1")))
    (postedWorld onePostedClaimed [⟨"sr-1", "||sr-1", "sig-1"⟩]) (.ok "sig-1") :=
  ⟨⟨rfl, Or.inl ⟨"sr-1", "sig-1", ⟨postedClaim, 0, rfl, rfl⟩, rfl, Or.inl rfl⟩⟩, rfl, rfl⟩

/-- The route stages a request without a token, and a worker sends for it. -/
theorem not_binds_of_post :
    ¬ ∀ c : SystemPool Unit, Reaches (system Unit plainEnv).Step (SystemPool.initial {}) c →
      ∀ id memo, c.Uses id memo → c.world.Binds plainEnv id memo := by
  intro h
  have hbinds := h _ (
    .head (.start (i := ()) rfl (.post "ip" exampleSession (some exampleBody))) <|
    .head (.act (i := ()) rfl post_rateLimit) <|
    .head (.act (i := ()) rfl post_agentENSName) <|
    .head (.act (i := ()) rfl post_now) <|
    .head (.act (i := ()) rfl post_create) <|
    .head (.crash (i := ()) rfl trivial) <|
    .head (.start (i := ()) rfl .runOnce) <|
    .head (.act (i := ()) rfl posted_find) <|
    .head (.act (i := ()) rfl posted_claim) <|
    .head (.act (i := ()) rfl posted_adapter) <|
    .head (.act (i := ()) rfl posted_lamports) <|
    .head (.act (i := ()) rfl posted_send) <|
    .refl _ _) "sr-1" "||sr-1" (Or.inl ⟨_, List.mem_singleton_self _, rfl, rfl⟩)
  obtain ⟨document, token, ⟨a, ha, -⟩, -⟩ := hbinds
  cases ha

/-- A subscription with a unit left. -/
def freshSubscription : Subscription :=
  ⟨"sub-1", "org-1", "tier1", .active, 0, 2678400000, 0⟩

/-- One organization with its subscription, and no request. -/
def oneOrg : Db where
  organizations := Table.empty.insert ⟨"org-1", "clerk-1", "A", none, 0⟩ (Table.get?_empty "org-1")
  subscriptions := Table.empty.insert freshSubscription rfl

/-- An intake of the document. -/
def exampleIntake : CreateServiceRequestInput where
  orgId := "clerk-1"
  actorId := "user-1"
  caseCaption := "A v. B"
  plaintiffName := "A"
  defendantName := "B"
  recipientWallet := systemProgramAddress
  courtOrderFlag := false
  document := pdfDocument

/-- The digest of its document, and its token. -/
def exampleProof : String × String :=
  (plainCrypto.digest pdfDocument, hexEncode (List.replicate 16 0))

/-- What the intake answers. -/
def exampleStaged : StagedServiceRequest :=
  ⟨"sr-1", .staged, exampleProof.2, "documents/uuid-1", exampleProof.1⟩

/-- The request it stages. -/
def intakeRequest : ServiceRequest :=
  (exampleIntake.data exampleProof.2 exampleProof.1 0).row "sr-1" (some "org-1") 0

/-- The database it leaves. -/
def oneIntake : Db :=
  ((oneOrg.updateSubscription "sub-1" { usageCount := (· + 1) }).insertRequest intakeRequest
    rfl).audit (exampleIntake.audit "sr-1" "documents/uuid-1" exampleProof.1)

/-- The store with its ciphertext. -/
def exampleObjects : ObjectStore := [("documents/uuid-1", [0xeb, 0xf7, 0x04, 0x7b])]

theorem exampleIntake_runs :
    (createServiceRequest plainEnv.storage plainEnv.crypto exampleIntake).Runs storageAnswers
      (oneOrg, []) (oneIntake, exampleObjects) (.ok exampleStaged) := by
  let charged := oneOrg.updateSubscription "sub-1" { usageCount := (· + 1) }
  have htoken : storageAnswers (oneOrg, []) (.randomBytes 16) (oneOrg, [])
      (.ok (List.replicate 16 0)) := ⟨⟨rfl, _, rfl, rfl⟩, rfl⟩
  have hfind : storageAnswers (oneOrg, []) (.quota (.subscriptionFindFirst
      (.activeOfClerkOrg "clerk-1"))) (oneOrg, []) (.ok (some freshSubscription)) :=
    ⟨⟨rfl, Or.inl ⟨trivial, _, Db.latestSubscription_of_singleton rfl ⟨rfl, rfl⟩, rfl⟩⟩, rfl⟩
  have hnow : ∀ s : Db × ObjectStore, storageAnswers s (.quota .now) s (.ok (0 : ℤ)) :=
    fun _ => ⟨⟨rfl, _, rfl⟩, rfl⟩
  have hcharge : storageAnswers (oneOrg, []) (.quota (.subscriptionIncrement "sub-1" 1))
      (charged, []) (.ok 1) := ⟨rfl, rfl⟩
  have hiv : storageAnswers (charged, []) (.randomBytes 12) (charged, [])
      (.ok (List.replicate 12 0)) := ⟨⟨rfl, _, rfl, rfl⟩, rfl⟩
  have huuid : storageAnswers (charged, []) .randomUUID (charged, []) (.ok "uuid-1") :=
    ⟨⟨rfl, _, rfl⟩, rfl⟩
  have hput : storageAnswers (charged, []) (.putObject "documents/uuid-1" [0xeb, 0xf7, 0x04, 0x7b])
      (charged, exampleObjects) (.ok ()) := ⟨rfl, rfl⟩
  have hcreate : storageAnswers (charged, exampleObjects)
      (.serviceRequestCreate (exampleIntake.data exampleProof.2 exampleProof.1 0))
      (charged.insertRequest intakeRequest rfl, exampleObjects) (.ok "sr-1") :=
    ⟨Or.inl ⟨Or.inr (fun _ hr => by cases hr), "sr-1", some "org-1", 0, rfl,
      ⟨_, List.mem_singleton_self _, rfl, rfl⟩, rfl, rfl⟩, rfl⟩
  have haudit : storageAnswers (charged.insertRequest intakeRequest rfl, exampleObjects)
      (.auditLogCreate (exampleIntake.audit "sr-1" "documents/uuid-1" exampleProof.1))
      (oneIntake, exampleObjects) (.ok ()) := ⟨⟨rfl, rfl⟩, rfl⟩
  exact .call htoken <| .call hfind <| .call (hnow _) <| .call hcharge <| .call hiv <|
    .call huuid <| .call hput <| .call (hnow _) <| .call hcreate <| .call haudit ⟨rfl, rfl⟩

/-- The world after the intake. -/
def intakeWorld (db : Db) : SystemWorld :=
  ⟨⟨db, []⟩, exampleObjects, ["sr-1"]⟩

/-- The answer to the intake. -/
def intakeAnswer : Except Failure StagedServiceRequest := .ok exampleStaged

theorem intake_stage : SystemWorld.Answers plainEnv .idle (postedWorld oneOrg [])
    (.createServiceRequest exampleIntake) (intakeWorld oneIntake) intakeAnswer :=
  ⟨_, _, exampleIntake_runs, rfl, rfl, rfl, rfl, rfl⟩

theorem intake_find : SystemWorld.Answers plainEnv .idle (intakeWorld oneIntake)
    (.delivery .serviceRequestFindClaimable) (intakeWorld oneIntake)
    (.ok (some intakeRequest.select)) :=
  SystemWorld.answers_statement trivial
    ⟨rfl, some intakeRequest, Db.oldest_of_singleton rfl trivial, rfl⟩

theorem intake_claim : SystemWorld.Answers plainEnv (.found intakeRequest.select)
    (intakeWorld oneIntake) (.delivery (.serviceRequestClaim "sr-1"))
    (intakeWorld (oneIntake.updateRequest "sr-1" { status := some .inProgress })) (.ok 1) :=
  SystemWorld.answers_statement trivial ⟨rfl, rfl⟩

/-- The memo of a request that an intake has staged, as the worker that claims it
verifies it, is bound. -/
theorem binds_of_intake :
    ∃ c : SystemPool Unit, Reaches (system Unit plainEnv).Step (SystemPool.initial oneOrg) c ∧
      ∃ memo, c.Uses "sr-1" memo ∧ c.world.Binds plainEnv "sr-1" memo := by
  have hstage : (system Unit plainEnv).Step
      ⟨postedWorld oneOrg [], Function.update (fun _ => none) () (some ⟨(fun _ => ()) <$>
        Program.perform (S := systemSig) (.createServiceRequest exampleIntake), .idle⟩)⟩
      (.act () (.createServiceRequest exampleIntake) intakeAnswer) ⟨intakeWorld oneIntake, _⟩ :=
    .act rfl intake_stage
  obtain ⟨c, hrun, huses, hstaged⟩ : ∃ c : SystemPool Unit,
      Reaches (system Unit plainEnv).Step (SystemPool.initial oneOrg) c ∧
        c.Uses "sr-1" intakeRequest.select.expectedMemo ∧ "sr-1" ∈ c.world.intakes :=
    ⟨_, .head (.start (i := ()) rfl (.createServiceRequest exampleIntake)) <|
      .head hstage <| .head (.finish (i := ()) rfl trivial) <|
      .head (.start (i := ()) rfl .runOnce) <| .head (.act (i := ()) rfl intake_find) <|
      .head (.act (i := ()) rfl intake_claim) <| .refl _ _,
      Or.inr ⟨(), _, _, _, rfl, rfl, rfl, rfl⟩, List.mem_cons_self⟩
  exact ⟨c, hrun, _, huses, ((binds_iff_staged_by_intake hrun "sr-1").1 _ huses).2 hstaged⟩

end EpsDapp
