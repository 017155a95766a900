import EpsDapp.Notices.Access

/-!
# The protocol of a first access

The mark of a running call says what its transaction has added so far, and what it
has found or committed. The calls of the page, of a direct call of
`recordFirstAccess` and of an alert obey one protocol over these marks: the three rows
of a first access are added in order and committed together, and what is told of it
was committed or found before.
-/

set_option autoImplicit false

namespace EpsDapp

open Calendar Effect NoticeProgram

/-- The number of audit rows of the first access to a notice. -/
def Db.firstAccessAudits (db : Db) (noticeId : String) : ℕ :=
  db.auditLogs.countP fun a => decide (a.action = "NOTICE_FIRST_ACCESSED" ∧ a.targetId = noticeId)

/-- Others leave what is recorded of first accesses. -/
structure Db.SameAccess (db db' : Db) : Prop where
  noticeAccesses : db'.noticeAccesses = db.noticeAccesses
  certificateAddenda : db'.certificateAddenda = db.certificateAddenda
  audits : ∀ noticeId, db'.firstAccessAudits noticeId = db.firstAccessAudits noticeId

/-- What the transaction of a first access adds. -/
def NoticeAccess.rows (access : NoticeAccess) (addendumId : String) : List AccessWrite :=
  [.access access, .addendum ⟨addendumId, access.noticeId, access.accessedAt, maskIp access.ip⟩,
    .audit (noticeFirstAccessed access.noticeId (maskIp access.ip))]

/-! ## The calls at work -/

/-- A running call: its open transaction with what that has added, the access record that it
has found, and the one that it has committed and told nobody of yet. -/
structure Visit where
  tx : Option (ℕ × List AccessWrite) := none
  seen : Option (String × Instant) := none
  recorded : Option (String × Instant) := none

/-- The notice and the time of an access record. -/
def AccessWrite.accessed : AccessWrite → Option (String × Instant)
  | .access row => some (row.noticeId, row.accessedAt)
  | _ => none

namespace Visit

/-- The mark once the statement of `t` has added the last row of its transaction. -/
def written (m : Visit) (t : ℕ) (w : NoticeWorld) : Visit :=
  { m with tx := m.tx.map fun p => (p.1, p.2 ++ ((w.db.opened t).bind List.getLast?).toList) }

/-- The mark after a call is answered. -/
def observe (m : Visit) (c : NoticeCall) (w : NoticeWorld) (r : Except Failure c.Resp) : Visit :=
  match c, r with
  | .beginTransaction, .ok t => { tx := some (t, []) }
  | .commit _, .ok _ => { m with
      tx := none
      recorded := m.tx.bind fun p => p.2.head?.bind AccessWrite.accessed }
  | .commit _, .error _ => {}
  | .rollback _, _ => {}
  | .serviceRequestFindUnique _ noticeId, .ok (some view) =>
      { m with seen := view.accessedAt.map fun accessedAt => (noticeId, accessedAt) }
  | .noticeAccessCreate t _ _ _, .ok _ => m.written t w
  | .certificateAddendumCreate t _, .ok _ => m.written t w
  | .auditLogCreate t _, .ok _ => m.written t w
  | .reply _ _, _ => { m with recorded := none }
  | .fetchResend _ _ _ _, _ => { m with recorded := none }
  | _, _ => m

/-- The mark a call and its answer lead to. -/
def Follows : Answers noticeSig Failure Visit := fun m c m' r =>
  ∃ w w', noticeAnswers w c w' r ∧ m' = m.observe c w' r

/-- The calls that a visit makes. -/
def Allows (m : Visit) : NoticeCall → Prop
  | .beginTransaction => m = {}
  | .commit t => ∃ rows, m.tx = some (t, rows) ∧
      (rows = [] ∨ ∃ access addendumId, rows = NoticeAccess.rows access addendumId)
  | .rollback t => ∃ rows, m.tx = some (t, rows)
  | .serviceRequestFindUnique t _ => m.tx = some (t, [])
  | .noticeAccessCreate t _ _ _ => m.tx = some (t, [])
  | .certificateAddendumCreate t data => ∃ access, m.tx = some (t, [.access access]) ∧
      data = ⟨access.noticeId, access.accessedAt, maskIp access.ip⟩
  | .auditLogCreate t data => ∃ access addendumId,
      m.tx = some (t, (NoticeAccess.rows access addendumId).take 2) ∧
        data = noticeFirstAccessed access.noticeId (maskIp access.ip)
  | .reply noticeId result =>
      if result.isFirstAccess then m.recorded = some (noticeId, result.viewedAt)
      else m.seen = some (noticeId, result.viewedAt)
  | .fetchResend noticeId _ _ _ => ∃ accessedAt, m.recorded = some (noticeId, accessedAt)
  | _ => True

end Visit

/-- A direct call of `recordFirstAccess`, whose result is returned. -/
def callFirstAccess (noticeId ip userAgent : String) : NoticeProgram Unit := do
  let result ← recordFirstAccess noticeId ip userAgent
  reply noticeId result

/-- An alert that was started runs. -/
def runAlert : NoticeProgram Unit := do
  let noticeId ← nextAlert
  sendFirstAccessAlert noticeId

/-- What may run: calls, views of the page, and alerts. -/
inductive NoticeEntry (env : EmailEnv) : NoticeProgram Unit → Prop
  | call (noticeId ip userAgent : String) :
      NoticeEntry env (callFirstAccess noticeId ip userAgent)
  | page (headers : RequestHeaders) (token : String) :
      NoticeEntry env ((fun _ => ()) <$> noticePage env headers token)
  | alert : NoticeEntry env runAlert

/-- What else moves the world: the database closes a transaction, or others write to other
tables. -/
inductive NoticeWorld.Drift : NoticeWorld → NoticeWorld → Prop
  | close {w : NoticeWorld} (t : ℕ) : Drift w { w with db := w.db.close t }
  | others {w : NoticeWorld} {db : Db} (h : w.db.committed.SameAccess db) :
      Drift w { w with db := { w.db with committed := db } }

/-- Calls, views and alerts, statement by statement. -/
def notices (env : EmailEnv) (ι : Type) : Machine noticeSig Failure Unit ι Visit NoticeWorld where
  idle := {}
  observe m c w r := m.observe c w r
  answers _ := noticeAnswers
  entry _ := NoticeEntry env
  environment := NoticeWorld.Drift

/-! ## What the programs do -/

section Protocol

variable {m m' : Visit}

/-- A statement that adds a row leaves it as the last one of its transaction. -/
theorem NoticeWorld.Creates.ok {β : Type} {w w' : NoticeWorld} {t : ℕ} {noticeId : String}
    {δ : AccessWrite} {answer b : β} (h : w.Creates t noticeId δ answer w' (.ok b)) :
    (w'.db.opened t).bind List.getLast? = some δ ∧ b = answer := by
  obtain ⟨rows, -, -, ⟨-, -, rfl, hb⟩ | ⟨-, -, hb⟩⟩ := h
  · refine ⟨?_, Except.ok.inj hb⟩
    rw [Transactions.opened_write]
    simp
  · cases hb

theorem Visit.written_of_getLast? {t : ℕ} {rows : List AccessWrite} {δ : AccessWrite}
    {w : NoticeWorld} (hm : m.tx = some (t, rows))
    (h : (w.db.opened t).bind List.getLast? = some δ) :
    m.written t w = { m with tx := some (t, rows ++ [δ]) } := by
  simp [Visit.written, hm, h]

/-- What a call that returns has observed. -/
def Visit.Told (noticeId : String) (result : FirstAccessResult) (m : Visit) : Prop :=
  if result.isFirstAccess then m.recorded = some (noticeId, result.viewedAt)
  else m.seen = some (noticeId, result.viewedAt)

/-- The rule of a transaction: its callback is left with the transaction open. -/
theorem transaction_wp {α : Type} {f : ℕ → NoticeProgram α} {Q : Except Failure α → Visit → Prop}
    (hf : ∀ t, (f t).wp Visit.Follows Visit.Allows (fun r m => match r with
      | .ok a => ∃ rows, m.tx = some (t, rows) ∧
          (rows = [] ∨ ∃ access addendumId, rows = NoticeAccess.rows access addendumId) ∧
            Q (.ok a) { m with
              tx := none
              recorded := rows.head?.bind AccessWrite.accessed }
      | .error _ => ∃ rows, m.tx = some (t, rows)) { tx := some (t, []) })
    (herror : ∀ e m, Q (.error e) m) :
    (transaction f).wp Visit.Follows Visit.Allows Q {} := by
  refine (Program.wp_bind _ _ _ _).2 ((Program.wp_perform _ _ _).2 ⟨rfl, ?_⟩)
  rintro _ (e | t) ⟨w, w', hanswer, rfl⟩
  · exact herror e _
  refine (Program.wp_bind _ _ _ _).2 (Program.wp_catch (hf t) ?_ ?_)
  · rintro a m ⟨rows, hm, hrows, hQ⟩
    refine (Program.wp_bind _ _ _ _).2 ((Program.wp_perform _ _ _).2 ⟨⟨rows, hm, hrows⟩, ?_⟩)
    rintro _ (e | _) ⟨w, w', hanswer, rfl⟩
    · exact herror e _
    · simpa [Visit.observe, hm] using hQ
  · rintro e m hm
    refine (Program.wp_bind _ _ _ _).2 ((Program.wp_perform _ _ _).2 ⟨hm, ?_⟩)
    rintro _ (e' | _) ⟨w, w', hanswer, rfl⟩
    · exact herror e' _
    · exact herror e _

/-- A call that returns tells what it has found or committed. -/
theorem recordFirstAccess_wp (noticeId ip userAgent : String) :
    (recordFirstAccess noticeId ip userAgent).wp Visit.Follows Visit.Allows
      (fun r m => ∀ result, r = .ok result → m.Told noticeId result) {} := by
  refine transaction_wp (fun t => ?_) fun _ _ => nofun
  refine (Program.wp_bind _ _ _ _).2 ((Program.wp_perform _ _ _).2 ⟨rfl, ?_⟩)
  rintro _ (e | service) ⟨w, w', hanswer, rfl⟩
  · exact ⟨[], rfl⟩
  simp only
  split
  · -- The record is there.
    rename_i accessedAt hfound
    obtain ⟨view, rfl, hview⟩ := Option.bind_eq_some_iff.1 hfound
    refine ⟨[], rfl, Or.inl rfl, ?_⟩
    rintro _ ⟨⟩
    simp [Visit.Told, Visit.observe, hview]
  · -- There is none in what the statement has read.
    have htx : ∀ r : Except Failure (Option AccessView), (Visit.observe { tx := some (t, []) }
        (.serviceRequestFindUnique t noticeId) w' r).tx = some (t, []) := by
      rintro (e | _ | view)
      · rfl
      · rfl
      · rfl
    generalize hm : Visit.observe { tx := some (t, []) } _ w' _ = m
    have hm₀ : m.tx = some (t, []) := hm ▸ htx _
    refine (Program.wp_bind _ _ _ _).2 ((Program.wp_perform _ _ _).2 ⟨hm₀, ?_⟩)
    rintro _ (e | accessedAt) ⟨_, w₁, hcreate, rfl⟩
    · exact ⟨[], hm₀⟩
    obtain ⟨id, _, hcreate⟩ | ⟨-, message, hr⟩ := hcreate
    swap
    · cases hr
    obtain ⟨hlast, rfl⟩ := hcreate.ok
    generalize hm : Visit.observe m _ w₁ _ = m₁
    have hm₁ := hm.symm.trans (Visit.written_of_getLast? hm₀ hlast)
    let access : NoticeAccess := ⟨id, noticeId, ip, userAgent, accessedAt⟩
    have htx₁ : m₁.tx = some (t, [.access access]) := hm₁ ▸ rfl
    refine (Program.wp_bind _ _ _ _).2 ((Program.wp_perform _ _ _).2 ⟨⟨access, htx₁, rfl⟩, ?_⟩)
    rintro _ (e | _) ⟨_, w₂, hcreate, rfl⟩
    · exact ⟨_, htx₁⟩
    obtain ⟨addendumId, hcreate⟩ | ⟨-, message, hr⟩ := hcreate
    swap
    · cases hr
    obtain ⟨hlast, -⟩ := hcreate.ok
    generalize hm : Visit.observe m₁ _ w₂ _ = m₂
    have hm₂ := hm.symm.trans (Visit.written_of_getLast? htx₁ hlast)
    have htx₂ : m₂.tx = some (t, (access.rows addendumId).take 2) := hm₂ ▸ rfl
    refine (Program.wp_bind _ _ _ _).2
      ((Program.wp_perform _ _ _).2 ⟨⟨access, addendumId, htx₂, rfl⟩, ?_⟩)
    rintro _ (e | _) ⟨_, w₃, haudit, rfl⟩
    · exact ⟨_, htx₂⟩
    obtain ⟨rows, -, hdb, -⟩ | ⟨-, message, hr⟩ := haudit
    swap
    · cases hr
    have hlast : (w₃.db.opened t).bind List.getLast? =
        some (.audit (noticeFirstAccessed noticeId (maskIp ip))) := by simp [hdb]
    generalize hm : Visit.observe m₂ _ w₃ _ = m₃
    have hm₃ := hm.symm.trans (Visit.written_of_getLast? htx₂ hlast)
    have htx₃ : m₃.tx = some (t, access.rows addendumId) := hm₃ ▸ rfl
    refine (Program.wp_bind _ _ _ _).2 ((Program.wp_perform _ _ _).2 ⟨trivial, ?_⟩)
    rintro _ (e | _) ⟨_, w₄, -, rfl⟩
    · exact ⟨_, htx₃⟩
    refine ⟨_, htx₃, Or.inr ⟨access, addendumId, rfl⟩, ?_⟩
    rintro _ ⟨⟩
    rfl

theorem callFirstAccess_conforms (noticeId ip userAgent : String) :
    Machine.Conforms Visit.Follows Visit.Allows (callFirstAccess noticeId ip userAgent) {} := by
  refine Program.wp_seq (recordFirstAccess_wp noticeId ip userAgent) ?_ fun _ _ _ => trivial
  intro result m htold
  exact (Program.wp_perform _ _ _).2 ⟨htold result rfl, fun _ _ _ => trivial⟩

theorem runAlert_conforms : Machine.Conforms Visit.Follows Visit.Allows runAlert {} := by
  refine (Program.wp_bind _ _ _ _).2 ((Program.wp_perform _ _ _).2 ⟨trivial, ?_⟩)
  rintro m (e | noticeId) -
  · trivial
  refine Program.wp_catch (R := fun _ _ => True) ?_ (fun _ _ _ => trivial) fun _ _ _ => trivial
  refine (Program.wp_bind _ _ _ _).2 ((Program.wp_perform _ _ _).2 ⟨trivial, ?_⟩)
  rintro m (e | _ | ⟨caseCaption, ownerEmail⟩) -
  · trivial
  · trivial
  simp only
  split
  · trivial
  · refine (Program.wp_bind _ _ _ _).2 ((Program.wp_perform _ _ _).2 ⟨trivial, ?_⟩)
    rintro m (e | _) -
    · trivial
    · trivial

/-- The page alerts the owner of what its call has committed. -/
theorem recordView_wp (env : EmailEnv) (headers : RequestHeaders) (token : String)
    (request : NoticeView) :
    (recordView env headers token request).wp Visit.Follows Visit.Allows (fun _ _ => True) {} := by
  refine Program.wp_catch (R := fun _ _ => True) ?_ (fun _ _ _ => trivial) fun _ _ _ => trivial
  refine Program.wp_seq (recordFirstAccess_wp _ _ _) ?_ fun _ _ _ => trivial
  intro access m htold
  have htold := htold access rfl
  split
  · rename_i ownerEmail hfirst _
    rw [Visit.Told, if_pos hfirst] at htold
    refine Program.wp_seq (R := fun _ _ => True) ?_ (fun _ _ _ => trivial) fun _ _ _ => trivial
    rw [sendFirstAccessEmail]
    split
    · trivial
    · exact (Program.wp_perform _ _ _).2 ⟨⟨_, htold⟩, fun _ _ _ => trivial⟩
  · trivial

theorem awaitNotice_wp (token : String) :
    (awaitNotice token).wp Visit.Follows Visit.Allows (fun _ m => m = {}) {} := by
  unfold awaitNotice
  dsimp only
  generalize toLowerCase (trim token) = normalized
  cases tokenRe normalized with
  | false => exact rfl
  | true =>
      refine (Program.wp_perform _ _ _).2 ⟨trivial, ?_⟩
      rintro _ (e | found) ⟨_, _, -, rfl⟩
      · rfl
      · rfl

theorem noticePage_conforms (env : EmailEnv) (headers : RequestHeaders) (token : String) :
    Machine.Conforms Visit.Follows Visit.Allows ((fun _ => ()) <$> noticePage env headers token)
      {} := by
  refine (Program.wp_map _ _ _ _).2 <| (Program.wp_bind _ _ _ _).2
    ((Program.wp_perform _ _ _).2 ⟨trivial, ?_⟩)
  rintro _ (e | ok) ⟨_, _, -, rfl⟩
  · trivial
  simp only
  split
  · refine Program.wp_seq (awaitNotice_wp token) ?_ fun _ _ _ => trivial
    rintro (_ | request) _ rfl
    · trivial
    · exact Program.wp_seq (recordView_wp env headers token request) (fun _ _ _ => trivial)
        fun _ _ _ => trivial
  · trivial

theorem NoticeEntry.conforms {env : EmailEnv} {p : NoticeProgram Unit} (h : NoticeEntry env p) :
    Machine.Conforms Visit.Follows Visit.Allows p {} := by
  cases h with
  | call noticeId ip userAgent => exact callFirstAccess_conforms noticeId ip userAgent
  | page headers token => exact noticePage_conforms env headers token
  | alert => exact runAlert_conforms

end Protocol

end EpsDapp
