import EpsDapp.Notices.Visit

/-!
# The first-access record

Any number of calls of `recordFirstAccess` run at once, each cut into the statements
of its transaction. Several may find no access record; the unique columns let one of
them through, and the others are rolled back whole. So the three tables stay in step,
one call is told that it was the first, and the others are told of the record that
is committed.
-/

set_option autoImplicit false

namespace EpsDapp

open Calendar Effect

/-! ## The record -/

namespace Db

/-- Nothing is recorded of an access to the notice. -/
structure Unviewed (db : Db) (noticeId : String) : Prop where
  access : db.noticeAccesses.get? noticeId = none
  addendum : db.certificateAddenda.get? noticeId = none
  audits : db.firstAccessAudits noticeId = 0

/-- The first access to the notice is recorded in all three tables. -/
def Viewed (db : Db) (noticeId : String) : Prop :=
  ∃ access addendum, db.noticeAccesses.get? noticeId = some access ∧
    db.certificateAddenda.get? noticeId = some addendum ∧
      addendum.viewedAt = access.accessedAt ∧ addendum.viewerIp = maskIp access.ip ∧
        db.firstAccessAudits noticeId = 1

/-- The tables are in step. -/
def FirstAccess (db : Db) (noticeId : String) : Prop := db.Unviewed noticeId ∨ db.Viewed noticeId

/-- The access record of the notice is of that time. -/
def AccessedAt (db : Db) (noticeId : String) (accessedAt : Instant) : Prop :=
  ∃ access, db.noticeAccesses.get? noticeId = some access ∧ access.accessedAt = accessedAt

theorem SameAccess.firstAccess {db db' : Db} (h : db.SameAccess db') {noticeId : String}
    (hdb : db.FirstAccess noticeId) : db'.FirstAccess noticeId := by
  rcases hdb with ⟨haccess, haddendum, haudits⟩ |
    ⟨access, addendum, haccess, haddendum, hat, hip, haudits⟩
  · exact Or.inl ⟨h.noticeAccesses ▸ haccess, h.certificateAddenda ▸ haddendum,
      (h.audits noticeId).trans haudits⟩
  · exact Or.inr ⟨access, addendum, h.noticeAccesses ▸ haccess, h.certificateAddenda ▸ haddendum,
      hat, hip, (h.audits noticeId).trans haudits⟩

section Rows

variable {db : Db} {access : NoticeAccess} {addendumId noticeId : String}

/-- What is committed of a first access. -/
structure RecordsAccess (db : Db) (access : NoticeAccess) (addendumId : String) (db' : Db) : Prop where
  noticeAccesses : ∃ h, db'.noticeAccesses = db.noticeAccesses.insert access h
  certificateAddenda : ∃ h, db'.certificateAddenda = db.certificateAddenda.insert
    ⟨addendumId, access.noticeId, access.accessedAt, maskIp access.ip⟩ h
  audits : ∀ noticeId, db'.firstAccessAudits noticeId =
    db.firstAccessAudits noticeId + if access.noticeId = noticeId then 1 else 0

/-- The rows of a first access are added under keys that are free. -/
theorem recordsAccess_of_free (haccess : db.noticeAccesses.get? access.noticeId = none)
    (haddendum : db.certificateAddenda.get? access.noticeId = none) :
    db.RecordsAccess access addendumId (accessInserts.addAll db (access.rows addendumId)) := by
  have hrows : accessInserts.addAll db (access.rows addendumId) =
      ({ db with
        noticeAccesses := db.noticeAccesses.insert access haccess
        certificateAddenda := db.certificateAddenda.insert
          ⟨addendumId, access.noticeId, access.accessedAt, maskIp access.ip⟩ haddendum } : Db).audit
        (noticeFirstAccessed access.noticeId (maskIp access.ip)) := by
    simp only [Inserts.addAll, NoticeAccess.rows, List.foldl, accessInserts, AccessWrite.add,
      dif_pos haccess, dif_pos haddendum]
  rw [hrows]
  refine ⟨⟨haccess, rfl⟩, ⟨haddendum, rfl⟩, fun noticeId => ?_⟩
  simp only [firstAccessAudits, audit, List.countP_append, List.countP_singleton,
    noticeFirstAccessed, true_and, decide_eq_true_eq]

variable {db' : Db}

theorem RecordsAccess.get? (h : db.RecordsAccess access addendumId db') (noticeId : String) :
    db'.noticeAccesses.get? noticeId =
      if noticeId = access.noticeId then some access else db.noticeAccesses.get? noticeId := by
  obtain ⟨hfree, hinsert⟩ := h.noticeAccesses
  rw [hinsert, Table.get?_insert]

theorem RecordsAccess.firstAccess (h : db.RecordsAccess access addendumId db')
    (hdb : db.FirstAccess noticeId) : db'.FirstAccess noticeId := by
  obtain ⟨hfree, -⟩ := h.noticeAccesses
  obtain ⟨hfree', hinsert'⟩ := h.certificateAddenda
  by_cases hid : noticeId = access.noticeId
  · subst hid
    rcases hdb with ⟨-, -, haudits⟩ | ⟨_, _, haccess, -⟩
    · let addendum : CertificateAddendum :=
        ⟨addendumId, access.noticeId, access.accessedAt, maskIp access.ip⟩
      refine Or.inr ⟨access, addendum, (h.get? _).trans (if_pos rfl), ?_, rfl, rfl, ?_⟩
      · rw [hinsert', Table.get?_insert, if_pos rfl]
      · rw [h.audits, haudits, if_pos rfl]
    · cases hfree.symm.trans haccess
  · have haccesses : db'.noticeAccesses.get? noticeId = db.noticeAccesses.get? noticeId :=
      (h.get? _).trans (if_neg hid)
    have haddenda : db'.certificateAddenda.get? noticeId = db.certificateAddenda.get? noticeId := by
      rw [hinsert', Table.get?_insert, if_neg hid]
    have haudits : db'.firstAccessAudits noticeId = db.firstAccessAudits noticeId := by
      rw [h.audits, if_neg (Ne.symm hid), add_zero]
    rcases hdb with ⟨haccess, haddendum, hcount⟩ |
      ⟨access, addendum, haccess, haddendum, hat, hip, hcount⟩
    · exact Or.inl ⟨haccesses.trans haccess, haddenda.trans haddendum, haudits.trans hcount⟩
    · exact Or.inr ⟨access, addendum, haccesses.trans haccess, haddenda.trans haddendum, hat, hip,
        haudits.trans hcount⟩

theorem RecordsAccess.accessedAt (h : db.RecordsAccess access addendumId db') {accessedAt : Instant}
    (hdb : db.AccessedAt noticeId accessedAt) : db'.AccessedAt noticeId accessedAt := by
  obtain ⟨access', haccess', rfl⟩ := hdb
  obtain ⟨hfree, hinsert⟩ := h.noticeAccesses
  exact ⟨access', hinsert ▸ Table.get?_insert_of_some _ _ hfree haccess', rfl⟩

end Rows

end Db

/-! ## A first access alone -/

section Alone

variable {w : NoticeWorld} {t : ℕ} {rows : List AccessWrite}
  {noticeId : String} {row : ServiceRequest}

/-- A row is added under a free key when no other transaction has added one. -/
theorem NoticeWorld.creates_alone {β : Type} {δ : AccessWrite} (answer : β)
    (hother : ∀ t' rows', t' ≠ t → w.db.opened t' = some rows' → rows' = [])
    (hfree : ¬ w.db.Taken accessInserts rows δ)
    (hrow : w.db.committed.request? noticeId = some row) :
    NoticeWorld.Creates { w with db := w.db.write t rows } t noticeId δ answer
      { w with db := w.db.write t (rows ++ [δ]) } (.ok answer) := by
  refine ⟨rows, w.db.opened_write t rows, fun t' rows' hne hopened => ?_,
    Or.inl ⟨hfree, fun hnone => ?_, ?_, rfl⟩⟩
  · rcases Transactions.opened_update hopened with ⟨rfl, -⟩ | ⟨-, hopened⟩
    · exact absurd rfl hne
    · rw [hother t' rows' hne hopened]
      exact nofun
  · cases hrow.symm.trans hnone
  · rw [Transactions.write_write]

/-- What the transaction of a first access has added, and the alert that it has started. -/
def NoticeWorld.accessed (w : NoticeWorld) (access : NoticeAccess) (addendumId : String) :
    NoticeWorld :=
  { w with
    db := w.db.start.write w.db.next (access.rows addendumId)
    started := w.started ++ [access.noticeId] }

/-- The call that finds no record adds the three rows, and ends as its commit does. -/
theorem recordFirstAccess_runs (accepts : AlertSender → Prop) (access : NoticeAccess) (addendumId : String)
    (hopened : ∀ t rows, w.db.opened t = some rows → rows = [])
    (hrow : w.db.committed.request? access.noticeId = some row)
    (hunviewed : w.db.committed.Unviewed access.noticeId) {w' : NoticeWorld}
    {r : Except Failure Unit}
    (hcommit : noticeAnswers (w.accessed access addendumId) (.commit w.db.next) w' r) :
    (recordFirstAccess access.noticeId access.ip access.userAgent).Runs (acceptingAnswers accepts)
      w w' (r.map fun _ => ⟨true, w.db.committed.ownerEmailOf row, row.caseCaption,
        maskIp access.ip, access.accessedAt⟩) := by
  let s := w.db.start
  let addendum : CertificateAddendum :=
    ⟨addendumId, access.noticeId, access.accessedAt, maskIp access.ip⟩
  let audit := noticeFirstAccessed access.noticeId (maskIp access.ip)
  have hother : ∀ t' rows', t' ≠ w.db.next → s.opened t' = some rows' → rows' = [] :=
    fun t' rows' hne h => hopened t' rows' ((Function.update_of_ne hne _ _).symm.trans h)
  have hstart : s.write w.db.next [] = s := by
    simp only [s, Transactions.write, Transactions.start, Function.update_idem]
  have hview : s.committed.accessView access.noticeId =
      some ⟨row.caseCaption, w.db.committed.ownerEmailOf row, none⟩ := by
    simp only [s, Transactions.start, Db.accessView, hrow, hunviewed.access, Option.map]
  -- Neither key is taken.
  have haccess : ¬ s.Taken accessInserts [] (.access access) := by
    rintro ⟨_, ⟨⟩, htaken⟩
    exact htaken hunviewed.access
  have haddendum : ¬ s.Taken accessInserts [.access access] (.addendum addendum) := by
    rintro ⟨_, ⟨⟩, htaken⟩
    rcases (accessInserts.has_addAll _ _ _).1 htaken with ⟨δ, hδ, hkey⟩ | htaken
    · obtain rfl := List.mem_singleton.1 hδ
      cases hkey
    · exact htaken hunviewed.addendum
  have hbegin : acceptingAnswers accepts w .beginTransaction { w with db := s } (.ok w.db.next) :=
    ⟨Or.inl ⟨rfl, rfl⟩, trivial⟩
  have hfind : acceptingAnswers accepts { w with db := s }
      (.serviceRequestFindUnique w.db.next access.noticeId) { w with db := s }
      (.ok (some ⟨row.caseCaption, w.db.committed.ownerEmailOf row, none⟩)) :=
    ⟨Or.inl ⟨[], w.db.opened_start, rfl, congrArg Except.ok hview.symm⟩, trivial⟩
  have hcreate : acceptingAnswers accepts { w with db := s }
      (.noticeAccessCreate w.db.next access.noticeId access.ip access.userAgent)
      { w with db := s.write w.db.next [.access access] } (.ok access.accessedAt) := by
    have hcreates := NoticeWorld.creates_alone (w := { w with db := s }) access.accessedAt hother
      haccess hrow
    rw [hstart] at hcreates
    exact ⟨Or.inl ⟨access.id, access.accessedAt, hcreates⟩, trivial⟩
  have hadd : acceptingAnswers accepts { w with db := s.write w.db.next [.access access] }
      (.certificateAddendumCreate w.db.next
        ⟨access.noticeId, access.accessedAt, maskIp access.ip⟩)
      { w with db := s.write w.db.next [.access access, .addendum addendum] } (.ok ()) :=
    ⟨Or.inl ⟨addendumId, NoticeWorld.creates_alone (w := { w with db := s }) () hother haddendum
      hrow⟩, trivial⟩
  have haudit : acceptingAnswers accepts
      { w with db := s.write w.db.next [.access access, .addendum addendum] }
      (.auditLogCreate w.db.next audit)
      { w with db := s.write w.db.next (access.rows addendumId) } (.ok ()) :=
    ⟨Or.inl ⟨_, Transactions.opened_write _ _ _, by rw [Transactions.write_write]; rfl, rfl⟩,
      trivial⟩
  have halert : acceptingAnswers accepts
      { w with db := s.write w.db.next (access.rows addendumId) } (.startAlert access.noticeId)
      (w.accessed access addendumId) (.ok ()) := ⟨Or.inl ⟨rfl, rfl⟩, trivial⟩
  refine .call hbegin <| .call hfind <| .call hcreate <| .call hadd <| .call haudit <|
    .call halert <| .call ⟨hcommit, ?_⟩ ?_
  · rcases r with e | _ <;> trivial
  · cases r with
    | error e => exact ⟨rfl, rfl⟩
    | ok _ => exact ⟨rfl, rfl⟩

end Alone

/-! ## The invariant -/

/-- The number of times the first access to the notice was told, to a caller or to the
owner by the page. -/
def NoticeWorld.firsts (w : NoticeWorld) (noticeId : String) : ℕ :=
  (w.replies.countP fun p => decide (p.noticeId = noticeId ∧ p.result.isFirstAccess = true)) +
    w.sent.countP fun a => decide (a.noticeId = noticeId ∧ a.sender = .page)

/-- What holds of a notice in every state. -/
structure NoticeWorld.Keeps (noticeId : String) (w : NoticeWorld) : Prop where
  sound : w.db.Sound accessInserts
  firstAccess : w.db.committed.FirstAccess noticeId
  firsts : w.firsts noticeId ≤ 1
  accessed : w.firsts noticeId ≠ 0 → w.db.committed.noticeAccesses.get? noticeId ≠ none
  replies : ∀ p ∈ w.replies, p.noticeId = noticeId → p.result.isFirstAccess = false →
    w.db.committed.AccessedAt noticeId p.result.viewedAt

namespace Visit

/-- What the mark of a running call says is so. -/
structure Knows (noticeId : String) (m : Visit) (w : NoticeWorld) : Prop where
  tx : ∀ t rows, m.tx = some (t, rows) →
    t < w.db.next ∧ ∀ rows', w.db.opened t = some rows' → rows' = rows
  seen : ∀ accessedAt, m.seen = some (noticeId, accessedAt) →
    w.db.committed.AccessedAt noticeId accessedAt
  recorded : ∀ accessedAt, m.recorded = some (noticeId, accessedAt) →
    w.db.committed.noticeAccesses.get? noticeId ≠ none ∧ w.firsts noticeId = 0

/-- Two running calls have their own transactions, and one of them at most is to tell of the
first access. -/
structure Apart (noticeId : String) (m m' : Visit) : Prop where
  tx : ∀ t rows rows', m.tx = some (t, rows) → m'.tx ≠ some (t, rows')
  recorded : ∀ accessedAt accessedAt', m.recorded = some (noticeId, accessedAt) →
    m'.recorded ≠ some (noticeId, accessedAt')

theorem Apart.symm {noticeId : String} {m m' : Visit} (h : m.Apart noticeId m') :
    m'.Apart noticeId m :=
  ⟨fun t rows rows' h' h'' => h.tx t rows' rows h'' h',
    fun at₁ at₂ h' h'' => h.recorded at₂ at₁ h'' h'⟩

end Visit

/-- What is to be shown of a step of a call with the mark `m`: the invariant, what its new
mark says, and what the marks of the other calls do. -/
structure Advances (noticeId : String) (m : Visit) (w : NoticeWorld) (m' : Visit)
    (w' : NoticeWorld) : Prop where
  keeps : w'.Keeps noticeId
  knows : m'.Knows noticeId w'
  others : ∀ m₂ : Visit, m₂.Knows noticeId w → m.Apart noticeId m₂ →
    m₂.Knows noticeId w' ∧ m'.Apart noticeId m₂

section Steps

variable {noticeId : String} {m m' : Visit} {w w' : NoticeWorld}

/-- A call that leaves the transactions and what was told. -/
theorem advances_same (hw : w.Keeps noticeId) (hm : m.Knows noticeId w) (hdb : w'.db = w.db)
    (hfirsts : w'.firsts noticeId = w.firsts noticeId) (hreplies : w'.replies = w.replies)
    (htx : m'.tx = m.tx) (hrecorded : m'.recorded = m.recorded)
    (hseen : ∀ accessedAt, m'.seen = some (noticeId, accessedAt) →
      w.db.committed.AccessedAt noticeId accessedAt) :
    Advances noticeId m w m' w' where
  keeps := ⟨hdb ▸ hw.sound, hdb ▸ hw.firstAccess, hfirsts ▸ hw.firsts,
    hfirsts ▸ hdb ▸ hw.accessed, hreplies ▸ hdb ▸ hw.replies⟩
  knows := ⟨htx ▸ hdb ▸ hm.tx, hdb ▸ hseen, hrecorded ▸ hfirsts ▸ hdb ▸ hm.recorded⟩
  others _ hm₂ hapart :=
    ⟨⟨hdb ▸ hm₂.tx, hdb ▸ hm₂.seen, hfirsts ▸ hdb ▸ hm₂.recorded⟩,
      ⟨htx ▸ hapart.tx, hrecorded ▸ hapart.recorded⟩⟩

/-- A transaction is begun. -/
theorem advances_start (hw : w.Keeps noticeId) :
    Advances noticeId m w { tx := some (w.db.next, []) } { w with db := w.db.start } where
  keeps := ⟨hw.sound.start, hw.firstAccess, hw.firsts, hw.accessed, hw.replies⟩
  knows := by
    refine ⟨?_, nofun, nofun⟩
    rintro _ _ ⟨⟩
    refine ⟨Nat.lt_succ_self _, fun rows' h => ?_⟩
    exact (Option.some.inj (w.db.opened_start.symm.trans h)).symm
  others m₂ hm₂ _ := by
    refine ⟨⟨fun t rows ht => ?_, hm₂.seen, hm₂.recorded⟩, ⟨?_, nofun⟩⟩
    · obtain ⟨hlt, hopened⟩ := hm₂.tx t rows ht
      refine ⟨Nat.lt_succ_of_lt hlt, fun rows' h => ?_⟩
      rcases Transactions.opened_update h with ⟨rfl, -⟩ | ⟨-, h⟩
      · exact absurd hlt (lt_irrefl _)
      · exact hopened rows' h
    · rintro _ _ rows' ⟨⟩ h
      exact absurd (hm₂.tx _ _ h).1 (lt_irrefl _)

/-- A row is added. -/
theorem advances_write {t : ℕ} {rows : List AccessWrite} {δ : AccessWrite}
    (hw : w.Keeps noticeId) (hm : m.Knows noticeId w) (htx : m.tx = some (t, rows))
    (hsound : (w.db.write t (rows ++ [δ])).Sound accessInserts) :
    Advances noticeId m w { m with tx := some (t, rows ++ [δ]) }
      { w with db := w.db.write t (rows ++ [δ]) } where
  keeps := ⟨hsound, hw.firstAccess, hw.firsts, hw.accessed, hw.replies⟩
  knows := by
    refine ⟨?_, hm.seen, hm.recorded⟩
    rintro _ _ ⟨⟩
    refine ⟨(hm.tx t rows htx).1, fun rows' h => ?_⟩
    exact (Option.some.inj ((w.db.opened_write t _).symm.trans h)).symm
  others m₂ hm₂ hapart := by
    refine ⟨⟨fun t₂ rows₂ ht₂ => ?_, hm₂.seen, hm₂.recorded⟩, ⟨?_, hapart.recorded⟩⟩
    · obtain ⟨hlt, hopened⟩ := hm₂.tx t₂ rows₂ ht₂
      refine ⟨hlt, fun rows' h => ?_⟩
      rcases Transactions.opened_update h with ⟨rfl, -⟩ | ⟨-, h⟩
      · exact absurd ht₂ (hapart.tx _ _ _ htx)
      · exact hopened rows' h
    · rintro _ _ rows' ⟨⟩
      exact hapart.tx t rows rows' htx

/-- What is known survives the end of a transaction. -/
theorem Visit.Knows.close (h : m.Knows noticeId w) (t : ℕ) :
    m.Knows noticeId { w with db := w.db.close t } := by
  refine ⟨fun t' rows ht' => ?_, h.seen, h.recorded⟩
  obtain ⟨hlt, hopened⟩ := h.tx t' rows ht'
  refine ⟨hlt, fun rows' h' => ?_⟩
  rcases Transactions.opened_update h' with ⟨-, hnone⟩ | ⟨-, h'⟩
  · cases hnone
  · exact hopened rows' h'

theorem NoticeWorld.Keeps.close (h : w.Keeps noticeId) (t : ℕ) :
    NoticeWorld.Keeps noticeId { w with db := w.db.close t } :=
  ⟨h.sound.close t, h.firstAccess, h.firsts, h.accessed, h.replies⟩

theorem advances_close (hw : w.Keeps noticeId) (t : ℕ) :
    Advances noticeId m w {} { w with db := w.db.close t } where
  keeps := hw.close t
  knows := ⟨nofun, nofun, nofun⟩
  others _ hm₂ _ := ⟨hm₂.close t, ⟨nofun, nofun⟩⟩

/-- A transaction that has added nothing commits. -/
theorem advances_commit_nil {t : ℕ} (hw : w.Keeps noticeId) (hm : m.Knows noticeId w) :
    Advances noticeId m w { m with tx := none, recorded := none }
      { w with db := w.db.commit accessInserts t [] } where
  keeps := hw.close t
  knows := ⟨nofun, hm.seen, nofun⟩
  others _ hm₂ _ := ⟨hm₂.close t, ⟨nofun, nofun⟩⟩

/-- The transaction of a first access commits. -/
theorem advances_commit {t : ℕ} {access : NoticeAccess} {addendumId : String}
    (hw : w.Keeps noticeId) (hm : m.Knows noticeId w)
    (hopened : w.db.opened t = some (access.rows addendumId)) :
    Advances noticeId m w
      { m with tx := none, recorded := some (access.noticeId, access.accessedAt) }
      { w with db := w.db.commit accessInserts t (access.rows addendumId) } := by
  have hfree := hw.sound.free t _ hopened
  have haccess : w.db.committed.noticeAccesses.get? access.noticeId = none :=
    not_not.1 (hfree (.access access) (by simp [NoticeAccess.rows]) _ rfl)
  have haddendum : w.db.committed.certificateAddenda.get? access.noticeId = none :=
    not_not.1 (hfree (.addendum ⟨addendumId, access.noticeId, access.accessedAt, maskIp access.ip⟩)
      (by simp [NoticeAccess.rows]) _ rfl)
  have hrecords : Db.RecordsAccess _ access addendumId _ :=
    Db.recordsAccess_of_free haccess haddendum
  have hstays : w.db.committed.noticeAccesses.get? noticeId ≠ none →
      (w.db.view accessInserts (access.rows addendumId)).noticeAccesses.get? noticeId ≠ none := by
    intro hne
    rw [Transactions.view, hrecords.get?]
    split
    · nofun
    · exact hne
  refine ⟨⟨hw.sound.commit hopened, hrecords.firstAccess hw.firstAccess, hw.firsts,
    fun h => hstays (hw.accessed h), fun p hp hid hfirst =>
      hrecords.accessedAt (hw.replies p hp hid hfirst)⟩, ⟨nofun, fun accessedAt h =>
        hrecords.accessedAt (hm.seen accessedAt h), ?_⟩, fun m₂ hm₂ _ => ⟨⟨(hm₂.close t).tx,
          fun accessedAt h => hrecords.accessedAt (hm₂.seen accessedAt h), fun accessedAt h =>
            ⟨hstays (hm₂.recorded accessedAt h).1, (hm₂.recorded accessedAt h).2⟩⟩, nofun, ?_⟩⟩
  · -- Nothing was told of the notice, since it had no record.
    rintro _ ⟨⟩
    refine ⟨?_, not_not.1 fun hne => hw.accessed hne haccess⟩
    rw [Transactions.commit, Transactions.view, hrecords.get?, if_pos rfl]
    nofun
  · rintro _ accessedAt' ⟨⟩ h
    exact (hm₂.recorded accessedAt' h).1 haccess

/-- A caller or the owner is told. -/
theorem advances_tell (hw : w.Keeps noticeId) (hm : m.Knows noticeId w) (hdb : w'.db = w.db)
    (hfirsts : w'.firsts noticeId = w.firsts noticeId ∨
      (∃ accessedAt, m.recorded = some (noticeId, accessedAt)) ∧
        w'.firsts noticeId = w.firsts noticeId + 1)
    (hreplies : ∀ p ∈ w'.replies, p ∈ w.replies ∨ (p.noticeId = noticeId →
      p.result.isFirstAccess = false → w.db.committed.AccessedAt noticeId p.result.viewedAt)) :
    Advances noticeId m w { m with recorded := none } w' := by
  have hknown : w'.firsts noticeId ≤ 1 ∧ (w'.firsts noticeId ≠ 0 →
      w.db.committed.noticeAccesses.get? noticeId ≠ none) := by
    rcases hfirsts with hsame | ⟨⟨accessedAt, hrecorded⟩, hone⟩
    · exact hsame ▸ ⟨hw.firsts, hw.accessed⟩
    · obtain ⟨hne, hzero⟩ := hm.recorded accessedAt hrecorded
      exact ⟨by omega, fun _ => hne⟩
  refine ⟨⟨hdb ▸ hw.sound, hdb ▸ hw.firstAccess, hknown.1, hdb ▸ hknown.2, ?_⟩,
    ⟨hdb ▸ hm.tx, hdb ▸ hm.seen, nofun⟩, fun m₂ hm₂ hapart =>
      ⟨⟨hdb ▸ hm₂.tx, hdb ▸ hm₂.seen, ?_⟩, hapart.tx, nofun⟩⟩
  · intro p hp hid hfirst
    rw [hdb]
    rcases hreplies p hp with hp | hnew
    · exact hw.replies p hp hid hfirst
    · exact hnew hid hfirst
  · intro accessedAt' h
    rcases hfirsts with hsame | ⟨⟨accessedAt, hrecorded⟩, -⟩
    · rw [hdb, hsame]
      exact hm₂.recorded accessedAt' h
    · exact absurd h (hapart.recorded accessedAt accessedAt' hrecorded)

/-- A call forgets its transaction. -/
theorem advances_forget (hw : w.Keeps noticeId) : Advances noticeId m w {} w :=
  ⟨hw, ⟨nofun, nofun, nofun⟩, fun _ hm₂ _ => ⟨hm₂, nofun, nofun⟩⟩

/-- A call that fails. -/
theorem advances_error (hw : w.Keeps noticeId) (hm : m.Knows noticeId w) (c : NoticeCall)
    (e : Failure) : Advances noticeId m w (m.observe c w (.error e)) w := by
  have hsame : Advances noticeId m w m w := advances_same hw hm rfl rfl rfl rfl rfl hm.seen
  have htell : Advances noticeId m w { m with recorded := none } w :=
    advances_tell hw hm rfl (Or.inl rfl) fun _ => Or.inl
  cases c with
  | commit t => exact advances_forget hw
  | rollback t => exact advances_forget hw
  | reply noticeId result => exact htell
  | fetchResend noticeId apiKey sender email => exact htell
  | _ => exact hsame

/-- A statement that adds a row, or is refused. -/
theorem advances_creates {β : Type} {t : ℕ} {id : String} {δ : AccessWrite} {answer : β}
    {r : Except Failure β} {rows : List AccessWrite} (hw : w.Keeps noticeId)
    (hm : m.Knows noticeId w) (htx : m.tx = some (t, rows))
    (h : w.Creates t id δ answer w' r) :
    match r with
    | .ok _ => Advances noticeId m w (m.written t w') w'
    | .error _ => Advances noticeId m w m w' := by
  obtain ⟨rows', hopened, hunlocked, ⟨hfree, -, rfl, rfl⟩ | ⟨-, rfl, rfl⟩⟩ := h
  · obtain rfl := (hm.tx t rows htx).2 rows' hopened
    have hwritten := advances_write hw hm htx (hw.sound.write hopened hunlocked hfree)
    have hlast : ((w.db.write t (rows' ++ [δ])).opened t).bind List.getLast? = some δ := by simp
    exact Visit.written_of_getLast? (w := { w with db := w.db.write t (rows' ++ [δ]) }) htx hlast ▸
      hwritten
  · exact advances_same hw hm rfl rfl rfl rfl rfl hm.seen

/-- What every call of a visit does. -/
theorem advances_of_answers {c : NoticeCall} {r : Except Failure c.Resp} (hw : w.Keeps noticeId)
    (hm : m.Knows noticeId w) (hc : m.Allows c) (h : noticeAnswers w c w' r) :
    Advances noticeId m w (m.observe c w' r) w' := by
  have hsame : ∀ w' : NoticeWorld, w'.db = w.db → w'.firsts noticeId = w.firsts noticeId →
      w'.replies = w.replies → Advances noticeId m w m w' := fun _ hdb hfirsts hreplies =>
    advances_same hw hm hdb hfirsts hreplies rfl rfl hm.seen
  rcases h with h | ⟨rfl, message, rfl⟩
  swap
  · exact advances_error hw hm c _
  cases c with
  | rateLimit key =>
      obtain ⟨rfl, ok, rfl⟩ := h
      exact hsame _ rfl rfl rfl
  | noticeFindUnique noticeToken =>
      obtain ⟨rfl, rfl⟩ := h
      exact hsame _ rfl rfl rfl
  | beginTransaction =>
      obtain ⟨rfl, rfl⟩ := h
      exact advances_start hw
  | commit t =>
      obtain ⟨rows, htx, hrows⟩ := hc
      rcases h with ⟨rows', hopened, rfl, rfl⟩ | ⟨rfl, message, rfl⟩
      · obtain rfl := (hm.tx t rows htx).2 rows' hopened
        have hrecorded : Visit.observe m (.commit t)
            { w with db := w.db.commit accessInserts t rows' } (.ok ()) =
              { m with tx := none, recorded := rows'.head?.bind AccessWrite.accessed } := by
          rw [Visit.observe, htx]
          rfl
        rw [hrecorded]
        rcases hrows with rfl | ⟨access, addendumId, rfl⟩
        · exact advances_commit_nil hw hm
        · exact advances_commit hw hm hopened
      · exact advances_close hw t
  | rollback t =>
      obtain ⟨rfl, rfl⟩ := h
      exact advances_close hw t
  | serviceRequestFindUnique t id =>
      obtain ⟨rows', hopened, rfl, rfl⟩ := h
      obtain rfl := (hm.tx t [] hc).2 rows' hopened
      have hview : w'.db.view accessInserts [] = w'.db.committed := rfl
      rw [hview]
      cases hfound : w'.db.committed.accessView id with
      | none => exact hsame _ rfl rfl rfl
      | some view =>
          refine advances_same hw hm rfl rfl rfl rfl rfl ?_
          rintro accessedAt hseen
          obtain ⟨at', hat, hpair⟩ := Option.map_eq_some_iff.1 hseen
          cases hpair
          obtain ⟨row, -, rfl⟩ := Option.map_eq_some_iff.1 hfound
          obtain ⟨access, haccess, rfl⟩ := Option.map_eq_some_iff.1 hat
          exact ⟨access, haccess, rfl⟩
  | noticeAccessCreate t id ip userAgent =>
      obtain ⟨accessId, accessedAt, hcreates⟩ := h
      have hadvances := advances_creates hw hm hc hcreates
      rcases r with e | at'
      · exact hadvances
      · exact hadvances
  | certificateAddendumCreate t data =>
      obtain ⟨access, htx, -⟩ := hc
      obtain ⟨addendumId, hcreates⟩ := h
      have hadvances := advances_creates hw hm htx hcreates
      rcases r with e | _
      · exact hadvances
      · exact hadvances
  | auditLogCreate t data =>
      obtain ⟨access, addendumId, htx, -⟩ := hc
      obtain ⟨rows', hopened, rfl, rfl⟩ := h
      obtain rfl := (hm.tx t _ htx).2 rows' hopened
      have hsound : (w.db.write t (_ ++ [.audit data])).Sound accessInserts :=
        hw.sound.write hopened (fun _ _ _ _ _ _ _ h => by cases h)
          (by rintro ⟨_, h, -⟩; cases h)
      let rows := (access.rows addendumId).take 2 ++ [.audit data]
      have hlast : ((w.db.write t rows).opened t).bind List.getLast? = some (.audit data) := by
        simp [rows]
      have hmark : Visit.observe m (.auditLogCreate t data) { w with db := w.db.write t rows }
          (.ok ()) = { m with tx := some (t, rows) } := Visit.written_of_getLast? htx hlast
      rw [hmark]
      exact advances_write hw hm htx hsound
  | startAlert id =>
      obtain ⟨rfl, rfl⟩ := h
      exact hsame _ rfl rfl rfl
  | nextAlert =>
      obtain ⟨id, started, -, rfl, rfl⟩ := h
      exact hsame _ rfl rfl rfl
  | alertFindUnique id =>
      obtain ⟨rfl, rfl⟩ := h
      exact hsame _ rfl rfl rfl
  | emailsSend id email =>
      rcases h with ⟨rfl, rfl⟩ | ⟨rfl, rfl⟩
      · refine hsame _ rfl ?_ rfl
        simp [NoticeWorld.firsts]
      · exact hsame _ rfl rfl rfl
  | fetchResend id apiKey sender email =>
      obtain ⟨accessedAt, hrecorded⟩ := hc
      rcases h with ⟨rfl, rfl⟩ | ⟨rfl, rfl⟩
      · refine advances_tell hw hm rfl ?_ fun _ => Or.inl
        by_cases hid : id = noticeId
        · refine Or.inr ⟨⟨accessedAt, hid ▸ hrecorded⟩, ?_⟩
          simp [NoticeWorld.firsts, hid, add_assoc]
        · exact Or.inl (by simp [NoticeWorld.firsts, hid])
      · exact advances_tell hw hm rfl (Or.inl rfl) fun _ => Or.inl
  | reply id result =>
      obtain ⟨rfl, rfl⟩ := h
      rw [Visit.Allows] at hc
      refine advances_tell hw hm rfl ?_ fun p hp => ?_
      · by_cases hfirst : result.isFirstAccess = true ∧ id = noticeId
        · obtain ⟨hfirst, rfl⟩ := hfirst
          rw [if_pos hfirst] at hc
          refine Or.inr ⟨⟨_, hc⟩, ?_⟩
          simp [NoticeWorld.firsts, hfirst, add_right_comm]
        · refine Or.inl ?_
          have hnot : ¬ (id = noticeId ∧ result.isFirstAccess = true) := fun h => hfirst h.symm
          simp [NoticeWorld.firsts, hnot]
      · rcases List.mem_append.1 hp with hp | hp
        · exact Or.inl hp
        · refine Or.inr fun hid hfirst => ?_
          obtain rfl := List.mem_singleton.1 hp
          obtain rfl : id = noticeId := hid
          have hfirst : result.isFirstAccess = false := hfirst
          rw [if_neg (by simp [hfirst])] at hc
          exact hm.seen _ hc

end Steps

/-! ## Any interleaving -/

section Run

variable {env : EmailEnv} {ι : Type} {noticeId : String}

/-- The running calls. -/
abbrev NoticePool (ι : Type) := Pool noticeSig Failure Unit ι Visit NoticeWorld

/-- What holds of the pool. -/
structure NoticePool.Inv (noticeId : String) (c : NoticePool ι) : Prop where
  conforms : Machine.AllConform Visit.Follows Visit.Allows c
  keeps : c.world.Keeps noticeId
  knows : ∀ i thread, c.thread i = some thread → thread.mark.Knows noticeId c.world
  apart : ∀ i j thread thread', i ≠ j → c.thread i = some thread → c.thread j = some thread' →
    thread.mark.Apart noticeId thread'.mark

theorem visit_follows (m : Visit) (w : NoticeWorld) (c : NoticeCall) (w' : NoticeWorld)
    (r : Except Failure c.Resp) (h : (notices env ι).answers m w c w' r) :
    Visit.Follows m c ((notices env ι).observe m c w' r) r :=
  ⟨w, w', h, rfl⟩

theorem NoticeWorld.Keeps.drift {w w' : NoticeWorld} (h : w.Keeps noticeId)
    (hdrift : NoticeWorld.Drift w w') : w'.Keeps noticeId := by
  cases hdrift with
  | close t => exact h.close t
  | others hsame =>
      refine ⟨h.sound.congr ?_, hsame.firstAccess h.firstAccess, h.firsts, ?_, ?_⟩
      · rintro (id | id)
        · exact Iff.of_eq (congrArg (fun t => Table.get? t id ≠ none) hsame.noticeAccesses)
        · exact Iff.of_eq (congrArg (fun t => Table.get? t id ≠ none) hsame.certificateAddenda)
      · exact fun hne => hsame.noticeAccesses ▸ h.accessed hne
      · intro p hp hid hfirst
        obtain ⟨access, haccess, hat⟩ := h.replies p hp hid hfirst
        exact ⟨access, hsame.noticeAccesses ▸ haccess, hat⟩

theorem Visit.Knows.drift {m : Visit} {w w' : NoticeWorld} (h : m.Knows noticeId w)
    (hdrift : NoticeWorld.Drift w w') : m.Knows noticeId w' := by
  cases hdrift with
  | close t => exact h.close t
  | others hsame =>
      refine ⟨h.tx, fun accessedAt hseen => ?_, fun accessedAt hrecorded => ?_⟩
      · obtain ⟨access, haccess, hat⟩ := h.seen accessedAt hseen
        exact ⟨access, hsame.noticeAccesses ▸ haccess, hat⟩
      · obtain ⟨hne, hzero⟩ := h.recorded accessedAt hrecorded
        exact ⟨hsame.noticeAccesses ▸ hne, hzero⟩

/-- A call that is not running any more leaves the others. -/
theorem NoticePool.Inv.stopped {c : NoticePool ι} (h : c.Inv noticeId)
    {thread : ι → Option (Thread noticeSig Failure Unit Visit)}
    (hsub : ∀ i t, thread i = some t → c.thread i = some t) :
    NoticePool.Inv noticeId ⟨c.world, thread⟩ :=
  ⟨fun i t ht => h.conforms i t (hsub i t ht), h.keeps, fun i t ht => h.knows i t (hsub i t ht),
    fun i j t t' hne ht ht' => h.apart i j t t' hne (hsub i t ht) (hsub j t' ht')⟩

/-- Nothing was told yet, and no transaction is open. -/
def NoticePool.initial (db : Db) : NoticePool ι :=
  ⟨⟨⟨db, fun _ => none, 0⟩, [], [], []⟩, fun _ => none⟩

theorem NoticePool.inv_initial {db : Db} (hdb : db.FirstAccess noticeId) :
    NoticePool.Inv noticeId (NoticePool.initial db : NoticePool ι) where
  conforms := nofun
  keeps := ⟨Transactions.Sound.init db, hdb, Nat.zero_le 1, fun h => absurd rfl h,
    fun _ h => (List.not_mem_nil h).elim⟩
  knows := fun _ _ h => by cases h
  apart := fun _ _ _ _ _ h => by cases h

variable [DecidableEq ι]

theorem NoticePool.Inv.step {c c' : NoticePool ι} {l : Label noticeSig Failure ι}
    (h : c.Inv noticeId) (hstep : (notices env ι).Step c l c') : c'.Inv noticeId := by
  have hconforms := Machine.allConform_step visit_follows (fun _ _ h => NoticeEntry.conforms h)
    h.conforms hstep
  cases hstep with
  | @act i o k m w r hthread hanswer =>
      have hadvances := advances_of_answers h.keeps (h.knows i _ hthread)
        (h.conforms.allowed hthread) hanswer
      refine ⟨hconforms, hadvances.keeps, fun j thread hj => ?_,
        fun j₁ j₂ thread₁ thread₂ hne h₁ h₂ => ?_⟩
      · rcases Machine.thread_of_update hj with ⟨rfl, hnew⟩ | ⟨hji, hold⟩
        · cases hnew
          exact hadvances.knows
        · exact (hadvances.others _ (h.knows j thread hold)
            (h.apart i j _ thread (Ne.symm hji) hthread hold)).1
      · rcases Machine.thread_of_update h₁ with ⟨rfl, hnew₁⟩ | ⟨hne₁, hold₁⟩
        · rcases Machine.thread_of_update h₂ with ⟨rfl, -⟩ | ⟨hne₂, hold₂⟩
          · exact absurd rfl hne
          · cases hnew₁
            exact (hadvances.others _ (h.knows j₂ thread₂ hold₂)
              (h.apart j₁ j₂ _ thread₂ hne hthread hold₂)).2
        · rcases Machine.thread_of_update h₂ with ⟨rfl, hnew₂⟩ | ⟨hne₂, hold₂⟩
          · cases hnew₂
            exact ((hadvances.others _ (h.knows j₁ thread₁ hold₁)
              (h.apart j₂ j₁ _ thread₁ (Ne.symm hne) hthread hold₁)).2).symm
          · exact h.apart j₁ j₂ thread₁ thread₂ hne hold₁ hold₂
  | finish _ _ =>
      refine h.stopped fun j t ht => ?_
      rcases Machine.thread_of_update ht with ⟨-, hnone⟩ | ⟨-, hold⟩
      · cases hnone
      · exact hold
  | crash _ _ =>
      refine h.stopped fun j t ht => ?_
      rcases Machine.thread_of_update ht with ⟨-, hnone⟩ | ⟨-, hold⟩
      · cases hnone
      · exact hold
  | start hthread hp =>
      refine ⟨hconforms, h.keeps, fun j thread hj => ?_, fun j₁ j₂ thread₁ thread₂ hne h₁ h₂ => ?_⟩
      · rcases Machine.thread_of_update hj with ⟨-, hnew⟩ | ⟨-, hold⟩
        · cases hnew
          exact ⟨nofun, nofun, nofun⟩
        · exact h.knows j thread hold
      · rcases Machine.thread_of_update h₁ with ⟨-, hnew₁⟩ | ⟨-, hold₁⟩
        · cases hnew₁
          exact ⟨nofun, nofun⟩
        · rcases Machine.thread_of_update h₂ with ⟨-, hnew₂⟩ | ⟨-, hold₂⟩
          · cases hnew₂
            exact ⟨fun _ _ _ _ => nofun, fun _ _ _ => nofun⟩
          · exact h.apart j₁ j₂ thread₁ thread₂ hne hold₁ hold₂
  | environment henv =>
      exact ⟨hconforms, h.keeps.drift henv, fun j thread hj => (h.knows j thread hj).drift henv,
        h.apart⟩

/-- In every state of any number of calls, repeated and interleaved statement by
statement, the tables are in step; one call at most was told that it was the first; and
every other that was told has the time of the record that is committed. -/
theorem firstAccess_consistent {db : Db} (hdb : db.FirstAccess noticeId) {c : NoticePool ι}
    (hc : Reaches (notices env ι).Step (NoticePool.initial db) c) :
    c.world.db.committed.FirstAccess noticeId ∧
      (c.world.replies.countP fun p =>
        decide (p.noticeId = noticeId ∧ p.result.isFirstAccess = true)) ≤ 1 ∧
      ∀ p ∈ c.world.replies, p.noticeId = noticeId → p.result.isFirstAccess = false →
        c.world.db.committed.AccessedAt noticeId p.result.viewedAt := by
  have hinv : c.Inv noticeId :=
    hc.invariant (fun _ _ _ h hstep => h.step hstep) (NoticePool.inv_initial hdb)
  have hfirsts := hinv.keeps.firsts
  exact ⟨hinv.keeps.firstAccess, (Nat.le_add_right _ _).trans hfirsts, hinv.keeps.replies⟩

end Run

section Example

/-! ### A notice that is viewed once -/

/-- A request with a token, of an organization. -/
def noticeRequest : ServiceRequest :=
  { exampleFiling.row "sr-1" (some "org-1") 0 with
    noticeToken := some "00000000000000000000000000000000" }

/-- A database with this request, and the organization with the address of its owner. -/
def oneNotice : Db where
  organizations := Table.empty.insert ⟨"org-1", "clerk-1", "A", some "owner", 0⟩ rfl
  serviceRequests := Table.empty.insert noticeRequest rfl

theorem oneNotice_unviewed : oneNotice.Unviewed "sr-1" := ⟨rfl, rfl, rfl⟩

/-- The record of its first access. -/
def exampleAccess : NoticeAccess := ⟨"access-1", "sr-1", "203.0.113.42", "agent", 5⟩

/-- The world before it. -/
abbrev unviewedWorld : NoticeWorld := (NoticePool.initial oneNotice : NoticePool Unit).world

/-! ### Two calls at once -/

/-- One call has begun, and has found no record. -/
def waitingWorld : NoticeWorld := { unviewedWorld with db := unviewedWorld.db.start }

/-- The other has added its rows meanwhile, -/
def accessedWorld : NoticeWorld := waitingWorld.accessed exampleAccess "addendum-1"

/-- and has committed them, and been told. -/
def recordedWorld : NoticeWorld :=
  { accessedWorld with
    db := accessedWorld.db.commit accessInserts 1 (exampleAccess.rows "addendum-1")
    replies := [⟨"sr-1", true, some "owner", "A v. B", "203.0.113.x", 5⟩] }

/-- The first call is refused then, -/
def refusedWorld : NoticeWorld := { recordedWorld with db := recordedWorld.db.close 0 }

/-- and told of the record when it is made again. -/
def repeatedWorld : NoticeWorld :=
  { refusedWorld with
    db := refusedWorld.db.start.commit accessInserts 2 []
    replies := [⟨"sr-1", true, some "owner", "A v. B", "203.0.113.x", 5⟩,
      ⟨"sr-1", false, some "owner", "A v. B", "198.51.100.x", 5⟩] }

theorem recordFirstAccess_records :
    (callFirstAccess "sr-1" exampleAccess.ip exampleAccess.userAgent).Runs
      (acceptingAnswers fun _ => True) waitingWorld recordedWorld (.ok ()) := by
  have hopened : ∀ t rows, waitingWorld.db.opened t = some rows → rows = [] := by
    intro t rows h
    rcases Transactions.opened_update h with ⟨-, hrows⟩ | ⟨-, hnone⟩
    · exact (Option.some.inj hrows).symm
    · cases hnone
  have hcommit : noticeAnswers accessedWorld (.commit 1) { recordedWorld with replies := [] }
      (.ok ()) := Or.inl (Or.inl ⟨_, Transactions.opened_write _ _ _, rfl, rfl⟩)
  have hrecord := recordFirstAccess_runs (fun _ => True) exampleAccess "addendum-1" hopened rfl
    oneNotice_unviewed hcommit
  exact (Program.runs_bind _ _ _ _ _).2 <| Or.inl ⟨_, _, hrecord,
    .call ⟨Or.inl ⟨rfl, rfl⟩, trivial⟩ ⟨rfl, rfl⟩⟩

/-- The access record is taken by then. -/
theorem noticeAccessCreate_refused : noticeAnswers recordedWorld
    (.noticeAccessCreate 0 "sr-1" "198.51.100.7" "agent") recordedWorld
    (.error .uniqueConstraint) := by
  have hunlocked : recordedWorld.db.Unlocked accessInserts 0
      (.access ⟨"access-2", "sr-1", "198.51.100.7", "agent", 6⟩) := by
    intro t rows hne h
    rcases Transactions.opened_update h with ⟨-, hnone⟩ | ⟨hne', h⟩
    · cases hnone
    · simp [accessedWorld, NoticeWorld.accessed, waitingWorld, Transactions.write,
        Transactions.start, unviewedWorld, NoticePool.initial, Function.update, hne, hne'] at h
  have htaken : recordedWorld.db.committed.noticeAccesses.get? "sr-1" = some exampleAccess := rfl
  exact Or.inl ⟨"access-2", 6, [], rfl, hunlocked,
    Or.inr ⟨⟨_, rfl, fun hnone => by cases htaken.symm.trans hnone⟩, rfl, rfl⟩⟩

theorem recordFirstAccess_repeats : (callFirstAccess "sr-1" "198.51.100.7" "agent").Runs
    noticeAnswers refusedWorld repeatedWorld (.ok ()) := by
  have hfound : noticeAnswers { refusedWorld with db := refusedWorld.db.start }
      (.serviceRequestFindUnique 2 "sr-1") { refusedWorld with db := refusedWorld.db.start }
      (.ok (some ⟨"A v. B", some "owner", some 5⟩)) := Or.inl ⟨[], rfl, rfl, rfl⟩
  exact .call (Or.inl ⟨rfl, rfl⟩) <| .call hfound <|
    .call (Or.inl (Or.inl ⟨[], rfl, rfl, rfl⟩)) <| .call (Or.inl ⟨rfl, rfl⟩) ⟨rfl, rfl⟩

/-- Of two calls that both find no record one commits and the other is refused; when the other
is made again, it is told of the record. -/
theorem firstAccess_consistent_of_race :
    ∃ c : NoticePool Bool, Reaches (notices ⟨none, none⟩ Bool).Step (NoticePool.initial oneNotice) c ∧
      c.world.replies = [⟨"sr-1", true, some "owner", "A v. B", "203.0.113.x", 5⟩,
        ⟨"sr-1", false, some "owner", "A v. B", "198.51.100.x", 5⟩] ∧
      c.world.db.committed.FirstAccess "sr-1" ∧
      (c.world.replies.countP fun p =>
        decide (p.noticeId = "sr-1" ∧ p.result.isFirstAccess = true)) ≤ 1 ∧
      ∀ p ∈ c.world.replies, p.noticeId = "sr-1" → p.result.isFirstAccess = false →
        c.world.db.committed.AccessedAt "sr-1" p.result.viewedAt := by
  have hbegin : noticeAnswers unviewedWorld .beginTransaction waitingWorld (.ok 0) :=
    Or.inl ⟨rfl, rfl⟩
  have hfind : noticeAnswers waitingWorld (.serviceRequestFindUnique 0 "sr-1") waitingWorld
      (.ok (some ⟨"A v. B", some "owner", none⟩)) := Or.inl ⟨[], rfl, rfl, rfl⟩
  have hrollback : noticeAnswers recordedWorld (.rollback 0) refusedWorld (.ok ()) :=
    Or.inl ⟨rfl, rfl⟩
  have hrun : Reaches (notices ⟨none, none⟩ Bool).Step (NoticePool.initial oneNotice) _ :=
    .head (.start (i := true) rfl (.call "sr-1" "198.51.100.7" "agent")) <|
    .head (.act (i := true) rfl hbegin) <| .head (.act (i := true) rfl hfind) <|
    (Machine.reaches_of_program (fun _ _ _ _ _ h => h.1) (fun _ _ => trivial)
      recordFirstAccess_records _ (i := false) rfl (NoticeEntry.call _ _ _)).trans <|
    .head (.act (i := true) rfl noticeAccessCreate_refused) <|
    .head (.act (i := true) rfl hrollback) <| .head (.finish (i := true) rfl trivial) <|
    Machine.reaches_of_program (fun _ _ _ _ _ h => h) (fun _ _ => trivial)
      recordFirstAccess_repeats _ (i := true) rfl (NoticeEntry.call _ _ _)
  exact ⟨_, hrun, rfl, firstAccess_consistent (Or.inl oneNotice_unviewed) hrun⟩

end Example

end EpsDapp
