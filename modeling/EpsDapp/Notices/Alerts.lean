import EpsDapp.Notices.FirstAccess

/-!
# Alerts of a first access

A first access is told to the owner by two senders: by `sendFirstAccessAlert`, which
the transaction starts before it commits, and by the page, which waits until the
transaction has returned. The page alone sends one alert at most, of an access that is
committed. The other one is sent besides it, and also when the commit fails.
-/

set_option autoImplicit false

namespace EpsDapp

open Calendar Effect NoticeProgram

/-- One alert at most was sent about the notice, and none of an access that is not recorded. -/
def NoticeWorld.AlertedOnce (noticeId : String) (w : NoticeWorld) : Prop :=
  (w.sent.countP fun a => decide (a.noticeId = noticeId)) ≤ 1 ∧
    ∀ a ∈ w.sent, a.noticeId = noticeId → w.db.committed.Viewed noticeId

/-- Calls, views and alerts when Resend accepts the emails of these senders only. -/
def accepting (env : EmailEnv) (ι : Type) (accepts : AlertSender → Prop) :
    Machine noticeSig Failure Unit ι Visit NoticeWorld :=
  (notices env ι).under (fun _ _ c _ r => c.AcceptedBy accepts r) fun _ _ => True

/-! ## The page alone -/

section Page

variable {env : EmailEnv} {ι : Type} [DecidableEq ι] {accepts : AlertSender → Prop}
  {noticeId : String}

/-- All alerts are of the page. -/
def NoticeWorld.SentByPage (w : NoticeWorld) : Prop := ∀ a ∈ w.sent, a.sender = .page

/-- No alert is added but those of the page. -/
theorem NoticeWorld.SentByPage.answers {w w' : NoticeWorld} {c : NoticeCall}
    {r : Except Failure c.Resp} (h : w.SentByPage) (haccepts : ¬ accepts .transaction)
    (hanswer : acceptingAnswers accepts w c w' r) : w'.SentByPage := by
  obtain ⟨hanswer | ⟨rfl, -⟩, haccepted⟩ := hanswer
  swap
  · exact h
  have hsame : w'.sent = w.sent → w'.SentByPage := fun hsent a ha => h a (hsent ▸ ha)
  cases c with
  | emailsSend id email =>
      rcases hanswer with ⟨rfl, rfl⟩ | ⟨rfl, rfl⟩
      · exact absurd haccepted haccepts
      · exact h
  | fetchResend id apiKey sender email =>
      rcases hanswer with ⟨rfl, rfl⟩ | ⟨rfl, rfl⟩
      · intro a ha
        rcases List.mem_append.1 ha with ha | ha
        · exact h a ha
        · obtain rfl := List.mem_singleton.1 ha
          rfl
      · exact h
  | commit t =>
      rcases hanswer with ⟨rows, -, rfl, -⟩ | ⟨rfl, -⟩
      · exact h
      · exact h
  | noticeAccessCreate t id ip userAgent =>
      obtain ⟨_, _, _, -, -, ⟨-, -, rfl, -⟩ | ⟨-, rfl, -⟩⟩ := hanswer
      · exact h
      · exact h
  | certificateAddendumCreate t data =>
      obtain ⟨_, _, -, -, ⟨-, -, rfl, -⟩ | ⟨-, rfl, -⟩⟩ := hanswer
      · exact h
      · exact h
  | serviceRequestFindUnique t id =>
      obtain ⟨_, -, rfl, -⟩ := hanswer
      exact h
  | auditLogCreate t data =>
      obtain ⟨_, -, rfl, -⟩ := hanswer
      exact h
  | nextAlert =>
      obtain ⟨_, _, -, rfl, -⟩ := hanswer
      exact h
  | _ =>
      obtain ⟨rfl, -⟩ := hanswer
      exact h

theorem NoticeWorld.SentByPage.step {c c' : NoticePool ι} {l : Label noticeSig Failure ι}
    (h : c.world.SentByPage) (haccepts : ¬ accepts .transaction)
    (hstep : (accepting env ι accepts).Step c l c') : c'.world.SentByPage := by
  cases hstep with
  | act _ hanswer => exact h.answers haccepts hanswer
  | environment henv =>
      cases henv with
      | close t => exact h
      | others _ => exact h
  | _ => exact h

/-- What the page has sent, it was the first to tell. -/
theorem NoticeWorld.Keeps.alertedOnce {w : NoticeWorld} (h : w.Keeps noticeId)
    (hpage : w.SentByPage) : w.AlertedOnce noticeId := by
  have hcount : (w.sent.countP fun a => decide (a.noticeId = noticeId)) ≤ w.firsts noticeId := by
    have hsame : (w.sent.countP fun a => decide (a.noticeId = noticeId)) =
        w.sent.countP fun a => decide (a.noticeId = noticeId ∧ a.sender = .page) :=
      List.countP_congr fun a ha => by simp [hpage a ha]
    exact hsame ▸ Nat.le_add_left _ _
  refine ⟨hcount.trans h.firsts, fun a ha hid => ?_⟩
  have hpos : 0 < w.sent.countP fun a => decide (a.noticeId = noticeId) :=
    List.countP_pos_iff.2 ⟨a, ha, decide_eq_true hid⟩
  have haccessed := h.accessed (hpos.trans_le hcount).ne'
  exact h.firstAccess.resolve_left fun hunviewed => haccessed hunviewed.access

end Page

/-! ## The alert of the transaction -/

section Transaction

variable {accepts : AlertSender → Prop} {w w' : NoticeWorld} {row : ServiceRequest}
  {env : EmailEnv} {headers : RequestHeaders} {token : String}

theorem awaitNotice_of_tokenRe (hre : tokenRe token = true) :
    awaitNotice token = noticeFindUnique token := by
  unfold awaitNotice
  simp only [normalized_of_tokenRe hre, hre, if_true]

/-- A view of the page of a notice, once the access is recorded or is not. -/
theorem noticePage_runs (hre : tokenRe token = true)
    (hrow : w.db.committed.requestOfToken token = some row)
    (hview : (recordView env headers token row.noticeView).Runs (acceptingAnswers accepts)
      w w' (.ok ())) :
    (noticePage env headers token).Runs (acceptingAnswers accepts) w w'
      (.ok (.coverSheet row.noticeView)) := by
  have hfind : acceptingAnswers accepts w (.noticeFindUnique token) w
      (.ok (some row.noticeView)) :=
    ⟨Or.inl ⟨rfl, congrArg (fun r => Except.ok (Option.map ServiceRequest.noticeView r))
      hrow.symm⟩, trivial⟩
  have hok : acceptingAnswers accepts w (.rateLimit ("notice:" ++ clientIpFromHeaders headers)) w
      (.ok true) := ⟨Or.inl ⟨rfl, true, rfl⟩, trivial⟩
  refine .call hok ?_
  show ((awaitNotice token).bind _).Runs _ _ _ _
  rw [awaitNotice_of_tokenRe hre]
  exact .call hfind <|
    (Program.runs_bind (recordView env headers token row.noticeView) _ _ _ _).2 <|
      Or.inl ⟨(), w', hview, rfl, rfl⟩

/-- The page whose transaction fails shows the notice all the same. -/
theorem recordView_runs_of_error {request : NoticeView} {e : Failure}
    (h : (recordFirstAccess request.id (clientIpFromHeaders headers)
      ((headers "user-agent").getD "")).Runs (acceptingAnswers accepts) w w' (.error e)) :
    (recordView env headers token request).Runs (acceptingAnswers accepts) w w' (.ok ()) :=
  (Program.runs_tryCatch _ _ _ _ _).2 <| Or.inr
    ⟨e, w', (Program.runs_bind _ _ _ _ _).2 (Or.inr ⟨e, h, rfl⟩), rfl, rfl⟩

/-- The alert that is started is sent when its email is accepted. -/
theorem runAlert_runs {noticeId toEmail : String} (haccepts : accepts .transaction)
    (hstarted : w.started = [noticeId]) (hrow : w.db.committed.request? noticeId = some row)
    (howner : truthy (w.db.committed.ownerEmailOf row) = some toEmail) :
    runAlert.Runs (acceptingAnswers accepts) w
      { w with started := [], sent := w.sent ++ [⟨noticeId, .transaction, toEmail⟩] }
      (.ok ()) := by
  have hnext : acceptingAnswers accepts w .nextAlert { w with started := [] } (.ok noticeId) :=
    ⟨Or.inl ⟨noticeId, [], hstarted ▸ .refl _, rfl, rfl⟩, trivial⟩
  have hfind : acceptingAnswers accepts { w with started := [] } (.alertFindUnique noticeId)
      { w with started := [] }
      (.ok (some (row.caseCaption, w.db.committed.ownerEmailOf row))) :=
    ⟨Or.inl ⟨rfl, by simp only [hrow, Option.map]⟩, trivial⟩
  refine .call hnext <| .call hfind ?_
  simp only [Program.bind, howner]
  have hsend : ∀ email : ResendEmail, email.toEmail = toEmail →
      acceptingAnswers accepts { w with started := [] } (.emailsSend noticeId email)
        { w with started := [], sent := w.sent ++ [⟨noticeId, .transaction, toEmail⟩] }
        (.ok true) := by
    rintro email rfl
    exact ⟨Or.inl (Or.inl ⟨rfl, rfl⟩), haccepts⟩
  exact .call (hsend _ rfl) ⟨rfl, rfl⟩

/-- A view whose commit fails leaves its alert behind. -/
theorem noticePage_runs_of_abort (hopened : ∀ t rows, w.db.opened t = some rows → rows = [])
    (hre : tokenRe token = true) (hrow : w.db.committed.requestOfToken token = some row)
    (hunviewed : w.db.committed.Unviewed row.id) :
    ∃ db, (noticePage env headers token).Runs (acceptingAnswers accepts) w
      { w with db := db, started := w.started ++ [row.id] } (.ok (.coverSheet row.noticeView)) ∧
        db.committed = w.db.committed := by
  let access : NoticeAccess :=
    ⟨"", row.id, clientIpFromHeaders headers, (headers "user-agent").getD "", 0⟩
  have hid : w.db.committed.request? row.id = some row :=
    (w.db.committed.request?_eq_some_iff _ _).2 ⟨List.mem_of_find?_eq_some hrow, rfl⟩
  have hcommit : noticeAnswers (w.accessed access "") (.commit w.db.next)
      { w.accessed access "" with db := (w.accessed access "").db.close w.db.next }
      (.error (.error "")) := Or.inl (Or.inr ⟨rfl, "", rfl⟩)
  have hrecord := recordFirstAccess_runs accepts access "" hopened hid hunviewed hcommit
  exact ⟨_, noticePage_runs hre hrow (recordView_runs_of_error hrecord), rfl⟩

end Transaction

/-! ## Whose emails are accepted -/

section Run

variable {env : EmailEnv} {ι : Type} [DecidableEq ι] {accepts : AlertSender → Prop} {db : Db}
  {row : ServiceRequest} {headers : RequestHeaders} {token toEmail : String}

/-- A view or an alert may run while nothing else does. -/
theorem accepting_reaches (i : ι) {p : NoticeProgram Unit} (hp : NoticeEntry env p)
    {w w' : NoticeWorld} {r : Except Failure Unit} (h : p.Runs (acceptingAnswers accepts) w w' r) :
    Reaches (accepting env ι accepts).Step ⟨w, fun _ => none⟩ ⟨w', fun _ => none⟩ := by
  have hanswers : ∀ m w c w' r, acceptingAnswers accepts w c w' r →
      (accepting env ι accepts).answers m w c w' r := fun _ _ _ _ _ h => h
  have hrelease : ∀ m w, (accepting env ι accepts).release m w := fun _ _ => ⟨trivial, trivial⟩
  exact Machine.reaches_of_program hanswers hrelease h (fun _ => none) (i := i) rfl hp

/-- In every run the owner of a notice that was not viewed yet is alerted once at most, and of
a recorded access only, exactly if Resend does not accept the emails of the transaction. -/
theorem alertedOnce_iff [Nonempty ι] (hre : tokenRe token = true)
    (hrow : db.requestOfToken token = some row)
    (howner : truthy (db.ownerEmailOf row) = some toEmail) (hunviewed : db.Unviewed row.id) :
    (∀ c : NoticePool ι, Reaches (accepting env ι accepts).Step (NoticePool.initial db) c →
      c.world.AlertedOnce row.id) ↔ ¬ accepts .transaction := by
  constructor
  · intro hall haccepts
    obtain ⟨i⟩ := ‹Nonempty ι›
    obtain ⟨db', hpage, hcommitted⟩ : ∃ db' : Transactions Db AccessWrite,
        (noticePage env (fun _ => none) token).Runs (acceptingAnswers accepts)
          ⟨⟨db, fun _ => none, 0⟩, [], [], []⟩ ⟨db', [row.id], [], []⟩
          (.ok (.coverSheet row.noticeView)) ∧ db'.committed = db :=
      noticePage_runs_of_abort (fun _ _ h => by cases h) hre hrow hunviewed
    have hid : db'.committed.request? row.id = some row :=
      hcommitted ▸ (db.request?_eq_some_iff _ _).2 ⟨List.mem_of_find?_eq_some hrow, rfl⟩
    have halert := runAlert_runs (w := ⟨db', [row.id], [], []⟩) haccepts rfl hid
      (hcommitted ▸ howner)
    have hview := (Program.runs_map (fun _ => ()) _ _ _ _).2 ⟨_, hpage, rfl⟩
    have hreach := (accepting_reaches i (.page _ _) hview).trans (accepting_reaches i .alert halert)
    obtain ⟨access, _, haccess, -⟩ := (hall _ hreach).2 _ List.mem_cons_self rfl
    cases hunviewed.access.symm.trans (hcommitted ▸ haccess)
  · intro haccepts c hc
    let byPage : NoticePool ι → Prop := fun c => c.world.SentByPage
    have hpage : byPage c :=
      hc.invariant (fun _ _ _ (h : byPage _) hstep => h.step haccepts hstep) fun _ ha =>
        (List.not_mem_nil ha).elim
    have hinv : c.Inv row.id :=
      hc.invariant (fun _ _ _ h hstep => h.step (Machine.step_of_under hstep))
        (NoticePool.inv_initial (Or.inl hunviewed))
    exact hinv.keeps.alertedOnce hpage

end Run

section Example

/-! ### One view of the page -/

/-- Email is configured. -/
def exampleEmailEnv : EmailEnv := ⟨some "key", none⟩

def exampleToken : String := "00000000000000000000000000000000"

theorem tokenRe_exampleToken : tokenRe exampleToken = true := by decide

theorem oneNotice_requestOfToken :
    oneNotice.requestOfToken exampleToken = some noticeRequest := rfl

/-- Resend accepts the emails of the page only. -/
theorem alertedOnce_of_page_only :
    AlertSender.transaction ≠ .page ∧ ∀ c : NoticePool Unit,
      Reaches (accepting exampleEmailEnv Unit (· = .page)).Step (NoticePool.initial oneNotice) c →
        c.world.AlertedOnce "sr-1" := by
  have hrefused : AlertSender.transaction ≠ .page := by decide
  exact ⟨hrefused, (alertedOnce_iff tokenRe_exampleToken oneNotice_requestOfToken rfl
    oneNotice_unviewed).2 hrefused⟩

/-- One view of the page alerts the owner twice when Resend accepts both emails. -/
theorem not_alertedOnce_of_one_view :
    ¬ ∀ c : NoticePool Unit,
      Reaches (notices exampleEmailEnv Unit).Step (NoticePool.initial oneNotice) c →
        c.world.AlertedOnce "sr-1" := by
  intro h
  let headers : RequestHeaders := fun _ => none
  let access : NoticeAccess := ⟨"access-1", "sr-1", clientIpFromHeaders headers, "", 5⟩
  let w : NoticeWorld := unviewedWorld.accessed access "addendum-1"
  let db := w.db.commit accessInserts 0 (access.rows "addendum-1")
  have hcommit : noticeAnswers w (.commit 0) { w with db := db } (.ok ()) :=
    Or.inl (Or.inl ⟨_, Transactions.opened_write _ _ _, rfl, rfl⟩)
  have hrecord := recordFirstAccess_runs (fun _ => True) access "addendum-1" (fun _ _ h => by cases h) rfl
    oneNotice_unviewed hcommit
  have hsend : ∀ email : FirstAccessEmail, email.toEmail = "owner" →
      acceptingAnswers (fun _ => True) { w with db := db }
        (.fetchResend "sr-1" "key" "EPS Notices <notices@eps.local>" email)
        { w with db := db, sent := [⟨"sr-1", .page, "owner"⟩] } (.ok true) := by
    intro email hemail
    exact ⟨Or.inl (Or.inl ⟨by rw [hemail]; rfl, rfl⟩), trivial⟩
  have hview : (recordView exampleEmailEnv headers exampleToken noticeRequest.noticeView).Runs
      (acceptingAnswers fun _ => True) unviewedWorld
      { w with db := db, sent := [⟨"sr-1", .page, "owner"⟩] } (.ok ()) :=
    (Program.runs_tryCatch _ _ _ _ _).2 <| Or.inl
      ⟨(), (Program.runs_bind _ _ _ _ _).2 (Or.inl ⟨_, _, hrecord, .call (hsend _ rfl) ⟨rfl, rfl⟩⟩),
        rfl⟩
  have hpage := (Program.runs_map (fun _ => ()) _ _ _ _).2
    ⟨_, noticePage_runs tokenRe_exampleToken oneNotice_requestOfToken hview, rfl⟩
  have hrow : db.committed.request? "sr-1" = some noticeRequest := rfl
  have halert : runAlert.Runs (acceptingAnswers fun _ => True)
      { w with db := db, sent := [⟨"sr-1", .page, "owner"⟩] } _ (.ok ()) :=
    runAlert_runs trivial rfl hrow rfl
  have hreach := (accepting_reaches () (.page _ _) hpage).trans (accepting_reaches () .alert halert)
  exact absurd (h _ (hreach.mono fun _ _ _ => Machine.step_of_under)).1 (by decide)

end Example

end EpsDapp
