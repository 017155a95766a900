import EpsDapp.Effect.Pool
import EpsDapp.Reads.Routes
import EpsDapp.Server.Calls

/-!
# Downloads of a certificate

The worker delivers a notice, its recipient views it, and its filer downloads the
certificate, in any order and any number of times. The first download stores what it
has rendered, and the others return the stored copy: nothing that is written to the
notice afterwards renders it again. A download shows what is committed as long as
nothing that a certificate shows is written once a copy of it is stored, or while one
is being made.
-/

set_option autoImplicit false

namespace EpsDapp

open Calendar Effect

/-- What the certificate of the notice shows if it is rendered now. -/
def Db.certificateData? (db : Db) (noticeId : String) : Option CertificateData :=
  (db.request? noticeId).map fun notice =>
    certificateData notice (db.certificateAddenda.get? noticeId)

/-- The database, and the databases that were committed before it. -/
structure CertificateWorld where
  db : Db
  past : List Db := []

/-- The notice had the data at some time since `k` databases had been replaced. -/
def CertificateWorld.Shown (w : CertificateWorld) (noticeId : String) (k : ℕ)
    (data : CertificateData) : Prop :=
  ∃ db ∈ (w.past ++ [w.db]).drop k, db.certificateData? noticeId = some data

/-- A running download: its notice and when it started, what it has read, what it has
rendered from that, and the stored copy it has found. -/
structure Download where
  started : Option (String × ℕ) := none
  read : Option CertificateData := none
  rendered : Option (CertificateData × List UInt8) := none
  found : Option (List UInt8) := none

namespace Download

/-- When the download has started, or starts. -/
def since (m : Download) (w : CertificateWorld) : ℕ := (m.started.map Prod.snd).getD w.past.length

/-- The mark after a call is answered. -/
def observe (m : Download) (c : ReadCall) (w : CertificateWorld) (r : Except Failure c.Resp) :
    Download :=
  match c, r with
  | .certificatePdfFindUnique noticeId, .ok (some pdfBase64) =>
      { m with started := some (noticeId, m.since w), found := some (base64Decode pdfBase64) }
  | .certificatePdfFindUnique noticeId, _ => { m with started := some (noticeId, m.since w) }
  | .noticeFindUnique _, .ok (some (notice, addendum)) =>
      { m with read := some (certificateData notice addendum) }
  | .renderCertificatePdf data, .ok bytes => { m with rendered := some (data, bytes) }
  | _, _ => m

end Download

/-- The bytes show data that the notice of the download has had since it started. -/
def CertificateWorld.Shows (render : CertificateRenderer) (w : CertificateWorld) (m : Download)
    (bytes : List UInt8) : Prop :=
  ∃ noticeId k data now, m.started = some (noticeId, k) ∧ w.Shown noticeId k data ∧
    render data now = .ok bytes

/-- The answers to a download; any call may also fail. -/
def CertificateWorld.Answers (render : CertificateRenderer) (w : CertificateWorld)
    (c : ReadCall) (w' : CertificateWorld) (r : Except Failure c.Resp) : Prop :=
  (renderedAnswers render w.db c w'.db r ∧ w'.past = w.past) ∨
    (w' = w ∧ ∃ message, r = .error (.error message))

/-- Others write to the notices, and leave the stored copies. -/
inductive CertificateWorld.Commits : CertificateWorld → CertificateWorld → Prop
  | commit {w : CertificateWorld} {db : Db} (h : db.certificatePdfs = w.db.certificatePdfs) :
      Commits w { w with db := db, past := w.past ++ [w.db] }

/-- Downloads of any notices, call by call. -/
def downloads (render : CertificateRenderer) (ι : Type) :
    Machine readSig Failure (List UInt8) ι Download CertificateWorld where
  idle := {}
  observe m c w r := m.observe c w r
  answers _ := CertificateWorld.Answers render
  entry _ p := ∃ noticeId, p = getOrCreateCertificatePdf noticeId
  environment := CertificateWorld.Commits

/-- The pool of the downloads. -/
abbrev DownloadPool (ι : Type) :=
  Pool readSig Failure (List UInt8) ι Download CertificateWorld

/-- No download has started yet. -/
def DownloadPool.initial {ι : Type} (db : Db) : DownloadPool ι := ⟨{ db := db }, fun _ => none⟩

/-- Each certificate that is returned shows what its notice has had during the download. -/
def DownloadPool.Current {ι : Type} (render : CertificateRenderer) (c : DownloadPool ι) : Prop :=
  ∀ i bytes m, c.thread i = some ⟨.done (.ok bytes), m⟩ → c.world.Shows render m bytes

/-- A copy of the certificate of the notice is stored, or a download that has read the notice
is still running. -/
def DownloadPool.Made {ι : Type} (c : DownloadPool ι) (noticeId : String) : Prop :=
  c.world.db.certificatePdfs.get? noticeId ≠ none ∨
    ∃ i thread k, c.thread i = some thread ∧ thread.mark.started = some (noticeId, k) ∧
      thread.mark.read ≠ none

/-- The step writes nothing that a certificate shows of which a copy is made. -/
def DownloadPool.Spares {ι : Type} (c : DownloadPool ι) (_ : Label readSig Failure ι)
    (c' : DownloadPool ι) : Prop :=
  ∀ noticeId, c.Made noticeId →
    c'.world.db.certificateData? noticeId = c.world.db.certificateData? noticeId

/-- A step of the downloads and of those who write to the notices, which spares what is made. -/
def DownloadPool.QuietStep {ι : Type} [DecidableEq ι] (render : CertificateRenderer)
    (c : DownloadPool ι) (l : Label readSig Failure ι) (c' : DownloadPool ι) : Prop :=
  (downloads render ι).Step c l c' ∧ c.Spares l c'

namespace Download

/-- The mark a call and its answer lead to. -/
def Follows (render : CertificateRenderer) : Answers readSig Failure Download := fun m c m' r =>
  ∃ w w', CertificateWorld.Answers render w c w' r ∧ m' = m.observe c w' r

/-- The calls that a download makes. -/
def Allows (m : Download) : ReadCall → Prop
  | .certificatePdfFindUnique noticeId => ∀ p, m.started = some p → p.1 = noticeId
  | .noticeFindUnique noticeId => (∃ k, m.started = some (noticeId, k)) ∧ m.rendered = none
  | .renderCertificatePdf data => m.read = some data
  | .certificatePdfCreate noticeId pdfBase64 => ∃ k data bytes,
      m.started = some (noticeId, k) ∧ m.rendered = some (data, bytes) ∧
        pdfBase64 = String.ofList (base64Encode bytes)
  | _ => False

/-- What a download returns, it has found or rendered. -/
def Returns (r : Except Failure (List UInt8)) (m : Download) : Prop :=
  ∀ bytes, r = .ok bytes → m.found = some bytes ∨ ∃ data, m.rendered = some (data, bytes)

end Download

/-! ## What a download calls -/

variable {render : CertificateRenderer} {noticeId : String} {m : Download}

theorem generateCertificatePdf_wp {k : ℕ} (hm : m.started = some (noticeId, k))
    (hnone : m.rendered = none) :
    (generateCertificatePdf noticeId).wp (Download.Follows render) Download.Allows
      (fun r m' => ∀ bytes, r = .ok bytes → m'.started = some (noticeId, k) ∧
        ∃ data, m'.rendered = some (data, bytes)) m := by
  refine (Program.wp_bind _ _ _ _).2 ((Program.wp_perform _ _ _).2 ⟨⟨⟨k, hm⟩, hnone⟩, ?_⟩)
  rintro _ (e | _ | ⟨notice, addendum⟩) ⟨w, w', -, rfl⟩
  · exact fun _ => nofun
  · exact fun _ => nofun
  refine (Program.wp_perform _ _ _).2 ⟨rfl, ?_⟩
  rintro _ (e | bytes) ⟨w, w', -, rfl⟩
  · exact fun _ => nofun
  · rintro _ ⟨⟩
    exact ⟨hm, _, rfl⟩

/-- A download returns the copy it finds, before or after it has rendered one. -/
theorem getOrCreateCertificatePdf_wp (render : CertificateRenderer) (noticeId : String) :
    (getOrCreateCertificatePdf noticeId).wp (Download.Follows render) Download.Allows
      Download.Returns {} := by
  refine (Program.wp_bind _ _ _ _).2 ((Program.wp_perform _ _ _).2 ⟨nofun, ?_⟩)
  rintro _ (e | _ | pdfBase64) ⟨w, w', -, rfl⟩
  · exact fun _ => nofun
  swap
  · rintro _ ⟨⟩
    exact Or.inl rfl
  refine Program.wp_seq (generateCertificatePdf_wp rfl rfl) ?_ fun e _ _ _ => nofun
  intro bytes m hm
  obtain ⟨hstarted, data, hrendered⟩ := hm bytes rfl
  refine Program.wp_seq (R := fun r m' => match r with
    | .ok (some pdfBase64) => m'.found = some (base64Decode pdfBase64)
    | .ok none => m'.rendered = some (data, bytes)
    | .error _ => True) ?_ ?_ fun e _ _ _ => nofun
  · refine Program.wp_catch (R := fun r m' => (∀ pdfBase64, r = .ok pdfBase64 → pdfBase64 = none) ∧
      m' = m) ?_ ?_ ?_
    · refine (Program.wp_bind _ _ _ _).2
        ((Program.wp_perform _ _ _).2 ⟨⟨_, data, bytes, hstarted, hrendered, rfl⟩, ?_⟩)
      rintro _ (e | _) ⟨w, w', -, rfl⟩
      · exact ⟨fun _ => nofun, rfl⟩
      · exact ⟨fun _ h => (Except.ok.inj h).symm, rfl⟩
    · rintro _ _ ⟨hnone, rfl⟩
      obtain rfl := hnone _ rfl
      exact hrendered
    · rintro e _ ⟨-, rfl⟩
      refine (Program.wp_perform _ _ _).2 ⟨fun p hp => ?_, ?_⟩
      · exact congrArg Prod.fst (Option.some.inj (hp.symm.trans hstarted))
      · rintro _ (e | _ | pdfBase64) ⟨w, w', -, rfl⟩
        · trivial
        · exact hrendered
        · rfl
  · rintro (_ | pdfBase64) m' hm'
    · rintro _ ⟨⟩
      exact Or.inr ⟨data, hm'⟩
    · rintro _ ⟨⟩
      exact Or.inl hm'

/-! ## The invariant -/

/-- The stored copies show what is committed. -/
def CertificateWorld.Sound (render : CertificateRenderer) (w : CertificateWorld) : Prop :=
  ∀ noticeId copy, w.db.certificatePdfs.get? noticeId = some copy →
    ∃ data now, w.db.certificateData? noticeId = some data ∧
      render data now = .ok (base64Decode copy.pdfBase64)

/-- What a running download has read is still committed; what it has rendered shows that,
and what it has found shows what its notice has had since it started. -/
structure Download.Knows (render : CertificateRenderer) (m : Download) (w : CertificateWorld) :
    Prop where
  started : ∀ noticeId k, m.started = some (noticeId, k) → k ≤ w.past.length
  read : ∀ data, m.read = some data →
    ∃ noticeId k, m.started = some (noticeId, k) ∧ w.db.certificateData? noticeId = some data
  rendered : ∀ data bytes, m.rendered = some (data, bytes) →
    m.read = some data ∧ ∃ now, render data now = .ok bytes
  found : ∀ bytes, m.found = some bytes → w.Shows render m bytes

theorem Download.knows_idle (w : CertificateWorld) : Download.Knows render {} w := by
  refine ⟨fun _ _ h => ?_, fun _ h => ?_, fun _ _ h => ?_, fun _ h => ?_⟩
  · cases h
  · cases h
  · cases h
  · cases h

/-- What notices have had is not forgotten. -/
structure CertificateWorld.Later (w w' : CertificateWorld) : Prop where
  length : w.past.length ≤ w'.past.length
  shown : ∀ noticeId k data, w.Shown noticeId k data → w'.Shown noticeId k data

namespace CertificateWorld

variable {w w' : CertificateWorld}

theorem shown_of_committed {k : ℕ} {data : CertificateData} (hk : k ≤ w.past.length)
    (h : w.db.certificateData? noticeId = some data) : w.Shown noticeId k data := by
  refine ⟨w.db, ?_, h⟩
  rw [List.drop_append_of_le_length hk]
  exact List.mem_append_right _ (List.mem_singleton_self _)

theorem Commits.later (h : w.Commits w') : w.Later w' := by
  cases h with
  | commit h =>
      refine ⟨by simp, ?_⟩
      rintro noticeId k data ⟨db, hdb, hdata⟩
      refine ⟨db, ?_, hdata⟩
      rw [List.drop_append]
      exact List.mem_append_left _ hdb

/-- No call of a download changes what the notices have. -/
theorem Answers.data {c : ReadCall} {r : Except Failure c.Resp} (h : w.Answers render c w' r)
    (noticeId : String) : w'.db.certificateData? noticeId = w.db.certificateData? noticeId := by
  rcases h with ⟨⟨hexec, -⟩, -⟩ | ⟨rfl, -⟩
  · cases c with
    | certificatePdfCreate id pdfBase64 =>
        rcases hexec with ⟨_, _, _, hdb, -⟩ | ⟨hdb, -⟩
        · rw [hdb]
          rfl
        · rw [hdb]
    | renderCertificatePdf data => rw [show w'.db = w.db from hexec]
    | _ => rw [hexec.1]
  · rfl

theorem Answers.past {c : ReadCall} {r : Except Failure c.Resp} (h : w.Answers render c w' r) :
    w'.past = w.past := by
  rcases h with ⟨-, hpast⟩ | ⟨rfl, -⟩
  · exact hpast
  · rfl

theorem Answers.later {c : ReadCall} {r : Except Failure c.Resp} (h : w.Answers render c w' r) :
    w.Later w' := by
  refine ⟨h.past ▸ le_rfl, ?_⟩
  rintro noticeId k data ⟨db, hdb, hshown⟩
  rw [List.drop_append, List.mem_append] at hdb
  rw [Shown, h.past, List.drop_append]
  rcases hdb with hdb | hdb
  · exact ⟨db, List.mem_append_left _ hdb, hshown⟩
  · refine ⟨w'.db, List.mem_append_right _ ?_, ?_⟩
    · cases hk : k - w.past.length with
      | zero => exact List.mem_singleton_self _
      | succ n => simp [hk] at hdb
    · obtain rfl := List.mem_singleton.1 (List.mem_of_mem_drop hdb)
      rw [h.data, hshown]

end CertificateWorld

/-- What a download knows outlives a step that writes nothing it has read. -/
theorem Download.Knows.later {w w' : CertificateWorld} (h : m.Knows render w) (hw : w.Later w')
    (hdata : ∀ noticeId k, m.started = some (noticeId, k) → m.read ≠ none →
      w'.db.certificateData? noticeId = w.db.certificateData? noticeId) : m.Knows render w' where
  started noticeId k hk := (h.started noticeId k hk).trans hw.length
  read data hread := by
    obtain ⟨noticeId, k, hk, hshown⟩ := h.read data hread
    exact ⟨noticeId, k, hk, (hdata noticeId k hk (by simp [hread])).trans hshown⟩
  rendered := h.rendered
  found bytes hbytes := by
    obtain ⟨noticeId, k, data, now, hk, hshown, hnow⟩ := h.found bytes hbytes
    exact ⟨noticeId, k, data, now, hk, hw.shown _ _ _ hshown, hnow⟩

section Step

variable {w w' : CertificateWorld} {c : ReadCall} {r : Except Failure c.Resp}

theorem CertificateWorld.Sound.commits (hw : w.Sound render) (h : w.Commits w')
    (hdata : ∀ noticeId, w.db.certificatePdfs.get? noticeId ≠ none →
      w'.db.certificateData? noticeId = w.db.certificateData? noticeId) : w'.Sound render := by
  cases h with
  | commit hpdfs =>
      intro noticeId copy hcopy
      rw [hpdfs] at hcopy
      obtain ⟨data, now, hshown, hbytes⟩ := hw noticeId copy hcopy
      exact ⟨data, now, (hdata noticeId (by simp [hcopy])).trans hshown, hbytes⟩

/-- The copy that a download stores is the one it has rendered. -/
theorem CertificateWorld.Sound.answers (hw : w.Sound render) (hm : m.Knows render w)
    (hc : m.Allows c) (h : w.Answers render c w' r) : w'.Sound render := by
  have hdata := h.data
  have hsame : w'.db.certificatePdfs = w.db.certificatePdfs → w'.Sound render :=
    fun hpdfs id copy hcopy => by
      rw [hdata]
      exact hw id copy (hpdfs ▸ hcopy)
  rcases h with ⟨⟨hexec, -⟩, -⟩ | ⟨rfl, -⟩
  swap
  · exact hw
  cases c with
  | certificatePdfCreate id pdfBase64 =>
      rcases hexec with ⟨copyId, now, hfree, hdb, rfl⟩ | ⟨hdb, -, rfl⟩
      · obtain ⟨k, data, bytes, hstarted, hrendered, rfl⟩ := hc
        obtain ⟨hread, at', hbytes⟩ := hm.rendered data bytes hrendered
        intro id' copy hcopy
        rw [hdb] at hcopy
        have hcopy := (Table.get?_insert _ _ hfree id').symm.trans hcopy
        rw [hdata]
        by_cases hid : id' = id
        · subst hid
          obtain rfl := Option.some.inj ((if_pos rfl).symm.trans hcopy)
          obtain ⟨noticeId, k', hk', hshown⟩ := hm.read data hread
          obtain ⟨rfl, -⟩ := Prod.mk.inj (Option.some.inj (hk'.symm.trans hstarted))
          exact ⟨data, at', hshown, by rw [base64Decode_base64Encode, hbytes]⟩
        · rw [if_neg hid] at hcopy
          exact hw id' copy hcopy
      · exact hsame (congrArg Db.certificatePdfs hdb)
  | renderCertificatePdf data =>
      have hdb : w'.db = w.db := hexec
      exact hsame (congrArg Db.certificatePdfs hdb)
  | _ => exact hsame (congrArg Db.certificatePdfs hexec.1)

/-- A lookup of the stored copy starts the download, or comes after its start. -/
theorem Download.Knows.start {id : String} (h : m.Knows render w)
    (hid : ∀ p, m.started = some p → p.1 = id) :
    Download.Knows render { m with started := some (id, m.since w) } w := by
  cases hstarted : m.started with
  | some p =>
      obtain rfl := hid p hstarted
      have hsame : some (p.1, m.since w) = m.started := by
        rw [Download.since, hstarted]
        rfl
      rw [hsame]
      exact h
  | none =>
      have hread : m.read = none := Option.eq_none_iff_forall_not_mem.2 fun data hdata => by
        obtain ⟨_, _, hsome, -⟩ := h.read data hdata
        cases hstarted.symm.trans hsome
      have hrendered : m.rendered = none := Option.eq_none_iff_forall_not_mem.2 fun p hp => by
        obtain ⟨hsome, -⟩ := h.rendered p.1 p.2 hp
        cases hread.symm.trans hsome
      have hfound : m.found = none := Option.eq_none_iff_forall_not_mem.2 fun bytes hbytes => by
        obtain ⟨_, _, _, _, hsome, -⟩ := h.found bytes hbytes
        cases hstarted.symm.trans hsome
      have hsince : m.since w = w.past.length := by
        rw [Download.since, hstarted]
        rfl
      refine ⟨?_, ?_, ?_, ?_⟩
      · rintro _ _ ⟨⟩
        exact hsince.le
      · simp [hread]
      · simp [hrendered]
      · simp [hfound]

/-- What a call tells its download. -/
theorem Download.Knows.answers (hw : w'.Sound render) (hm : m.Knows render w) (hc : m.Allows c)
    (h : w.Answers render c w' r) : (m.observe c w' r).Knows render w' := by
  have hlater : m.Knows render w' := hm.later h.later fun noticeId _ _ _ => h.data noticeId
  cases c with
  | certificatePdfFindUnique id =>
      have hstart := hlater.start hc
      rcases r with e | _ | pdfBase64
      · exact hstart
      · exact hstart
      -- The copy that is found shows what is committed now.
      obtain ⟨⟨⟨hdb, hr⟩, -⟩, -⟩ | ⟨-, message, hr⟩ := h
      swap
      · cases hr
      obtain ⟨copy, hcopy, rfl⟩ := Option.map_eq_some_iff.1 (Except.ok.inj hr).symm
      obtain ⟨data, now, hshown, hbytes⟩ := hw id copy (hdb ▸ hcopy)
      refine ⟨hstart.started, hstart.read, hstart.rendered, ?_⟩
      rintro _ ⟨⟩
      refine ⟨id, _, data, now, rfl, ?_, hbytes⟩
      exact CertificateWorld.shown_of_committed (hstart.started id _ rfl) hshown
  | noticeFindUnique id =>
      rcases r with e | _ | ⟨notice, addendum⟩
      · exact hlater
      · exact hlater
      obtain ⟨⟨⟨hdb, hr⟩, -⟩, -⟩ | ⟨-, message, hr⟩ := h
      swap
      · cases hr
      obtain ⟨⟨k, hk⟩, hnone⟩ := hc
      refine ⟨hlater.started, ?_, ?_, hlater.found⟩
      · rintro _ ⟨⟩
        obtain ⟨row, hrow, hpair⟩ := Option.map_eq_some_iff.1 (Except.ok.inj hr).symm
        cases hpair
        exact ⟨id, k, hk, by rw [hdb, Db.certificateData?, hrow, Option.map_some]⟩
      · rintro data bytes hrendered
        cases hnone.symm.trans hrendered
  | renderCertificatePdf data =>
      rcases r with e | bytes
      · exact hlater
      obtain ⟨⟨-, now, hrendered⟩, -⟩ | ⟨-, message, hr⟩ := h
      swap
      · cases hr
      refine ⟨hlater.started, hlater.read, ?_, hlater.found⟩
      rintro _ _ ⟨⟩
      exact ⟨hc, now, hrendered.symm⟩
  | _ => exact hlater

end Step

/-! ## Any interleaving -/

section Run

variable {ι : Type}

/-- What holds of the pool. -/
structure DownloadPool.Inv (render : CertificateRenderer) (c : DownloadPool ι) : Prop where
  ends : Machine.AllEnd (Download.Follows render) Download.Allows Download.Returns c
  sound : c.world.Sound render
  knows : ∀ i thread, c.thread i = some thread → thread.mark.Knows render c.world

/-- What a download that has ended returns, its notice has had. -/
theorem DownloadPool.Inv.current {c : DownloadPool ι} (h : c.Inv render) : c.Current render := by
  intro i bytes m hthread
  have hknows := h.knows i _ hthread
  rcases h.ends i _ hthread bytes rfl with hfound | ⟨data, hrendered⟩
  · exact hknows.found bytes hfound
  · obtain ⟨hread, now, hbytes⟩ := hknows.rendered data bytes hrendered
    obtain ⟨noticeId, k, hk, hshown⟩ := hknows.read data hread
    exact ⟨noticeId, k, data, now, hk,
      CertificateWorld.shown_of_committed (hknows.started noticeId k hk) hshown, hbytes⟩

variable [DecidableEq ι]

theorem DownloadPool.Inv.step {c c' : DownloadPool ι} {l : Label readSig Failure ι}
    (h : c.Inv render) (hstep : (downloads render ι).Step c l c') (hspares : c.Spares l c') :
    c'.Inv render := by
  have hends : Machine.AllEnd (Download.Follows render) Download.Allows Download.Returns c' := by
    refine Machine.allEnd_step (𝓜 := downloads render ι) (fun m w c w' r h => ⟨w, w', h, rfl⟩) ?_
      h.ends hstep
    rintro _ _ ⟨noticeId, rfl⟩
    exact getOrCreateCertificatePdf_wp render noticeId
  cases hstep with
  | @act i o k m w r hthread hanswer =>
      have hm := h.knows i _ hthread
      have hc : m.Allows o := (h.ends i _ hthread).1
      have hw : w.Sound render := h.sound.answers hm hc hanswer
      refine ⟨hends, hw, fun j thread hj => ?_⟩
      rcases Machine.thread_of_update hj with ⟨-, hnew⟩ | ⟨-, hold⟩
      · cases hnew
        exact hm.answers hw hc hanswer
      · exact (h.knows j thread hold).later hanswer.later fun noticeId _ _ _ => hanswer.data noticeId
  | finish hthread _ =>
      refine ⟨hends, h.sound, fun j thread hj => ?_⟩
      rcases Machine.thread_of_update hj with ⟨-, hnew⟩ | ⟨-, hold⟩
      · cases hnew
      · exact h.knows j thread hold
  | crash hthread _ =>
      refine ⟨hends, h.sound, fun j thread hj => ?_⟩
      rcases Machine.thread_of_update hj with ⟨-, hnew⟩ | ⟨-, hold⟩
      · cases hnew
      · exact h.knows j thread hold
  | start hthread hentry =>
      refine ⟨hends, h.sound, fun j thread hj => ?_⟩
      rcases Machine.thread_of_update hj with ⟨-, hnew⟩ | ⟨-, hold⟩
      · cases hnew
        exact Download.knows_idle c.world
      · exact h.knows j thread hold
  | @environment w henv =>
      have hcommits : c.world.Commits w := henv
      refine ⟨hends, h.sound.commits hcommits fun noticeId hstored => ?_, fun j thread hj => ?_⟩
      · exact hspares noticeId (Or.inl hstored)
      · refine (h.knows j thread hj).later hcommits.later fun noticeId k hk hread => ?_
        exact hspares noticeId (Or.inr ⟨j, thread, k, hj, hk, hread⟩)

/-- In every run in which nothing that a certificate shows is written once a copy of it is
stored, or while one is being made, each certificate that is returned shows what its notice
has had during the download. -/
theorem certificates_current {db : Db}
    (hdb : ∀ noticeId, db.certificatePdfs.get? noticeId = none) {c : DownloadPool ι}
    (hc : Reaches (DownloadPool.QuietStep render) (DownloadPool.initial db) c) : c.Current render := by
  have hinitial : DownloadPool.Inv render (DownloadPool.initial db : DownloadPool ι) := by
    refine ⟨?_, fun noticeId copy hcopy => ?_, ?_⟩
    · intro i thread h
      cases h
    · cases (hdb noticeId).symm.trans hcopy
    · intro i thread h
      cases h
  have hinv : c.Inv render :=
    hc.invariant (fun _ _ _ h hstep => h.step hstep.1 hstep.2) hinitial
  exact hinv.current

end Run

section Example

/-! ### A notice that is downloaded, delivered, and downloaded again -/

/-- A step of a download itself is quiet. -/
theorem DownloadPool.QuietStep.of_act {ι : Type} [DecidableEq ι] {c c' : DownloadPool ι}
    {l : Label readSig Failure ι} (h : (downloads render ι).Step c l c') (hl : l ≠ .environment) :
    DownloadPool.QuietStep render c l c' := by
  refine ⟨h, fun noticeId _ => ?_⟩
  cases h with
  | act hthread hanswer => exact CertificateWorld.Answers.data hanswer noticeId
  | environment henv => exact absurd rfl hl
  | _ => rfl

/-- What the certificate prints of the transaction. -/
def plainBytes (data : CertificateData) : List UInt8 :=
  (data.txSignature.getD "Not yet confirmed on-chain").toList.map fun c => UInt8.ofNat c.toNat

def plainRenderer : CertificateRenderer := fun data _ => .ok (plainBytes data)

/-- The copy that is stored of it. -/
def plainCopy (data : CertificateData) : CertificatePdf :=
  ⟨"pdf-1", "sr-1", String.ofList (base64Encode (plainBytes data)), 0⟩

/-- One download alone stores the copy of a notice that has none. -/
theorem download_stores {db : Db} {past : List Db} {notice : ServiceRequest}
    (hnotice : db.request? "sr-1" = some notice) (hfree : db.certificatePdfs.get? "sr-1" = none) :
    let data := certificateData notice (db.certificateAddenda.get? "sr-1")
    Reaches (DownloadPool.QuietStep plainRenderer) (⟨⟨db, past⟩, fun _ => none⟩ : DownloadPool Unit)
      ⟨⟨{ db with certificatePdfs := db.certificatePdfs.insert (plainCopy data) hfree }, past⟩,
        fun _ => none⟩ := by
  intro data
  let w : CertificateWorld := ⟨db, past⟩
  let w' : CertificateWorld :=
    ⟨{ db with certificatePdfs := db.certificatePdfs.insert (plainCopy data) hfree }, past⟩
  have hfind : w.Answers plainRenderer (.certificatePdfFindUnique "sr-1") w (.ok none) :=
    Or.inl ⟨⟨⟨rfl, by rw [hfree]; rfl⟩, trivial⟩, rfl⟩
  have hread : w.Answers plainRenderer (.noticeFindUnique "sr-1") w
      (.ok (some (notice, db.certificateAddenda.get? "sr-1"))) :=
    Or.inl ⟨⟨⟨rfl, by rw [hnotice]; rfl⟩, trivial⟩, rfl⟩
  have hrender : w.Answers plainRenderer (.renderCertificatePdf data) w (.ok (plainBytes data)) :=
    Or.inl ⟨⟨rfl, 0, rfl⟩, rfl⟩
  have hcreate : w.Answers plainRenderer
      (.certificatePdfCreate "sr-1" (plainCopy data).pdfBase64) w' (.ok ()) :=
    Or.inl ⟨⟨Or.inl ⟨"pdf-1", 0, hfree, rfl, rfl⟩, trivial⟩, rfl⟩
  have hidle : ∀ f : Unit → Option (Thread readSig Failure (List UInt8) Download),
      Reaches (DownloadPool.QuietStep plainRenderer) ⟨w', Function.update f () none⟩
        ⟨w', fun _ => none⟩ := fun f => by
    rw [show Function.update f () none = fun _ => none from
      funext fun _ => Function.update_self _ _ _]
    exact Reaches.refl _ _
  exact .head (.of_act (.start (i := ()) rfl ⟨"sr-1", rfl⟩) nofun) <|
    .head (.of_act (.act (i := ()) rfl hfind) nofun) <|
    .head (.of_act (.act (i := ()) rfl hread) nofun) <|
    .head (.of_act (.act (i := ()) rfl hrender) nofun) <|
    .head (.of_act (.act (i := ()) rfl hcreate) nofun) <|
    .head (.of_act (.finish (i := ()) (r := .ok (plainBytes data)) rfl trivial) nofun) <| hidle _

/-- A notice that is not delivered. -/
def undelivered : Db where
  serviceRequests := Table.empty.insert (exampleFiling.row "sr-1" none 0) rfl

/-- The delivery of a notice. -/
def exampleDelivery : ServiceRequestUpdate :=
  { status := some .confirmed, txSignature := some "sig-1", slot := some 7,
    blockTime := some (some 5) }

/-- What its certificate shows before it, -/
def undeliveredData : CertificateData := certificateData (exampleFiling.row "sr-1" none 0) none

/-- and after it. -/
def deliveredData : CertificateData :=
  certificateData (exampleDelivery.apply (exampleFiling.row "sr-1" none 0)) none

/-- The database once it is delivered, -/
def delivered : Db := undelivered.updateRequest "sr-1" exampleDelivery

/-- once its certificate is stored, -/
def deliveredStored : Db :=
  { delivered with certificatePdfs := Table.empty.insert (plainCopy deliveredData) rfl }

/-- and once another notice is filed. -/
def deliveredBeside : Db :=
  deliveredStored.insertRequest (exampleFiling.row "sr-2" none 0) rfl

/-- A download after the delivery stores its copy, and one after the filing of another notice
finds it: it is current. -/
theorem certificates_current_of_stored :
    ∃ c : DownloadPool Unit,
      Reaches (DownloadPool.QuietStep plainRenderer) (DownloadPool.initial undelivered) c ∧
        (∃ m, c.thread () = some ⟨.done (.ok (plainBytes deliveredData)), m⟩) ∧
          c.Current plainRenderer := by
  have hdeliver : DownloadPool.QuietStep plainRenderer
      (DownloadPool.initial undelivered : DownloadPool Unit) .environment
      ⟨⟨delivered, [undelivered]⟩, fun _ => none⟩ := by
    refine ⟨.environment (.commit rfl), ?_⟩
    rintro noticeId (hstored | ⟨_, _, _, hthread, -⟩)
    · exact absurd rfl hstored
    · cases hthread
  have hfile : DownloadPool.QuietStep plainRenderer
      (⟨⟨deliveredStored, [undelivered]⟩, fun _ => none⟩ : DownloadPool Unit) .environment
      ⟨⟨deliveredBeside, [undelivered, deliveredStored]⟩, fun _ => none⟩ := by
    refine ⟨.environment (.commit rfl), ?_⟩
    rintro noticeId (hstored | ⟨_, _, _, hthread, -⟩)
    · have hne : noticeId ≠ "sr-2" := by
        rintro rfl
        exact absurd rfl hstored
      have hsame : deliveredBeside.request? noticeId = deliveredStored.request? noticeId :=
        (deliveredStored.request?_insertRequest (exampleFiling.row "sr-2" none 0) rfl noticeId).trans
          (if_neg hne)
      exact congrArg (Option.map fun notice => certificateData notice none) hsame
    · cases hthread
  have hfind : CertificateWorld.Answers plainRenderer
      ⟨deliveredBeside, [undelivered, deliveredStored]⟩ (.certificatePdfFindUnique "sr-1")
      ⟨deliveredBeside, [undelivered, deliveredStored]⟩
      (.ok (some (plainCopy deliveredData).pdfBase64)) :=
    Or.inl ⟨⟨⟨rfl, rfl⟩, trivial⟩, rfl⟩
  have hrun := (Reaches.head hdeliver (download_stores rfl rfl)).trans <| .head hfile <|
    .head (.of_act (.start (i := ()) rfl ⟨"sr-1", rfl⟩) nofun) <|
    .head (.of_act (.act (i := ()) rfl hfind) nofun) <| .refl _ _
  have hbytes : base64Decode (plainCopy deliveredData).pdfBase64 = plainBytes deliveredData :=
    base64Decode_base64Encode _
  let m : Download :=
    { started := some ("sr-1", 2), found := some (base64Decode (plainCopy deliveredData).pdfBase64) }
  refine ⟨_, hrun, ⟨m, ?_⟩, certificates_current (fun _ => rfl) hrun⟩
  rw [← hbytes]
  rfl

/-- The second download comes after the delivery, and shows none. -/
theorem not_current_of_delivery :
    ¬ ∀ c : DownloadPool Unit,
      Reaches (downloads plainRenderer Unit).Step (DownloadPool.initial undelivered) c →
        c.Current plainRenderer := by
  intro h
  let stored : Db :=
    { undelivered with certificatePdfs := Table.empty.insert (plainCopy undeliveredData) rfl }
  let late : Db := stored.updateRequest "sr-1" exampleDelivery
  have hfind : CertificateWorld.Answers plainRenderer ⟨late, [stored]⟩
      (.certificatePdfFindUnique "sr-1") ⟨late, [stored]⟩
      (.ok (some (plainCopy undeliveredData).pdfBase64)) :=
    Or.inl ⟨⟨⟨rfl, rfl⟩, trivial⟩, rfl⟩
  have hstored : Reaches (downloads plainRenderer Unit).Step (DownloadPool.initial undelivered)
      ⟨⟨stored, []⟩, fun _ => none⟩ := (download_stores rfl rfl).mono fun _ _ _ h => h.1
  have hdeliver : CertificateWorld.Commits ⟨stored, []⟩ ⟨late, [stored]⟩ := .commit rfl
  have hrun := hstored.trans <| .head (.environment hdeliver) <|
    .head (.start (i := ()) rfl ⟨"sr-1", rfl⟩) <| .head (.act (i := ()) rfl hfind) <| .refl _ _
  obtain ⟨noticeId, k, data, now, hstarted, ⟨db, hdb, hdata⟩, hbytes⟩ := h _ hrun () _ _ rfl
  cases hstarted
  obtain rfl : db = late := List.mem_singleton.1 hdb
  have hdelivered : data = deliveredData := (Option.some.inj hdata).symm
  have hsame : plainBytes data = plainBytes undeliveredData :=
    (Except.ok.inj hbytes).trans (base64Decode_base64Encode _)
  rw [hdelivered] at hsame
  revert hsame
  decide

end Example

end EpsDapp
