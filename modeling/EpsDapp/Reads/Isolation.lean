import EpsDapp.Reads.Routes
import EpsDapp.Server.Calls

/-!
# Isolation of the authenticated reads

A caller owns a request when they filed it, or when it belongs to their active
organization. Two databases that agree on what the caller owns answer every read
alike if each of its lookups is scoped to the caller: the simulation between the
two runs is `Program.Only.simulates`. Three reads scope theirs. The certificate
route checks the session and then looks the notice up by its id alone, so it is
isolated exactly for the callers it turns away and for the notices they own.
-/

set_option autoImplicit false

namespace EpsDapp

open Effect ReadProgram

/-- The caller owns the request. -/
def Db.OwnedBy (db : Db) (session : Session) (r : ServiceRequest) : Prop :=
  (∃ userId, truthy session.userId = some userId ∧ r.userId = some userId) ∨
    ∃ orgId, truthy session.orgId = some orgId ∧ db.clerkOrgOf r = some orgId

/-- `r` is the request `id`, and the caller owns it. -/
def Db.Owned (db : Db) (session : Session) (id : String) (r : ServiceRequest) : Prop :=
  db.request? id = some r ∧ db.OwnedBy session r

/-- What is attached to the request `r` is the same in both databases. -/
structure Db.SameAttached (db db' : Db) (r : ServiceRequest) : Prop where
  organization : r.orgId.bind db'.organizations.get? = r.orgId.bind db.organizations.get?
  access : db'.noticeAccesses.get? r.id = db.noticeAccesses.get? r.id
  addendum : db'.certificateAddenda.get? r.id = db.certificateAddenda.get? r.id
  certificatePdf : db'.certificatePdfs.get? r.id = db.certificatePdfs.get? r.id

/-- The databases agree on all requests the caller owns, and on everything that is
attached to them. -/
structure Db.AgreeFor (session : Session) (db db' : Db) : Prop where
  owned : ∀ id r, db'.Owned session id r ↔ db.Owned session id r
  attached : ∀ id r, db.Owned session id r → db.SameAttached db' r

/-- The program has the same responses in both databases. -/
def SameResponses (render : CertificateRenderer) {α : Type} (p : ReadProgram α) (db db' : Db) :
    Prop :=
  ∀ r, (∃ db₁, p.Runs (renderedAnswers render) db db₁ r) ↔
    ∃ db₁, p.Runs (renderedAnswers render) db' db₁ r

/-- The reads of `id` by a caller show nothing of the database but what the caller
owns. `ip` and `client` are the keys of the rate limiters. -/
def Isolated (render : CertificateRenderer) (ip client : String) (params : DashboardParams)
    (session : Session) (id : String) (db : Db) : Prop :=
  ∀ db', db.AgreeFor session db' →
    SameResponses render (getServiceRequest client id session) db db' ∧
    SameResponses render (getCertificate ip id session) db db' ∧
    SameResponses render (dashboardPage params session) db db' ∧
    SameResponses render (serviceDetailPage id session) db db'

section Scope

variable {session : Session} {db db' : Db}

theorem Db.SameAttached.symm {r : ServiceRequest} (h : db.SameAttached db' r) :
    db'.SameAttached db r :=
  ⟨h.organization.symm, h.access.symm, h.addendum.symm, h.certificatePdf.symm⟩

theorem Db.AgreeFor.symm (h : db.AgreeFor session db') : db'.AgreeFor session db :=
  ⟨fun id r => (h.owned id r).symm, fun id r hr => (h.attached id r ((h.owned id r).1 hr)).symm⟩

theorem Db.SameAttached.clerkOrgOf {r : ServiceRequest} (h : db.SameAttached db' r) :
    db'.clerkOrgOf r = db.clerkOrgOf r := by
  rw [Db.clerkOrgOf, h.organization, Db.clerkOrgOf]

theorem Db.SameAttached.view {r : ServiceRequest} (h : db.SameAttached db' r) :
    db'.view r = db.view r := by
  rw [Db.view, h.access, h.certificatePdf, Db.view]

/-- A lookup of `id` among the rows of the caller finds the same in both
databases. -/
theorem Db.AgreeFor.lookup_eq (h : db.AgreeFor session db') {p p' : ServiceRequest → Bool}
    (id : String) (hp : ∀ r, p r → db.OwnedBy session r)
    (hp' : ∀ r, p' r → db'.OwnedBy session r)
    (heq : ∀ r, db.Owned session id r → p' r = p r) :
    ((db'.request? id).filter p').map db'.view = ((db.request? id).filter p).map db.view := by
  refine Option.ext fun v => ?_
  simp only [Option.map_eq_some_iff, Option.filter_eq_some_iff]
  constructor
  · rintro ⟨r, ⟨hrow, hr⟩, rfl⟩
    have howned : db.Owned session id r := (h.owned id r).1 ⟨hrow, hp' r hr⟩
    exact ⟨r, ⟨howned.1, by rwa [← heq r howned]⟩, (h.attached id r howned).view.symm⟩
  · rintro ⟨r, ⟨hrow, hr⟩, rfl⟩
    have howned : db.Owned session id r := ⟨hrow, hp r hr⟩
    exact ⟨r, ⟨((h.owned id r).2 howned).1, by rwa [heq r howned]⟩, (h.attached id r howned).view⟩

end Scope

/-- The calls that are scoped to the caller. -/
def ReadCall.Scoped (session : Session) : ReadCall → Prop
  | rateLimit _ | renderCertificatePdf _ => True
  | serviceFindFirstOfOrg _ clerkOrgId => truthy session.orgId = some clerkOrgId
  | serviceFindFirstOfUser _ userId => truthy session.userId = some userId
  | serviceFindManyOfUser userId => truthy session.userId = some userId
  | _ => False

/-- The calls about the notice `id`. -/
def ReadCall.OnNotice (id : String) : ReadCall → Prop
  | rateLimit _ | renderCertificatePdf _ => True
  | certificatePdfFindUnique noticeId => noticeId = id
  | certificatePdfCreate noticeId _ => noticeId = id
  | noticeFindUnique noticeId => noticeId = id
  | _ => False

section Simulation

variable {render : CertificateRenderer} {session : Session} {db db' db₁ : Db}

/-- A scoped call is answered alike by databases that agree for the caller. -/
theorem Db.AgreeFor.scoped {c : ReadCall} {r : Except Failure c.Resp}
    (h : db.AgreeFor session db') (hc : c.Scoped session) (hr : readAnswers db c db₁ r) :
    ∃ db₁', readAnswers db' c db₁' r ∧ db₁.AgreeFor session db₁' := by
  cases c with
  | rateLimit key =>
      obtain ⟨rfl, hr⟩ := hr
      exact ⟨db', ⟨rfl, hr⟩, h⟩
  | renderCertificatePdf data =>
      obtain rfl : db₁ = db := hr
      exact ⟨db', rfl, h⟩
  | serviceFindFirstOfOrg id clerkOrgId =>
      obtain ⟨rfl, rfl⟩ := hr
      refine ⟨db', ⟨rfl, congrArg _ ?_⟩, h⟩
      refine (h.lookup_eq id (fun r hr => ?_) (fun r hr => ?_) fun r hr => ?_).symm
      · exact Or.inr ⟨clerkOrgId, hc, by simpa using hr⟩
      · exact Or.inr ⟨clerkOrgId, hc, by simpa using hr⟩
      · rw [(h.attached id r hr).clerkOrgOf]
  | serviceFindFirstOfUser id userId =>
      obtain ⟨rfl, rfl⟩ := hr
      refine ⟨db', ⟨rfl, congrArg _ ?_⟩, h⟩
      refine (h.lookup_eq id (fun r hr => ?_) (fun r hr => ?_) fun r hr => rfl).symm
      · exact Or.inl ⟨userId, hc, by simpa using hr⟩
      · exact Or.inl ⟨userId, hc, by simpa using hr⟩
  | serviceFindManyOfUser userId =>
      obtain ⟨rfl, rows, ⟨hperm, hsorted⟩, rfl⟩ := hr
      have hmine : ∀ {db : Db} {r : ServiceRequest},
          r ∈ db.serviceRequests.rows.filter (fun row => row.userId == some userId) ↔
            r.userId = some userId ∧ db.Owned session r.id r := by
        intro db r
        rw [List.mem_filter, beq_iff_eq, and_comm]
        refine and_congr_right fun huser => ?_
        constructor
        · exact fun hmem => ⟨(db.request?_eq_some_iff _ _).2 ⟨hmem, rfl⟩, Or.inl ⟨_, hc, huser⟩⟩
        · exact fun howned => ((db.request?_eq_some_iff _ _).1 howned.1).1
      refine ⟨db', ⟨rfl, rows, ⟨hperm.trans ?_, hsorted⟩, congrArg _ ?_⟩, h⟩
      · refine (List.perm_ext_iff_of_nodup ?_ ?_).2 fun r => ?_
        · exact db₁.serviceRequests.nodup.of_map.filter _
        · exact db'.serviceRequests.nodup.of_map.filter _
        · rw [hmine, hmine, h.owned]
      · refine List.map_congr_left fun r hr => ?_
        exact (h.attached _ _ (hmine.1 (hperm.mem_iff.1 hr)).2).view.symm
  | _ => exact hc.elim

/-- Storing one certificate keeps the agreement, if the caller owns the notice. -/
theorem Db.AgreeFor.insertCertificate (h : db.AgreeFor session db') (c : CertificatePdf)
    (hc : db.certificatePdfs.get? c.noticeId = none)
    (hc' : db'.certificatePdfs.get? c.noticeId = none) :
    Db.AgreeFor session { db with certificatePdfs := db.certificatePdfs.insert c hc }
      { db' with certificatePdfs := db'.certificatePdfs.insert c hc' } where
  owned := h.owned
  attached := fun id r hr => by
    have hattached := h.attached id r hr
    refine ⟨hattached.organization, hattached.access, hattached.addendum, ?_⟩
    rw [Table.get?_insert, Table.get?_insert, hattached.certificatePdf]

/-- A call about a notice that the caller owns is answered alike by databases that
agree for the caller. -/
theorem Db.AgreeFor.onNotice {id : String} {row : ServiceRequest} {c : ReadCall}
    {r : Except Failure c.Resp} (h : db.AgreeFor session db') (howned : db.Owned session id row)
    (hc : c.OnNotice id) (hr : readAnswers db c db₁ r) :
    ∃ db₁', readAnswers db' c db₁' r ∧ db₁.AgreeFor session db₁' ∧
      db₁.Owned session id row := by
  have hattached := h.attached id row howned
  obtain rfl := db.request?_id howned.1
  cases c with
  | rateLimit key =>
      obtain ⟨rfl, hr⟩ := hr
      exact ⟨db', ⟨rfl, hr⟩, h, howned⟩
  | renderCertificatePdf data =>
      obtain rfl : db₁ = db := hr
      exact ⟨db', rfl, h, howned⟩
  | certificatePdfFindUnique noticeId =>
      obtain rfl : noticeId = row.id := hc
      obtain ⟨rfl, rfl⟩ := hr
      exact ⟨db', ⟨rfl, by rw [hattached.certificatePdf]⟩, h, howned⟩
  | certificatePdfCreate noticeId pdfBase64 =>
      obtain rfl : noticeId = row.id := hc
      rcases hr with ⟨i, now, hfree, rfl, rfl⟩ | ⟨rfl, hsome, rfl⟩
      · have hfree' : db'.certificatePdfs.get? row.id = none :=
          hattached.certificatePdf.trans hfree
        exact ⟨_, Or.inl ⟨i, now, hfree', rfl, rfl⟩, h.insertCertificate _ hfree hfree', howned⟩
      · refine ⟨db', Or.inr ⟨rfl, ?_, rfl⟩, h, howned⟩
        rw [hattached.certificatePdf]
        exact hsome
  | noticeFindUnique noticeId =>
      obtain rfl : noticeId = row.id := hc
      obtain ⟨rfl, rfl⟩ := hr
      refine ⟨db', ⟨rfl, ?_⟩, h, howned⟩
      rw [howned.1, ((h.owned _ _).2 howned).1, Option.map_some, Option.map_some,
        hattached.addendum]
  | _ => exact hc.elim

theorem sameResponses_of_scoped {α : Type} {p : ReadProgram α}
    (hp : p.Only (ReadCall.Scoped session)) (h : db.AgreeFor session db') :
    SameResponses render p db db' := by
  have hone : ∀ {db db' : Db} {r}, db.AgreeFor session db' →
      (∃ db₁, p.Runs (renderedAnswers render) db db₁ r) →
        ∃ db₁, p.Runs (renderedAnswers render) db' db₁ r := by
    rintro db db' r h ⟨db₁, hrun⟩
    obtain ⟨db₁', hrun', _⟩ := hp.simulates (R := Db.AgreeFor session)
      (F := renderedAnswers render) (fun _ _ _ _ _ hc h hr => by
        obtain ⟨db₂, hanswer, hagree⟩ := h.scoped hc hr.1
        exact ⟨db₂, ⟨hanswer, hr.2⟩, hagree⟩) h hrun
    exact ⟨db₁', hrun'⟩
  exact fun r => ⟨hone h, hone h.symm⟩

theorem sameResponses_of_owned {α : Type} {p : ReadProgram α} {id : String}
    {row : ServiceRequest} (hp : p.Only (ReadCall.OnNotice id)) (howned : db.Owned session id row)
    (h : db.AgreeFor session db') : SameResponses render p db db' := by
  have hone : ∀ {db db' : Db} {r}, db.AgreeFor session db' → db.Owned session id row →
      (∃ db₁, p.Runs (renderedAnswers render) db db₁ r) →
        ∃ db₁, p.Runs (renderedAnswers render) db' db₁ r := by
    rintro db db' r h howned ⟨db₁, hrun⟩
    obtain ⟨db₁', hrun', _⟩ := hp.simulates (F := renderedAnswers render)
      (R := fun db db' => db.AgreeFor session db' ∧ db.Owned session id row)
      (fun _ _ _ _ _ hc h hr => by
        obtain ⟨db₂, hanswer, hagree⟩ := h.1.onNotice h.2 hc hr.1
        exact ⟨db₂, ⟨hanswer, hr.2⟩, hagree⟩) ⟨h, howned⟩ hrun
    exact ⟨db₁', hrun'⟩
  exact fun r => ⟨hone h howned, hone h.symm ((h.owned _ _).2 howned)⟩

end Simulation

/-! ## What each read calls -/

section Calls

variable {session : Session}

theorem requireAuth_ok {auth : AuthContext} (h : requireAuth session = .ok auth) :
    truthy session.orgId = some auth.orgId := by
  rw [requireAuth] at h
  cases huser : truthy session.userId with
  | none =>
      rw [huser] at h
      cases h
  | some userId =>
      cases horg : truthy session.orgId with
      | none =>
          rw [huser, horg] at h
          cases h
      | some orgId =>
          rw [huser, horg] at h
          cases h
          rfl

theorem getServiceRequest_scoped (client id : String) (session : Session) :
    (getServiceRequest client id session).Only (ReadCall.Scoped session) := by
  refine Program.only_bind ((Program.only_perform _).2 trivial) fun refused => ?_
  cases refused with
  | some retryAfter => exact Program.only_pure _
  | none =>
      dsimp only
      split
      · exact Program.only_pure _
      · exact Program.only_throw _
      · rename_i auth hauth
        refine Program.only_bind ((Program.only_perform _).2 (requireAuth_ok hauth)) fun found => ?_
        cases found with
        | none => exact Program.only_pure _
        | some service => exact Program.only_pure _

theorem dashboardPage_scoped (params : DashboardParams) (session : Session) :
    (dashboardPage params session).Only (ReadCall.Scoped session) := by
  rw [dashboardPage]
  split
  · exact Program.only_pure _
  · rename_i userId huser
    exact Program.only_bind ((Program.only_perform _).2 huser) fun _ => Program.only_pure _

theorem serviceDetailPage_scoped (id : String) (session : Session) :
    (serviceDetailPage id session).Only (ReadCall.Scoped session) := by
  rw [serviceDetailPage]
  split
  · exact Program.only_pure _
  · rename_i userId huser
    refine Program.only_bind ((Program.only_perform _).2 huser) fun found => ?_
    cases found with
    | none => exact Program.only_pure _
    | some service => exact Program.only_pure _

theorem getOrCreateCertificatePdf_only (id : String) :
    (getOrCreateCertificatePdf id).Only (ReadCall.OnNotice id) := by
  refine Program.only_bind ((Program.only_perform _).2 rfl) fun stored => ?_
  cases stored with
  | some pdfBase64 => exact Program.only_pure _
  | none =>
      refine Program.only_bind ?_ fun bytes => Program.only_bind ?_ fun row => ?_
      · refine Program.only_bind ((Program.only_perform _).2 rfl) fun found => ?_
        cases found with
        | none => exact Program.only_throw _
        | some found => exact (Program.only_perform _).2 trivial
      · refine Program.only_tryCatch ?_ fun _ => (Program.only_perform _).2 rfl
        exact Program.only_bind ((Program.only_perform _).2 rfl) fun _ => Program.only_pure _
      · cases row with
        | none => exact Program.only_pure _
        | some pdfBase64 => exact Program.only_pure _

theorem getCertificate_only (ip id : String) (session : Session) :
    (getCertificate ip id session).Only (ReadCall.OnNotice id) := by
  refine Program.only_bind ((Program.only_perform _).2 trivial) fun refused => ?_
  cases refused with
  | some retryAfter => exact Program.only_pure _
  | none =>
      dsimp only
      split
      · exact Program.only_pure _
      · exact Program.only_throw _
      · exact Program.only_tryCatch (Program.only_map _ (getOrCreateCertificatePdf_only id))
          fun _ => Program.only_pure _

/-- A caller who is turned away has the certificate route look nothing up. -/
theorem getCertificate_scoped (ip id : String) (h : ∀ auth, requireAuth session ≠ .ok auth) :
    (getCertificate ip id session).Only (ReadCall.Scoped session) := by
  refine Program.only_bind ((Program.only_perform _).2 trivial) fun refused => ?_
  cases refused with
  | some retryAfter => exact Program.only_pure _
  | none =>
      dsimp only
      split
      · exact Program.only_pure _
      · exact Program.only_throw _
      · rename_i auth hauth
        exact absurd hauth (h auth)

end Calls

/-! ## A certificate of somebody else -/

/-- A request that no caller owns. -/
def foreignRequest (id : String) : ServiceRequest := exampleFiling.row id none 0

/-- The database with the request `id`: one that no caller owns, if there was
none. -/
def Db.withRequest (db : Db) (id : String) : Db :=
  if h : db.request? (foreignRequest id).id = none then
    db.insertRequest (foreignRequest id) h
  else db

/-- The database with the certificate `pdfBase64` for the notice `id`. -/
def Db.withCertificate (db : Db) (id pdfBase64 : String) : Db :=
  { db.withRequest id with
    certificatePdfs :=
      if h : db.certificatePdfs.get? id = none then
        db.certificatePdfs.insert ⟨"pdf-1", id, pdfBase64, 0⟩ h
      else db.certificatePdfs.modify id (fun c => { c with pdfBase64 := pdfBase64 }) fun _ => rfl }

section Foreign

variable {render : CertificateRenderer} {session : Session} {db : Db} {id pdfBase64 : String}

theorem Db.withCertificate_stores (db : Db) (id pdfBase64 : String) :
    ((db.withCertificate id pdfBase64).certificatePdfs.get? id).map CertificatePdf.pdfBase64 =
      some pdfBase64 := by
  rw [withCertificate]
  split
  · rw [Table.get?_insert, if_pos rfl, Option.map_some]
  · rename_i hstored
    obtain ⟨c, hc⟩ := Option.ne_none_iff_exists'.1 hstored
    rw [Table.get?_modify_self, hc, Option.map_some, Option.map_some]

theorem Db.request?_withCertificate (db : Db) (id pdfBase64 j : String) :
    (db.withCertificate id pdfBase64).request? j = db.request? j ∨
      db.request? j = none ∧
        (db.withCertificate id pdfBase64).request? j = some (foreignRequest id) := by
  have hrequests : (db.withCertificate id pdfBase64).request? j = (db.withRequest id).request? j :=
    rfl
  rw [hrequests, withRequest]
  split
  · rename_i hfree
    rw [request?_insertRequest]
    split
    · rename_i hj
      obtain rfl : j = id := hj
      exact Or.inr ⟨hfree, rfl⟩
    · exact Or.inl rfl
  · exact Or.inl rfl

theorem Db.organizations_withCertificate (db : Db) (id pdfBase64 : String) :
    (db.withCertificate id pdfBase64).organizations = db.organizations := by
  have horg : (db.withCertificate id pdfBase64).organizations = (db.withRequest id).organizations :=
    rfl
  rw [horg, withRequest]
  split
  · rfl
  · rfl

theorem Db.noticeAccesses_withCertificate (db : Db) (id pdfBase64 : String) :
    (db.withCertificate id pdfBase64).noticeAccesses = db.noticeAccesses ∧
      (db.withCertificate id pdfBase64).certificateAddenda = db.certificateAddenda := by
  have h : (db.withCertificate id pdfBase64).noticeAccesses = (db.withRequest id).noticeAccesses ∧
      (db.withCertificate id pdfBase64).certificateAddenda =
        (db.withRequest id).certificateAddenda :=
    ⟨rfl, rfl⟩
  rw [h.1, h.2, withRequest]
  split
  · exact ⟨rfl, rfl⟩
  · exact ⟨rfl, rfl⟩

/-- A caller who does not own the notice cannot tell whether it has a
certificate. -/
theorem Db.agreeFor_withCertificate (hforeign : ∀ r, ¬ db.Owned session id r)
    (pdfBase64 : String) : db.AgreeFor session (db.withCertificate id pdfBase64) := by
  have hclerk : ∀ r, (db.withCertificate id pdfBase64).clerkOrgOf r = db.clerkOrgOf r := by
    intro r
    rw [clerkOrgOf, organizations_withCertificate, clerkOrgOf]
  have howned : ∀ r, (db.withCertificate id pdfBase64).OwnedBy session r ↔
      db.OwnedBy session r := by
    intro r
    rw [OwnedBy, hclerk, OwnedBy]
  constructor
  · intro j r
    rw [Owned, Owned, howned]
    rcases db.request?_withCertificate id pdfBase64 j with hsame | ⟨hfree, hnew⟩
    · rw [hsame]
    · rw [hfree, hnew]
      refine iff_of_false ?_ (fun h => nomatch h.1)
      rintro ⟨h, huser | horg⟩
      · obtain ⟨userId, _, h'⟩ := huser
        cases h
        cases h'
      · obtain ⟨orgId, _, h'⟩ := horg
        cases h
        cases h'
  · intro j r hr
    obtain ⟨haccess, haddendum⟩ := db.noticeAccesses_withCertificate id pdfBase64
    have hne : r.id ≠ id := by
      rintro rfl
      exact hforeign r ⟨by rw [db.request?_id hr.1]; exact hr.1, hr.2⟩
    refine ⟨by rw [organizations_withCertificate], by rw [haccess], by rw [haddendum], ?_⟩
    rw [withCertificate]
    split
    · rw [Table.get?_insert, if_neg hne]
    · rw [Table.get?_modify_of_ne _ _ _ hne]

/-- A caller who is let in may be answered the stored certificate, and no other
one. -/
theorem getCertificate_stored (ip : String) {auth : AuthContext}
    (hauth : requireAuth session = .ok auth)
    (hstored : (db.certificatePdfs.get? id).map CertificatePdf.pdfBase64 = some pdfBase64)
    (bytes : List UInt8) :
    (∃ db₁, (getCertificate ip id session).Runs (renderedAnswers render) db db₁ (.ok (.ok bytes))) ↔
      bytes = base64Decode pdfBase64 := by
  obtain ⟨c, hc, hpdf⟩ := Option.map_eq_some_iff.1 hstored
  have hfound : ∀ {db₁ r}, renderedAnswers render db (.certificatePdfFindUnique id) db₁ r ↔
      db₁ = db ∧ r = .ok (some pdfBase64) := by
    intro db₁ r
    refine (and_iff_left trivial).trans ?_
    show _ ∧ r = .ok ((db.certificatePdfs.get? id).map CertificatePdf.pdfBase64) ↔ _
    rw [hc, Option.map_some, hpdf]
  constructor
  · rintro ⟨db₁, hrun⟩
    have hwp : (getCertificate ip id session).wp (renderedAnswers render) (fun _ _ => True)
        (fun r _ => ∀ bytes, r = .ok (.ok bytes) → bytes = base64Decode pdfBase64) db := by
      refine (Program.wp_bind _ _ _ _).2 ((Program.wp_perform _ _ _).2 ⟨trivial, ?_⟩)
      rintro db₂ r ⟨⟨rfl, refused, rfl⟩, -⟩
      cases refused with
      | some retryAfter => exact nofun
      | none =>
          simp only [hauth]
          refine (Program.wp_tryCatch _ _ _ _).2 ((Program.wp_map _ _ _ _).2 ?_)
          refine (Program.wp_bind _ _ _ _).2 ((Program.wp_perform _ _ _).2 ⟨trivial, ?_⟩)
          intro db₃ r hr
          obtain ⟨rfl, rfl⟩ := hfound.1 hr
          rintro bytes ⟨⟩
          rfl
    exact Program.wp_runs _ hwp hrun bytes rfl
  · rintro rfl
    refine ⟨db, ?_⟩
    refine (Program.runs_bind _ _ _ _ _).2 (Or.inl ⟨none, db, ?_, ?_⟩)
    · exact (Program.runs_perform _ _ _ _).2 ⟨⟨rfl, none, rfl⟩, trivial⟩
    · simp only [hauth]
      refine (Program.runs_tryCatch _ _ _ _ _).2 (Or.inl ⟨_, ?_, rfl⟩)
      refine (Program.runs_bind _ _ _ _ _).2 (Or.inl ⟨_, db, ?_, rfl, rfl⟩)
      refine (Program.runs_bind _ _ _ _ _).2 (Or.inl ⟨some pdfBase64, db, ?_, rfl, rfl⟩)
      exact (Program.runs_perform _ _ _ _).2 (hfound.2 ⟨rfl, rfl⟩)

theorem owned_of_isolated {ip client : String} {params : DashboardParams} {auth : AuthContext}
    (hauth : requireAuth session = .ok auth)
    (h : Isolated render ip client params session id db) : ∃ r, db.Owned session id r := by
  by_contra hforeign
  have hforeign : ∀ r, ¬ db.Owned session id r := fun r hr => hforeign ⟨r, hr⟩
  -- Two databases that differ in somebody else's certificate only.
  have hstored : ∀ pdfBase64 bytes,
      (∃ db₁, (getCertificate ip id session).Runs (renderedAnswers render) db db₁ (.ok (.ok bytes))) ↔
        bytes = base64Decode pdfBase64 := by
    intro pdfBase64 bytes
    obtain ⟨_, hcertificate, _⟩ := h _ (Db.agreeFor_withCertificate hforeign pdfBase64)
    exact (hcertificate _).trans
      (getCertificate_stored ip hauth (db.withCertificate_stores id pdfBase64) bytes)
  have hsame : base64Decode "" = base64Decode "AAAA" :=
    (hstored "AAAA" _).1 ((hstored "" _).2 rfl)
  revert hsame
  decide

/-- The reads of a notice are isolated exactly for the callers that the certificate
route turns away and for the notices that the caller owns. -/
theorem isolated_iff (render : CertificateRenderer) (ip client : String) (params : DashboardParams) (session : Session)
    (id : String) (db : Db) :
    Isolated render ip client params session id db ↔
      (∀ auth, requireAuth session ≠ .ok auth) ∨ ∃ r, db.Owned session id r := by
  constructor
  · intro h
    by_cases hauth : ∃ auth, requireAuth session = .ok auth
    · obtain ⟨auth, hauth⟩ := hauth
      exact Or.inr (owned_of_isolated hauth h)
    · exact Or.inl fun auth h => hauth ⟨auth, h⟩
  · intro h db' hagree
    refine ⟨sameResponses_of_scoped (getServiceRequest_scoped client id session) hagree, ?_,
      sameResponses_of_scoped (dashboardPage_scoped params session) hagree,
      sameResponses_of_scoped (serviceDetailPage_scoped id session) hagree⟩
    rcases h with hauth | ⟨r, hr⟩
    · exact sameResponses_of_scoped (getCertificate_scoped ip id hauth) hagree
    · exact sameResponses_of_owned (getCertificate_only ip id session) hr hagree

end Foreign

/-- A request of the organization `clerk-1`, with its certificate not yet made. -/
def tenantDb : Db where
  organizations := Table.empty.insert ⟨"org-1", "clerk-1", "A", none, 0⟩ (Table.get?_empty "org-1")
  serviceRequests := Table.empty.insert (exampleFiling.row "sr-1" (some "org-1") 0) rfl

/-- The certificate of a request is open to the members of any other organization. -/
theorem not_isolated_of_other_tenant :
    ¬ ∀ render, Isolated render "203.0.113.7" "203.0.113.7" {}
      ⟨some "user-2", some "clerk-2", false⟩ "sr-1" tenantDb := by
  intro h
  obtain ⟨r, hrow, howned⟩ := owned_of_isolated rfl (h fun _ _ => .ok [])
  obtain rfl := Option.some.inj hrow
  rcases howned with ⟨_, _, huser⟩ | ⟨_, horg, hclerk⟩
  · cases huser
  · cases horg
    revert hclerk
    decide

end EpsDapp
