import EpsDapp.Effect.Rely
import EpsDapp.Reads.Certificates

/-!
# One certificate for a notice

Two first downloads of a certificate may both find no copy, and both render one, with
another time in its footer. The unique constraint lets one of them store its copy, and
the other throws away what it has rendered and returns the copy it finds. So a download
returns what is stored, at the moment it returns and from then on.
-/

set_option autoImplicit false

namespace EpsDapp

open Effect

namespace Db

/-- The bytes are stored as the certificate of the notice. -/
def Stores (db : Db) (noticeId : String) (bytes : List UInt8) : Prop :=
  ∃ copy, db.certificatePdfs.get? noticeId = some copy ∧
    copy.pdfBase64 = String.ofList (base64Encode bytes)

/-- Every stored copy is the base64 of some bytes. -/
def CertificatesEncoded (db : Db) : Prop :=
  ∀ noticeId copy, db.certificatePdfs.get? noticeId = some copy → ∃ bytes,
    copy.pdfBase64 = String.ofList (base64Encode bytes)

/-- What is stored stays, and what is stored beside it is encoded. -/
structure KeepsCertificates (db db' : Db) : Prop where
  stored : ∀ noticeId copy, db.certificatePdfs.get? noticeId = some copy →
    db'.certificatePdfs.get? noticeId = some copy
  encoded : db.CertificatesEncoded → db'.CertificatesEncoded

theorem Stores.unique {db : Db} {noticeId : String} {bytes bytes' : List UInt8}
    (h : db.Stores noticeId bytes) (h' : db.Stores noticeId bytes') : bytes = bytes' := by
  obtain ⟨copy, hcopy, hbytes⟩ := h
  obtain ⟨copy', hcopy', hbytes'⟩ := h'
  obtain rfl := Option.some.inj (hcopy.symm.trans hcopy')
  rw [← base64Decode_base64Encode bytes, ← hbytes, hbytes', base64Decode_base64Encode]

theorem Stores.kept {db db' : Db} {noticeId : String} {bytes : List UInt8}
    (h : db.Stores noticeId bytes) (hkeeps : db.KeepsCertificates db') :
    db'.Stores noticeId bytes := by
  obtain ⟨copy, hcopy, hbytes⟩ := h
  exact ⟨copy, hkeeps.stored _ _ hcopy, hbytes⟩

/-- What is decoded from a stored copy is stored. -/
theorem stores_of_get? {db : Db} (hdb : db.CertificatesEncoded) {noticeId : String}
    {copy : CertificatePdf} (h : db.certificatePdfs.get? noticeId = some copy) :
    db.Stores noticeId (base64Decode copy.pdfBase64) := by
  obtain ⟨bytes, hbytes⟩ := hdb noticeId copy h
  refine ⟨copy, h, ?_⟩
  rw [hbytes, base64Decode_base64Encode]

namespace KeepsCertificates

theorem of_eq {db db' : Db} (h : db'.certificatePdfs = db.certificatePdfs) :
    db.KeepsCertificates db' where
  stored _ _ hcopy := h ▸ hcopy
  encoded hdb _ _ hcopy := hdb _ _ (h ▸ hcopy)

theorem trans {db₁ db₂ db₃ : Db} (h : db₁.KeepsCertificates db₂)
    (h' : db₂.KeepsCertificates db₃) : db₁.KeepsCertificates db₃ where
  stored _ _ hcopy := h'.stored _ _ (h.stored _ _ hcopy)
  encoded hdb := h'.encoded (h.encoded hdb)

/-- The constraint lets a copy be stored only where there is none. -/
theorem insert {db : Db} {id noticeId : String} {bytes : List UInt8} {now : Calendar.Instant}
    (hfree : db.certificatePdfs.get? noticeId = none) :
    let row : CertificatePdf := ⟨id, noticeId, String.ofList (base64Encode bytes), now⟩
    let db' : Db := { db with certificatePdfs := db.certificatePdfs.insert row hfree }
    db.KeepsCertificates db' ∧ db'.Stores noticeId bytes := by
  intro row db'
  have hget : ∀ id', db'.certificatePdfs.get? id' =
      if id' = noticeId then some row else db.certificatePdfs.get? id' :=
    Table.get?_insert _ row hfree
  refine ⟨⟨fun id' copy hcopy => ?_, fun hdb id' copy hcopy => ?_⟩, row, ?_, rfl⟩
  · have hne : id' ≠ noticeId := fun heq => by
      rw [heq, hfree] at hcopy
      cases hcopy
    rw [hget, if_neg hne, hcopy]
  · rw [hget] at hcopy
    split at hcopy
    · cases hcopy
      exact ⟨bytes, rfl⟩
    · exact hdb id' copy hcopy
  · rw [hget, if_pos rfl]

end KeepsCertificates

/-- The answers to a call; creating a copy fails only by the unique constraint. -/
def AnswersCertificate (db : Db) (c : ReadCall) (db' : Db) (r : Except Failure c.Resp) : Prop :=
  c.Exec db db' r ∨
    (db' = db ∧ (∃ message, r = .error (.error message)) ∧
      ∀ noticeId pdfBase64, c ≠ .certificatePdfCreate noticeId pdfBase64)

end Db

/-- Calls of `getOrCreateCertificatePdf`, as many at a time as there are threads, each for the
notice of its thread. Others write to the database, but not to the stored copies. -/
def certificateCalls {ι : Type} (notice : ι → String) :
    Machine readSig Failure (List UInt8) ι Unit Db where
  idle := ()
  observe _ _ _ _ := ()
  answers _ db c db' r := db.AnswersCertificate c db' r
  entry i p := p = getOrCreateCertificatePdf (notice i)
  environment db db' := db'.certificatePdfs = db.certificatePdfs

/-- The pool of the calls. -/
abbrev CertificatePool (ι : Type) := Pool readSig Failure (List UInt8) ι Unit Db

/-- A copy that is to be stored is the base64 of some bytes. -/
def ReadCall.StoresEncoded : ReadCall → Prop
  | .certificatePdfCreate _ pdfBase64 => ∃ bytes, pdfBase64 = String.ofList (base64Encode bytes)
  | _ => True

/-! ## One call among others -/

section Alone

variable {ι : Type} {notice : ι → String} {db db' : Db} {c : ReadCall}
  {r : Except Failure c.Resp}

theorem Db.AnswersCertificate.keeps (hc : c.StoresEncoded) (h : db.AnswersCertificate c db' r) :
    db.KeepsCertificates db' := by
  rcases h with hexec | ⟨rfl, -⟩
  · cases c with
    | certificatePdfCreate noticeId pdfBase64 =>
        obtain ⟨bytes, rfl⟩ := hc
        rcases hexec with ⟨id, now, hfree, rfl, -⟩ | ⟨rfl, -⟩
        · exact (Db.KeepsCertificates.insert hfree).1
        · exact .of_eq rfl
    | renderCertificatePdf data => exact .of_eq (congrArg Db.certificatePdfs hexec)
    | _ => exact .of_eq (congrArg Db.certificatePdfs hexec.1)
  · exact .of_eq rfl

/-- The answers to a call, after any moves of the others. -/
abbrev certificateAmong (notice : ι → String) : Answers readSig Failure (Unit × Db) :=
  (certificateCalls notice).among Db.KeepsCertificates

theorem certificateAmong_encoded {s s' : Unit × Db} (hdb : s.2.CertificatesEncoded)
    (hc : c.StoresEncoded) (h : certificateAmong notice s c s' r) :
    s'.2.CertificatesEncoded := by
  obtain ⟨db₁, hkeeps, hanswer, -⟩ := h
  exact (hkeeps.trans (Db.AnswersCertificate.keeps hc hanswer)).encoded hdb

/-- Finding a copy, or none, when what was stored before is still there. -/
theorem certificatePdfFindUnique_wp {noticeId : String} (hdb : db.CertificatesEncoded) :
    (ReadProgram.certificatePdfFindUnique noticeId).wp (certificateAmong notice)
      (fun _ c => c.StoresEncoded)
      (fun r s => s.2.CertificatesEncoded ∧ match r with
        | .ok (some pdfBase64) => s.2.Stores noticeId (base64Decode pdfBase64)
        | .ok none => db.certificatePdfs.get? noticeId = none
        | .error _ => True) ((), db) := by
  refine (Program.wp_perform _ _ _).2 ⟨trivial, ?_⟩
  rintro ⟨_, db'⟩ r ⟨db₁, hkeeps, hanswer, -⟩
  have hdb₁ : db₁.CertificatesEncoded := hkeeps.encoded hdb
  rcases hanswer with ⟨hsame, rfl⟩ | ⟨hsame, ⟨message, rfl⟩, -⟩
  · obtain rfl : db' = db₁ := hsame
    refine ⟨hdb₁, ?_⟩
    cases hget : db'.certificatePdfs.get? noticeId with
    | some copy => exact Db.stores_of_get? hdb₁ hget
    | none =>
        refine Option.eq_none_iff_forall_not_mem.2 fun copy hcopy => ?_
        cases hget.symm.trans (hkeeps.stored _ _ hcopy)
  · obtain rfl : db' = db₁ := hsame
    exact ⟨hdb₁, trivial⟩

/-- Rendering stores nothing. -/
theorem generateCertificatePdf_keeps {noticeId : String} (hdb : db.CertificatesEncoded) :
    (generateCertificatePdf noticeId).wp (certificateAmong notice) (fun _ c => c.StoresEncoded)
      (fun _ s => s.2.CertificatesEncoded) ((), db) := by
  refine Program.wp_seq (R := fun _ s => s.2.CertificatesEncoded) ?_ ?_ fun e s h => h
  · refine (Program.wp_perform _ _ _).2 ⟨trivial, fun s r h => ?_⟩
    exact certificateAmong_encoded (c := .noticeFindUnique noticeId) hdb trivial h
  · rintro (_ | ⟨notice, addendum⟩) s hdb
    · exact hdb
    · refine (Program.wp_perform _ _ _).2 ⟨trivial, fun s' r h => ?_⟩
      exact certificateAmong_encoded (c := .renderCertificatePdf _) hdb trivial h

/-- Storing a copy, unless there is one. -/
theorem certificatePdfCreate_wp {noticeId : String} {bytes : List UInt8}
    (hdb : db.CertificatesEncoded) :
    (ReadProgram.certificatePdfCreate noticeId (String.ofList (base64Encode bytes))).wp
      (certificateAmong notice) (fun _ c => c.StoresEncoded)
      (fun r s => s.2.CertificatesEncoded ∧ match r with
        | .ok _ => s.2.Stores noticeId bytes
        | .error _ => s.2.certificatePdfs.get? noticeId ≠ none) ((), db) := by
  refine (Program.wp_perform _ _ _).2 ⟨⟨bytes, rfl⟩, ?_⟩
  rintro ⟨_, db'⟩ r h
  have hdb' : db'.CertificatesEncoded := certificateAmong_encoded
    (c := .certificatePdfCreate noticeId _) hdb ⟨bytes, rfl⟩ h
  obtain ⟨db₁, -, hanswer, -⟩ := h
  refine ⟨hdb', ?_⟩
  rcases hanswer with (⟨id, now, hfree, hnew, rfl⟩ | ⟨hsame, hsome, rfl⟩) | ⟨-, -, hother⟩
  · obtain rfl : db' = _ := hnew
    exact (Db.KeepsCertificates.insert hfree).2
  · obtain rfl : db' = db₁ := hsame
    exact Option.isSome_iff_ne_none.1 hsome
  · exact absurd rfl (hother _ _)

/-- A call that returns, among others, returns what is stored. -/
theorem getOrCreateCertificatePdf_stores (noticeId : String) (hdb : db.CertificatesEncoded) :
    (getOrCreateCertificatePdf noticeId).wp (certificateAmong notice)
      (fun _ c => c.StoresEncoded)
      (fun r s => ∀ bytes, r = .ok bytes → s.2.Stores noticeId bytes) ((), db) := by
  refine Program.wp_seq (certificatePdfFindUnique_wp hdb) ?_ fun e s _ bytes => nofun
  rintro (_ | pdfBase64) ⟨_, db⟩ ⟨hdb, hfound⟩
  swap
  · rintro _ ⟨⟩
    exact hfound
  refine Program.wp_seq (generateCertificatePdf_keeps hdb) ?_ fun e s _ bytes => nofun
  rintro bytes ⟨_, db⟩ hdb
  -- The copy that was rendered is returned only if it is the one that was stored.
  refine Program.wp_seq (R := fun r s => match r with
    | .ok (some pdfBase64) => s.2.Stores noticeId (base64Decode pdfBase64)
    | .ok none => s.2.Stores noticeId bytes
    | .error _ => True) ?_ ?_ fun e s _ bytes => nofun
  · refine Program.wp_catch (R := fun r s => s.2.CertificatesEncoded ∧ match r with
      | .ok none => s.2.Stores noticeId bytes
      | .ok (some _) => False
      | .error _ => s.2.certificatePdfs.get? noticeId ≠ none) ?_ ?_ ?_
    · refine Program.wp_seq (certificatePdfCreate_wp hdb) ?_ fun e s h => h
      exact fun _ s h => h
    · rintro (_ | pdfBase64) s ⟨-, h⟩
      · exact h
      · exact h.elim
    · rintro e ⟨_, db⟩ ⟨hdb, hsome⟩
      refine Program.wp_post _ ?_ (certificatePdfFindUnique_wp hdb)
      rintro (e | _ | pdfBase64) s ⟨-, h⟩
      · trivial
      · exact absurd h hsome
      · exact h
  · rintro (_ | pdfBase64) s h
    · rintro _ ⟨⟩
      exact h
    · rintro _ ⟨⟩
      exact h

end Alone

/-! ## Any interleaving -/

section Run

variable {ι : Type}

/-- A call relies on the others to leave what is stored, and returns what is stored. -/
def certificateDiscipline (notice : ι → String) : (certificateCalls notice).Discipline where
  rely := Db.KeepsCertificates
  allowed := ReadCall.StoresEncoded
  inv := Db.CertificatesEncoded
  post i r s := ∀ bytes, r = .ok bytes → s.2.Stores (notice i) bytes
  refl _ := .of_eq rfl
  trans _ _ _ h h' := h.trans h'
  answers _ _ _ _ _ hc h := h.keeps hc
  environment _ _ h := .of_eq h
  inv_stable _ _ h := h.encoded
  post_stable _ _ _ _ _ h hpost bytes hr := (hpost bytes hr).kept h
  entry i p db hdb hp := by
    obtain rfl : p = getOrCreateCertificatePdf (notice i) := hp
    exact getOrCreateCertificatePdf_stores (notice i) hdb

variable [DecidableEq ι]

/-- Whatever calls are interleaved, there is at most one copy for a notice, what has been
stored stays, and each call that returns gives the bytes that are stored. So all of them
return the same bytes, at the same time or later. -/
theorem certificate_written_once {notice : ι → String} {db : Db} (hdb : db.CertificatesEncoded)
    {c c' : CertificatePool ι}
    (hc : Reaches (certificateCalls notice).Step ⟨db, fun _ => none⟩ c)
    (hc' : Reaches (certificateCalls notice).Step c c') :
    (∀ noticeId, c.world.certificatePdfs.rows.countP (fun copy => copy.noticeId = noticeId) ≤ 1) ∧
      (∀ noticeId bytes, c.world.Stores noticeId bytes → c'.world.Stores noticeId bytes) ∧
      (∀ i bytes m, c.thread i = some ⟨.done (.ok bytes), m⟩ →
        c.world.Stores (notice i) bytes) ∧
      ∀ i j bytes bytes' m m', notice i = notice j →
        c.thread i = some ⟨.done (.ok bytes), m⟩ → c'.thread j = some ⟨.done (.ok bytes'), m'⟩ →
          bytes = bytes' := by
  let D := certificateDiscipline notice
  have hinitial : D.Kept ⟨db, fun _ => none⟩ := ⟨hdb, fun i t ht => by cases ht⟩
  obtain ⟨hkept, -⟩ := hinitial.reaches hc
  obtain ⟨hkept', hkeeps⟩ := hkept.reaches hc'
  refine ⟨fun noticeId => ?_, fun noticeId bytes h => h.kept hkeeps, fun i bytes m hi => ?_, ?_⟩
  · have hcount := List.nodup_iff_count_le_one.1 c.world.certificatePdfs.nodup noticeId
    rw [List.count, List.countP_map] at hcount
    exact hcount
  · exact hkept.post hi bytes rfl
  · intro i j bytes bytes' m m' hij hi hj
    have hstored : c'.world.Stores (notice i) bytes := (hkept.post hi bytes rfl).kept hkeeps
    have hstored' : c'.world.Stores (notice j) bytes' := hkept'.post hj bytes' rfl
    exact hstored.unique (hij ▸ hstored')

end Run

section Example

/-! ### Two first downloads of one certificate -/

/-- Two threads that download the certificate of one notice. -/
def racing (p q : ReadProgram (List UInt8)) :
    Bool → Option (Thread readSig Failure (List UInt8) Unit) :=
  fun first => some ⟨bif first then p else q, ()⟩

/-- The calls of both. -/
abbrev raceCalls : Machine readSig Failure (List UInt8) Bool Unit Db :=
  certificateCalls fun _ => "sr-1"

variable {o : ReadCall} {k : Except Failure o.Resp → ReadProgram (List UInt8)}
  {r : Except Failure o.Resp} {p : ReadProgram (List UInt8)} {db db' : Db}
  {c : CertificatePool Bool}

theorem first_acts (h : o.Exec db db' r)
    (hc : Reaches raceCalls.Step ⟨db', racing (k r) p⟩ c) :
    Reaches raceCalls.Step ⟨db, racing (.call o k) p⟩ c := by
  have hstep : raceCalls.Step ⟨db, racing (.call o k) p⟩ (.act true o r) ⟨db', _⟩ :=
    .act rfl (Or.inl h)
  refine .head hstep ?_
  have hthread : Function.update (racing (.call o k) p) true (some ⟨k r, ()⟩) =
      racing (k r) p := by
    funext first
    cases first with
    | true => rfl
    | false => rfl
  exact hthread ▸ hc

theorem second_acts (h : o.Exec db db' r)
    (hc : Reaches raceCalls.Step ⟨db', racing p (k r)⟩ c) :
    Reaches raceCalls.Step ⟨db, racing p (.call o k)⟩ c := by
  have hstep : raceCalls.Step ⟨db, racing p (.call o k)⟩ (.act false o r) ⟨db', _⟩ :=
    .act rfl (Or.inl h)
  refine .head hstep ?_
  have hthread : Function.update (racing p (.call o k)) false (some ⟨k r, ()⟩) =
      racing p (k r) := by
    funext first
    cases first with
    | true => rfl
    | false => rfl
  exact hthread ▸ hc

/-- The notice once the first of them has stored its copy. -/
def firstStored : Db :=
  { undelivered with
    certificatePdfs := undelivered.certificatePdfs.insert
      ⟨"pdf-1", "sr-1", String.ofList (base64Encode [1]), 0⟩ rfl }

theorem race_reaches : Reaches raceCalls.Step
    ⟨undelivered, racing (getOrCreateCertificatePdf "sr-1") (getOrCreateCertificatePdf "sr-1")⟩
    ⟨firstStored, racing (.done (.ok [1])) (.done (.ok [1]))⟩ := by
  refine first_acts ⟨rfl, rfl⟩ (second_acts ⟨rfl, rfl⟩ ?_)
  refine first_acts ⟨rfl, rfl⟩ (second_acts ⟨rfl, rfl⟩ ?_)
  -- The two have not rendered the same.
  refine first_acts (r := .ok [1]) rfl (second_acts (r := .ok [2]) rfl ?_)
  refine first_acts (r := .ok ()) (Or.inl ⟨"pdf-1", 0, rfl, rfl, rfl⟩) ?_
  refine second_acts (r := .error .uniqueConstraint) (Or.inr ⟨rfl, rfl, rfl⟩) ?_
  refine second_acts ⟨rfl, rfl⟩ ?_
  exact .refl _ _

/-- The second of them has rendered other bytes, and returns those that are stored. -/
theorem certificate_written_once_of_race :
    ∃ c : CertificatePool Bool, Reaches raceCalls.Step ⟨undelivered, fun _ => none⟩ c ∧
      c.thread true = some ⟨.done (.ok [1]), ()⟩ ∧ c.thread false = some ⟨.done (.ok [1]), ()⟩ ∧
        c.world.Stores "sr-1" [1] := by
  let p := getOrCreateCertificatePdf "sr-1"
  have hthread : Function.update (Function.update (fun _ => none) true (some ⟨p, ()⟩)) false
      (some ⟨p, ()⟩) = racing p p := by
    funext first
    cases first with
    | true => rfl
    | false => rfl
  have hrun : Reaches raceCalls.Step ⟨undelivered, fun _ => none⟩
      ⟨firstStored, racing (.done (.ok [1])) (.done (.ok [1]))⟩ := by
    refine .head (.start (i := true) (p := p) rfl rfl) ?_
    refine .head (.start (i := false) (p := p) rfl rfl) ?_
    exact hthread ▸ race_reaches
  have hstores := (certificate_written_once (fun _ _ h => by cases h) hrun (.refl _ _)).2.2.1
  exact ⟨_, hrun, rfl, rfl, hstores false [1] () rfl⟩

end Example

end EpsDapp
