import EpsDapp.Calendar.Month
import EpsDapp.Intake.Validation
import EpsDapp.Reads.Routes
import EpsDapp.Text.Alphabet
import Mathlib.Data.Rat.Defs

/-!
# Rendering a certificate

The certificate is drawn with the standard fonts, which encode the characters of
Windows-1252 and throw on others, while the intake accepts any text that is not
too long. What throws in the renderer comes out of the route as a notice that is
not found. So a notice has a certificate exactly if a copy has been stored or each
of the texts that it shows can be encoded.
-/

set_option autoImplicit false

namespace EpsDapp

open Calendar Effect

/-- The characters of the encoding `WinAnsi`. -/
def WinAnsi (c : Char) : Prop :=
  (32 ≤ c.toNat ∧ c.toNat ≤ 126) ∨ (160 ≤ c.toNat ∧ c.toNat ≤ 255) ∨
    c.toNat ∈ [8364, 8218, 402, 8222, 8230, 8224, 8225, 710, 8240, 352, 8249, 338, 381, 8216,
      8217, 8220, 8221, 8226, 8211, 8212, 732, 8482, 353, 8250, 339, 382, 376]

instance : DecidablePred WinAnsi := fun c => by unfold WinAnsi; infer_instance

theorem winAnsi_of_isDigit {c : Char} (h : c.isDigit = true) : WinAnsi c := by
  have hc : 48 ≤ c.toNat ∧ c.toNat ≤ 57 := by
    simpa [Char.isDigit, UInt32.le_iff_toNat_le] using h
  exact Or.inl ⟨by omega, by omega⟩

/-- A standard font of the PDF library, which draws what it can encode. -/
structure StandardFont where
  widthOfTextAtSize : String → ℕ → ℚ
  drawText : String → Except Failure Unit
  drawText_eq_ok_iff : ∀ text, drawText text = .ok () ↔ Over WinAnsi text

/-- What the renderer uses of the PDF library: Helvetica, its bold, and `save`. -/
structure PdfLib where
  font : StandardFont
  bold : StandardFont
  save : List String → List UInt8

/-! ## Dates -/

/-- `date.toISOString()`. -/
def Calendar.toISOString (t : Instant) : String :=
  let month := monthIndex t
  let year := month / 12
  let time := t % msPerDay
  let pad (width : ℕ) (n : ℤ) := padStart width n.toNat.repr
  (if 0 ≤ year ∧ year ≤ 9999 then pad 4 year
    else (if year < 0 then "-" else "+") ++ padStart 6 year.natAbs.repr) ++
    "-" ++ pad 2 (month % 12 + 1) ++ "-" ++ pad 2 (t / msPerDay - monthStart month + 1) ++
    "T" ++ pad 2 (time / 3600000) ++ ":" ++ pad 2 (time / 60000 % 60) ++ ":" ++
    pad 2 (time / 1000 % 60) ++ "." ++ pad 3 (time % 1000) ++ "Z"

example : toISOString 1769860800000 = "2026-01-31T12:00:00.000Z" := by decide +kernel

/-- `text.replace(/\.\d+Z$/, "")` -/
def stripFraction (cs : List Char) : List Char :=
  match cs.reverse with
  | 'Z' :: rest =>
      match rest.takeWhile Char.isDigit, rest.dropWhile Char.isDigit with
      | _ :: _, '.' :: front => front.reverse
      | _, _ => cs
  | _ => cs

/-- `formatUtc`. -/
def formatUtc (date : Instant) : String :=
  String.ofList (stripFraction (replaceFirst 'T' ' ' (toISOString date).toList)) ++ " UTC"

example : formatUtc 1769860800000 = "2026-01-31 12:00:00 UTC" := by decide +kernel

theorem stripFraction_subset (cs : List Char) : stripFraction cs ⊆ cs := by
  rw [stripFraction]
  split
  · rename_i rest hreverse
    split
    · rename_i front _ hfront
      intro c hc
      have hrest : c ∈ rest := by
        refine (List.dropWhile_suffix Char.isDigit).subset ?_
        rw [hfront]
        exact List.mem_cons_of_mem _ (List.mem_reverse.1 hc)
      exact List.mem_reverse.1 (hreverse ▸ List.mem_cons_of_mem _ hrest)
    · exact List.Subset.refl cs
  · exact List.Subset.refl cs

theorem over_toISOString (t : Instant) : Over WinAnsi (toISOString t) := by
  have hpad : ∀ width n, Over WinAnsi (padStart width (Nat.repr n)) := fun width n =>
    .padStart (by decide) (.repr (fun _ => winAnsi_of_isDigit) n) width
  have hyear : ∀ year : ℤ, Over WinAnsi (if 0 ≤ year ∧ year ≤ 9999 then padStart 4 year.toNat.repr
      else (if year < 0 then "-" else "+") ++ padStart 6 year.natAbs.repr) := by
    intro year
    split
    · exact hpad 4 _
    · refine (Over.append_iff _ _).2 ⟨?_, hpad 6 _⟩
      split
      · decide
      · decide
  have hmark : Over WinAnsi "-" ∧ Over WinAnsi "T" ∧ Over WinAnsi ":" ∧ Over WinAnsi "." ∧
      Over WinAnsi "Z" := by decide
  unfold toISOString
  simp only [Over.append_iff, hpad, hyear, hmark, and_self]

theorem over_formatUtc (date : Instant) : Over WinAnsi (formatUtc date) := by
  refine (Over.append_iff _ _).2 ⟨(Over.ofList_iff _).2 fun c hc => ?_, by decide⟩
  exact Over.replaceFirst (by decide) (over_toISOString date) c (stripFraction_subset _ hc)

/-! ## The page -/

/-- A call of `page.drawText`. -/
structure DrawText where
  font : StandardFont
  text : String

/-- One word of `wrap`, after the full lines and the current one. -/
def wrapWord (font : StandardFont) (size : ℕ) (maxWidth : ℚ) :
    List String × String → String → List String × String
  | (lines, current), word =>
      let candidate := if current ≠ "" then current ++ " " ++ word else word
      if maxWidth < font.widthOfTextAtSize candidate size ∧ current ≠ "" then
        (lines ++ [current], word)
      else (lines, candidate)

/-- `wrap`. -/
def wrap (text : String) (font : StandardFont) (size : ℕ) (maxWidth : ℚ) : List String :=
  let words := (splitRuns isWhiteSpace text.toList).map String.ofList
  let (lines, current) := words.foldl (wrapWord font size maxWidth) ([], "")
  if current ≠ "" then lines ++ [current] else lines

/-! `LineWriter`, as the texts that its methods draw. -/
namespace LineWriter

variable (pdf : PdfLib)

def heading (text : String) : List DrawText := [⟨pdf.bold, text⟩]

def sectionTitle (text : String) : List DrawText := [⟨pdf.bold, text⟩]

def field (label value : String) : List DrawText :=
  [⟨pdf.bold, label ++ ":"⟩, ⟨pdf.font, value⟩]

def link (label url : String) : List DrawText :=
  [⟨pdf.bold, label ++ ":"⟩, ⟨pdf.font, url⟩]

/-- The lines are as wide as the page between its margins. -/
def paragraph (text : String) : List DrawText :=
  (wrap text pdf.font 9 (595.28 - 2 * 56)).map fun line => ⟨pdf.font, line⟩

def footer (text : String) : List DrawText := [⟨pdf.font, text⟩]

end LineWriter

/-- `solscanTxUrl`. -/
def solscanTxUrl (signature : String) : String :=
  "https://solscan.io/tx/" ++ signature ++ "?cluster=devnet"

section Sections

open LineWriter

variable (pdf : PdfLib) (data : CertificateData)

/-- The section `Case`. -/
def caseSection : List DrawText :=
  sectionTitle pdf "Case" ++
    field pdf "Case reference" (data.noticeToken.getD "—") ++
    field pdf "Case title" data.caseCaption ++
    field pdf "Plaintiff" data.plaintiffName ++
    field pdf "Defendant" data.defendantName ++
    field pdf "Recipient wallet" data.recipientWallet

/-- The section `Served document`. -/
def documentSection : List DrawText :=
  sectionTitle pdf "Served document" ++
    field pdf "Filename" ("notice-" ++ data.noticeToken.getD "document" ++ ".pdf") ++
    field pdf "SHA-256" (data.documentSha256.getD "—")

/-- The section `On-chain proof (Solana devnet)`. -/
def proofSection : List DrawText :=
  sectionTitle pdf "On-chain proof (Solana devnet)" ++
    match truthy data.txSignature with
    | some signature =>
        field pdf "Transaction" signature ++
          link pdf "Explorer" (solscanTxUrl signature) ++
          field pdf "Slot" ((data.slot.map Nat.repr).getD "—") ++
          field pdf "Block time (UTC)" ((data.blockTime.map formatUtc).getD "—")
    | none => field pdf "Transaction" "Not yet confirmed on-chain"

/-- The section `First viewed`. -/
def viewSection : List DrawText :=
  sectionTitle pdf "First viewed" ++
    match data.firstViewedAt with
    | some viewedAt =>
        field pdf "Viewed at (UTC)" (formatUtc viewedAt) ++
          field pdf "Viewer IP (masked)" (data.firstViewerIp.getD "—")
    | none => field pdf "Status" "Not yet viewed"

/-- A link that is drawn if its URL is truthy. -/
def optionalLink (label : String) (url : Option String) : List DrawText :=
  match truthy url with
  | some url => link pdf label url
  | none => []

/-- The section `Hedera Consensus Service Timestamp`. -/
def hcsSection : List DrawText :=
  match truthy data.hcsTopicId with
  | some topicId =>
      sectionTitle pdf "Hedera Consensus Service Timestamp" ++
        field pdf "Topic ID" topicId ++
        field pdf "Sequence number" ((data.hcsSequenceNumber.map toString).getD "—") ++
        field pdf "Consensus time (UTC)" (data.hcsConsensusTime.getD "—") ++
        optionalLink pdf "Verify on mirror node" data.hcsMirrorUrl
  | none => []

/-- The section `Hedera Proof of Service NFT`. -/
def htsSection : List DrawText :=
  match truthy data.htsTokenId with
  | some tokenId =>
      sectionTitle pdf "Hedera Proof of Service NFT" ++
        field pdf "Token ID" tokenId ++
        field pdf "Serial number" ((data.htsSerialNumber.map toString).getD "—") ++
        optionalLink pdf "NFT on mirror node" data.htsMirrorUrl
  | none => []

/-- What `renderCertificatePdf` draws, from the top down. -/
def certificatePage (now : Instant) : List DrawText :=
  heading pdf "EPS NOTICE CERTIFICATE" ++
    paragraph pdf ("This certificate facilitates service of process and provides court-ready " ++
      "proof of on-chain delivery. It does not itself effect valid legal service.") ++
    caseSection pdf data ++ documentSection pdf data ++ proofSection pdf data ++
    viewSection pdf data ++ hcsSection pdf data ++ htsSection pdf data ++
    footer pdf ("Certificate generated " ++ formatUtc now)

/-- `renderCertificatePdf`. -/
def renderCertificatePdf (now : Instant) : Except Failure (List UInt8) := do
  (certificatePage pdf data now).forM fun draw => draw.font.drawText draw.text
  pure (pdf.save ((certificatePage pdf data now).map DrawText.text))

end Sections

/-- The texts of its notice that a certificate shows. -/
def CertificateData.texts (data : CertificateData) : List String :=
  [data.caseCaption, data.plaintiffName, data.defendantName, data.recipientWallet] ++
    data.noticeToken.toList ++ data.documentSha256.toList ++ data.txSignature.toList ++
    (if data.firstViewedAt.isSome then data.firstViewerIp.toList else []) ++
    (if (truthy data.hcsTopicId).isSome then
      data.hcsTopicId.toList ++ data.hcsConsensusTime.toList ++ data.hcsMirrorUrl.toList
    else []) ++
    if (truthy data.htsTokenId).isSome then data.htsTokenId.toList ++ data.htsMirrorUrl.toList
    else []

/-- Each text can be encoded. -/
def Drawable (page : List DrawText) : Prop := ∀ draw ∈ page, Over WinAnsi draw.text

/-- Each text of the list can be encoded. -/
def AllWinAnsi (texts : List String) : Prop := ∀ text ∈ texts, Over WinAnsi text

section Drawable

open LineWriter

variable {pdf : PdfLib} {data : CertificateData}

@[simp] theorem drawable_append (page page' : List DrawText) :
    Drawable (page ++ page') ↔ Drawable page ∧ Drawable page' := by
  simp [Drawable, or_imp, forall_and]

@[simp] theorem allWinAnsi_nil : AllWinAnsi [] := by simp [AllWinAnsi]

@[simp] theorem allWinAnsi_cons (text : String) (texts : List String) :
    AllWinAnsi (text :: texts) ↔ Over WinAnsi text ∧ AllWinAnsi texts := by
  simp [AllWinAnsi]

@[simp] theorem allWinAnsi_append (texts texts' : List String) :
    AllWinAnsi (texts ++ texts') ↔ AllWinAnsi texts ∧ AllWinAnsi texts' := by
  simp [AllWinAnsi, or_imp, forall_and]

theorem allWinAnsi_ite_iff (c : Prop) [Decidable c] (texts : List String) :
    AllWinAnsi (if c then texts else []) ↔ (c → AllWinAnsi texts) := by
  by_cases hc : c
  · simp [hc]
  · simp [hc]

theorem drawable_sectionTitle {text : String} (h : Over WinAnsi text) :
    Drawable (sectionTitle pdf text) := by
  simpa [Drawable, sectionTitle] using h

theorem drawable_field_iff {label value : String} (h : Over WinAnsi label) :
    Drawable (field pdf label value) ↔ Over WinAnsi value := by
  have hcolon : Over WinAnsi ":" := by decide
  simp [Drawable, field, h, hcolon]

theorem drawable_link_iff {label url : String} (h : Over WinAnsi label) :
    Drawable (link pdf label url) ↔ Over WinAnsi url := by
  have hfield : Drawable (field pdf label url) ↔ Over WinAnsi url := drawable_field_iff h
  exact hfield

theorem over_getD_iff {o : Option String} {alternative : String} (h : Over WinAnsi alternative) :
    Over WinAnsi (o.getD alternative) ↔ AllWinAnsi o.toList := by
  cases o with
  | none => simpa using h
  | some s => simp

/-- What is not truthy shows nothing. -/
theorem allWinAnsi_of_truthy {o : Option String} (h : truthy o = none) : AllWinAnsi o.toList := by
  rcases o with _ | s
  · simp
  · obtain rfl : s = "" := by simpa [truthy] using h
    simp [Over]

theorem truthy_eq_some {o : Option String} {s : String} (h : truthy o = some s) : o = some s :=
  (Option.filter_eq_some_iff.1 h).1

theorem drawable_caseSection_iff : Drawable (caseSection pdf data) ↔
    AllWinAnsi data.noticeToken.toList ∧ AllWinAnsi [data.caseCaption, data.plaintiffName,
      data.defendantName, data.recipientWallet] := by
  simp only [caseSection, drawable_append,
    drawable_sectionTitle (by decide : Over WinAnsi "Case"),
    drawable_field_iff (by decide : Over WinAnsi "Case reference"),
    drawable_field_iff (by decide : Over WinAnsi "Case title"),
    drawable_field_iff (by decide : Over WinAnsi "Plaintiff"),
    drawable_field_iff (by decide : Over WinAnsi "Defendant"),
    drawable_field_iff (by decide : Over WinAnsi "Recipient wallet"),
    over_getD_iff (by decide : Over WinAnsi "—"), allWinAnsi_cons, allWinAnsi_nil, true_and,
    and_true, and_assoc]

theorem over_filename_iff (token : Option String) :
    Over WinAnsi ("notice-" ++ token.getD "document" ++ ".pdf") ↔ AllWinAnsi token.toList := by
  have hends : Over WinAnsi "notice-" ∧ Over WinAnsi ".pdf" := by decide
  rw [Over.append_iff, Over.append_iff, and_iff_left hends.2, and_iff_right hends.1,
    over_getD_iff (by decide)]

theorem drawable_documentSection_iff : Drawable (documentSection pdf data) ↔
    AllWinAnsi data.noticeToken.toList ∧ AllWinAnsi data.documentSha256.toList := by
  simp only [documentSection, drawable_append, over_filename_iff,
    drawable_sectionTitle (by decide : Over WinAnsi "Served document"),
    drawable_field_iff (by decide : Over WinAnsi "Filename"),
    drawable_field_iff (by decide : Over WinAnsi "SHA-256"),
    over_getD_iff (by decide : Over WinAnsi "—"), true_and]

theorem over_solscanTxUrl_iff (signature : String) :
    Over WinAnsi (solscanTxUrl signature) ↔ Over WinAnsi signature := by
  have hends : Over WinAnsi "https://solscan.io/tx/" ∧ Over WinAnsi "?cluster=devnet" := by decide
  unfold solscanTxUrl
  rw [Over.append_iff, Over.append_iff, and_iff_left hends.2, and_iff_right hends.1]

/-- What is written of a number or a date can be encoded. -/
theorem over_getD_map {α : Type} {f : α → String} (hf : ∀ a, Over WinAnsi (f a)) (o : Option α) :
    Over WinAnsi ((o.map f).getD "—") := by
  cases o with
  | none => exact (by decide : Over WinAnsi "—")
  | some a => exact hf a

theorem over_repr (n : ℕ) : Over WinAnsi n.repr := .repr (fun _ => winAnsi_of_isDigit) n

theorem over_toString (n : ℤ) : Over WinAnsi (toString n) :=
  .toString_int (fun _ => winAnsi_of_isDigit) (by decide) n

theorem drawable_proofSection_iff : Drawable (proofSection pdf data) ↔
    AllWinAnsi data.txSignature.toList := by
  have htitle : Over WinAnsi "On-chain proof (Solana devnet)" := by decide
  rw [proofSection, drawable_append, and_iff_right (drawable_sectionTitle htitle)]
  cases hsignature : truthy data.txSignature with
  | none =>
      refine iff_of_true ((drawable_field_iff (by decide)).2 (by decide)) ?_
      exact allWinAnsi_of_truthy hsignature
  | some signature =>
      simp only [drawable_append, drawable_field_iff (by decide : Over WinAnsi "Transaction"),
        drawable_link_iff (by decide : Over WinAnsi "Explorer"),
        drawable_field_iff (by decide : Over WinAnsi "Slot"),
        drawable_field_iff (by decide : Over WinAnsi "Block time (UTC)"),
        over_solscanTxUrl_iff, over_getD_map over_repr, over_getD_map over_formatUtc, and_true,
        and_self, truthy_eq_some hsignature, Option.toList_some, allWinAnsi_cons, allWinAnsi_nil]

theorem drawable_viewSection_iff : Drawable (viewSection pdf data) ↔
    (data.firstViewedAt.isSome → AllWinAnsi data.firstViewerIp.toList) := by
  rw [viewSection, drawable_append,
    and_iff_right (drawable_sectionTitle (by decide : Over WinAnsi "First viewed"))]
  cases data.firstViewedAt with
  | none => exact iff_of_true ((drawable_field_iff (by decide)).2 (by decide)) (by simp)
  | some viewedAt =>
      simp only [drawable_append, drawable_field_iff (by decide : Over WinAnsi "Viewed at (UTC)"),
        drawable_field_iff (by decide : Over WinAnsi "Viewer IP (masked)"), over_formatUtc,
        over_getD_iff (by decide : Over WinAnsi "—"), true_and, Option.isSome_some, forall_const]

theorem drawable_optionalLink_iff {label : String} (hlabel : Over WinAnsi label)
    (url : Option String) : Drawable (optionalLink pdf label url) ↔ AllWinAnsi url.toList := by
  rw [optionalLink]
  cases hurl : truthy url with
  | none => exact iff_of_true (by simp [Drawable]) (allWinAnsi_of_truthy hurl)
  | some s => simp [drawable_link_iff hlabel, truthy_eq_some hurl]

theorem drawable_hcsSection_iff : Drawable (hcsSection pdf data) ↔
    ((truthy data.hcsTopicId).isSome → AllWinAnsi (data.hcsTopicId.toList ++
      data.hcsConsensusTime.toList ++ data.hcsMirrorUrl.toList)) := by
  rw [hcsSection]
  cases htopic : truthy data.hcsTopicId with
  | none => exact iff_of_true (by simp [Drawable]) (by simp)
  | some topicId =>
      simp only [drawable_append, allWinAnsi_append,
        drawable_sectionTitle (by decide : Over WinAnsi "Hedera Consensus Service Timestamp"),
        drawable_field_iff (by decide : Over WinAnsi "Topic ID"),
        drawable_field_iff (by decide : Over WinAnsi "Sequence number"),
        drawable_field_iff (by decide : Over WinAnsi "Consensus time (UTC)"),
        drawable_optionalLink_iff (by decide : Over WinAnsi "Verify on mirror node"),
        over_getD_map over_toString, over_getD_iff (by decide : Over WinAnsi "—"), true_and,
        and_true, truthy_eq_some htopic, Option.toList_some, allWinAnsi_cons, allWinAnsi_nil,
        Option.isSome_some, forall_const]

theorem drawable_htsSection_iff : Drawable (htsSection pdf data) ↔
    ((truthy data.htsTokenId).isSome →
      AllWinAnsi (data.htsTokenId.toList ++ data.htsMirrorUrl.toList)) := by
  rw [htsSection]
  cases htoken : truthy data.htsTokenId with
  | none => exact iff_of_true (by simp [Drawable]) (by simp)
  | some tokenId =>
      simp only [drawable_append, allWinAnsi_append,
        drawable_sectionTitle (by decide : Over WinAnsi "Hedera Proof of Service NFT"),
        drawable_field_iff (by decide : Over WinAnsi "Token ID"),
        drawable_field_iff (by decide : Over WinAnsi "Serial number"),
        drawable_optionalLink_iff (by decide : Over WinAnsi "NFT on mirror node"),
        over_getD_map over_toString, true_and, and_true, truthy_eq_some htoken,
        Option.toList_some, allWinAnsi_cons, allWinAnsi_nil, Option.isSome_some, forall_const]

/-- A word that can be encoded leaves lines that can be. -/
theorem wrapWord_winAnsi {font : StandardFont} {size : ℕ} {maxWidth : ℚ}
    {acc : List String × String} {word : String} (hacc : AllWinAnsi acc.1 ∧ Over WinAnsi acc.2)
    (hword : Over WinAnsi word) :
    AllWinAnsi (wrapWord font size maxWidth acc word).1 ∧
      Over WinAnsi (wrapWord font size maxWidth acc word).2 := by
  obtain ⟨lines, current⟩ := acc
  obtain ⟨hlines, hcurrent⟩ := hacc
  have hspace : Over WinAnsi " " := by decide
  have hcandidate : Over WinAnsi (if current ≠ "" then current ++ " " ++ word else word) := by
    split
    · exact (Over.append_iff _ _).2 ⟨(Over.append_iff _ _).2 ⟨hcurrent, hspace⟩, hword⟩
    · exact hword
  unfold wrapWord
  dsimp only
  by_cases hfull : maxWidth < font.widthOfTextAtSize
      (if current ≠ "" then current ++ " " ++ word else word) size ∧ current ≠ ""
  · rw [if_pos hfull]
    exact ⟨(allWinAnsi_append _ _).2 ⟨hlines, by simpa using hcurrent⟩, hword⟩
  · rw [if_neg hfull]
    exact ⟨hlines, hcandidate⟩

/-- The lines of a text that can be encoded can be encoded. -/
theorem allWinAnsi_wrap {text : String} (h : Over WinAnsi text) (font : StandardFont) (size : ℕ)
    (maxWidth : ℚ) : AllWinAnsi (wrap text font size maxWidth) := by
  let words := (splitRuns isWhiteSpace text.toList).map String.ofList
  have hwords : AllWinAnsi words := by
    intro word hword
    obtain ⟨cs, hcs, rfl⟩ := List.mem_map.1 hword
    exact (Over.ofList_iff cs).2 (Over.splitRuns h cs hcs)
  let Wrapped (acc : List String × String) : Prop := AllWinAnsi acc.1 ∧ Over WinAnsi acc.2
  have hfold : Wrapped (words.foldl (wrapWord font size maxWidth) ([], "")) :=
    List.foldlRecOn (motive := Wrapped) words _ ⟨allWinAnsi_nil, by decide⟩
      fun acc hacc word hword => wrapWord_winAnsi hacc (hwords word hword)
  obtain ⟨hlines, hcurrent⟩ := hfold
  show AllWinAnsi (if (words.foldl (wrapWord font size maxWidth) ([], "")).2 ≠ "" then _ else _)
  split
  · exact (allWinAnsi_append _ _).2 ⟨hlines, by simpa using hcurrent⟩
  · exact hlines

theorem drawable_paragraph {text : String} (h : Over WinAnsi text) :
    Drawable (paragraph pdf text) := by
  intro draw hdraw
  obtain ⟨line, hline, rfl⟩ := List.mem_map.1 hdraw
  exact allWinAnsi_wrap h _ _ _ line hline

/-- The page can be drawn exactly if each text of the notice can be encoded. -/
theorem drawable_certificatePage_iff (now : Instant) :
    Drawable (certificatePage pdf data now) ↔ AllWinAnsi data.texts := by
  have hparagraph : Over WinAnsi
      ("This certificate facilitates service of process and provides court-ready " ++
        "proof of on-chain delivery. It does not itself effect valid legal service.") :=
    (Over.append_iff _ _).2 ⟨by decide +kernel, by decide +kernel⟩
  have hheading : Drawable (heading pdf "EPS NOTICE CERTIFICATE") :=
    drawable_sectionTitle (by decide)
  have hfooter : Drawable (footer pdf ("Certificate generated " ++ formatUtc now)) := by
    have htext : Over WinAnsi ("Certificate generated " ++ formatUtc now) :=
      (Over.append_iff _ _).2 ⟨by decide, over_formatUtc now⟩
    exact List.forall_mem_singleton.2 htext
  have hsections : Drawable (certificatePage pdf data now) ↔
      Drawable (caseSection pdf data ++ documentSection pdf data ++ proofSection pdf data ++
        viewSection pdf data ++ hcsSection pdf data ++ htsSection pdf data) := by
    have hends : Drawable (heading pdf "EPS NOTICE CERTIFICATE" ++ paragraph pdf _) :=
      (drawable_append _ _).2 ⟨hheading, drawable_paragraph hparagraph⟩
    unfold certificatePage
    rw [drawable_append, and_iff_left hfooter]
    generalize heading pdf _ ++ paragraph pdf _ = opening at hends ⊢
    simp only [drawable_append, and_iff_right hends]
  rw [hsections]
  simp only [drawable_append, drawable_caseSection_iff, drawable_documentSection_iff,
    drawable_proofSection_iff, drawable_viewSection_iff, drawable_hcsSection_iff,
    drawable_htsSection_iff, CertificateData.texts, allWinAnsi_append, allWinAnsi_ite_iff]
  constructor
  · rintro ⟨⟨⟨⟨⟨⟨htoken, hcase⟩, -, hhash⟩, hproof⟩, hview⟩, hhcs⟩, hhts⟩
    exact ⟨⟨⟨⟨⟨⟨hcase, htoken⟩, hhash⟩, hproof⟩, hview⟩, hhcs⟩, hhts⟩
  · rintro ⟨⟨⟨⟨⟨⟨hcase, htoken⟩, hhash⟩, hproof⟩, hview⟩, hhcs⟩, hhts⟩
    exact ⟨⟨⟨⟨⟨⟨htoken, hcase⟩, htoken, hhash⟩, hproof⟩, hview⟩, hhcs⟩, hhts⟩

end Drawable

theorem forM_eq_ok_iff {α : Type} {f : α → Except Failure Unit} {l : List α} :
    l.forM f = .ok () ↔ ∀ a ∈ l, f a = .ok () := by
  induction l with
  | nil => exact iff_of_true rfl (by simp)
  | cons a l ih =>
      have hcons : (a :: l).forM f = f a >>= fun _ => l.forM f := rfl
      rw [hcons, List.forall_mem_cons, ← ih]
      cases f a with
      | error e => simp [bind, Except.bind]
      | ok _ => simp [bind, Except.bind]

/-- The renderer returns a document exactly if it can draw the page. -/
theorem renderCertificatePdf_eq_ok_iff {pdf : PdfLib} {data : CertificateData} {now : Instant} :
    (∃ bytes, renderCertificatePdf pdf data now = .ok bytes) ↔ AllWinAnsi data.texts := by
  have hpage : Drawable (certificatePage pdf data now) ↔ AllWinAnsi data.texts :=
    drawable_certificatePage_iff now
  rw [← hpage]
  have hdraw : (certificatePage pdf data now).forM (fun draw => draw.font.drawText draw.text) =
      .ok () ↔ Drawable (certificatePage pdf data now) := by
    simp only [forM_eq_ok_iff, StandardFont.drawText_eq_ok_iff, Drawable]
  rw [← hdraw, renderCertificatePdf]
  cases (certificatePage pdf data now).forM fun draw => draw.font.drawText draw.text with
  | error e => simp [bind, Except.bind]
  | ok _ => simp [bind, Except.bind, pure, Except.pure]

/-! ## The download -/

/-- The answers to a caller who is not throttled: the statements succeed, and the renderer
draws with `pdf`. -/
def certificateAnswers (pdf : PdfLib) : Answers readSig Failure Db := fun db c db' r =>
  c.Exec db db' r ∧ match c, r with
    | .rateLimit _, r => r = .ok none
    | .renderCertificatePdf data, r => ∃ now, r = renderCertificatePdf pdf data now
    | _, _ => True

/-- The response is the PDF, and not that there is no such notice. -/
def AnswersPdf (result : Except Failure (RouteResponse (List UInt8))) : Prop :=
  (∃ bytes, result = .ok (.ok bytes)) ∧ result ≠ .ok (.error 404 "Notice not found")

/-- The certificate of the notice has been stored, or each text of the notice that it shows can
be encoded. -/
def Db.Certifiable (db : Db) (notice : ServiceRequest) : Prop :=
  (db.certificatePdfs.get? notice.id).isSome ∨
    AllWinAnsi (certificateData notice (db.certificateAddenda.get? notice.id)).texts

/-- The intake can store the texts of the notice. -/
def ServiceRequest.Admissible (notice : ServiceRequest) : Prop :=
  ∃ body input, ServiceRequestInput.safeParse body = .ok input ∧
    notice.caseCaption = input.caseCaption ∧ notice.plaintiffName = input.plaintiffName ∧
    notice.defendantName = input.defendantName

section Download

variable {pdf : PdfLib} {db : Db} {notice : ServiceRequest}

theorem generateCertificatePdf_returns_iff (hnotice : db.request? notice.id = some notice) :
    (generateCertificatePdf notice.id).wp (certificateAnswers pdf) (fun _ _ => True)
      (fun r db' => db' = db ∧ ((∃ bytes, r = .ok bytes) ↔
        AllWinAnsi (certificateData notice (db.certificateAddenda.get? notice.id)).texts)) db := by
  refine (Program.wp_bind _ _ _ _).2 ((Program.wp_perform _ _ _).2 ⟨trivial, ?_⟩)
  rintro db' r ⟨⟨rfl, hr⟩, -⟩
  rw [hnotice] at hr
  obtain rfl := hr
  refine (Program.wp_perform _ _ _).2 ⟨trivial, ?_⟩
  rintro db'' r ⟨hdb, now, rfl⟩
  exact ⟨hdb, renderCertificatePdf_eq_ok_iff⟩

theorem getOrCreateCertificatePdf_returns_iff (hnotice : db.request? notice.id = some notice) :
    (getOrCreateCertificatePdf notice.id).wp (certificateAnswers pdf) (fun _ _ => True)
      (fun r _ => (∃ bytes, r = .ok bytes) ↔ db.Certifiable notice) db := by
  refine (Program.wp_bind _ _ _ _).2 ((Program.wp_perform _ _ _).2 ⟨trivial, ?_⟩)
  rintro db' r ⟨⟨rfl, rfl⟩, -⟩
  cases hstored : db'.certificatePdfs.get? notice.id with
  | some copy => exact iff_of_true ⟨_, rfl⟩ (Or.inl (by simp [hstored]))
  | none =>
      have hcertifiable : db'.Certifiable notice ↔
          AllWinAnsi (certificateData notice (db'.certificateAddenda.get? notice.id)).texts := by
        simp [Db.Certifiable, hstored]
      rw [hcertifiable]
      refine Program.wp_seq (generateCertificatePdf_returns_iff hnotice) ?_ ?_
      · rintro bytes db₁ ⟨-, hreturns⟩
        refine Program.wp_post (Q := fun r _ => ∃ bytes, r = .ok bytes) _
          (fun r _ h => iff_of_true h (hreturns.1 ⟨bytes, rfl⟩)) ?_
        -- A write that comes too late is followed by a read.
        refine Program.wp_seq (R := fun r _ => ∃ row, r = .ok row) ?_ ?_ ?_
        · refine Program.wp_catch (R := fun r _ => ∀ row, r = .ok row → row = none) ?_ ?_ ?_
          · refine (Program.wp_bind _ _ _ _).2 ((Program.wp_perform _ _ _).2 ⟨trivial, ?_⟩)
            rintro _ (e | _) -
            · exact fun _ h => by cases h
            · exact fun _ h => (Except.ok.inj h).symm
          · exact fun row _ _ => ⟨row, rfl⟩
          · refine fun _ _ _ => (Program.wp_perform _ _ _).2 ⟨trivial, ?_⟩
            rintro _ r ⟨⟨-, hr⟩, -⟩
            exact ⟨_, hr⟩
        · rintro (_ | pdfBase64) _ _
          · exact ⟨_, rfl⟩
          · exact ⟨_, rfl⟩
        · rintro e _ ⟨row, h⟩
          cases h
      · rintro e _ ⟨-, hreturns⟩
        exact hreturns

/-- A download by a member of an organization comes to the certificate, or to a notice that is
not found. -/
theorem getCertificate_wp (hnotice : db.request? notice.id = some notice) {session : Session}
    {auth : AuthContext} (hauth : requireAuth session = .ok auth) (ip : String) :
    (getCertificate ip notice.id session).wp (certificateAnswers pdf) (fun _ _ => True)
      (fun r _ => (db.Certifiable notice ∧ ∃ bytes, r = .ok (.ok bytes)) ∨
        (¬ db.Certifiable notice ∧ r = .ok (.error 404 "Notice not found"))) db := by
  refine (Program.wp_bind _ _ _ _).2 ((Program.wp_perform _ _ _).2 ⟨trivial, ?_⟩)
  rintro db' r ⟨⟨rfl, -⟩, rfl⟩
  dsimp only
  rw [hauth]
  refine (Program.wp_tryCatch _ _ _ _).2 ((Program.wp_map _ _ _ _).2 ?_)
  refine Program.wp_post _ ?_ (getOrCreateCertificatePdf_returns_iff hnotice)
  rintro (e | bytes) _ h
  · refine Or.inr ⟨fun hcertifiable => ?_, rfl⟩
    obtain ⟨bytes, hbytes⟩ := h.2 hcertifiable
    cases hbytes
  · exact Or.inl ⟨h.1 ⟨bytes, rfl⟩, bytes, rfl⟩

/-- A download answers with the certificate exactly if it has been stored, or each text of the
notice that it shows can be encoded. -/
theorem answersPdf_iff_certifiable {db' : Db} {noticeId ip : String} {session : Session}
    {auth : AuthContext} {result : Except Failure (RouteResponse (List UInt8))}
    (hnotice : db.request? noticeId = some notice) (hauth : requireAuth session = .ok auth)
    (hrun : (getCertificate ip noticeId session).Runs (certificateAnswers pdf) db db' result) :
    AnswersPdf result ↔ db.Certifiable notice := by
  obtain rfl : notice.id = noticeId := db.request?_id hnotice
  rcases Program.wp_runs _ (getCertificate_wp hnotice hauth ip) hrun with
    ⟨hcertifiable, bytes, rfl⟩ | ⟨huncertifiable, rfl⟩
  · exact iff_of_true ⟨⟨bytes, rfl⟩, fun h => by cases h⟩ hcertifiable
  · exact iff_of_false (fun h => h.2 rfl) huncertifiable

end Download

section Example

/-! ### A caption in Chinese -/

/-- A font that draws the texts of `WinAnsi`. -/
def plainFont : StandardFont where
  widthOfTextAtSize text size := text.length * size
  drawText text :=
    if Over WinAnsi text then .ok () else .error (.error "WinAnsi cannot encode the text")
  drawText_eq_ok_iff text := by
    by_cases h : Over WinAnsi text
    · simp [h]
    · simp [h]

def plainPdf : PdfLib where
  font := plainFont
  bold := plainFont
  save texts := texts.map fun text => text.length.toUInt8

/-- The notice of a case, as it is staged. -/
def captioned (caption plaintiff defendant : String) : ServiceRequest :=
  { exampleFiling with
    caseCaption := caption, plaintiffName := plaintiff, defendantName := defendant }.row "sr-1"
    (some "org-1") 0

/-- The database with a notice of the organization `clerk-1`. -/
def singleNotice (notice : ServiceRequest) : Db where
  organizations := Table.empty.insert ⟨"org-1", "clerk-1", "A", none, 0⟩ (Table.get?_empty "org-1")
  serviceRequests := Table.empty.insert notice rfl

def memberSession : Session := ⟨some "user-1", some "clerk-1", false⟩

/-- A body with the texts of a case. -/
def captionedBody (caption plaintiff defendant : String) : Json :=
  .object [("caseCaption", .string caption), ("plaintiffName", .string plaintiff),
    ("defendantName", .string defendant), ("recipientWallet", .string systemProgramAddress),
    ("attested", .bool true)]

def chineseNotice : ServiceRequest := captioned "王 v. 李" "王" "李"

theorem chineseNotice_admissible : chineseNotice.Admissible :=
  ⟨captionedBody "王 v. 李" "王" "李", ⟨"王 v. 李", "王", "李", systemProgramAddress, none, none, false⟩,
    by decide, rfl, rfl, rfl⟩

theorem chineseNotice_not_certifiable : ¬ (singleNotice chineseNotice).Certifiable chineseNotice := by
  rintro (h | h)
  · cases h
  · have hcaption : Over WinAnsi "王 v. 李" := h _ List.mem_cons_self
    revert hcaption
    decide

section Answers

variable (caption plaintiff defendant : String)

theorem caption_unthrottled (db : Db) (ip : String) :
    certificateAnswers plainPdf db (.rateLimit ip) db (.ok none) := ⟨⟨rfl, none, rfl⟩, rfl⟩

theorem caption_unstored :
    certificateAnswers plainPdf (singleNotice (captioned caption plaintiff defendant))
      (.certificatePdfFindUnique "sr-1") (singleNotice (captioned caption plaintiff defendant))
      (.ok none) := ⟨⟨rfl, rfl⟩, trivial⟩

theorem caption_read :
    certificateAnswers plainPdf (singleNotice (captioned caption plaintiff defendant))
      (.noticeFindUnique "sr-1") (singleNotice (captioned caption plaintiff defendant))
      (.ok (some (captioned caption plaintiff defendant, none))) := ⟨⟨rfl, rfl⟩, trivial⟩

end Answers

/-- The certificate of a notice with a Chinese caption is not found, although its organization
asks for it. -/
theorem not_answersPdf_of_chineseCaption :
    ¬ ∀ (pdf : PdfLib) (db db' : Db) (notice : ServiceRequest) (ip : String) (session : Session)
      (auth : AuthContext) (result : Except Failure (RouteResponse (List UInt8))),
      notice.Admissible → db.request? notice.id = some notice →
      requireAuth session = .ok auth → db.clerkOrgOf notice = some auth.orgId →
      (getCertificate ip notice.id session).Runs (certificateAnswers pdf) db db' result →
      AnswersPdf result := by
  intro h
  have hpage : ¬ ∃ bytes, renderCertificatePdf plainPdf (certificateData chineseNotice none) 0 =
      .ok bytes := by
    rw [renderCertificatePdf_eq_ok_iff]
    exact fun h => chineseNotice_not_certifiable (Or.inr h)
  have hrun : (getCertificate "203.0.113.7" chineseNotice.id memberSession).Runs
      (certificateAnswers plainPdf) (singleNotice chineseNotice) (singleNotice chineseNotice)
      (.ok (.error 404 "Notice not found")) := by
    cases hrender : renderCertificatePdf plainPdf (certificateData chineseNotice none) 0 with
    | ok bytes => exact absurd ⟨bytes, hrender⟩ hpage
    | error e =>
        have hthrows : certificateAnswers plainPdf (singleNotice chineseNotice)
            (.renderCertificatePdf (certificateData chineseNotice none)) (singleNotice chineseNotice)
            (.error e) := ⟨rfl, 0, hrender.symm⟩
        refine .call (caption_unthrottled _ _) <| .call (caption_unstored _ _ _) <|
          .call (caption_read _ _ _) <| .call hthrows ?_
        exact ⟨rfl, rfl⟩
  exact (h plainPdf _ _ chineseNotice _ memberSession _ _ chineseNotice_admissible rfl rfl rfl
    hrun).2 rfl

/-- The certificate of a notice in ASCII is drawn, stored, and answered with. -/
theorem answersPdf_of_asciiCaption :
    ∃ db' result, (getCertificate "203.0.113.7" "sr-1" memberSession).Runs
      (certificateAnswers plainPdf) (singleNotice (captioned "A v. B" "A" "B")) db' result ∧
        AnswersPdf result := by
  let notice := captioned "A v. B" "A" "B"
  have hcertifiable : (singleNotice notice).Certifiable notice :=
    Or.inr (by decide : ∀ text ∈ (certificateData notice none).texts, Over WinAnsi text)
  obtain ⟨bytes, hrender⟩ : ∃ bytes,
      renderCertificatePdf plainPdf (certificateData notice none) 0 = .ok bytes :=
    renderCertificatePdf_eq_ok_iff.2 (hcertifiable.resolve_left (by decide))
  let pdfBase64 := String.ofList (base64Encode bytes)
  let stored : Db := { singleNotice notice with
    certificatePdfs := Table.empty.insert ⟨"pdf-1", "sr-1", pdfBase64, 0⟩ rfl }
  have hdraws : certificateAnswers plainPdf (singleNotice notice)
      (.renderCertificatePdf (certificateData notice none)) (singleNotice notice) (.ok bytes) :=
    ⟨rfl, 0, hrender.symm⟩
  have hstores : certificateAnswers plainPdf (singleNotice notice)
      (.certificatePdfCreate "sr-1" pdfBase64) stored (.ok ()) :=
    ⟨Or.inl ⟨"pdf-1", 0, rfl, rfl, rfl⟩, trivial⟩
  have hrun : (getCertificate "203.0.113.7" "sr-1" memberSession).Runs
      (certificateAnswers plainPdf) (singleNotice notice) stored (.ok (.ok bytes)) := by
    refine .call (caption_unthrottled _ _) <| .call (caption_unstored _ _ _) <|
      .call (caption_read _ _ _) <| .call hdraws <| .call hstores ?_
    exact ⟨rfl, rfl⟩
  exact ⟨stored, _, hrun, (answersPdf_iff_certifiable rfl rfl hrun).2 hcertifiable⟩

end Example

end EpsDapp
