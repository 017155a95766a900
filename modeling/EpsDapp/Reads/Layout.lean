import EpsDapp.Reads.Rendering
import EpsDapp.Text.Lines
import Mathlib.Tactic.Ring

/-!
# The layout of a certificate

A certificate is one page. `LineWriter` draws it from the top down, with a cursor
that only ever descends, and wraps one paragraph. The lines of that paragraph are
the greedy ones, so two in a row are together longer than a line; this bounds their
number, and every certificate, whatever sections it has, ends above its footer. Values are
not wrapped: one that is too long runs off the page on the right, and nothing else does.
-/

set_option autoImplicit false

namespace EpsDapp

/-! ## Wrapped text -/

/-- The words of a text. -/
def words (text : String) : List String := (runs isWhiteSpace text.toList).map String.ofList

/-- Words on one line. -/
def lineText : List String → String
  | [] => ""
  | w :: ws => ws.foldl (fun line word => line ++ " " ++ word) w

section Words

theorem lineText_concat {line : List String} (hne : line ≠ []) (w : String) :
    lineText (line ++ [w]) = lineText line ++ " " ++ w := by
  cases line with
  | nil => exact absurd rfl hne
  | cons v line => simp [lineText]

/-- A word is not empty, and has no white space in it. -/
def IsWord (w : String) : Prop := w ≠ "" ∧ ∀ c ∈ w.toList, isWhiteSpace c = false

theorem isWord_of_mem_words {text w : String} (h : w ∈ words text) : IsWord w := by
  obtain ⟨run, hrun, rfl⟩ := List.mem_map.1 h
  obtain ⟨hne, hspace⟩ := of_mem_runs hrun
  refine ⟨fun hempty => hne ?_, by simpa using hspace⟩
  simpa using congrArg String.toList hempty

theorem words_append_space (s t : String) : words (s ++ " " ++ t) = words s ++ words t := by
  have hlist : (s ++ " " ++ t).toList = s.toList ++ ' ' :: t.toList := by simp
  rw [words, hlist, runs_append (by decide), List.map_append, words, words]

theorem words_of_isWord {w : String} (h : IsWord w) : words w = [w] := by
  have hne : w.toList ≠ [] := fun hnil => h.1 (String.toList_inj.1 (by simpa using hnil))
  rw [words, runs_of_forall_not h.2, if_neg hne, List.map_singleton, String.ofList_toList]

theorem words_lineText {line : List String} (h : ∀ w ∈ line, IsWord w) :
    words (lineText line) = line := by
  induction line using List.reverseRecOn with
  | nil => rfl
  | append_singleton line w ih =>
      obtain ⟨hline, hw⟩ := List.forall_mem_append.1 h
      have hw := words_of_isWord (hw w List.mem_cons_self)
      by_cases hne : line = []
      · subst hne
        exact hw
      · rw [lineText_concat hne, words_append_space, ih hline, hw]

theorem lineText_ne_empty {line : List String} (hne : line ≠ []) (h : ∀ w ∈ line, IsWord w) :
    lineText line ≠ "" := by
  intro hempty
  have hline := words_lineText h
  rw [hempty] at hline
  exact hne hline.symm

end Words

/-- The words fit on a line. -/
def FitsLine (font : StandardFont) (size : ℕ) (maxWidth : ℚ) (line : List String) : Prop :=
  font.widthOfTextAtSize (lineText line) size ≤ maxWidth

instance (font : StandardFont) (size : ℕ) (maxWidth : ℚ) :
    DecidablePred (FitsLine font size maxWidth) := fun line => by
  unfold FitsLine
  infer_instance

/-- The greedy lines of a text. -/
def greedyLines (text : String) (font : StandardFont) (size : ℕ) (maxWidth : ℚ) :
    List (List String) :=
  pack (FitsLine font size maxWidth) (words text)

section Wrap

variable {font : StandardFont} {size : ℕ} {maxWidth : ℚ}

/-- What `wrap` does with words after a line is begun. -/
theorem foldl_wrapWord {line ws : List String} (hne : line ≠ []) (hline : ∀ w ∈ line, IsWord w)
    (hws : ∀ w ∈ ws, IsWord w) (full : List String) : ∃ front last,
      last ≠ [] ∧ (∀ w ∈ last, IsWord w) ∧
      packFrom (FitsLine font size maxWidth) line ws = front ++ [last] ∧
      ws.foldl (wrapWord font size maxWidth) (full, lineText line) =
        (full ++ front.map lineText, lineText last) := by
  induction ws generalizing line full with
  | nil => exact ⟨[], line, hne, hline, rfl, by simp⟩
  | cons w ws ih =>
      obtain ⟨hw, hws⟩ := List.forall_mem_cons.1 hws
      have hcurrent : lineText line ≠ "" := lineText_ne_empty hne hline
      rw [packFrom, List.foldl_cons, wrapWord]
      simp only [ne_eq, hcurrent, not_false_eq_true, if_true, and_true, ← lineText_concat hne]
      by_cases hfits : FitsLine font size maxWidth (line ++ [w])
      · rw [if_pos hfits, if_neg (not_lt.2 hfits)]
        exact ih (by simp) (List.forall_mem_append.2 ⟨hline, by simpa using hw⟩) hws full
      · rw [if_neg hfits, if_pos (not_le.1 hfits)]
        obtain ⟨front, last, hlast, hwords, hpack, hfold⟩ :=
          ih (List.cons_ne_nil w []) (by simpa using hw) hws (full ++ [lineText line])
        refine ⟨line :: front, last, hlast, hwords, by rw [hpack, List.cons_append], ?_⟩
        have hword : lineText [w] = w := rfl
        rw [hword] at hfold
        simpa using hfold

variable (font size maxWidth) in
/-- `wrap` breaks a text into the greedy lines, the last of which may keep a space that the
text ends with. -/
theorem wrap_eq (text : String) :
    wrap text font size maxWidth = (greedyLines text font size maxWidth).map lineText ∨
      ∃ front last, greedyLines text font size maxWidth = front ++ [last] ∧
        wrap text font size maxWidth = front.map lineText ++ [lineText last ++ " "] ∧
        font.widthOfTextAtSize (lineText last ++ " ") size ≤ maxWidth := by
  obtain ⟨closing, hclosing, hsplit⟩ := @splitRuns_eq isWhiteSpace text.toList
  -- An empty word at the beginning leaves nothing on the first line.
  have hopening : ∀ ws : List String,
      ((opening isWhiteSpace text.toList).map String.ofList ++ ws).foldl
        (wrapWord font size maxWidth) ([], "") =
          ws.foldl (wrapWord font size maxWidth) ([], "") := by
    intro ws
    rw [opening]
    split
    · simp [wrapWord]
    · rfl
  have hwords : ∀ w ∈ words text, IsWord w := fun w hw => isWord_of_mem_words hw
  have hfold : ((splitRuns isWhiteSpace text.toList).map String.ofList).foldl
      (wrapWord font size maxWidth) ([], "") = (closing.map String.ofList).foldl
        (wrapWord font size maxWidth)
        ((words text).foldl (wrapWord font size maxWidth) ([], "")) := by
    rw [hsplit, List.map_append, List.map_append, List.append_assoc, hopening, List.foldl_append,
      words]
  simp only [wrap, hfold, greedyLines]
  generalize words text = ws at hwords ⊢
  cases ws with
  | nil => rcases hclosing with rfl | rfl <;> exact Or.inl (by simp [wrapWord, pack])
  | cons w ws =>
      obtain ⟨hw, hws⟩ := List.forall_mem_cons.1 hwords
      have hfirst : wrapWord font size maxWidth ([], "") w = ([], lineText [w]) := by
        simp [wrapWord, lineText]
      obtain ⟨front, last, hlast, hlastwords, hpack, hline⟩ :=
        @foldl_wrapWord font size maxWidth [w] ws (by simp) (by simpa using hw) hws []
      have hcurrent : lineText last ≠ "" := lineText_ne_empty hlast hlastwords
      rw [List.foldl_cons, hfirst, hline, List.nil_append, pack, hpack]
      rcases hclosing with rfl | rfl
      · exact Or.inl (by simp [hcurrent])
      · by_cases hwide : maxWidth < font.widthOfTextAtSize (lineText last ++ " ") size
        · exact Or.inl (by simp [wrapWord, hcurrent, hwide])
        · refine Or.inr ⟨front, last, rfl, ?_, not_lt.1 hwide⟩
          simp [wrapWord, hcurrent, hwide]

/-- Another word makes a line no narrower. -/
structure StandardFont.Widens (font : StandardFont) (size : ℕ) : Prop where
  left : ∀ w line, line ≠ [] → font.widthOfTextAtSize (lineText line) size ≤
    font.widthOfTextAtSize (lineText (w :: line)) size
  right : ∀ line w, line ≠ [] → font.widthOfTextAtSize (lineText line) size ≤
    font.widthOfTextAtSize (lineText (line ++ [w])) size

theorem StandardFont.Widens.closedUnderCuts (h : font.Widens size) :
    ClosedUnderCuts (FitsLine font size maxWidth) where
  left w line hne hfits := (h.left w line hne).trans hfits
  right line w hne hfits := (h.right line w hne).trans hfits

theorem length_wrap (text : String) :
    (wrap text font size maxWidth).length = (greedyLines text font size maxWidth).length := by
  rcases wrap_eq font size maxWidth text with
    h | ⟨front, last, hlines, h, -⟩
  · rw [h, List.length_map]
  · rw [h, hlines]
    simp

theorem isWord_of_mem_greedyLines {text : String} {line : List String}
    (h : line ∈ greedyLines text font size maxWidth) : ∀ w ∈ line, IsWord w := by
  intro w hw
  have hmem : w ∈ (greedyLines text font size maxWidth).flatten := List.mem_flatten.2 ⟨line, h, hw⟩
  rw [greedyLines, (breaks_pack (words text)).flatten] at hmem
  exact isWord_of_mem_words hmem

theorem words_lineText_of_mem {text : String} {line : List String}
    (h : line ∈ greedyLines text font size maxWidth) : words (lineText line) = line :=
  words_lineText (isWord_of_mem_greedyLines h)

theorem flatMap_words_map {lines : List (List String)}
    (h : ∀ line ∈ lines, words (lineText line) = line) :
    (lines.map lineText).flatMap words = lines.flatten := by
  rw [List.flatMap_map, List.flatMap_def, List.map_congr_left h, List.map_id']

/-- No character of the font is wider than 1.1 times its size. -/
def StandardFont.Narrow (font : StandardFont) (size : ℕ) : Prop :=
  ∀ text, font.widthOfTextAtSize text size ≤ 11 / 10 * size * text.toList.length

/-- The characters of the words, and a space for each of them. -/
def spacedLength (line : List String) : ℕ := (line.map fun w => w.toList.length + 1).sum

theorem length_lineText_le (line : List String) :
    (lineText line).toList.length ≤ spacedLength line := by
  induction line using List.reverseRecOn with
  | nil => exact le_rfl
  | append_singleton line w ih =>
      by_cases hne : line = []
      · subst hne
        simp [lineText, spacedLength]
      · have hspace : " ".toList.length = 1 := rfl
        rw [lineText_concat hne]
        simp only [spacedLength, String.toList_append, List.length_append, List.map_append,
          List.sum_append, List.map_singleton, List.sum_singleton] at ih ⊢
        omega

/-- In a narrow font, the lines are at most twice as many as the characters would fill. -/
theorem length_wrap_mul_le (hfont : font.Narrow size) (hwidth : 0 ≤ maxWidth) (text : String) :
    (((wrap text font size maxWidth).length : ℚ) - 1) * maxWidth ≤
      2 * (11 / 10 * size * spacedLength (words text)) := by
  let wordSize (w : String) : ℚ := 11 / 10 * size * ((w.toList.length + 1 : ℕ) : ℚ)
  have hsize : ∀ w, 0 ≤ wordSize w := fun w => by positivity
  have hsum : ∀ line : List String,
      (line.map wordSize).sum = 11 / 10 * size * spacedLength line := by
    intro line
    induction line with
    | nil => simp [spacedLength]
    | cons w line ih =>
        rw [List.map_cons, List.sum_cons, ih, spacedLength, spacedLength, List.map_cons,
          List.sum_cons, Nat.cast_add, mul_add]
  have hfits : ∀ line, (line.map wordSize).sum ≤ maxWidth → FitsLine font size maxWidth line := by
    intro line hline
    have hlength : ((lineText line).toList.length : ℚ) ≤ spacedLength line := by
      exact_mod_cast length_lineText_le line
    calc font.widthOfTextAtSize (lineText line) size
        ≤ 11 / 10 * size * (lineText line).toList.length := hfont _
      _ ≤ 11 / 10 * size * spacedLength line := mul_le_mul_of_nonneg_left hlength (by positivity)
      _ ≤ maxWidth := hsum line ▸ hline
  rw [length_wrap, greedyLines, ← hsum]
  exact length_pack_mul_le hwidth hsize hfits (words text)

/-- The lines hold the words of the text in their order. -/
theorem flatMap_words_wrap (text : String) :
    (wrap text font size maxWidth).flatMap words = words text := by
  have hwords : ∀ line ∈ greedyLines text font size maxWidth, words (lineText line) = line :=
    fun _ => words_lineText_of_mem
  have hflatten : (greedyLines text font size maxWidth).flatten = words text :=
    (breaks_pack (words text)).flatten
  rcases wrap_eq font size maxWidth text with
    h | ⟨front, last, hlines, h, -⟩
  · rw [h, flatMap_words_map hwords, hflatten]
  · rw [hlines] at hwords hflatten
    obtain ⟨hfront, hlast⟩ := List.forall_mem_append.1 hwords
    have hspace : words (lineText last ++ " ") = last := by
      rw [← String.append_empty (s := lineText last ++ " "), words_append_space,
        hlast last List.mem_cons_self]
      exact List.append_nil last
    rw [h, List.flatMap_append, flatMap_words_map hfront, List.flatMap_singleton, hspace,
      ← hflatten, List.flatten_concat]

/-- Each line fits, or is a single word. -/
theorem fits_of_mem_wrap {text line : String} (h : line ∈ wrap text font size maxWidth) :
    font.widthOfTextAtSize line size ≤ maxWidth ∨ (words line).length = 1 := by
  have hfits : ∀ ws ∈ greedyLines text font size maxWidth,
      font.widthOfTextAtSize (lineText ws) size ≤ maxWidth ∨ (words (lineText ws)).length = 1 := by
    intro ws hws
    rw [words_lineText_of_mem hws]
    exact (breaks_pack (words text)).fits ws hws
  rcases wrap_eq font size maxWidth text with
    heq | ⟨front, last, hlines, heq, hwide⟩
  · rw [heq] at h
    obtain ⟨ws, hws, rfl⟩ := List.mem_map.1 h
    exact hfits ws hws
  · rw [heq] at h
    rcases List.mem_append.1 h with h | h
    · obtain ⟨ws, hws, rfl⟩ := List.mem_map.1 h
      exact hfits ws (hlines ▸ List.mem_append_left _ hws)
    · obtain rfl := List.mem_singleton.1 h
      exact Or.inl hwide

/-- When each word fits on a line, so does each line. -/
theorem fits_of_mem_wrap_of_words {text line : String}
    (hwords : ∀ w ∈ words text, font.widthOfTextAtSize w size ≤ maxWidth)
    (h : line ∈ wrap text font size maxWidth) : font.widthOfTextAtSize line size ≤ maxWidth := by
  have hfits : ∀ ws ∈ greedyLines text font size maxWidth, FitsLine font size maxWidth ws := by
    intro ws hws
    rcases (breaks_pack (words text)).fits ws hws with hfits | hone
    · exact hfits
    · obtain ⟨w, rfl⟩ := List.length_eq_one_iff.1 hone
      have hmem : w ∈ (greedyLines text font size maxWidth).flatten :=
        List.mem_flatten.2 ⟨[w], hws, List.mem_singleton_self w⟩
      rw [greedyLines, (breaks_pack (words text)).flatten] at hmem
      exact hwords w hmem
  rcases wrap_eq font size maxWidth text with heq | ⟨front, last, hlines, heq, hwide⟩
  · rw [heq] at h
    obtain ⟨ws, hws, rfl⟩ := List.mem_map.1 h
    exact hfits ws hws
  · rw [heq] at h
    rcases List.mem_append.1 h with h | h
    · obtain ⟨ws, hws, rfl⟩ := List.mem_map.1 h
      exact hfits ws (hlines ▸ List.mem_append_left _ hws)
    · obtain rfl := List.mem_singleton.1 h
      exact hwide

/-- `wrap` breaks a text into lines that hold its words in their order, and that fit or are
single words, and there is no way of doing so with fewer lines. -/
theorem wrap_breaks_fewest (hfont : font.Widens size) (text : String) :
    (wrap text font size maxWidth).flatMap words = words text ∧
      (∀ line ∈ wrap text font size maxWidth,
        font.widthOfTextAtSize line size ≤ maxWidth ∨ (words line).length = 1) ∧
      ∀ lines, Breaks (FitsLine font size maxWidth) (words text) lines →
        (wrap text font size maxWidth).length ≤ lines.length := by
  refine ⟨flatMap_words_wrap text, fun _ => fits_of_mem_wrap, fun lines hlines => ?_⟩
  rw [length_wrap]
  exact length_pack_le hfont.closedUnderCuts hlines

end Wrap

/-- `plainFont` is wider with every word. -/
theorem plainFont_widens (size : ℕ) : plainFont.Widens size where
  left w line hne := by
    have hle : (lineText line).length ≤ (lineText (w :: line)).length := by
      induction line using List.reverseRecOn with
      | nil => exact absurd rfl hne
      | append_singleton line v ih =>
          by_cases hline : line = []
          · subst hline
            simp [lineText]
          · rw [lineText_concat hline, ← List.cons_append, lineText_concat (List.cons_ne_nil _ _)]
            have hrest := ih hline
            simp only [String.length_append]
            omega
    exact mul_le_mul_of_nonneg_right (by exact_mod_cast hle) (Nat.cast_nonneg size)
  right line w hne := by
    have hle : (lineText line).length ≤ (lineText (line ++ [w])).length := by
      rw [lineText_concat hne]
      simp only [String.length_append]
      omega
    exact mul_le_mul_of_nonneg_right (by exact_mod_cast hle) (Nat.cast_nonneg size)

theorem wrap_breaks_fewest_of_two_words :
    (wrap " one two" plainFont 1 5).flatMap words = words " one two" ∧
      (∀ line ∈ wrap " one two" plainFont 1 5,
        plainFont.widthOfTextAtSize line 1 ≤ 5 ∨ (words line).length = 1) ∧
      ∀ lines, Breaks (FitsLine plainFont 1 5) (words " one two") lines →
        (wrap " one two" plainFont 1 5).length ≤ lines.length :=
  wrap_breaks_fewest (plainFont_widens 1) " one two"

/-! ## The page -/

namespace Layout

/-- `A4_WIDTH` -/
def a4Width : ℚ := 595.28

/-- `A4_HEIGHT` -/
def a4Height : ℚ := 841.89

/-- `MARGIN` -/
def margin : ℚ := 56

/-- A call of `page.drawText` with its options: the font size, and where the text begins. -/
structure PlacedText extends DrawText where
  size : ℕ
  x : ℚ
  y : ℚ

/-- Where a text ends on the right. -/
def PlacedText.right (t : PlacedText) : ℚ := t.x + t.font.widthOfTextAtSize t.text t.size

/-- `LineWriter`: its cursor, and what it has drawn. -/
structure LineWriter where
  y : ℚ
  drawn : List PlacedText

namespace LineWriter

variable (pdf : PdfLib) (w : LineWriter)

/-- The constructor. -/
def new : LineWriter := ⟨a4Height - margin, []⟩

/-- Lower the cursor. -/
def lower (dy : ℚ) : LineWriter := { w with y := w.y - dy }

/-- `this.page.drawText` at the height of the cursor. -/
def draw (font : StandardFont) (size : ℕ) (x : ℚ) (text : String) : LineWriter :=
  { w with drawn := w.drawn ++ [⟨⟨font, text⟩, size, x, w.y⟩] }

def heading (text : String) : LineWriter :=
  ((w.lower 18).draw pdf.bold 18 margin text).lower 8

/-- `section` -/
def sectionTitle (text : String) : LineWriter :=
  ((w.lower 14).draw pdf.bold 12 margin text).lower 4

def field (label value : String) : LineWriter :=
  ((w.lower 16).draw pdf.bold 9 margin (label ++ ":")).draw pdf.font 9 (margin + 130) value

def link (label url : String) : LineWriter :=
  ((w.lower 16).draw pdf.bold 9 margin (label ++ ":")).draw pdf.font 9 (margin + 130) url

def paragraph (text : String) : LineWriter :=
  (wrap text pdf.font 9 (595.28 - 2 * 56)).foldl
    (fun w line => (w.lower 13).draw pdf.font 9 margin line) w

def gap : LineWriter := w.lower 8

def footer (text : String) : LineWriter :=
  { w with drawn := w.drawn ++ [⟨⟨pdf.font, text⟩, 8, margin, margin⟩] }

end LineWriter

/-- A call of a method that lowers the cursor. -/
inductive Call
  | heading (text : String)
  | sectionTitle (text : String)
  | field (label value : String)
  | link (label url : String)
  | paragraph (text : String)
  | gap

/-- The method is called. -/
def Call.run (pdf : PdfLib) (w : LineWriter) : Call → LineWriter
  | heading text => w.heading pdf text
  | sectionTitle text => w.sectionTitle pdf text
  | field label value => w.field pdf label value
  | link label url => w.link pdf label url
  | paragraph text => w.paragraph pdf text
  | gap => w.gap

section Sections

open Call

variable (pdf : PdfLib) (data : CertificateData)

/-- The paragraph of every certificate. -/
def preamble : String :=
  "This certificate facilitates service of process and provides court-ready " ++
    "proof of on-chain delivery. It does not itself effect valid legal service."

/-- What is written before the sections. -/
def openingCalls : List Call :=
  [heading "EPS NOTICE CERTIFICATE", gap, paragraph preamble, gap]

def caseCalls : List Call :=
  [sectionTitle "Case",
    field "Case reference" (data.noticeToken.getD "—"),
    field "Case title" data.caseCaption,
    field "Plaintiff" data.plaintiffName,
    field "Defendant" data.defendantName,
    field "Recipient wallet" data.recipientWallet, gap]

def documentCalls : List Call :=
  [sectionTitle "Served document",
    field "Filename" ("notice-" ++ data.noticeToken.getD "document" ++ ".pdf"),
    field "SHA-256" (data.documentSha256.getD "—"), gap]

def proofCalls : List Call :=
  sectionTitle "On-chain proof (Solana devnet)" ::
    (match truthy data.txSignature with
    | some signature =>
        [field "Transaction" signature, link "Explorer" (solscanTxUrl signature),
          field "Slot" ((data.slot.map Nat.repr).getD "—"),
          field "Block time (UTC)" ((data.blockTime.map formatUtc).getD "—")]
    | none => [field "Transaction" "Not yet confirmed on-chain"]) ++ [gap]

def viewCalls : List Call :=
  sectionTitle "First viewed" ::
    match data.firstViewedAt with
    | some viewedAt =>
        [field "Viewed at (UTC)" (formatUtc viewedAt),
          field "Viewer IP (masked)" (data.firstViewerIp.getD "—")]
    | none => [field "Status" "Not yet viewed"]

/-- A link, if its URL is truthy. -/
def optionalLinkCalls (label : String) (url : Option String) : List Call :=
  match truthy url with
  | some url => [link label url]
  | none => []

def hcsCalls : List Call :=
  match truthy data.hcsTopicId with
  | some topicId =>
      [gap, sectionTitle "Hedera Consensus Service Timestamp", field "Topic ID" topicId,
        field "Sequence number" ((data.hcsSequenceNumber.map toString).getD "—"),
        field "Consensus time (UTC)" (data.hcsConsensusTime.getD "—")] ++
        optionalLinkCalls "Verify on mirror node" data.hcsMirrorUrl
  | none => []

def htsCalls : List Call :=
  match truthy data.htsTokenId with
  | some tokenId =>
      [gap, sectionTitle "Hedera Proof of Service NFT", field "Token ID" tokenId,
        field "Serial number" ((data.htsSerialNumber.map toString).getD "—")] ++
        optionalLinkCalls "NFT on mirror node" data.htsMirrorUrl
  | none => []

/-- The calls of `renderCertificatePdf` before the footer. -/
def certificateCalls : List Call :=
  openingCalls ++ caseCalls data ++ documentCalls data ++ proofCalls data ++ viewCalls data ++
    hcsCalls data ++ htsCalls data

/-- What `renderCertificatePdf` draws, and where. -/
def certificateLayout (now : Calendar.Instant) : List PlacedText :=
  (((certificateCalls data).foldl (Call.run pdf) .new).footer pdf
    ("Certificate generated " ++ formatUtc now)).drawn

end Sections

section Texts

variable (pdf : PdfLib) (data : CertificateData)

/-- The texts that a call draws. -/
def Call.texts : Call → List DrawText
  | heading text => EpsDapp.LineWriter.heading pdf text
  | sectionTitle text => EpsDapp.LineWriter.sectionTitle pdf text
  | field label value => EpsDapp.LineWriter.field pdf label value
  | link label url => EpsDapp.LineWriter.link pdf label url
  | paragraph text => EpsDapp.LineWriter.paragraph pdf text
  | gap => []

/-- What has been drawn, without the places. -/
def LineWriter.texts (w : LineWriter) : List DrawText := w.drawn.map PlacedText.toDrawText

@[simp] theorem LineWriter.texts_lower (w : LineWriter) (dy : ℚ) : (w.lower dy).texts = w.texts :=
  rfl

@[simp] theorem LineWriter.texts_draw (w : LineWriter) (font : StandardFont) (size : ℕ) (x : ℚ)
    (text : String) : (w.draw font size x text).texts = w.texts ++ [⟨font, text⟩] := by
  simp [texts, draw]

theorem Call.texts_run (w : LineWriter) (call : Call) :
    (call.run pdf w).texts = w.texts ++ call.texts pdf := by
  cases call with
  | heading text => simp [run, LineWriter.heading, Call.texts, EpsDapp.LineWriter.heading]
  | sectionTitle text =>
      simp [run, LineWriter.sectionTitle, Call.texts, EpsDapp.LineWriter.sectionTitle]
  | field label value => simp [run, LineWriter.field, Call.texts, EpsDapp.LineWriter.field]
  | link label url => simp [run, LineWriter.link, Call.texts, EpsDapp.LineWriter.link]
  | gap => simp [run, LineWriter.gap, Call.texts]
  | paragraph text =>
      simp only [run, LineWriter.paragraph, Call.texts, EpsDapp.LineWriter.paragraph]
      generalize wrap text pdf.font 9 (595.28 - 2 * 56) = lines
      induction lines generalizing w with
      | nil => simp
      | cons line lines ih => simp [ih]

theorem Call.texts_foldl (calls : List Call) (w : LineWriter) :
    (calls.foldl (run pdf) w).texts = w.texts ++ calls.flatMap (Call.texts pdf) := by
  induction calls generalizing w with
  | nil => simp
  | cons call calls ih => simp [ih, texts_run]

theorem texts_caseCalls : (caseCalls data).flatMap (Call.texts pdf) = caseSection pdf data := by
  simp [caseCalls, caseSection, Call.texts]

theorem texts_documentCalls :
    (documentCalls data).flatMap (Call.texts pdf) = documentSection pdf data := by
  simp [documentCalls, documentSection, Call.texts]

theorem texts_proofCalls : (proofCalls data).flatMap (Call.texts pdf) = proofSection pdf data := by
  rw [proofCalls, proofSection]
  cases truthy data.txSignature with
  | none => simp [Call.texts]
  | some signature => simp [Call.texts]

theorem texts_viewCalls : (viewCalls data).flatMap (Call.texts pdf) = viewSection pdf data := by
  rw [viewCalls, viewSection]
  cases data.firstViewedAt with
  | none => simp [Call.texts]
  | some viewedAt => simp [Call.texts]

theorem texts_optionalLinkCalls (label : String) (url : Option String) :
    (optionalLinkCalls label url).flatMap (Call.texts pdf) = optionalLink pdf label url := by
  rw [optionalLinkCalls, optionalLink]
  cases truthy url with
  | none => rfl
  | some url => simp [Call.texts]

theorem texts_hcsCalls : (hcsCalls data).flatMap (Call.texts pdf) = hcsSection pdf data := by
  rw [hcsCalls, hcsSection]
  cases truthy data.hcsTopicId with
  | none => rfl
  | some topicId => simp [Call.texts, texts_optionalLinkCalls]

theorem texts_htsCalls : (htsCalls data).flatMap (Call.texts pdf) = htsSection pdf data := by
  rw [htsCalls, htsSection]
  cases truthy data.htsTokenId with
  | none => rfl
  | some tokenId => simp [Call.texts, texts_optionalLinkCalls]

/-- Without the places, the layout is the page. -/
theorem texts_certificateLayout (now : Calendar.Instant) :
    (certificateLayout pdf data now).map PlacedText.toDrawText = certificatePage pdf data now := by
  have hfooter : ∀ w : LineWriter, ∀ text, (w.footer pdf text).drawn.map PlacedText.toDrawText =
      w.texts ++ EpsDapp.LineWriter.footer pdf text := by
    intro w text
    simp [LineWriter.footer, LineWriter.texts, EpsDapp.LineWriter.footer]
  have hopening : openingCalls.flatMap (Call.texts pdf) =
      EpsDapp.LineWriter.heading pdf "EPS NOTICE CERTIFICATE" ++
        EpsDapp.LineWriter.paragraph pdf preamble := by
    simp [openingCalls, Call.texts]
  rw [certificateLayout, hfooter, Call.texts_foldl, certificateCalls, certificatePage]
  simp only [List.flatMap_append, hopening, texts_caseCalls, texts_documentCalls,
    texts_proofCalls, texts_viewCalls, texts_hcsCalls, texts_htsCalls]
  rfl

end Texts

/-! ## Nothing overlaps -/

/-- `b` begins after the end of `a` in its row, or is in a row whose texts reach no higher
than where the row of `a` stands. -/
def Below (a b : PlacedText) : Prop := (b.y = a.y ∧ a.right ≤ b.x) ∨ b.y + b.size ≤ a.y

/-- What is drawn stands within the margins, but for the right one. -/
def PlacedText.Inside (t : PlacedText) : Prop :=
  margin ≤ t.x ∧ margin ≤ t.y ∧ t.y + t.size ≤ a4Height - margin

/-- What is drawn ends before the right margin. -/
def PlacedText.FitsRight (t : PlacedText) : Prop := t.right ≤ a4Width - margin

/-- What a call writes of its own is no wider than its room: a line, or the column of the
labels. -/
def Call.FitsOwn (pdf : PdfLib) : Call → Prop
  | heading text => pdf.bold.widthOfTextAtSize text 18 ≤ a4Width - 2 * margin
  | sectionTitle text => pdf.bold.widthOfTextAtSize text 12 ≤ a4Width - 2 * margin
  | field label _ | link label _ => pdf.bold.widthOfTextAtSize (label ++ ":") 9 ≤ 130
  | paragraph text => ∀ line ∈ wrap text pdf.font 9 (595.28 - 2 * 56),
      pdf.font.widthOfTextAtSize line 9 ≤ a4Width - 2 * margin
  | gap => True

/-- The values that a call writes. -/
def Call.values : Call → List String
  | field _ value => [value]
  | link _ url => [url]
  | heading _ | sectionTitle _ | paragraph _ | gap => []

/-- The room for a value. -/
def valueWidth : ℚ := a4Width - margin - (margin + 130)

/-- What is drawn stands above the cursor, without overlaps. -/
structure LineWriter.Tidy (w : LineWriter) : Prop where
  below : w.drawn.Pairwise Below
  above : ∀ t ∈ w.drawn, w.y ≤ t.y
  left : ∀ t ∈ w.drawn, margin ≤ t.x
  top : ∀ t ∈ w.drawn, t.y + t.size ≤ a4Height - margin
  cursor : w.y ≤ a4Height - margin

section Tidy

variable {pdf : PdfLib} {w : LineWriter}

theorem tidy_new : LineWriter.new.Tidy :=
  ⟨List.Pairwise.nil, by simp [LineWriter.new], by simp [LineWriter.new], by simp [LineWriter.new],
    le_rfl⟩

theorem LineWriter.Tidy.lower (h : w.Tidy) {dy : ℚ} (hdy : 0 ≤ dy) : (w.lower dy).Tidy where
  below := h.below
  above t ht := (sub_le_self w.y hdy).trans (h.above t ht)
  left := h.left
  top := h.top
  cursor := (sub_le_self w.y hdy).trans h.cursor

/-- A text that is below what has been drawn. -/
theorem LineWriter.Tidy.draw (h : w.Tidy) {font : StandardFont} {size : ℕ} {x : ℚ} {text : String}
    (hx : margin ≤ x) (htop : w.y + size ≤ a4Height - margin)
    (hbelow : ∀ t ∈ w.drawn, Below t ⟨⟨font, text⟩, size, x, w.y⟩) :
    (w.draw font size x text).Tidy where
  below := List.pairwise_append.2 ⟨h.below, List.pairwise_singleton _ _, fun t ht t' ht' => by
    rw [List.mem_singleton.1 ht']
    exact hbelow t ht⟩
  above := List.forall_mem_append.2 ⟨h.above, by simp [LineWriter.draw]⟩
  left := List.forall_mem_append.2 ⟨h.left, by simpa using hx⟩
  top := List.forall_mem_append.2 ⟨h.top, by simpa using htop⟩
  cursor := h.cursor

/-- A row that is as high as the cursor has been lowered for it. -/
theorem LineWriter.Tidy.row (h : w.Tidy) {font : StandardFont} {size : ℕ} {dy : ℚ} {text : String}
    (hdy : (size : ℚ) ≤ dy) : ((w.lower dy).draw font size margin text).Tidy := by
  have hsize : (0 : ℚ) ≤ size := Nat.cast_nonneg size
  have hcursor := h.cursor
  refine (h.lower (hsize.trans hdy)).draw le_rfl ?_ fun t ht => Or.inr ?_
  · show w.y - dy + size ≤ a4Height - margin
    linarith
  · have habove := h.above t ht
    show w.y - dy + size ≤ t.y
    linarith

/-- A label and a value in one row. -/
theorem LineWriter.Tidy.labelled (h : w.Tidy) {label value : String}
    (hlabel : pdf.bold.widthOfTextAtSize label 9 ≤ 130) :
    (((w.lower 16).draw pdf.bold 9 margin label).draw pdf.font 9 (margin + 130) value).Tidy := by
  have hcursor := h.cursor
  refine (h.row (by norm_num)).draw (by norm_num [margin]) ?_
    (List.forall_mem_append.2 ⟨fun t ht => Or.inr ?_, fun t ht => Or.inl ?_⟩)
  · show w.y - 16 + ((9 : ℕ) : ℚ) ≤ a4Height - margin
    push_cast
    linarith
  · have habove := h.above t ht
    show w.y - 16 + ((9 : ℕ) : ℚ) ≤ t.y
    push_cast
    linarith
  · rw [List.mem_singleton.1 ht]
    exact ⟨rfl, add_le_add_right hlabel margin⟩

theorem LineWriter.Tidy.run (h : w.Tidy) {call : Call} (hown : call.FitsOwn pdf) :
    (call.run pdf w).Tidy := by
  cases call with
  | heading text => exact (h.row (by norm_num)).lower (by norm_num)
  | sectionTitle text => exact (h.row (by norm_num)).lower (by norm_num)
  | field label value => exact h.labelled hown
  | link label url => exact h.labelled hown
  | gap => exact h.lower (by norm_num)
  | paragraph text =>
      exact List.foldlRecOn _ _ h fun w hw line _ => hw.row (by norm_num)

theorem LineWriter.Tidy.calls (h : w.Tidy) {calls : List Call}
    (hown : ∀ call ∈ calls, call.FitsOwn pdf) : (calls.foldl (Call.run pdf) w).Tidy :=
  List.foldlRecOn _ _ h fun _ hw call hcall => hw.run (hown call hcall)

end Tidy

/-! ## What ends before the right margin -/

/-- The labels of a certificate. -/
def labels : List String :=
  ["Case reference", "Case title", "Plaintiff", "Defendant", "Recipient wallet", "Filename",
    "SHA-256", "Transaction", "Explorer", "Slot", "Block time (UTC)", "Viewed at (UTC)",
    "Viewer IP (masked)", "Status", "Topic ID", "Sequence number", "Consensus time (UTC)",
    "Verify on mirror node", "Token ID", "Serial number", "NFT on mirror node"]

/-- What the layout takes of the widths of the fonts: no character is wide, and the labels fit
into their column. -/
structure Metrics (pdf : PdfLib) : Prop where
  font : ∀ size, pdf.font.Narrow size
  bold : ∀ size, pdf.bold.Narrow size
  label : ∀ label ∈ labels, pdf.bold.widthOfTextAtSize (label ++ ":") 9 ≤ 130

section Right

variable {pdf : PdfLib} {w : LineWriter}

theorem forall_mem_draw {P : PlacedText → Prop} {font : StandardFont} {size : ℕ} {x : ℚ}
    {text : String} : (∀ t ∈ (w.draw font size x text).drawn, P t) ↔
      (∀ t ∈ w.drawn, P t) ∧ P ⟨⟨font, text⟩, size, x, w.y⟩ := by
  simp [LineWriter.draw, or_imp, forall_and]

/-- What stands at the left margin fits if it is no wider than a line. -/
theorem fitsRight_margin {font : StandardFont} {size : ℕ} {y : ℚ} {text : String} :
    PlacedText.FitsRight ⟨⟨font, text⟩, size, margin, y⟩ ↔
      font.widthOfTextAtSize text size ≤ a4Width - 2 * margin := by
  rw [PlacedText.FitsRight, PlacedText.right, ← le_sub_iff_add_le', two_mul, sub_sub]

theorem fitsRight_value {font : StandardFont} {y : ℚ} {text : String} :
    PlacedText.FitsRight ⟨⟨font, text⟩, 9, margin + 130, y⟩ ↔
      font.widthOfTextAtSize text 9 ≤ valueWidth := by
  rw [PlacedText.FitsRight, PlacedText.right, valueWidth, ← le_sub_iff_add_le']

/-- A label is narrower than a line. -/
theorem fitsRight_label {y : ℚ} {label : String}
    (h : pdf.bold.widthOfTextAtSize label 9 ≤ 130) :
    PlacedText.FitsRight ⟨⟨pdf.bold, label⟩, 9, margin, y⟩ :=
  fitsRight_margin.2 (h.trans (by norm_num [a4Width, margin]))

theorem fitsRight_run {call : Call} (hown : call.FitsOwn pdf) :
    (∀ t ∈ (call.run pdf w).drawn, t.FitsRight) ↔ (∀ t ∈ w.drawn, t.FitsRight) ∧
      ∀ value ∈ call.values, pdf.font.widthOfTextAtSize value 9 ≤ valueWidth := by
  cases call with
  | heading text =>
      rw [Call.values, Call.run, LineWriter.heading, LineWriter.lower, forall_mem_draw,
        fitsRight_margin]
      simp [LineWriter.lower, show pdf.bold.widthOfTextAtSize text 18 ≤ _ from hown]
  | sectionTitle text =>
      rw [Call.values, Call.run, LineWriter.sectionTitle, LineWriter.lower, forall_mem_draw,
        fitsRight_margin]
      simp [LineWriter.lower, show pdf.bold.widthOfTextAtSize text 12 ≤ _ from hown]
  | field label value =>
      rw [Call.values, Call.run, LineWriter.field, forall_mem_draw, forall_mem_draw,
        fitsRight_value]
      simp [LineWriter.lower, fitsRight_label hown]
  | link label url =>
      rw [Call.values, Call.run, LineWriter.link, forall_mem_draw, forall_mem_draw,
        fitsRight_value]
      simp [LineWriter.lower, fitsRight_label hown]
  | gap => simp [Call.values, Call.run, LineWriter.gap, LineWriter.lower]
  | paragraph text =>
      have hlines : ∀ line ∈ wrap text pdf.font 9 (595.28 - 2 * 56),
          pdf.font.widthOfTextAtSize line 9 ≤ a4Width - 2 * margin := hown
      simp only [Call.run, LineWriter.paragraph, Call.values]
      generalize wrap text pdf.font 9 (595.28 - 2 * 56) = lines at hlines
      induction lines generalizing w with
      | nil => simp
      | cons line lines ih =>
          obtain ⟨hline, hrest⟩ := List.forall_mem_cons.1 hlines
          simp only [List.foldl_cons, ih hrest, forall_mem_draw, fitsRight_margin]
          simp [LineWriter.lower, hline]

theorem fitsRight_calls {calls : List Call} (hown : ∀ call ∈ calls, call.FitsOwn pdf) :
    (∀ t ∈ (calls.foldl (Call.run pdf) w).drawn, t.FitsRight) ↔ (∀ t ∈ w.drawn, t.FitsRight) ∧
      ∀ value ∈ calls.flatMap Call.values,
        pdf.font.widthOfTextAtSize value 9 ≤ valueWidth := by
  induction calls generalizing w with
  | nil => simp
  | cons call calls ih =>
      obtain ⟨hcall, hrest⟩ := List.forall_mem_cons.1 hown
      rw [List.foldl_cons, ih hrest, fitsRight_run hcall, List.flatMap_cons, and_assoc,
        List.forall_mem_append]

/-- A text of few characters fits on a line. -/
theorem Metrics.fits_of_length {font : StandardFont} {size n : ℕ} {text : String}
    (hfont : font.Narrow size) (hlength : text.toList.length ≤ n)
    (hn : (11 / 10 * size * n : ℚ) ≤ a4Width - 2 * margin) :
    font.widthOfTextAtSize text size ≤ a4Width - 2 * margin := by
  have hcast : (text.toList.length : ℚ) ≤ n := by exact_mod_cast hlength
  exact ((hfont text).trans (mul_le_mul_of_nonneg_left hcast (by positivity))).trans hn

/-- What a call writes of its own is one of the labels, or has few characters. -/
def Call.Short : Call → Prop
  | heading text => text.toList.length ≤ 24
  | sectionTitle text => text.toList.length ≤ 36
  | field label _ | link label _ => label ∈ labels
  | paragraph text => ∀ w ∈ words text, w.toList.length ≤ 48
  | gap => True

theorem Metrics.fitsOwn (h : Metrics pdf) {call : Call} (hshort : call.Short) :
    call.FitsOwn pdf := by
  cases call with
  | heading text => exact fits_of_length (h.bold 18) hshort (by norm_num [a4Width, margin])
  | sectionTitle text => exact fits_of_length (h.bold 12) hshort (by norm_num [a4Width, margin])
  | field label value => exact h.label label hshort
  | link label url => exact h.label label hshort
  | gap => trivial
  | paragraph text =>
      intro line hline
      have hwidth : (595.28 - 2 * 56 : ℚ) = a4Width - 2 * margin := by norm_num [a4Width, margin]
      rw [hwidth] at hline
      exact fits_of_mem_wrap_of_words (fun w hw =>
        fits_of_length (h.font 9) (hshort w hw) (by norm_num [a4Width, margin])) hline

theorem words_preamble : words preamble =
    ["This", "certificate", "facilitates", "service", "of", "process", "and", "provides",
      "court-ready", "proof", "of", "on-chain", "delivery.", "It", "does", "not", "itself",
      "effect", "valid", "legal", "service."] := by
  decide +kernel

theorem short_openingCalls : ∀ call ∈ openingCalls, call.Short := by
  have hwords : ∀ w ∈ words preamble, w.toList.length ≤ 48 := by
    rw [words_preamble]
    decide
  have hheading : "EPS NOTICE CERTIFICATE".toList.length ≤ 24 := by decide
  simp only [openingCalls, List.forall_mem_cons]
  exact ⟨hheading, trivial, hwords, trivial, by simp⟩

theorem short_optionalLinkCalls {label : String} (hlabel : label ∈ labels) (url : Option String) :
    ∀ call ∈ optionalLinkCalls label url, call.Short := by
  rw [optionalLinkCalls]
  cases truthy url with
  | none => simp
  | some url => simpa [Call.Short] using hlabel

variable (data : CertificateData)

theorem short_caseCalls : ∀ call ∈ caseCalls data, call.Short := by
  simp [caseCalls, Call.Short, labels]

theorem short_documentCalls : ∀ call ∈ documentCalls data, call.Short := by
  simp [documentCalls, Call.Short, labels]

theorem short_proofCalls : ∀ call ∈ proofCalls data, call.Short := by
  rw [proofCalls]
  cases truthy data.txSignature with
  | none => simp [Call.Short, labels]
  | some signature => simp [Call.Short, labels]

theorem short_viewCalls : ∀ call ∈ viewCalls data, call.Short := by
  rw [viewCalls]
  cases data.firstViewedAt with
  | none => simp [Call.Short, labels]
  | some viewedAt => simp [Call.Short, labels]

theorem short_hcsCalls : ∀ call ∈ hcsCalls data, call.Short := by
  rw [hcsCalls]
  cases truthy data.hcsTopicId with
  | none => simp
  | some topicId =>
      refine List.forall_mem_append.2 ⟨?_, short_optionalLinkCalls (by decide) _⟩
      simp [Call.Short, labels]

theorem short_htsCalls : ∀ call ∈ htsCalls data, call.Short := by
  rw [htsCalls]
  cases truthy data.htsTokenId with
  | none => simp
  | some tokenId =>
      refine List.forall_mem_append.2 ⟨?_, short_optionalLinkCalls (by decide) _⟩
      simp [Call.Short, labels]

theorem short_certificateCalls : ∀ call ∈ certificateCalls data, call.Short := by
  simp only [certificateCalls, List.forall_mem_append]
  exact ⟨⟨⟨⟨⟨⟨short_openingCalls, short_caseCalls data⟩, short_documentCalls data⟩,
    short_proofCalls data⟩, short_viewCalls data⟩, short_hcsCalls data⟩, short_htsCalls data⟩

end Right

/-! ## The page is long enough -/

/-- How far a call lowers the cursor. -/
def Call.height (pdf : PdfLib) : Call → ℚ
  | heading _ => 26
  | sectionTitle _ => 18
  | field _ _ | link _ _ => 16
  | paragraph text => 13 * (wrap text pdf.font 9 (595.28 - 2 * 56)).length
  | gap => 8

section Height

variable {pdf : PdfLib}

theorem y_run (w : LineWriter) (call : Call) : (call.run pdf w).y = w.y - call.height pdf := by
  cases call with
  | heading text =>
      show w.y - 18 - 8 = w.y - 26
      ring
  | sectionTitle text =>
      show w.y - 14 - 4 = w.y - 18
      ring
  | field label value => rfl
  | link label url => rfl
  | gap => rfl
  | paragraph text =>
      simp only [Call.run, LineWriter.paragraph, Call.height]
      generalize wrap text pdf.font 9 (595.28 - 2 * 56) = lines
      induction lines generalizing w with
      | nil => simp
      | cons line lines ih =>
          rw [List.foldl_cons, ih]
          simp only [LineWriter.draw, LineWriter.lower, List.length_cons, Nat.cast_add,
            Nat.cast_one]
          ring

theorem y_calls (calls : List Call) (w : LineWriter) :
    (calls.foldl (Call.run pdf) w).y = w.y - (calls.map (Call.height pdf)).sum := by
  induction calls generalizing w with
  | nil => simp
  | cons call calls ih =>
      rw [List.foldl_cons, ih, y_run, List.map_cons, List.sum_cons]
      ring

theorem spacedLength_preamble : spacedLength (words preamble) = 148 := by
  rw [words_preamble]
  decide

/-- The paragraph of every certificate takes seven lines at most. -/
theorem length_wrap_preamble_le (hfont : pdf.font.Narrow 9) :
    (wrap preamble pdf.font 9 (595.28 - 2 * 56)).length ≤ 7 := by
  have hlines := length_wrap_mul_le hfont (by norm_num : (0 : ℚ) ≤ 595.28 - 2 * 56) preamble
  rw [spacedLength_preamble] at hlines
  generalize (wrap preamble pdf.font 9 (595.28 - 2 * 56)).length = n at hlines ⊢
  by_contra hlong
  have height : (8 : ℚ) ≤ n := by exact_mod_cast not_le.1 hlong
  norm_num at hlines
  linarith

theorem height_openingCalls_le (hfont : pdf.font.Narrow 9) :
    (openingCalls.map (Call.height pdf)).sum ≤ 133 := by
  have hseven : ((wrap preamble pdf.font 9 (595.28 - 2 * 56)).length : ℚ) ≤ 7 := by
    exact_mod_cast length_wrap_preamble_le hfont
  simp only [openingCalls, List.map_cons, List.map_nil, List.sum_cons, List.sum_nil, Call.height]
  linarith

/-- A field or a link. -/
theorem height_optionalLinkCalls_le (pdf : PdfLib) (label : String) (url : Option String) :
    ((optionalLinkCalls label url).map (Call.height pdf)).sum ≤ 16 := by
  rw [optionalLinkCalls]
  cases truthy url with
  | none => norm_num
  | some url => norm_num [Call.height]

variable (pdf) (data : CertificateData)

theorem height_caseCalls : ((caseCalls data).map (Call.height pdf)).sum = 106 := by
  norm_num [caseCalls, Call.height]

theorem height_documentCalls : ((documentCalls data).map (Call.height pdf)).sum = 58 := by
  norm_num [documentCalls, Call.height]

theorem height_proofCalls_le : ((proofCalls data).map (Call.height pdf)).sum ≤ 90 := by
  rw [proofCalls]
  cases truthy data.txSignature with
  | none => norm_num [Call.height]
  | some signature => norm_num [Call.height]

theorem height_viewCalls_le : ((viewCalls data).map (Call.height pdf)).sum ≤ 50 := by
  rw [viewCalls]
  cases data.firstViewedAt with
  | none => norm_num [Call.height]
  | some viewedAt => norm_num [Call.height]

theorem height_hcsCalls_le : ((hcsCalls data).map (Call.height pdf)).sum ≤ 90 := by
  rw [hcsCalls]
  cases truthy data.hcsTopicId with
  | none => norm_num
  | some topicId =>
      have hlink := height_optionalLinkCalls_le pdf "Verify on mirror node"
        data.hcsMirrorUrl
      simp only [List.map_append, List.map_cons, List.map_nil, List.sum_append, List.sum_cons,
        List.sum_nil, Call.height]
      linarith

theorem height_htsCalls_le : ((htsCalls data).map (Call.height pdf)).sum ≤ 74 := by
  rw [htsCalls]
  cases truthy data.htsTokenId with
  | none => norm_num
  | some tokenId =>
      have hlink := height_optionalLinkCalls_le pdf "NFT on mirror node"
        data.htsMirrorUrl
      simp only [List.map_append, List.map_cons, List.map_nil, List.sum_append, List.sum_cons,
        List.sum_nil, Call.height]
      linarith

/-- The last row stands well above the footer. -/
theorem le_y_certificateCalls (hfont : pdf.font.Narrow 9) :
    184 ≤ ((certificateCalls data).foldl (Call.run pdf) .new).y := by
  have hopening := height_openingCalls_le hfont
  have hproof := height_proofCalls_le pdf data
  have hview := height_viewCalls_le pdf data
  have hhcs := height_hcsCalls_le pdf data
  have hhts := height_htsCalls_le pdf data
  rw [y_calls, certificateCalls]
  simp only [List.map_append, List.sum_append, height_caseCalls, height_documentCalls,
    LineWriter.new, a4Height, margin]
  linarith

end Height

/-- Where `drawText` begins another line. -/
def lineBreaks : List Char := ['\n', '\x0c', '\r', '\x0b']

/-- The values that a certificate shows. -/
def shownValues (data : CertificateData) : List String :=
  (certificateCalls data).flatMap Call.values

/-- The page of a certificate: it draws the texts of the page in their order, apart from each
other and within the margins on the left, at the top and at the bottom, none of them goes on in
a second line, and on the right all of them end before the margin if and only if each value that
is shown fits into its column. -/
theorem certificate_fits_page {pdf : PdfLib} {data : CertificateData} {now : Calendar.Instant}
    (hpdf : Metrics pdf) (hdata : AllWinAnsi data.texts)
    (hnow : (formatUtc now).toList.length ≤ 32) :
    (certificateLayout pdf data now).map PlacedText.toDrawText = certificatePage pdf data now ∧
      (certificateLayout pdf data now).Pairwise Below ∧
      (∀ t ∈ certificateLayout pdf data now, t.Inside) ∧
      ((∀ t ∈ certificateLayout pdf data now, t.FitsRight) ↔
        ∀ value ∈ shownValues data, pdf.font.widthOfTextAtSize value 9 ≤ valueWidth) ∧
      ∀ t ∈ certificateLayout pdf data now, ∀ c ∈ t.text.toList, c ∉ lineBreaks := by
  have htexts := texts_certificateLayout pdf data now
  have hown : ∀ call ∈ certificateCalls data, call.FitsOwn pdf := fun call hcall =>
    hpdf.fitsOwn (short_certificateCalls data call hcall)
  have htidy : ((certificateCalls data).foldl (Call.run pdf) .new).Tidy := tidy_new.calls hown
  have hcursor := le_y_certificateCalls pdf data (hpdf.font 9)
  have hrows : certificateLayout pdf data now =
      ((certificateCalls data).foldl (Call.run pdf) .new).drawn ++
        [⟨⟨pdf.font, "Certificate generated " ++ formatUtc now⟩, 8, margin, margin⟩] := rfl
  have habove : ∀ t ∈ ((certificateCalls data).foldl (Call.run pdf) .new).drawn, 184 ≤ t.y :=
    fun t ht => hcursor.trans (htidy.above t ht)
  refine ⟨htexts, ?_, ?_, ?_, fun t ht c hc hbreak => ?_⟩
  · rw [hrows]
    refine List.pairwise_append.2 ⟨htidy.below, List.pairwise_singleton _ _, fun t ht t' ht' => ?_⟩
    rw [List.mem_singleton.1 ht']
    have hy := habove t ht
    right
    norm_num [margin]
    linarith
  · rw [hrows]
    refine List.forall_mem_append.2 ⟨fun t ht => ⟨htidy.left t ht, ?_, htidy.top t ht⟩, ?_⟩
    · have hy := habove t ht
      norm_num [margin]
      linarith
    · norm_num [PlacedText.Inside, margin, a4Height]
  · have hfooter : pdf.font.widthOfTextAtSize ("Certificate generated " ++ formatUtc now) 8 ≤
        a4Width - 2 * margin := by
      refine Metrics.fits_of_length (n := 54) (hpdf.font 8) ?_ (by norm_num [a4Width, margin])
      have hprefix : "Certificate generated ".toList.length = 22 := by decide
      rw [String.toList_append, List.length_append, hprefix]
      omega
    rw [hrows, List.forall_mem_append, fitsRight_calls hown, shownValues]
    simp [LineWriter.new, fitsRight_margin, hfooter]
  · have hdraw : t.toDrawText ∈ certificatePage pdf data now := by
      rw [← htexts]
      exact List.mem_map_of_mem ht
    have hwinAnsi : WinAnsi c := (drawable_certificatePage_iff now).2 hdata _ hdraw c hc
    have hlist : ∀ c ∈ lineBreaks, ¬ WinAnsi c := by simp [lineBreaks, WinAnsi]
    exact hlist c hbreak hwinAnsi

/-- A font whose characters are half as wide as they are high. -/
def halfFont : StandardFont :=
  { plainFont with widthOfTextAtSize := fun text size => text.length * size / 2 }

def halfPdf : PdfLib := { plainPdf with font := halfFont, bold := halfFont }

theorem halfFont_narrow (size : ℕ) : halfFont.Narrow size := by
  intro text
  have hlength : (0 : ℚ) ≤ size * text.length := by positivity
  simp only [halfFont, String.length_toList]
  linarith

theorem halfPdf_metrics : Metrics halfPdf :=
  ⟨halfFont_narrow, halfFont_narrow, by decide +kernel⟩

/-- What the certificate of a delivered and viewed notice shows. -/
def deliveredData : CertificateData :=
  { certificateData (captioned "A v. B" "A" "B") none with
    txSignature := some (String.ofList (List.replicate 88 '5'))
    slot := some 250000000
    blockTime := some 1769860800000
    firstViewedAt := some 1769864400000
    firstViewerIp := some "203.0.113.x"
    hcsTopicId := some "0.0.5555"
    hcsSequenceNumber := some 7
    hcsConsensusTime := some "1769860801.000000001" }

/-- A link to an explorer that runs off the page. -/
theorem certificate_fits_page_of_delivered :
    (certificateLayout halfPdf deliveredData 1769868000000).Pairwise Below ∧
      (∀ t ∈ certificateLayout halfPdf deliveredData 1769868000000, t.Inside) ∧
      ¬ ∀ t ∈ certificateLayout halfPdf deliveredData 1769868000000, t.FitsRight := by
  have hdata : AllWinAnsi deliveredData.texts := by
    unfold AllWinAnsi
    decide +kernel
  obtain ⟨-, hbelow, hinside, hright, -⟩ :=
    @certificate_fits_page halfPdf deliveredData 1769868000000 halfPdf_metrics hdata
      (by decide +kernel)
  have hlong : ¬ ∀ value ∈ shownValues deliveredData,
      halfPdf.font.widthOfTextAtSize value 9 ≤ valueWidth := by decide +kernel
  exact ⟨hbelow, hinside, fun hfits => hlong (hright.1 hfits)⟩

end Layout

end EpsDapp
