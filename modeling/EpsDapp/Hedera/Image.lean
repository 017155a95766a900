import EpsDapp.Hedera.Metadata
import EpsDapp.Text.Markup

/-!
# The certificate of a proof

The document of `GET /api/nft/meta` links an image, which `GET /api/nft/image` draws from
the query of the link. Whatever is asked for in characters that a document may hold, the
drawing is one well-nested document, whose tags and texts are fixed except for the two texts
that were asked for. A proof that was minted is drawn with its own topic and sequence number.
-/

set_option autoImplicit false

namespace EpsDapp

open Effect Markup

/-! ## The route -/

/-- Escape any XML-significant characters from the query values. -/
def esc (s : String) : String :=
  replaceAll '"' "&quot;" (replaceAll '>' "&gt;" (replaceAll '<' "&lt;"
    (replaceAll '&' "&amp;" s)))

/-- The certificate before the topic. -/
def imageHead : String :=
  "<svg xmlns=\"http://www.w3.org/2000/svg\" width=\"400\" height=\"400\" viewBox=\"0 0 " ++
  "400 400\">" ++
  -- Background gradient
  "<defs>" ++
  "<linearGradient id=\"bg\" x1=\"0\" y1=\"0\" x2=\"0\" y2=\"1\">" ++
  "<stop offset=\"0\" stop-color=\"#0a0e1a\"/>" ++
  "<stop offset=\"1\" stop-color=\"#0d1526\"/>" ++
  "</linearGradient>" ++
  "</defs>" ++
  "<rect x=\"0\" y=\"0\" width=\"400\" height=\"400\" rx=\"16\" fill=\"url(#bg)\"/>" ++
  -- Double gold border
  "<rect x=\"10\" y=\"10\" width=\"380\" height=\"380\" rx=\"12\" fill=\"none\" " ++
  "stroke=\"#f59e0b\" stroke-width=\"2\" opacity=\"0.6\"/>" ++
  "<rect x=\"18\" y=\"18\" width=\"364\" height=\"364\" rx=\"10\" fill=\"none\" " ++
  "stroke=\"#f59e0b\" stroke-width=\"1\" opacity=\"0.3\"/>" ++
  -- Purple Hedera "H"
  "<g transform=\"translate(174,38)\">" ++
  "<rect x=\"0\" y=\"0\" width=\"8\" height=\"28\" rx=\"2\" fill=\"#8b5cf6\"/>" ++
  "<rect x=\"18\" y=\"0\" width=\"8\" height=\"28\" rx=\"2\" fill=\"#8b5cf6\"/>" ++
  "<rect x=\"0\" y=\"10\" width=\"26\" height=\"8\" rx=\"2\" fill=\"#8b5cf6\"/>" ++
  "</g>" ++
  -- HEDERA TESTNET
  "<text x=\"200\" y=\"84\" font-family=\"Arial, sans-serif\" font-size=\"9\" " ++
  "fill=\"#8b5cf6\" text-anchor=\"middle\" letter-spacing=\"4\">HEDERA TESTNET</text>" ++
  -- Gold divider
  "<line x1=\"60\" y1=\"94\" x2=\"340\" y2=\"94\" stroke=\"#f59e0b\" stroke-width=\"1\" " ++
  "opacity=\"0.4\"/>" ++
  -- EPS
  "<text x=\"200\" y=\"148\" font-family=\"Arial, sans-serif\" font-size=\"66\" " ++
  "font-weight=\"900\" fill=\"#f59e0b\" text-anchor=\"middle\">EPS</text>" ++
  -- PROOF OF SERVICE
  "<text x=\"200\" y=\"172\" font-family=\"Arial, sans-serif\" font-size=\"11\" " ++
  "font-weight=\"700\" fill=\"#e2e8f0\" text-anchor=\"middle\" letter-spacing=\"3\">PROOF " ++
  "OF SERVICE</text>" ++
  -- Gold divider
  "<line x1=\"60\" y1=\"183\" x2=\"340\" y2=\"183\" stroke=\"#f59e0b\" stroke-width=\"1\" " ++
  "opacity=\"0.4\"/>" ++
  -- Seal
  "<circle cx=\"200\" cy=\"230\" r=\"36\" fill=\"none\" stroke=\"#f59e0b\" " ++
  "stroke-width=\"2\" opacity=\"0.5\"/>" ++
  "<circle cx=\"200\" cy=\"230\" r=\"30\" fill=\"none\" stroke=\"#f59e0b\" " ++
  "stroke-width=\"1\" opacity=\"0.25\"/>" ++
  "<path d=\"M186 230 L196 242 L216 218\" fill=\"none\" stroke=\"#f59e0b\" " ++
  "stroke-width=\"3\" stroke-linecap=\"round\" stroke-linejoin=\"round\"/>" ++
  -- HCS data
  "<text x=\"200\" y=\"292\" font-family=\"Arial, sans-serif\" font-size=\"9\" " ++
  "fill=\"#94a3b8\" text-anchor=\"middle\" letter-spacing=\"2\">HCS TOPIC</text>" ++
  "<text x=\"200\" y=\"310\" font-family=\"monospace\" font-size=\"12\" " ++
  "font-weight=\"700\" fill=\"#34d399\" text-anchor=\"middle\">"

/-- The certificate between the topic and the sequence number. -/
def imageBetween : String :=
  "<text x=\"200\" y=\"326\" font-family=\"Arial, sans-serif\" font-size=\"9\" " ++
  "fill=\"#94a3b8\" text-anchor=\"middle\" letter-spacing=\"2\">SEQUENCE #"

/-- The certificate after the sequence number. -/
def imageTail : String :=
  -- Gold divider
  "<line x1=\"60\" y1=\"330\" x2=\"340\" y2=\"330\" stroke=\"#f59e0b\" stroke-width=\"1\" " ++
  "opacity=\"0.4\"/>" ++
  -- ENS + standard
  "<text x=\"200\" y=\"350\" font-family=\"monospace\" font-size=\"9\" fill=\"#60a5fa\" " ++
  "text-anchor=\"middle\">youhavebeenserved.eth</text>" ++
  "<text x=\"200\" y=\"364\" font-family=\"Arial, sans-serif\" font-size=\"7.5\" " ++
  "fill=\"#64748b\" text-anchor=\"middle\" letter-spacing=\"1\">ENSIP-25 COMPLIANT AI " ++
  "PROCESS SERVER</text>" ++
  -- Decorative gold circles
  "<circle cx=\"167\" cy=\"378\" r=\"2\" fill=\"#f59e0b\"/>" ++
  "<circle cx=\"182\" cy=\"378\" r=\"2\" fill=\"#f59e0b\"/>" ++
  "<circle cx=\"200\" cy=\"378\" r=\"3\" fill=\"#f59e0b\"/>" ++
  "<circle cx=\"218\" cy=\"378\" r=\"2\" fill=\"#f59e0b\"/>" ++
  "<circle cx=\"233\" cy=\"378\" r=\"2\" fill=\"#f59e0b\"/>" ++
  "</svg>"

/-- The certificate. -/
def imageSvg (topic seq : String) : String :=
  let topicSafe := esc topic
  let seqSafe := esc seq
  imageHead ++ topicSafe ++ "</text>" ++ imageBetween ++ seqSafe ++ "</text>" ++ imageTail

/-- `GET /api/nft/image`, which reads its query as `GET /api/nft/meta` does. -/
def getNftImage (url : String) : String :=
  let (topic, seq) := nftMetaQuery url
  imageSvg topic seq

/-! ## What is escaped -/

theorem toList_replaceAll (c : Char) (replacement text : String) :
    (replaceAll c replacement text).toList =
      text.toList.flatMap fun d => if d = c then replacement.toList else [d] :=
  String.toList_ofList

/-- One replacement after the other escapes each character once. -/
theorem esc_eq_escape (s : String) : esc s = escape s := by
  refine String.toList_inj.1 ?_
  rw [esc, escape, String.toList_ofList]
  simp only [toList_replaceAll, List.flatMap_assoc]
  refine List.flatMap_congr fun c _ => ?_
  have hamp : "&amp;".toList = ['&', 'a', 'm', 'p', ';'] := String.toList_ofList
  have hlt : "&lt;".toList = ['&', 'l', 't', ';'] := String.toList_ofList
  have hgt : "&gt;".toList = ['&', 'g', 't', ';'] := String.toList_ofList
  have hquot : "&quot;".toList = ['&', 'q', 'u', 'o', 't', ';'] := String.toList_ofList
  rw [hamp, hlt, hgt, hquot]
  unfold escapeChar
  split_ifs with hamp hlt hgt hquot
  · rfl
  · rw [hlt]; rfl
  · rw [hgt]; rfl
  · rw [hquot]; rfl
  · simp only [List.flatMap_singleton, hlt, hgt, hquot, if_false]

/-! ## The parts of the drawing -/

theorem toList_append_literal {s : String} {l cs : List Char} (h : s.toList = l) :
    (s ++ String.ofList cs).toList = l ++ cs := by
  rw [String.toList_append, h, String.toList_ofList]

/-- A part of the drawing as it stands in the source: it is read from one place to the next, and
has no line that ends in it. -/
structure Fixed (opened opened' : List (List Char)) (seen cs : List Char) : Prop where
  passes : Reader.Passes opened opened' seen cs
  chars : ∀ c ∈ cs, IsChar c
  line : '\r' ∉ cs

theorem fixed_of_toList {s : String} {l : List Char} {opened opened' : List (List Char)}
    {seen : List Char} (hs : s.toList = l)
    (h : Reader.Passes opened opened' seen l ∧ (l.all fun c => decide (IsChar c)) = true ∧
      '\r' ∉ l) :
    Fixed opened opened' seen s.toList := hs ▸ ⟨h.1, forall_mem_of_all h.2.1, h.2.2⟩

/-- The names of the elements that stay open. -/
def svgName : List Char := ['s', 'v', 'g']

def textName : List Char := ['t', 'e', 'x', 't']

theorem fixed_imageHead : Fixed [] [textName, svgName] [] imageHead.toList := by
  apply fixed_of_toList
  · unfold imageHead
    repeat apply toList_append_literal
    exact String.toList_ofList
  · decide +kernel

theorem fixed_imageBetween :
    Fixed [svgName] [textName, svgName] "SEQUENCE #".toList imageBetween.toList := by
  apply fixed_of_toList
  · unfold imageBetween
    repeat apply toList_append_literal
    exact String.toList_ofList
  · decide +kernel

theorem fixed_imageTail : Fixed [svgName] [] [] imageTail.toList := by
  apply fixed_of_toList
  · unfold imageTail
    repeat apply toList_append_literal
    exact String.toList_ofList
  · decide +kernel

/-- The tags of a certificate. -/
def certificateTags (topic seq : String) : List Tag :=
  Reader.tagsOf [] imageHead.toList ++ ⟨topic, "/text"⟩ ::
    Reader.tagsOf [svgName] imageBetween.toList ++ ⟨"SEQUENCE #" ++ seq, "/text"⟩ ::
    Reader.tagsOf [svgName] imageTail.toList

/-- A certificate is put together of the fixed parts and the two texts. -/
theorem toList_imageSvg (topic seq : String) : (imageSvg topic seq).toList =
    imageHead.toList ++ (((escape topic).toList ++ closing textName) ++
      (imageBetween.toList ++ (((escape seq).toList ++ closing textName) ++
        imageTail.toList))) := by
  have hclosing : "</text>".toList = closing textName := String.toList_ofList
  simp only [imageSvg, String.toList_append, esc_eq_escape, hclosing, List.append_assoc]

theorem over_imageSvg_iff (topic seq : String) :
    Over IsChar (imageSvg topic seq) ↔ Over IsChar topic ∧ Over IsChar seq := by
  have hclosing : ∀ c ∈ closing textName, IsChar c := forall_mem_of_all (by decide)
  rw [← over_escape_iff topic, ← over_escape_iff seq, Over, toList_imageSvg]
  simp only [List.forall_mem_append]
  exact ⟨fun h => ⟨h.2.1.1, h.2.2.2.1.1⟩, fun h => ⟨fixed_imageHead.chars, ⟨h.1, hclosing⟩,
    fixed_imageBetween.chars, ⟨h.2, hclosing⟩, fixed_imageTail.chars⟩⟩

/-- The ends of lines are those of the two texts. -/
theorem normalizeLines_imageSvg (topic seq : String) :
    normalizeLines (imageSvg topic seq).toList =
      imageHead.toList ++ (((escape (readLines topic)).toList ++ closing textName) ++
        (imageBetween.toList ++ (((escape (readLines seq)).toList ++ closing textName) ++
          imageTail.toList))) := by
  have hclosing : '\r' ∉ closing textName := by decide
  have hhead : ∀ cs, (closing textName ++ cs).head? ≠ some '\n' := fun cs => by simp [closing]
  have htext : ∀ text cs, normalizeLines ((escape text).toList ++ closing textName ++ cs) =
      (escape (readLines text)).toList ++ closing textName ++ normalizeLines cs := by
    intro text cs
    rw [List.append_assoc, normalizeLines_append (hhead cs), normalizeLines_escape,
      normalizeLines_append_of_not_mem hclosing, List.append_assoc]
  rw [toList_imageSvg, normalizeLines_append_of_not_mem fixed_imageHead.line, htext,
    normalizeLines_append_of_not_mem fixed_imageBetween.line, htext,
    normalizeLines_of_not_mem fixed_imageTail.line]

/-- Whatever the two texts are, the certificate is well nested, and they are text in it. -/
theorem run_imageSvg (topic seq : String) :
    Reader.run {} (normalizeLines (imageSvg topic seq).toList) =
      some { tags := certificateTags (readLines topic) (readLines seq) } := by
  have hname : ∀ c ∈ textName, c ∉ ['>', '"', '\''] := by simp [textName]
  have hrun : Reader.run {} imageHead.toList = _ := fixed_imageHead.passes.run_eq []
  have hend : String.ofList ('/' :: textName) = "/text" := rfl
  have hassoc : ∀ (head between tail : List Tag) (a b : Tag),
      [] ++ head ++ [a] ++ between ++ [b] ++ tail = head ++ a :: between ++ b :: tail := by simp
  rw [normalizeLines_imageSvg, Reader.run_append, hrun, Option.bind_some, Reader.run_append,
    Reader.run_field hname, Option.bind_some, Reader.run_append,
    fixed_imageBetween.passes.run_eq, Option.bind_some, Reader.run_append,
    Reader.run_field hname, Option.bind_some, fixed_imageTail.passes.run_eq,
    String.ofList_toList, hend, String.ofList_nil, String.empty_append, List.reverse_nil, hassoc,
    certificateTags]

/-- The certificate is a document if and only if the two texts hold characters of documents, and
then they are its only texts that are not fixed, with line feeds for the ends of their lines. -/
theorem document_imageSvg (topic seq : String) :
    document (imageSvg topic seq) =
      if Over IsChar topic ∧ Over IsChar seq then
        some (certificateTags (readLines topic) (readLines seq))
      else none := by
  have hrests : ∀ tags : List Tag, Reader.Rests [] [] { tags } := fun _ => ⟨rfl, rfl, rfl, rfl⟩
  rw [document, run_imageSvg, Option.bind_some, if_pos (hrests _)]
  exact if_congr (over_imageSvg_iff topic seq) rfl rfl

theorem document_getNftImage {url topic seq : String} (h : nftMetaQuery url = (topic, seq)) :
    document (getNftImage url) =
      if Over IsChar topic ∧ Over IsChar seq then
        some (certificateTags (readLines topic) (readLines seq))
      else none := by
  unfold getNftImage
  rw [h]
  exact document_imageSvg topic seq

/-- No request draws other tags, and none other texts than the two that it names. -/
theorem image_shows (url : String) :
    document (getNftImage url) =
      if Over IsChar (nftMetaQuery url).1 ∧ Over IsChar (nftMetaQuery url).2 then
        some (certificateTags (readLines (nftMetaQuery url).1) (readLines (nftMetaQuery url).2))
      else none :=
  document_getNftImage Prod.mk.eta.symm

/-! ## The link -/

theorem nftMetaQuery_fst {url topic : String} {params : List (String × String)}
    (h : searchParams url = ("topic", topic) :: params) : (nftMetaQuery url).1 = topic := by
  rw [nftMetaQuery, h, List.lookup_cons_self, Option.getD_some]

theorem nftMetaQuery_of_params {url topic seq : String}
    (h : searchParams url = [("topic", topic), ("seq", seq)]) :
    nftMetaQuery url = (topic, seq) := by
  rw [nftMetaQuery, h]
  rfl

theorem toList_image {url topic seq : String} (h : nftMetaQuery url = (topic, seq)) :
    (getNftMeta url).image.toList =
      "https://eps-dapp.vercel.app/api/nft/image".toList ++
        '?' :: ("topic".toList ++ '=' :: (encodeURIComponent topic).toList ++ ['&']) ++
          joinParam ("seq", seq) := by
  have hhead : "https://eps-dapp.vercel.app/api/nft/image?topic=".toList =
      "https://eps-dapp.vercel.app/api/nft/image".toList ++ '?' :: "topic=".toList := by decide
  have htopic : "topic=".toList = "topic".toList ++ ['='] := by decide
  have hseq : "&seq=".toList = '&' :: ("seq".toList ++ ['=']) := by decide
  have himage : (getNftMeta url).image = "https://eps-dapp.vercel.app/api/nft/image?topic=" ++
      encodeURIComponent topic ++ "&seq=" ++ seq := by
    unfold getNftMeta
    rw [h]
  rw [himage, String.toList_append, String.toList_append, String.toList_append, hhead, htopic,
    hseq]
  simp only [joinParam, List.append_assoc, List.cons_append, List.nil_append]

/-- The image that a document links is drawn with the topic of the document, and with its
sequence number, unless a character of that means something in a query. -/
theorem nftMetaQuery_image {url topic seq : String} (h : nftMetaQuery url = (topic, seq)) :
    (nftMetaQuery (getNftMeta url).image).1 = topic ∧
      (Over IsQueryChar seq → nftMetaQuery (getNftMeta url).image = (topic, seq)) := by
  have hbase : Over IsQueryChar "https://eps-dapp.vercel.app/api/nft/image" := by decide
  have hname : Over IsComponentChar "topic" := by decide
  have htopic : Over IsQueryChar "topic" := by decide
  obtain ⟨rest, hparams, hrest⟩ :=
    exists_searchParams hbase hname (over_encodeURIComponent topic) (toList_image h)
  rw [decodeQueryText_encodeURIComponent, decodeQueryText_of_plain htopic, String.ofList_toList]
    at hparams
  refine ⟨nftMetaQuery_fst hparams, fun hseq => nftMetaQuery_of_params ?_⟩
  have hquery : ∀ c, IsQueryChar c → 32 < c.toNat ∧ c ≠ '#' ∧ c ≠ '&' := fun c hc =>
    ⟨hc.1, fun heq => hc.2 (by simp [heq]), fun heq => hc.2 (by simp [heq])⟩
  have hseqName : Over IsQueryChar "seq" := by decide
  have hchars : ∀ c ∈ joinParam ("seq", seq), 32 < c.toNat ∧ c ≠ '#' ∧ c ≠ '&' :=
    List.forall_mem_append.2 ⟨fun c hc => hquery c (hseqName c hc),
      List.forall_mem_cons.2 ⟨by decide, fun c hc => hquery c (hseq c hc)⟩⟩
  have hsplit : (joinParam ("seq", seq)).splitOn '&' = [joinParam ("seq", seq)] :=
    List.splitOn_eq_singleton fun hmem => (hchars '&' hmem).2.2 rfl
  have hne : joinParam ("seq", seq) ≠ [] :=
    List.append_ne_nil_of_right_ne_nil _ (List.cons_ne_nil _ _)
  have hfilter : [joinParam ("seq", seq)].filter (· ≠ []) = [joinParam ("seq", seq)] :=
    List.filter_cons_of_pos (decide_eq_true hne)
  have hparam : decodeParam (joinParam ("seq", seq)) = ("seq", seq) :=
    decodeParam_joinParam hseqName hseq
  rw [hparams, hrest fun c hc => ⟨(hchars c hc).1, (hchars c hc).2.1⟩, hsplit, hfilter,
    List.map_singleton, hparam]

/-- The numerals are read back as they were. -/
theorem readLines_of_numeral {text : String} (hquery : Over IsQueryChar text)
    (hascii : Over (·.toNat < 128) text) : Over IsChar text ∧ readLines text = text := by
  refine ⟨fun c hc => ?_, readLines_of_not_mem fun hc => ?_⟩
  · have hbelow := hascii c hc
    exact Or.inr (Or.inr (Or.inr ⟨(hquery c hc).1.le, by omega, by omega⟩))
  · exact absurd (hquery _ hc).1 (by decide)

/-- The image of a proof that was minted shows its topic and its sequence number: the address
that is minted, the document there, the link of the document and the drawing lose nothing. A
number from `2 ^ 53` on is printed rounded, so the sequence number is below. -/
theorem minted_image_shows {data : HederaProgram.ProofNFTMetadata} {env : HederaVars} {n q : ℕ}
    (htopic : data.hcsTopicId.or env.hcsTopicId = some ("0.0." ++ toString n))
    (hseq : data.hcsSequenceNumber.getD 0 = q) (hn : n < 2 ^ 64) (hq : q < 2 ^ 53) :
    document (getNftImage (getNftMeta (utf8Decode (data.metadata env))).image) =
      some (certificateTags ("0.0." ++ toString n) (toString q)) := by
  obtain ⟨-, -, hnames⟩ :=
    HederaProgram.ProofNFTMetadata.metadata_names htopic hseq hn (hq.trans (by norm_num))
  have hquery := HederaProgram.over_numeral_query q
  have hdraws := document_getNftImage ((nftMetaQuery_image hnames).2 hquery)
  have hdot : Over IsQueryChar "0.0." ∧ Over (·.toNat < 128) "0.0." := by decide
  obtain ⟨htopicChars, htopicLines⟩ := readLines_of_numeral
    ((Over.append_iff _ _).2 ⟨hdot.1, HederaProgram.over_numeral_query n⟩)
    ((Over.append_iff _ _).2 ⟨hdot.2, HederaProgram.over_numeral_ascii n⟩)
  obtain ⟨hseqChars, hseqLines⟩ := readLines_of_numeral hquery (HederaProgram.over_numeral_ascii q)
  rw [hdraws, if_pos ⟨htopicChars, hseqChars⟩, htopicLines, hseqLines]

theorem minted_image_shows_of_anchored :
    document (getNftImage (getNftMeta (utf8Decode
      (HederaProgram.ProofNFTMetadata.metadata
        ⟨"case", some "0.0.9225885", some 8⟩ ⟨none, none, none, none, none, none, none⟩))).image) =
      some (certificateTags "0.0.9225885" "8") :=
  minted_image_shows (n := 9225885) (q := 8) rfl rfl (by decide) (by decide)

end EpsDapp
