import EpsDapp.Effect.Run
import EpsDapp.Intake.Recipients
import EpsDapp.Text.Url

/-!
# The intake form

The form of `dashboard/new` looks the name of the recipient up while it is typed: half a
second after the last edit it asks `GET /api/ens/resolve`, and an edit aborts what was
asked before. The address it has been answered is sent along with the request, for the
server to fall back on. The route reads the name from other parameters than the one the
form sends, so it refuses every lookup of the form, and what is staged for the form is
served to the address that the server itself has resolved.
-/

set_option autoImplicit false

namespace EpsDapp

open Effect

/-! ## The form -/

/-- `looksLikeENSName` -/
def looksLikeENSName (value : String) : Bool :=
  let trimmed := trim value
  if utf16Length trimmed < 3 ∨ isEvmAddress trimmed then false
  else trimmed.toList.contains '.'

/-- How a lookup ends: with a JSON body, of which `ok` and the address are read, or with an
error. -/
inductive LookupReply
  | json (ok : Bool) (address : Option String)
  | throws

/-- The address that the form takes from a reply. -/
def LookupReply.verified : LookupReply → Option String
  | json true address => truthy address
  | json false _ | throws => none

theorem LookupReply.verified_eq_some_iff {reply : LookupReply} {address : String} :
    reply.verified = some address ↔ reply = .json true (some address) ∧ address ≠ "" := by
  rcases reply with ⟨_ | _, found⟩ | _
  · simp [verified]
  · simp [verified, truthy, Option.filter_eq_some_iff]
  · simp [verified]

/-- A request for a name that has not ended, and whether it has been aborted. -/
structure Lookup where
  value : String
  aborted : Bool := false
  deriving DecidableEq

/-- The fields that are sent as they are. -/
structure CaseFields where
  caseCaption : String := ""
  plaintiffName : String := ""
  defendantName : String := ""
  courtOrderFlag : Bool := false
  attested : Bool := false

/-- The state of the form. `timer` is the value that is looked up when the timer of the last
edit fires. -/
structure IntakeForm where
  case : CaseFields := {}
  recipientWallet : String := ""
  resolvedAddress : Option String := none
  ensResolving : Bool := false
  ensError : Option String := none
  timer : Option String := none
  lookups : List Lookup := []

namespace IntakeForm

/-- What the form says when a name is not verified. -/
def unverified : String :=
  "Could not verify this ENS name right now — you can still submit; " ++
    "the server will re-resolve it."

/-- The effect of an edit of the recipient: what the last one has started is given up. -/
def edit (f : IntakeForm) (recipientWallet : String) : IntakeForm :=
  if recipientWallet = f.recipientWallet then f
  else
    let cleaned : IntakeForm :=
      { f with
        recipientWallet := recipientWallet
        timer := none
        lookups := f.lookups.map fun l => { l with aborted := true } }
    let value := trim recipientWallet
    if looksLikeENSName value then { cleaned with timer := some value }
    else { cleaned with resolvedAddress := none, ensResolving := false, ensError := none }

/-- The timer fires, and `value` is looked up. -/
def fire (f : IntakeForm) (value : String) : IntakeForm :=
  { f with
    timer := none
    ensResolving := true
    ensError := none
    resolvedAddress := none
    lookups := f.lookups ++ [⟨value, false⟩] }

/-- A lookup ends. -/
def settle (f : IntakeForm) (lookup : Lookup) (reply : LookupReply) : IntakeForm :=
  let ended : IntakeForm := { f with lookups := f.lookups.erase lookup }
  if lookup.aborted then ended
  else
    { ended with
      ensResolving := false
      resolvedAddress := reply.verified
      ensError := if reply.verified.isSome then none else some unverified }

/-- The URL that is asked for a name, at the origin of the page. -/
def lookupUrl (origin value : String) : String :=
  origin ++ "/api/ens/resolve?input=" ++ encodeURIComponent value

/-- The body that `onSubmit` posts. -/
def body (f : IntakeForm) : Json :=
  .object [("caseCaption", .string f.case.caseCaption),
    ("plaintiffName", .string f.case.plaintiffName),
    ("defendantName", .string f.case.defendantName),
    ("recipientWallet", .string f.recipientWallet),
    ("recipientEnsName",
      if looksLikeENSName f.recipientWallet then .string (trim f.recipientWallet) else .null),
    ("recipientResolvedAddress", f.resolvedAddress.elim .null .string),
    ("courtOrderFlag", .bool f.case.courtOrderFlag), ("attested", .bool f.case.attested)]

/-- What may happen to the form: a field is filled in, the recipient is edited, the timer
fires, or a lookup ends, as `replies` says a lookup of its value may. -/
inductive Event
  | fill (case : CaseFields)
  | edit (recipientWallet : String)
  | fire
  | settle (lookup : Lookup) (reply : LookupReply)

inductive Step (replies : String → LookupReply → Prop) : IntakeForm → Event → IntakeForm → Prop
  | fill {f : IntakeForm} (case : CaseFields) : Step replies f (.fill case) { f with case := case }
  | edit {f : IntakeForm} (recipientWallet : String) :
      Step replies f (.edit recipientWallet) (f.edit recipientWallet)
  | fire {f : IntakeForm} {value : String} (htimer : f.timer = some value) :
      Step replies f .fire (f.fire value)
  | settle {f : IntakeForm} {lookup : Lookup} {reply : LookupReply} (hlookup : lookup ∈ f.lookups)
      (hreply : replies lookup.value reply) :
      Step replies f (.settle lookup reply) (f.settle lookup reply)

/-! ## What it holds -/

/-- The address is what a lookup of `value` has been answered. -/
def Verifies (replies : String → LookupReply → Prop) (value address : String) : Prop :=
  looksLikeENSName value = true ∧ address ≠ "" ∧ replies value (.json true (some address))

/-- What the form shows is up to date: the timer and the lookup that is not aborted are for
what is in the field, and so is the address, unless the timer is about to look another up. -/
structure Fresh (replies : String → LookupReply → Prop) (f : IntakeForm) : Prop where
  timer : ∀ value, f.timer = some value →
    value = trim f.recipientWallet ∧ looksLikeENSName value = true
  lookups : ∀ l ∈ f.lookups, l.aborted = false →
    f.timer = none ∧ l.value = trim f.recipientWallet ∧ looksLikeENSName l.value = true
  address : ∀ address, f.resolvedAddress = some address →
    looksLikeENSName f.recipientWallet = true ∧ ∃ value, Verifies replies value address ∧
      (f.timer = none → value = trim f.recipientWallet)

theorem looksLikeENSName_trim (value : String) :
    looksLikeENSName (trim value) = looksLikeENSName value := by
  simp only [looksLikeENSName, trim_trim]

section Fresh

variable {replies : String → LookupReply → Prop} {f f' : IntakeForm} {event : Event}

theorem fresh_empty : Fresh replies {} where
  timer _ h := by cases h
  lookups _ h := by cases h
  address _ h := by cases h

theorem Fresh.edit (h : f.Fresh replies) (recipientWallet : String) :
    (f.edit recipientWallet).Fresh replies := by
  simp only [IntakeForm.edit]
  split
  · exact h
  have hlookups : ∀ l ∈ f.lookups.map fun l => { l with aborted := true },
      l.aborted = true := by simp
  split
  · rename_i hname
    refine ⟨?_, fun l hl hlive => ?_, fun address haddress => ?_⟩
    · rintro _ ⟨⟩
      exact ⟨rfl, hname⟩
    · rw [hlookups l hl] at hlive
      cases hlive
    · obtain ⟨-, value, hverifies, -⟩ := h.address address haddress
      exact ⟨(looksLikeENSName_trim recipientWallet).symm.trans hname, value, hverifies,
        fun hnone => by cases hnone⟩
  · refine ⟨fun _ hsome => (by cases hsome), fun l hl hlive => ?_,
      fun _ hsome => (by cases hsome)⟩
    rw [hlookups l hl] at hlive
    cases hlive

theorem Fresh.fire (h : f.Fresh replies) {value : String} (htimer : f.timer = some value) :
    (f.fire value).Fresh replies where
  timer _ hsome := by cases hsome
  lookups l hl hlive := by
    rcases List.mem_append.1 hl with hold | hnew
    · obtain ⟨hnone, -⟩ := h.lookups l hold hlive
      rw [htimer] at hnone
      cases hnone
    · obtain rfl := List.mem_singleton.1 hnew
      obtain ⟨hvalue, hname⟩ := h.timer value htimer
      exact ⟨rfl, hvalue, hname⟩
  address _ hsome := by cases hsome

theorem Fresh.settle (h : f.Fresh replies) {lookup : Lookup} {reply : LookupReply}
    (hlookup : lookup ∈ f.lookups) (hreply : replies lookup.value reply) :
    (f.settle lookup reply).Fresh replies := by
  have hlookups : ∀ l ∈ f.lookups.erase lookup, l.aborted = false →
      f.timer = none ∧ l.value = trim f.recipientWallet ∧ looksLikeENSName l.value = true :=
    fun l hl => h.lookups l (List.mem_of_mem_erase hl)
  rw [IntakeForm.settle]
  split
  · exact ⟨h.timer, hlookups, h.address⟩
  rename_i hlive
  obtain ⟨hnone, hvalue, hname⟩ := h.lookups lookup hlookup (by simpa using hlive)
  refine ⟨h.timer, hlookups, fun address haddress => ?_⟩
  have hfield : looksLikeENSName f.recipientWallet = true := by
    rw [← looksLikeENSName_trim, ← hvalue]
    exact hname
  refine ⟨hfield, lookup.value, ⟨hname, ?_⟩, fun _ => hvalue⟩
  obtain ⟨rfl, hne⟩ := LookupReply.verified_eq_some_iff.1 haddress
  exact ⟨hne, hreply⟩

theorem Fresh.step (h : f.Fresh replies) (hstep : Step replies f event f') :
    f'.Fresh replies := by
  cases hstep with
  | fill case => exact ⟨h.timer, h.lookups, h.address⟩
  | edit recipientWallet => exact h.edit recipientWallet
  | fire htimer => exact h.fire htimer
  | settle hlookup hreply => exact h.settle hlookup hreply

theorem fresh_of_reaches (hf : Reaches (Step replies) {} f) : f.Fresh replies :=
  hf.invariant (fun _ _ _ h hstep => h.step hstep) fresh_empty

/-- Whatever is typed and answered in whatever order, an address that the form has was answered
for a name; once the timer of the last edit has fired, it is the name in the field. -/
theorem address_is_current (hf : Reaches (Step replies) {} f) {address : String}
    (haddress : f.resolvedAddress = some address) :
    looksLikeENSName f.recipientWallet = true ∧ ∃ value, Verifies replies value address ∧
      (f.timer = none → value = trim f.recipientWallet) :=
  (fresh_of_reaches hf).address address haddress

end Fresh

end IntakeForm

/-! ## The route that looks names up -/

/-- What `GET /api/ens/resolve` answers. -/
inductive EnsLookup
  | error (code : ℕ) (message : String)
  | found (name address : String)

/-- What the form reads of it. -/
def EnsLookup.reply : EnsLookup → LookupReply
  | error _ _ => .json false none
  | found _ address => .json true (some address)

/-- `GET /api/ens/resolve`; `getEnsAddress` answers with an address, if there is one, or throws
an error with a message. -/
def getEnsResolve (getEnsAddress : String → Except String (Option String)) (url : String) :
    EnsLookup :=
  let params := searchParams url
  let name := toLowerCase (trim (((params.lookup "name").or (params.lookup "q")).getD ""))
  if name = "" ∨ utf16Length name < 3 then .error 400 "input required, min 3 chars"
  else if !name.toList.contains '.' then
    .error 400 "must be a valid ENS name e.g. vitalik.eth"
  else
    match getEnsAddress name with
    | .ok address =>
        match truthy address with
        | some address => .found name address
        | none => .error 404 "name not found or not registered"
    | .error message => .error 500 message

/-- What a lookup of the form may be answered: by the route, or not at all. -/
def routeReplies (getEnsAddress : String → Except String (Option String)) (origin value : String)
    (reply : LookupReply) : Prop :=
  reply = (getEnsResolve getEnsAddress (IntakeForm.lookupUrl origin value)).reply ∨ reply = .throws

/-- The form names its parameter `input`. -/
theorem searchParams_lookupUrl {origin : String} (horigin : Over IsQueryChar origin)
    (value : String) : searchParams (IntakeForm.lookupUrl origin value) = [("input", value)] := by
  let base := origin ++ "/api/ens/resolve"
  let query := "input=".toList ++ (encodeURIComponent value).toList
  have hbase : Over IsQueryChar base := (Over.append_iff _ _).2 ⟨horigin, by decide⟩
  have hurl : (IntakeForm.lookupUrl origin value).toList = base.toList ++ '?' :: query ++ [] := by
    simp [IntakeForm.lookupUrl, base, query]
  have hquery : ∀ c ∈ query, 32 < c.toNat ∧ c ≠ '#' ∧ c ≠ '&' := by
    refine List.forall_mem_append.2 ⟨?_, fun c hc => ?_⟩
    · show Over (fun c => 32 < c.toNat ∧ c ≠ '#' ∧ c ≠ '&') "input="
      decide
    · obtain ⟨hspace, hmarks⟩ := over_encodeURIComponent value c hc
      exact ⟨hspace, fun heq => hmarks (by simp [heq]), fun heq => hmarks (by simp [heq])⟩
  obtain ⟨rest, hcut, hrest⟩ :=
    urlQuery_append hbase (fun c hc => ⟨(hquery c hc).1, (hquery c hc).2.1⟩) hurl
  rw [hrest (by simp), List.append_nil] at hcut
  have hsplit : query.splitOn '&' = [query] :=
    List.splitOn_eq_singleton fun hmem => (hquery '&' hmem).2.2 rfl
  have hparam : decodeParam query = ("input", value) := by
    have hname : query.takeWhile (· ≠ '=') = "input".toList := by
      simp [query, List.takeWhile]
    have hvalue : (query.dropWhile (· ≠ '=')).drop 1 = (encodeURIComponent value).toList := by
      simp [query, List.dropWhile]
    rw [decodeParam, hname, hvalue, decodeQueryText_encodeURIComponent,
      decodeQueryText_of_plain (by decide : Over IsQueryChar "input"), String.ofList_toList]
  rw [searchParams, hcut, hsplit]
  simp [query, ← hparam]

/-- The route refuses every lookup of the form. -/
theorem reply_of_lookupUrl {origin : String} (horigin : Over IsQueryChar origin)
    (getEnsAddress : String → Except String (Option String)) (value : String) :
    (getEnsResolve getEnsAddress (IntakeForm.lookupUrl origin value)).reply =
      .json false none := by
  have hname : [("input", value)].lookup "name" = none := by simp
  have hq : [("input", value)].lookup "q" = none := by simp
  have hempty : toLowerCase (trim "") = "" := by decide
  rw [getEnsResolve, searchParams_lookupUrl horigin, hname, hq]
  simp [hempty, EnsLookup.reply]

/-! ## What is staged for the form -/

section Staged

variable {getEnsAddress : String → Except String (Option String)} {origin : String}
  {f : IntakeForm}

/-- The form never has an address. -/
theorem resolvedAddress_eq_none (horigin : Over IsQueryChar origin)
    (hf : Reaches (IntakeForm.Step (routeReplies getEnsAddress origin)) {} f) :
    f.resolvedAddress = none := by
  refine Option.eq_none_iff_forall_ne_some.2 fun address haddress => ?_
  obtain ⟨-, value, ⟨-, -, hreply⟩, -⟩ :=
    (IntakeForm.fresh_of_reaches hf).address address haddress
  rcases hreply with hreply | hreply
  · rw [reply_of_lookupUrl horigin] at hreply
    cases hreply
  · cases hreply

/-- A string that is accepted is trimmed. -/
theorem eq_trim_of_zodString {field text s : String} {min : Option (Option String)}
    {max : Option ℕ} (h : zodString field min max (some (.string text)) = .ok s) :
    s = trim text := by
  simp only [zodString] at h
  split at h
  · cases h
  · cases max with
    | none => exact (Except.ok.inj h).symm
    | some maximum =>
        simp only at h
        split at h
        · cases h
        · exact (Except.ok.inj h).symm

theorem eq_trim_of_zodNullish {field text : String} {o : Option String}
    {min : Option (Option String)} {max : Option ℕ}
    (h : zodNullish (zodString field min max) (some (.string text)) = .ok o) :
    o = some (trim text) := by
  have hmap : (zodString field min max (some (.string text))).map some = .ok o := h
  obtain ⟨s, hs, hsome⟩ := map_eq_ok.1 hmap
  rw [hsome, eq_trim_of_zodString hs]

/-- What the validator reads of the recipient. -/
theorem recipient_of_safeParse {fields : List (String × Json)} {input : ServiceRequestInput}
    (h : ServiceRequestInput.safeParse (.object fields) = .ok input) :
    zodString "recipientWallet" (some (some "Recipient wallet is required.")) none
        (fields.lookup "recipientWallet") = .ok input.recipientWallet ∧
      zodNullish (zodString "recipientEnsName" (some none) (some 255))
        (fields.lookup "recipientEnsName") = .ok input.recipientEnsName ∧
      zodNullish (zodString "recipientResolvedAddress" none none)
        (fields.lookup "recipientResolvedAddress") = .ok input.recipientResolvedAddress := by
  obtain ⟨_, _, hinput, -, rfl⟩ := collect_eq_ok.1 h
  obtain ⟨_, hflag, rfl⟩ := map_eq_ok.1 hinput
  obtain ⟨_, _, haddress, -, rfl⟩ := collect_eq_ok.1 hflag
  obtain ⟨_, _, hens, hresolved, rfl⟩ := collect_eq_ok.1 haddress
  obtain ⟨_, _, hrecipient, hname, rfl⟩ := collect_eq_ok.1 hens
  obtain ⟨_, _, hparties, hwallet, rfl⟩ := collect_eq_ok.1 hrecipient
  obtain ⟨_, _, hparty, -, rfl⟩ := collect_eq_ok.1 hparties
  obtain ⟨_, _, hcase, -, rfl⟩ := collect_eq_ok.1 hparty
  obtain ⟨_, _, ⟨⟩, -, rfl⟩ := collect_eq_ok.1 hcase
  exact ⟨hwallet, hname, hresolved⟩

/-- What the validator makes of the body. -/
theorem safeParse_body {input : ServiceRequestInput}
    (h : ServiceRequestInput.safeParse f.body = .ok input) :
    input.recipientWallet = trim f.recipientWallet ∧
      input.recipientEnsName =
        (if looksLikeENSName f.recipientWallet then some (trim f.recipientWallet) else none) ∧
      input.recipientResolvedAddress = f.resolvedAddress.map trim := by
  rw [IntakeForm.body] at h
  obtain ⟨hwallet, hname, hresolved⟩ := recipient_of_safeParse h
  simp only [List.lookup_cons, String.reduceBEq] at hwallet hname hresolved
  refine ⟨eq_trim_of_zodString hwallet, ?_, ?_⟩
  · cases hlooks : looksLikeENSName f.recipientWallet with
    | true =>
        rw [hlooks, if_pos rfl] at hname
        rw [eq_trim_of_zodNullish hname, trim_trim, if_pos rfl]
    | false =>
        rw [hlooks] at hname
        exact (Except.ok.inj hname).symm
  · cases haddress : f.resolvedAddress with
    | none =>
        rw [haddress] at hresolved
        exact (Except.ok.inj hresolved).symm
    | some address =>
        rw [haddress] at hresolved
        exact eq_trim_of_zodNullish hresolved

/-- Whatever is typed into the form and answered to its lookups in whatever order, and
wherever the route that it posts to is cut off: what is staged for it is served to the
address that the server has resolved the name in the field to, under this name if any, or
to the text in the field, under none. The address of the form is never fallen back on. -/
theorem staged_for_form {ens : EnsClient} {web3 : Web3} {evmAppWalletAddress : Option String}
    {clientKey : String} {session : Session} {db db' : Db}
    {point : Program.Halt serverSig Failure IntakeResponse} {id : String} {row : ServiceRequest}
    (horigin : Over IsQueryChar origin)
    (hkeys : ∀ text, '.' ∈ text.toList → web3.parsePublicKey text = none)
    (hf : Reaches (IntakeForm.Step (routeReplies getEnsAddress origin)) {} f)
    (hrun : (postServiceRequests web3 evmAppWalletAddress clientKey session (some f.body)).HaltsAt
      (ensAnswers ens) db db' point)
    (hnone : db.request? id = none) (hsome : db'.request? id = some row) :
    (looksLikeEns (trim f.recipientWallet) = true ∧
        ens.address (trim f.recipientWallet) = some row.recipientWallet ∧
        ∀ name, row.recipientEnsName = some name → name = trim f.recipientWallet) ∨
      (looksLikeEns (trim f.recipientWallet) = false ∧
        row.recipientWallet = trim f.recipientWallet ∧ row.recipientEnsName = none) := by
  obtain ⟨json, hjson, input, hinput, hstages⟩ := stagedFor_of_haltsAt hrun hnone hsome
  obtain rfl := Option.some.inj hjson
  obtain ⟨hwallet, hname, haddress⟩ := safeParse_body hinput
  have hclient : input.clientResolved = none := by
    rw [ServiceRequestInput.clientResolved, haddress, resolvedAddress_eq_none horigin hf]
    rfl
  obtain ⟨recipient, hresolved, hrefuse, hrow, hrowName⟩ := hstages.columns
  rw [← hwallet] at hname ⊢
  cases hlooks : looksLikeEns input.recipientWallet with
  | true =>
      have htrim : trim input.recipientWallet = input.recipientWallet := by
        rw [hwallet, trim_trim]
      obtain ⟨hto, hdisplay⟩ := ServiceRequestInput.resolved_of_looksLikeEns hlooks htrim hresolved
      refine Or.inl ⟨rfl, ?_, fun name hsome => ?_⟩
      · rcases hto with hserver | ⟨-, hform⟩
        · rw [hrow]
          exact hserver
        · rw [hclient] at hform
          cases hform
      · rw [hrowName, hname] at hsome
        split at hsome
        · exact (Option.some.inj hsome).symm
        · exact hdisplay name hsome
  | false =>
      obtain rfl := ServiceRequestInput.resolved_of_raw hlooks hresolved
      refine Or.inr ⟨rfl, hrow, ?_⟩
      -- A text with a dot in it is no address, and has been refused.
      have hdot : '.' ∉ input.recipientWallet.toList := by
        intro hdot
        rw [hrow] at hrefuse
        rcases (refuseWallet_eq_none_iff web3 input.recipientWallet).1 hrefuse with hevm | hkey
        · exact not_mem_of_isEvmAddress hevm hdot
        · obtain ⟨recipient, hvalid⟩ := hkey
          rw [assertValidRecipient, hkeys _ hdot] at hvalid
          cases hvalid
      have hfield : looksLikeENSName f.recipientWallet = false := by
        simp only [looksLikeENSName, ← hwallet]
        split
        · rfl
        · exact Bool.eq_false_iff.2 fun h => hdot (List.contains_iff_mem.1 h)
      rw [hrowName, hname, if_neg (by simp [hfield])]
      rfl

end Staged

/-! ## A form -/

section Examples

/-- A form in which a name has been filled in. -/
def filledForm : IntakeForm where
  case :=
    { caseCaption := "A v. B"
      plaintiffName := "A"
      defendantName := "B"
      attested := true }
  recipientWallet := "defendant.eth"
  timer := some "defendant.eth"

theorem reaches_filledForm (replies : String → LookupReply → Prop) :
    Reaches (IntakeForm.Step replies) {} filledForm := by
  let caseOnly : IntakeForm := { case := filledForm.case }
  have hedit : caseOnly.edit "defendant.eth" = filledForm := by
    have htrim : trim "defendant.eth" = "defendant.eth" := by decide
    have hname : looksLikeENSName "defendant.eth" = true := by decide
    simp [IntakeForm.edit, caseOnly, filledForm, htrim, hname]
  refine .head (.fill filledForm.case) (.head (.edit (f := caseOnly) "defendant.eth") ?_)
  rw [hedit]
  exact .refl _ _

/-- What a lookup of its name is answered, if every lookup is. -/
theorem address_is_current_of_filledForm :
    looksLikeENSName filledForm.recipientWallet = true ∧ ∃ value,
      IntakeForm.Verifies (fun _ reply => reply = .json true (some exampleEvmAddress)) value
        exampleEvmAddress ∧ value = trim filledForm.recipientWallet := by
  let replies : String → LookupReply → Prop :=
    fun _ reply => reply = .json true (some exampleEvmAddress)
  let fired : IntakeForm := filledForm.fire "defendant.eth"
  have hf : Reaches (IntakeForm.Step replies) {}
      (fired.settle ⟨"defendant.eth", false⟩ (.json true (some exampleEvmAddress))) := by
    refine (reaches_filledForm replies).trans (.head (.fire (f := filledForm) rfl) ?_)
    exact .head (.settle (f := fired) (List.mem_singleton_self _) rfl) (.refl _ _)
  obtain ⟨hname, value, hverifies, hcurrent⟩ := IntakeForm.address_is_current hf rfl
  exact ⟨hname, value, hverifies, hcurrent rfl⟩

/-- The name is served to what the server resolves it to. -/
theorem staged_for_form_of_filledForm :
    looksLikeEns (trim filledForm.recipientWallet) = true ∧
      exampleEns.address (trim filledForm.recipientWallet) = some exampleEvmAddress := by
  let input := recipientInput "defendant.eth" (some "defendant.eth")
  let recipient : Recipient := ⟨exampleEvmAddress, some "defendant.eth"⟩
  have hbody : ServiceRequestInput.safeParse filledForm.body = .ok input := by decide
  have hresolved : input.resolved exampleEns = .ok recipient := by decide
  have hkeys : ∀ text, '.' ∈ text.toList → asciiWeb3.parsePublicKey text = none :=
    fun text hdot => if_neg fun heq => by
      rw [heq] at hdot
      revert hdot
      decide
  have hrun := post_exampleSession _ _ recipient hbody hresolved refuseWallet_evm
  have horigin : Over IsQueryChar "https://eps.example" := by decide
  have hf := reaches_filledForm (routeReplies (fun _ => .ok none) "https://eps.example")
  rcases staged_for_form horigin hkeys hf hrun rfl (request?_oneServed _ _) with h | h
  · exact ⟨h.1, h.2.1⟩
  · exact absurd h.1 (by decide)

end Examples

end EpsDapp
