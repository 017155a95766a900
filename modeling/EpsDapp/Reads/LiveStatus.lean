import EpsDapp.Delivery.Status
import EpsDapp.Reads.Poller
import EpsDapp.Server.Throttle

/-!
# The live badge

The badge of the detail page belongs to a component that polls the row while workers and
users write it. Its fetches are answered and come back in any order. An effect is cleaned
up only after the badge has been rendered again, so a late reply may set the badge back.
But whatever the component holds, or is on its way to it, is where the row is or has moved on
from: a terminal badge is right, and stays right. The throttle of the route refuses some of
the polls, and no more than two of them in a row.
-/

set_option autoImplicit false

namespace EpsDapp

open Effect

/-! ## The component -/

/-- What the route answers a fetch. -/
abbrev PollReply := Except Failure (RouteResponse ServiceJson)

/-- `LiveStatus`: its state, what it has rendered, and its mounted effect: the status that the
effect has closed over, and the fetches of its interval that have not come back, each with the
reply once the route has answered it. A fetch of an effect that has been cleaned up sets
nothing, and is left out. -/
structure LiveStatus where
  status : ServiceStatus
  badge : ServiceStatus
  effect : ServiceStatus
  fetches : List (Option PollReply) := []

namespace LiveStatus

/-- The component of a page that has been rendered with a status. -/
def mount (initialStatus : ServiceStatus) : LiveStatus where
  status := initialStatus
  badge := initialStatus
  effect := initialStatus

/-- The interval fires. -/
def tick (v : LiveStatus) : LiveStatus := { v with fetches := v.fetches ++ [none] }

/-- A reply comes back: it is compared with what the effect has closed over, and set. -/
def receive (v : LiveStatus) (reply : PollReply) : LiveStatus :=
  let received := liveStatusTick v.effect reply
  if received = v.effect then v else { v with status := received }

/-- The state is rendered. -/
def render (v : LiveStatus) : LiveStatus := { v with badge := v.status }

/-- The effect of what has been rendered is mounted, if it is another one. -/
def flush (v : LiveStatus) : LiveStatus :=
  if v.badge = v.effect then v else { v with effect := v.badge, fetches := [] }

/-- What may happen to the component over a database. A fetch is answered in the session that
the browser then has. -/
inductive Step (client id : String) (db : Db) : LiveStatus → LiveStatus → Prop
  | tick {v : LiveStatus} (hlive : ¬ v.effect.Terminal) : Step client id db v v.tick
  | answer {v : LiveStatus} {before after : List (Option PollReply)} {reply : PollReply}
      {session : Session} {db' : Db} (hfetch : v.fetches = before ++ none :: after)
      (hrun : (getServiceRequest client id session).Runs readAnswers db db' reply) :
      Step client id db v { v with fetches := before ++ some reply :: after }
  | lose {v : LiveStatus} {before after : List (Option PollReply)} {fetch : Option PollReply}
      (hfetch : v.fetches = before ++ fetch :: after) :
      Step client id db v { v with fetches := before ++ after }
  | receive {v : LiveStatus} {before after : List (Option PollReply)} {reply : PollReply}
      (hfetch : v.fetches = before ++ some reply :: after) :
      Step client id db v ({ v with fetches := before ++ after }.receive reply)
  | render {v : LiveStatus} : Step client id db v v.render
  | flush {v : LiveStatus} : Step client id db v v.flush

/-- The component has stopped: nothing is left to render or to poll. -/
structure Rests (v : LiveStatus) : Prop where
  status : v.status = v.badge
  effect : v.effect = v.badge
  terminal : v.badge.Terminal

/-- Whatever the component holds, or is on its way to it, is where the row is or has moved on
from. -/
structure Behind (v : LiveStatus) (now : ServiceStatus) : Prop where
  status : v.status.MovesTo now
  badge : v.badge.MovesTo now
  effect : v.effect.MovesTo now
  replies : ∀ reply, some reply ∈ v.fetches → (liveStatusTick v.effect reply).MovesTo now
  idle : v.effect.Terminal → v.fetches = []

end LiveStatus

theorem ServiceStatus.MovesTo.trans {s t u : ServiceStatus} (h : s.MovesTo t)
    (h' : t.MovesTo u) : s.MovesTo u := by
  rcases h with rfl | ⟨hopen, hmoved⟩
  · exact h'
  · rcases h' with rfl | ⟨-, hlast⟩
    · exact Or.inr ⟨hopen, hmoved⟩
    · exact Or.inr ⟨hopen, hlast⟩

/-- Nothing moves on from a terminal status. -/
theorem ServiceStatus.MovesTo.eq_of_terminal {s t : ServiceStatus} (h : s.MovesTo t)
    (hs : s.Terminal) : t = s :=
  h.resolve_right fun hopen => hopen.1 hs

namespace LiveStatus

section Behind

variable {v v' : LiveStatus} {now next : ServiceStatus} {client id : String} {session : Session}
  {db : Db} {row : ServiceRequest}

theorem behind_mount (status : ServiceStatus) : (mount status).Behind status where
  status := .refl status
  badge := .refl status
  effect := .refl status
  replies _ h := by cases h
  idle _ := rfl

/-- The row moves on. -/
theorem Behind.trans (h : v.Behind now) (hmoves : now.MovesTo next) : v.Behind next where
  status := h.status.trans hmoves
  badge := h.badge.trans hmoves
  effect := h.effect.trans hmoves
  replies reply hreply := (h.replies reply hreply).trans hmoves
  idle := h.idle

/-- A reply has the status of the row, or none. -/
theorem liveStatusTick_of_runs (hrow : db.request? id = some row) {db' : Db} {reply : PollReply}
    (hrun : (getServiceRequest client id session).Runs readAnswers db db' reply)
    (status : ServiceStatus) :
    liveStatusTick status reply = row.status ∨ liveStatusTick status reply = status := by
  by_cases hreply : Throttled reply
  · exact Or.inr (hreply.liveStatusTick_eq status)
  · rw [(getServiceRequest_passed hreply).1 ⟨db', hrun⟩]
    cases hresponse : db.response session id with
    | ok body =>
        have hbody := (response_of_ok hresponse).1
        rw [hrow] at hbody
        rw [Option.some.inj hbody]
        exact Or.inl rfl
    | error code message => exact Or.inr rfl
    | tooMany message retryAfter => exact Or.inr rfl

/-- Some of the fetches are left. -/
theorem Behind.fetches (h : v.Behind now) {fetches : List (Option PollReply)}
    (hreplies : ∀ reply, some reply ∈ fetches → (liveStatusTick v.effect reply).MovesTo now)
    (hidle : v.effect.Terminal → fetches = []) : Behind { v with fetches := fetches } now where
  status := h.status
  badge := h.badge
  effect := h.effect
  replies := hreplies
  idle := hidle

theorem Behind.remove (h : v.Behind now) {before after : List (Option PollReply)}
    {fetch : Option PollReply} (hfetch : v.fetches = before ++ fetch :: after) :
    Behind { v with fetches := before ++ after } now := by
  refine h.fetches (fun reply hreply => h.replies reply ?_) fun hterminal => ?_
  · rw [hfetch]
    exact ((List.sublist_cons_self fetch after).append_left before).subset hreply
  · have hnone := h.idle hterminal
    rw [hfetch] at hnone
    cases (List.append_eq_nil_iff.1 hnone).2

theorem Behind.receive (h : v.Behind now) {reply : PollReply}
    (hreply : (liveStatusTick v.effect reply).MovesTo now) : (v.receive reply).Behind now := by
  rw [LiveStatus.receive]
  split
  · exact h
  · exact ⟨hreply, h.badge, h.effect, h.replies, h.idle⟩

theorem Behind.flush (h : v.Behind now) : v.flush.Behind now := by
  rw [LiveStatus.flush]
  split
  · exact h
  · exact ⟨h.status, h.badge, h.badge, fun _ hreply => (by cases hreply), fun _ => rfl⟩

theorem Behind.step (h : v.Behind row.status) (hrow : db.request? id = some row)
    (hstep : Step client id db v v') : v'.Behind row.status := by
  cases hstep with
  | tick hlive =>
      refine h.fetches (fun reply hreply => h.replies reply ?_) fun hterminal =>
        absurd hterminal hlive
      simpa using hreply
  | @answer before after reply session db' hfetch hrun =>
      refine h.fetches (fun other hother => ?_) fun hterminal => ?_
      · rcases List.mem_append.1 hother with hbefore | hother
        · exact h.replies other (hfetch ▸ List.mem_append_left _ hbefore)
        · rcases List.mem_cons.1 hother with heq | hafter
          · obtain rfl := Option.some.inj heq
            rcases liveStatusTick_of_runs hrow hrun v.effect with hread | hread
            · exact hread ▸ .refl row.status
            · rw [hread]
              exact h.effect
          · refine h.replies other ?_
            rw [hfetch]
            exact List.mem_append_right _ (List.mem_cons_of_mem _ hafter)
      · have hnone := h.idle hterminal
        rw [hfetch] at hnone
        cases (List.append_eq_nil_iff.1 hnone).2
  | lose hfetch => exact h.remove hfetch
  | @receive before after reply hfetch =>
      refine (h.remove hfetch).receive (h.replies reply ?_)
      rw [hfetch]
      exact List.mem_append_right before List.mem_cons_self
  | render => exact ⟨h.status, h.status, h.effect, h.replies, h.idle⟩
  | flush => exact h.flush

/-- A component that has stopped does nothing. -/
theorem Rests.eq_of_step (hrests : v.Rests) (h : v.Behind now)
    (hstep : Step client id db v v') : v' = v := by
  have hterminal : v.effect.Terminal := hrests.effect ▸ hrests.terminal
  have hnone : ∀ before (fetch : Option PollReply) after, v.fetches ≠ before ++ fetch :: after := by
    intro before fetch after hfetch
    rw [h.idle hterminal] at hfetch
    cases (List.append_eq_nil_iff.1 hfetch.symm).2
  cases hstep with
  | tick hlive => exact absurd hterminal hlive
  | answer hfetch _ => exact absurd hfetch (hnone _ _ _)
  | lose hfetch => exact absurd hfetch (hnone _ _ _)
  | receive hfetch => exact absurd hfetch (hnone _ _ _)
  | render =>
      cases v
      cases hrests.status
      rfl
  | flush => exact if_pos hrests.effect.symm

end Behind

/-! ## The page -/

/-- A step of the writers that disturbs no status, or one of the component. -/
inductive PageStep (ι : Type) [DecidableEq ι] (env : WorkerEnv) (web3 : Web3)
    (client id : String) : WriterPool ι × LiveStatus → Option (Label deliverySig Failure ι) →
      WriterPool ι × LiveStatus → Prop
  | writers {c c' : WriterPool ι} {l : Label deliverySig Failure ι} {v : LiveStatus}
      (hstep : (writers ι env web3).Step c l c') (hundisturbed : Undisturbed c l c') :
      PageStep ι env web3 client id (c, v) (some l) (c', v)
  | component {c : WriterPool ι} {v v' : LiveStatus} (hstep : Step client id c.world.db v v') :
      PageStep ι env web3 client id (c, v) none (c, v')

/-- The page is behind the row. -/
def PageInv {ι : Type} (id : String) (s : WriterPool ι × LiveStatus) : Prop :=
  s.1.Inv ∧ ∃ row, s.1.world.db.request? id = some row ∧ s.2.Behind row.status

section Page

variable {ι : Type} [DecidableEq ι] {env : WorkerEnv} {web3 : Web3} {client id : String}
  {session : Session} {s s' : WriterPool ι × LiveStatus}
  {l : Option (Label deliverySig Failure ι)}

theorem PageInv.step (h : PageInv id s) (hstep : PageStep ι env web3 client id s l s') :
    PageInv id s' := by
  obtain ⟨hinv, row, hrow, hbehind⟩ := h
  cases hstep with
  | writers hstep hundisturbed =>
      have hmoves := (hinv.movesAlong_iff hstep).2 hundisturbed
      obtain ⟨row', hrow', hstatus⟩ := hmoves id row hrow
      exact ⟨hinv.step hstep hmoves, row', hrow', hbehind.trans hstatus⟩
  | component hstep => exact ⟨hinv, row, hrow, hbehind.step hrow hstep⟩

/-- Once the component has stopped, it stays as it is. -/
theorem Rests.eq_of_reaches (hrests : s.2.Rests) (h : PageInv id s)
    (hreach : Reaches (PageStep ι env web3 client id) s s') : s'.2 = s.2 := by
  let Same (t : WriterPool ι × LiveStatus) : Prop := PageInv id t ∧ t.2 = s.2
  have hsame : Same s' := by
    refine hreach.invariant (fun t l t' ht hstep => ⟨ht.1.step hstep, ?_⟩) ⟨h, rfl⟩
    obtain ⟨⟨-, row, -, hbehind⟩, heq⟩ := ht
    cases hstep with
    | writers _ _ => exact heq
    | component hstep =>
        rw [← heq] at hrests
        exact (hrests.eq_of_step hbehind hstep).trans heq
  exact hsame.2

/-- The state has been rendered, and the effect is about it. -/
theorem settled_render_flush (v : LiveStatus) :
    v.render.flush.status = v.status ∧ v.render.flush.badge = v.status ∧
      v.render.flush.effect = v.status := by
  rw [LiveStatus.flush]
  split
  · rename_i heq
    exact ⟨rfl, rfl, heq.symm⟩
  · exact ⟨rfl, rfl, rfl⟩

theorem reaches_render_flush (c : WriterPool ι) (v : LiveStatus) :
    Reaches (PageStep ι env web3 client id) (c, v) (c, v.render.flush) :=
  .head (.component .render) (.head (.component .flush) (.refl _ _))

/-- A poll that is not throttled fetches the status of the row. -/
theorem reaches_receive {c : WriterPool ι} {v : LiveStatus} {row : ServiceRequest}
    {userId : String} (huser : truthy session.userId = some userId)
    (hrow : c.world.db.request? id = some row) (horg : c.world.db.InActiveOrg session id)
    (hlive : ¬ v.effect.Terminal) (hmoved : row.status ≠ v.effect) :
    Reaches (PageStep ι env web3 client id) (c, v) (c, { v with status := row.status }) := by
  obtain ⟨body, hbody⟩ := exists_response_eq_ok huser horg
  have hfetched : body.request = row := by
    have hfound := (response_of_ok hbody).1
    rw [hrow] at hfound
    exact (Option.some.inj hfound).symm
  let reply : PollReply := .ok (.ok body)
  have hpassed : ¬ Throttled reply := not_false
  obtain ⟨db', hrun⟩ : ∃ db', (getServiceRequest client id session).Runs readAnswers c.world.db
      db' reply := (getServiceRequest_passed hpassed).2 (congrArg Except.ok hbody.symm)
  have hset : ({ v with fetches := v.fetches ++ [] } : LiveStatus).receive reply =
      { v with status := row.status } := by
    rw [List.append_nil, LiveStatus.receive, liveStatusTick, hfetched, if_neg hmoved]
  refine .head (.component (.tick hlive)) (.head (.component (.answer rfl hrun)) ?_)
  rw [← hset]
  exact .head (.component (.receive rfl)) (.refl _ _)

/-- The page catches up with a row that has ended. -/
theorem exists_rests {c : WriterPool ι} {v : LiveStatus} {row : ServiceRequest} {userId : String}
    (huser : truthy session.userId = some userId) (hrow : c.world.db.request? id = some row)
    (horg : c.world.db.InActiveOrg session id) (hterminal : row.status.Terminal)
    (h : v.Behind row.status) :
    ∃ v', Reaches (PageStep ι env web3 client id) (c, v) (c, v') ∧ v'.Rests ∧
      v'.badge = row.status := by
  have hrests : ∀ u : LiveStatus, u.status = row.status →
      u.render.flush.Rests ∧ u.render.flush.badge = row.status := by
    intro u hu
    obtain ⟨hstatus, hbadge, heffect⟩ := settled_render_flush u
    exact ⟨⟨hstatus.trans hbadge.symm, heffect.trans hbadge.symm, by rwa [hbadge, hu]⟩,
      hbadge.trans hu⟩
  by_cases hcaught : v.status = row.status
  · exact ⟨v.render.flush, reaches_render_flush c v, hrests v hcaught⟩
  · obtain ⟨-, -, heffect⟩ := settled_render_flush v
    have hlive : ¬ v.render.flush.effect.Terminal := fun hended =>
      hcaught ((h.status.eq_of_terminal (heffect ▸ hended)).symm)
    have hmoved : row.status ≠ v.render.flush.effect := fun heq =>
      hcaught (heq.trans heffect).symm
    exact ⟨_, ((reaches_render_flush c v).trans
      (reaches_receive huser hrow horg hlive hmoved)).trans (reaches_render_flush c _),
      hrests _ rfl⟩

/-- The page shows the row of a user. -/
theorem request_of_detail {db db' : Db} {detail : ServiceDetail}
    (h : (serviceDetailPage id session).Runs readAnswers db db' (.ok (.page detail))) :
    (∃ userId, truthy session.userId = some userId) ∧ db.request? id = some detail.request := by
  rw [serviceDetailPage] at h
  cases huser : truthy session.userId with
  | none =>
      rw [huser] at h
      cases h.2
  | some userId =>
      rw [huser] at h
      have hpage := (Program.runs_bind_of_answer _ fun _ _ => Iff.rfl).1 h
      cases hfound : (db.request? id).filter fun row => row.userId == some userId with
      | none =>
          rw [hfound] at hpage
          cases hpage.2
      | some row =>
          rw [hfound] at hpage
          cases hpage.2
          exact ⟨⟨userId, rfl⟩, (Option.filter_eq_some_iff.1 hfound).1⟩

/-- Whatever the workers and the users of the demo routes do while the page is open, as long as
they disturb no status, and in whatever order its fetches are answered, come back or are lost:
the badge is never ahead of the row, and is terminal only if it is the status of the row. Once
the component has stopped, it shows the status of the row for ever; and as soon as the row has
ended, it can stop, if the request belongs to the active organization of the session. -/
theorem badge_is_genuine {db db' : Db} {c : WriterPool ι} {detail : ServiceDetail}
    (hc : Reaches (fun c l c' => (writers ι env web3).Step c l c' ∧ Undisturbed c l c')
      (WriterPool.initial db) c)
    (hpage : (serviceDetailPage id session).Runs readAnswers c.world.db db' (.ok (.page detail)))
    (hs : Reaches (PageStep ι env web3 client id) (c, mount detail.request.status) s) :
    ∃ row, s.1.world.db.request? id = some row ∧ s.2.badge.MovesTo row.status ∧
      (s.2.Rests → ∀ s', Reaches (PageStep ι env web3 client id) s s' →
        s'.2 = s.2 ∧ ∃ row', s'.1.world.db.request? id = some row' ∧
          row'.status = s.2.badge) ∧
      (row.status.Terminal → s.1.world.db.InActiveOrg session id →
        ∃ v, Reaches (PageStep ι env web3 client id) s (s.1, v) ∧ v.Rests ∧
          v.badge = row.status) := by
  obtain ⟨⟨userId, huser⟩, hrow⟩ := request_of_detail hpage
  have hinv : c.Inv := hc.invariant (fun _ _ _ hinv hstep =>
    hinv.step hstep.1 ((hinv.movesAlong_iff hstep.1).2 hstep.2)) (WriterPool.inv_initial db)
  have hpages : ∀ {s s' : WriterPool ι × LiveStatus}, PageInv id s →
      Reaches (PageStep ι env web3 client id) s s' → PageInv id s' :=
    fun h hreach => hreach.invariant (fun _ _ _ h hstep => h.step hstep) h
  have hinv' : PageInv id s := hpages ⟨hinv, _, hrow, behind_mount _⟩ hs
  obtain ⟨row, hnow, hbehind⟩ := hinv'.2
  refine ⟨row, hnow, hbehind.badge, fun hrests s' hreach => ?_, fun hterminal horg => ?_⟩
  · have hsame := hrests.eq_of_reaches hinv' hreach
    obtain ⟨-, row', hrow', hlater⟩ := hpages hinv' hreach
    exact ⟨hsame, row', hrow', (hsame ▸ hlater.badge).eq_of_terminal hrests.terminal⟩
  · exact exists_rests huser hnow horg hterminal hbehind

end Page

/-- The session of a filer in the organization of the request. -/
def filerSession : Session := ⟨some "user-1", some "clerk-1", false⟩

theorem filer_inActiveOrg : filerDb.InActiveOrg filerSession "sr-1" :=
  ⟨"clerk-1", rfl, _, rfl, by decide⟩

/-- The first poll of the page is answered with the status that the page has, and sets nothing
whenever it comes back. -/
theorem exists_stale_poll : ∃ polled : LiveStatus,
    Step "203.0.113.7" "sr-1" filerDb (mount .staged).tick polled ∧
      ∀ db, Step "203.0.113.7" "sr-1" db polled (mount .staged) := by
  obtain ⟨body, hbody⟩ := exists_response_eq_ok rfl filer_inActiveOrg
  let reply : PollReply := .ok (.ok body)
  obtain ⟨db', hrun⟩ : ∃ db', (getServiceRequest "203.0.113.7" "sr-1" filerSession).Runs
      readAnswers filerDb db' reply :=
    (getServiceRequest_passed (r := reply) not_false).2 (congrArg Except.ok hbody.symm)
  have hstatus : ServiceStatus.staged = body.request.status :=
    congrArg ServiceRequest.status (Option.some.inj (response_of_ok hbody).1)
  have hstale : (mount .staged).receive reply = mount .staged := if_pos hstatus.symm
  let polled : LiveStatus := { mount .staged with fetches := [some reply] }
  refine ⟨polled, ?_, fun db => ?_⟩
  · exact .answer (show (mount .staged).tick.fetches = [] ++ none :: [] from rfl) hrun
  · have hstep : Step "203.0.113.7" "sr-1" db polled ((mount .staged).receive reply) :=
      .receive (show polled.fetches = [] ++ some reply :: [] from rfl)
    rwa [hstale] at hstep

/-- The first poll of a page is answered before the request is fulfilled, and comes back after
it: the badge still shows the old status, and then the new one for ever. -/
theorem badge_is_genuine_of_fulfill : ∃ s s' : WriterPool Bool × LiveStatus,
    Reaches (PageStep Bool ⟨none, none⟩ asciiWeb3 "203.0.113.7" "sr-1")
      (WriterPool.initial filerDb, mount .staged) s ∧
    s.2 = mount .staged ∧ ServiceStatus.staged.MovesTo .confirmed ∧
    Reaches (PageStep Bool ⟨none, none⟩ asciiWeb3 "203.0.113.7" "sr-1") s s' ∧ s'.2.Rests ∧
    s'.2.badge = .confirmed ∧
    ∀ s'', Reaches (PageStep Bool ⟨none, none⟩ asciiWeb3 "203.0.113.7" "sr-1") s' s'' →
      s''.2 = s'.2 ∧
        ∃ row, s''.1.world.db.request? "sr-1" = some row ∧ row.status = .confirmed := by
  have hpage : (serviceDetailPage "sr-1" filerSession).Runs readAnswers filerDb filerDb
      (.ok (.page ⟨{ exampleFiling with userId := some "user-1" }.row "sr-1" (some "org-1") 0,
        none, none⟩)) :=
    .call ⟨rfl, rfl⟩ ⟨rfl, rfl⟩
  have hlive : ¬ (mount .staged).effect.Terminal := not_false
  obtain ⟨polled, hanswer, hreceive⟩ := exists_stale_poll
  have hs : Reaches (PageStep Bool ⟨none, none⟩ asciiWeb3 "203.0.113.7" "sr-1")
      (WriterPool.initial filerDb, mount .staged) (_, mount .staged) :=
    .head (.component (.tick hlive)) <| .head (.component hanswer) <|
    .head (.writers (.start (i := false) rfl
      (.fulfill true demoHedera "2026-01-31T12:00:00.000Z" ownerSession (.json (some "sr-1"))))
      trivial) <|
    .head (.writers (.act (i := false) rfl (demo_finds _ rfl)) (undisturbed_of_nil rfl)) <|
    .head (.writers (.act (i := false) rfl (demo_submits _ _)) (undisturbed_of_nil rfl)) <|
    .head (.writers (.act (i := false) rfl (demo_mints _ _)) (undisturbed_of_nil rfl)) <|
    .head (.writers (.act (i := false) rfl (demo_writes _ rfl _ rfl)) (undisturbed_of_nil rfl)) <|
    .head (.component (hreceive _)) (.refl _ _)
  obtain ⟨row, hrow, hmoves, -, hstops⟩ := badge_is_genuine (.refl _ _) hpage hs
  have hconfirmed : ServiceStatus.confirmed = row.status :=
    congrArg ServiceRequest.status (Option.some.inj hrow)
  obtain ⟨v, hreach, hrests, hbadge⟩ := hstops (hconfirmed ▸ trivial)
    ⟨"clerk-1", rfl, _, rfl, by decide⟩
  obtain ⟨-, -, -, hstays, -⟩ := badge_is_genuine (.refl _ _) hpage (hs.trans hreach)
  refine ⟨_, _, hs, rfl, hconfirmed ▸ hmoves, hreach, hrests, hbadge.trans hconfirmed.symm,
    fun s'' hs'' => ?_⟩
  obtain ⟨hsame, row', hrow', hstatus⟩ := hstays hrests s'' hs''
  exact ⟨hsame, row', hrow', hstatus.trans (hbadge.trans hconfirmed.symm)⟩

/-! ## The throttle of the polls -/

/-- `READ_LIMIT`, for the key of a client. -/
structure ReadLimited (client : String) (c : RateLimitCall) : Prop where
  key : c.key = "service-request:" ++ client
  limit : c.limit = 10
  windowMs : c.windowMs = 60000

/-- `POLL_INTERVAL_MS` -/
def pollIntervalMs : ℚ := 5000

/-- A call in the window of another comes before `n + 1` gaps have passed. -/
theorem time_lt_of_now_lt {c d : RateLimitCall} {gap : ℚ} {n : ℕ} (hgap : 60000 ≤ (n + 1) * gap)
    (h : d.now < c.now + 60000) : d.time < c.time + (n + 1) • gap := by
  have hlength : ((60000 : Double) : ℚ) = 60000 := Double.coe_ofNat (by norm_num)
  have hend := Double.coe_lt_add_of_lt h
  rw [hlength] at hend
  rw [RateLimitCall.time, RateLimitCall.time, nsmul_eq_mul]
  push_cast
  linarith

open WindowLimiter in
/-- Whatever else the limiter counts, and however long the polls of a client go on: when they
reach it `gap` milliseconds apart, no more than `k` of them are refused in a row, where
`10 + k` polls take a minute. -/
theorem polls_pass {client : String} {calls : List RateLimitCall} {gap : ℚ} {k : ℕ}
    (hread : ∀ c ∈ callsOf ("service-request:" ++ client) calls, ReadLimited client c)
    (hspaced : (callsOf ("service-request:" ++ client) calls).IsChain
      fun c d => c.time + gap ≤ d.time)
    (hgap : 60000 ≤ (10 + k) * gap) {refused : List (RateLimitCall × RateLimitResult)}
    (h : refused <:+: answersOf rateLimit ("service-request:" ++ client) calls)
    (hrefused : ∀ p ∈ refused, p.2.ok = false) : refused.length ≤ k := by
  have hten : ((10 : Double) : ℚ) = 10 := Double.coe_ofNat (by norm_num)
  have hpassed : (answersOf rateLimit ("service-request:" ++ client) calls).map passes =
      Calendar.admissions RateLimitCall.now 60000 (10 : Double)
        (callsOf ("service-request:" ++ client) calls) := by
    rw [answersOf_eq]
    exact passed_eq_admissions (by decide +kernel) (by decide +kernel)
      (fun c hc => ⟨(hread c hc).key, (hread c hc).limit, (hread c hc).windowMs⟩) fun c _ => rfl
  have hinfix := h.map passes
  rw [hpassed, hten] at hinfix
  have hfew : ∀ w ∈ Calendar.windows RateLimitCall.now 60000
      (callsOf ("service-request:" ++ client) calls), w.length ≤ ⌊(10 : ℚ)⌋₊ + k := by
    intro w hw
    have hlength := Calendar.length_le_of_mem_windows (n := 9 + k)
      (fun c d => time_lt_of_now_lt (by push_cast; linarith)) hspaced hw
    rw [Nat.floor_ofNat]
    omega
  have hlength := Calendar.length_refused_le (by norm_num) hfew hinfix fun p hp => by
    obtain ⟨q, hq, rfl⟩ := List.mem_map.1 hp
    exact hrefused q hq
  rwa [List.length_map] at hlength

open WindowLimiter in
/-- Thirteen polls at the interval of the component, of which two are refused. -/
theorem polls_pass_of_thirteen :
    let calls : List RateLimitCall := (List.range 13).map fun i : ℕ =>
      ⟨"service-request:203.0.113.7", 10, 60000, .ofRat (pollIntervalMs * i)⟩
    let answers := answersOf rateLimit ("service-request:" ++ "203.0.113.7") calls
    answers.map (fun p => p.2.ok) = List.replicate 10 true ++ [false, false, true] ∧
      ((answers.drop 10).take 2).length ≤ 2 := by
  intro calls answers
  have hread : ∀ c ∈ callsOf ("service-request:" ++ "203.0.113.7") calls,
      ReadLimited "203.0.113.7" c := by
    intro c hc
    obtain ⟨i, -, rfl⟩ := List.mem_map.1 (List.mem_filter.1 hc).1
    exact ⟨rfl, rfl, rfl⟩
  have hinfix : (answers.drop 10).take 2 <:+: answers :=
    (List.take_prefix 2 _).isInfix.trans (List.drop_suffix 10 answers).isInfix
  have hspaced : (callsOf ("service-request:" ++ "203.0.113.7") calls).IsChain
      fun c d => c.time + pollIntervalMs ≤ d.time := by decide +kernel
  refine ⟨by decide +kernel, polls_pass hread hspaced ?_ hinfix ?_⟩
  · norm_num [pollIntervalMs]
  · decide +kernel

end LiveStatus

end EpsDapp
