import EpsDapp.Effect.Run
import EpsDapp.Reads.Isolation

/-!
# The poller of the detail page

The dashboard and the detail page look a request up by the user who filed it. The
badge of the detail page polls a route that looks it up by the active organization of
the session. So the badge follows the row while the row belongs to that organization,
and keeps the status it was rendered with while it does not.
-/

set_option autoImplicit false

namespace EpsDapp

open Effect ReadProgram

/-! ## What the pages show -/

namespace Db

/-- The user of the session filed the request `id`. -/
def Filed (db : Db) (session : Session) (id : String) : Prop :=
  ∃ userId, truthy session.userId = some userId ∧
    ∃ row, db.request? id = some row ∧ row.userId = some userId

/-- The dashboard has a line of the request `id`. -/
def Listed (db : Db) (session : Session) (id : String) : Prop :=
  ∃ (params : DashboardParams) (db' : Db) (banner : Option String) (lines : List DashboardRow),
    (dashboardPage params session).Runs readAnswers db db' (.ok (.page (banner, lines))) ∧
      ∃ line ∈ lines, line.id = id

/-- The detail page displays the request `id`. -/
def Detailed (db : Db) (session : Session) (id : String) : Prop :=
  ∃ (db' : Db) (detail : ServiceDetail),
    (serviceDetailPage id session).Runs readAnswers db db' (.ok (.page detail))

/-- The dashboard or the detail page shows the request `id`. -/
def Shown (db : Db) (session : Session) (id : String) : Prop :=
  db.Listed session id ∨ db.Detailed session id

theorem exists_newestFirst (db : Db) (matching : ServiceRequest → Bool) :
    ∃ rows, db.NewestFirst matching rows := by
  let le (r r' : ServiceRequest) : Bool := decide (r'.createdAt ≤ r.createdAt)
  have htrans : ∀ a b c, le a b → le b c → le a c := by
    intro a b c hab hbc
    simp only [le, decide_eq_true_eq] at hab hbc ⊢
    exact hbc.trans hab
  have htotal : ∀ a b, le a b || le b a := by
    intro a b
    simp only [le, Bool.or_eq_true, decide_eq_true_eq]
    exact le_total _ _
  refine ⟨(db.serviceRequests.rows.filter matching).mergeSort le, List.mergeSort_perm _ _, ?_⟩
  exact (List.pairwise_mergeSort htrans htotal _).imp fun h => by simpa [le] using h

variable {db : Db} {session : Session} {id : String}

theorem listed_iff : db.Listed session id ↔ db.Filed session id := by
  constructor
  · rintro ⟨params, db', banner, lines, hrun, line, hline, rfl⟩
    rw [dashboardPage] at hrun
    cases huser : truthy session.userId with
    | none =>
        rw [huser] at hrun
        cases hrun.2
    | some userId =>
        rw [huser] at hrun
        rcases (Program.runs_bind _ _ _ _ _).1 hrun with ⟨services, db₁, hread, hpage⟩ | ⟨_, _, h⟩
        · obtain ⟨-, rows, hrows, h⟩ := (Program.runs_perform _ _ _ _).1 hread
          cases h
          cases hpage.2
          simp only [List.map_map, List.mem_map] at hline
          obtain ⟨row, hrow, rfl⟩ := hline
          have hmatch := List.mem_filter.1 (hrows.1.mem_iff.1 hrow)
          exact ⟨userId, huser, row, (db.request?_eq_some_iff _ _).2 ⟨hmatch.1, rfl⟩,
            by simpa using hmatch.2⟩
        · cases h
  · rintro ⟨userId, huser, row, hrow, hfiler⟩
    obtain ⟨rows, hrows⟩ := db.exists_newestFirst fun row => row.userId == some userId
    refine ⟨{}, db, none, (rows.map db.view).map dashboardRow, ?_, dashboardRow (db.view row), ?_,
      db.request?_id hrow⟩
    · rw [dashboardPage, huser]
      exact (Program.runs_bind _ _ _ _ _).2 (.inl ⟨_, db,
        (Program.runs_perform _ _ _ _).2 ⟨rfl, rows, hrows, rfl⟩, rfl, rfl⟩)
    · have hmem : row ∈ rows := hrows.1.mem_iff.2 (List.mem_filter.2
        ⟨((db.request?_eq_some_iff _ _).1 hrow).1, by simpa using hfiler⟩)
      exact List.mem_map_of_mem (List.mem_map_of_mem hmem)

theorem detailed_iff : db.Detailed session id ↔ db.Filed session id := by
  constructor
  · rintro ⟨db', detail, hrun⟩
    rw [serviceDetailPage] at hrun
    cases huser : truthy session.userId with
    | none =>
        rw [huser] at hrun
        cases hrun.2
    | some userId =>
        rw [huser] at hrun
        have hpage := (Program.runs_bind_of_answer _ fun _ _ => Iff.rfl).1 hrun
        cases hrow : (db.request? id).filter fun row => row.userId == some userId with
        | none =>
            rw [hrow] at hpage
            cases hpage.2
        | some row =>
            obtain ⟨hrow, hfiler⟩ := Option.filter_eq_some_iff.1 hrow
            exact ⟨userId, huser, row, hrow, by simpa using hfiler⟩
  · rintro ⟨userId, huser, row, hrow, hfiler⟩
    have hfound : (db.request? id).filter (fun row => row.userId == some userId) = some row :=
      Option.filter_eq_some_iff.2 ⟨hrow, by simpa using hfiler⟩
    refine ⟨db, ⟨row, hederaLink row, solanaLink row⟩, ?_⟩
    rw [serviceDetailPage, huser]
    refine (Program.runs_bind_of_answer _ fun _ _ => Iff.rfl).2 ?_
    rw [hfound, Option.map_some]
    exact ⟨rfl, rfl⟩

/-- Both pages show the requests that the user filed. -/
theorem shown_iff : db.Shown session id ↔ db.Filed session id := by
  rw [Shown, listed_iff, detailed_iff, or_self]

end Db

/-! ## What the poller reads -/

/-- The response of a throttled request. -/
def Throttled {β : Type} : Except Failure (RouteResponse β) → Prop
  | .ok (.tooMany _ _) => True
  | _ => False

namespace Db

/-- The active organization of the session is the organization of the request `id`. -/
def InActiveOrg (db : Db) (session : Session) (id : String) : Prop :=
  ∃ orgId, truthy session.orgId = some orgId ∧
    ∃ row, db.request? id = some row ∧ db.clerkOrgOf row = some orgId

/-- A request that is not throttled has one response, which is the row. -/
def Returned (db : Db) (client : String) (session : Session) (id : String) : Prop :=
  ∃ body : ServiceJson, db.request? id = some body.request ∧
    ∀ r, (∃ db', (getServiceRequest client id session).Runs readAnswers db db' r ∧
      ¬ Throttled r) ↔ r = .ok (.ok body)

/-- The response of the route to a request that is not throttled. -/
def response (db : Db) (session : Session) (id : String) : RouteResponse ServiceJson :=
  match requireAuth session with
  | .error e => .error 401 e.message
  | .ok auth =>
      match (db.request? id).filter fun row => db.clerkOrgOf row == some auth.orgId with
      | none => .error 404 "Service request not found"
      | some row => .ok {
          request := row
          slot := row.slot.map toString
          access := db.noticeAccesses.get? row.id
          certificatePdfId := (db.certificatePdfs.get? row.id).map CertificatePdf.id }

end Db

section Route

variable {db : Db} {client : String} {session : Session} {id : String}

theorem requireAuth_error {e : Failure} (h : requireAuth session = .error e) :
    ∃ message, e = .unauthorized message := by
  rw [requireAuth] at h
  split at h
  · cases h
    exact ⟨_, rfl⟩
  · split at h
    · cases h
      exact ⟨_, rfl⟩
    · cases h

/-- A request that is not throttled has one response. -/
theorem getServiceRequest_passed {r : Except Failure (RouteResponse ServiceJson)}
    (hr : ¬ Throttled r) :
    (∃ db', (getServiceRequest client id session).Runs readAnswers db db' r) ↔
      r = .ok (db.response session id) := by
  rw [Db.response]
  constructor
  · rintro ⟨db', hrun⟩
    rcases (Program.runs_bind _ _ _ _ _).1 hrun with ⟨refused, db₁, hlimit, hrun⟩ | ⟨_, hlimit, _⟩
    · obtain ⟨hsame, refused, hrefused⟩ := (Program.runs_perform _ _ _ _).1 hlimit
      cases hrefused
      subst db₁
      cases refused with
      | some retryAfter =>
          cases hrun.2
          exact absurd trivial hr
      | none =>
          cases hauth : requireAuth session with
          | error e =>
              obtain ⟨message, rfl⟩ := requireAuth_error hauth
              simp only [hauth] at hrun
              exact hrun.2
          | ok auth =>
              simp only [hauth] at hrun
              have hread := (Program.runs_bind_of_answer _ fun _ _ => Iff.rfl).1 hrun
              cases hfound : (db.request? id).filter
                  fun row => db.clerkOrgOf row == some auth.orgId with
              | none =>
                  rw [hfound] at hread
                  simp only [hfound]
                  exact hread.2
              | some row =>
                  rw [hfound] at hread
                  simp only [hfound]
                  exact hread.2
    · obtain ⟨-, _, h⟩ := (Program.runs_perform _ _ _ _).1 hlimit
      cases h
  · rintro rfl
    refine ⟨db, (Program.runs_bind _ _ _ _ _).2 (.inl ⟨none, db,
      (Program.runs_perform _ _ _ _).2 ⟨rfl, none, rfl⟩, ?_⟩)⟩
    cases hauth : requireAuth session with
    | error e =>
        obtain ⟨message, rfl⟩ := requireAuth_error hauth
        exact ⟨rfl, rfl⟩
    | ok auth =>
        refine (Program.runs_bind_of_answer _ fun _ _ => Iff.rfl).2 ?_
        cases hfound : (db.request? id).filter
            fun row => db.clerkOrgOf row == some auth.orgId with
        | none => exact ⟨rfl, by simp only [hfound]⟩
        | some row => exact ⟨rfl, by simp only [hfound]; rfl⟩

theorem response_of_ok {body : ServiceJson} (h : db.response session id = .ok body) :
    db.request? id = some body.request ∧ db.InActiveOrg session id := by
  rw [Db.response] at h
  cases hauth : requireAuth session with
  | error e =>
      rw [hauth] at h
      cases h
  | ok auth =>
      simp only [hauth] at h
      cases hfound : (db.request? id).filter
          fun row => db.clerkOrgOf row == some auth.orgId with
      | none =>
          rw [hfound] at h
          cases h
      | some row =>
          rw [hfound] at h
          cases h
          obtain ⟨hrow, horg⟩ := Option.filter_eq_some_iff.1 hfound
          exact ⟨hrow, auth.orgId, requireAuth_ok hauth, row, hrow, by simpa using horg⟩

theorem exists_response_eq_ok {userId : String} (huser : truthy session.userId = some userId)
    (h : db.InActiveOrg session id) : ∃ body, db.response session id = .ok body := by
  obtain ⟨orgId, hactive, row, hrow, horg⟩ := h
  have hauth : requireAuth session = .ok ⟨userId, orgId⟩ := by
    simp only [requireAuth, huser, hactive]
  have hfound : (db.request? id).filter (fun row => db.clerkOrgOf row == some orgId) = some row :=
    Option.filter_eq_some_iff.2 ⟨hrow, by simpa using horg⟩
  simp only [Db.response, hauth, hfound]
  exact ⟨_, rfl⟩

theorem response_of_returned (h : db.Returned client session id) :
    ∃ body, db.response session id = .ok body := by
  obtain ⟨body, -, hresponses⟩ := h
  obtain ⟨db', hrun, hpassed⟩ := (hresponses (.ok (.ok body))).2 rfl
  exact ⟨body, (Except.ok.inj ((getServiceRequest_passed hpassed).1 ⟨db', hrun⟩)).symm⟩

theorem returned_of_response {body : ServiceJson} (h : db.response session id = .ok body) :
    db.Returned client session id := by
  have hok : Except.ok (.ok body) = (.ok (db.response session id) : Except Failure _) :=
    congrArg Except.ok h.symm
  have hpassed : ¬ Throttled (.ok (.ok body)) := not_false
  refine ⟨body, (response_of_ok h).1, fun r => ?_⟩
  constructor
  · rintro ⟨db', hrun, hr⟩
    rw [(getServiceRequest_passed hr).1 ⟨db', hrun⟩, h]
  · rintro rfl
    obtain ⟨db', hrun⟩ := (getServiceRequest_passed hpassed).2 hok
    exact ⟨db', hrun, hpassed⟩

/-- A request that the dashboard or the detail page shows is returned to the poller exactly if
it belongs to the active organization of the session. -/
theorem returned_iff_of_shown (client : String) (h : db.Shown session id) :
    db.Returned client session id ↔ db.InActiveOrg session id := by
  constructor
  · intro hreturned
    obtain ⟨body, hresponse⟩ := response_of_returned hreturned
    exact (response_of_ok hresponse).2
  · intro horg
    obtain ⟨userId, huser, -⟩ := Db.shown_iff.1 h
    obtain ⟨body, hresponse⟩ := exists_response_eq_ok huser horg
    exact returned_of_response hresponse

end Route

/-- A request that `user-1` filed for the organization `clerk-1`. -/
def filerDb : Db where
  organizations := Table.empty.insert ⟨"org-1", "clerk-1", "A", none, 0⟩ (Table.get?_empty "org-1")
  serviceRequests := Table.empty.insert
    ({ exampleFiling with userId := some "user-1" }.row "sr-1" (some "org-1") 0) rfl

theorem shown_filerDb (orgId : Option String) :
    filerDb.Shown ⟨some "user-1", orgId, false⟩ "sr-1" :=
  Db.shown_iff.2 ⟨"user-1", rfl, _, rfl, rfl⟩

theorem returned_iff_of_shown_filerDb :
    filerDb.Returned "203.0.113.7" ⟨some "user-1", some "clerk-1", false⟩ "sr-1" :=
  (returned_iff_of_shown "203.0.113.7" (shown_filerDb (some "clerk-1"))).2
    ⟨"clerk-1", rfl, _, rfl, by decide⟩

/-- The filer leaves the organization: the pages show the request, and the route refuses it. -/
theorem not_returned_of_noActiveOrg :
    ¬ ∀ (client id : String) (session : Session) (db : Db),
      db.Shown session id → db.Returned client session id := by
  intro h
  have hreturned := h "203.0.113.7" "sr-1" ⟨some "user-1", none, false⟩ filerDb (shown_filerDb none)
  obtain ⟨body, hresponse⟩ := response_of_returned hreturned
  cases hresponse

/-! ## The badge -/

/-- A tick of `LiveStatus`: an answer that is not `ok` leaves the status. -/
def liveStatusTick (status : ServiceStatus) :
    Except Failure (RouteResponse ServiceJson) → ServiceStatus
  | .ok (.ok body) => body.request.status
  | _ => status

/-- The badge polls a database, unless its status is terminal. -/
def Polls (client : String) (session : Session) (id : String) (status : ServiceStatus)
    (l : Db × Except Failure (RouteResponse ServiceJson)) (status' : ServiceStatus) : Prop :=
  ¬ status.Terminal ∧
    (∃ db', (getServiceRequest client id session).Runs readAnswers l.1 db' l.2) ∧
    status' = liveStatusTick status l.2

/-- The badge shows the status of the row after a poll that is not throttled, if the row belongs
to the active organization, and what it showed before otherwise. -/
def FollowsRow (session : Session) (id : String) (status : ServiceStatus)
    (l : Db × Except Failure (RouteResponse ServiceJson)) (status' : ServiceStatus) : Prop :=
  (l.1.InActiveOrg session id → ¬ Throttled l.2 →
    (l.1.request? id).map ServiceRequest.status = some status') ∧
  (¬ l.1.InActiveOrg session id ∨ Throttled l.2 → status' = status)

section Badge

variable {client : String} {session : Session} {id : String} {status : ServiceStatus}
  {run : List ((Db × Except Failure (RouteResponse ServiceJson)) × ServiceStatus)}

theorem Throttled.liveStatusTick_eq {r : Except Failure (RouteResponse ServiceJson)}
    (h : Throttled r) (status : ServiceStatus) : liveStatusTick status r = status := by
  cases r with
  | error e => rfl
  | ok response =>
      cases response with
      | ok body => exact h.elim
      | error code message => rfl
      | tooMany message retryAfter => rfl

theorem Polls.followsRow {userId : String} (huser : truthy session.userId = some userId)
    {l : Db × Except Failure (RouteResponse ServiceJson)} {status' : ServiceStatus}
    (h : Polls client session id status l status') : FollowsRow session id status l status' := by
  obtain ⟨-, hrun, rfl⟩ := h
  by_cases hr : Throttled l.2
  · exact ⟨fun _ hpassed => absurd hr hpassed, fun _ => hr.liveStatusTick_eq status⟩
  · have hresponse := (getServiceRequest_passed hr).1 hrun
    refine ⟨fun horg _ => ?_, fun hother => ?_⟩
    · obtain ⟨body, hbody⟩ := exists_response_eq_ok huser horg
      rw [hresponse, hbody, (response_of_ok hbody).1]
      rfl
    · have horg := hother.resolve_right hr
      rw [hresponse]
      cases hbody : l.1.response session id with
      | ok body => exact absurd (response_of_ok hbody).2 horg
      | error code message => rfl
      | tooMany message retryAfter => rfl

/-- A run of polls, over whatever databases they meet. -/
theorem followsRow_of_polls {userId : String} (huser : truthy session.userId = some userId)
    (hrun : IsRun (Polls client session id) status run) :
    IsRun (FollowsRow session id) status run :=
  hrun.mono fun _ _ _ h => h.followsRow huser

/-- While the request belongs to another organization than the active one, or to none, the badge
keeps the status it was rendered with. -/
theorem eq_of_not_inActiveOrg {userId : String} (huser : truthy session.userId = some userId)
    (hrun : IsRun (Polls client session id) status run)
    (hother : IsRun (fun _ l _ => ¬ l.1.InActiveOrg session id) status run) :
    ∀ status' ∈ statesOf status run, status' = status :=
  IsRun.invariant (fun _ _ _ hshown h => (h.1.2 (.inl h.2)).trans hshown) rfl
    (IsRun.and_iff.2 ⟨followsRow_of_polls huser hrun, hother⟩)

end Badge

end EpsDapp
