import EpsDapp.Schema.Failure

/-!
# Sessions

What the routes read of a verified Clerk session, and the guards of
`lib/auth.ts` over it.
-/

set_option autoImplicit false

namespace EpsDapp

/-- The verified session of a request; `userId` and `orgId` are empty or absent
when there is no user or no active organization. -/
structure Session where
  userId : Option String
  orgId : Option String
  orgAdmin : Bool := false

/-- `UserAuthContext`. -/
structure UserAuthContext where
  userId : String
  orgId : Option String

/-- `AuthContext`. -/
structure AuthContext where
  userId : String
  orgId : String

/-- The value, if it is truthy. -/
def truthy (s : Option String) : Option String := s.filter fun s => s != ""

/-- `requireUser`. -/
def requireUser (session : Session) : Except Failure UserAuthContext :=
  match truthy session.userId with
  | none => .error (.unauthorized "Unauthorized: no active session")
  | some userId => .ok ⟨userId, session.orgId⟩

/-- `requireAuth`. -/
def requireAuth (session : Session) : Except Failure AuthContext :=
  match truthy session.userId with
  | none => .error (.unauthorized "Unauthorized: no active session")
  | some userId =>
      match truthy session.orgId with
      | none => .error (.unauthorized "Unauthorized: no active organization")
      | some orgId => .ok ⟨userId, orgId⟩

/-- `requireOrgAdmin`. -/
def requireOrgAdmin (session : Session) : Except Failure AuthContext := do
  let auth ← requireAuth session
  if session.orgAdmin then .ok auth
  else .error (.forbidden "Forbidden: requires organization admin role")

end EpsDapp
