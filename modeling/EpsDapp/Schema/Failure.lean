import Mathlib.Data.Nat.Notation

/-!
# Errors

What the modelled code throws: its own error classes, the errors of the Prisma
client that it can meet, and any other error with its message.
-/

set_option autoImplicit false

namespace EpsDapp

/-- `InvalidRecipientError.reason`. -/
inductive RecipientReason
  | malformed
  | offCurve
  deriving DecidableEq, Repr

/-- A thrown error. -/
inductive Failure
  | error (message : String)
  | memoMismatch (serviceRequestId signature : String)
  | invalidRecipient (address : String) (reason : RecipientReason)
  | quotaExceeded (orgId : String) (limit : ℕ)
  | noActiveSubscription (orgId : String)
  | unauthorized (message : String)
  | forbidden (message : String)
  /-- Prisma `P2002`. -/
  | uniqueConstraint
  /-- Prisma `P2025`. -/
  | recordNotFound
  /-- `PrismaClientValidationError`. -/
  | validation
  /-- A text that cannot be stored: it holds half of a surrogate pair, or U+0000. -/
  | textRejected
  deriving DecidableEq

/-- `err.message`. -/
def Failure.message : Failure → String
  | .error m => m
  | .memoMismatch id sig =>
      "On-chain memo for service request " ++ id ++ " (sig " ++ sig ++ ") " ++
        "does not match the expected delivery memo."
  | .invalidRecipient address .offCurve =>
      "Invalid recipient address '" ++ address ++ "': key is off-curve (e.g. a Program " ++
        "Derived Address) and cannot hold a signable balance."
  | .invalidRecipient address .malformed =>
      "Invalid recipient address '" ++ address ++ "': not a valid base58-encoded Solana " ++
        "public key."
  | .quotaExceeded orgId limit =>
      "Quota exceeded: org " ++ orgId ++ " has used all " ++ toString limit ++
        " fulfilments for this period."
  | .noActiveSubscription orgId => "No active subscription for org " ++ orgId ++ "."
  | .unauthorized m => m
  | .forbidden m => m
  | .uniqueConstraint => "Unique constraint failed"
  | .recordNotFound => "Record to update not found."
  | .validation => "Argument is missing or null."
  | .textRejected => "Text is not valid Unicode."

end EpsDapp
