import Mathlib.Tactic.TypeStar

/-!
# Programs over a signature of awaited calls

An `async` function is read as a tree: it is finished, with a value or a thrown
error, or it awaits one call and continues with whatever that call answers. A
call that rejects is answered by an error, and the continuation sees it, so
`try` and `catch` need no extra constructor. Nothing here fixes what a call
does: the answers are given separately (see `Effect/Wp.lean`), so one program
can be run alone, inside a transaction, or interleaved with others.
-/

set_option autoImplicit false

namespace EpsDapp

namespace Effect

universe u

/-- The calls a program may await, with the type each call answers with. -/
structure Signature where
  Op : Type u
  Resp : Op → Type u

/-- A program over `S` with errors in `ε`: finished with `r`, or awaiting the
call `o` and going on from its answer. -/
inductive Program (S : Signature.{u}) (ε α : Type u) : Type u
  | done (r : Except ε α)
  | call (o : S.Op) (k : Except ε (S.Resp o) → Program S ε α)

namespace Program

variable {S : Signature.{u}} {ε α β γ : Type u}

/-- Sequencing: a thrown error skips the continuation. -/
def bind : Program S ε α → (α → Program S ε β) → Program S ε β
  | .done (.ok a), f => f a
  | .done (.error e), _ => .done (.error e)
  | .call o k, f => .call o fun r => (k r).bind f

/-- `try p catch e => h e`. -/
def handle : Program S ε α → (ε → Program S ε α) → Program S ε α
  | .done (.ok a), _ => .done (.ok a)
  | .done (.error e), h => h e
  | .call o k, h => .call o fun r => (k r).handle h

/-- Await one call. -/
def perform (o : S.Op) : Program S ε (S.Resp o) :=
  .call o .done

instance : Monad (Program S ε) where
  pure a := .done (.ok a)
  bind := bind

instance : MonadExceptOf ε (Program S ε) where
  throw e := .done (.error e)
  tryCatch := handle

theorem bind_eq (p : Program S ε α) (f : α → Program S ε β) :
    (p >>= f) = p.bind f := rfl

theorem tryCatch_eq (p : Program S ε α) (h : ε → Program S ε α) :
    (tryCatch p h) = p.handle h := rfl

theorem bind_assoc (p : Program S ε α) (f : α → Program S ε β)
    (g : β → Program S ε γ) :
    (p.bind f).bind g = p.bind fun a => (f a).bind g := by
  induction p with
  | done r =>
      cases r with
      | ok a => rfl
      | error e => rfl
  | call o k ih =>
      simp only [bind, ih]

/-- Read a program over `S` as one over `T`: `into` names the call of `T` that
stands for a call of `S`, and `back` reads its answer. -/
def lift {T : Signature.{u}} (into : S.Op → T.Op)
    (back : ∀ o, Except ε (T.Resp (into o)) → Except ε (S.Resp o)) :
    Program S ε α → Program T ε α
  | .done r => .done r
  | .call o k => .call (into o) fun r => (k (back o r)).lift into back

end Program

end Effect

end EpsDapp
