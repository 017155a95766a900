import EpsDapp.Effect.Wp

/-!
# Programs that never throw

`Resolves` says that a program returns whatever it is answered; `try` and `catch`
make one out of any program, and so does `allSettled`, which runs two programs
side by side to their ends.
-/

set_option autoImplicit false

namespace EpsDapp

namespace Effect

namespace Program

universe u v

section Resolves

variable {S : Signature.{u}} {ε α β : Type u} {W : Type v} {E : Answers S ε W}

/-- Whatever it is answered, `p` does not throw. -/
def Resolves : Program S ε α → Prop
  | .done r => ∃ a, r = .ok a
  | .call _ k => ∀ r, (k r).Resolves

theorem resolves_pure (a : α) : (pure a : Program S ε α).Resolves :=
  ⟨a, rfl⟩

theorem resolves_bind {p : Program S ε α} {f : α → Program S ε β} (hp : p.Resolves)
    (hf : ∀ a, (f a).Resolves) : (p >>= f).Resolves := by
  rw [bind_eq]
  induction p with
  | done r =>
      obtain ⟨a, rfl⟩ := hp
      exact hf a
  | call o k ih => exact fun r => ih r (hp r)

theorem resolves_tryCatch {p : Program S ε α} {h : ε → Program S ε α}
    (hh : ∀ e, (h e).Resolves) : (tryCatch p h).Resolves := by
  rw [tryCatch_eq]
  induction p with
  | done r =>
      cases r with
      | ok a => exact ⟨a, rfl⟩
      | error e => exact hh e
  | call o k ih => exact ih

theorem Resolves.runs {p : Program S ε α} (h : p.Resolves) {w w' : W} {r : Except ε α}
    (hrun : p.Runs E w w' r) : ∃ a, r = .ok a := by
  induction p generalizing w with
  | done q =>
      obtain ⟨-, rfl⟩ := hrun
      exact h
  | call o k ih =>
      obtain ⟨w₁, r₁, -, hk⟩ := hrun
      exact ih r₁ (h r₁) hk

end Resolves

section Settled

variable {S : Signature.{0}} {ε α β γ : Type}

/-- `q`, with the result `r` of another program that has ended already. -/
def settleWith (r : Except ε α) : Program S ε β → Program S ε (Except ε α × Except ε β)
  | .done r' => .done (.ok (r, r'))
  | .call o k => .call o fun r' => settleWith r (k r')

/-- The call `o`, which `rest` goes on from, beside a program some of whose calls may be
answered first. -/
def beside (next : Program S ε Bool) (o : S.Op)
    (rest : Except ε (S.Resp o) → Program S ε β → Program S ε γ) : Program S ε β → Program S ε γ
  | .done r' => .call o fun r => rest r (.done r')
  | .call o' k' => next >>= fun first =>
      if first then .call o fun r => rest r (.call o' k')
      else .call o' fun r' => beside next o rest (k' r')

/-- `Promise.allSettled([p, q])`: both run to their ends, and `next` says which of the two is
answered first while both wait. -/
def allSettled (next : Program S ε Bool) :
    Program S ε α → Program S ε β → Program S ε (Except ε α × Except ε β)
  | .done r => settleWith r
  | .call o k => beside next o fun r => allSettled next (k r)

theorem resolves_settleWith (r : Except ε α) (q : Program S ε β) :
    (settleWith r q).Resolves := by
  induction q with
  | done r' => exact ⟨_, rfl⟩
  | call o k ih => exact ih

theorem resolves_beside {next : Program S ε Bool} (hnext : next.Resolves) {o : S.Op}
    {rest : Except ε (S.Resp o) → Program S ε β → Program S ε γ}
    (hrest : ∀ r q, (rest r q).Resolves) (q : Program S ε β) :
    (beside next o rest q).Resolves := by
  induction q with
  | done r' => exact fun r => hrest r _
  | call o' k' ih =>
      refine resolves_bind hnext fun first => ?_
      split
      · exact fun r => hrest r _
      · exact ih

theorem resolves_allSettled {next : Program S ε Bool} (hnext : next.Resolves)
    (p : Program S ε α) (q : Program S ε β) : (allSettled next p q).Resolves := by
  induction p generalizing q with
  | done r => exact resolves_settleWith r q
  | call o k ih => exact resolves_beside hnext (fun r q => ih r q) q

section Wp

variable {E : Answers S ε Unit} {Ok : Unit → S.Op → Prop} {Q : Except ε α → Prop}
  {Q' : Except ε β → Prop}

theorem wp_settleWith {r : Except ε α} {q : Program S ε β} (hr : Q r)
    (hq : q.wp E Ok (fun r _ => Q' r) ()) :
    (settleWith r q).wp E Ok (fun s _ => ∀ a, s = .ok a → Q a.1 ∧ Q' a.2) () := by
  induction q with
  | done r' =>
      intro a ha
      cases ha
      exact ⟨hr, hq⟩
  | call o k ih => exact ⟨hq.1, fun _ r' hE => ih r' (hq.2 () r' hE)⟩

theorem wp_beside {R : Except ε γ → Unit → Prop} {next : Program S ε Bool} {o : S.Op}
    {rest : Except ε (S.Resp o) → Program S ε β → Program S ε γ}
    (hnext : next.wp E Ok (fun _ _ => True) ()) (hR : ∀ e, R (.error e) ()) (ho : Ok () o)
    (hrest : ∀ r q, E () o () r → q.wp E Ok (fun r _ => Q' r) () → (rest r q).wp E Ok R ())
    {q : Program S ε β} (hq : q.wp E Ok (fun r _ => Q' r) ()) :
    (beside next o rest q).wp E Ok R () := by
  induction q with
  | done r' => exact ⟨ho, fun _ r hE => hrest r _ hE hq⟩
  | call o' k' ih =>
      refine wp_seq hnext (fun first _ _ => ?_) fun e _ _ => hR e
      split
      · exact ⟨ho, fun _ r hE => hrest r _ hE hq⟩
      · exact ⟨hq.1, fun _ r' hE => ih r' (hq.2 () r' hE)⟩

/-- Each of the two programs ends as it would alone, when the answers have no state. -/
theorem wp_allSettled {next : Program S ε Bool} (hnext : next.wp E Ok (fun _ _ => True) ())
    {p : Program S ε α} {q : Program S ε β} (hp : p.wp E Ok (fun r _ => Q r) ())
    (hq : q.wp E Ok (fun r _ => Q' r) ()) :
    (allSettled next p q).wp E Ok (fun s _ => ∀ a, s = .ok a → Q a.1 ∧ Q' a.2) () := by
  induction p generalizing q with
  | done r => exact wp_settleWith hp hq
  | call o k ih =>
      refine wp_beside hnext (fun e _ h => by cases h) hp.1 (fun r q hE hq => ?_) hq
      exact ih r (hp.2 () r hE) hq

end Wp

end Settled

end Program

end Effect

end EpsDapp
