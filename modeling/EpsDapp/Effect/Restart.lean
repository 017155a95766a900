import EpsDapp.Effect.Wp

/-!
# Programs that are run again after a crash

A process may die wherever its program awaits a call or has ended, and what is
started then finds the world as it was left. `Restarts` is a program that is run
again after each crash, up to a run that is not cut short, or to a state in which
nothing is left to do. One rule reasons about all of these runs (`Restarts.rule`),
and two lemmas give the run that a process would have gone on with: what is left
of its program (`HaltsAt.rest`), and that it comes to an end
(`exists_runs_of_wp`).
-/

set_option autoImplicit false

namespace EpsDapp

namespace Effect

universe u v

namespace Program

variable {S : Signature.{u}} {ε α β : Type u} {W : Type v} {E E' : Answers S ε W}
  {Ok : W → S.Op → Prop} {Q : Except ε α → W → Prop} {p : Program S ε α} {w w' : W}

/-- What is left of a program that is cut short: it obeys what the program obeys, and a run
of it completes the run of the program. -/
theorem HaltsAt.rest {point : Halt S ε α} (h : p.HaltsAt E w w' point) :
    ∃ p' : Program S ε α, (∀ Ok Q, p.wp E Ok Q w → p'.wp E Ok Q w') ∧
      ∀ w'' r, p'.Runs E w' w'' r → p.Runs E w w'' r := by
  induction p generalizing w with
  | done r =>
      obtain ⟨rfl, -⟩ := h
      exact ⟨.done r, fun _ _ h => h, fun _ _ h => h⟩
  | call o k ih =>
      rcases h with ⟨rfl, -⟩ | ⟨w₁, r₁, hanswer, hk⟩
      · exact ⟨.call o k, fun _ _ h => h, fun _ _ h => h⟩
      · obtain ⟨p', hwp, hruns⟩ := ih r₁ hk
        exact ⟨p', fun Ok Q h => hwp Ok Q (h.2 w₁ r₁ hanswer),
          fun w'' r h => ⟨w₁, r₁, hanswer, hruns w'' r h⟩⟩

/-- The second part of a sequence stands at a call, and so does the sequence. -/
theorem HaltsAt.bind {f : α → Program S ε β} {a : α} {w₁ : W} {o : S.Op}
    (h : p.Runs E w w₁ (.ok a)) (hf : (f a).HaltsAt E w₁ w' (.awaiting o)) :
    (p >>= f).HaltsAt E w w' (.awaiting o) := by
  rw [bind_eq]
  induction p generalizing w with
  | done r =>
      obtain ⟨rfl, rfl⟩ := h
      exact hf
  | call o k ih =>
      obtain ⟨w₂, r₂, hanswer, hk⟩ := h
      exact Or.inr ⟨w₂, r₂, hanswer, ih r₂ hk⟩

theorem HaltsAt.guarded {h : ε → Program S ε α} {o : S.Op}
    (hp : p.HaltsAt E w w' (.awaiting o)) : (tryCatch p h).HaltsAt E w w' (.awaiting o) := by
  rw [tryCatch_eq]
  induction p generalizing w with
  | done r => cases hp.2
  | call o' k ih =>
      rcases hp with ⟨rfl, ho⟩ | ⟨w₂, r₂, hanswer, hk⟩
      · cases ho
        exact Or.inl ⟨rfl, rfl⟩
      · exact Or.inr ⟨w₂, r₂, hanswer, ih r₂ hk⟩

/-- The handler stands at a call after the program has thrown. -/
theorem HaltsAt.handler {h : ε → Program S ε α} {e : ε} {w₁ : W} {o : S.Op}
    (hp : p.Runs E w w₁ (.error e)) (hh : (h e).HaltsAt E w₁ w' (.awaiting o)) :
    (tryCatch p h).HaltsAt E w w' (.awaiting o) := by
  rw [tryCatch_eq]
  induction p generalizing w with
  | done r =>
      obtain ⟨rfl, rfl⟩ := hp
      exact hh
  | call o k ih =>
      obtain ⟨w₂, r₂, hanswer, hk⟩ := hp
      exact Or.inr ⟨w₂, r₂, hanswer, ih r₂ hk⟩

/-- A program all of whose calls are answered has a run, and it ends as was shown. -/
theorem exists_runs_of_wp (hE : ∀ w o w' r, E' w o w' r → E w o w' r)
    (htotal : ∀ w o, Ok w o → ∃ w' r, E' w o w' r) (h : p.wp E Ok Q w) :
    ∃ w' r, p.Runs E' w w' r ∧ Q r w' := by
  induction p generalizing w with
  | done r => exact ⟨w, r, ⟨rfl, rfl⟩, h⟩
  | call o k ih =>
      obtain ⟨w₁, r₁, hanswer⟩ := htotal w o h.1
      obtain ⟨w', r, hk, hQ⟩ := ih r₁ (h.2 w₁ r₁ (hE _ _ _ _ hanswer))
      exact ⟨w', r, ⟨w₁, r₁, hanswer, hk⟩, hQ⟩

/-- What every answer keeps, a program keeps. -/
theorem wp_keeps {J : W → Prop} (hstep : ∀ w o w' r, J w → E w o w' r → J w') (hw : J w) :
    p.wp E (fun w _ => J w) (fun _ w => J w) w := by
  induction p generalizing w with
  | done r => exact hw
  | call o k ih => exact ⟨hw, fun w' r hanswer => ih r (hstep w o w' r hw hanswer)⟩

/-- What the allowed calls keep, a program keeps besides. -/
theorem wp_invariant {J : W → Prop} (h : p.wp E Ok Q w)
    (hstep : ∀ w o w' r, Ok w o → J w → E w o w' r → J w') (hw : J w) :
    p.wp E (fun w o => Ok w o ∧ J w) (fun r w => Q r w ∧ J w) w := by
  induction p generalizing w with
  | done r => exact ⟨h, hw⟩
  | call o k ih =>
      refine ⟨⟨h.1, hw⟩, fun w' r hanswer => ?_⟩
      exact ih r (h.2 w' r hanswer) (hstep w o w' r h.1 hw hanswer)

/-- Two obligations, each about the calls and about the end. -/
theorem wp_and_ok {Ok' : W → S.Op → Prop} {Q' : Except ε α → W → Prop} (h : p.wp E Ok Q w)
    (h' : p.wp E Ok' Q' w) :
    p.wp E (fun w o => Ok w o ∧ Ok' w o) (fun r w => Q r w ∧ Q' r w) w := by
  induction p generalizing w with
  | done r => exact ⟨h, h'⟩
  | call o k ih =>
      exact ⟨⟨h.1, h'.1⟩, fun w' r hanswer => ih r (h.2 w' r hanswer) (h'.2 w' r hanswer)⟩

/-- The calls that a program makes, as an obligation. -/
theorem Only.wp_ok {A : S.Op → Prop} (h : p.Only A) :
    p.wp E (fun _ o => A o) (fun _ _ => True) w := by
  induction p generalizing w with
  | done r => trivial
  | call o k ih => exact ⟨h.1, fun w' r _ => ih r (h.2 r)⟩

/-- `p` is run from `w`, and again after each crash, and leaves `w'`. Crashes are considered
where `may` holds; nothing is left to do where `ended` holds. -/
inductive Restarts (E : Answers S ε W) (may ended : W → Prop) (p : Program S ε α) : W → W → Prop
  | ends {w w' : W} {r : Except ε α} (h : p.Runs E w w' r) : Restarts E may ended p w w'
  | ended {w : W} (h : ended w) : Restarts E may ended p w w
  | crash {w w₁ w' : W} {point : Halt S ε α} (h : p.HaltsAt E w w₁ point) (hmay : may w₁)
      (hnext : Restarts E may ended p w₁ w') : Restarts E may ended p w w'

/-- `p` is run from `w` and may be cut short, and `next` is run then, in the same way. -/
def Resumed (E : Answers S ε W) (may ended : W → Prop) (p : Program S ε α)
    (next : Program S ε β) (w w' : W) : Prop :=
  (∃ r, p.Runs E w w' r) ∨ ∃ w₁ point, p.HaltsAt E w w₁ point ∧ may w₁ ∧
    Restarts E may ended next w₁ w'

/-- The rule of restarts: a crash leaves what a start relies on. -/
theorem Restarts.rule {may ended I Goal : W → Prop}
    (hp : ∀ w, I w → p.wp E (fun w _ => may w → I w) (fun _ w => Goal w ∧ (may w → I w)) w)
    (hended : ∀ w, I w → ended w → Goal w) (h : Restarts E may ended p w w') (hw : I w) :
    Goal w' := by
  induction h with
  | ends h => exact (wp_runs p (hp _ hw) h).1
  | ended h => exact hended _ hw h
  | @crash w w₁ w' point h hmay hnext ih =>
      have hhalts : p.wp E (fun w _ => may w → I w) (fun _ w => may w → I w) w :=
        wp_post p (fun _ _ h => h.2) (hp w hw)
      exact ih (wp_haltsAt (P := fun w _ => may w → I w) p hhalts h hmay)

end Program

end Effect

end EpsDapp
