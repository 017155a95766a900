import EpsDapp.Effect.Program

/-!
# Runs and weakest preconditions

`Answers S ε W` says how an environment with states in `W` may answer a call;
it is a relation, so an answer may be chosen, delayed behind the steps of
others, or an error. `Program.Runs` is the complete run of a program against
it. `Program.wp E Ok p Q w` is the obligation that every run of `p` from `w`
awaits each call in a state where `Ok` holds of it, and finishes in a state
where `Q` holds of the result. A run may also stop before any call it awaits,
so an `Ok` that says an invariant of the state is an invariant of every crash
point, and an `Ok` that looks at the call is a protocol the program obeys.
-/

set_option autoImplicit false

namespace EpsDapp

namespace Effect

universe u v

/-- How the environment may answer: `E w o w' r` when from the state `w` the
call `o` can be answered by `r`, leaving the state `w'`. -/
abbrev Answers (S : Signature.{u}) (ε : Type u) (W : Type v) :=
  W → (o : S.Op) → W → Except ε (S.Resp o) → Prop

namespace Program

variable {S : Signature.{u}} {ε α β : Type u} {W : Type v}

/-- `p` runs to the end from `w`, with the result `r`, leaving `w'`. -/
def Runs (E : Answers S ε W) : Program S ε α → W → W → Except ε α → Prop
  | .done r, w, w', r' => w' = w ∧ r' = r
  | .call o k, w, w', r' => ∃ w₁ r₁, E w o w₁ r₁ ∧ (k r₁).Runs E w₁ w' r'

/-- Every run of `p` from `w` awaits its calls where `Ok` allows them and ends
in `Q`. -/
def wp (E : Answers S ε W) (Ok : W → S.Op → Prop) :
    Program S ε α → (Except ε α → W → Prop) → W → Prop
  | .done r, Q, w => Q r w
  | .call o k, Q, w => Ok w o ∧ ∀ w' r, E w o w' r → (k r).wp E Ok Q w'

variable {E : Answers S ε W} {Ok : W → S.Op → Prop}

@[simp] theorem runs_done (r r' : Except ε α) (w w' : W) :
    (Program.done r : Program S ε α).Runs E w w' r' ↔ w' = w ∧ r' = r :=
  Iff.rfl

@[simp] theorem runs_pure (a : α) (w w' : W) (r' : Except ε α) :
    (pure a : Program S ε α).Runs E w w' r' ↔ w' = w ∧ r' = .ok a :=
  Iff.rfl

@[simp] theorem runs_throw (e : ε) (w w' : W) (r' : Except ε α) :
    (throw e : Program S ε α).Runs E w w' r' ↔ w' = w ∧ r' = .error e :=
  Iff.rfl

@[simp] theorem runs_perform (o : S.Op) (w w' : W) (r : Except ε (S.Resp o)) :
    (perform o : Program S ε (S.Resp o)).Runs E w w' r ↔ E w o w' r := by
  constructor
  · rintro ⟨w₁, r₁, h, rfl, rfl⟩
    exact h
  · intro h
    exact ⟨w', r, h, rfl, rfl⟩

/-- A run of a sequence is a run of its first part that throws, or one that
returns followed by a run of the second. -/
theorem runs_bind (p : Program S ε α) (f : α → Program S ε β) (w w' : W)
    (r : Except ε β) :
    (p >>= f).Runs E w w' r ↔
      (∃ a w₁, p.Runs E w w₁ (.ok a) ∧ (f a).Runs E w₁ w' r) ∨
        ∃ e, p.Runs E w w' (.error e) ∧ r = .error e := by
  rw [bind_eq]
  induction p generalizing w with
  | done q =>
      cases q with
      | ok a =>
          constructor
          · intro h
            exact Or.inl ⟨a, w, ⟨rfl, rfl⟩, h⟩
          · rintro (⟨_, _, ⟨rfl, ha⟩, hf⟩ | ⟨_, ⟨_, he⟩, _⟩)
            · cases ha
              exact hf
            · cases he
      | error e =>
          constructor
          · rintro ⟨rfl, rfl⟩
            exact Or.inr ⟨e, ⟨rfl, rfl⟩, rfl⟩
          · rintro (⟨_, _, ⟨_, ha⟩, _⟩ | ⟨_, ⟨rfl, he⟩, rfl⟩)
            · cases ha
            · cases he
              exact ⟨rfl, rfl⟩
  | call o k ih =>
      simp only [bind, Runs, ih]
      constructor
      · rintro ⟨w₁, r₁, h, ⟨a, w₂, hk, hf⟩ | ⟨e, hk, rfl⟩⟩
        · exact Or.inl ⟨a, w₂, ⟨w₁, r₁, h, hk⟩, hf⟩
        · exact Or.inr ⟨e, ⟨w₁, r₁, h, hk⟩, rfl⟩
      · rintro (⟨a, w₂, ⟨w₁, r₁, h, hk⟩, hf⟩ | ⟨e, ⟨w₁, r₁, h, hk⟩, rfl⟩)
        · exact ⟨w₁, r₁, h, Or.inl ⟨a, w₂, hk, hf⟩⟩
        · exact ⟨w₁, r₁, h, Or.inr ⟨e, hk, rfl⟩⟩

/-- A call that has one answer, and changes nothing, is answered. -/
theorem runs_bind_of_answer {o : S.Op} {a : S.Resp o} (f : S.Resp o → Program S ε β) {w w' : W}
    {r : Except ε β} (h : ∀ w₁ r₁, E w o w₁ r₁ ↔ w₁ = w ∧ r₁ = .ok a) :
    ((perform o : Program S ε (S.Resp o)) >>= f).Runs E w w' r ↔ (f a).Runs E w w' r := by
  constructor
  · intro hrun
    rcases (runs_bind _ _ _ _ _).1 hrun with ⟨a', w₁, hcall, hrest⟩ | ⟨e, hcall, -⟩
    · obtain ⟨rfl, ha⟩ := (h _ _).1 ((runs_perform _ _ _ _).1 hcall)
      cases ha
      exact hrest
    · cases ((h _ _).1 ((runs_perform _ _ _ _).1 hcall)).2
  · intro hrest
    exact (runs_bind _ _ _ _ _).2 (Or.inl
      ⟨a, w, (runs_perform _ _ _ _).2 ((h _ _).2 ⟨rfl, rfl⟩), hrest⟩)

theorem runs_map (f : α → β) (p : Program S ε α) (w w' : W) (r : Except ε β) :
    (f <$> p).Runs E w w' r ↔ ∃ r₀, p.Runs E w w' r₀ ∧ r = r₀.map f := by
  refine (runs_bind p (fun a => pure (f a)) w w' r).trans ⟨?_, ?_⟩
  · rintro (⟨a, w₁, hp, rfl, rfl⟩ | ⟨e, hp, rfl⟩)
    · exact ⟨.ok a, hp, rfl⟩
    · exact ⟨.error e, hp, rfl⟩
  · rintro ⟨e | a, hp, rfl⟩
    · exact Or.inr ⟨e, hp, rfl⟩
    · exact Or.inl ⟨a, w', hp, rfl, rfl⟩

/-- A run of `try p catch e => h e` is a run of `p` that returns, or one that
throws followed by a run of the handler. -/
theorem runs_tryCatch (p : Program S ε α) (h : ε → Program S ε α) (w w' : W)
    (r : Except ε α) :
    (tryCatch p h).Runs E w w' r ↔
      (∃ a, p.Runs E w w' (.ok a) ∧ r = .ok a) ∨
        ∃ e w₁, p.Runs E w w₁ (.error e) ∧ (h e).Runs E w₁ w' r := by
  rw [tryCatch_eq]
  induction p generalizing w with
  | done q =>
      cases q with
      | ok a =>
          constructor
          · rintro ⟨rfl, rfl⟩
            exact Or.inl ⟨a, ⟨rfl, rfl⟩, rfl⟩
          · rintro (⟨_, ⟨rfl, ha⟩, rfl⟩ | ⟨_, _, ⟨_, he⟩, _⟩)
            · cases ha
              exact ⟨rfl, rfl⟩
            · cases he
      | error e =>
          constructor
          · intro hh
            exact Or.inr ⟨e, w, ⟨rfl, rfl⟩, hh⟩
          · rintro (⟨_, ⟨_, ha⟩, _⟩ | ⟨_, _, ⟨rfl, he⟩, hh⟩)
            · cases ha
            · cases he
              exact hh
  | call o k ih =>
      simp only [handle, Runs, ih]
      constructor
      · rintro ⟨w₁, r₁, hE, ⟨a, hk, rfl⟩ | ⟨e, w₂, hk, hh⟩⟩
        · exact Or.inl ⟨a, ⟨w₁, r₁, hE, hk⟩, rfl⟩
        · exact Or.inr ⟨e, w₂, ⟨w₁, r₁, hE, hk⟩, hh⟩
      · rintro (⟨a, ⟨w₁, r₁, hE, hk⟩, rfl⟩ | ⟨e, w₂, ⟨w₁, r₁, hE, hk⟩, hh⟩)
        · exact ⟨w₁, r₁, hE, Or.inl ⟨a, hk, rfl⟩⟩
        · exact ⟨w₁, r₁, hE, Or.inr ⟨e, w₂, hk, hh⟩⟩

theorem Runs.call {o : S.Op} {k : Except ε (S.Resp o) → Program S ε α} {w w₁ w' : W}
    {r₁ : Except ε (S.Resp o)} {r : Except ε α} (h : E w o w₁ r₁)
    (hk : (k r₁).Runs E w₁ w' r) : (Program.call o k).Runs E w w' r :=
  ⟨w₁, r₁, h, hk⟩

/-- More answers allow more runs. -/
theorem Runs.mono {E' : Answers S ε W} {p : Program S ε α} {w w' : W} {r : Except ε α}
    (hE : ∀ w o w' r, E w o w' r → E' w o w' r) (h : p.Runs E w w' r) : p.Runs E' w w' r := by
  induction p generalizing w with
  | done q => exact h
  | call o k ih =>
      obtain ⟨w₁, r₁, h₁, hk⟩ := h
      exact ⟨w₁, r₁, hE _ _ _ _ h₁, ih r₁ hk⟩

/-- When every call has an answer, every program has a run. -/
theorem exists_runs (hE : ∀ w o, ∃ w' r, E w o w' r) (p : Program S ε α) (w : W) :
    ∃ w' r, p.Runs E w w' r := by
  induction p generalizing w with
  | done r => exact ⟨w, r, rfl, rfl⟩
  | call o k ih =>
      obtain ⟨w₁, r₁, h₁⟩ := hE w o
      obtain ⟨w', r, h⟩ := ih r₁ w₁
      exact ⟨w', r, w₁, r₁, h₁, h⟩

@[simp] theorem wp_done (r : Except ε α) (Q : Except ε α → W → Prop) (w : W) :
    (Program.done r : Program S ε α).wp E Ok Q w ↔ Q r w :=
  Iff.rfl

@[simp] theorem wp_pure (a : α) (Q : Except ε α → W → Prop) (w : W) :
    (pure a : Program S ε α).wp E Ok Q w ↔ Q (.ok a) w :=
  Iff.rfl

@[simp] theorem wp_throw (e : ε) (Q : Except ε α → W → Prop) (w : W) :
    (throw e : Program S ε α).wp E Ok Q w ↔ Q (.error e) w :=
  Iff.rfl

@[simp] theorem wp_perform (o : S.Op) (Q : Except ε (S.Resp o) → W → Prop) (w : W) :
    (perform o : Program S ε (S.Resp o)).wp E Ok Q w ↔
      Ok w o ∧ ∀ w' r, E w o w' r → Q r w' :=
  Iff.rfl

theorem wp_bind (p : Program S ε α) (f : α → Program S ε β)
    (Q : Except ε β → W → Prop) (w : W) :
    (p >>= f).wp E Ok Q w ↔
      p.wp E Ok (fun r w' => match r with
        | .ok a => (f a).wp E Ok Q w'
        | .error e => Q (.error e) w') w := by
  rw [bind_eq]
  induction p generalizing w with
  | done q =>
      cases q with
      | ok a => exact Iff.rfl
      | error e => exact Iff.rfl
  | call o k ih =>
      simp only [bind, wp, ih]

theorem wp_map (f : α → β) (p : Program S ε α) (Q : Except ε β → W → Prop) (w : W) :
    (f <$> p).wp E Ok Q w ↔ p.wp E Ok (fun r => Q (r.map f)) w := by
  refine (wp_bind p (fun a => pure (f a)) Q w).trans ?_
  have hQ : (fun r w' => match r with
      | .ok a => (pure (f a) : Program S ε β).wp E Ok Q w'
      | .error e => Q (.error e) w') = fun r => Q (Except.map f r) := by
    funext r w'
    cases r with
    | ok a => rfl
    | error e => rfl
  exact Iff.of_eq (congrArg (fun R => p.wp E Ok R w) hQ)

theorem wp_tryCatch (p : Program S ε α) (h : ε → Program S ε α)
    (Q : Except ε α → W → Prop) (w : W) :
    (tryCatch p h).wp E Ok Q w ↔
      p.wp E Ok (fun r w' => match r with
        | .ok a => Q (.ok a) w'
        | .error e => (h e).wp E Ok Q w') w := by
  rw [tryCatch_eq]
  induction p generalizing w with
  | done q =>
      cases q with
      | ok a => exact Iff.rfl
      | error e => exact Iff.rfl
  | call o k ih =>
      simp only [handle, wp, ih]

/-- Consequence: fewer answers, weaker call obligations and a weaker result
condition. -/
theorem wp_mono {E' : Answers S ε W} {Ok' : W → S.Op → Prop}
    {Q Q' : Except ε α → W → Prop} (p : Program S ε α) {w : W}
    (hE : ∀ w o w' r, E' w o w' r → E w o w' r) (hOk : ∀ w o, Ok w o → Ok' w o)
    (hQ : ∀ r w, Q r w → Q' r w) (h : p.wp E Ok Q w) : p.wp E' Ok' Q' w := by
  induction p generalizing w with
  | done r => exact hQ r w h
  | call o k ih =>
      refine ⟨hOk w o h.1, fun w' r hr => ?_⟩
      exact ih r (h.2 w' r (hE w o w' r hr))

theorem wp_post {Q Q' : Except ε α → W → Prop} (p : Program S ε α) {w : W}
    (hQ : ∀ r w, Q r w → Q' r w) (h : p.wp E Ok Q w) : p.wp E Ok Q' w :=
  wp_mono p (fun _ _ _ _ h => h) (fun _ _ h => h) hQ h

/-- The rule for a sequence, with `R` in between. -/
theorem wp_seq {p : Program S ε α} {f : α → Program S ε β} {R : Except ε α → W → Prop}
    {Q : Except ε β → W → Prop} {w : W} (hp : p.wp E Ok R w)
    (hok : ∀ a w, R (.ok a) w → (f a).wp E Ok Q w)
    (hthrow : ∀ e w, R (.error e) w → Q (.error e) w) : (p >>= f).wp E Ok Q w := by
  refine (wp_bind p f Q w).2 (wp_post p (fun r w hr => ?_) hp)
  cases r with
  | ok a => exact hok a w hr
  | error e => exact hthrow e w hr

/-- The rule for `try` and `catch`, with `R` in between. -/
theorem wp_catch {p : Program S ε α} {h : ε → Program S ε α} {R Q : Except ε α → W → Prop}
    {w : W} (hp : p.wp E Ok R w) (hok : ∀ a w, R (.ok a) w → Q (.ok a) w)
    (hthrow : ∀ e w, R (.error e) w → (h e).wp E Ok Q w) : (tryCatch p h).wp E Ok Q w := by
  refine (wp_tryCatch p h Q w).2 (wp_post p (fun r w hr => ?_) hp)
  cases r with
  | ok a => exact hok a w hr
  | error e => exact hthrow e w hr

/-- Two obligations at once. -/
theorem wp_and {Ok' : W → S.Op → Prop} {Q Q' : Except ε α → W → Prop} {p : Program S ε α}
    {w : W} (h : p.wp E Ok Q w) (h' : p.wp E Ok' Q' w) :
    p.wp E Ok (fun r w => Q r w ∧ Q' r w) w := by
  induction p generalizing w with
  | done r => exact ⟨h, h'⟩
  | call o k ih => exact ⟨h.1, fun w' r hr => ih r (h.2 w' r hr) (h'.2 w' r hr)⟩

/-- An obligation is met against answers that are simulated by others, from related worlds,
as far as the calls that are made go. -/
theorem wp_simulated {V : Type v} {F : Answers S ε V} {Ok' : V → S.Op → Prop}
    {Q : Except ε α → W → Prop} {Q' : Except ε α → V → Prop} {R : W → V → Prop}
    {p : Program S ε α} {w : W} {v : V} (hOk : ∀ w v o, R w v → Ok' v o → Ok w o)
    (hsim : ∀ w v o w' r, R w v → Ok' v o → E w o w' r → ∃ v', F v o v' r ∧ R w' v')
    (hQ : ∀ r w v, R w v → Q' r v → Q r w) (h : p.wp F Ok' Q' v) (hR : R w v) :
    p.wp E Ok Q w := by
  induction p generalizing w v with
  | done r => exact hQ r w v hR h
  | call o k ih =>
      refine ⟨hOk w v o hR h.1, fun w' r hr => ?_⟩
      obtain ⟨v', hF, hR'⟩ := hsim w v o w' r hR h.1 hr
      exact ih r (h.2 v' r hF) hR'

/-- What the obligation says about the complete runs. -/
theorem wp_runs {Q : Except ε α → W → Prop} (p : Program S ε α) {w w' : W}
    {r : Except ε α} (h : p.wp E Ok Q w) (hr : p.Runs E w w' r) : Q r w' := by
  induction p generalizing w with
  | done q =>
      obtain ⟨rfl, rfl⟩ := hr
      exact h
  | call o k ih =>
      obtain ⟨w₁, r₁, hE, hk⟩ := hr
      exact ih r₁ (h.2 w₁ r₁ hE) hk

/-- What holds of all complete runs, as an obligation. -/
theorem wp_of_runs {Q : Except ε α → W → Prop} {p : Program S ε α} {w : W}
    (h : ∀ w' r, p.Runs E w w' r → Q r w') : p.wp E (fun _ _ => True) Q w := by
  induction p generalizing w with
  | done r => exact h w r ⟨rfl, rfl⟩
  | call o k ih =>
      refine ⟨trivial, fun w₁ r₁ hanswer => ih r₁ fun w' r hk => ?_⟩
      exact h w' r ⟨w₁, r₁, hanswer, hk⟩

/-- An obligation survives the steps of others when its parts do: `R` holds
between the states others may move, and the answers may come after such
moves. -/
theorem wp_stable {R : W → W → Prop} {Q : Except ε α → W → Prop}
    (p : Program S ε α) {w w' : W}
    (hE : ∀ w w₁ o w₂ r, R w w₁ → E w₁ o w₂ r → E w o w₂ r)
    (hOk : ∀ w w₁ o, R w w₁ → Ok w o → Ok w₁ o)
    (hQ : ∀ r w w₁, R w w₁ → Q r w → Q r w₁)
    (h : p.wp E Ok Q w) (hR : R w w') : p.wp E Ok Q w' := by
  cases p with
  | done r => exact hQ r w w' hR h
  | call o k =>
      refine ⟨hOk w w' o hR h.1, fun w₂ r hr => ?_⟩
      exact h.2 w₂ r (hE w w' o w₂ r hR hr)

/-- Whatever it is answered, `p` makes only calls in `A`. -/
def Only (A : S.Op → Prop) : Program S ε α → Prop
  | .done _ => True
  | .call o k => A o ∧ ∀ r, (k r).Only A

section Only

variable {A : S.Op → Prop}

@[simp] theorem only_done (r : Except ε α) : (Program.done r : Program S ε α).Only A :=
  trivial

@[simp] theorem only_pure (a : α) : (pure a : Program S ε α).Only A :=
  trivial

@[simp] theorem only_throw (e : ε) : (throw e : Program S ε α).Only A :=
  trivial

@[simp] theorem only_perform (o : S.Op) :
    (perform o : Program S ε (S.Resp o)).Only A ↔ A o :=
  and_iff_left fun _ => trivial

theorem only_bind {p : Program S ε α} {f : α → Program S ε β} (hp : p.Only A)
    (hf : ∀ a, (f a).Only A) : (p >>= f).Only A := by
  rw [bind_eq]
  induction p with
  | done q =>
      cases q with
      | ok a => exact hf a
      | error e => trivial
  | call o k ih => exact ⟨hp.1, fun r => ih r (hp.2 r)⟩

theorem only_done_bind {r : Except ε α} {f : α → Program S ε β}
    (hf : ∀ a, r = .ok a → (f a).Only A) : (Program.done r >>= f).Only A := by
  cases r with
  | ok a => exact hf a rfl
  | error e => trivial

theorem only_map (f : α → β) {p : Program S ε α} (hp : p.Only A) : (f <$> p).Only A :=
  only_bind hp fun _ => only_pure _

theorem only_tryCatch {p : Program S ε α} {h : ε → Program S ε α} (hp : p.Only A)
    (hh : ∀ e, (h e).Only A) : (tryCatch p h).Only A := by
  rw [tryCatch_eq]
  induction p with
  | done q =>
      cases q with
      | ok a => trivial
      | error e => exact hh e
  | call o k ih => exact ⟨hp.1, fun r => ih r (hp.2 r)⟩

theorem Only.mono {A' : S.Op → Prop} {p : Program S ε α} (hA : ∀ o, A o → A' o)
    (h : p.Only A) : p.Only A' := by
  induction p with
  | done r => trivial
  | call o k ih => exact ⟨hA o h.1, fun r => ih r (h.2 r)⟩

theorem Only.and {B : S.Op → Prop} {p : Program S ε α} (h : p.Only A) (h' : p.Only B) :
    p.Only fun o => A o ∧ B o := by
  induction p with
  | done r => trivial
  | call o k ih => exact ⟨⟨h.1, h'.1⟩, fun r => ih r (h.2 r) (h'.2 r)⟩

/-- A program that makes only calls in `A` keeps what each of these calls
keeps. -/
theorem Only.wp {J : W → Prop} {p : Program S ε α} {w : W} (h : p.Only A)
    (hstep : ∀ w o w' r, A o → J w → E w o w' r → J w') (hOk : ∀ w o, A o → J w → Ok w o)
    (hw : J w) : p.wp E Ok (fun _ w => J w) w := by
  induction p generalizing w with
  | done r => exact hw
  | call o k ih =>
      refine ⟨hOk w o h.1 hw, fun w' r hr => ?_⟩
      exact ih r (h.2 r) (hstep w o w' r h.1 hw hr)

/-- If what one world answers to the calls in `A` a related one answers too, it
runs a program that makes only these calls to the same end. -/
theorem Only.simulates {V : Type v} {F : Answers S ε V} {R : W → V → Prop} {p : Program S ε α}
    (h : p.Only A)
    (hsim : ∀ w v o w' r, A o → R w v → E w o w' r → ∃ v', F v o v' r ∧ R w' v')
    {w w' : W} {v : V} {r : Except ε α} (hR : R w v) (hrun : p.Runs E w w' r) :
    ∃ v', p.Runs F v v' r ∧ R w' v' := by
  induction p generalizing w v with
  | done q =>
      obtain ⟨rfl, rfl⟩ := hrun
      exact ⟨v, ⟨rfl, rfl⟩, hR⟩
  | call o k ih =>
      obtain ⟨w₁, r₁, h₁, hk⟩ := hrun
      obtain ⟨v₁, hF, hR₁⟩ := hsim w v o w₁ r₁ h.1 hR h₁
      obtain ⟨v', hv, hR'⟩ := ih r₁ (h.2 r₁) hR₁ hk
      exact ⟨v', ⟨v₁, r₁, hF, hv⟩, hR'⟩

end Only

/-- A lifted program makes only the calls that stand for calls of its own. -/
theorem only_lift {T : Signature.{u}} {into : S.Op → T.Op}
    {back : ∀ o, Except ε (T.Resp (into o)) → Except ε (S.Resp o)} (p : Program S ε α) :
    (p.lift into back).Only fun o => ∃ c, o = into c := by
  induction p with
  | done r => trivial
  | call o k ih => exact ⟨⟨o, rfl⟩, fun r => ih _⟩

/-- A program lifted to another signature runs against what its calls stand
for. -/
theorem runs_lift {T : Signature.{u}} {into : S.Op → T.Op}
    {back : ∀ o, Except ε (T.Resp (into o)) → Except ε (S.Resp o)} (F : Answers T ε W)
    (p : Program S ε α) (w w' : W) (r : Except ε α) :
    (p.lift into back).Runs F w w' r ↔
      p.Runs (fun w o w' r => ∃ r', F w (into o) w' r' ∧ back o r' = r) w w' r := by
  induction p generalizing w with
  | done q => exact Iff.rfl
  | call o k ih =>
      simp only [lift, Runs, ih]
      constructor
      · rintro ⟨w₁, r₁, hF, hk⟩
        exact ⟨w₁, _, ⟨r₁, hF, rfl⟩, hk⟩
      · rintro ⟨w₁, _, ⟨r₁, hF, rfl⟩, hk⟩
        exact ⟨w₁, r₁, hF, hk⟩

/-- What is to be shown of a lifted program. -/
theorem wp_lift {T : Signature.{u}} {into : S.Op → T.Op}
    {back : ∀ o, Except ε (T.Resp (into o)) → Except ε (S.Resp o)} {F : Answers T ε W}
    {Ok : W → T.Op → Prop} {Q : Except ε α → W → Prop} (p : Program S ε α) (w : W) :
    (p.lift into back).wp F Ok Q w ↔
      p.wp (fun w o w' r => ∃ r', F w (into o) w' r' ∧ back o r' = r)
        (fun w o => Ok w (into o)) Q w := by
  induction p generalizing w with
  | done r => exact Iff.rfl
  | call o k ih =>
      simp only [lift, wp, ih]
      refine and_congr_right fun _ => ⟨?_, fun h w' r' hF => h w' _ ⟨r', hF, rfl⟩⟩
      rintro h w' _ ⟨r', hF, rfl⟩
      exact h w' r' hF

/-- Where a run has come to: it awaits a call, or it has ended with a result. -/
inductive Halt (S : Signature.{u}) (ε α : Type u)
  | awaiting (o : S.Op)
  | ended (r : Except ε α)

/-- `p` runs from `w` up to the state `w'`, in which it awaits a call or has ended; a
process that dies does so at such a point. -/
def HaltsAt (E : Answers S ε W) : Program S ε α → W → W → Halt S ε α → Prop
  | .done r, w, w', point => w' = w ∧ point = .ended r
  | .call o k, w, w', point => (w' = w ∧ point = .awaiting o) ∨
      ∃ w₁ r₁, E w o w₁ r₁ ∧ (k r₁).HaltsAt E w₁ w' point

/-- What the obligation says about the runs that may be cut short. -/
theorem wp_haltsAt {P : W → Halt S ε α → Prop} (p : Program S ε α) {w w' : W}
    {point : Halt S ε α}
    (h : p.wp E (fun w o => P w (.awaiting o)) (fun r w => P w (.ended r)) w)
    (hp : p.HaltsAt E w w' point) : P w' point := by
  induction p generalizing w with
  | done r =>
      obtain ⟨rfl, rfl⟩ := hp
      exact h
  | call o k ih =>
      rcases hp with ⟨rfl, rfl⟩ | ⟨w₁, r₁, hE, hk⟩
      · exact h.1
      · exact ih r₁ (h.2 w₁ r₁ hE) hk

/-- A complete run halts at its end. -/
theorem Runs.haltsAt {p : Program S ε α} {w w' : W} {r : Except ε α} (h : p.Runs E w w' r) :
    p.HaltsAt E w w' (.ended r) := by
  induction p generalizing w with
  | done q =>
      obtain ⟨rfl, rfl⟩ := h
      exact ⟨rfl, rfl⟩
  | call o k ih =>
      obtain ⟨w₁, r₁, hE, hk⟩ := h
      exact Or.inr ⟨w₁, r₁, hE, ih r₁ hk⟩

theorem HaltsAt.call {o : S.Op} {k : Except ε (S.Resp o) → Program S ε α} {w w₁ w' : W}
    {r₁ : Except ε (S.Resp o)} {t : Halt S ε α} (h : E w o w₁ r₁)
    (hk : (k r₁).HaltsAt E w₁ w' t) : (Program.call o k).HaltsAt E w w' t :=
  Or.inr ⟨w₁, r₁, h, hk⟩

/-- Whatever answers: nothing is known of them. -/
def unknownAnswers (S : Signature.{u}) (ε : Type u) : Answers S ε Unit := fun _ _ _ _ => True

/-- For some answers, `p` comes to await the call. -/
def Awaits (p : Program S ε α) (o : S.Op) : Prop :=
  p.HaltsAt (unknownAnswers S ε) () () (.awaiting o)

theorem awaits_call (o : S.Op) (k : Except ε (S.Resp o) → Program S ε α) :
    (Program.call o k).Awaits o :=
  Or.inl ⟨rfl, rfl⟩

theorem Awaits.after {o o' : S.Op} {k : Except ε (S.Resp o) → Program S ε α}
    (r : Except ε (S.Resp o)) (h : (k r).Awaits o') : (Program.call o k).Awaits o' :=
  Or.inr ⟨(), r, trivial, h⟩

theorem Awaits.holds {A : S.Op → Prop} {Q : Except ε α → Unit → Prop} {p : Program S ε α}
    {o : S.Op} (h : p.Awaits o) (hp : p.wp (unknownAnswers S ε) (fun _ o => A o) Q ()) : A o :=
  wp_haltsAt (P := fun _ point => ∀ o, point = .awaiting o → A o) p
    (wp_mono p (fun _ _ _ _ h => h) (fun _ _ hA _ ho => Halt.awaiting.inj ho ▸ hA)
      (fun _ _ _ _ ho => by cases ho) hp) h o rfl

theorem Awaits.of_only {A : S.Op → Prop} {p : Program S ε α} {o : S.Op} (h : p.Awaits o)
    (hp : p.Only A) : A o :=
  h.holds (hp.wp (J := fun _ => True) (fun _ _ _ _ _ _ _ => trivial) (fun _ _ hA _ => hA) trivial)

/-- `p` runs as one transaction: with its writes when it returns, and with none
of them when it throws. -/
def RunsAtomically (E : Answers S ε W) (p : Program S ε α) (w w' : W) :
    Except ε α → Prop
  | .ok a => p.Runs E w w' (.ok a)
  | .error e => w' = w ∧ ∃ w₁, p.Runs E w w₁ (.error e)

end Program

/-- The answers `E`, with an observer `G` that watches each call and its answer
and never changes them. -/
def Answers.observed {S : Signature.{u}} {ε : Type u} {W : Type v} {G : Type v}
    (E : Answers S ε W) (watch : G → (o : S.Op) → Except ε (S.Resp o) → G) :
    Answers S ε (W × G) :=
  fun s o s' r => E s.1 o s'.1 r ∧ s'.2 = watch s.2 o r

/-- A run can be observed from any state of the observer. -/
theorem Program.Runs.observed {S : Signature.{u}} {ε α : Type u} {W : Type v} {G : Type v}
    {E : Answers S ε W} {p : Program S ε α} {w w' : W} {r : Except ε α} (h : p.Runs E w w' r)
    (watch : G → (o : S.Op) → Except ε (S.Resp o) → G) (g : G) :
    ∃ g', p.Runs (E.observed watch) (w, g) (w', g') r := by
  induction p generalizing w g with
  | done q =>
      obtain ⟨rfl, rfl⟩ := h
      exact ⟨g, rfl, rfl⟩
  | call o k ih =>
      obtain ⟨w₁, r₁, hE, hk⟩ := h
      obtain ⟨g', hg'⟩ := ih r₁ hk (watch g o r₁)
      exact ⟨g', (w₁, watch g o r₁), r₁, ⟨hE, rfl⟩, hg'⟩

/-- An observed run is a run. -/
theorem Program.Runs.of_observed {S : Signature.{u}} {ε α : Type u} {W : Type v} {G : Type v}
    {E : Answers S ε W} {watch : G → (o : S.Op) → Except ε (S.Resp o) → G}
    {p : Program S ε α} {s s' : W × G} {r : Except ε α}
    (h : p.Runs (E.observed watch) s s' r) : p.Runs E s.1 s'.1 r := by
  induction p generalizing s with
  | done q =>
      obtain ⟨rfl, rfl⟩ := h
      exact ⟨rfl, rfl⟩
  | call o k ih =>
      obtain ⟨s₁, r₁, ⟨hE, -⟩, hk⟩ := h
      exact ⟨s₁.1, r₁, hE, ih r₁ hk⟩

/-- An observer does not change what is to be shown of the observed. -/
theorem Program.wp_observed {S : Signature.{u}} {ε α : Type u} {W : Type v} {G : Type v}
    {E : Answers S ε W} {watch : G → (o : S.Op) → Except ε (S.Resp o) → G}
    {Ok : W → S.Op → Prop} {Q : Except ε α → W → Prop} {p : Program S ε α} {w : W}
    (h : p.wp E Ok Q w) (g : G) :
    p.wp (E.observed watch) (fun s => Ok s.1) (fun r s => Q r s.1) (w, g) := by
  induction p generalizing w g with
  | done r => exact h
  | call o k ih =>
      refine ⟨h.1, ?_⟩
      rintro ⟨w', g'⟩ r ⟨hr, -⟩
      exact ih r (h.2 w' r hr) g'

end Effect

end EpsDapp
