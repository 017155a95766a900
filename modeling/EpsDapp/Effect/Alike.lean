import EpsDapp.Effect.Wp

/-!
# Programs that run alike

What an observer sees of a run is its exchanges, the calls with their answers, as far
as `view` lets it see them, and its result. Two programs run alike if the observer cannot
tell a run of the first from one of the second. `Simulated` is a way to prove it call by call,
with a rule for each way of putting programs together.
-/

set_option autoImplicit false

namespace EpsDapp

namespace Effect

universe u v

/-- A call with its answer. -/
abbrev Exchange (S : Signature.{u}) (ε : Type u) := (o : S.Op) × Except ε (S.Resp o)

/-- Any call may be answered by anything; the exchanges are written down. -/
def anyAnswers {S : Signature.{u}} {ε : Type u} : Answers S ε (List (Exchange S ε)) :=
  fun trace o trace' r => trace' = trace ++ [⟨o, r⟩]

namespace Program

variable {S : Signature.{u}} {ε α β : Type u} {V : Type v} (view : Exchange S ε → V)

/-- For each run of `p` there is one of `q` that looks the same. -/
def RunsAlike (p q : Program S ε α) : Prop :=
  ∀ trace trace' r, p.Runs anyAnswers trace trace' r →
    ∃ trace'', q.Runs anyAnswers trace trace'' r ∧ trace''.map view = trace'.map view

/-- Each call of `p` can be matched by one of `q` that looks the same, and so on. -/
def Simulated : Program S ε α → Program S ε α → Prop
  | .done r, q => q = .done r
  | .call o k, q => ∃ o' k', q = .call o' k' ∧
      ∀ r, ∃ r', view ⟨o', r'⟩ = view ⟨o, r⟩ ∧ (k r).Simulated (k' r')

variable {view}

theorem Simulated.refl (p : Program S ε α) : p.Simulated view p := by
  induction p with
  | done r => rfl
  | call o k ih => exact ⟨o, k, rfl, fun r => ⟨r, rfl, ih r⟩⟩

theorem Simulated.bind {p q : Program S ε α} {f g : α → Program S ε β} (h : p.Simulated view q)
    (hf : ∀ a, (f a).Simulated view (g a)) : (p >>= f).Simulated view (q >>= g) := by
  rw [bind_eq, bind_eq]
  induction p generalizing q with
  | done r =>
      obtain rfl : q = .done r := h
      cases r with
      | ok a => exact hf a
      | error e => rfl
  | call o k ih =>
      obtain ⟨o', k', rfl, hk⟩ := h
      refine ⟨o', _, rfl, fun r => ?_⟩
      obtain ⟨r', hview, hr⟩ := hk r
      exact ⟨r', hview, ih r hr⟩

theorem Simulated.tryCatch {p q : Program S ε α} {f g : ε → Program S ε α}
    (h : p.Simulated view q) (hf : ∀ e, (f e).Simulated view (g e)) :
    (MonadExcept.tryCatch p f).Simulated view (MonadExcept.tryCatch q g) := by
  rw [tryCatch_eq, tryCatch_eq]
  induction p generalizing q with
  | done r =>
      obtain rfl : q = .done r := h
      cases r with
      | ok a => rfl
      | error e => exact hf e
  | call o k ih =>
      obtain ⟨o', k', rfl, hk⟩ := h
      refine ⟨o', _, rfl, fun r => ?_⟩
      obtain ⟨r', hview, hr⟩ := hk r
      exact ⟨r', hview, ih r hr⟩

theorem Simulated.runsAlike {p q : Program S ε α} (h : p.Simulated view q) :
    RunsAlike view p q := by
  have hrun : ∀ (trace₁ trace₂ trace' : List (Exchange S ε)) (r : Except ε α),
      trace₂.map view = trace₁.map view → p.Runs anyAnswers trace₁ trace' r →
      ∃ trace'', q.Runs anyAnswers trace₂ trace'' r ∧ trace''.map view = trace'.map view := by
    induction p generalizing q with
    | done r =>
        obtain rfl : q = .done r := h
        rintro trace₁ trace₂ _ _ htrace ⟨rfl, rfl⟩
        exact ⟨trace₂, ⟨rfl, rfl⟩, htrace⟩
    | call o k ih =>
        obtain ⟨o', k', rfl, hk⟩ := h
        rintro trace₁ trace₂ trace' r htrace ⟨_, r₁, rfl, hrun⟩
        obtain ⟨r', hview, hr⟩ := hk r₁
        let before : Exchange S ε := ⟨o, r₁⟩
        let after : Exchange S ε := ⟨o', r'⟩
        have hnext : (trace₂ ++ [after]).map view = (trace₁ ++ [before]).map view := by
          rw [List.map_append, List.map_append, htrace, List.map_singleton, List.map_singleton,
            hview]
        obtain ⟨trace'', hrun', hmap⟩ := ih r₁ hr _ _ trace' r hnext hrun
        exact ⟨trace'', ⟨_, r', rfl, hrun'⟩, hmap⟩
  exact fun trace trace' r => hrun trace trace trace' r rfl

end Program

end Effect

end EpsDapp
