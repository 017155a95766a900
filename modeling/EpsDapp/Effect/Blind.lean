import EpsDapp.Effect.Restart
import EpsDapp.Effect.Settled

/-!
# Runs in two environments

A program runs in two environments whose worlds are related call by call. It comes to
the same points in both if it does not look at what their answers differ in
(`Ignores.matches`). Where the answers differ at will, it is enough that what follows
does not throw and leaves the worlds related; such parts are put together with the rest
by the rules for `Matched`.
-/

set_option autoImplicit false

namespace EpsDapp

namespace Effect

namespace Program

universe u v

variable {S : Signature.{u}} {ε α β : Type u} {W V : Type v}
  {E : Answers S ε W} {F : Answers S ε V} {R : W → V → Prop}

/-- After answers that are alike `p` goes on in the same way. -/
def Ignores (alike : ∀ o, Except ε (S.Resp o) → Except ε (S.Resp o) → Prop) :
    Program S ε α → Prop
  | .done _ => True
  | .call o k => (∀ r r', alike o r r' → k r = k r') ∧ ∀ r, (k r).Ignores alike

section Ignores

variable {alike : ∀ o, Except ε (S.Resp o) → Except ε (S.Resp o) → Prop}

theorem ignores_pure (a : α) : (pure a : Program S ε α).Ignores alike :=
  trivial

theorem ignores_throw (e : ε) : (throw e : Program S ε α).Ignores alike :=
  trivial

/-- A call that is answered alike only by one answer. -/
theorem ignores_perform {o : S.Op} (h : ∀ r r', alike o r r' → r = r') :
    (perform o : Program S ε (S.Resp o)).Ignores alike :=
  ⟨fun r r' hr => congrArg Program.done (h r r' hr), fun _ => trivial⟩

theorem ignores_bind {p : Program S ε α} {f : α → Program S ε β} (hp : p.Ignores alike)
    (hf : ∀ a, (f a).Ignores alike) : (p >>= f).Ignores alike := by
  rw [bind_eq]
  induction p with
  | done r =>
      cases r with
      | ok a => exact hf a
      | error e => trivial
  | call o k ih =>
      exact ⟨fun r r' hr => congrArg (·.bind f) (hp.1 r r' hr), fun r => ih r (hp.2 r)⟩

/-- A call of which only whether it throws is looked at. -/
theorem ignores_discard {o : S.Op} {p : Program S ε β} (hp : p.Ignores alike)
    (h : ∀ r r', alike o r r' → r.map (fun _ => ()) = r'.map fun _ => ()) :
    ((perform o : Program S ε (S.Resp o)) >>= fun _ => p).Ignores alike := by
  refine ⟨fun r r' hr => ?_, fun r => ?_⟩
  · have hmap := h r r' hr
    rcases r with e | a <;> rcases r' with e' | a'
    · cases hmap
      rfl
    · cases hmap
    · cases hmap
    · rfl
  · cases r with
    | error e => trivial
    | ok a => exact hp

theorem ignores_tryCatch {p : Program S ε α} {h : ε → Program S ε α} (hp : p.Ignores alike)
    (hh : ∀ e, (h e).Ignores alike) : (tryCatch p h).Ignores alike := by
  rw [tryCatch_eq]
  induction p with
  | done r =>
      cases r with
      | ok a => trivial
      | error e => exact hh e
  | call o k ih =>
      exact ⟨fun r r' hr => congrArg (·.handle h) (hp.1 r r' hr), fun r => ih r (hp.2 r)⟩

/-- If each answer in one world has one in a related world that is alike, a program that
ignores the difference comes to the same points in both. -/
theorem Ignores.haltsAt {p : Program S ε α} (h : p.Ignores alike)
    (hsim : ∀ w v o w' r, R w v → E w o w' r → ∃ v' r', F v o v' r' ∧ alike o r r' ∧ R w' v')
    {w w' : W} {v : V} {point : Halt S ε α} (hR : R w v) (hhalts : p.HaltsAt E w w' point) :
    ∃ v', p.HaltsAt F v v' point ∧ R w' v' := by
  induction p generalizing w v with
  | done r =>
      obtain ⟨rfl, rfl⟩ := hhalts
      exact ⟨v, ⟨rfl, rfl⟩, hR⟩
  | call o k ih =>
      rcases hhalts with ⟨rfl, rfl⟩ | ⟨w₁, r, hE, hk⟩
      · exact ⟨v, Or.inl ⟨rfl, rfl⟩, hR⟩
      · obtain ⟨v₁, r', hF, halike, hR₁⟩ := hsim w v o w₁ r hR hE
        rw [h.1 r r' halike] at hk
        obtain ⟨v', hk', hR'⟩ := ih r' (h.2 r') hR₁ hk
        exact ⟨v', Or.inr ⟨v₁, r', hF, hk'⟩, hR'⟩

end Ignores

/-- Each run of `p` in one environment has one in the other with the same result. -/
def Matched (E : Answers S ε W) (F : Answers S ε V) (R : W → V → Prop) (p : Program S ε α) :
    Prop :=
  ∀ w v w' r, R w v → p.Runs E w w' r → ∃ v', p.Runs F v v' r ∧ R w' v'

section Matched

theorem matched_done (r : Except ε α) : (Program.done r : Program S ε α).Matched E F R := by
  rintro w v _ _ hR ⟨rfl, rfl⟩
  exact ⟨v, ⟨rfl, rfl⟩, hR⟩

theorem matched_bind {p : Program S ε α} {f : α → Program S ε β} (hp : p.Matched E F R)
    (hf : ∀ a, (f a).Matched E F R) : (p >>= f).Matched E F R := by
  intro w v w' r hR hrun
  rcases (runs_bind p f w w' r).1 hrun with ⟨a, w₁, hp₁, hrest⟩ | ⟨e, hthrow, rfl⟩
  · obtain ⟨v₁, hpv, hR₁⟩ := hp w v w₁ _ hR hp₁
    obtain ⟨v', hfv, hR'⟩ := hf a w₁ v₁ w' r hR₁ hrest
    exact ⟨v', (runs_bind p f v v' r).2 (Or.inl ⟨a, v₁, hpv, hfv⟩), hR'⟩
  · obtain ⟨v', hpv, hR'⟩ := hp w v w' _ hR hthrow
    exact ⟨v', (runs_bind p f v v' _).2 (Or.inr ⟨e, hpv, rfl⟩), hR'⟩

/-- A program whose calls are all answered alike. -/
theorem Only.matched {A : S.Op → Prop} {p : Program S ε α} (h : p.Only A)
    (hsim : ∀ w v o w' r, A o → R w v → E w o w' r → ∃ v', F v o v' r ∧ R w' v') :
    p.Matched E F R :=
  fun _ _ _ _ hR hrun => h.simulates hsim hR hrun

/-- A program that does not throw, and whose calls leave the worlds related whatever they
are answered on either side. -/
theorem Resolves.matched {A : S.Op → Prop} {p : Program S ε PUnit} (h : p.Resolves)
    (honly : p.Only A) (hE : ∀ w v o w' r, A o → R w v → E w o w' r → R w' v)
    (hF : ∀ w v o, A o → R w v → ∃ v' r, F v o v' r)
    (hFR : ∀ w v o v' r, A o → R w v → F v o v' r → R w v') : p.Matched E F R := by
  intro w v w' r hR hrun
  have hleft : p.wp E (fun _ _ => True) (fun _ w => R w v) w :=
    honly.wp (fun w o w' r hA hR => hE w v o w' r hA hR) (fun _ _ _ _ => trivial) hR
  have hR' : R w' v := wp_runs p hleft hrun
  have hright : p.wp F (fun v o => A o ∧ R w' v) (fun _ v => R w' v) v :=
    honly.wp (fun v o v' r hA hR => hFR w' v o v' r hA hR) (fun _ _ hA hR => ⟨hA, hR⟩) hR'
  obtain ⟨v', r', hrun', hRv⟩ := exists_runs_of_wp (fun _ _ _ _ h => h)
    (fun v o h => hF w' v o h.1 h.2) hright
  obtain ⟨a, rfl⟩ := h.runs hrun
  obtain ⟨b, rfl⟩ := h.runs hrun'
  exact ⟨v', hrun', hRv⟩

end Matched

end Program

end Effect

end EpsDapp
