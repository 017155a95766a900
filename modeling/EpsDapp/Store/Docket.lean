import EpsDapp.Effect.Run

/-!
# Dockets

A docket has entries under keys. An entry is filed under a free key, and may be amended
afterwards; it is never taken away. A policy says which actor may file which entry, and make
which entry of another. What no amendment changes stays as it was filed, and who has changed
the rest may be read off the run.
-/

set_option autoImplicit false

namespace EpsDapp

open Effect

universe u v w x

/-- Who may file an entry, and make an entry of another. -/
structure Policy (A : Type u) (α : Type v) where
  files : A → α → Prop
  amends : A → α → α → Prop

namespace Policy

variable {A : Type u} {α : Type v} {κ : Type w} {β : Type x} (P : Policy A α)

/-- What may become of a key when an actor steps. -/
inductive Moves (a : A) : Option α → Option α → Prop
  | keep (o : Option α) : Moves a o o
  | file {e : α} (h : P.files a e) : Moves a none (some e)
  | amend {e e' : α} (h : P.amends a e e') : Moves a (some e) (some e')

/-- A step of a docket by an actor. -/
def Step (a : A) (d d' : κ → Option α) : Prop := ∀ k, P.Moves a (d k) (d' k)

/-- One entry has become the other. -/
def Amended : α → α → Prop := Relation.ReflTransGen fun e e' => ∃ a, P.amends a e e'

variable {P}

theorem Moves.of_some {a : A} {e : α} {o : Option α} (h : P.Moves a (some e) o) :
    ∃ e', o = some e' ∧ (e' = e ∨ P.amends a e e') := by
  cases h with
  | keep => exact ⟨e, rfl, Or.inl rfl⟩
  | amend h => exact ⟨_, rfl, Or.inr h⟩

theorem Moves.of_some_right {a : A} {e' : α} {o : Option α} (h : P.Moves a o (some e')) :
    (o = none ∧ P.files a e') ∨ ∃ e, o = some e ∧ (e = e' ∨ P.amends a e e') := by
  cases h with
  | keep => exact Or.inr ⟨e', rfl, Or.inl rfl⟩
  | file h => exact Or.inl ⟨rfl, h⟩
  | amend h => exact Or.inr ⟨_, rfl, Or.inr h⟩

/-- What no amendment changes. -/
theorem Amended.eq {f : α → β} (hf : ∀ a e e', P.amends a e e' → f e' = f e) {e e' : α}
    (h : P.Amended e e') : f e' = f e := by
  induction h with
  | refl => rfl
  | tail _ hstep ih =>
      obtain ⟨a, ha⟩ := hstep
      exact (hf a _ _ ha).trans ih

/-! ## Systems -/

section Refines

variable {σ : Type*} {Λ : Type*}

/-- A system keeps a docket: its steps, where the invariant holds, keep the invariant and are
steps of the docket by the actor of their label. -/
structure Refines (P : Policy A α) (step : σ → Λ → σ → Prop) (view : σ → κ → Option α)
    (actor : Λ → A) (Inv : σ → Prop) : Prop where
  inv : ∀ s l s', Inv s → step s l s' → Inv s'
  moves : ∀ s l s', Inv s → step s l s' → P.Step (actor l) (view s) (view s')

namespace Refines

variable {step : σ → Λ → σ → Prop} {view : σ → κ → Option α} {actor : Λ → A} {Inv : σ → Prop}
  {s t : σ} {k : κ} {e : α}

/-- Every entry of a run was filed by an actor that may, and amended since. -/
theorem exists_filed (h : P.Refines step view actor Inv) (hs : Inv s)
    (hempty : ∀ k, view s k = none) (ht : Reaches step s t) (he : view t k = some e) :
    ∃ l e₀, P.files (actor l) e₀ ∧ P.Amended e₀ e := by
  let Filed (t : σ) : Prop :=
    ∀ k e, view t k = some e → ∃ l e₀, P.files (actor l) e₀ ∧ P.Amended e₀ e
  have hstep : ∀ t l t', (Inv t ∧ Filed t) → step t l t' → Inv t' ∧ Filed t' := by
    refine fun t l t' hinv hl => ⟨h.inv t l t' hinv.1 hl, fun k e he => ?_⟩
    have hk := h.moves t l t' hinv.1 hl k
    rw [he] at hk
    rcases hk.of_some_right with ⟨-, hfiles⟩ | ⟨e', he', rfl | hamends⟩
    · exact ⟨l, e, hfiles, .refl⟩
    · exact hinv.2 k e' he'
    · obtain ⟨l₀, e₀, hfiles, hamended⟩ := hinv.2 k e' he'
      exact ⟨l₀, e₀, hfiles, hamended.tail ⟨_, hamends⟩⟩
  have hstart : Inv s ∧ Filed s := ⟨hs, fun k e he => by rw [hempty k] at he; cases he⟩
  exact (ht.invariant hstep hstart).2 k e he

/-- An entry that is there stays, and what has changed of it was changed by an actor that
may. -/
theorem exists_amended (h : P.Refines step view actor Inv) (hs : Inv s) {run : List (Λ × σ)}
    (hrun : IsRun step s run) (ht : t ∈ statesOf s run) (he : view s k = some e) :
    ∃ e', view t k = some e' ∧ P.Amended e e' ∧ ∀ (β : Type x) (f : α → β), f e' ≠ f e →
      ∃ p ∈ run, ∃ e₁ e₂, P.Amended e e₁ ∧ P.amends (actor p.1) e₁ e₂ ∧ f e₂ ≠ f e₁ := by
  induction run generalizing s e with
  | nil =>
      obtain rfl := List.mem_singleton.1 ht
      exact ⟨e, he, .refl, fun _ f hf => absurd rfl hf⟩
  | cons p run ih =>
      rcases List.mem_cons.1 ht with rfl | ht
      · exact ⟨e, he, .refl, fun _ f hf => absurd rfl hf⟩
      · have hk := h.moves _ _ _ hs hrun.1 k
        rw [he] at hk
        obtain ⟨e₁, he₁, hchange⟩ := hk.of_some
        obtain ⟨e', he', hamended, hby⟩ := ih (h.inv _ _ _ hs hrun.1) hrun.2 ht he₁
        have hfirst : P.Amended e e₁ := by
          rcases hchange with rfl | hamends
          · exact .refl
          · exact .single ⟨_, hamends⟩
        refine ⟨e', he', hfirst.trans hamended, fun β f hf => ?_⟩
        by_cases hf₁ : f e₁ = f e
        · obtain ⟨q, hq, e₂, e₃, he₂, hrest⟩ := hby β f (by rwa [hf₁])
          exact ⟨q, List.mem_cons_of_mem _ hq, e₂, e₃, hfirst.trans he₂, hrest⟩
        · rcases hchange with rfl | hamends
          · exact absurd rfl hf₁
          · exact ⟨p, List.mem_cons_self, e, e₁, .refl, hamends, hf₁⟩

end Refines

end Refines

end Policy

end EpsDapp
