import Mathlib.Data.List.Basic

/-!
# The outputs of a function with a state

A function that keeps a state between its calls answers each input of a list in turn.
Two such functions answer alike when a relation of their states is kept by every call
that may be made, and answers of related states are equal.
-/

set_option autoImplicit false

namespace EpsDapp

namespace Effect

universe u v w x

variable {σ : Type u} {τ : Type v} {α : Type w} {β : Type x}

/-- What `f` answers to `inputs`, called on them in turn from the state `s`. -/
def outputs (f : σ → α → β × σ) : σ → List α → List β
  | _, [] => []
  | s, a :: inputs => (f s a).1 :: outputs f (f s a).2 inputs

/-- The last input is answered in the state that the inputs before it lead to. -/
theorem outputs_concat (f : σ → α → β × σ) (s : σ) (inputs : List α) (a : α) :
    outputs f s (inputs ++ [a]) =
      outputs f s inputs ++ [(f (inputs.foldl (fun s a => (f s a).2) s) a).1] := by
  induction inputs generalizing s with
  | nil => rfl
  | cons b inputs ih => rw [List.cons_append, outputs, ih, outputs, List.cons_append, List.foldl_cons]

theorem length_outputs (f : σ → α → β × σ) (s : σ) (inputs : List α) :
    (outputs f s inputs).length = inputs.length := by
  induction inputs generalizing s with
  | nil => rfl
  | cons a inputs ih => rw [outputs, List.length_cons, ih, List.length_cons]

/-- What reads off the answers of a function has its states. -/
theorem outputs_map {γ : Type*} (f : σ → α → β × σ) (h : β → γ) (s : σ) (inputs : List α) :
    outputs (fun s a => (h (f s a).1, (f s a).2)) s inputs = (outputs f s inputs).map h := by
  induction inputs generalizing s with
  | nil => rfl
  | cons a inputs ih => rw [outputs, ih, outputs, List.map_cons]

/-- Simulation: related states answer alike, and stay related. -/
theorem outputs_eq_of_related {f : σ → α → β × σ} {g : τ → α → β × τ} {R : σ → τ → Prop}
    {P : α → Prop}
    (hstep : ∀ s t a, P a → R s t → (f s a).1 = (g t a).1 ∧ R (f s a).2 (g t a).2)
    {s : σ} {t : τ} (h : R s t) {inputs : List α} (hinputs : ∀ a ∈ inputs, P a) :
    outputs f s inputs = outputs g t inputs := by
  induction inputs generalizing s t with
  | nil => rfl
  | cons a inputs ih =>
      obtain ⟨hout, hnext⟩ := hstep s t a (hinputs a List.mem_cons_self) h
      rw [outputs, outputs, hout, ih hnext fun b hb => hinputs b (List.mem_cons_of_mem _ hb)]

/-- Noninterference: the answers to some of the inputs are those to them alone, when a relation
of the states is kept by an input of them on both sides and by another input on one. -/
theorem filter_zip_outputs {f : σ → α → β × σ} {R : σ → σ → Prop} {p : α → Bool}
    (hown : ∀ s t a, p a → R s t → (f s a).1 = (f t a).1 ∧ R (f s a).2 (f t a).2)
    (hother : ∀ s t a, ¬ p a → R s t → R (f s a).2 t) {s t : σ} (h : R s t) (inputs : List α) :
    (inputs.zip (outputs f s inputs)).filter (fun q => p q.1) =
      (inputs.filter p).zip (outputs f t (inputs.filter p)) := by
  induction inputs generalizing s t with
  | nil => rfl
  | cons a inputs ih =>
      rw [outputs, List.zip_cons_cons]
      by_cases ha : p a
      · obtain ⟨hout, hnext⟩ := hown s t a ha h
        rw [List.filter_cons_of_pos ha, List.filter_cons_of_pos (p := fun q : α × β => p q.1) ha,
          ih hnext, outputs, List.zip_cons_cons, hout]
      · rw [List.filter_cons_of_neg ha, List.filter_cons_of_neg (p := fun q : α × β => p q.1) ha,
          ih (hother s t a ha h)]

/-- An input is answered in a state that the inputs before it lead to. -/
theorem exists_state_of_zip_outputs {f : σ → α → β × σ} {I : σ → Prop} {s : σ}
    {inputs : List α} {before after : List (α × β)} {a : α} {b : β}
    (h : inputs.zip (outputs f s inputs) = before ++ (a, b) :: after) (hs : I s)
    (hstep : ∀ q ∈ before, ∀ s, I s → I (f s q.1).2) :
    ∃ s', I s' ∧ b = (f s' a).1 ∧
      ∃ rest : List α, rest.zip (outputs f (f s' a).2 rest) = after := by
  induction before generalizing s inputs with
  | nil =>
      cases inputs with
      | nil => cases h
      | cons c inputs =>
          obtain ⟨hhead, hafter⟩ := List.cons.inj h
          obtain ⟨rfl, rfl⟩ := Prod.mk.inj hhead
          exact ⟨s, hs, rfl, inputs, hafter⟩
  | cons q before ih =>
      cases inputs with
      | nil => cases h
      | cons c inputs =>
          obtain ⟨hhead, hafter⟩ := List.cons.inj h
          obtain rfl := hhead
          exact ih hafter (hstep _ List.mem_cons_self _ hs) fun q hq =>
            hstep q (List.mem_cons_of_mem _ hq)

end Effect

end EpsDapp
