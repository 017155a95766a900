import Mathlib.Logic.Relation

/-!
# Runs of a labelled step relation

`IsRun step s run` says that `run`, a list of labels each with the state it
leads to, is a run from `s`. A condition on the steps of a run is the same
predicate read at the condition, so "every run whose steps all meet `cond`" is
`IsRun (fun s l s' => step s l s' ∧ cond s l s')`.
-/

set_option autoImplicit false

namespace EpsDapp

namespace Effect

universe u v

variable {σ : Type u} {Λ : Type v}

/-- `run` lists the labels and states of a run from `s`. -/
def IsRun (step : σ → Λ → σ → Prop) : σ → List (Λ × σ) → Prop
  | _, [] => True
  | s, (l, s') :: run => step s l s' ∧ IsRun step s' run

/-- The states a run passes through, the first included. -/
def statesOf (s : σ) (run : List (Λ × σ)) : List σ :=
  s :: run.map Prod.snd

/-- The state a run ends in. -/
def endOf : σ → List (Λ × σ) → σ
  | s, [] => s
  | _, (_, s') :: run => endOf s' run

@[simp] theorem endOf_nil (s : σ) : endOf s ([] : List (Λ × σ)) = s := rfl

@[simp] theorem endOf_cons (s : σ) (p : Λ × σ) (run : List (Λ × σ)) :
    endOf s (p :: run) = endOf p.2 run := rfl

theorem endOf_mem_statesOf (s : σ) (run : List (Λ × σ)) : endOf s run ∈ statesOf s run := by
  induction run generalizing s with
  | nil => exact List.mem_cons_self
  | cons p run ih => exact List.mem_cons_of_mem _ (ih p.2)

theorem endOf_append (s : σ) (run run' : List (Λ × σ)) :
    endOf s (run ++ run') = endOf (endOf s run) run' := by
  induction run generalizing s with
  | nil => rfl
  | cons p run ih => exact ih p.2

namespace IsRun

variable {step cond : σ → Λ → σ → Prop} {s : σ} {run : List (Λ × σ)}

theorem mono (h : ∀ s l s', step s l s' → cond s l s') (hrun : IsRun step s run) :
    IsRun cond s run := by
  induction run generalizing s with
  | nil => trivial
  | cons p run ih => exact ⟨h _ _ _ hrun.1, ih hrun.2⟩

theorem and_iff :
    IsRun (fun s l s' => step s l s' ∧ cond s l s') s run ↔
      IsRun step s run ∧ IsRun cond s run := by
  induction run generalizing s with
  | nil => simp [IsRun]
  | cons p run ih =>
      simp only [IsRun, ih]
      exact and_and_and_comm

theorem append_iff {run' : List (Λ × σ)} :
    IsRun step s (run ++ run') ↔ IsRun step s run ∧ IsRun step (endOf s run) run' := by
  induction run generalizing s with
  | nil => simp [IsRun]
  | cons p run ih => simp only [List.cons_append, IsRun, ih, endOf_cons, and_assoc]

/-- What every step preserves holds in every state of a run. -/
theorem invariant {Inv : σ → Prop} (hstep : ∀ s l s', Inv s → step s l s' → Inv s')
    (hs : Inv s) (hrun : IsRun step s run) : ∀ t ∈ statesOf s run, Inv t := by
  induction run generalizing s with
  | nil => simpa [statesOf] using hs
  | cons p run ih =>
      intro t ht
      rcases List.mem_cons.1 ht with rfl | ht
      · exact hs
      · exact ih (hstep _ _ _ hs hrun.1) hrun.2 t ht

/-- What every step preserves holds where the run ends. -/
theorem endOf_invariant {Inv : σ → Prop} (hstep : ∀ s l s', Inv s → step s l s' → Inv s')
    (hs : Inv s) (hrun : IsRun step s run) : Inv (endOf s run) :=
  hrun.invariant hstep hs _ (endOf_mem_statesOf s run)

/-- When from a good state a step leads to a good state exactly if it meets
`cond`, the good runs are exactly those whose steps all meet it. -/
theorem forall_iff {Inv Good : σ → Prop}
    (hinv : ∀ s l s', Inv s → step s l s' → Inv s')
    (hgood : ∀ s l s', Inv s → Good s → step s l s' → (Good s' ↔ cond s l s'))
    (hs : Inv s) (hs' : Good s) (hrun : IsRun step s run) :
    (∀ t ∈ statesOf s run, Good t) ↔ IsRun cond s run := by
  induction run generalizing s with
  | nil => simpa [statesOf, IsRun] using hs'
  | cons p run ih =>
      have hhead := hgood _ _ _ hs hs' hrun.1
      constructor
      · intro hall
        have hp : Good p.2 := hall p.2 (by simp [statesOf])
        refine ⟨hhead.1 hp, (ih (hinv _ _ _ hs hrun.1) hp hrun.2).1 fun t ht => ?_⟩
        exact hall t (List.mem_cons_of_mem _ ht)
      · rintro ⟨hc, hrest⟩ t ht
        have hp : Good p.2 := hhead.2 hc
        rcases List.mem_cons.1 ht with rfl | ht
        · exact hs'
        · exact (ih (hinv _ _ _ hs hrun.1) hp hrun.2).2 hrest t ht

/-- When `good` steps keep an invariant under which a step is good exactly if it
meets `cond`, the runs of good steps are those whose steps all meet it. -/
theorem iff_of_step {good : σ → Λ → σ → Prop} {Inv : σ → Prop}
    (hinv : ∀ s l s', Inv s → step s l s' → good s l s' → Inv s')
    (hgood : ∀ s l s', Inv s → step s l s' → (good s l s' ↔ cond s l s'))
    (hs : Inv s) (hrun : IsRun step s run) : IsRun good s run ↔ IsRun cond s run := by
  induction run generalizing s with
  | nil => exact Iff.rfl
  | cons p run ih =>
      have hhead := hgood _ _ _ hs hrun.1
      constructor
      · rintro ⟨hg, hrest⟩
        exact ⟨hhead.1 hg, (ih (hinv _ _ _ hs hrun.1 hg) hrun.2).1 hrest⟩
      · rintro ⟨hc, hrest⟩
        have hg := hhead.2 hc
        exact ⟨hg, (ih (hinv _ _ _ hs hrun.1 hg) hrun.2).2 hrest⟩

end IsRun

/-- Some run from `s` passes through `t`. -/
def Reaches (step : σ → Λ → σ → Prop) (s t : σ) : Prop :=
  ∃ run, IsRun step s run ∧ t ∈ statesOf s run

namespace Reaches

variable {step : σ → Λ → σ → Prop} {s s' t : σ} {l : Λ}

theorem refl (step : σ → Λ → σ → Prop) (s : σ) : Reaches step s s :=
  ⟨[], trivial, List.mem_cons_self⟩

theorem head (h : step s l s') (ht : Reaches step s' t) : Reaches step s t := by
  obtain ⟨run, hrun, ht⟩ := ht
  exact ⟨(l, s') :: run, ⟨h, hrun⟩, List.mem_cons_of_mem _ ht⟩

theorem trans {u : σ} (h : Reaches step s t) (h' : Reaches step t u) : Reaches step s u := by
  obtain ⟨run, hrun, ht⟩ := h
  induction run generalizing s with
  | nil =>
      obtain rfl : t = s := List.mem_singleton.1 ht
      exact h'
  | cons p run ih =>
      rcases List.mem_cons.1 ht with rfl | ht
      · exact h'
      · exact (ih hrun.2 ht).head hrun.1

theorem mono {step' : σ → Λ → σ → Prop} (hstep : ∀ s l s', step s l s' → step' s l s')
    (h : Reaches step s t) : Reaches step' s t := by
  obtain ⟨run, hrun, ht⟩ := h
  exact ⟨run, hrun.mono hstep, ht⟩

/-- What every step preserves holds in every state a run can reach. -/
theorem invariant {Inv : σ → Prop} (hstep : ∀ s l s', Inv s → step s l s' → Inv s')
    (hs : Inv s) (h : Reaches step s t) : Inv t := by
  obtain ⟨run, hrun, ht⟩ := h
  exact hrun.invariant hstep hs t ht

end Reaches

end Effect

end EpsDapp
