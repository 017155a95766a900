import EpsDapp.Effect.Pool

/-!
# Threads that rely on one another

A thread is proved by itself when it is known how the others may move the world
between its calls. `rely` is what they may do: it holds of doing nothing, of two
moves in a row, and of whatever a call that is allowed does. Then what each program
establishes alone, among such moves, it establishes in every interleaving.
-/

set_option autoImplicit false

namespace EpsDapp

namespace Effect

namespace Machine

universe u

variable {S : Signature.{u}} {ε α ι M W : Type u}

/-- The answers a thread is given, with its own mark, when the others may first move the
world. -/
def among (𝓜 : Machine S ε α ι M W) (rely : W → W → Prop) : Answers S ε (M × W) :=
  fun s o s' r => ∃ w, rely s.2 w ∧ 𝓜.answers s.1 w o s'.2 r ∧ s'.1 = 𝓜.observe s.1 o s'.2 r

/-- What the threads of a machine may rely on and have to keep to. A thread makes the calls
that are `allowed`, and ends as `post` says when `inv` holds of the world it starts in. -/
structure Discipline (𝓜 : Machine S ε α ι M W) where
  rely : W → W → Prop
  allowed : S.Op → Prop
  inv : W → Prop
  post : ι → Except ε α → M × W → Prop
  refl : ∀ w, rely w w
  trans : ∀ w₁ w₂ w₃, rely w₁ w₂ → rely w₂ w₃ → rely w₁ w₃
  answers : ∀ m w o w' r, allowed o → 𝓜.answers m w o w' r → rely w w'
  environment : ∀ w w', 𝓜.environment w w' → rely w w'
  inv_stable : ∀ w w', rely w w' → inv w → inv w'
  post_stable : ∀ i r m w w', rely w w' → post i r (m, w) → post i r (m, w')
  entry : ∀ i p w, inv w → 𝓜.entry i p →
    p.wp (𝓜.among rely) (fun _ o => allowed o) (post i) (𝓜.idle, w)

namespace Discipline

variable {𝓜 : Machine S ε α ι M W} (D : 𝓜.Discipline)

/-- What is left of a program keeps to the discipline. -/
def Keeps (i : ι) (p : Program S ε α) (m : M) (w : W) : Prop :=
  p.wp (𝓜.among D.rely) (fun _ o => D.allowed o) (D.post i) (m, w)

/-- Every thread of the pool keeps to the discipline, in a world where others may start. -/
structure Kept (c : Pool S ε α ι M W) : Prop where
  inv : D.inv c.world
  thread : ∀ i t, c.thread i = some t → D.Keeps i t.program t.mark c.world

variable {D}

/-- What a thread is to establish survives the moves of the others. -/
theorem Keeps.moved {p : Program S ε α} {i : ι} {m : M} {w w' : W} (h : D.Keeps i p m w)
    (hw : D.rely w w') : D.Keeps i p m w' := by
  let moved : M × W → M × W → Prop := fun s s' => s'.1 = s.1 ∧ D.rely s.2 s'.2
  have hmoved : moved (m, w) (m, w') := ⟨rfl, hw⟩
  refine Program.wp_stable p ?_ (fun _ _ _ _ h => h) ?_ h hmoved
  · rintro ⟨m, w⟩ ⟨_, w₁⟩ o s r ⟨rfl, hw⟩ ⟨w₂, hw₂, hanswer, hmark⟩
    exact ⟨w₂, D.trans _ _ _ hw hw₂, hanswer, hmark⟩
  · rintro r ⟨m, w⟩ ⟨_, w₁⟩ ⟨rfl, hw⟩ h
    exact D.post_stable i r _ _ _ hw h

/-- A thread that has ended has ended as it was to. -/
theorem Kept.post {c : Pool S ε α ι M W} (h : D.Kept c) {i : ι} {r : Except ε α} {m : M}
    (hthread : c.thread i = some ⟨.done r, m⟩) : D.post i r (m, c.world) :=
  h.thread i _ hthread

variable [DecidableEq ι] {c c' : Pool S ε α ι M W} {l : Label S ε ι}

/-- Each step of the pool is a move that the threads rely on. -/
theorem Kept.rely (hc : D.Kept c) (h : 𝓜.Step c l c') : D.rely c.world c'.world := by
  cases h with
  | act hthread hanswer => exact D.answers _ _ _ _ _ (hc.thread _ _ hthread).1 hanswer
  | finish hthread hrelease => exact D.refl _
  | crash hthread hrelease => exact D.refl _
  | start hthread hentry => exact D.refl _
  | environment hw => exact D.environment _ _ hw

theorem Kept.step (hc : D.Kept c) (h : 𝓜.Step c l c') : D.Kept c' := by
  have hrely : D.rely c.world c'.world := hc.rely h
  have hothers : ∀ j t, c.thread j = some t → D.Keeps j t.program t.mark c'.world :=
    fun j t ht => (hc.thread j t ht).moved hrely
  refine ⟨D.inv_stable _ _ hrely hc.inv, fun j t ht => ?_⟩
  cases h with
  | @act i o k m w r hthread hanswer =>
      rcases thread_of_update ht with ⟨rfl, hnew⟩ | ⟨_, hold⟩
      · cases hnew
        exact (hc.thread _ _ hthread).2 _ r ⟨c.world, D.refl _, hanswer, rfl⟩
      · exact hothers j t hold
  | finish hthread hrelease =>
      rcases thread_of_update ht with ⟨_, hnew⟩ | ⟨_, hold⟩
      · cases hnew
      · exact hothers j t hold
  | crash hthread hrelease =>
      rcases thread_of_update ht with ⟨_, hnew⟩ | ⟨_, hold⟩
      · cases hnew
      · exact hothers j t hold
  | start hthread hp =>
      rcases thread_of_update ht with ⟨rfl, hnew⟩ | ⟨_, hold⟩
      · cases hnew
        exact D.entry _ _ _ hc.inv hp
      · exact hothers j t hold
  | environment hw => exact hothers j t ht

/-- What the programs establish alone, they establish in every interleaving, and the world
moves as they rely on it to move. -/
theorem Kept.reaches (hc : D.Kept c) (h : Reaches 𝓜.Step c c') :
    D.Kept c' ∧ D.rely c.world c'.world := by
  let Inv (d : Pool S ε α ι M W) : Prop := D.Kept d ∧ D.rely c.world d.world
  have hstep : ∀ d l d', Inv d → 𝓜.Step d l d' → Inv d' := by
    intro d l d' ⟨hd, hcd⟩ hstep
    exact ⟨hd.step hstep, D.trans _ _ _ hcd (hd.rely hstep)⟩
  have hstart : Inv c := ⟨hc, D.refl _⟩
  have hend : Inv c' := h.invariant hstep hstart
  exact hend

end Discipline

end Machine

end Effect

end EpsDapp
