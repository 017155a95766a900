import EpsDapp.Effect.Wp
import EpsDapp.Effect.Run
import Mathlib.Logic.Function.Basic

/-!
# Pools of programs

A pool runs one program in each of the threads of `ι`, over one world. The
threads take turns: a step is one awaited call of one thread, together with its
answer. A thread may also start, finish, or crash at any point, and the world
may move by itself. Each thread carries a mark, which records what its calls
have been answered so far; marks are observed from the answers and never read
by the programs.

Two ways of reasoning are packaged here. With one thread the obligations of
`Program.wp` carry over to every reachable state (`solo`), the moves of the
world included. With many, a protocol that each program obeys on its own
(`conforms`) is obeyed in every interleaving.
-/

set_option autoImplicit false

namespace EpsDapp

namespace Effect

universe u

/-- A running program and what has been observed of it. -/
structure Thread (S : Signature.{u}) (ε α M : Type u) where
  program : Program S ε α
  mark : M

/-- The world and the threads running in it. -/
structure Pool (S : Signature.{u}) (ε α ι M W : Type u) where
  world : W
  thread : ι → Option (Thread S ε α M)

/-- The steps of a pool: a call answered, the end of a program, the death of a
process, the start of a program, and a move of the world. -/
inductive Label (S : Signature.{u}) (ε ι : Type u)
  | act (i : ι) (o : S.Op) (r : Except ε (S.Resp o))
  | finish (i : ι)
  | crash (i : ι)
  | start (i : ι)
  | environment

/-- What the threads of a pool may run and how the world answers them.
A mark is observed from the call, the world after it and its answer. `release`
restricts the states in which a thread may end or crash; it is `True` everywhere
unless a condition on the runs is being stated. -/
structure Machine (S : Signature.{u}) (ε α ι M W : Type u) where
  idle : M
  observe : M → (o : S.Op) → W → Except ε (S.Resp o) → M
  answers : M → Answers S ε W
  entry : ι → Program S ε α → Prop
  environment : W → W → Prop
  release : M → W → Prop := fun _ _ => True

namespace Machine

variable {S : Signature.{u}} {ε α ι M W : Type u}

/-- One step of a pool. -/
inductive Step [DecidableEq ι] (𝓜 : Machine S ε α ι M W) :
    Pool S ε α ι M W → Label S ε ι → Pool S ε α ι M W → Prop
  | act {c i o k m w r} (hthread : c.thread i = some ⟨.call o k, m⟩)
      (hanswer : 𝓜.answers m c.world o w r) :
      Step 𝓜 c (.act i o r)
        ⟨w, Function.update c.thread i (some ⟨k r, 𝓜.observe m o w r⟩)⟩
  | finish {c i r m} (hthread : c.thread i = some ⟨.done r, m⟩)
      (hrelease : 𝓜.release m c.world) :
      Step 𝓜 c (.finish i) ⟨c.world, Function.update c.thread i none⟩
  | crash {c i p m} (hthread : c.thread i = some ⟨p, m⟩)
      (hrelease : 𝓜.release m c.world) :
      Step 𝓜 c (.crash i) ⟨c.world, Function.update c.thread i none⟩
  | start {c i p} (hthread : c.thread i = none) (hentry : 𝓜.entry i p) :
      Step 𝓜 c (.start i) ⟨c.world, Function.update c.thread i (some ⟨p, 𝓜.idle⟩)⟩
  | environment {c w} (henv : 𝓜.environment c.world w) :
      Step 𝓜 c .environment ⟨w, c.thread⟩

/-- The machine whose answers and releases are further restricted. Its runs are
the runs of `𝓜` whose steps all meet the two conditions. -/
def under (𝓜 : Machine S ε α ι M W)
    (act : M → W → (o : S.Op) → W → Except ε (S.Resp o) → Prop)
    (release : M → W → Prop) : Machine S ε α ι M W :=
  { 𝓜 with
    answers := fun m w o w' r => 𝓜.answers m w o w' r ∧ act m w o w' r
    release := fun m w => 𝓜.release m w ∧ release m w }

theorem step_of_under [DecidableEq ι] {𝓜 : Machine S ε α ι M W}
    {act : M → W → (o : S.Op) → W → Except ε (S.Resp o) → Prop}
    {release : M → W → Prop} {c c' : Pool S ε α ι M W} {l : Label S ε ι}
    (h : (𝓜.under act release).Step c l c') : 𝓜.Step c l c' := by
  cases h with
  | act hthread hanswer => exact .act hthread hanswer.1
  | finish hthread hrelease => exact .finish hthread hrelease.1
  | crash hthread hrelease => exact .crash hthread hrelease.1
  | start hthread hentry => exact .start hthread hentry
  | environment henv => exact .environment henv

/-- After a step of thread `i`, a running thread is the one `i` has become or
one that was running before. -/
theorem thread_of_update [DecidableEq ι] {f : ι → Option (Thread S ε α M)} {i j : ι}
    {v : Option (Thread S ε α M)} {t : Thread S ε α M}
    (h : Function.update f i v j = some t) :
    (j = i ∧ v = some t) ∨ (j ≠ i ∧ f j = some t) := by
  by_cases hij : j = i
  · subst hij
    rw [Function.update_self] at h
    exact Or.inl ⟨rfl, h⟩
  · rw [Function.update_of_ne hij] at h
    exact Or.inr ⟨hij, h⟩

/-- The calls of one program, answered one after the other, are a run of the pool. -/
theorem reaches_of_runs [DecidableEq ι] {𝓜 : Machine S ε α ι M W} {E : Answers S ε W}
    (hE : ∀ m w o w' r, E w o w' r → 𝓜.answers m w o w' r) {p : Program S ε α} {w w' : W}
    {r : Except ε α} (h : p.Runs E w w' r) (thread : ι → Option (Thread S ε α M)) (i : ι) (m : M) :
    ∃ m', Reaches 𝓜.Step ⟨w, Function.update thread i (some ⟨p, m⟩)⟩
      ⟨w', Function.update thread i (some ⟨.done r, m'⟩)⟩ := by
  induction p generalizing w m with
  | done r₀ =>
      obtain ⟨rfl, rfl⟩ := h
      exact ⟨m, Reaches.refl _ _⟩
  | call o k ih =>
      obtain ⟨w₁, r₁, hanswer, hk⟩ := h
      obtain ⟨m', hrun⟩ := ih r₁ hk (𝓜.observe m o w₁ r₁)
      have hstep : 𝓜.Step ⟨w, Function.update thread i (some ⟨.call o k, m⟩)⟩ (.act i o r₁)
          ⟨w₁, Function.update thread i (some ⟨k r₁, 𝓜.observe m o w₁ r₁⟩)⟩ := by
        simpa using Step.act (c := ⟨w, Function.update thread i (some ⟨.call o k, m⟩)⟩)
          (Function.update_self i _ thread) (hE m _ _ _ _ hanswer)
      exact ⟨m', hrun.head hstep⟩

/-- A thread may run one program from its start to its end while the others wait. -/
theorem reaches_of_program [DecidableEq ι] {𝓜 : Machine S ε α ι M W} {E : Answers S ε W}
    (hE : ∀ m w o w' r, E w o w' r → 𝓜.answers m w o w' r) (hrelease : ∀ m w, 𝓜.release m w)
    {p : Program S ε α} {w w' : W} {r : Except ε α} (h : p.Runs E w w' r)
    (thread : ι → Option (Thread S ε α M)) {i : ι} (hi : thread i = none) (hp : 𝓜.entry i p) :
    Reaches 𝓜.Step ⟨w, thread⟩ ⟨w', thread⟩ := by
  obtain ⟨m', hrun⟩ := reaches_of_runs hE h thread i 𝓜.idle
  let done : Pool S ε α ι M W := ⟨w', Function.update thread i (some ⟨.done r, m'⟩)⟩
  have hfinish : 𝓜.Step done (.finish i) ⟨w', thread⟩ := by
    have hstep : 𝓜.Step done (.finish i) ⟨w', Function.update done.thread i none⟩ :=
      .finish (Function.update_self i _ thread) (hrelease m' w')
    rwa [Function.update_idem, ← hi, Function.update_eq_self] at hstep
  exact Reaches.head (.start (c := ⟨w, thread⟩) hi hp) (hrun.trans ((Reaches.refl _ _).head hfinish))

/-! ## One thread -/

/-- The answers one thread sees, with its own mark, when the world may have
moved before each of them. -/
def seen (𝓜 : Machine S ε α ι M W) : Answers S ε (M × W) :=
  fun s o s' r => ∃ w, Relation.ReflTransGen 𝓜.environment s.2 w ∧
    𝓜.answers s.1 w o s'.2 r ∧ s'.1 = 𝓜.observe s.1 o s'.2 r

/-- `K` holds at every point of the program `p`, run from `m` and `w`. -/
def Keeps (𝓜 : Machine S ε α ι M W) (K : M → W → Prop) (p : Program S ε α)
    (m : M) (w : W) : Prop :=
  p.wp 𝓜.seen (fun s _ => K s.1 s.2) (fun _ s => K s.1 s.2) (m, w)

theorem seen_of_under {𝓜 : Machine S ε α ι M W}
    {act : M → W → (o : S.Op) → W → Except ε (S.Resp o) → Prop}
    {release : M → W → Prop} {s s' : M × W} {o : S.Op} {r : Except ε (S.Resp o)}
    (h : (𝓜.under act release).seen s o s' r) :
    𝓜.seen s o s' r ∧ ∃ w, act s.1 w o s'.2 r := by
  obtain ⟨w, henv, hanswer, hobserve⟩ := h
  exact ⟨⟨w, henv, hanswer.1, hobserve⟩, w, hanswer.2⟩

theorem Keeps.holds {𝓜 : Machine S ε α ι M W} {K : M → W → Prop}
    {p : Program S ε α} {m : M} {w : W} (h : 𝓜.Keeps K p m w) : K m w := by
  cases p with
  | done r => exact h
  | call o k => exact h.1

/-- What the only thread of a pool is to satisfy: `K` holds, and will hold at
every later point of the program it runs. -/
def Solo (𝓜 : Machine S ε α ι M W) (K : M → W → Prop) (c : Pool S ε α ι M W) : Prop :=
  ∀ i, match c.thread i with
    | none => K 𝓜.idle c.world
    | some t => 𝓜.Keeps K t.program t.mark c.world

theorem solo_step [DecidableEq ι] [Subsingleton ι] {𝓜 : Machine S ε α ι M W} {K : M → W → Prop}
    (hentry : ∀ i p w, 𝓜.entry i p → K 𝓜.idle w → 𝓜.Keeps K p 𝓜.idle w)
    (henv : ∀ m w w', 𝓜.environment w w' → K m w → K m w')
    (hrelease : ∀ m w, 𝓜.release m w → K m w → K 𝓜.idle w)
    {c c' : Pool S ε α ι M W} {l : Label S ε ι}
    (hc : 𝓜.Solo K c) (h : 𝓜.Step c l c') : 𝓜.Solo K c' := by
  intro j
  cases h with
  | @act i o k m w r hthread hanswer =>
      obtain rfl := Subsingleton.elim i j
      have hi := hc i
      rw [hthread] at hi
      simp only [Function.update_self]
      exact hi.2 (𝓜.observe m o w r, w) r ⟨c.world, .refl, hanswer, rfl⟩
  | @finish i r m hthread hr =>
      obtain rfl := Subsingleton.elim i j
      have hi := hc i
      rw [hthread] at hi
      simpa using hrelease _ _ hr hi.holds
  | @crash i p m hthread hr =>
      obtain rfl := Subsingleton.elim i j
      have hi := hc i
      rw [hthread] at hi
      simpa using hrelease _ _ hr hi.holds
  | @start i p hthread hp =>
      obtain rfl := Subsingleton.elim i j
      have hi := hc i
      rw [hthread] at hi
      simpa using hentry i p _ hp hi
  | @environment w hw =>
      have hj := hc j
      show match c.thread j with
        | none => K 𝓜.idle w
        | some t => 𝓜.Keeps K t.program t.mark w
      cases hthread : c.thread j with
      | none =>
          rw [hthread] at hj
          exact henv _ _ _ hw hj
      | some t =>
          rw [hthread] at hj
          let R : M × W → M × W → Prop := fun s s' =>
            s'.1 = s.1 ∧ Relation.ReflTransGen 𝓜.environment s.2 s'.2
          have hK : ∀ s s' : M × W, R s s' → K s.1 s.2 → K s'.1 s'.2 := by
            rintro ⟨m, w₁⟩ ⟨m', w₂⟩ ⟨hm, hR⟩ hk
            obtain rfl : m' = m := hm
            have hmoves : ∀ w₂, Relation.ReflTransGen 𝓜.environment w₁ w₂ → K m' w₂ := by
              intro w₂ hR
              induction hR with
              | refl => exact hk
              | tail _ hstep ih => exact henv _ _ _ hstep ih
            exact hmoves w₂ hR
          have hR : R (t.mark, c.world) (t.mark, w) := ⟨rfl, .single hw⟩
          refine Program.wp_stable t.program ?_ ?_ ?_ hj hR
          · rintro ⟨m, w₁⟩ ⟨m', w₂⟩ o s r ⟨hm, hR⟩ ⟨w₃, hR', hans, hobs⟩
            obtain rfl : m' = m := hm
            exact ⟨w₃, hR.trans hR', hans, hobs⟩
          · intro s s' o hR hk
            exact hK s s' hR hk
          · intro r s s' hR hk
            exact hK s s' hR hk

/-- The invariant of a pool with one thread: `K` holds in every state a run can
reach, when it holds at first, is kept by the programs and by the world, and is
left behind by a thread that ends or crashes. -/
theorem solo_run [DecidableEq ι] [Subsingleton ι] {𝓜 : Machine S ε α ι M W} {K : M → W → Prop}
    (hentry : ∀ i p w, 𝓜.entry i p → K 𝓜.idle w → 𝓜.Keeps K p 𝓜.idle w)
    (henv : ∀ m w w', 𝓜.environment w w' → K m w → K m w')
    (hrelease : ∀ m w, 𝓜.release m w → K m w → K 𝓜.idle w)
    {w : W} (hw : K 𝓜.idle w) {c : Pool S ε α ι M W}
    (hc : Reaches 𝓜.Step ⟨w, fun _ => none⟩ c) (i : ι) : ∃ m, K m c.world := by
  have hsolo : 𝓜.Solo K c :=
    hc.invariant (fun _ _ _ h hstep => solo_step hentry henv hrelease h hstep) (fun _ => hw)
  have hi := hsolo i
  cases hthread : c.thread i with
  | none =>
      rw [hthread] at hi
      exact ⟨_, hi⟩
  | some t =>
      rw [hthread] at hi
      exact ⟨_, hi.holds⟩

/-! ## Many threads -/

/-- `p` obeys the protocol `allowed` from the mark `m` on: in the mark its
answers have brought it to, each call it awaits is allowed. `marks` is what is
known of the answers and of the marks they lead to. -/
def Conforms (marks : Answers S ε M) (allowed : M → S.Op → Prop)
    (p : Program S ε α) (m : M) : Prop :=
  p.wp marks allowed (fun _ _ => True) m

/-- Every thread of the pool obeys the protocol. -/
def AllConform (marks : Answers S ε M) (allowed : M → S.Op → Prop)
    (c : Pool S ε α ι M W) : Prop :=
  ∀ i t, c.thread i = some t → Conforms marks allowed t.program t.mark

/-- The thread `i` obeys the protocol, and ends as `post` says. -/
def Ends (marks : Answers S ε M) (allowed : M → S.Op → Prop)
    (post : Except ε α → M → Prop) (i : ι) (c : Pool S ε α ι M W) : Prop :=
  ∀ t, c.thread i = some t → t.program.wp marks allowed post t.mark

/-- Every thread of the pool obeys the protocol, and ends as `post` says. -/
def AllEnd (marks : Answers S ε M) (allowed : M → S.Op → Prop)
    (post : Except ε α → M → Prop) (c : Pool S ε α ι M W) : Prop :=
  ∀ i t, c.thread i = some t → t.program.wp marks allowed post t.mark

theorem ends_step [DecidableEq ι] {𝓜 : Machine S ε α ι M W}
    {marks : Answers S ε M} {allowed : M → S.Op → Prop} {post : Except ε α → M → Prop} {j : ι}
    (hmarks : ∀ m w o w' r, 𝓜.answers m w o w' r → marks m o (𝓜.observe m o w' r) r)
    (hentry : ∀ p, 𝓜.entry j p → p.wp marks allowed post 𝓜.idle)
    {c c' : Pool S ε α ι M W} {l : Label S ε ι}
    (hc : Ends marks allowed post j c) (h : 𝓜.Step c l c') : Ends marks allowed post j c' := by
  intro t ht
  cases h with
  | @act i o k m w r hthread hanswer =>
      rcases thread_of_update ht with ⟨rfl, hnew⟩ | ⟨_, hold⟩
      · cases hnew
        exact (hc _ hthread).2 _ r (hmarks _ _ _ _ _ hanswer)
      · exact hc t hold
  | @finish i r m hthread hr =>
      rcases thread_of_update ht with ⟨_, hnew⟩ | ⟨_, hold⟩
      · cases hnew
      · exact hc t hold
  | @crash i p m hthread hr =>
      rcases thread_of_update ht with ⟨_, hnew⟩ | ⟨_, hold⟩
      · cases hnew
      · exact hc t hold
  | @start i p hthread hp =>
      rcases thread_of_update ht with ⟨rfl, hnew⟩ | ⟨_, hold⟩
      · cases hnew
        exact hentry p hp
      · exact hc t hold
  | environment hw => exact hc t ht

theorem allEnd_step [DecidableEq ι] {𝓜 : Machine S ε α ι M W}
    {marks : Answers S ε M} {allowed : M → S.Op → Prop} {post : Except ε α → M → Prop}
    (hmarks : ∀ m w o w' r, 𝓜.answers m w o w' r → marks m o (𝓜.observe m o w' r) r)
    (hentry : ∀ i p, 𝓜.entry i p → p.wp marks allowed post 𝓜.idle)
    {c c' : Pool S ε α ι M W} {l : Label S ε ι}
    (hc : AllEnd marks allowed post c) (h : 𝓜.Step c l c') : AllEnd marks allowed post c' :=
  fun i => ends_step hmarks (hentry i) (hc i) h

theorem allConform_step [DecidableEq ι] {𝓜 : Machine S ε α ι M W}
    {marks : Answers S ε M} {allowed : M → S.Op → Prop}
    (hmarks : ∀ m w o w' r, 𝓜.answers m w o w' r → marks m o (𝓜.observe m o w' r) r)
    (hentry : ∀ i p, 𝓜.entry i p → Conforms marks allowed p 𝓜.idle)
    {c c' : Pool S ε α ι M W} {l : Label S ε ι}
    (hc : AllConform marks allowed c) (h : 𝓜.Step c l c') :
    AllConform marks allowed c' :=
  allEnd_step hmarks hentry hc h

/-- The call a thread is about to await is one its protocol allows. -/
theorem AllConform.allowed {marks : Answers S ε M}
    {allowed : M → S.Op → Prop} {c : Pool S ε α ι M W}
    (hc : AllConform marks allowed c) {i : ι} {o : S.Op}
    {k : Except ε (S.Resp o) → Program S ε α} {m : M}
    (hthread : c.thread i = some ⟨.call o k, m⟩) : allowed m o :=
  (hc i _ hthread).1

end Machine

end Effect

end EpsDapp
