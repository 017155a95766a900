import Mathlib.Data.Nat.Notation
import Mathlib.Logic.Function.Basic

/-!
# Transactions that read what is committed

Several transactions are open on one database, and each of them adds rows, some of
them under a unique key. A statement reads the committed state with what its own
transaction has added. A row is refused when its key is taken there, and waits while
another open transaction has added one under its key. A transaction that commits
adds all of its rows at once, and one that is closed otherwise adds none.

The keys of what is pending are free in the committed state, and no two open
transactions have one in common. That is an invariant of every step, so a commit
never adds a row under a key that is taken.
-/

set_option autoImplicit false

namespace EpsDapp

universe u v w

/-- Data to which rows are added, some of them under a key that is then taken. -/
structure Inserts (D : Type u) (Δ : Type v) (κ : Type w) where
  add : D → Δ → D
  key : Δ → Option κ
  Has : D → κ → Prop
  has_add : ∀ d δ k, Has (add d δ) k ↔ key δ = some k ∨ Has d k

/-- The committed state, and what each open transaction has added so far. The
transactions are numbered in the order in which they are begun. -/
structure Transactions (D : Type u) (Δ : Type v) where
  committed : D
  opened : ℕ → Option (List Δ) := fun _ => none
  next : ℕ := 0

namespace Inserts

variable {D : Type u} {Δ : Type v} {κ : Type w} (I : Inserts D Δ κ)

/-- The data with the rows added in order. -/
def addAll (d : D) (rows : List Δ) : D := rows.foldl I.add d

theorem has_addAll (d : D) (rows : List Δ) (k : κ) :
    I.Has (I.addAll d rows) k ↔ (∃ δ ∈ rows, I.key δ = some k) ∨ I.Has d k := by
  induction rows generalizing d with
  | nil => simp [addAll]
  | cons δ rows ih =>
      have hstep := ih (I.add d δ)
      rw [I.has_add] at hstep
      simpa [addAll, or_assoc, or_left_comm, or_comm] using hstep

end Inserts

namespace Transactions

variable {D : Type u} {Δ : Type v} {κ : Type w}

/-- A transaction is begun. -/
def start (s : Transactions D Δ) : Transactions D Δ :=
  { s with opened := Function.update s.opened s.next (some []), next := s.next + 1 }

/-- The open transaction `t` has added `rows`. -/
def write (s : Transactions D Δ) (t : ℕ) (rows : List Δ) : Transactions D Δ :=
  { s with opened := Function.update s.opened t (some rows) }

/-- The transaction `t` is closed without effect. -/
def close (s : Transactions D Δ) (t : ℕ) : Transactions D Δ :=
  { s with opened := Function.update s.opened t none }

section Keys

variable (I : Inserts D Δ κ)

/-- What a transaction that has added `rows` reads. -/
def view (s : Transactions D Δ) (rows : List Δ) : D := I.addAll s.committed rows

/-- The transaction `t` is committed with `rows`. -/
def commit (s : Transactions D Δ) (t : ℕ) (rows : List Δ) : Transactions D Δ :=
  { s.close t with committed := s.view I rows }

/-- The key of the row is taken in what its transaction reads. -/
def Taken (s : Transactions D Δ) (rows : List Δ) (δ : Δ) : Prop :=
  ∃ k, I.key δ = some k ∧ I.Has (s.view I rows) k

/-- No other open transaction has added a row under the key of `δ`. -/
def Unlocked (s : Transactions D Δ) (t : ℕ) (δ : Δ) : Prop :=
  ∀ t' rows, t' ≠ t → s.opened t' = some rows → ∀ δ' ∈ rows, ∀ k,
    I.key δ = some k → I.key δ' ≠ some k

/-- The keys that are pending are free, and those of two transactions are apart. -/
structure Sound (s : Transactions D Δ) : Prop where
  lt_next : ∀ t rows, s.opened t = some rows → t < s.next
  apart : ∀ t t' rows rows', t ≠ t' → s.opened t = some rows → s.opened t' = some rows' →
    ∀ δ ∈ rows, ∀ δ' ∈ rows', ∀ k, I.key δ = some k → I.key δ' ≠ some k
  free : ∀ t rows, s.opened t = some rows → ∀ δ ∈ rows, ∀ k, I.key δ = some k →
    ¬ I.Has s.committed k

end Keys

@[simp] theorem opened_start (s : Transactions D Δ) : s.start.opened s.next = some [] :=
  Function.update_self _ _ _

@[simp] theorem opened_write (s : Transactions D Δ) (t : ℕ) (rows : List Δ) :
    (s.write t rows).opened t = some rows :=
  Function.update_self _ _ _

@[simp] theorem opened_close (s : Transactions D Δ) (t : ℕ) : (s.close t).opened t = none :=
  Function.update_self _ _ _

/-- A transaction that adds twice has added what it has at last. -/
theorem write_write (s : Transactions D Δ) (t : ℕ) (rows rows' : List Δ) :
    (s.write t rows).write t rows' = s.write t rows' := by
  simp only [write, Function.update_idem]

/-- An open transaction other than the one that is written is what it was. -/
theorem opened_update {f : ℕ → Option (List Δ)} {t t' : ℕ} {v : Option (List Δ)}
    {rows : List Δ} (h : Function.update f t v t' = some rows) :
    (t' = t ∧ v = some rows) ∨ (t' ≠ t ∧ f t' = some rows) := by
  by_cases ht : t' = t
  · subst ht
    rw [Function.update_self] at h
    exact Or.inl ⟨rfl, h⟩
  · rw [Function.update_of_ne ht] at h
    exact Or.inr ⟨ht, h⟩

namespace Sound

variable {I : Inserts D Δ κ} {s : Transactions D Δ}

theorem init (d : D) : Sound I ⟨d, fun _ => none, 0⟩ := ⟨nofun, nofun, nofun⟩

/-- The invariant is about the keys that are committed, not about what else is. -/
theorem congr {d : D} (h : s.Sound I) (hd : ∀ k, I.Has d k ↔ I.Has s.committed k) :
    Sound I { s with committed := d } :=
  ⟨h.lt_next, h.apart, fun t rows ht δ hδ k hk => mt (hd k).1 (h.free t rows ht δ hδ k hk)⟩

theorem start (h : s.Sound I) : s.start.Sound I where
  lt_next t rows ht := by
    rcases opened_update ht with ⟨rfl, -⟩ | ⟨-, ht⟩
    · exact Nat.lt_succ_self _
    · exact Nat.lt_succ_of_lt (h.lt_next t rows ht)
  apart t t' rows rows' hne ht ht' δ hδ δ' hδ' k hk := by
    rcases opened_update ht with ⟨-, hrows⟩ | ⟨-, ht⟩
    · obtain rfl := Option.some.inj hrows
      cases hδ
    · rcases opened_update ht' with ⟨-, hrows'⟩ | ⟨-, ht'⟩
      · obtain rfl := Option.some.inj hrows'
        cases hδ'
      · exact h.apart t t' rows rows' hne ht ht' δ hδ δ' hδ' k hk
  free t rows ht δ hδ k hk := by
    rcases opened_update ht with ⟨-, hrows⟩ | ⟨-, ht⟩
    · obtain rfl := Option.some.inj hrows
      cases hδ
    · exact h.free t rows ht δ hδ k hk

/-- A row that has not waited in vain is added. -/
theorem write {t : ℕ} {rows : List Δ} {δ : Δ} (h : s.Sound I) (ht : s.opened t = some rows)
    (hunlocked : s.Unlocked I t δ) (hfree : ¬ s.Taken I rows δ) :
    (s.write t (rows ++ [δ])).Sound I where
  lt_next t' rows' ht' := by
    rcases opened_update ht' with ⟨rfl, -⟩ | ⟨-, ht'⟩
    · exact h.lt_next t' rows ht
    · exact h.lt_next t' rows' ht'
  apart t₁ t₂ rows₁ rows₂ hne h₁ h₂ δ₁ hδ₁ δ₂ hδ₂ k hk hk' := by
    rcases opened_update h₁ with ⟨rfl, hrows₁⟩ | ⟨hne₁, hold₁⟩
    · obtain rfl := Option.some.inj hrows₁
      rcases opened_update h₂ with ⟨rfl, -⟩ | ⟨hne₂, hold₂⟩
      · exact hne rfl
      · rcases List.mem_append.1 hδ₁ with hδ₁ | hδ₁
        · exact h.apart t₁ t₂ rows rows₂ hne ht hold₂ δ₁ hδ₁ δ₂ hδ₂ k hk hk'
        · obtain rfl := List.mem_singleton.1 hδ₁
          exact hunlocked t₂ rows₂ hne₂ hold₂ δ₂ hδ₂ k hk hk'
    · rcases opened_update h₂ with ⟨rfl, hrows₂⟩ | ⟨hne₂, hold₂⟩
      · obtain rfl := Option.some.inj hrows₂
        rcases List.mem_append.1 hδ₂ with hδ₂ | hδ₂
        · exact h.apart t₁ t₂ rows₁ rows hne hold₁ ht δ₁ hδ₁ δ₂ hδ₂ k hk hk'
        · obtain rfl := List.mem_singleton.1 hδ₂
          exact hunlocked t₁ rows₁ hne₁ hold₁ δ₁ hδ₁ k hk' hk
      · exact h.apart t₁ t₂ rows₁ rows₂ hne hold₁ hold₂ δ₁ hδ₁ δ₂ hδ₂ k hk hk'
  free t' rows' ht' δ' hδ' k hk := by
    rcases opened_update ht' with ⟨rfl, hrows'⟩ | ⟨-, ht'⟩
    · obtain rfl := Option.some.inj hrows'
      rcases List.mem_append.1 hδ' with hδ' | hδ'
      · exact h.free t' rows ht δ' hδ' k hk
      · obtain rfl := List.mem_singleton.1 hδ'
        exact fun hhas => hfree ⟨k, hk, (I.has_addAll _ _ _).2 (Or.inr hhas)⟩
    · exact h.free t' rows' ht' δ' hδ' k hk

theorem close (h : s.Sound I) (t : ℕ) : (s.close t).Sound I where
  lt_next t' rows ht' := by
    rcases opened_update ht' with ⟨-, hrows⟩ | ⟨-, ht'⟩
    · cases hrows
    · exact h.lt_next t' rows ht'
  apart t₁ t₂ rows₁ rows₂ hne h₁ h₂ := by
    rcases opened_update h₁ with ⟨-, hrows⟩ | ⟨-, h₁⟩
    · cases hrows
    · rcases opened_update h₂ with ⟨-, hrows⟩ | ⟨-, h₂⟩
      · cases hrows
      · exact h.apart t₁ t₂ rows₁ rows₂ hne h₁ h₂
  free t' rows ht' := by
    rcases opened_update ht' with ⟨-, hrows⟩ | ⟨-, ht'⟩
    · cases hrows
    · exact h.free t' rows ht'

/-- What is pending elsewhere stays free when a transaction commits. -/
theorem commit {t : ℕ} {rows : List Δ} (h : s.Sound I) (ht : s.opened t = some rows) :
    (s.commit I t rows).Sound I where
  lt_next := (h.close t).lt_next
  apart := (h.close t).apart
  free t' rows' ht' δ hδ k hk := by
    rcases opened_update ht' with ⟨-, hrows⟩ | ⟨hne, ht'⟩
    · cases hrows
    · refine fun hhas => ?_
      rcases (I.has_addAll _ _ _).1 hhas with ⟨δ', hδ', hk'⟩ | hhas
      · exact h.apart t' t rows' rows hne ht' ht δ hδ δ' hδ' k hk hk'
      · exact h.free t' rows' ht' δ hδ k hk hhas

end Sound

end Transactions

end EpsDapp
