import EpsDapp.Text.Encoding

/-!
# Texts over an alphabet

A text is over an alphabet when each of its characters is in it. What is put
together of such texts, or cut out of them, is over the alphabet again. The
numerals are over every alphabet that has the digits.
-/

set_option autoImplicit false

namespace EpsDapp

/-- Every character of the text is in the alphabet. -/
def Over (P : Char → Prop) (s : String) : Prop := ∀ c ∈ s.toList, P c

instance (P : Char → Prop) [DecidablePred P] (s : String) : Decidable (Over P s) :=
  List.decidableBAll P s.toList

/-- Characters that are checked one by one. -/
theorem forall_mem_of_all {P : Char → Prop} [DecidablePred P] {l : List Char}
    (h : (l.all fun c => decide (P c)) = true) : ∀ c ∈ l, P c := by
  simpa using h

/-! ## Operations of ECMAScript on texts -/

/-- `text.replace(pattern, replacement)` for single characters: the first match only. -/
def replaceFirst (pattern replacement : Char) : List Char → List Char
  | [] => []
  | c :: cs =>
      if c = pattern then replacement :: cs else c :: replaceFirst pattern replacement cs

/-- `text.padStart(width, "0")`. -/
def padStart (width : ℕ) (text : String) : String :=
  String.ofList (List.replicate (width - text.toList.length) '0' ++ text.toList)

/-- `text.split` at the maximal runs of characters that match. -/
def splitRuns (matching : Char → Bool) : List Char → List (List Char)
  | [] => [[]]
  | c :: cs =>
      if matching c then
        -- Only the last character of a run splits.
        if cs.head?.any matching then splitRuns matching cs else [] :: splitRuns matching cs
      else (splitRuns matching cs).modifyHead (c :: ·)

namespace Over

variable {P : Char → Prop}

@[simp] theorem ofList_iff (cs : List Char) : Over P (String.ofList cs) ↔ ∀ c ∈ cs, P c := by
  rw [Over, String.toList_ofList]

@[simp] theorem append_iff (s t : String) : Over P (s ++ t) ↔ Over P s ∧ Over P t := by
  simp [Over, or_imp, forall_and]

theorem repr (hdigit : ∀ c, c.isDigit = true → P c) (n : ℕ) : Over P n.repr := by
  intro c hc
  rw [Nat.toList_repr] at hc
  exact hdigit c (Nat.isDigit_of_mem_toDigits (by decide) (by decide) hc)

theorem toString_int (hdigit : ∀ c, c.isDigit = true → P c) (hminus : P '-') (n : ℤ) :
    Over P (toString n) := by
  cases n with
  | ofNat n => exact repr hdigit n
  | negSucc n =>
      refine (append_iff "-" _).2 ⟨fun c hc => ?_, repr hdigit _⟩
      obtain rfl : c = '-' := by simpa using hc
      exact hminus

theorem padStart (hzero : P '0') {s : String} (h : Over P s) (width : ℕ) :
    Over P (padStart width s) := by
  refine (ofList_iff _).2 fun c hc => ?_
  rcases List.mem_append.1 hc with hc | hc
  · obtain rfl := List.eq_of_mem_replicate hc
    exact hzero
  · exact h c hc

theorem replaceFirst {pattern replacement : Char} (hreplacement : P replacement)
    {cs : List Char} (h : ∀ c ∈ cs, P c) : ∀ c ∈ replaceFirst pattern replacement cs, P c := by
  induction cs with
  | nil => exact h
  | cons d ds ih =>
      obtain ⟨hd, hds⟩ := List.forall_mem_cons.1 h
      rw [EpsDapp.replaceFirst]
      split
      · exact List.forall_mem_cons.2 ⟨hreplacement, hds⟩
      · exact List.forall_mem_cons.2 ⟨hd, ih hds⟩

theorem splitRuns {matching : Char → Bool} {cs : List Char} (h : ∀ c ∈ cs, P c) :
    ∀ word ∈ splitRuns matching cs, ∀ c ∈ word, P c := by
  induction cs with
  | nil => simp [EpsDapp.splitRuns]
  | cons d ds ih =>
      obtain ⟨hd, hds⟩ := List.forall_mem_cons.1 h
      have hwords := ih hds
      rw [EpsDapp.splitRuns]
      split
      · split
        · exact hwords
        · exact List.forall_mem_cons.2 ⟨by simp, hwords⟩
      · cases hsplit : EpsDapp.splitRuns matching ds with
        | nil => simp
        | cons word words =>
            rw [hsplit, List.forall_mem_cons] at hwords
            exact List.forall_mem_cons.2 ⟨List.forall_mem_cons.2 ⟨hd, hwords.1⟩, hwords.2⟩

end Over

end EpsDapp
