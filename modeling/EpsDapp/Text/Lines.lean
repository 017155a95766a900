import EpsDapp.Text.Alphabet
import Mathlib.Algebra.Order.BigOperators.Group.List
import Mathlib.Algebra.Order.Ring.Rat
import Mathlib.Tactic.Linarith

/-!
# Words and lines

A text is a sequence of words between runs of white space. Words are packed into
lines greedily: a word goes on the line of the word before it if they fit there
together, and begins a new line otherwise. No other way of breaking the words into
lines that fit takes fewer lines.
-/

set_option autoImplicit false

namespace EpsDapp

/-! ## The words of a text -/

section Words

variable (matching : Char → Bool)

/-- The runs of characters that do not match. -/
def runs (cs : List Char) : List (List Char) := (splitRuns matching cs).filter (· ≠ [])

variable {matching}

theorem splitRuns_ne_nil (cs : List Char) : splitRuns matching cs ≠ [] := by
  induction cs with
  | nil => simp [splitRuns]
  | cons c cs ih =>
      rw [splitRuns]
      split
      · split
        · exact ih
        · exact List.cons_ne_nil _ _
      · simpa using ih

@[simp] theorem runs_nil : runs matching [] = [] := by
  simp [runs, splitRuns]

theorem runs_cons_of_matching {c : Char} (h : matching c = true) (cs : List Char) :
    runs matching (c :: cs) = runs matching cs := by
  rw [runs, splitRuns, if_pos h]
  split
  · rfl
  · simp [runs]

/-- The first run of a text that begins with a match is empty. -/
theorem head?_splitRuns_of_matching {cs : List Char} (h : cs.head?.any matching = true) :
    (splitRuns matching cs).head? = some [] := by
  induction cs with
  | nil => cases h
  | cons c cs ih =>
      rw [splitRuns, if_pos (by simpa using h)]
      split
      · exact ih ‹_›
      · rfl

/-- The first run of a text that does not begin with a match is empty exactly if the text
is. -/
theorem head?_splitRuns {cs : List Char} (h : cs.head?.any matching = false) :
    (splitRuns matching cs).head? = some [] ↔ cs = [] := by
  cases cs with
  | nil => simp [splitRuns]
  | cons c cs =>
      have hc : ¬ matching c = true := by simpa using h
      rw [splitRuns, if_neg hc]
      cases hruns : splitRuns matching cs with
      | nil => exact absurd hruns (splitRuns_ne_nil cs)
      | cons run rest => simp

theorem runs_cons_of_not {c : Char} (h : matching c = false) (cs : List Char) :
    runs matching (c :: cs) =
      if cs.head?.any (! matching ·) then (runs matching cs).modifyHead (c :: ·)
      else [c] :: runs matching cs := by
  have hc : ¬ matching c = true := by simp [h]
  rw [runs, splitRuns, if_neg hc, runs]
  cases hruns : splitRuns matching cs with
  | nil => exact absurd hruns (splitRuns_ne_nil cs)
  | cons run rest =>
      have hrun : run = [] ↔ (splitRuns matching cs).head? = some [] := by simp [hruns]
      cases cs with
      | nil =>
          obtain rfl := hrun.2 (by simp [splitRuns])
          simp
      | cons d cs =>
          cases hd : matching d with
          | false =>
              have hne : run ≠ [] := by
                rw [Ne, hrun, head?_splitRuns (by simp [hd])]
                exact List.cons_ne_nil _ _
              simp [hd, hne]
          | true =>
              obtain rfl := hrun.2 (head?_splitRuns_of_matching (by simp [hd]))
              simp [hd]

theorem runs_ne_nil {cs : List Char} (h : cs.head?.any (! matching ·) = true) :
    runs matching cs ≠ [] := by
  cases cs with
  | nil => cases h
  | cons c cs =>
      have hc : matching c = false := by simpa using h
      rw [runs_cons_of_not hc]
      split
      · rename_i hhead
        have hrest := runs_ne_nil hhead
        simpa using hrest
      · exact List.cons_ne_nil _ _

/-- A match separates runs. -/
theorem runs_append {c : Char} (hc : matching c = true) (cs ds : List Char) :
    runs matching (cs ++ c :: ds) = runs matching cs ++ runs matching ds := by
  induction cs with
  | nil => rw [List.nil_append, runs_cons_of_matching hc, runs_nil, List.nil_append]
  | cons d cs ih =>
      rw [List.cons_append]
      cases hd : matching d with
      | true => rw [runs_cons_of_matching hd, runs_cons_of_matching hd, ih]
      | false =>
          have hhead : (cs ++ c :: ds).head?.any (! matching ·) =
              cs.head?.any (! matching ·) := by
            cases cs with
            | nil => simp [hc]
            | cons e cs => rfl
          rw [runs_cons_of_not hd, runs_cons_of_not hd, hhead, ih]
          split
          · rename_i hfirst
            cases hruns : runs matching cs with
            | nil => exact absurd hruns (runs_ne_nil hfirst)
            | cons run rest => rfl
          · rfl

/-- A text without a match is one run, or none. -/
theorem runs_of_forall_not {cs : List Char} (h : ∀ c ∈ cs, matching c = false) :
    runs matching cs = if cs = [] then [] else [cs] := by
  induction cs with
  | nil => simp
  | cons c cs ih =>
      obtain ⟨hc, hcs⟩ := List.forall_mem_cons.1 h
      rw [runs_cons_of_not hc, ih hcs]
      cases cs with
      | nil => simp
      | cons d cs => simp [hcs d List.mem_cons_self]

/-- A run is not empty, and has no match in it. -/
theorem of_mem_runs {cs run : List Char} (h : run ∈ runs matching cs) :
    run ≠ [] ∧ ∀ c ∈ run, matching c = false := by
  refine ⟨by simpa [runs] using (List.mem_filter.1 h).2, ?_⟩
  induction cs generalizing run with
  | nil => simp at h
  | cons c cs ih =>
      cases hc : matching c with
      | true => exact ih (by rwa [runs_cons_of_matching hc] at h)
      | false =>
          rw [runs_cons_of_not hc] at h
          split at h
          · cases hruns : runs matching cs with
            | nil => simp [hruns] at h
            | cons first rest =>
                rw [hruns, List.modifyHead_cons] at h
                rcases List.mem_cons.1 h with rfl | hrun
                · exact List.forall_mem_cons.2 ⟨hc, ih (by simp [hruns])⟩
                · exact ih (by simp [hruns, hrun])
          · rcases List.mem_cons.1 h with rfl | hrun
            · simpa using hc
            · exact ih hrun

/-- What is split off before the runs. -/
def opening (matching : Char → Bool) (cs : List Char) : List (List Char) :=
  if cs.head?.all matching then [[]] else []

/-- What is split off besides the runs is empty, and at the ends. -/
theorem splitRuns_eq (cs : List Char) : ∃ closing : List (List Char),
    (closing = [] ∨ closing = [[]]) ∧
      splitRuns matching cs = opening matching cs ++ runs matching cs ++ closing := by
  induction cs with
  | nil => exact ⟨[], Or.inl rfl, by simp [splitRuns, opening]⟩
  | cons c cs ih =>
      obtain ⟨closing, hclosing, hsplit⟩ := ih
      cases hc : matching c with
      | true =>
          rw [runs_cons_of_matching hc, splitRuns, if_pos hc]
          cases cs with
          | nil => exact ⟨[[]], Or.inr rfl, by simp [splitRuns, opening, hc]⟩
          | cons d cs =>
              refine ⟨closing, hclosing, ?_⟩
              rw [hsplit]
              cases hd : matching d with
              | true => simp [opening, hc, hd]
              | false => simp [opening, hc, hd]
      | false =>
          refine ⟨closing, hclosing, ?_⟩
          rw [splitRuns, if_neg (by simp [hc]), runs_cons_of_not hc, hsplit]
          cases cs with
          | nil => simp [opening, hc]
          | cons d cs =>
              cases hd : matching d with
              | true => simp [opening, hc, hd]
              | false =>
                  cases hruns : runs matching (d :: cs) with
                  | nil => exact absurd hruns (runs_ne_nil (by simp [hd]))
                  | cons run rest => simp [opening, hc, hd]

end Words

/-! ## Packing -/

section Pack

variable {α : Type} (fits : List α → Prop) [DecidablePred fits]

/-- The lines of `ws` from `line` on: each of `ws` goes on the line of the one before it
while that fits. -/
def packFrom : List α → List α → List (List α)
  | line, [] => [line]
  | line, w :: ws =>
      if fits (line ++ [w]) then packFrom (line ++ [w]) ws else line :: packFrom [w] ws

/-- The greedy lines of `ws`. -/
def pack : List α → List (List α)
  | [] => []
  | w :: ws => packFrom fits [w] ws

/-- A line fits, or has a single word. -/
def FitsOrSingle (line : List α) : Prop := fits line ∨ line.length = 1

/-- The lines break `ws`, and none of them is empty or too long. -/
structure Breaks (ws : List α) (lines : List (List α)) : Prop where
  flatten : lines.flatten = ws
  ne_nil : ∀ line ∈ lines, line ≠ []
  fits : ∀ line ∈ lines, FitsOrSingle fits line

variable {fits}

theorem breaks_packFrom {line : List α} (hne : line ≠ []) (hline : FitsOrSingle fits line)
    (ws : List α) : Breaks fits (line ++ ws) (packFrom fits line ws) := by
  induction ws generalizing line with
  | nil => exact ⟨by simp [packFrom], by simpa [packFrom], by simpa [packFrom]⟩
  | cons w ws ih =>
      rw [packFrom]
      split
      · rename_i hfits
        have hbreaks := ih (List.append_ne_nil_of_right_ne_nil line (List.cons_ne_nil w []))
          (Or.inl hfits)
        rwa [List.append_assoc, List.singleton_append] at hbreaks
      · obtain ⟨hflatten, hnil, hfit⟩ := ih (List.cons_ne_nil w []) (Or.inr rfl)
        exact ⟨by simp [hflatten], List.forall_mem_cons.2 ⟨hne, hnil⟩,
          List.forall_mem_cons.2 ⟨hline, hfit⟩⟩

/-- The greedy lines break the words. -/
theorem breaks_pack (ws : List α) : Breaks fits ws (pack fits ws) := by
  cases ws with
  | nil => exact ⟨rfl, by simp [pack], by simp [pack]⟩
  | cons w ws => exact breaks_packFrom (List.cons_ne_nil w []) (Or.inr rfl) ws

variable (fits) in
/-- What is cut off at either end of a line that fits leaves a line that fits. -/
structure ClosedUnderCuts : Prop where
  left : ∀ w line, line ≠ [] → fits (w :: line) → fits line
  right : ∀ line w, line ≠ [] → fits (line ++ [w]) → fits line

omit [DecidablePred fits] in
theorem ClosedUnderCuts.of_append (h : ClosedUnderCuts fits) {line rest : List α} (hne : line ≠ [])
    (hfits : fits (line ++ rest)) : fits line := by
  induction rest using List.reverseRecOn with
  | nil => rwa [List.append_nil] at hfits
  | append_singleton rest w ih =>
      rw [← List.append_assoc] at hfits
      exact ih (h.right _ w (by simp [hne]) hfits)

omit [DecidablePred fits] in
/-- Without its first words, a text needs no more lines. -/
theorem Breaks.drop (h : ClosedUnderCuts fits) {ws vs : List α} {lines : List (List α)}
    (hlines : Breaks fits (vs ++ ws) lines) :
    ∃ lines', Breaks fits ws lines' ∧ lines'.length ≤ lines.length := by
  induction vs generalizing lines with
  | nil => exact ⟨lines, hlines, le_rfl⟩
  | cons v vs ih =>
      obtain ⟨hflatten, hnil, hfit⟩ := hlines
      cases lines with
      | nil => simp at hflatten
      | cons line lines =>
          obtain ⟨hline, hnils⟩ := List.forall_mem_cons.1 hnil
          obtain ⟨hlinefit, hfits⟩ := List.forall_mem_cons.1 hfit
          cases line with
          | nil => exact absurd rfl hline
          | cons u line =>
              obtain ⟨rfl, hrest⟩ : u = v ∧ line ++ lines.flatten = vs ++ ws := by
                simpa using hflatten
              cases line with
              | nil =>
                  obtain ⟨lines', hbreaks, hle⟩ := ih ⟨hrest, hnils, hfits⟩
                  exact ⟨lines', hbreaks, hle.trans (Nat.le_succ _)⟩
              | cons w line =>
                  refine @ih ((w :: line) :: lines) ⟨hrest, ?_, ?_⟩
                  · exact List.forall_mem_cons.2 ⟨List.cons_ne_nil _ _, hnils⟩
                  · refine List.forall_mem_cons.2 ⟨Or.inl (h.left u _ (by simp) ?_), hfits⟩
                    exact hlinefit.resolve_right (by simp)

/-- No lines that go on from `line` are fewer than the greedy ones. -/
theorem length_packFrom_le (h : ClosedUnderCuts fits) {line : List α} (hne : line ≠ [])
    (ws : List α) {lines : List (List α)} (hlines : Breaks fits (line ++ ws) lines) :
    (packFrom fits line ws).length ≤ lines.length := by
  induction ws generalizing line lines with
  | nil =>
      cases lines with
      | nil => exact absurd (by simpa using hlines.flatten) hne
      | cons _ _ => simp [packFrom]
  | cons w ws ih =>
      rw [packFrom]
      split
      · exact ih (by simp) (by simpa using hlines)
      · rename_i hfull
        cases lines with
        | nil => exact absurd (by simpa using hlines.flatten) hne
        | cons first rest =>
            obtain ⟨hflatten, hnil, hfit⟩ := hlines
            rw [List.flatten_cons] at hflatten
            -- The first line ends before `w`, so the others break what `w` begins.
            have hshort : ∃ vs, rest.flatten = vs ++ w :: ws := by
              rcases List.append_eq_append_iff.1 hflatten with ⟨vs, hvs, hws⟩ | ⟨vs, hvs, hws⟩
              · exact ⟨vs, hws⟩
              · cases vs with
                | nil => exact ⟨[], hws.symm⟩
                | cons v vs =>
                    obtain rfl : w = v := by simpa using congrArg List.head? hws
                    have hfirst : FitsOrSingle fits first := hfit _ List.mem_cons_self
                    have hfits : fits first := hfirst.resolve_right fun hone => by
                      have := List.length_pos_iff.2 hne
                      rw [hvs, List.length_append, List.length_cons] at hone
                      omega
                    rw [hvs, List.append_cons] at hfits
                    exact absurd (h.of_append (by simp) hfits) hfull
            obtain ⟨vs, hvs⟩ := hshort
            have hrest : Breaks fits (vs ++ w :: ws) rest :=
              ⟨hvs, fun l hl => hnil l (List.mem_cons_of_mem _ hl),
                fun l hl => hfit l (List.mem_cons_of_mem _ hl)⟩
            obtain ⟨lines', hbreaks, hle⟩ := hrest.drop h
            exact Nat.succ_le_succ ((ih (by simp) hbreaks).trans hle)

/-- No lines that break the words are fewer than the greedy ones. -/
theorem length_pack_le (h : ClosedUnderCuts fits) {ws : List α} {lines : List (List α)}
    (hlines : Breaks fits ws lines) : (pack fits ws).length ≤ lines.length := by
  cases ws with
  | nil => exact Nat.zero_le _
  | cons w ws => exact length_packFrom_le h (by simp) ws hlines

/-- Two lines in a row are together longer than one line may be, so the lines are at most
twice as many as their words would fill. -/
theorem length_packFrom_mul_le {size : α → ℚ} {bound : ℚ} (hsize : ∀ w, 0 ≤ size w)
    (hfits : ∀ line, (line.map size).sum ≤ bound → fits line) (line ws : List α) :
    (((packFrom fits line ws).length : ℚ) - 1) * bound ≤
      (line.map size).sum + 2 * (ws.map size).sum := by
  have hnonneg : ∀ l : List α, 0 ≤ (l.map size).sum := fun l =>
    List.sum_nonneg fun x hx => by
      obtain ⟨w, -, rfl⟩ := List.mem_map.1 hx
      exact hsize w
  induction ws generalizing line with
  | nil => simpa [packFrom] using hnonneg line
  | cons w ws ih =>
      rw [packFrom]
      split
      · have hrest := ih (line ++ [w])
        have hw := hsize w
        simp only [List.map_append, List.map_cons, List.map_nil, List.sum_append, List.sum_cons,
          List.sum_nil] at hrest ⊢
        linarith
      · rename_i hfull
        have hrest := ih [w]
        have hlong : bound < ((line ++ [w]).map size).sum :=
          lt_of_not_ge fun hle => hfull (hfits _ hle)
        simp only [List.map_append, List.map_cons, List.map_nil, List.sum_append, List.sum_cons,
          List.sum_nil, List.length_cons, Nat.cast_add, Nat.cast_one] at hrest hlong ⊢
        linarith

theorem length_pack_mul_le {size : α → ℚ} {bound : ℚ} (hbound : 0 ≤ bound)
    (hsize : ∀ w, 0 ≤ size w) (hfits : ∀ line, (line.map size).sum ≤ bound → fits line)
    (ws : List α) :
    (((pack fits ws).length : ℚ) - 1) * bound ≤ 2 * (ws.map size).sum := by
  cases ws with
  | nil => simpa [pack] using hbound
  | cons w ws =>
      have hfrom := length_packFrom_mul_le hsize hfits [w] ws
      have hw := hsize w
      simp only [List.map_cons, List.map_nil, List.sum_cons, List.sum_nil] at hfrom ⊢
      exact hfrom.trans (by linarith)

end Pack

end EpsDapp
