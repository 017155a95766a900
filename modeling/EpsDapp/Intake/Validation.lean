import EpsDapp.Intake.Post

/-!
# What the validation admits

A body that parses has trimmed texts, with lengths within the bounds of the schema.
The issues of the fields are collected, so the fields of an accepted body have each
been accepted alone.
-/

set_option autoImplicit false

namespace EpsDapp

/-- Validation accepts if it accepts both parts. -/
theorem collect_eq_ok {α β : Type} {pf : Except FieldErrors (α → β)} {pa : Except FieldErrors α}
    {b : β} : collect pf pa = .ok b ↔ ∃ f a, pf = .ok f ∧ pa = .ok a ∧ b = f a := by
  cases pf with
  | error e =>
      cases pa with
      | error e' => simp [collect]
      | ok a => simp [collect]
  | ok f =>
      cases pa with
      | error e' => simp [collect]
      | ok a => simp [collect, eq_comm]

theorem map_eq_ok {ε α β : Type} {f : α → β} {x : Except ε α} {b : β} :
    x.map f = .ok b ↔ ∃ a, x = .ok a ∧ b = f a := by
  cases x with
  | error e => simp [Except.map]
  | ok a => simp [Except.map, eq_comm]

/-- A text that `z.string().trim().min(1).max(maximum)` answers with. -/
structure TrimmedText (maximum : ℕ) (s : String) : Prop where
  trimmed : trim s = s
  pos : 1 ≤ utf16Length s
  le : utf16Length s ≤ maximum

/-- What a string schema answers with is trimmed, and has a length within its
bounds. -/
theorem zodString_eq_ok {field s : String} {min : Option (Option String)} {max : Option ℕ}
    {v : Option Json} (h : zodString field min max v = .ok s) :
    trim s = s ∧ (min.isSome → 1 ≤ utf16Length s) ∧
      ∀ maximum, max = some maximum → utf16Length s ≤ maximum := by
  rcases v with _ | (_ | _ | _ | text | _ | _)
  case some.string =>
    simp only [zodString] at h
    split at h
    · cases h
    · rename_i hmin
      have hs : s = trim text ∧ ∀ maximum, max = some maximum →
          utf16Length (trim text) ≤ maximum := by
        cases max with
        | none =>
            cases h
            exact ⟨rfl, nofun⟩
        | some maximum =>
            simp only at h
            split at h
            · cases h
            · rename_i hmax
              cases h
              refine ⟨rfl, ?_⟩
              rintro _ ⟨⟩
              exact not_lt.1 hmax
      obtain ⟨rfl, hmax⟩ := hs
      refine ⟨trim_trim text, fun hsome => ?_, hmax⟩
      exact not_lt.1 fun hlt => hmin ⟨hsome, hlt⟩
  all_goals cases h

theorem TrimmedText.of_zodString {field message s : String} {maximum : ℕ} {v : Option Json}
    (h : zodString field (some (some message)) (some maximum) v = .ok s) :
    TrimmedText maximum s := by
  obtain ⟨htrim, hmin, hmax⟩ := zodString_eq_ok h
  exact ⟨htrim, hmin rfl, hmax _ rfl⟩

/-- What the schema promises of an input. -/
structure ServiceRequestInput.Valid (input : ServiceRequestInput) : Prop where
  caseCaption : TrimmedText 500 input.caseCaption
  plaintiffName : TrimmedText 300 input.plaintiffName
  defendantName : TrimmedText 300 input.defendantName
  recipientWallet : trim input.recipientWallet = input.recipientWallet

/-- A body that parses is valid. -/
theorem ServiceRequestInput.valid_of_safeParse {body : Json} {input : ServiceRequestInput}
    (h : safeParse body = .ok input) : input.Valid := by
  cases body with
  | object fields =>
      obtain ⟨_, _, hinput, -, rfl⟩ := collect_eq_ok.1 h
      obtain ⟨_, hflag, rfl⟩ := map_eq_ok.1 hinput
      obtain ⟨_, _, hresolved, -, rfl⟩ := collect_eq_ok.1 hflag
      obtain ⟨_, _, hname, -, rfl⟩ := collect_eq_ok.1 hresolved
      obtain ⟨_, _, hrecipient, -, rfl⟩ := collect_eq_ok.1 hname
      obtain ⟨_, _, hparties, hwallet, rfl⟩ := collect_eq_ok.1 hrecipient
      obtain ⟨_, _, hparty, hdefendant, rfl⟩ := collect_eq_ok.1 hparties
      obtain ⟨_, _, hcase, hplaintiff, rfl⟩ := collect_eq_ok.1 hparty
      obtain ⟨_, _, ⟨⟩, hcaption, rfl⟩ := collect_eq_ok.1 hcase
      exact ⟨.of_zodString hcaption, .of_zodString hplaintiff, .of_zodString hdefendant,
        (zodString_eq_ok hwallet).1⟩
  | _ => cases h

end EpsDapp
