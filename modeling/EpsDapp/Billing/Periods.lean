import EpsDapp.Billing.Grants

/-!
# Months of a period

The meter and the checkout end a period one calendar month after it begins, and a
grant ends 24 months after it. `setMonth` carries a day that the target month does
not have over into the month after it, so a period that begins late in a long month
ends a month too late, behind the period that begins a day later.
-/

set_option autoImplicit false

namespace EpsDapp

open Calendar

/-- A subscription with a period of a month that begins at `now`: it is rolled over, or
bought. -/
inductive MonthOpened (now : Instant) : Subscription → Prop
  | rollover (s : Subscription) : MonthOpened now ((rollover now).apply s)
  | checkout (orgId tierId id : String) :
      MonthOpened now ((checkoutCreate orgId tierId now).row id)

/-- A subscription that is granted at `now`. -/
inductive GrantOpened (now : Instant) : Subscription → Prop
  | update (s : Subscription) : GrantOpened now ((compGrantUpdate now).apply s)
  | create (orgId id : String) : GrantOpened now ((compGrantCreate orgId now).row id)

/-- A period that begins at `a` ends in the next month, no later than one that begins at `b`,
and a grant ends in the month 24 months on. -/
structure PeriodsAdvance (a b : Instant) : Prop where
  later : ∀ s, MonthOpened a s → a < s.periodEnd
  month : ∀ s, MonthOpened a s → monthIndex s.periodEnd = monthIndex a + 1
  sorted : ∀ s s', MonthOpened a s → MonthOpened b s' → s.periodEnd ≤ s'.periodEnd
  grant : ∀ s, GrantOpened a s → monthIndex s.periodEnd = monthIndex a + 24

variable {a b : Instant}

theorem MonthOpened.periodEnd_eq {s : Subscription} (h : MonthOpened a s) :
    s.periodEnd = addMonths a 1 := by
  cases h with
  | rollover s => rfl
  | checkout orgId tierId id => rfl

theorem GrantOpened.periodEnd_eq {s : Subscription} (h : GrantOpened a s) :
    s.periodEnd = addMonths a 24 := by
  cases h with
  | update s => rfl
  | create orgId id => rfl

/-- The periods that begin at `a` advance exactly if the next month and the month 24 months on
have the day of the month of `a`. -/
theorem periodsAdvance_iff (h : a ≤ b) :
    PeriodsAdvance a b ↔
      dayOfMonth a ≤ daysInMonth (monthIndex a + 1) ∧
        dayOfMonth a ≤ daysInMonth (monthIndex a + 24) := by
  constructor
  · intro hadvance
    have hmonth := hadvance.month _ (.checkout "" "" "")
    have hgrant := hadvance.grant _ (.create "" "")
    exact ⟨(monthIndex_addMonths_iff a 1).1 hmonth, (monthIndex_addMonths_iff a 24).1 hgrant⟩
  · rintro ⟨hmonth, hgrant⟩
    refine ⟨fun s hs => ?_, fun s hs => ?_, fun s s' hs hs' => ?_, fun s hs => ?_⟩
    · rw [hs.periodEnd_eq]
      exact lt_addMonths a (by decide)
    · rw [hs.periodEnd_eq]
      exact (monthIndex_addMonths_iff a 1).2 hmonth
    · rw [hs.periodEnd_eq, hs'.periodEnd_eq]
      exact addMonths_le_addMonths h hmonth
    · rw [hs.periodEnd_eq]
      exact (monthIndex_addMonths_iff a 24).2 hgrant

/-- Periods that begin on the first two days of 1970. -/
theorem periodsAdvance_of_january : PeriodsAdvance 0 86400000 :=
  (periodsAdvance_iff (by decide)).2 ⟨by decide, by decide⟩

/-- A subscription bought on 2026-01-31 is found before one that is bought on 2026-02-01: the
periods end on March 3 and on March 1. -/
theorem not_periodsAdvance_of_january :
    ¬ ∀ a b : Instant, a ≤ b → PeriodsAdvance a b := by
  intro h
  have hsorted := (h 1769860800000 1769947200000 (by decide)).sorted _ _
    (.checkout "org-1" "tier1" "sub-1") (.checkout "org-1" "tier1" "sub-2")
  revert hsorted
  decide

end EpsDapp
