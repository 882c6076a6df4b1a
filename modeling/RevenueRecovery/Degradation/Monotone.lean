import Mathlib.Tactic.Linarith
import Mathlib.Tactic.NormNum
import RevenueRecovery.Analytics
import RevenueRecovery.Degradation.StateMachine

/-!
# Stage 3: detection is monotone

A snapshot with no higher success rate and no lower baseline than a bad one is bad, and at
least as severe (`evaluateSnapshot_monotone`). The relative test is switched on by the
baseline, but below its floor no drop from a success rate reaches the absolute threshold.

## Main definitions
* `relativeDrop` : the drop as a part of the baseline.
* `IsBad` : when the drops of a snapshot call it bad.
-/
namespace RevenueRecovery

/-- The drop from the baseline, as a part of it. -/
def relativeDrop (baseline current : ℚ) : ℚ :=
  if baseline > 0 then (baseline - current) / baseline else 0

/-- The thresholds that make a snapshot bad. -/
def IsBad (baseline current : ℚ) : Prop :=
  if baseline < minBaselineRateForRelativeTest then
    baseline - current ≥ minAbsoluteRateDrop
  else baseline - current ≥ minAbsoluteRateDrop ∧
    relativeDrop baseline current ≥ minRelativeRateDrop

/-- Both drops reach a threshold of severity, the relative one only above the floor. -/
def Reaches (baseline current absolute relative : ℚ) : Prop :=
  baseline - current ≥ absolute ∨ (baseline ≥ minBaselineRateForRelativeTest ∧
    relativeDrop baseline current ≥ relative)

instance (baseline current absolute relative : ℚ) :
    Decidable (Reaches baseline current absolute relative) :=
  inferInstanceAs (Decidable (_ ∨ _ ∧ _))

section Drops
variable {b₁ b₂ c₁ c₂ absolute relative : ℚ}

/-- The part of the baseline that is left shrinks when the success rate falls and when the
baseline rises. -/
theorem relativeDrop_mono (hb : 0 < b₁) (hc : 0 ≤ c₁) (hrate : c₂ ≤ c₁) (hbase : b₁ ≤ b₂) :
    relativeDrop b₁ c₁ ≤ relativeDrop b₂ c₂ := by
  have hb₂ : 0 < b₂ := lt_of_lt_of_le hb hbase
  have hleft : c₂ / b₂ ≤ c₁ / b₁ :=
    calc c₂ / b₂ ≤ c₁ / b₂ := div_le_div_of_nonneg_right hrate hb₂.le
      _ ≤ c₁ / b₁ := div_le_div_of_nonneg_left hc hb hbase
  unfold relativeDrop
  rw [if_pos hb, if_pos hb₂, sub_div, sub_div, div_self hb.ne', div_self hb₂.ne']
  exact sub_le_sub_left hleft 1

/-- Below the floor no success rate is low enough for a drop of that size. -/
theorem floor_le_of_drop (hc : 0 ≤ c₁) (habsolute : minAbsoluteRateDrop ≤ absolute)
    (hdrop : b₁ - c₁ ≥ absolute) : minBaselineRateForRelativeTest ≤ b₁ := by
  have hfloor : minBaselineRateForRelativeTest = minAbsoluteRateDrop := rfl
  linarith

theorem floor_pos : 0 < minBaselineRateForRelativeTest := by
  norm_num [minBaselineRateForRelativeTest]

theorem IsBad.mono (hc : 0 ≤ c₁) (hrate : c₂ ≤ c₁) (hbase : b₁ ≤ b₂) (h : IsBad b₁ c₁) :
    IsBad b₂ c₂ := by
  have hdrop : b₁ - c₁ ≥ minAbsoluteRateDrop := by
    unfold IsBad at h
    split at h
    · exact h
    · exact h.1
  have hfloor : minBaselineRateForRelativeTest ≤ b₁ := floor_le_of_drop hc le_rfl hdrop
  have hrelative : relativeDrop b₁ c₁ ≥ minRelativeRateDrop := by
    unfold IsBad at h
    rw [if_neg (not_lt.mpr hfloor)] at h
    exact h.2
  unfold IsBad
  rw [if_neg (not_lt.mpr (hfloor.trans hbase))]
  have hb : 0 < b₁ := lt_of_lt_of_le floor_pos hfloor
  exact ⟨by linarith, hrelative.trans (relativeDrop_mono hb hc hrate hbase)⟩

theorem Reaches.mono (hc : 0 ≤ c₁) (hrate : c₂ ≤ c₁) (hbase : b₁ ≤ b₂)
    (h : Reaches b₁ c₁ absolute relative) : Reaches b₂ c₂ absolute relative := by
  rcases h with hdrop | ⟨hfloor, hdrop⟩
  · exact .inl (by linarith)
  · have hb : 0 < b₁ := lt_of_lt_of_le floor_pos hfloor
    exact .inr ⟨hfloor.trans hbase, hdrop.trans (relativeDrop_mono hb hc hrate hbase)⟩

end Drops

/-! ## Signals -/

section Signals
variable {s : PaymentHealthSnapshot} {b c : ℚ}

/-- The signal of a snapshot with sufficient volume, a baseline and a success rate. -/
theorem evaluateSnapshot_drops (hvolume : s.insufficientVolume = false)
    (hbaseline : s.baselineSuccessRate = some b) (hrate : s.successRate = some c)
    (version : ℕ) (t : Time) : ∃ g, evaluateSnapshot s version t = .ok g ∧
      (g.signalType = .bad ↔ IsBad b c) ∧ g.absoluteDrop = some (b - c) ∧
      g.relativeDrop = some (relativeDrop b c) := by
  simp only [evaluateSnapshot, hvolume, hbaseline, hrate]
  refine ⟨_, rfl, ?_, rfl, rfl⟩
  simp only [IsBad, relativeDrop]
  split_ifs <;> simp_all

/-- The severity follows the larger of the two drops. -/
theorem evaluateSeverity_drops {g : DegradationSignal} (habsolute : g.absoluteDrop = some (b - c))
    (hrelative : g.relativeDrop = some (relativeDrop b c)) : evaluateSeverity g b =
      if Reaches b c severityCriticalAbsoluteDrop severityCriticalRelativeDrop then .critical
      else if Reaches b c severityHighAbsoluteDrop severityHighRelativeDrop then .high
      else .moderate := by
  simp only [evaluateSeverity, habsolute, hrelative]
  rfl

end Signals

/-- A snapshot with no higher success rate and no lower baseline is bad when the other is, and
at least as severe. -/
theorem evaluateSnapshot_monotone {s₁ s₂ : PaymentHealthSnapshot} {b₁ b₂ c₁ c₂ : ℚ}
    (hvolume₁ : s₁.insufficientVolume = false) (hvolume₂ : s₂.insufficientVolume = false)
    (hbaseline₁ : s₁.baselineSuccessRate = some b₁)
    (hbaseline₂ : s₂.baselineSuccessRate = some b₂)
    (hrate₁ : s₁.successRate = some c₁) (hrate₂ : s₂.successRate = some c₂)
    (hc : 0 ≤ c₁) (hrate : c₂ ≤ c₁) (hbase : b₁ ≤ b₂) (version₁ version₂ : ℕ)
    (t₁ t₂ : Time) : ∃ g₁ g₂, evaluateSnapshot s₁ version₁ t₁ = .ok g₁ ∧
      evaluateSnapshot s₂ version₂ t₂ = .ok g₂ ∧
      (g₁.signalType = .bad → g₂.signalType = .bad) ∧
      (evaluateSeverity g₁ b₁).rank ≤ (evaluateSeverity g₂ b₂).rank := by
  obtain ⟨g₁, hg₁, hbad₁, habsolute₁, hrelative₁⟩ :=
    evaluateSnapshot_drops hvolume₁ hbaseline₁ hrate₁ version₁ t₁
  obtain ⟨g₂, hg₂, hbad₂, habsolute₂, hrelative₂⟩ :=
    evaluateSnapshot_drops hvolume₂ hbaseline₂ hrate₂ version₂ t₂
  refine ⟨g₁, g₂, hg₁, hg₂, fun hbad => hbad₂.mpr ((hbad₁.mp hbad).mono hc hrate hbase), ?_⟩
  rw [evaluateSeverity_drops habsolute₁ hrelative₁, evaluateSeverity_drops habsolute₂ hrelative₂]
  have hmono : ∀ {absolute relative : ℚ}, Reaches b₁ c₁ absolute relative →
      Reaches b₂ c₂ absolute relative := fun h => h.mono hc hrate hbase
  split_ifs with hcritical₁ hcritical₂ hhigh₂ hhigh₁ hcritical₂ hhigh₂ hcritical₂ hhigh₂
  all_goals first | exact absurd (hmono ‹_›) ‹_› | decide

/-- A rate that falls from 80% to 60% against the same baseline. -/
theorem evaluateSnapshot_monotone_falling : ∃ s₁ s₂ : PaymentHealthSnapshot,
    s₁.successRate = some (8 / 10) ∧ s₂.successRate = some (6 / 10) ∧
      ∃ g₁ g₂, evaluateSnapshot s₁ 1 0 = .ok g₁ ∧ evaluateSnapshot s₂ 1 0 = .ok g₂ ∧
        (g₁.signalType = .bad → g₂.signalType = .bad) ∧
        (evaluateSeverity g₁ (9 / 10)).rank ≤ (evaluateSeverity g₂ (9 / 10)).rank := by
  let s (rate : ℚ) : PaymentHealthSnapshot :=
    { segmentSnapshot 0 0 "GLOBAL" "ALL" 0 [] with
      successRate := some rate, baselineSuccessRate := some (9 / 10) }
  exact ⟨s (8 / 10), s (6 / 10), rfl, rfl, evaluateSnapshot_monotone rfl rfl rfl rfl rfl rfl
    (by norm_num) (by norm_num) le_rfl 1 1 0 0⟩

end RevenueRecovery
