import RevenueRecovery.Attribution.Calculator

/-!
# Stage 8: the arithmetic of the calculator

The calculator computes with decimals in a context of 28 digits. On amounts below `2 ^ 63`
no product needs that many, so it computes what the exact calculation does; the exposure
and the credited part keep their order through their two roundings.

## Main definitions
* `AttributionInput` : the arguments of the calculator.
* `AttributionInput.calculate` : the calculation in the decimal context.
* `AttributionInput.InRange` : amounts of 63 bits and risks between zero and one.
* `AttributionCalculationResult.Sound` : what a result says about its arguments.
-/
namespace RevenueRecovery

open Decimal

/-- The digits of the default decimal context. -/
def contextPrecision : ℕ := 28

/-- `FOUR_PLACES`, as an exponent. -/
def fourPlaces : ℤ := -4

/-- `PROVENANCE_WEIGHTS`. -/
def provenanceNumber : ModelProvenance → Number
  | .empiricalProduction => ⟨10000, -4⟩
  | .syntheticDevelopment => ⟨6000, -4⟩
  | .unknown => ⟨3000, -4⟩

/-- `DIAGNOSIS_WEIGHTS`; a missing diagnosis is `NONE`. -/
def diagnosisNumber : Option EvidenceStrength → Number
  | some .strong => ⟨10000, -4⟩
  | some .moderate => ⟨8500, -4⟩
  | some .weak => ⟨7000, -4⟩
  | none => ⟨6000, -4⟩

/-- `compute_timing_confidence`. -/
def timingNumber : Option ℚ → Number
  | none => ⟨6000, -4⟩
  | some delta => if delta ≤ 60 then ⟨10000, -4⟩ else if delta ≤ 300 then ⟨8500, -4⟩
      else ⟨6000, -4⟩

structure AttributionInput where
  paymentAmountMinorUnits : ℤ
  p0 : Option Number
  treatmentStatus : TreatmentStatus
  observedPaymentOutcome : PaymentOutcome
  provenance : ModelProvenance
  predictionStatus : PredictionStatus
  diagnosisConfidence : Option EvidenceStrength
  timingDeltaSeconds : Option ℚ

/-- `calculate_attribution` in the decimal context; nothing when a quantization fails. -/
def AttributionInput.calculate (x : AttributionInput) : Option AttributionCalculationResult :=
  if x.observedPaymentOutcome = .unknownInFlight then
    some (notAttributed .unresolvedInFlight 0 (.reason "PAYMENT_STILL_IN_FLIGHT"))
  else if x.treatmentStatus = .untreated then
    some (notAttributed .unattributedUntreated 0 (.reason "TRANSACTION_WAS_NOT_TREATED"))
  else if x.treatmentStatus = .executionFailed then
    some (notAttributed .unattributedExecutionFailed 0
      (.reason "INTERVENTION_EXECUTION_FAILED_OR_TIMED_OUT"))
  else if x.observedPaymentOutcome ≠ .captured then
    some (notAttributed .unattributedPaymentFailed 0
      (.reason "PAYMENT_TERMINAL_OUTCOME_WAS_NOT_CAPTURED"))
  else do
    let cProvenance := provenanceNumber x.provenance
    let cStatus : Number := if x.predictionStatus = .predicted then ⟨10000, -4⟩ else ⟨0, -4⟩
    let cPrediction ← (Number.mul contextPrecision cProvenance cStatus).quantize
      contextPrecision fourPlaces
    match x.p0 with
    | none =>
        return notAttributed .indeterminateInsufficientEvidence 0
          (.reason "MISSING_OR_INVALID_STAGE5_PREDICTION")
    | some p0 =>
        if cStatus.value = 0 then
          return notAttributed .indeterminateInsufficientEvidence 0
            (.reason "MISSING_OR_INVALID_STAGE5_PREDICTION")
        let cDiagnosis := diagnosisNumber x.diagnosisConfidence
        let cTiming := timingNumber x.timingDeltaSeconds
        let alpha ← (Number.mul contextPrecision
          (Number.mul contextPrecision cPrediction cDiagnosis) cTiming).quantize
          contextPrecision fourPlaces
        if alpha.value < confidenceFloor then
          return notAttributed .indeterminateInsufficientEvidence alpha.value
            (.belowFloor alpha.value)
        let amount : Number := ⟨x.paymentAmountMinorUnits, 0⟩
        let p0 ← p0.quantize contextPrecision fourPlaces
        let rawExposure := Number.mul contextPrecision amount p0
        let exposure ← rawExposure.quantize contextPrecision 0
        let lossExposure := max 0 (min exposure.toInt x.paymentAmountMinorUnits)
        let naturalSuccess := max 0 (x.paymentAmountMinorUnits - lossExposure)
        let rawProtected := Number.mul contextPrecision
          (Number.mul contextPrecision amount p0) alpha
        let credited ← rawProtected.quantize contextPrecision 0
        let protectedGmv :=
          max 0 (min (min credited.toInt lossExposure) x.paymentAmountMinorUnits)
        return {
          attributionStatus := .attributed
          counterfactualLossExposureMinorUnits := lossExposure
          counterfactualNaturalSuccessGmvMinorUnits := naturalSuccess
          attributedProtectedGmvMinorUnits := protectedGmv
          attributionConfidence := alpha.value
          auditDetails := .weights cProvenance.value cStatus.value cPrediction.value
            cDiagnosis.value cTiming.value alpha.value p0.value }

/-- The predicted risk, with four places. -/
def AttributionInput.risk (x : AttributionInput) : ℚ :=
  (x.p0.map fun p0 => Decimal.quantize 4 p0.value).getD 0

/-- The amount has 63 bits and the predicted risk, if there is one, is a probability. -/
structure AttributionInput.InRange (x : AttributionInput) : Prop where
  nonneg : 0 ≤ x.paymentAmountMinorUnits
  lt : x.paymentAmountMinorUnits < 2 ^ 63
  risk : ∀ p0 ∈ x.p0, 0 ≤ p0.value ∧ p0.value ≤ 1

/-! ## The context is wide enough -/

/-- A decimal with four places between zero and one. -/
structure IsUnit4 (d : Number) : Prop where
  exponent_eq : d.exponent = -4
  nonneg : 0 ≤ d.coefficient
  le : d.coefficient ≤ 10000

theorem IsUnit4.value_eq {d : Number} (h : IsUnit4 d) : d.value = d.coefficient / 10 ^ 4 := by
  rw [Number.value, h.exponent_eq, show (-4 : ℤ) = -((4 : ℕ) : ℤ) from rfl, zpow_neg,
    zpow_natCast, div_eq_mul_inv]

theorem IsUnit4.value_mem {d : Number} (h : IsUnit4 d) : 0 ≤ d.value ∧ d.value ≤ 1 := by
  rw [h.value_eq]
  have hnonneg : (0 : ℚ) ≤ d.coefficient := Int.cast_nonneg h.nonneg
  have hle : (d.coefficient : ℚ) ≤ 10000 := by exact_mod_cast h.le
  constructor
  · positivity
  · rw [div_le_one (by norm_num)]
    linarith

/-- A value between zero and one has a quantization to four places in the context. -/
theorem quantize_unit {d : Number} (h0 : 0 ≤ d.value) (h1 : d.value ≤ 1) :
    ∃ q, d.quantize contextPrecision fourPlaces = some q ∧ IsUnit4 q ∧
      q.value = Decimal.quantize 4 d.value := by
  have hnonneg : 0 ≤ halfEven (d.value * 10 ^ 4) := halfEven_nonneg (by positivity)
  have hle : halfEven (d.value * 10 ^ 4) ≤ 10000 := by
    refine halfEven_le ?_
    push_cast
    linarith
  refine ⟨_, Number.quantize_places 4 ?_, ⟨rfl, hnonneg, hle⟩,
    Number.value_neg_places 4 d.value⟩
  unfold contextPrecision
  omega

/-- A product of two such decimals is exact. -/
theorem mul_unit {a b : Number} (ha : IsUnit4 a) (hb : IsUnit4 b) :
    Number.mul contextPrecision a b = ⟨a.coefficient * b.coefficient, a.exponent + b.exponent⟩ ∧
      0 ≤ a.coefficient * b.coefficient ∧ a.coefficient * b.coefficient ≤ 100000000 := by
  have hnonneg := mul_nonneg ha.nonneg hb.nonneg
  have hle : a.coefficient * b.coefficient ≤ 10000 * 10000 :=
    mul_le_mul ha.le hb.le hb.nonneg (by norm_num)
  refine ⟨Number.mul_eq ?_, hnonneg, hle⟩
  unfold contextPrecision
  omega

theorem provenanceNumber_unit (provenance : ModelProvenance) :
    IsUnit4 (provenanceNumber provenance) ∧
      (provenanceNumber provenance).value = provenanceWeight provenance := by
  cases provenance <;> refine ⟨⟨rfl, by decide, by decide⟩, ?_⟩ <;>
    norm_num [provenanceNumber, provenanceWeight, Number.value, zpow_neg]

theorem diagnosisNumber_unit (diagnosis : Option EvidenceStrength) :
    IsUnit4 (diagnosisNumber diagnosis) ∧
      (diagnosisNumber diagnosis).value = diagnosisWeight diagnosis := by
  rcases diagnosis with _ | ⟨_ | _ | _⟩ <;> refine ⟨⟨rfl, by decide, by decide⟩, ?_⟩ <;>
    norm_num [diagnosisNumber, diagnosisWeight, Number.value, zpow_neg]

theorem timingNumber_unit (timing : Option ℚ) :
    IsUnit4 (timingNumber timing) ∧ (timingNumber timing).value = computeTimingConfidence timing := by
  cases timing with
  | none =>
      refine ⟨⟨rfl, by decide, by decide⟩, ?_⟩
      norm_num [timingNumber, computeTimingConfidence, Number.value, zpow_neg]
  | some delta =>
      simp only [timingNumber, computeTimingConfidence]
      split_ifs <;> refine ⟨⟨rfl, by decide, by decide⟩, ?_⟩ <;>
        norm_num [Number.value, zpow_neg]

/-- The value of an exact product. -/
theorem value_mul_unit {a b : Number} (ha : IsUnit4 a) (hb : IsUnit4 b) :
    (Number.mul contextPrecision a b).value = a.value * b.value := by
  rw [(mul_unit ha hb).1, Number.value_mk_mul]

/-- The product of three such decimals is exact too. -/
theorem value_mul_mul_unit {a b c : Number} (ha : IsUnit4 a) (hb : IsUnit4 b) (hc : IsUnit4 c) :
    (Number.mul contextPrecision (Number.mul contextPrecision a b) c).value =
      a.value * b.value * c.value := by
  obtain ⟨heq, hnonneg, hle⟩ := mul_unit ha hb
  have hnonneg' := mul_nonneg hnonneg hc.nonneg
  have hle' : a.coefficient * b.coefficient * c.coefficient ≤ 100000000 * 10000 :=
    mul_le_mul hle hc.le hc.nonneg (by norm_num)
  rw [heq, Number.mul_eq (by unfold contextPrecision; dsimp only; omega), Number.value_mk_mul,
    Number.value_mk_mul]

/-- The two products with an amount are exact. -/
theorem value_mul_amount {amount : ℤ} (h0 : 0 ≤ amount) (h : amount < 2 ^ 63) {p alpha : Number}
    (hp : IsUnit4 p) (halpha : IsUnit4 alpha) :
    (Number.mul contextPrecision ⟨amount, 0⟩ p).value = amount * p.value ∧
      (Number.mul contextPrecision (Number.mul contextPrecision ⟨amount, 0⟩ p) alpha).value =
        amount * p.value * alpha.value := by
  have hnonneg := mul_nonneg h0 hp.nonneg
  have hle : amount * p.coefficient ≤ 2 ^ 63 * 10000 :=
    mul_le_mul h.le hp.le hp.nonneg (by norm_num)
  have hnonneg' := mul_nonneg hnonneg halpha.nonneg
  have hle' : amount * p.coefficient * alpha.coefficient ≤ 2 ^ 63 * 10000 * 10000 :=
    mul_le_mul hle halpha.le halpha.nonneg (by norm_num)
  have hexact := @Number.mul_eq contextPrecision ⟨amount, 0⟩ p
    (by unfold contextPrecision; dsimp only; omega)
  rw [hexact, Number.mul_eq (by unfold contextPrecision; dsimp only; omega)]
  simp only [Number.value_mk_mul, Number.value_zero_exponent, and_self]

/-- Rounding a part of an amount to an integer stays within the context. -/
theorem quantize_integer {d : Number} {amount : ℤ} (h0 : 0 ≤ d.value) (hle : d.value ≤ amount)
    (h : amount < 2 ^ 63) :
    ∃ q, d.quantize contextPrecision 0 = some q ∧ q.toInt = halfEven d.value := by
  have hnonneg := halfEven_nonneg h0
  have hround := halfEven_le hle
  have heq : d.value * 10 ^ 0 = d.value := by rw [pow_zero, mul_one]
  refine ⟨⟨halfEven d.value, 0⟩, ?_, Number.toInt_zero_exponent _⟩
  have hplaces := @Number.quantize_places contextPrecision 0 d
    (by rw [heq]; unfold contextPrecision; omega)
  rwa [heq] at hplaces

/-- The confidence factors quantize to the exact ones. -/
theorem alpha_unit (provenance : ModelProvenance) (diagnosis : Option EvidenceStrength)
    (timing : Option ℚ) :
    ∃ cPrediction alpha,
      (Number.mul contextPrecision (provenanceNumber provenance) ⟨10000, -4⟩).quantize
        contextPrecision fourPlaces = some cPrediction ∧
      cPrediction.value = predictionConfidence provenance 1 ∧
      (Number.mul contextPrecision (Number.mul contextPrecision cPrediction
        (diagnosisNumber diagnosis)) (timingNumber timing)).quantize
        contextPrecision fourPlaces = some alpha ∧
      IsUnit4 alpha ∧ alpha.value = alphaConfidence provenance 1 diagnosis timing := by
  have hone : IsUnit4 ⟨10000, -4⟩ := ⟨rfl, by decide, by decide⟩
  have hone' : (⟨10000, -4⟩ : Number).value = 1 := by norm_num [Number.value, zpow_neg]
  obtain ⟨hprovenance, hprovenance'⟩ := provenanceNumber_unit provenance
  obtain ⟨hdiagnosis, hdiagnosis'⟩ := diagnosisNumber_unit diagnosis
  obtain ⟨htiming, htiming'⟩ := timingNumber_unit timing
  have hprediction := value_mul_unit hprovenance hone
  rw [hone', mul_one] at hprediction
  obtain ⟨cPrediction, hquantize, hunit, hvalue⟩ := quantize_unit
    (hprediction ▸ hprovenance.value_mem.1) (hprediction ▸ hprovenance.value_mem.2)
  have hproduct := value_mul_mul_unit hunit hdiagnosis htiming
  have hnonneg : 0 ≤ cPrediction.value * (diagnosisNumber diagnosis).value *
      (timingNumber timing).value :=
    mul_nonneg (mul_nonneg hunit.value_mem.1 hdiagnosis.value_mem.1) htiming.value_mem.1
  have hle : cPrediction.value * (diagnosisNumber diagnosis).value *
      (timingNumber timing).value ≤ 1 :=
    mul_le_one₀ (mul_le_one₀ hunit.value_mem.2 hdiagnosis.value_mem.1 hdiagnosis.value_mem.2)
      htiming.value_mem.1 htiming.value_mem.2
  obtain ⟨alpha, halpha, hunit', hvalue'⟩ :=
    quantize_unit (hproduct ▸ hnonneg) (hproduct ▸ hle)
  rw [hprediction, hprovenance'] at hvalue
  have hconfidence : cPrediction.value = predictionConfidence provenance 1 := by
    rw [hvalue, predictionConfidence, mul_one]
  refine ⟨cPrediction, alpha, hquantize, hconfidence, halpha, hunit', ?_⟩
  rw [hvalue', hproduct, hconfidence, hdiagnosis', htiming', alphaConfidence]

/-- In range the decimal context computes the exact result. -/
theorem calculate_eq {x : AttributionInput} (hx : x.InRange) :
    x.calculate = some (calculateAttribution x.paymentAmountMinorUnits
      (x.p0.map Number.value) x.treatmentStatus x.observedPaymentOutcome x.provenance
      x.predictionStatus x.diagnosisConfidence x.timingDeltaSeconds) := by
  obtain ⟨amount, p0, treatment, outcome, provenance, prediction, diagnosis, timing⟩ := x
  obtain ⟨hamount, hamount', hrisk⟩ := hx
  dsimp only at hamount hamount' hrisk ⊢
  unfold AttributionInput.calculate calculateAttribution
  dsimp only
  by_cases hflight : outcome = .unknownInFlight
  · rw [if_pos hflight, if_pos hflight]
  rw [if_neg hflight, if_neg hflight]
  by_cases huntreated : treatment = .untreated
  · rw [if_pos huntreated, if_pos huntreated]
  rw [if_neg huntreated, if_neg huntreated]
  by_cases hfailed : treatment = .executionFailed
  · rw [if_pos hfailed, if_pos hfailed]
  rw [if_neg hfailed, if_neg hfailed]
  by_cases hcaptured : outcome ≠ .captured
  · rw [if_pos hcaptured, if_pos hcaptured]
  rw [if_neg hcaptured, if_neg hcaptured]
  have hone : (⟨10000, -4⟩ : Number).value = 1 := by norm_num [Number.value, zpow_neg]
  have hzero : (⟨0, -4⟩ : Number).value = 0 := by simp [Number.value]
  by_cases hpredicted : prediction = .predicted
  · obtain ⟨cPrediction, alpha, hprediction, hconfidence, halpha, hunit, hvalue⟩ :=
      alpha_unit provenance diagnosis timing
    simp only [if_pos hpredicted, hprediction, Option.bind_eq_bind, Option.bind_some, hone,
      one_ne_zero, if_false, halpha, hvalue]
    cases p0 with
    | none => rfl
    | some p0 =>
        obtain ⟨h0, h1⟩ := hrisk p0 rfl
        obtain ⟨p, hp, hpunit, hpvalue⟩ := quantize_unit h0 h1
        obtain ⟨hexposure, hcredited⟩ := value_mul_amount hamount hamount' hpunit hunit
        obtain ⟨hp0, hp1⟩ := hpunit.value_mem
        obtain ⟨ha0, ha1⟩ := hunit.value_mem
        have hcast : (0 : ℚ) ≤ amount := Int.cast_nonneg hamount
        have hpart : amount * p.value ≤ amount := mul_le_of_le_one_right hcast hp1
        have hpart0 : 0 ≤ amount * p.value := mul_nonneg hcast hp0
        obtain ⟨exposure, hexposure', hexposureInt⟩ :=
          quantize_integer (hexposure ▸ hpart0) (hexposure ▸ hpart) hamount'
        obtain ⟨credited, hcredited', hcreditedInt⟩ :=
          quantize_integer (hcredited ▸ mul_nonneg hpart0 ha0)
            (hcredited ▸ (mul_le_of_le_one_right hpart0 ha1).trans hpart) hamount'
        rw [hexposure, hpvalue] at hexposureInt
        rw [hcredited, hpvalue, hvalue] at hcreditedInt
        by_cases hfloor : alphaConfidence provenance 1 diagnosis timing < confidenceFloor
        · simp only [if_pos hfloor, Option.map_some]
          rfl
        · simp only [if_neg hfloor, Option.map_some, hp, hexposure', hcredited', hexposureInt,
            hcreditedInt, hconfidence, hpvalue, (provenanceNumber_unit provenance).2,
            (diagnosisNumber_unit diagnosis).2, (timingNumber_unit timing).2,
            Option.bind_some, lossExposure, protectedGmv]
          rfl
  · have hstatus : IsUnit4 ⟨0, -4⟩ := ⟨rfl, by decide, by decide⟩
    have hproduct := value_mul_unit (provenanceNumber_unit provenance).1 hstatus
    rw [hzero, mul_zero] at hproduct
    obtain ⟨cPrediction, hprediction, -, -⟩ :=
      quantize_unit hproduct.ge (hproduct.le.trans zero_le_one)
    simp only [if_neg hpredicted, hprediction, Option.bind_eq_bind, Option.bind_some, hzero,
      if_true]
    cases p0 <;> rfl

/-! ## Exposure and credit -/

/-- What a result says about its arguments: the exact products, each rounded once, and the
split of the amount. -/
structure AttributionCalculationResult.Sound (x : AttributionInput)
    (r : AttributionCalculationResult) : Prop where
  confidence_ge : 25 / 100 ≤ r.attributionConfidence
  confidence_le : r.attributionConfidence ≤ 1
  exposure_eq : r.counterfactualLossExposureMinorUnits =
    halfEven (x.paymentAmountMinorUnits * x.risk)
  protected_eq : r.attributedProtectedGmvMinorUnits =
    halfEven (x.paymentAmountMinorUnits * x.risk * r.attributionConfidence)
  natural_eq : r.counterfactualNaturalSuccessGmvMinorUnits =
    x.paymentAmountMinorUnits - r.counterfactualLossExposureMinorUnits
  protected_nonneg : 0 ≤ r.attributedProtectedGmvMinorUnits
  protected_le : r.attributedProtectedGmvMinorUnits ≤ r.counterfactualLossExposureMinorUnits
  exposure_le : r.counterfactualLossExposureMinorUnits ≤ x.paymentAmountMinorUnits
  split : r.counterfactualLossExposureMinorUnits + r.counterfactualNaturalSuccessGmvMinorUnits =
    x.paymentAmountMinorUnits

/-- The three amounts of a result are zero. -/
def AttributionCalculationResult.NoMoney (r : AttributionCalculationResult) : Prop :=
  r.counterfactualLossExposureMinorUnits = 0 ∧ r.counterfactualNaturalSuccessGmvMinorUnits = 0 ∧
    r.attributedProtectedGmvMinorUnits = 0

section Money
variable {amount : ℤ} {p alpha : ℚ}

/-- The clamps of the exposure never act. -/
theorem lossExposure_eq (h0 : 0 ≤ amount) (hp0 : 0 ≤ p) (hp1 : p ≤ 1) :
    lossExposure amount p = halfEven (amount * p) ∧ 0 ≤ halfEven (amount * p) ∧
      halfEven (amount * p) ≤ amount := by
  have hcast : (0 : ℚ) ≤ amount := Int.cast_nonneg h0
  have hnonneg := halfEven_nonneg (mul_nonneg hcast hp0)
  have hle : halfEven (amount * p) ≤ amount := halfEven_le (mul_le_of_le_one_right hcast hp1)
  refine ⟨?_, hnonneg, hle⟩
  rw [lossExposure, min_eq_left hle, max_eq_right hnonneg]

/-- Nor do those of the credited part. -/
theorem protectedGmv_eq (h0 : 0 ≤ amount) (hp0 : 0 ≤ p) (hp1 : p ≤ 1) (ha0 : 0 ≤ alpha)
    (ha1 : alpha ≤ 1) :
    protectedGmv amount p alpha = halfEven (amount * p * alpha) ∧
      0 ≤ halfEven (amount * p * alpha) ∧
      halfEven (amount * p * alpha) ≤ lossExposure amount p := by
  obtain ⟨heq, -, hle⟩ := lossExposure_eq h0 hp0 hp1
  have hpart : 0 ≤ amount * p := mul_nonneg (Int.cast_nonneg h0) hp0
  have hnonneg := halfEven_nonneg (mul_nonneg hpart ha0)
  have hcredit : halfEven (amount * p * alpha) ≤ lossExposure amount p := by
    rw [heq]
    exact halfEven_mono (mul_le_of_le_one_right hpart ha1)
  refine ⟨?_, hnonneg, hcredit⟩
  rw [protectedGmv, min_eq_left hcredit, min_eq_left (hcredit.trans (heq ▸ hle)),
    max_eq_right hnonneg]

end Money

theorem AttributionInput.InRange.risk_mem {x : AttributionInput} (hx : x.InRange) :
    0 ≤ x.risk ∧ x.risk ≤ 1 := by
  cases hp : x.p0 with
  | none => simp [AttributionInput.risk, hp]
  | some p0 =>
      obtain ⟨h0, h1⟩ := hx.risk p0 hp
      obtain ⟨q, -, hunit, hvalue⟩ := quantize_unit h0 h1
      have hrisk : x.risk = q.value := by
        rw [AttributionInput.risk, hp, Option.map_some, Option.getD_some, hvalue]
      exact hrisk ▸ hunit.value_mem

/-- In range the calculator returns; its result is sound or without money. -/
theorem calculate_sound {x : AttributionInput} (hx : x.InRange) :
    ∃ r, x.calculate = some r ∧ (r.attributionStatus = .attributed → r.Sound x) ∧
      (r.attributionStatus ≠ .attributed → r.NoMoney) := by
  refine ⟨_, calculate_eq hx, ?_⟩
  obtain ⟨hp0, hp1⟩ := hx.risk_mem
  rcases calculateAttribution_cases x.paymentAmountMinorUnits (x.p0.map Number.value)
    x.treatmentStatus x.observedPaymentOutcome x.provenance x.predictionStatus
    x.diagnosisConfidence x.timingDeltaSeconds with
    ⟨status, confidence, details, heq, hne⟩ | ⟨-, -, -, p, hp, hfloor, heq⟩
  · rw [heq]
    exact ⟨fun h => absurd h hne, fun _ => ⟨rfl, rfl, rfl⟩⟩
  · obtain ⟨_, alpha, -, -, -, hunit, hvalue⟩ :=
      alpha_unit x.provenance x.diagnosisConfidence x.timingDeltaSeconds
    obtain ⟨ha0, ha1⟩ := hvalue ▸ hunit.value_mem
    have hrisk : Decimal.quantize 4 p = x.risk := by
      obtain ⟨d, hd, rfl⟩ := Option.map_eq_some_iff.mp hp
      rw [AttributionInput.risk, hd]
      rfl
    obtain ⟨hexposure, hexposure0, hexposureLe⟩ := lossExposure_eq hx.nonneg hp0 hp1
    obtain ⟨hprotected, hprotected0, hprotectedLe⟩ :=
      protectedGmv_eq hx.nonneg hp0 hp1 ha0 ha1
    rw [heq]
    refine ⟨fun _ => ?_, fun hne => absurd rfl hne⟩
    have hnatural : max 0 (x.paymentAmountMinorUnits - lossExposure x.paymentAmountMinorUnits
        x.risk) = x.paymentAmountMinorUnits - lossExposure x.paymentAmountMinorUnits x.risk :=
      max_eq_right (Int.sub_nonneg_of_le (hexposure ▸ hexposureLe))
    unfold attributedResult
    rw [hrisk]
    exact
      { confidence_ge := hfloor
        confidence_le := ha1
        exposure_eq := hexposure
        protected_eq := hprotected
        natural_eq := hnatural
        protected_nonneg := hprotected0.trans_eq hprotected.symm
        protected_le := hprotected.trans_le hprotectedLe
        exposure_le := hexposure.trans_le hexposureLe
        split := by dsimp only; rw [hnatural]; ring }

/-- On every amount of 63 bits and every predicted risk the calculator returns. An
attributed result has a confidence of at least the floor and at most one, its exposure and
credited part are the exact products rounded once, they split the amount, and grow with the
amount, the risk and the confidence. Every other result has no money in it. -/
theorem attribution_arithmetic (x : AttributionInput) (hx : x.InRange) :
    ∃ r, x.calculate = some r ∧ (r.attributionStatus = .attributed → r.Sound x) ∧
      (r.attributionStatus ≠ .attributed → r.NoMoney) ∧
      ∀ y : AttributionInput, y.InRange → ∀ r', y.calculate = some r' →
        r.attributionStatus = .attributed → r'.attributionStatus = .attributed →
        x.paymentAmountMinorUnits ≤ y.paymentAmountMinorUnits → x.risk ≤ y.risk →
        r.attributionConfidence ≤ r'.attributionConfidence →
        r.counterfactualLossExposureMinorUnits ≤ r'.counterfactualLossExposureMinorUnits ∧
          r.attributedProtectedGmvMinorUnits ≤ r'.attributedProtectedGmvMinorUnits := by
  obtain ⟨r, hr, hsound, hnone⟩ := calculate_sound hx
  refine ⟨r, hr, hsound, hnone, ?_⟩
  intro y hy r' hr' hattributed hattributed' hamount hrisk hconfidence
  obtain ⟨r'', hr'', hsound', -⟩ := calculate_sound hy
  obtain rfl : r' = r'' := Option.some.inj (hr'.symm.trans hr'')
  have hx' := hsound hattributed
  have hy' := hsound' hattributed'
  have hcast : (x.paymentAmountMinorUnits : ℚ) ≤ y.paymentAmountMinorUnits := by
    exact_mod_cast hamount
  have hamount0 : (0 : ℚ) ≤ y.paymentAmountMinorUnits := Int.cast_nonneg hy.nonneg
  have hproduct : x.paymentAmountMinorUnits * x.risk ≤ y.paymentAmountMinorUnits * y.risk :=
    mul_le_mul hcast hrisk hx.risk_mem.1 hamount0
  have halpha0 : 0 ≤ r.attributionConfidence :=
    le_trans (by norm_num) hx'.confidence_ge
  constructor
  · rw [hx'.exposure_eq, hy'.exposure_eq]
    exact halfEven_mono hproduct
  · rw [hx'.protected_eq, hy'.protected_eq]
    exact halfEven_mono (mul_le_mul hproduct hconfidence halpha0
      (mul_nonneg hamount0 hy.risk_mem.1))

namespace ArithmeticExample

/-- A captured payment of 500.00 with a predicted risk of 0.825 and full evidence. -/
def captured : AttributionInput :=
  { paymentAmountMinorUnits := 50000, p0 := some ⟨825, -3⟩, treatmentStatus := .treated,
    observedPaymentOutcome := .captured, provenance := .empiricalProduction,
    predictionStatus := .predicted, diagnosisConfidence := some .strong,
    timingDeltaSeconds := some 12 }

end ArithmeticExample

open ArithmeticExample in
theorem attribution_arithmetic_captured :
    ∃ r, captured.calculate = some r ∧ r.counterfactualLossExposureMinorUnits = 41250 := by
  obtain ⟨r, hr, -⟩ := attribution_arithmetic captured
    ⟨by decide, by decide, fun p0 hp => by
      obtain rfl := Option.some.inj hp
      norm_num [Number.value, zpow_neg]⟩
  have hexposure : captured.calculate.map (·.counterfactualLossExposureMinorUnits) =
      some 41250 := by decide +kernel
  rw [hr] at hexposure
  exact ⟨r, hr, Option.some.inj hexposure⟩

end RevenueRecovery
