import RevenueRecovery.Lib.Interning
import RevenueRecovery.Lib.Traverse
import RevenueRecovery.Prediction.Binding

/-!
# Stage 5: the rows of a logistic model

The part of a training that prepares the matrices, fits, calibrates and scores, and the
prediction of the model it returns. Categorical features are coded in the order of their
first appearance in the whole dataset, before it is split; the prediction codes an unknown
value as `0`. The learning library is a parameter, and so are Python's floats.

## Main definitions
* `Floats`, `Learner` : what is outside the code.
* `preprocessFeatures` : the matrix, the feature names and the encoders.
* `fitAndEvaluate` : the training between the fingerprint and the metadata.
* `logisticFailureProbability` : the prediction of a returned model.
-/
namespace RevenueRecovery.Training

open Interning Traverse

/-! ## Values -/

/-- A value as a key of a dictionary, where equal numbers are one key. -/
inductive FeatureKey
  | null
  | number (q : ℚ)
  | text (s : String)
deriving DecidableEq, Repr

/-- Lists and objects are not hashable. -/
def FeatureValue.key : FeatureValue → Except TrainingError FeatureKey
  | .null => .ok .null
  | .bool b => .ok (.number b.toNat)
  | .int n => .ok (.number n)
  | .float q => .ok (.number q)
  | .str s => .ok (.text s)
  | .nested _ => .error .training

/-- `row.get(feature)`. -/
def Sample.get (row : Sample) (feature : String) : FeatureValue :=
  (row.lookup feature).getD .null

/-- The floats of a matrix: `float(v)`, which may raise, and the conversion of a code. -/
structure Floats (ρ : Type) where
  ofValue : FeatureValue → Except TrainingError ρ
  ofCode : ℕ → ρ
  zero : ρ

/-- The library that fits and scores; `unique` counts the distinct labels. -/
structure Learner (ρ Base Estimator Metrics : Type) where
  fit : List (List ρ) → List Label → Except TrainingError Base
  unique : List Label → ℕ
  calibrate : Base → List (List ρ) → List Label → Except TrainingError Estimator
  uncalibrated : Base → Estimator
  predictProba : Estimator → List ρ → ρ
  scores : List Label → List ρ → Option Metrics
  noScores : Metrics

/-! ## Preprocessing -/

def numericFeatures : List String :=
  ["amount_minor_units", "hour_of_day", "day_of_week", "global_30m_failure_rate",
    "payment_method_30m_failure_rate"]

def categoricalFeatures : List String :=
  ["payment_method", "currency", "bank", "wallet", "degradation_severity"]

def featureNames : List String := numericFeatures ++ categoricalFeatures

/-- The codes of each categorical feature. -/
abbrev Encoders := List (String × Codes FeatureKey)

def newEncoders : Encoders := categoricalFeatures.map fun cat => (cat, .empty)

/-- A value that is new to its encoder gets the next code. -/
def learnValue (row : Sample) (encoder : String × Codes FeatureKey) :
    Except TrainingError (String × Codes FeatureKey) := do
  let key ← (row.get encoder.1).key
  return (encoder.1, encoder.2.intern key)

def learnRow (encoders : Encoders) (row : Sample) : Except TrainingError Encoders :=
  encoders.mapM (learnValue row)

def buildEncoders (rows : List Sample) : Except TrainingError Encoders :=
  rows.foldlM learnRow newEncoders

section Rows
variable {ρ : Type} (floats : Floats ρ)

/-- `encoders[feature].get(val, 0)`. -/
def encodeCategorical (codes : Codes FeatureKey) (v : FeatureValue) : Except TrainingError ρ := do
  let key ← v.key
  return floats.ofCode ((codes.code key).getD 0)

def encodeNumeric (v : FeatureValue) : Except TrainingError ρ :=
  if v = .null then .ok floats.zero else floats.ofValue v

/-- An entry of a processed row; every categorical feature has an encoder. -/
def processedValue (encoders : Encoders) (row : Sample) (feature : String) :
    Except TrainingError ρ :=
  if feature ∈ categoricalFeatures then
    match encoders.lookup feature with
    | none => .error .training
    | some codes => encodeCategorical floats codes (row.get feature)
  else encodeNumeric floats (row.get feature)

def processedRow (encoders : Encoders) (row : Sample) : Except TrainingError (List ρ) :=
  featureNames.mapM (processedValue floats encoders row)

/-- The matrix, the feature names and the encoders. -/
def preprocessFeatures (rows : List Sample) :
    Except TrainingError (List (List ρ) × List String × Encoders) := do
  let encoders ← buildEncoders rows
  let x ← rows.mapM (processedRow floats encoders)
  return (x, featureNames, encoders)

end Rows

/-! ## Prediction -/

/-- A `ProviderLogisticRegressionModel`, as far as it predicts. -/
structure LogisticModel (Estimator : Type) where
  estimator : Estimator
  featureNames : List String
  encoders : Encoders

section Prediction
variable {ρ Base Estimator Metrics : Type} (floats : Floats ρ)
  (learner : Learner ρ Base Estimator Metrics)

/-- An entry of the row that a prediction builds. -/
def logisticValue (encoders : Encoders) (vector : Sample) (feature : String) :
    Except TrainingError ρ :=
  match encoders.lookup feature with
  | some codes => encodeCategorical floats codes (vector.get feature)
  | none => encodeNumeric floats (vector.get feature)

/-- The row of a feature vector. -/
def LogisticModel.row (model : LogisticModel Estimator) (vector : Sample) :
    Except TrainingError (List ρ) :=
  model.featureNames.mapM (logisticValue floats model.encoders vector)

def logisticFailureProbability (model : LogisticModel Estimator) (vector : Sample) :
    Except TrainingError ρ := do
  let row ← model.row floats vector
  return learner.predictProba model.estimator row

/-! ## Training -/

def trainEnd (n : ℕ) : ℕ := 3 * n / 5

def valEnd (n : ℕ) : ℕ := 4 * n / 5

/-- Calibrate on the validation data when both labels occur there. -/
def calibrateModel (base : Base) (x : List (List ρ)) (y : List Label) :
    Except TrainingError Estimator :=
  if 2 ≤ learner.unique y then learner.calibrate base x y else .ok (learner.uncalibrated base)

/-- `predict_proba` of a matrix; a matrix without rows raises. -/
def predictMatrix (estimator : Estimator) (x : List (List ρ)) : Except TrainingError (List ρ) :=
  if x = [] then .error .training else .ok (x.map (learner.predictProba estimator))

/-- Fit on the oldest samples, calibrate on the next, and score on the newest. -/
def fitAndEvaluate (d : Dataset) : Except TrainingError (LogisticModel Estimator × Metrics) := do
  let n := d.samples.length
  let (x, names, encoders) ← preprocessFeatures floats d.samples
  let base ← learner.fit (x.take (trainEnd n)) (d.labels.take (trainEnd n))
  let estimator ← calibrateModel learner base ((x.take (valEnd n)).drop (trainEnd n))
    ((d.labels.take (valEnd n)).drop (trainEnd n))
  let probs ← predictMatrix learner estimator (x.drop (valEnd n))
  return (⟨estimator, names, encoders⟩,
    (learner.scores (d.labels.drop (valEnd n)) probs).getD learner.noScores)

end Prediction

/-! ## The encoders of a dataset -/

/-- The keys of a column, from the first row on. -/
def columnKeys (rows : List Sample) (feature : String) : List FeatureKey :=
  rows.filterMap fun row => (row.get feature).key.toOption

/-- The codes of the values of a column. -/
def columnCodes (rows : List Sample) (feature : String) : Codes FeatureKey :=
  Codes.empty.internAll (columnKeys rows feature)

theorem columnKeys_append (rows rows' : List Sample) (feature : String) :
    columnKeys (rows ++ rows') feature = columnKeys rows feature ++ columnKeys rows' feature :=
  List.filterMap_append

theorem mem_columnKeys {rows : List Sample} {feature : String} {key : FeatureKey} :
    key ∈ columnKeys rows feature ↔ ∃ row ∈ rows, (row.get feature).key = .ok key := by
  simp only [columnKeys, List.mem_filterMap]
  refine exists_congr fun row => and_congr_right fun _ => ?_
  cases (row.get feature).key with
  | error e => simp [Except.toOption]
  | ok key' => simp [Except.toOption]

/-- Each encoder learns the value of its column. -/
theorem learnRow_eq_ok {encoders encoders' : Encoders} {row : Sample}
    (h : learnRow encoders row = .ok encoders') :
    encoders' = encoders.map fun e => (e.1, e.2.internAll (columnKeys [row] e.1)) := by
  have hvalues := mapM_eq_ok.mp h
  clear h
  induction hvalues with
  | nil => rfl
  | @cons e e' encoders encoders' he _ ih =>
      rw [List.map_cons, ← ih]
      unfold learnValue at he
      cases hkey : (row.get e.1).key with
      | error err =>
          rw [hkey] at he
          cases he
      | ok key =>
          rw [hkey] at he
          obtain rfl := Except.ok.inj he
          simp [columnKeys, hkey, Except.toOption]

/-- The encoders hold the codes of the columns. -/
theorem foldlM_learnRow {rows : List Sample} {encoders encoders' : Encoders}
    (h : rows.foldlM learnRow encoders = .ok encoders') :
    encoders' = encoders.map fun e => (e.1, e.2.internAll (columnKeys rows e.1)) := by
  induction rows generalizing encoders with
  | nil =>
      obtain rfl := Except.ok.inj h
      exact (List.map_id _).symm
  | cons row rows ih =>
      rw [List.foldlM_cons] at h
      cases hrow : learnRow encoders row with
      | error err =>
          rw [hrow] at h
          cases h
      | ok learned =>
          rw [hrow] at h
          rw [ih h, learnRow_eq_ok hrow, List.map_map]
          refine List.map_congr_left fun e _ => ?_
          simp only [Function.comp_apply]
          rw [← Codes.internAll_append, ← columnKeys_append]
          rfl

theorem buildEncoders_eq_ok {rows : List Sample} {encoders : Encoders}
    (h : buildEncoders rows = .ok encoders) :
    encoders = categoricalFeatures.map fun cat => (cat, columnCodes rows cat) := by
  rw [foldlM_learnRow h, newEncoders, List.map_map]
  rfl

theorem lookup_map_mk {α : Type} (f : String → α) (k : String) (ks : List String) :
    (ks.map fun k' => (k', f k')).lookup k = if k ∈ ks then some (f k) else none := by
  induction ks with
  | nil => rfl
  | cons k' ks ih =>
      rw [List.map_cons, List.lookup_cons]
      by_cases heq : k = k'
      · subst heq
        simp
      · have hne : (k == k') = false := beq_eq_false_iff_ne.mpr heq
        simp [hne, ih, heq]

/-! ## Rows -/

/-- The encoders of a dataset with these samples. -/
def encodersOf (rows : List Sample) : Encoders :=
  categoricalFeatures.map fun cat => (cat, columnCodes rows cat)

section Rows
variable {ρ : Type} {floats : Floats ρ} {rows : List Sample}

theorem logisticValue_encodersOf (vector : Sample) (feature : String) :
    logisticValue floats (encodersOf rows) vector feature =
      if feature ∈ categoricalFeatures then
        encodeCategorical floats (columnCodes rows feature) (vector.get feature)
      else encodeNumeric floats (vector.get feature) := by
  unfold logisticValue
  rw [encodersOf, lookup_map_mk]
  by_cases hcat : feature ∈ categoricalFeatures
  · rw [if_pos hcat, if_pos hcat]
  · rw [if_neg hcat, if_neg hcat]

/-- A processed row is the row a prediction builds. -/
theorem processedRow_encodersOf (row : Sample) : processedRow floats (encodersOf rows) row =
    featureNames.mapM (logisticValue floats (encodersOf rows) row) := by
  refine mapM_congr fun feature _ => ?_
  rw [logisticValue_encodersOf, processedValue, encodersOf, lookup_map_mk]
  by_cases hcat : feature ∈ categoricalFeatures
  · simp only [if_pos hcat]
  · simp only [if_neg hcat]

theorem preprocessFeatures_eq_ok {x : List (List ρ)} {names : List String}
    {encoders : Encoders} (h : preprocessFeatures floats rows = .ok (x, names, encoders)) :
    names = featureNames ∧ encoders = encodersOf rows ∧
      rows.mapM (fun row => featureNames.mapM (logisticValue floats encoders row)) = .ok x := by
  unfold preprocessFeatures at h
  cases hencoders : buildEncoders rows with
  | error err =>
      rw [hencoders] at h
      cases h
  | ok built =>
      rw [hencoders] at h
      simp only [bind, Except.bind, pure, Except.pure] at h
      cases hx : rows.mapM (processedRow floats built) with
      | error err =>
          rw [hx] at h
          cases h
      | ok x' =>
          rw [hx] at h
          obtain ⟨rfl, rfl, rfl⟩ := Except.ok.inj h
          obtain rfl := buildEncoders_eq_ok hencoders
          refine ⟨rfl, rfl, ?_⟩
          rw [← hx]
          exact mapM_congr fun row _ => (processedRow_encodersOf row).symm

end Rows

end RevenueRecovery.Training
