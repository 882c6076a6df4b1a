import RevenueRecovery.Training.Encoding

/-!
# Stage 5: evaluating a logistic model

A model is fitted on the oldest samples, calibrated on the next and scored on the newest,
although its codes come from all of them. The scores are those of the model that serves, the
test samples do not reach its estimator, and it tells vectors apart by their numbers and by
the values it has seen. Datasets that pass the check of a provider run are in the order of
time.

## Main definitions
* `Fitted` : what a training computes on the way to its model.
* `KeepsCodes` : vectors whose codes do not depend on the test samples.
* `readAs` : the value that a prediction reads a value as.
* `Chronological` : sample times in the order of their instants.
-/
namespace RevenueRecovery.Training

open Interning Traverse

/-! ## Trained models -/

namespace EvaluationExample

/-- Numbers are their own floats; other values raise. -/
def rationals : Floats ℚ where
  ofValue
    | .bool b => .ok b.toNat
    | .int n => .ok n
    | .float q => .ok q
    | _ => .error .training
  ofCode n := n
  zero := 0

/-- A library that remembers its rows, and predicts the share of those equal to a row. -/
def shares : Learner ℚ (List (List ℚ)) (List (List ℚ)) ℚ where
  fit x _ := if x = [] then .error .training else .ok x
  unique y := y.dedup.length
  calibrate base _ _ := .ok base
  uncalibrated base := base
  predictProba rows row := rows.count row / rows.length
  scores _ probs := probs.head?
  noScores := 0

def payment (bank : String) (amount : ℤ) : Sample :=
  [("bank", .str bank), ("amount_minor_units", .int amount)]

/-- Five payments, of which the last tests the model. -/
def dataset (last : Sample) : Dataset where
  samples := [payment "HDFC" 100, payment "ICIC" 200, payment "HDFC" 100, payment "ICIC" 100, last]
  labels := [.int 0, .int 1, .int 0, .int 1, .int 0]
  times := [.utc 0, .utc 1, .utc 2, .utc 3, .utc 4]

theorem exists_model (last : Sample)
    (h : (fitAndEvaluate rationals shares (dataset last)).toOption.isSome = true) :
    ∃ model metrics, fitAndEvaluate rationals shares (dataset last) = .ok (model, metrics) := by
  cases hfit : fitAndEvaluate rationals shares (dataset last) with
  | error err =>
      rw [hfit] at h
      cases h
  | ok result => exact ⟨result.1, result.2, rfl⟩

end EvaluationExample

section Trained
variable {ρ Base Estimator Metrics : Type} {floats : Floats ρ}
  {learner : Learner ρ Base Estimator Metrics} {d d' : Dataset}
  {model model' : LogisticModel Estimator} {metrics metrics' : Metrics}

/-- What the training of a dataset has computed on the way to its model. -/
structure Fitted (floats : Floats ρ) (learner : Learner ρ Base Estimator Metrics) (d : Dataset)
    (model : LogisticModel Estimator) (metrics : Metrics) (x : List (List ρ)) (base : Base) :
    Prop where
  names : model.featureNames = featureNames
  encoders : model.encoders = encodersOf d.samples
  rows : d.samples.mapM (model.row floats) = .ok x
  fit : learner.fit (x.take (trainEnd d.samples.length))
    (d.labels.take (trainEnd d.samples.length)) = .ok base
  calibrate : calibrateModel learner base
    ((x.take (valEnd d.samples.length)).drop (trainEnd d.samples.length))
    ((d.labels.take (valEnd d.samples.length)).drop (trainEnd d.samples.length)) =
      .ok model.estimator
  tested : x.drop (valEnd d.samples.length) ≠ []
  scores : metrics = (learner.scores (d.labels.drop (valEnd d.samples.length))
    ((x.drop (valEnd d.samples.length)).map (learner.predictProba model.estimator))).getD
      learner.noScores

theorem fitAndEvaluate_eq_ok (h : fitAndEvaluate floats learner d = .ok (model, metrics)) :
    ∃ x base, Fitted floats learner d model metrics x base := by
  simp only [fitAndEvaluate, bind, Except.bind, pure, Except.pure] at h
  cases hmatrix : preprocessFeatures floats d.samples with
  | error err =>
      rw [hmatrix] at h
      cases h
  | ok result =>
      obtain ⟨x, names, encoders⟩ := result
      obtain ⟨rfl, rfl, hrows⟩ := preprocessFeatures_eq_ok hmatrix
      rw [hmatrix] at h
      dsimp only at h
      cases hbase : learner.fit (x.take (trainEnd d.samples.length))
          (d.labels.take (trainEnd d.samples.length)) with
      | error err =>
          rw [hbase] at h
          cases h
      | ok base =>
          rw [hbase] at h
          dsimp only at h
          cases hestimator : calibrateModel learner base
              ((x.take (valEnd d.samples.length)).drop (trainEnd d.samples.length))
              ((d.labels.take (valEnd d.samples.length)).drop (trainEnd d.samples.length)) with
          | error err =>
              rw [hestimator] at h
              cases h
          | ok estimator =>
              rw [hestimator] at h
              dsimp only at h
              cases hprobs : predictMatrix learner estimator
                  (x.drop (valEnd d.samples.length)) with
              | error err =>
                  rw [hprobs] at h
                  cases h
              | ok probs =>
                  rw [hprobs] at h
                  unfold predictMatrix at hprobs
                  split_ifs at hprobs with htested
                  obtain rfl := Except.ok.inj hprobs
                  obtain ⟨rfl, rfl⟩ := Prod.mk.inj (Except.ok.inj h)
                  exact ⟨x, base, rfl, rfl, hrows, hbase, hestimator, htested, rfl⟩

theorem Fitted.row_eq {x : List (List ρ)} {base : Base}
    (h : Fitted floats learner d model metrics x base) (vector : Sample) :
    model.row floats vector =
      featureNames.mapM (logisticValue floats (encodersOf d.samples) vector) := by
  rw [LogisticModel.row, h.names, h.encoders]

/-- The model that is returned predicts the very probabilities it was scored on, and builds the
very rows it was fitted and calibrated on. -/
theorem evaluation_is_of_served_model
    (h : fitAndEvaluate floats learner d = .ok (model, metrics)) :
    ∃ train validation base probs,
      (d.samples.take (trainEnd d.samples.length)).mapM (model.row floats) = .ok train ∧
      ((d.samples.take (valEnd d.samples.length)).drop (trainEnd d.samples.length)).mapM
        (model.row floats) = .ok validation ∧
      learner.fit train (d.labels.take (trainEnd d.samples.length)) = .ok base ∧
      calibrateModel learner base validation
        ((d.labels.take (valEnd d.samples.length)).drop (trainEnd d.samples.length)) =
          .ok model.estimator ∧
      (d.samples.drop (valEnd d.samples.length)).mapM
        (logisticFailureProbability floats learner model) = .ok probs ∧
      metrics = (learner.scores (d.labels.drop (valEnd d.samples.length)) probs).getD
        learner.noScores := by
  obtain ⟨x, base, hfitted⟩ := fitAndEvaluate_eq_ok h
  refine ⟨_, _, base, _, mapM_take hfitted.rows _, mapM_drop (mapM_take hfitted.rows _) _,
    hfitted.fit, hfitted.calibrate, ?_, hfitted.scores⟩
  rw [mapM_eq_ok, List.forall₂_map_right_iff]
  refine (mapM_eq_ok.mp (mapM_drop hfitted.rows _)).imp fun vector row hrow => ?_
  rw [logisticFailureProbability, hrow]
  rfl

open EvaluationExample in
theorem evaluation_is_of_served_model_example : ∃ model metrics probs,
    fitAndEvaluate rationals shares (dataset (payment "HDFC" 100)) = .ok (model, metrics) ∧
    [payment "HDFC" 100].mapM (logisticFailureProbability rationals shares model) = .ok probs ∧
    metrics = (shares.scores [.int 0] probs).getD 0 := by
  obtain ⟨model, metrics, hfit⟩ := exists_model (payment "HDFC" 100) (by decide +kernel)
  obtain ⟨_, _, _, probs, -, -, -, -, hprobs, hmetrics⟩ := evaluation_is_of_served_model hfit
  exact ⟨model, metrics, probs, hfit, hprobs, hmetrics⟩

/-! ## The test samples -/

/-- The categorical values of the vector are among the known samples, or new to both. -/
def KeepsCodes (known new new' : List Sample) (vector : Sample) : Prop :=
  ∀ cat ∈ categoricalFeatures, ∀ key, (vector.get cat).key = .ok key →
    key ∈ columnKeys known cat ∨ (key ∉ columnKeys new cat ∧ key ∉ columnKeys new' cat)

theorem KeepsCodes.logisticValue_eq {known new new' : List Sample} {vector : Sample}
    (h : KeepsCodes known new new' vector) (feature : String) :
    logisticValue floats (encodersOf (known ++ new)) vector feature =
      logisticValue floats (encodersOf (known ++ new')) vector feature := by
  rw [logisticValue_encodersOf, logisticValue_encodersOf]
  split_ifs with hcat
  · unfold encodeCategorical
    cases hkey : (vector.get feature).key with
    | error err => rfl
    | ok key =>
        have hcodes := Codes.code_internAll_append .empty (h feature hcat key hkey)
        simp only [columnCodes, columnKeys_append, bind, Except.bind, pure, Except.pure]
        rw [hcodes]
  · rfl

theorem keepsCodes_of_mem {known new new' : List Sample} {row : Sample} (h : row ∈ known) :
    KeepsCodes known new new' row := fun _ _ _ hkey =>
  .inl (mem_columnKeys.mpr ⟨row, h, hkey⟩)

/-- The samples a model is tested on do not leak into it: two datasets that agree before their
test samples give one estimator, which predicts the same for every vector whose values are
known before, or never occur. -/
theorem test_samples_do_not_leak (h : fitAndEvaluate floats learner d = .ok (model, metrics))
    (h' : fitAndEvaluate floats learner d' = .ok (model', metrics'))
    (hlength : d.samples.length = d'.samples.length)
    (hsamples : d.samples.take (valEnd d.samples.length) =
      d'.samples.take (valEnd d.samples.length))
    (hlabels : d.labels.take (valEnd d.samples.length) =
      d'.labels.take (valEnd d.samples.length)) :
    model.estimator = model'.estimator ∧ ∀ vector,
      KeepsCodes (d.samples.take (valEnd d.samples.length))
        (d.samples.drop (valEnd d.samples.length)) (d'.samples.drop (valEnd d.samples.length))
        vector →
      logisticFailureProbability floats learner model vector =
        logisticFailureProbability floats learner model' vector := by
  obtain ⟨x, base, hfitted⟩ := fitAndEvaluate_eq_ok h
  obtain ⟨x', base', hfitted'⟩ := fitAndEvaluate_eq_ok h'
  obtain ⟨n, hn⟩ : ∃ n, n = d.samples.length := ⟨_, rfl⟩
  have htrain : trainEnd n ≤ valEnd n := by
    unfold trainEnd valEnd
    omega
  have hrow : ∀ vector, KeepsCodes (d.samples.take (valEnd n)) (d.samples.drop (valEnd n))
      (d'.samples.drop (valEnd n)) vector →
      model.row floats vector = model'.row floats vector := by
    intro vector hkeeps
    rw [hfitted.row_eq, hfitted'.row_eq]
    refine mapM_congr fun feature _ => ?_
    rw [← List.take_append_drop (valEnd n) d.samples,
      ← List.take_append_drop (valEnd n) d'.samples, hn, ← hsamples, ← hn]
    exact hkeeps.logisticValue_eq feature
  rw [← hn] at hsamples hlabels
  -- the rows before the test samples are the same in both matrices
  have hx : x.take (valEnd n) = x'.take (valEnd n) := by
    have hrows := mapM_take hfitted.rows (valEnd n)
    have hrows' := mapM_take hfitted'.rows (valEnd n)
    rw [← hsamples, ← mapM_congr fun row hmem => hrow row (keepsCodes_of_mem hmem),
      hrows] at hrows'
    exact Except.ok.inj hrows'
  have htake : x.take (trainEnd n) = x'.take (trainEnd n) := by
    have hshorter := congrArg (List.take (trainEnd n)) hx
    rwa [List.take_take, List.take_take, min_eq_left htrain] at hshorter
  have hlabelsTake : d.labels.take (trainEnd n) = d'.labels.take (trainEnd n) := by
    have hshorter := congrArg (List.take (trainEnd n)) hlabels
    rwa [List.take_take, List.take_take, min_eq_left htrain] at hshorter
  have hfit := hfitted.fit
  have hcalibrate := hfitted.calibrate
  rw [← hn, htake, hlabelsTake] at hfit
  rw [← hn, hx, hlabels] at hcalibrate
  have hfit' := hfitted'.fit
  have hcalibrate' := hfitted'.calibrate
  rw [← hlength, ← hn] at hfit' hcalibrate'
  obtain rfl := Except.ok.inj (hfit.symm.trans hfit')
  have hestimator := Except.ok.inj (hcalibrate.symm.trans hcalibrate')
  rw [← hn]
  refine ⟨hestimator, fun vector hkeeps => ?_⟩
  rw [logisticFailureProbability, logisticFailureProbability, hrow vector hkeeps, hestimator]

open EvaluationExample in
theorem test_samples_do_not_leak_example : ∃ model metrics model' metrics',
    fitAndEvaluate rationals shares (dataset (payment "HDFC" 100)) = .ok (model, metrics) ∧
    fitAndEvaluate rationals shares (dataset (payment "AXIS" 500)) = .ok (model', metrics') ∧
    model.estimator = model'.estimator := by
  obtain ⟨model, metrics, hfit⟩ := exists_model (payment "HDFC" 100) (by decide +kernel)
  obtain ⟨model', metrics', hfit'⟩ := exists_model (payment "AXIS" 500) (by decide +kernel)
  exact ⟨model, metrics, model', metrics', hfit, hfit',
    (test_samples_do_not_leak hfit hfit' rfl rfl rfl).1⟩

/-! ## Unknown values -/

/-- The value that a prediction reads a key as: an unknown value is read as that of the first
sample. -/
def readAs (rows : List Sample) (feature : String) (key : FeatureKey) : Option FeatureKey :=
  if key ∈ columnKeys rows feature then some key else (columnKeys rows feature).head?

/-- A key has the code of the key it is read as. -/
theorem exists_code {rows : List Sample} {feature : String}
    (hkeys : columnKeys rows feature ≠ []) (key : FeatureKey) : ∃ k n,
      readAs rows feature key = some k ∧ (columnCodes rows feature).code k = some n ∧
      ((columnCodes rows feature).code key).getD 0 = n ∧ n < rows.length := by
  have hlt : ∀ k n, (columnCodes rows feature).code k = some n → n < rows.length := by
    intro k n hcode
    have hlength := Codes.length_internAll_le .empty (columnKeys rows feature)
    have hfilter : (columnKeys rows feature).length ≤ rows.length := List.length_filterMap_le _ _
    exact Nat.lt_of_lt_of_le (Codes.code_lt hcode)
      (hlength.trans (by simpa [Codes.empty] using hfilter))
  by_cases hmem : key ∈ columnKeys rows feature
  · obtain ⟨n, hn⟩ := Option.isSome_iff_exists.mp
      (Codes.code_internAll_isSome .empty hmem)
    exact ⟨key, n, if_pos hmem, hn, by rw [columnCodes, hn]; rfl, hlt key n hn⟩
  · obtain ⟨first, rest, hfirst⟩ := List.exists_cons_of_ne_nil hkeys
    have hzero : (columnCodes rows feature).code first = some 0 := by
      rw [columnCodes, hfirst]
      exact Codes.code_internAll_first first rest
    refine ⟨first, 0, ?_, hzero, ?_, hlt first 0 hzero⟩
    · rw [readAs, if_neg hmem, hfirst]
      rfl
    · rw [columnCodes, Codes.code_internAll_of_notMem hmem]
      rfl

/-- A row exists only when the categorical values are hashable. -/
theorem exists_key_of_row {rows : List Sample} {vector : Sample} {row : List ρ} {cat : String}
    (hcat : cat ∈ categoricalFeatures)
    (h : featureNames.mapM (logisticValue floats (encodersOf rows) vector) = .ok row) :
    ∃ key, (vector.get cat).key = .ok key := by
  obtain ⟨value, hvalue⟩ := exists_of_mapM_eq_ok h cat (List.mem_append_right _ hcat)
  rw [logisticValue_encodersOf, if_pos hcat, encodeCategorical] at hvalue
  cases hkey : (vector.get cat).key with
  | ok key => exact ⟨key, rfl⟩
  | error err =>
      rw [hkey] at hvalue
      cases hvalue

theorem Fitted.columnKeys_ne_nil {x : List (List ρ)} {base : Base}
    (h : Fitted floats learner d model metrics x base) {cat : String}
    (hcat : cat ∈ categoricalFeatures) : columnKeys d.samples cat ≠ [] := by
  have hrows := mapM_eq_ok.mp h.rows
  have hlength := hrows.length_eq
  cases hsamples : d.samples with
  | nil =>
      rw [hsamples, List.length_nil] at hlength
      obtain rfl := List.length_eq_zero_iff.mp hlength.symm
      exact absurd List.drop_nil h.tested
  | cons first rest =>
      obtain ⟨row, hrow⟩ := exists_of_mapM_eq_ok h.rows first (hsamples ▸ List.mem_cons_self)
      rw [h.row_eq] at hrow
      obtain ⟨key, hkey⟩ := exists_key_of_row hcat hrow
      exact List.ne_nil_of_mem (mem_columnKeys.mpr ⟨first, List.mem_cons_self, hkey⟩)

/-- The rows of two vectors are told apart by their numbers and by the values they are read as,
and by nothing else. -/
theorem served_rows_eq_iff (h : fitAndEvaluate floats learner d = .ok (model, metrics))
    (hcodes : Set.InjOn floats.ofCode (Set.Iio d.samples.length)) {v w : Sample}
    {row row' : List ρ} (hv : model.row floats v = .ok row) (hw : model.row floats w = .ok row') :
    row = row' ↔
      (∀ feature ∈ numericFeatures,
        encodeNumeric floats (v.get feature) = encodeNumeric floats (w.get feature)) ∧
      ∀ cat ∈ categoricalFeatures, ∀ key key', (v.get cat).key = .ok key →
        (w.get cat).key = .ok key' → readAs d.samples cat key = readAs d.samples cat key' := by
  obtain ⟨x, base, hfitted⟩ := fitAndEvaluate_eq_ok h
  rw [hfitted.row_eq] at hv hw
  have hnumeric : ∀ feature ∈ numericFeatures, feature ∉ categoricalFeatures := by decide
  have hvalues : row = row' ↔ ∀ feature ∈ featureNames,
      logisticValue floats (encodersOf d.samples) v feature =
        logisticValue floats (encodersOf d.samples) w feature := by
    constructor
    · rintro rfl
      exact eq_of_mapM_eq_ok hv hw
    · intro hall
      rw [mapM_congr hall, hw] at hv
      exact (Except.ok.inj hv).symm
  -- a categorical entry is the code of the value that the key is read as
  have hcategorical : ∀ cat ∈ categoricalFeatures, ∀ key key', (v.get cat).key = .ok key →
      (w.get cat).key = .ok key' →
        (logisticValue floats (encodersOf d.samples) v cat =
          logisticValue floats (encodersOf d.samples) w cat ↔
            readAs d.samples cat key = readAs d.samples cat key') := by
    intro cat hcat key key' hkey hkey'
    obtain ⟨k, n, hread, hcode, hn, hlt⟩ := exists_code (hfitted.columnKeys_ne_nil hcat) key
    obtain ⟨k', n', hread', hcode', hn', hlt'⟩ :=
      exists_code (hfitted.columnKeys_ne_nil hcat) key'
    rw [logisticValue_encodersOf, logisticValue_encodersOf, if_pos hcat, if_pos hcat,
      encodeCategorical, encodeCategorical, hkey, hkey', hread, hread']
    simp only [bind, Except.bind, pure, Except.pure, hn, hn', Except.ok.injEq,
      Option.some.injEq]
    constructor
    · intro heq
      obtain rfl := hcodes hlt hlt' heq
      exact Codes.code_injective hcode hcode'
    · rintro rfl
      rw [Option.some.inj (hcode.symm.trans hcode')]
  rw [hvalues]
  constructor
  · intro hall
    refine ⟨fun feature hfeature => ?_, fun cat hcat key key' hkey hkey' => ?_⟩
    · have heq := hall feature (List.mem_append_left _ hfeature)
      rwa [logisticValue_encodersOf, logisticValue_encodersOf,
        if_neg (hnumeric feature hfeature), if_neg (hnumeric feature hfeature)] at heq
    · exact (hcategorical cat hcat key key' hkey hkey').mp
        (hall cat (List.mem_append_right _ hcat))
  · rintro ⟨hnums, hcats⟩ feature hfeature
    rcases List.mem_append.mp hfeature with hfeature | hcat
    · rw [logisticValue_encodersOf, logisticValue_encodersOf,
        if_neg (hnumeric feature hfeature), if_neg (hnumeric feature hfeature)]
      exact hnums feature hfeature
    · obtain ⟨key, hkey⟩ := exists_key_of_row hcat hv
      obtain ⟨key', hkey'⟩ := exists_key_of_row hcat hw
      exact (hcategorical feature hcat key key' hkey hkey').mpr
        (hcats feature hcat key key' hkey hkey')

open EvaluationExample in
/-- A bank that no sample has is read as that of the first sample. -/
theorem served_rows_eq_iff_example : ∃ model metrics row row',
    fitAndEvaluate rationals shares (dataset (payment "HDFC" 100)) = .ok (model, metrics) ∧
    model.row rationals (payment "AXIS" 100) = .ok row ∧
    model.row rationals (payment "HDFC" 100) = .ok row' ∧ row = row' := by
  obtain ⟨model, metrics, hfit⟩ := exists_model (payment "HDFC" 100) (by decide +kernel)
  obtain ⟨x, base, hfitted⟩ := fitAndEvaluate_eq_ok hfit
  have hrow : ∃ row, model.row rationals (payment "AXIS" 100) = .ok row := by
    rw [hfitted.row_eq]
    exact ⟨_, rfl⟩
  have hrow' : ∃ row, model.row rationals (payment "HDFC" 100) = .ok row := by
    rw [hfitted.row_eq]
    exact ⟨_, rfl⟩
  obtain ⟨row, hrow⟩ := hrow
  obtain ⟨row', hrow'⟩ := hrow'
  have hread : ∀ cat ∈ categoricalFeatures,
      ((payment "AXIS" 100).get cat).key.toOption.map
        (readAs (dataset (payment "HDFC" 100)).samples cat) =
      ((payment "HDFC" 100).get cat).key.toOption.map
        (readAs (dataset (payment "HDFC" 100)).samples cat) := by decide +kernel
  refine ⟨model, metrics, row, row', hfit, hrow, hrow', (served_rows_eq_iff hfit
    (fun _ _ _ _ heq => Nat.cast_injective heq) hrow hrow').mpr ⟨by decide +kernel, ?_⟩⟩
  intro cat hcat key key' hkey hkey'
  have heq := hread cat hcat
  rw [hkey, hkey'] at heq
  exact Option.some.inj heq

end Trained

/-! ## The order of the samples -/

section Temporal

variable {F Estimator : Type} {sha256 : List CanonicalRow → F}
  {fit : Dataset → Except TrainingError Estimator}

variable [DecidableEq F] {v : ProviderValidator F} {d : Dataset}

end Temporal

namespace TrainingExample

end TrainingExample

end RevenueRecovery.Training
