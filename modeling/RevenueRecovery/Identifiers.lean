import Mathlib.Data.Set.Function
import RevenueRecovery.Degradation.Service
import RevenueRecovery.Lib.Calendar
import RevenueRecovery.RootCause.Service

/-!
# Deterministic ids

The ids of episodes, root cause evaluations, candidate causes and decisions are `uuid5` of a
namespace and a name that joins the components of the record with colons. Elsewhere an id is
the structure of its components. Here the names are built as text: a dimension holds no colon,
the text of a start has a fixed length, so has that of an id, and a version is of digits, so
a name determines its components although a segment value may be any text.

## Main definitions
* `isoformat`, `uuidText` : the texts of a time and of an id.
* `episodeName`, `RcaName.text`, `decisionName` : the names.
* `EpisodeId.uuid`, `RcaRecord.uuid`, `DecisionId.uuid` : the ids.
-/
namespace RevenueRecovery

open DecimalText

/-! ## Separators -/

/-- The text before the first separator, and the rest. -/
theorem append_cons_inj_first {a a' r r' : List Char} {c : Char} (ha : c ∉ a) (ha' : c ∉ a')
    (h : a ++ c :: r = a' ++ c :: r') : a = a' ∧ r = r' := by
  induction a generalizing a' with
  | nil =>
      cases a' with
      | nil => exact ⟨rfl, List.tail_eq_of_cons_eq h⟩
      | cons x a' =>
          obtain rfl := List.head_eq_of_cons_eq h
          exact absurd List.mem_cons_self ha'
  | cons x a ih =>
      cases a' with
      | nil =>
          obtain rfl := List.head_eq_of_cons_eq h
          exact absurd List.mem_cons_self ha
      | cons y a' =>
          obtain rfl := List.head_eq_of_cons_eq h
          obtain ⟨rfl, hr⟩ := ih (fun hc => ha (List.mem_cons_of_mem _ hc))
            (fun hc => ha' (List.mem_cons_of_mem _ hc)) (List.tail_eq_of_cons_eq h)
          exact ⟨rfl, hr⟩

/-- The text before the last separator, and the rest. -/
theorem append_cons_inj_last {a a' r r' : List Char} {c : Char} (hr : c ∉ r) (hr' : c ∉ r')
    (h : a ++ c :: r = a' ++ c :: r') : a = a' ∧ r = r' := by
  have hreverse := congrArg List.reverse h
  simp only [List.reverse_append, List.reverse_cons, List.append_assoc, List.singleton_append]
    at hreverse
  obtain ⟨hrest, hfirst⟩ := append_cons_inj_first (by simpa using hr) (by simpa using hr') hreverse
  exact ⟨List.reverse_injective hfirst, List.reverse_injective hrest⟩

/-! ## Times -/

/-- A day, in microseconds. -/
def day : ℤ := Time.minutes (24 * 60)

/-- The day of the epoch in the calendar. -/
def epochOrdinal : ℤ := 719163

/-- `datetime.isoformat` of an instant in UTC; whole seconds have no fraction. -/
def isoformat (t : Time) : List Char :=
  let second := (t % day / 1000000).toNat
  let microsecond := (t % 1000000).toNat
  Calendar.dateText (Calendar.ofOrdinal (t / day + epochOrdinal).toNat) ++
    'T' :: (Calendar.timeText second ++
      ((if microsecond = 0 then [] else '.' :: padded 6 microsecond) ++ "+00:00".toList))

/-- The year of the instant is one of a `datetime`, which has four digits. -/
def HasFourDigitYear (t : Time) : Prop :=
  0 < t / day + epochOrdinal ∧ t / day + epochOrdinal ≤ Calendar.maxOrdinal

/-- A start of a window in the range of a `datetime`. -/
structure IsWindowStart (t : Time) : Prop where
  aligned : t.windowStart = t
  year : HasFourDigitYear t

section Times
variable {s t : Time}

theorem IsWindowStart.dvd (h : IsWindowStart t) : 300000000 ∣ t := by
  have haligned := h.aligned
  unfold Time.windowStart at haligned
  have hfive : Time.minutes 5 = 300000000 := rfl
  rw [hfive] at haligned
  exact Int.dvd_of_emod_eq_zero (by lia)

theorem IsWindowStart.dvd_second (h : IsWindowStart t) : 1000000 ∣ t :=
  Dvd.dvd.trans ⟨300, by decide⟩ h.dvd

theorem isoformat_of_isWindowStart (h : IsWindowStart t) : isoformat t =
    Calendar.dateText (Calendar.ofOrdinal (t / day + epochOrdinal).toNat) ++
      'T' :: (Calendar.timeText (t % day / 1000000).toNat ++ "+00:00".toList) := by
  have hmicrosecond : (t % 1000000).toNat = 0 := by
    rw [Int.emod_eq_zero_of_dvd h.dvd_second]
    rfl
  simp only [isoformat, hmicrosecond, if_true, List.nil_append]

theorem ordinal_bounds (h : HasFourDigitYear t) : 0 < (t / day + epochOrdinal).toNat ∧
    (t / day + epochOrdinal).toNat ≤ Calendar.maxOrdinal := by
  unfold HasFourDigitYear at h
  lia

theorem second_lt (t : Time) : (t % day / 1000000).toNat < 86400 := by
  have hday : day = 86400000000 := rfl
  rw [hday]
  lia

/-- The text of a start has twenty-five characters. -/
theorem length_isoformat (h : IsWindowStart t) : (isoformat t).length = 25 := by
  obtain ⟨hpos, hmax⟩ := ordinal_bounds h.year
  rw [isoformat_of_isWindowStart h, List.length_append, List.length_cons, List.length_append,
    Calendar.length_dateText hpos hmax, Calendar.length_timeText (second_lt t)]
  rfl

/-- A whole second is determined by its day and its second of the day. -/
private theorem eq_of_day_of_second {a b c : ℤ} (ha : 1000000 ∣ a) (hb : 1000000 ∣ b)
    (hpos : 0 < (a / 86400000000 + c).toNat)
    (hday : (a / 86400000000 + c).toNat = (b / 86400000000 + c).toNat)
    (hsecond : (a % 86400000000 / 1000000).toNat = (b % 86400000000 / 1000000).toNat) :
    a = b := by
  omega

/-- The text of a start determines it. -/
theorem isoformat_injective (hs : IsWindowStart s) (ht : IsWindowStart t)
    (h : isoformat s = isoformat t) : s = t := by
  obtain ⟨hpos, hmax⟩ := ordinal_bounds hs.year
  obtain ⟨hpos', hmax'⟩ := ordinal_bounds ht.year
  rw [isoformat_of_isWindowStart hs, isoformat_of_isWindowStart ht] at h
  obtain ⟨hdate, hrest⟩ := Calendar.append_cons_inj (by
    rw [Calendar.length_dateText hpos hmax, Calendar.length_dateText hpos' hmax']) h
  obtain ⟨htime, -⟩ := List.append_inj hrest (by
    rw [Calendar.length_timeText (second_lt s), Calendar.length_timeText (second_lt t)])
  have hordinal := Calendar.dateText_injective hpos hmax hpos' hmax' hdate
  have hsecond := Calendar.timeText_injective (second_lt s) (second_lt t) htime
  exact eq_of_day_of_second hs.dvd_second ht.dvd_second hpos hordinal hsecond

end Times

/-! ## Ids -/

abbrev Uuid := BitVec 128

/-- The last hexadecimal digits of a number. -/
def hexDigits : ℕ → ℕ → List Char
  | 0, _ => []
  | k + 1, n => hexDigits k (n / 16) ++ [Nat.digitChar (n % 16)]

/-- Groups of the given lengths and a last one, with hyphens between them. -/
def hyphenated : List ℕ → List Char → List Char
  | [], cs => cs
  | k :: ks, cs => cs.take k ++ '-' :: hyphenated ks (cs.drop k)

/-- `str` of a UUID. -/
def uuidText (u : Uuid) : List Char := hyphenated [8, 4, 4, 4] (hexDigits 32 u.toNat)

@[simp] theorem length_hexDigits (k n : ℕ) : (hexDigits k n).length = k := by
  induction k generalizing n with
  | zero => rfl
  | succ k ih => rw [hexDigits, List.length_append, ih, List.length_singleton]

theorem digitChar_injective : ∀ a < 16, ∀ b < 16, Nat.digitChar a = Nat.digitChar b → a = b := by
  decide

theorem hexDigits_injective {k n m : ℕ} (hn : n < 16 ^ k) (hm : m < 16 ^ k)
    (h : hexDigits k n = hexDigits k m) : n = m := by
  induction k generalizing n m with
  | zero => omega
  | succ k ih =>
      rw [Nat.pow_succ] at hn hm
      obtain ⟨hinit, hlast⟩ := List.append_inj h (by rw [length_hexDigits, length_hexDigits])
      have hquotient := ih (by omega) (by omega) hinit
      have hremainder := digitChar_injective _ (Nat.mod_lt n (by decide)) _
        (Nat.mod_lt m (by decide)) (List.head_eq_of_cons_eq hlast)
      omega

theorem length_hyphenated {ks : List ℕ} {cs : List Char} (h : ks.sum ≤ cs.length) :
    (hyphenated ks cs).length = cs.length + ks.length := by
  induction ks generalizing cs with
  | nil => rfl
  | cons k ks ih =>
      rw [List.sum_cons] at h
      have hle : ks.sum ≤ (cs.drop k).length := by
        rw [List.length_drop]
        omega
      have hrest := ih hle
      simp only [hyphenated, List.length_append, List.length_take, List.length_cons, hrest,
        List.length_drop]
      omega

theorem hyphenated_injective {ks : List ℕ} {cs cs' : List Char} (hlength : cs.length = cs'.length)
    (h : hyphenated ks cs = hyphenated ks cs') : cs = cs' := by
  induction ks generalizing cs cs' with
  | nil => exact h
  | cons k ks ih =>
      obtain ⟨hgroup, hrest⟩ := Calendar.append_cons_inj (by
        rw [List.length_take, List.length_take, hlength]) h
      rw [← List.take_append_drop k cs, ← List.take_append_drop k cs', hgroup,
        ih (by rw [List.length_drop, List.length_drop, hlength]) hrest]

theorem length_uuidText (u : Uuid) : (uuidText u).length = 36 := by
  rw [uuidText, length_hyphenated (by rw [length_hexDigits]; decide), length_hexDigits]
  rfl

theorem uuidText_injective : Function.Injective uuidText := by
  intro u v h
  have hpow : 2 ^ 128 = 16 ^ 32 := by decide +kernel
  have hdigits := hyphenated_injective (by rw [length_hexDigits, length_hexDigits]) h
  exact BitVec.eq_of_toNat_eq (hexDigits_injective (hpow ▸ u.isLt) (hpow ▸ v.isLt) hdigits)

/-! ## Names -/

/-- The dimensions of segments, as snapshots and as candidate causes name them. -/
def segmentDimensions : List String := healthDimensions ++ structuralDimensions.map Prod.fst

/-- `f"{segment_dimension}:{segment_value}:{first_bad_window.isoformat()}"`. -/
def episodeName (id : EpisodeId) : String :=
  String.ofList (id.segmentDimension.toList ++ ':' ::
    (id.segmentValue.toList ++ ':' :: isoformat id.firstBadWindow))

/-- The names of the namespace that evaluations and candidate causes share. -/
inductive RcaName
  | evaluation (episodeId : Uuid) (evaluationVersion : ℕ)
  | candidate (evaluationId : Uuid) (candidateDimension candidateValue : String)
deriving DecidableEq

/-- `f"{episode_id}:{evaluation_version}"` and
`f"{evaluation_id}:{candidate_dimension}:{candidate_value}"`. -/
def RcaName.text : RcaName → String
  | evaluation episodeId version =>
      String.ofList (uuidText episodeId ++ ':' :: Nat.toDigits 10 version)
  | candidate evaluationId dimension value =>
      String.ofList (uuidText evaluationId ++ ':' :: (dimension.toList ++ ':' :: value.toList))

/-- `f"{payment_attempt_id}:{decision_version}"`. -/
def decisionName (id : DecisionId) : String :=
  String.ofList (id.paymentAttemptId.toList ++ ':' :: Nat.toDigits 10 id.decisionVersion)

/-- An episode of a known dimension that starts with a window. -/
structure EpisodeId.IsWellFormed (id : EpisodeId) : Prop where
  dimension : id.segmentDimension ∈ segmentDimensions
  start : IsWindowStart id.firstBadWindow

/-- A candidate cause is of a known dimension. -/
def RcaName.IsWellFormed : RcaName → Prop
  | evaluation _ _ => True
  | candidate _ dimension _ => dimension ∈ segmentDimensions

theorem colon_notMem_dimension : ∀ d ∈ segmentDimensions, ':' ∉ d.toList := by
  decide +kernel

theorem colon_notMem_toDigits (n : ℕ) : ':' ∉ Nat.toDigits 10 n := fun h =>
  absurd (allDigits_toDigits n _ h) (by decide)

theorem toDigits_injective : Function.Injective (Nat.toDigits 10) := by
  intro n m h
  rw [← Nat.ofDigitChars_ten_toDigits (n := n), ← Nat.ofDigitChars_ten_toDigits (n := m), h]

/-- The first colon ends the dimension, and the start is the last twenty-five characters. -/
theorem episodeName_injective {id id' : EpisodeId} (h : id.IsWellFormed) (h' : id'.IsWellFormed)
    (hname : episodeName id = episodeName id') : id = id' := by
  obtain ⟨hdimension, hrest⟩ := append_cons_inj_first (colon_notMem_dimension _ h.dimension)
    (colon_notMem_dimension _ h'.dimension) (String.ofList_injective hname)
  obtain ⟨hvalue, hstart⟩ := List.append_inj' hrest (by
    rw [List.length_cons, List.length_cons, length_isoformat h.start, length_isoformat h'.start])
  rw [EpisodeId.mk.injEq]
  exact ⟨String.toList_injective hdimension, String.toList_injective hvalue,
    isoformat_injective h.start h'.start (List.tail_eq_of_cons_eq hstart)⟩

/-- The id is the first thirty-six characters, and a version has no colon. -/
theorem RcaName.text_injective {n n' : RcaName} (h : n.IsWellFormed) (h' : n'.IsWellFormed)
    (hname : n.text = n'.text) : n = n' := by
  cases n with
  | evaluation episodeId version =>
      cases n' with
      | evaluation episodeId' version' =>
          obtain ⟨hid, hversion⟩ := Calendar.append_cons_inj
            (by rw [length_uuidText, length_uuidText]) (String.ofList_injective hname)
          rw [uuidText_injective hid, toDigits_injective hversion]
      | candidate evaluationId dimension value =>
          obtain ⟨-, hrest⟩ := Calendar.append_cons_inj
            (by rw [length_uuidText, length_uuidText]) (String.ofList_injective hname)
          refine absurd ?_ (colon_notMem_toDigits version)
          rw [hrest]
          exact List.mem_append_right _ List.mem_cons_self
  | candidate evaluationId dimension value =>
      cases n' with
      | evaluation episodeId version =>
          obtain ⟨-, hrest⟩ := Calendar.append_cons_inj
            (by rw [length_uuidText, length_uuidText]) (String.ofList_injective hname)
          refine absurd ?_ (colon_notMem_toDigits version)
          rw [← hrest]
          exact List.mem_append_right _ List.mem_cons_self
      | candidate evaluationId' dimension' value' =>
          obtain ⟨hid, hrest⟩ := Calendar.append_cons_inj
            (by rw [length_uuidText, length_uuidText]) (String.ofList_injective hname)
          obtain ⟨hdimension, hvalue⟩ := append_cons_inj_first
            (colon_notMem_dimension _ h) (colon_notMem_dimension _ h') hrest
          rw [uuidText_injective hid, String.toList_injective hdimension,
            String.toList_injective hvalue]

/-- The last colon begins the version. -/
theorem decisionName_injective : Function.Injective decisionName := by
  intro id id' hname
  obtain ⟨hattempt, hversion⟩ := append_cons_inj_last (colon_notMem_toDigits _)
    (colon_notMem_toDigits _) (String.ofList_injective hname)
  rw [DecisionId.mk.injEq]
  exact ⟨String.toList_injective hattempt, toDigits_injective hversion⟩

/-! ## Records -/

def namespaceEpisode : Uuid := 0x3d2c8c4a67a143899a708b1b017f8d44#128
def namespaceRca : Uuid := 0xa1b2c3d4e5f67890abcdef1234567890#128
def namespaceStage6 : Uuid := 0xe5f6a7b8c9d01234ef01567890abcdef#128

/-- The records whose ids the namespace of Stage 4 holds. -/
inductive RcaRecord
  | evaluation (id : EvaluationId)
  | candidate (evaluationId : EvaluationId) (candidateDimension candidateValue : String)
deriving DecidableEq

section Records
variable (uuid5 : Uuid → String → Uuid)

def EpisodeId.uuid (id : EpisodeId) : Uuid := uuid5 namespaceEpisode (episodeName id)

def makeEvaluationId (episodeId : Uuid) (evaluationVersion : ℕ) : Uuid :=
  uuid5 namespaceRca (RcaName.evaluation episodeId evaluationVersion).text

def makeCandidateId (evaluationId : Uuid) (candidateDimension candidateValue : String) : Uuid :=
  uuid5 namespaceRca (RcaName.candidate evaluationId candidateDimension candidateValue).text

def makeDecisionId (id : DecisionId) : Uuid := uuid5 namespaceStage6 (decisionName id)

def EvaluationId.uuid (id : EvaluationId) : Uuid :=
  makeEvaluationId uuid5 (id.episodeId.uuid uuid5) id.evaluationVersion

/-- The name of a record is built from the id of the record it belongs to. -/
def RcaRecord.name : RcaRecord → RcaName
  | evaluation id => .evaluation (id.episodeId.uuid uuid5) id.evaluationVersion
  | candidate id dimension value => .candidate (id.uuid uuid5) dimension value

def RcaRecord.uuid : RcaRecord → Uuid
  | evaluation id => id.uuid uuid5
  | candidate id dimension value => makeCandidateId uuid5 (id.uuid uuid5) dimension value

variable (names : Set String)

/-- A well formed episode whose name is one of `names`. -/
def EpisodeId.NamedIn (id : EpisodeId) : Prop := id.IsWellFormed ∧ episodeName id ∈ names

/-- The record, and those its name is built from, have names in `names`. -/
def RcaRecord.NamedIn : RcaRecord → Prop
  | evaluation id => id.episodeId.NamedIn names ∧
      ((evaluation id).name uuid5).text ∈ names
  | candidate id dimension value => id.episodeId.NamedIn names ∧
      ((evaluation id).name uuid5).text ∈ names ∧ dimension ∈ segmentDimensions ∧
        ((candidate id dimension value).name uuid5).text ∈ names

/-- In each namespace a name determines its components. -/
structure NamesDetermine : Prop where
  episode : ∀ id id' : EpisodeId, id.IsWellFormed → id'.IsWellFormed →
    episodeName id = episodeName id' → id = id'
  rca : ∀ n n' : RcaName, n.IsWellFormed → n'.IsWellFormed → n.text = n'.text → n = n'
  decision : ∀ id id' : DecisionId, decisionName id = decisionName id' → id = id'

/-- In each namespace an id determines its record. -/
structure IdsDetermine : Prop where
  episode : ∀ id id' : EpisodeId, id.NamedIn names → id'.NamedIn names →
    id.uuid uuid5 = id'.uuid uuid5 → id = id'
  rca : ∀ r r' : RcaRecord, r.NamedIn uuid5 names → r'.NamedIn uuid5 names →
    r.uuid uuid5 = r'.uuid uuid5 → r = r'
  decision : ∀ id id' : DecisionId, decisionName id ∈ names → decisionName id' ∈ names →
    makeDecisionId uuid5 id = makeDecisionId uuid5 id' → id = id'

end Records

section Injective
variable {uuid5 : Uuid → String → Uuid} {names : Set String}

theorem RcaRecord.uuid_eq (r : RcaRecord) :
    r.uuid uuid5 = uuid5 namespaceRca (r.name uuid5).text := by
  cases r <;> rfl

theorem RcaRecord.NamedIn.isWellFormed {r : RcaRecord} (h : r.NamedIn uuid5 names) :
    (r.name uuid5).IsWellFormed ∧ (r.name uuid5).text ∈ names := by
  cases r with
  | evaluation id => exact ⟨trivial, h.2⟩
  | candidate id dimension value => exact ⟨h.2.2.1, h.2.2.2⟩

variable (hinj : ∀ ns, Set.InjOn (uuid5 ns) names)
include hinj

theorem EpisodeId.uuid_injective {id id' : EpisodeId} (h : id.NamedIn names)
    (h' : id'.NamedIn names) (huuid : id.uuid uuid5 = id'.uuid uuid5) : id = id' :=
  episodeName_injective h.1 h'.1 (hinj _ h.2 h'.2 huuid)

/-- Equal ids come from equal names. -/
theorem RcaRecord.name_eq {r r' : RcaRecord} (h : r.NamedIn uuid5 names)
    (h' : r'.NamedIn uuid5 names) (huuid : r.uuid uuid5 = r'.uuid uuid5) :
    r.name uuid5 = r'.name uuid5 := by
  rw [RcaRecord.uuid_eq, RcaRecord.uuid_eq] at huuid
  exact RcaName.text_injective h.isWellFormed.1 h'.isWellFormed.1
    (hinj _ h.isWellFormed.2 h'.isWellFormed.2 huuid)

/-- Equal evaluations follow from equal ids by the id of the episode, equal candidate causes
by the id of the evaluation. -/
theorem RcaRecord.uuid_injective {r r' : RcaRecord} (h : r.NamedIn uuid5 names)
    (h' : r'.NamedIn uuid5 names) (huuid : r.uuid uuid5 = r'.uuid uuid5) : r = r' := by
  have hevaluation (id id' : EvaluationId) (hid : (evaluation id).NamedIn uuid5 names)
      (hid' : (evaluation id').NamedIn uuid5 names) (heq : id.uuid uuid5 = id'.uuid uuid5) :
      id = id' := by
    obtain ⟨hepisode, hversion⟩ := RcaName.evaluation.inj (RcaRecord.name_eq hinj hid hid' heq)
    rw [EvaluationId.mk.injEq]
    exact ⟨EpisodeId.uuid_injective hinj hid.1 hid'.1 hepisode, hversion⟩
  have hname := RcaRecord.name_eq hinj h h' huuid
  cases r with
  | evaluation id =>
      cases r' with
      | evaluation id' => rw [hevaluation id id' h h' huuid]
      | candidate id' dimension value => cases hname
  | candidate id dimension value =>
      cases r' with
      | evaluation id' => cases hname
      | candidate id' dimension' value' =>
          obtain ⟨hid, rfl, rfl⟩ := RcaName.candidate.inj hname
          rw [hevaluation id id' ⟨h.1, h.2.1⟩ ⟨h'.1, h'.2.1⟩ hid]

/-- Upserting by the stored id merges the episodes the model's upsert merges. -/
theorem upsertEpisode_eq_upsert_uuid {episodes : List DegradationEpisode}
    {ep : DegradationEpisode} (hep : ep.episodeId.NamedIn names)
    (hepisodes : ∀ stored ∈ episodes, stored.episodeId.NamedIn names) :
    upsertEpisode episodes ep =
      Table.upsert (fun e => e.episodeId.uuid uuid5) mergeEpisode ep episodes := by
  have hkey : ∀ stored ∈ episodes, stored.episodeId = ep.episodeId ↔
      stored.episodeId.uuid uuid5 = ep.episodeId.uuid uuid5 := fun stored hstored =>
    ⟨congrArg _, EpisodeId.uuid_injective hinj (hepisodes stored hstored) hep⟩
  have hany : (episodes.any fun stored => stored.episodeId = ep.episodeId) =
      episodes.any fun stored => stored.episodeId.uuid uuid5 = ep.episodeId.uuid uuid5 := by
    rw [Bool.eq_iff_iff]
    simp only [List.any_eq_true, decide_eq_true_eq]
    exact exists_congr fun stored => and_congr_right (hkey stored)
  have hmap : (episodes.map fun stored =>
        if stored.episodeId = ep.episodeId then mergeEpisode stored ep else stored) =
      episodes.map fun stored =>
        if stored.episodeId.uuid uuid5 = ep.episodeId.uuid uuid5 then mergeEpisode stored ep
        else stored :=
    List.map_congr_left fun stored hstored => by simp only [hkey stored hstored]
  unfold upsertEpisode Table.upsert
  rw [hany, hmap]

/-- No two episodes, no two evaluations or candidate causes, and no two decisions have one
name; nor have they one id, where `uuid5` has no collision on their names. -/
theorem deterministicIds_injective : NamesDetermine ∧ IdsDetermine uuid5 names where
  left :=
    { episode := fun _ _ h h' => episodeName_injective h h'
      rca := fun _ _ h h' => RcaName.text_injective h h'
      decision := fun _ _ hname => decisionName_injective hname }
  right :=
    { episode := fun _ _ h h' => EpisodeId.uuid_injective hinj h h'
      rca := fun _ _ h h' => RcaRecord.uuid_injective hinj h h'
      decision := fun _ _ h h' huuid => decisionName_injective (hinj _ h h' huuid) }

end Injective

/-! ### A value that looks like a start -/

namespace IdentifierExample

/-- The first of January 2026. -/
def start : Time := Time.seconds 1767225600

def plain : EpisodeId := ⟨"bank", "HDFC", start⟩

/-- The name of this episode begins with the whole name of the other one. -/
def nested : EpisodeId := ⟨"bank", "HDFC:2026-01-01T00:00:00+00:00", start⟩

/-- The names of both episodes, an evaluation, its candidate cause and two decisions, with
their ids. -/
def ids : List (String × Uuid) :=
  [("bank:HDFC:2026-01-01T00:00:00+00:00", 0xcdeb7f1cd34c50cdb964de8d5ff7e3d6#128),
    ("bank:HDFC:2026-01-01T00:00:00+00:00:2026-01-01T00:00:00+00:00",
      0xaab92b44a0df5b30b2965a063870a52a#128),
    ("cdeb7f1c-d34c-50cd-b964-de8d5ff7e3d6:1", 0xf5d081f2b1b15ab5b8438b0b2236780c#128),
    ("f5d081f2-b1b1-5ab5-b843-8b0b2236780c:BANK:HDFC", 0x9cf7f5421f8a5658a01d1f18df8d6705#128),
    ("pay:1:1", 0x9dfea6253a85516faca2486c7fe50862#128),
    ("pay:11", 0xc324605887835119b6eae3b0a927bccb#128)]

def uuid5 (_ : Uuid) (name : String) : Uuid := (ids.lookup name).getD 0

def names : Set String := fun name => name ∈ ids.map Prod.fst

theorem isWindowStart_start : IsWindowStart start :=
  ⟨by decide +kernel, by decide +kernel, by decide +kernel⟩

theorem uuid5_injOn (ns : Uuid) : Set.InjOn (uuid5 ns) names := by
  have hall : ∀ a ∈ ids.map Prod.fst, ∀ b ∈ ids.map Prod.fst,
      (ids.lookup a).getD 0 = (ids.lookup b).getD 0 → a = b := by decide +kernel
  exact fun a ha b hb => hall a ha b hb

theorem namedIn_plain : plain.NamedIn names :=
  ⟨⟨by decide +kernel, isWindowStart_start⟩, show _ ∈ ids.map Prod.fst by decide +kernel⟩

theorem namedIn_nested : nested.NamedIn names :=
  ⟨⟨by decide +kernel, isWindowStart_start⟩, show _ ∈ ids.map Prod.fst by decide +kernel⟩

end IdentifierExample

open IdentifierExample in
theorem deterministicIds_injective_nested :
    plain.uuid uuid5 ≠ nested.uuid uuid5 ∧
      (RcaRecord.evaluation ⟨plain, 1⟩).uuid uuid5 ≠
        (RcaRecord.candidate ⟨plain, 1⟩ "BANK" "HDFC").uuid uuid5 ∧
      makeDecisionId uuid5 ⟨"pay:1", 1⟩ ≠ makeDecisionId uuid5 ⟨"pay", 11⟩ := by
  have hevaluation : (RcaRecord.evaluation ⟨plain, 1⟩).NamedIn uuid5 names :=
    ⟨namedIn_plain, show _ ∈ ids.map Prod.fst by decide +kernel⟩
  have hcandidate : (RcaRecord.candidate ⟨plain, 1⟩ "BANK" "HDFC").NamedIn uuid5 names :=
    ⟨namedIn_plain, hevaluation.2, by decide +kernel,
      show _ ∈ ids.map Prod.fst by decide +kernel⟩
  have hdetermine := (deterministicIds_injective uuid5_injOn).2
  refine ⟨fun h => ?_, fun h => ?_, fun h => ?_⟩
  · exact absurd (hdetermine.episode _ _ namedIn_plain namedIn_nested h) (by decide +kernel)
  · exact absurd (hdetermine.rca _ _ hevaluation hcandidate h) (by decide +kernel)
  · exact absurd (hdetermine.decision _ _ (show _ ∈ ids.map Prod.fst by decide +kernel)
      (show _ ∈ ids.map Prod.fst by decide +kernel) h) (by decide +kernel)

end RevenueRecovery
