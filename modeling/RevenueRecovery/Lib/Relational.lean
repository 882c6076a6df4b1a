import Mathlib.Algebra.BigOperators.Group.Finset.Piecewise
import RevenueRecovery.Lib.Table

/-!
# Constraints and set queries over tables

The constraints a relational schema puts on tables, and the queries and updates of
a data migration. A key is `none` when one of its columns is `NULL`: such a row
takes part in no `UNIQUE` and no `FOREIGN KEY` constraint.

## Main definitions
* `Unique`, `References` : `UNIQUE` and `FOREIGN KEY`.
* `duplicates` : `GROUP BY key HAVING count(*) > 1`.
* `join`, `leftJoin` : the pairs of rows an `ON` condition relates.
* `Selects` : what a query for one row returns.
* `distinctOn` : `SELECT DISTINCT ON (group) … ORDER BY group, order`.
* `latestVersions` : the rows whose version is `MAX(version)` of their group.
* `updateFrom` : `UPDATE … SET … FROM source WHERE …`.
* `Check`, `requireAll` : checks of which the first that fails aborts.
-/
namespace Relational

variable {α β κ : Type*}

/-! ## Groups -/

/-- Each row is in the group of its key, so sums over the groups add up to that over all
rows. -/
theorem sum_groups {M : Type*} [AddCommMonoid M] [DecidableEq κ] (group : α → κ) (weight : α → M)
    {keys : List κ} (hkeys : keys.Nodup) {rows : List α} (h : ∀ a ∈ rows, group a ∈ keys) :
    (keys.map fun k => ((rows.filter fun a => group a = k).map weight).sum).sum =
      (rows.map weight).sum := by
  induction rows with
  | nil => simp
  | cons a rows ih =>
      obtain ⟨ha, hrows⟩ := List.forall_mem_cons.mp h
      have hterm : ∀ k, (((a :: rows).filter fun a => group a = k).map weight).sum =
          (if group a = k then weight a else 0) +
            ((rows.filter fun a => group a = k).map weight).sum := by
        intro k
        by_cases hk : group a = k <;> simp [hk]
      have hown : (keys.map fun k => if group a = k then weight a else 0).sum = weight a := by
        rw [← List.sum_toFinset _ hkeys, Finset.sum_ite_eq]
        simp [ha]
      simp only [hterm]
      rw [List.sum_map_add, hown, ih hrows, List.map_cons, List.sum_cons]

/-! ## Constraints -/

/-- No two rows have one key. -/
def Unique (key : α → Option κ) (rows : List α) : Prop := (rows.filterMap key).Nodup

/-- Every key of the rows is a key of the target. -/
def References (key : α → Option κ) (rows : List α) (targetKey : β → Option κ)
    (target : List β) : Prop := ∀ k ∈ rows.filterMap key, k ∈ target.filterMap targetKey

section Constraints
variable {key : α → Option κ} {targetKey : β → Option κ} {rows : List α} {target : List β}
  {a b : α} {k : κ}

instance [DecidableEq κ] : Decidable (Unique key rows) :=
  inferInstanceAs (Decidable (rows.filterMap key).Nodup)

instance [DecidableEq κ] : Decidable (References key rows targetKey target) :=
  inferInstanceAs (Decidable (∀ k ∈ rows.filterMap key, k ∈ target.filterMap targetKey))

theorem references_iff : References key rows targetKey target ↔
    ∀ a ∈ rows, ∀ k, key a = some k → ∃ b ∈ target, targetKey b = some k := by
  simp only [References, List.mem_filterMap]
  constructor
  · intro h a ha k hk
    exact h k ⟨a, ha, hk⟩
  · rintro h k ⟨a, ha, hk⟩
    exact h a ha k hk

/-- Rows of one key are one row. -/
theorem Unique.eq_of_key (h : Unique key rows) (ha : a ∈ rows) (hb : b ∈ rows)
    (hka : key a = some k) (hkb : key b = some k) : a = b := by
  induction rows with
  | nil => cases ha
  | cons r rows ih =>
      unfold Unique at h
      rcases List.mem_cons.mp ha with rfl | ha'
      · rw [List.filterMap_cons_some hka, List.nodup_cons] at h
        rcases List.mem_cons.mp hb with rfl | hb
        · rfl
        · exact absurd (List.mem_filterMap.mpr ⟨b, hb, hkb⟩) h.1
      · have hrows : Unique key rows := by
          cases hr : key r with
          | none => rwa [List.filterMap_cons_none hr] at h
          | some k' =>
              rw [List.filterMap_cons_some hr] at h
              exact h.of_cons
        rcases List.mem_cons.mp hb with rfl | hb'
        · rw [List.filterMap_cons_some hkb, List.nodup_cons] at h
          exact absurd (List.mem_filterMap.mpr ⟨a, ha', hka⟩) h.1
        · exact ih hrows ha' hb'

/-- A key with more columns is unique too. -/
theorem Unique.refine {κ' : Type*} {key' : α → Option κ'} (f : κ' → κ) (h : Unique key rows)
    (hkey : ∀ a ∈ rows, ∀ k', key' a = some k' → key a = some (f k')) : Unique key' rows := by
  induction rows with
  | nil => exact List.nodup_nil
  | cons r rows ih =>
      have htail : ∀ a ∈ rows, ∀ k', key' a = some k' → key a = some (f k') :=
        fun a ha => hkey a (List.mem_cons_of_mem r ha)
      unfold Unique at h ⊢
      cases hr : key' r with
      | none =>
          rw [List.filterMap_cons_none hr]
          refine ih ?_ htail
          exact h.sublist ((List.sublist_cons_self r rows).filterMap key)
      | some k' =>
          rw [List.filterMap_cons_some (hkey r List.mem_cons_self k' hr), List.nodup_cons] at h
          rw [List.filterMap_cons_some hr, List.nodup_cons]
          refine ⟨fun hmem => h.1 ?_, ih h.2 htail⟩
          obtain ⟨a, ha, hk⟩ := List.mem_filterMap.mp hmem
          exact List.mem_filterMap.mpr ⟨a, ha, htail a ha k' hk⟩

/-- A key without `NULL` columns. -/
theorem unique_some {col : α → κ} :
    Unique (fun a => some (col a)) rows ↔ (rows.map col).Nodup := by
  rw [Unique, ← List.filterMap_eq_map]
  rfl

/-- A table read through a column projection. -/
theorem unique_map {row : β → α} {rows : List β} :
    Unique key (rows.map row) ↔ Unique (key ∘ row) rows := by
  rw [Unique, Unique, List.filterMap_map]

end Constraints

/-! ## Queries -/

/-- `rows JOIN target ON on`. -/
def join (on : α → β → Bool) (rows : List α) (target : List β) : List (α × β) :=
  rows.flatMap fun a => (target.filter (on a)).map fun b => (a, b)

/-- `rows LEFT JOIN target ON on`. -/
def leftJoin (on : α → β → Bool) (rows : List α) (target : List β) : List (α × Option β) :=
  rows.flatMap fun a =>
    match target.filter (on a) with
    | [] => [(a, none)]
    | b :: bs => (b :: bs).map fun b => (a, some b)

/-- The one row of a key. -/
theorem filter_key_eq_singleton [DecidableEq κ] {key : α → κ} {rows : List α} {a : α}
    (h : (rows.map key).Nodup) (ha : a ∈ rows) : (rows.filter fun b => key b = key a) = [a] := by
  rw [Table.filter_key_eq_find? h]
  cases hfind : rows.find? fun b => key b = key a with
  | none => exact absurd (List.find?_eq_none.mp hfind a ha) (by simp)
  | some b =>
      have hb := List.mem_of_find?_eq_some hfind
      have hkey : key b = key a := by simpa using List.find?_some hfind
      rw [List.inj_on_of_nodup_map h hb ha hkey]
      rfl

section Joins
variable {on : α → β → Bool} {rows : List α} {target : List β} {a : α} {b : β}

@[simp] theorem mem_join : (a, b) ∈ join on rows target ↔ a ∈ rows ∧ b ∈ target ∧ on a b = true := by
  simp [join]

theorem mem_leftJoin_none : (a, none) ∈ leftJoin on rows target ↔
    a ∈ rows ∧ ∀ b ∈ target, on a b = false := by
  simp only [leftJoin, List.mem_flatMap]
  constructor
  · rintro ⟨r, hr, hmem⟩
    cases hfilter : target.filter (on r) with
    | nil =>
        rw [hfilter] at hmem
        obtain rfl : a = r := by simpa using hmem
        exact ⟨hr, by simpa using hfilter⟩
    | cons b bs =>
        rw [hfilter] at hmem
        simp at hmem
  · rintro ⟨ha, hnone⟩
    have hfilter : target.filter (on a) = [] := by simpa using hnone
    exact ⟨a, ha, by simp [hfilter]⟩

theorem mem_leftJoin_some : (a, some b) ∈ leftJoin on rows target ↔
    a ∈ rows ∧ b ∈ target ∧ on a b = true := by
  simp only [leftJoin, List.mem_flatMap]
  constructor
  · rintro ⟨r, hr, hmem⟩
    have hb : a = r ∧ b ∈ target.filter (on r) := by
      cases hfilter : target.filter (on r) with
      | nil =>
          rw [hfilter] at hmem
          simp at hmem
      | cons c bs =>
          rw [hfilter] at hmem
          grind
    obtain ⟨rfl, hb⟩ := hb
    exact ⟨hr, List.mem_filter.mp hb⟩
  · rintro ⟨ha, hb, hon⟩
    have hmem : b ∈ target.filter (on a) := List.mem_filter.mpr ⟨hb, hon⟩
    refine ⟨a, ha, ?_⟩
    cases hfilter : target.filter (on a) with
    | nil =>
        rw [hfilter] at hmem
        cases hmem
    | cons c bs =>
        rw [hfilter] at hmem
        exact List.mem_map_of_mem hmem

/-- A join in which each row meets one row of the target keeps the rows. -/
theorem map_fst_join (h : ∀ a ∈ rows, ∃ b, target.filter (on a) = [b]) :
    (join on rows target).map Prod.fst = rows := by
  induction rows with
  | nil => rfl
  | cons a rows ih =>
      obtain ⟨b, hb⟩ := h a List.mem_cons_self
      have hrows := ih fun a' ha' => h a' (List.mem_cons_of_mem a ha')
      simp only [join, List.flatMap_cons, hb, List.map_cons, List.map_nil, List.cons_append,
        List.nil_append]
      exact congrArg (a :: ·) hrows

/-- A left join in which each row meets at most one row of the target keeps the rows. -/
theorem map_fst_leftJoin (h : ∀ a ∈ rows, (target.filter (on a)).length ≤ 1) :
    (leftJoin on rows target).map Prod.fst = rows := by
  induction rows with
  | nil => rfl
  | cons a rows ih =>
      have ha := h a List.mem_cons_self
      have hrows := ih fun a' ha' => h a' (List.mem_cons_of_mem a ha')
      have hown : (match target.filter (on a) with
          | [] => [(a, (none : Option β))]
          | b :: bs => (b :: bs).map fun b => (a, some b)).map Prod.fst = [a] := by
        match hmatches : target.filter (on a) with
        | [] => rfl
        | [b] => rfl
        | b :: c :: bs => simp [hmatches] at ha
      rw [leftJoin, List.flatMap_cons, List.map_append, hown]
      exact congrArg (a :: ·) hrows

theorem filter_eq_flatMap (p : β → Bool) (rows : List β) :
    rows.filter p = rows.flatMap fun b => if p b then [b] else [] := by
  induction rows with
  | nil => rfl
  | cons b rows ih =>
      rw [List.filter_cons, List.flatMap_cons, ← ih]
      split_ifs <;> rfl

/-- A left join in which each row meets at most one row of the target looks that row up. -/
theorem leftJoin_eq_map (h : ∀ a ∈ rows, (target.filter (on a)).length ≤ 1) :
    leftJoin on rows target = rows.map fun a => (a, target.find? (on a)) := by
  induction rows with
  | nil => rfl
  | cons a rows ih =>
      have ha := h a List.mem_cons_self
      have hrows := ih fun a' ha' => h a' (List.mem_cons_of_mem a ha')
      have hfind : target.find? (on a) = (target.filter (on a)).head? := List.head?_filter.symm
      have hown : (match target.filter (on a) with
          | [] => [(a, (none : Option β))]
          | b :: bs => (b :: bs).map fun b => (a, some b)) = [(a, target.find? (on a))] := by
        rw [hfind]
        match hmatches : target.filter (on a) with
        | [] => rfl
        | [b] => rfl
        | b :: c :: bs => simp [hmatches] at ha
      rw [leftJoin, List.flatMap_cons, hown]
      exact congrArg ((a, target.find? (on a)) :: ·) hrows

/-- The rows of the target that a left join shows: each as often as a row meets it. -/
theorem filterMap_snd_leftJoin (on : α → β → Bool) (rows : List α) (target : List β) :
    ((leftJoin on rows target).filterMap Prod.snd).Perm
      (target.flatMap fun b => (rows.filter fun a => on a b).map fun _ => b) := by
  induction rows with
  | nil => simp [leftJoin]
  | cons a rows ih =>
      have hown : (match target.filter (on a) with
          | [] => [(a, (none : Option β))]
          | b :: bs => (b :: bs).map fun b => (a, some b)).filterMap Prod.snd =
            target.filter (on a) := by
        cases target.filter (on a) with
        | nil => rfl
        | cons b bs => simp [List.filterMap_map]
      have hcons : ∀ b, ((a :: rows).filter fun r => on r b).map (fun _ => b) =
          (if on a b then [b] else []) ++ (rows.filter fun r => on r b).map fun _ => b := by
        intro b
        by_cases hb : on a b <;> simp [hb]
      rw [leftJoin, List.flatMap_cons, List.filterMap_append, hown, filter_eq_flatMap]
      simp only [hcons]
      exact (List.Perm.append_left _ ih).trans (List.flatMap_append_perm _ _ _)

/-- A left join on a key of the rows shows each row of the target once that refers to one. -/
theorem filterMap_snd_leftJoin_key [DecidableEq κ] (key : α → κ) (ref : β → κ) {p : β → Bool}
    (hnodup : (rows.map key).Nodup)
    (hon : ∀ a ∈ rows, ∀ b ∈ target, on a b = true ↔ key a = ref b ∧ p b = true)
    (href : ∀ b ∈ target, p b = true → ref b ∈ rows.map key) :
    ((leftJoin on rows target).filterMap Prod.snd).Perm (target.filter p) := by
  refine (filterMap_snd_leftJoin on rows target).trans (.of_eq ?_)
  rw [filter_eq_flatMap p]
  refine List.flatMap_congr fun b hb => ?_
  rw [List.map_const']
  split_ifs with hp
  · obtain ⟨a, ha, hkey⟩ := List.mem_map.mp (href b hb hp)
    have hfilter : (rows.filter fun a' => on a' b) = [a] := by
      rw [← filter_key_eq_singleton hnodup ha]
      refine List.filter_congr fun a' ha' => Bool.eq_iff_iff.mpr ?_
      rw [hon a' ha' b hb, decide_eq_true_iff, hkey]
      exact and_iff_left hp
    rw [hfilter]
    rfl
  · have hfilter : (rows.filter fun a' => on a' b) = [] :=
      List.filter_eq_nil_iff.mpr fun a' ha' h => hp ((hon a' ha' b hb).mp h).2
    rw [hfilter]
    rfl

end Joins

/-! ## Selections -/

/-- The row that was selected, of those that meet the condition; `none` when there is none. -/
def Selects (p : β → Prop) (rows : List β) : Option β → Prop
  | none => ∀ b ∈ rows, ¬ p b
  | some b => b ∈ rows ∧ p b

section Selections
variable {p q : β → Prop} {rows : List β} {o o' : Option β}

theorem Selects.congr (h : Selects p rows o) (hpq : ∀ b ∈ rows, p b ↔ q b) :
    Selects q rows o := by
  cases o with
  | none => exact fun b hb hq => h b hb ((hpq b hb).mpr hq)
  | some b => exact ⟨h.1, (hpq b h.1).mp h.2⟩

/-- Where one row at most meets the condition, every way to select it agrees. -/
theorem Selects.unique (h : Selects p rows o) (h' : Selects p rows o')
    (hone : ∀ a ∈ rows, ∀ b ∈ rows, p a → p b → a = b) : o = o' := by
  cases o with
  | none =>
      cases o' with
      | none => rfl
      | some b => exact absurd h'.2 (h b h'.1)
  | some a =>
      cases o' with
      | none => exact absurd h.2 (h' a h.1)
      | some b => rw [hone a h.1 b h'.1 h.2 h'.2]

theorem selects_of_mem_leftJoin {on : α → β → Bool} {as : List α} {a : α}
    (h : (a, o) ∈ leftJoin on as rows) : a ∈ as ∧ Selects (fun b => on a b = true) rows o := by
  cases o with
  | none =>
      obtain ⟨ha, hnone⟩ := mem_leftJoin_none.mp h
      exact ⟨ha, fun b hb hon => Bool.false_ne_true ((hnone b hb).symm.trans hon)⟩
  | some b =>
      obtain ⟨ha, hb, hon⟩ := mem_leftJoin_some.mp h
      exact ⟨ha, hb, hon⟩

/-- `ORDER BY version DESC LIMIT 1` selects a row of the highest version. -/
theorem selects_latestBy {version : β → ℕ} {order : ℕ → ℕ} {r : β → Bool} :
    Selects (fun b => r b = true ∧ ∀ b' ∈ rows, r b' = true → version b' ≤ version b) rows
      (Table.latestBy version (Table.scan order (rows.filter r))) := by
  cases hlatest : Table.latestBy version (Table.scan order (rows.filter r)) with
  | none =>
      have hnil := Table.scan_eq_nil.mp (Table.latestBy_eq_none.mp hlatest)
      exact fun b hb hr => List.filter_eq_nil_iff.mp hnil b hb hr.1
  | some b =>
      obtain ⟨hmem, hmax⟩ := Table.latestBy_spec hlatest
      obtain ⟨hb, hr⟩ := List.mem_filter.mp (Table.mem_scan.mp hmem)
      exact ⟨hb, hr, fun b' hb' hr' =>
        hmax b' (Table.mem_scan.mpr (List.mem_filter.mpr ⟨hb', hr'⟩))⟩

end Selections

/-- Distinct rows of which no two meet a condition: at most one meets it. -/
theorem length_filter_le_one {p : α → Bool} {rows : List α} (hnodup : rows.Nodup)
    (h : ∀ a ∈ rows, ∀ b ∈ rows, p a = true → p b = true → a = b) :
    (rows.filter p).length ≤ 1 := by
  have hnodup' := hnodup.filter p
  match hmatches : rows.filter p with
  | [] => exact Nat.zero_le 1
  | [a] => exact le_rfl
  | a :: b :: rest =>
      rw [hmatches] at hnodup'
      obtain ⟨ha, hpa⟩ := List.mem_filter.mp (hmatches ▸ List.mem_cons_self : a ∈ rows.filter p)
      obtain ⟨hb, hpb⟩ := List.mem_filter.mp
        (hmatches ▸ List.mem_cons_of_mem a List.mem_cons_self : b ∈ rows.filter p)
      obtain rfl : a = b := h a ha b hb hpa hpb
      exact absurd List.mem_cons_self (List.nodup_cons.mp hnodup').1

section Queries
variable [DecidableEq κ]

/-- The keys that occur more than once. -/
def duplicates (keys : List κ) : List κ := keys.dedup.filter fun k => 1 < keys.count k

@[simp] theorem duplicates_eq_nil {keys : List κ} : duplicates keys = [] ↔ keys.Nodup := by
  simp only [duplicates, List.filter_eq_nil_iff, List.mem_dedup, decide_eq_true_eq, not_lt]
  rw [List.nodup_iff_count_le_one]
  refine ⟨fun h k => ?_, fun h k _ => h k⟩
  by_cases hk : k ∈ keys
  · exact h k hk
  · rw [List.count_eq_zero_of_not_mem hk]
    exact Nat.zero_le 1

/-- `SELECT group, MAX(version) … GROUP BY group`. -/
def maxPerGroup (group : α → κ) (version : α → ℕ) (rows : List α) : List (κ × ℕ) :=
  (rows.map group).dedup.map fun k =>
    (k, Table.maxOf version (rows.filter fun a => group a = k))

/-- The rows that join the largest version of their group. -/
def latestVersions (group : α → κ) (version : α → ℕ) (rows : List α) : List α :=
  (join (fun a latest => group a = latest.1 ∧ version a = latest.2) rows
    (maxPerGroup group version rows)).map Prod.fst

theorem mem_latestVersions {group : α → κ} {version : α → ℕ} {rows : List α} {a : α} :
    a ∈ latestVersions group version rows ↔
      a ∈ rows ∧ ∀ b ∈ rows, group b = group a → version b ≤ version a := by
  have hmax : ∀ k, a ∈ rows → group a = k →
      (version a = Table.maxOf version (rows.filter fun b => group b = k) ↔
        ∀ b ∈ rows, group b = k → version b ≤ version a) := by
    intro k ha hk
    have hmem : a ∈ rows.filter fun b => group b = k := by simp [ha, hk]
    constructor
    · intro hversion b hb hbk
      rw [hversion]
      exact Table.le_maxOf (by simp [hb, hbk])
    · intro hle
      refine le_antisymm (Table.le_maxOf hmem) (Table.maxOf_le fun b hb => ?_)
      obtain ⟨hb, hbk⟩ := List.mem_filter.mp hb
      exact hle b hb (of_decide_eq_true hbk)
  simp only [latestVersions, List.mem_map, Prod.exists, mem_join, exists_and_right, exists_eq_right,
    maxPerGroup, List.mem_dedup, decide_eq_true_eq]
  constructor
  · rintro ⟨k, n, ha, ⟨k', hk', heq⟩, rfl, hversion⟩
    obtain ⟨rfl, rfl⟩ := Prod.mk.inj heq
    exact ⟨ha, (hmax _ ha rfl).mp hversion⟩
  · rintro ⟨ha, hle⟩
    exact ⟨group a, _, ha, ⟨group a, ⟨a, ha, rfl⟩, rfl⟩, rfl, (hmax _ ha rfl).mpr hle⟩

variable {ο : Type*} [LinearOrder ο]

/-- The first row of each group in the given order. -/
def distinctOn (group : α → κ) (order : α → ο) (rows : List α) : List α :=
  (rows.map group).dedup.filterMap fun g =>
    Table.earliestBy order (rows.filter fun r => group r = g)

variable {group : α → κ} {order : α → ο} {rows : List α} {a b : α}

theorem distinctOn_spec (h : a ∈ distinctOn group order rows) :
    a ∈ rows ∧ ∀ b ∈ rows, group b = group a → order a ≤ order b := by
  obtain ⟨g, -, hg⟩ := List.mem_filterMap.mp h
  obtain ⟨hmem, hmin⟩ := Table.earliestBy_spec hg
  obtain ⟨hrow, rfl⟩ : a ∈ rows ∧ group a = g := by simpa using hmem
  exact ⟨hrow, fun b hb hgroup => hmin b (by simp [hb, hgroup])⟩

/-- Each group has its row. -/
theorem exists_mem_distinctOn (group : α → κ) (order : α → ο) (h : a ∈ rows) :
    ∃ b ∈ distinctOn group order rows, group b = group a := by
  cases hfirst : Table.earliestBy order (rows.filter fun r => group r = group a) with
  | none =>
      have hnil := Table.earliestBy_eq_none.mp hfirst
      have hmem : a ∈ rows.filter fun r => group r = group a := by simp [h]
      rw [hnil] at hmem
      cases hmem
  | some b =>
      have hb : b ∈ rows.filter fun r => group r = group a := Table.earliestBy_mem hfirst
      refine ⟨b, List.mem_filterMap.mpr ⟨group a, ?_, hfirst⟩, by simpa using (List.mem_filter.mp hb).2⟩
      exact List.mem_dedup.mpr (List.mem_map_of_mem h)

theorem nodup_distinctOn (group : α → κ) (order : α → ο) (rows : List α) :
    ((distinctOn group order rows).map group).Nodup := by
  rw [distinctOn, List.map_filterMap]
  have hgroup : ∀ g g', (Table.earliestBy order (rows.filter fun r => group r = g)).map group =
      some g' → g' = g := by
    intro g g' h
    obtain ⟨a, ha, rfl⟩ := Option.map_eq_some_iff.mp h
    simpa using (List.mem_filter.mp (Table.earliestBy_mem ha)).2
  refine (List.nodup_dedup _).filterMap ?_
  intro g g' k hk hk'
  rw [← hgroup g k hk, ← hgroup g' k hk']

end Queries

/-! ## Updates -/

/-- Each row is set from the source row that joins it, if there is one. -/
def updateFrom (source : List β) (joins : α → β → Bool) (set : α → β → α) (rows : List α) :
    List α :=
  rows.map fun a => ((source.find? (joins a)).map (set a)).getD a

section Updates
variable {source : List β} {joins : α → β → Bool} {set : α → β → α} {rows : List α}

/-- Columns that the update does not set keep their values. -/
theorem map_updateFrom {γ : Type*} (col : α → γ) (h : ∀ a b, col (set a b) = col a) :
    (updateFrom source joins set rows).map col = rows.map col := by
  rw [updateFrom, List.map_map]
  refine List.map_congr_left fun a _ => ?_
  cases hfind : source.find? (joins a) with
  | none => rw [Function.comp_apply, hfind, Option.map_none, Option.getD_none]
  | some b => rw [Function.comp_apply, hfind, Option.map_some, Option.getD_some, h]

/-- A row of an update is a row set from a source row that joins it, or one that none joins. -/
theorem mem_updateFrom {a : α} (h : a ∈ updateFrom source joins set rows) :
    (∃ r ∈ rows, ∃ b ∈ source, joins r b = true ∧ a = set r b) ∨
      (a ∈ rows ∧ ∀ b ∈ source, joins a b = false) := by
  obtain ⟨r, hr, rfl⟩ := List.mem_map.mp h
  cases hfind : source.find? (joins r) with
  | none => exact .inr ⟨by simpa [hfind] using hr, by simpa [hfind] using List.find?_eq_none.mp hfind⟩
  | some b =>
      refine .inl ⟨r, hr, b, List.mem_of_find?_eq_some hfind, List.find?_some hfind, rfl⟩

end Updates

/-! ## Checks -/

/-- A check and the error it aborts with. -/
structure Check (ε : Type*) where
  passes : Bool
  error : ε

section Checks
variable {ε : Type*} {checks : List (Check ε)}

/-- Abort with the error of the first check that fails. -/
def requireAll : List (Check ε) → Except ε Unit
  | [] => .ok ()
  | c :: cs => if c.passes then requireAll cs else .error c.error

/-- All checks pass, or one of them aborts. -/
theorem requireAll_cases (checks : List (Check ε)) :
    (requireAll checks = .ok () ∧ ∀ c ∈ checks, c.passes = true) ∨
      ∃ c ∈ checks, c.passes = false ∧ requireAll checks = .error c.error := by
  induction checks with
  | nil => exact .inl ⟨rfl, by simp⟩
  | cons c cs ih =>
      cases hc : c.passes with
      | false => exact .inr ⟨c, List.mem_cons_self, hc, by simp [requireAll, hc]⟩
      | true =>
          rcases ih with ⟨hok, hall⟩ | ⟨c', hmem, hfail, herror⟩
          · exact .inl ⟨by simp [requireAll, hc, hok], by simpa [hc] using hall⟩
          · exact .inr ⟨c', List.mem_cons_of_mem c hmem, hfail, by simp [requireAll, hc, herror]⟩

theorem requireAll_eq_ok : requireAll checks = .ok () ↔ ∀ c ∈ checks, c.passes = true := by
  rcases requireAll_cases checks with ⟨hok, hall⟩ | ⟨c, hmem, hfail, herror⟩
  · exact ⟨fun _ => hall, fun _ => hok⟩
  · constructor
    · intro h
      rw [herror] at h
      cases h
    · intro h
      rw [h c hmem] at hfail
      cases hfail

end Checks

end Relational
