import Mathlib.Data.List.Sort
import Mathlib.Data.List.Dedup
import Mathlib.Data.List.Nodup
import Mathlib.Order.Basic

/-!
# Queries over append-order tables

A table is the list of its rows. The order in which a query returns rows it does
not sort is not specified, so it is a parameter: `scan order` lists the rows by
an arbitrary rank of their positions. `latestBy` and `earliestBy` are the
`ORDER BY key LIMIT 1` queries, which among rows with equal keys return the one
scanned first; `maxOf` is `MAX` with the empty maximum read as `0`.

## Main definitions
* `scan` : the rows in an arbitrary physical order.
* `latestBy`, `earliestBy` : the first row with the largest, smallest key.
* `maxOf` : the largest value of a column.
* `upsert` : insert, or merge into the row with the same key.
* `latestPerGroup` : one row for each group, the one of the highest version.
* `Numbered` : the rows are numbered from `1` in the order they were appended.
-/
namespace Table

variable {α κ : Type*}

/-- The rows of a table in the order given by the ranks of their positions. -/
def scan (order : ℕ → ℕ) (rows : List α) : List α :=
  (rows.zipIdx.insertionSort fun a b => order a.2 ≤ order b.2).map Prod.fst

theorem scan_perm (order : ℕ → ℕ) (rows : List α) : (scan order rows).Perm rows := by
  have h := (List.perm_insertionSort (fun a b : α × ℕ => order a.2 ≤ order b.2)
    rows.zipIdx).map Prod.fst
  simpa [scan] using h

@[simp] theorem mem_scan {order : ℕ → ℕ} {rows : List α} {a : α} :
    a ∈ scan order rows ↔ a ∈ rows := (scan_perm order rows).mem_iff

@[simp] theorem scan_eq_nil {order : ℕ → ℕ} {rows : List α} :
    scan order rows = [] ↔ rows = [] :=
  ⟨fun h => by simpa [h] using (scan_perm order rows).symm, fun h => by subst h; rfl⟩

/-- Some physical order returns a given row first. -/
theorem exists_scan_cons {rows : List α} {a : α} (ha : a ∈ rows) :
    ∃ order rest, scan order rows = a :: rest := by
  obtain ⟨i, hi, rfl⟩ := List.mem_iff_getElem.mp ha
  let order : ℕ → ℕ := fun j => if j = i then 0 else 1
  have hmem : (rows[i], i) ∈ rows.zipIdx := by
    rw [List.mem_zipIdx_iff_getElem?]
    exact List.getElem?_eq_getElem hi
  have hsorted : (rows.zipIdx.insertionSort fun a b => order a.2 ≤ order b.2).Pairwise
      fun a b => order a.2 ≤ order b.2 :=
    List.pairwise_insertionSort _ _
  refine ⟨order, ?_⟩
  cases hsort : rows.zipIdx.insertionSort fun a b => order a.2 ≤ order b.2 with
  | nil =>
      have := (List.perm_insertionSort (fun a b : α × ℕ => order a.2 ≤ order b.2)
        rows.zipIdx).mem_iff.mpr hmem
      rw [hsort] at this
      exact absurd this List.not_mem_nil
  | cons b rest =>
      refine ⟨rest.map Prod.fst, ?_⟩
      have hin := (List.perm_insertionSort (fun a b : α × ℕ => order a.2 ≤ order b.2)
        rows.zipIdx).mem_iff.mpr hmem
      have hb : b ∈ rows.zipIdx := (List.perm_insertionSort
        (fun a b : α × ℕ => order a.2 ≤ order b.2) rows.zipIdx).mem_iff.mp
          (hsort ▸ List.mem_cons_self)
      rw [hsort] at hin hsorted
      have hle : order b.2 ≤ order i := by
        rcases List.mem_cons.mp hin with heq | hrest
        · rw [← heq]
        · exact List.rel_of_pairwise_cons hsorted hrest
      have hbi : b.2 = i := by
        by_contra hne
        simp [order, hne] at hle
      rw [List.mem_zipIdx_iff_getElem?, hbi, List.getElem?_eq_getElem hi] at hb
      rw [scan, hsort, List.map_cons, Option.some.inj hb]

section Order
variable [LinearOrder κ]

/-- The first row whose key is largest: `ORDER BY key DESC LIMIT 1`. -/
def latestBy (key : α → κ) : List α → Option α
  | [] => none
  | a :: rows =>
      match latestBy key rows with
      | none => some a
      | some b => if key a < key b then some b else some a

/-- The first row whose key is smallest: `ORDER BY key ASC LIMIT 1`. -/
def earliestBy (key : α → κ) : List α → Option α
  | [] => none
  | a :: rows =>
      match earliestBy key rows with
      | none => some a
      | some b => if key b < key a then some b else some a

/-- `latestBy` finds a row of the table that no other row exceeds. -/
theorem latestBy_spec {key : α → κ} {rows : List α} {a : α}
    (h : latestBy key rows = some a) : a ∈ rows ∧ ∀ b ∈ rows, key b ≤ key a := by
  induction rows generalizing a with
  | nil => simp [latestBy] at h
  | cons x rows ih =>
      rw [latestBy] at h
      cases hb : latestBy key rows with
      | none =>
          rw [hb] at h
          obtain rfl : x = a := by simpa using h
          have hnil : rows = [] := by
            cases rows with
            | nil => rfl
            | cons y ys =>
                rw [latestBy] at hb
                split at hb
                · cases hb
                · split at hb <;> cases hb
          simp [hnil]
      | some b =>
          rw [hb] at h
          obtain ⟨hmem, hmax⟩ := ih hb
          by_cases hlt : key x < key b
          · obtain rfl : b = a := by simpa [hlt] using h
            exact ⟨List.mem_cons_of_mem _ hmem, by simpa [hlt.le] using hmax⟩
          · obtain rfl : x = a := by simpa [hlt] using h
            refine ⟨List.mem_cons_self, ?_⟩
            intro y hy
            rcases List.mem_cons.mp hy with rfl | hy
            · exact le_rfl
            · exact (hmax y hy).trans (not_lt.mp hlt)

theorem latestBy_mem {key : α → κ} {rows : List α} {a : α}
    (h : latestBy key rows = some a) : a ∈ rows := (latestBy_spec h).1

theorem latestBy_max {key : α → κ} {rows : List α} {a b : α}
    (h : latestBy key rows = some a) (hb : b ∈ rows) : key b ≤ key a := (latestBy_spec h).2 b hb

@[simp] theorem latestBy_eq_none {key : α → κ} {rows : List α} :
    latestBy key rows = none ↔ rows = [] := by
  cases rows with
  | nil => simp [latestBy]
  | cons a rows =>
      rw [latestBy]
      split
      · simp
      · split <;> simp

/-- A row scanned first whose key is largest is the latest one. -/
theorem latestBy_cons_of_max {key : α → κ} {rows : List α} {a : α}
    (hmax : ∀ b ∈ rows, key b ≤ key a) : latestBy key (a :: rows) = some a := by
  rw [latestBy]
  split
  · rfl
  · rename_i b hb
    rw [if_neg (not_lt.mpr (hmax b (latestBy_mem hb)))]

/-- A row above all others is the latest wherever it stands. -/
theorem latestBy_append_max {key : α → κ} {rows : List α} {a : α}
    (h : ∀ b ∈ rows, key b < key a) : latestBy key (rows ++ [a]) = some a := by
  cases hb : latestBy key (rows ++ [a]) with
  | none => simp at hb
  | some b =>
      obtain ⟨hmem, hmax⟩ := latestBy_spec hb
      rcases List.mem_append.mp hmem with hrow | hlast
      · exact absurd (hmax a (by simp)) (not_le.mpr (h b hrow))
      · rw [List.mem_singleton.mp hlast]

/-- The latest row depends on the set of rows only, when no two have one key. -/
theorem latestBy_congr {key : α → κ} {rows rows' : List α} (hmem : ∀ a, a ∈ rows ↔ a ∈ rows')
    (hunique : ∀ a ∈ rows, ∀ b ∈ rows, key a = key b → a = b) :
    latestBy key rows = latestBy key rows' := by
  cases h : latestBy key rows with
  | none =>
      obtain rfl := latestBy_eq_none.mp h
      refine (latestBy_eq_none.mpr (List.eq_nil_iff_forall_not_mem.mpr fun a ha => ?_)).symm
      exact absurd ((hmem a).mpr ha) (by simp)
  | some a =>
      cases h' : latestBy key rows' with
      | none =>
          obtain rfl := latestBy_eq_none.mp h'
          exact absurd ((hmem a).mp (latestBy_mem h)) (by simp)
      | some b =>
          have hb : b ∈ rows := (hmem b).mpr (latestBy_mem h')
          have hab : key a = key b := le_antisymm
            (latestBy_max h' ((hmem a).mp (latestBy_mem h))) (latestBy_max h hb)
          rw [hunique a (latestBy_mem h) b hb hab]

/-- `earliestBy` finds a row of the table that exceeds no other row. -/
theorem earliestBy_spec {key : α → κ} {rows : List α} {a : α}
    (h : earliestBy key rows = some a) : a ∈ rows ∧ ∀ b ∈ rows, key a ≤ key b := by
  have hdual : ∀ rs : List α, earliestBy key rs = latestBy (fun r => OrderDual.toDual (key r)) rs := by
    intro rs
    induction rs with
    | nil => rfl
    | cons x rs ih => rw [earliestBy, latestBy, ih]; rfl
  rw [hdual] at h
  exact latestBy_spec h

theorem earliestBy_mem {key : α → κ} {rows : List α} {a : α}
    (h : earliestBy key rows = some a) : a ∈ rows := (earliestBy_spec h).1

@[simp] theorem earliestBy_eq_none {key : α → κ} {rows : List α} :
    earliestBy key rows = none ↔ rows = [] := by
  cases rows with
  | nil => simp [earliestBy]
  | cons a rows =>
      rw [earliestBy]
      split
      · simp
      · split <;> simp

/-- A row scanned first whose key is smallest is the earliest one. -/
theorem earliestBy_cons_of_min {key : α → κ} {rows : List α} {a : α}
    (hmin : ∀ b ∈ rows, key a ≤ key b) : earliestBy key (a :: rows) = some a := by
  rw [earliestBy]
  split
  · rfl
  · rename_i b hb
    rw [if_neg (not_lt.mpr (hmin b (earliestBy_mem hb)))]

end Order

/-- The largest value of a column; `0` for an empty table. -/
def maxOf (col : α → ℕ) (rows : List α) : ℕ := rows.foldr (fun a m => max (col a) m) 0

@[simp] theorem maxOf_nil (col : α → ℕ) : maxOf col [] = 0 := rfl

@[simp] theorem maxOf_cons (col : α → ℕ) (a : α) (rows : List α) :
    maxOf col (a :: rows) = max (col a) (maxOf col rows) := rfl

theorem le_maxOf {col : α → ℕ} {rows : List α} {a : α} (h : a ∈ rows) :
    col a ≤ maxOf col rows := by
  induction rows with
  | nil => simp at h
  | cons b rows ih =>
      rcases List.mem_cons.mp h with rfl | h
      · exact le_max_left _ _
      · exact (ih h).trans (le_max_right _ _)

theorem maxOf_le {col : α → ℕ} {rows : List α} {n : ℕ} (h : ∀ a ∈ rows, col a ≤ n) :
    maxOf col rows ≤ n := by
  induction rows with
  | nil => exact Nat.zero_le n
  | cons a rows ih =>
      rw [maxOf_cons]
      exact max_le (h a List.mem_cons_self) (ih fun b hb => h b (List.mem_cons_of_mem _ hb))

/-- The version after the largest one is new. -/
theorem maxOf_succ_fresh {col : α → ℕ} {rows : List α} {a : α} (h : a ∈ rows) :
    col a ≠ maxOf col rows + 1 := by
  have : col a ≤ maxOf col rows := le_maxOf h
  omega

section Keyed
variable [DecidableEq κ]

/-- Insert a row, or merge it into the row that already has its key. -/
def upsert (key : α → κ) (merge : α → α → α) (new : α) (rows : List α) : List α :=
  if rows.any fun r => key r = key new then
    rows.map fun r => if key r = key new then merge r new else r
  else rows ++ [new]

section Upsert
variable {key : α → κ} {merge : α → α → α} {new : α} {rows : List α}

/-- Upserting keeps the rows of other keys and leaves one row of the new key, provided
merging into a row of that key yields the new row. -/
theorem mem_upsert (hmerge : ∀ r ∈ rows, key r = key new → merge r new = new) {x : α} :
    x ∈ upsert key merge new rows ↔ x = new ∨ (x ∈ rows ∧ key x ≠ key new) := by
  unfold upsert
  split
  · rename_i hany
    obtain ⟨r, hr, hkey⟩ := List.any_eq_true.mp hany
    simp only [decide_eq_true_eq] at hkey
    rw [List.mem_map]
    constructor
    · rintro ⟨y, hy, rfl⟩
      by_cases hk : key y = key new
      · left; rw [if_pos hk, hmerge y hy hk]
      · right; rw [if_neg hk]; exact ⟨hy, hk⟩
    · rintro (rfl | ⟨hx, hne⟩)
      · exact ⟨r, hr, by rw [if_pos hkey, hmerge r hr hkey]⟩
      · exact ⟨x, hx, if_neg hne⟩
  · rename_i hany
    have hfresh : ∀ r ∈ rows, key r ≠ key new := by
      intro r hr hk
      exact hany (List.any_eq_true.mpr ⟨r, hr, by simpa using hk⟩)
    rw [List.mem_append, List.mem_singleton]
    constructor
    · rintro (hx | hx)
      · exact .inr ⟨hx, hfresh x hx⟩
      · exact .inl hx
    · rintro (hx | ⟨hx, -⟩)
      · exact .inr hx
      · exact .inl hx

/-- Keys stay unique when merging keeps the key. -/
theorem nodup_upsert (hmerge : ∀ r ∈ rows, key r = key new → key (merge r new) = key new)
    (h : (rows.map key).Nodup) : ((upsert key merge new rows).map key).Nodup := by
  unfold upsert
  split
  · have hsame : (rows.map fun r => if key r = key new then merge r new else r).map key =
        rows.map key := by
      rw [List.map_map]
      refine List.map_congr_left fun r hr => ?_
      by_cases hk : key r = key new
      · simp [hk, hmerge r hr hk]
      · simp [hk]
    rw [hsame]
    exact h
  · rename_i hany
    rw [List.map_append, List.nodup_append]
    refine ⟨h, by simp, ?_⟩
    intro a ha b hb
    obtain ⟨r, hr, rfl⟩ := List.mem_map.mp ha
    obtain rfl : b = key new := by simpa using hb
    intro hk
    exact hany (List.any_eq_true.mpr ⟨r, hr, by simpa using hk⟩)

/-- Upserting rows of distinct keys, each replacing the row of its key, stores exactly these
and keeps the rows of other keys. -/
theorem mem_foldl_upsert {news : List α} (hnodup : (news.map key).Nodup) {x : α} :
    x ∈ news.foldl (fun rows new => upsert key (fun _ new => new) new rows) rows ↔
      x ∈ news ∨ (x ∈ rows ∧ key x ∉ news.map key) := by
  induction news generalizing rows with
  | nil => simp
  | cons new news ih =>
      rw [List.map_cons] at hnodup
      obtain ⟨hfresh, hnodup⟩ := List.nodup_cons.mp hnodup
      rw [List.foldl_cons, ih hnodup, mem_upsert fun _ _ _ => rfl]
      simp only [List.mem_cons, List.map_cons, not_or]
      constructor
      · rintro (hx | ⟨rfl | ⟨hx, hne⟩, hnot⟩)
        · exact .inl (.inr hx)
        · exact .inl (.inl rfl)
        · exact .inr ⟨hx, hne, hnot⟩
      · rintro ((rfl | hx) | ⟨hx, hne, hnot⟩)
        · exact .inr ⟨.inl rfl, hfresh⟩
        · exact .inl hx
        · exact .inr ⟨.inr ⟨hx, hne⟩, hnot⟩

/-- Upserting leaves a selection alone that neither the new row, nor a row of its key, nor
the row they are merged into belongs to. -/
theorem filter_upsert {p : α → Bool} (hnew : p new = false)
    (hmerge : ∀ r ∈ rows, key r = key new → p r = false ∧ p (merge r new) = false) :
    (upsert key merge new rows).filter p = rows.filter p := by
  unfold upsert
  split
  · rename_i hany
    clear hany
    have hrow : ∀ r ∈ rows, p (if key r = key new then merge r new else r) = p r ∧
        (p r = true → (if key r = key new then merge r new else r) = r) := by
      intro r hr
      by_cases hk : key r = key new
      · obtain ⟨hr', hm⟩ := hmerge r hr hk
        simp [hk, hr', hm]
      · simp [hk]
    clear hmerge
    induction rows with
    | nil => rfl
    | cons r rows ih =>
        obtain ⟨⟨hp, hsame⟩, hrows⟩ := List.forall_mem_cons.mp hrow
        rw [List.map_cons, List.filter_cons, List.filter_cons, hp]
        split
        · rename_i hpr
          rw [hsame hpr, ih hrows]
        · exact ih hrows
  · simp [hnew]

end Upsert

/-- One row for each group, in the order of the groups: the row of the highest version. -/
def latestPerGroup {γ : Type*} [LinearOrder γ] (group : α → γ) (version : α → ℕ)
    (rows : List α) : List α :=
  ((rows.map group).dedup.insertionSort (· ≤ ·)).filterMap fun g =>
    latestBy version (rows.filter fun r => group r = g)

end Keyed

/-! ## Parts of a table -/

section Parts
variable {p q : α → Bool} {rows : List α}

/-- A query that selects rows of a part of the table selects the same rows from the part. -/
theorem filter_filter_of_imp (h : ∀ a ∈ rows, q a = true → p a = true) :
    (rows.filter p).filter q = rows.filter q := by
  rw [List.filter_filter]
  refine List.filter_congr fun a ha => ?_
  cases hq : q a with
  | false => rfl
  | true => rw [h a ha hq]; rfl

theorem find?_filter_of_imp (h : ∀ a ∈ rows, q a = true → p a = true) :
    (rows.filter p).find? q = rows.find? q := by
  rw [← List.head?_filter, ← List.head?_filter, filter_filter_of_imp h]

theorem any_filter_of_imp (h : ∀ a ∈ rows, q a = true → p a = true) :
    (rows.filter p).any q = rows.any q := by
  rw [Bool.eq_iff_iff, List.any_eq_true, List.any_eq_true]
  constructor
  · rintro ⟨a, ha, hq⟩
    exact ⟨a, (List.mem_filter.mp ha).1, hq⟩
  · rintro ⟨a, ha, hq⟩
    exact ⟨a, List.mem_filter.mpr ⟨ha, h a ha hq⟩, hq⟩

end Parts

/-! ## Grouped rows -/

section SortedKeys
variable {κ β : Type*} [LinearOrder κ]

/-- The distinct keys of a list in increasing order. -/
theorem sortedKeys_pairwise (keys : List κ) :
    (keys.dedup.insertionSort (· ≤ ·)).Pairwise (· < ·) := by
  have hle : (keys.dedup.insertionSort (· ≤ ·)).Pairwise (· ≤ ·) :=
    List.pairwise_insertionSort _ _
  have hne : (keys.dedup.insertionSort (· ≤ ·)).Pairwise (· ≠ ·) :=
    (List.perm_insertionSort _ _).nodup_iff.mpr (List.nodup_dedup _)
  exact (hle.and hne).imp fun h => lt_of_le_of_ne h.1 h.2

/-- Two increasing lists of keys yield the same rows when they have the same keys among
those that yield one. -/
theorem filterMap_sorted_congr {keys keys' : List κ} (hkeys : keys.Pairwise (· < ·))
    (hkeys' : keys'.Pairwise (· < ·)) {f : κ → Option β}
    (h : ∀ k, (f k).isSome → (k ∈ keys ↔ k ∈ keys')) :
    keys.filterMap f = keys'.filterMap f := by
  have hfilter : keys.filter (fun k => (f k).isSome) = keys'.filter (fun k => (f k).isSome) := by
    have hsorted := hkeys.filter fun k => (f k).isSome
    have hsorted' := hkeys'.filter fun k => (f k).isSome
    refine List.Perm.eq_of_pairwise (fun a b _ _ hab hba => absurd hab (lt_asymm hba)) hsorted
      hsorted' ?_
    refine (List.perm_ext_iff_of_nodup (hsorted.imp ne_of_lt) (hsorted'.imp ne_of_lt)).mpr
      fun k => ?_
    simp only [List.mem_filter]
    exact and_congr_left fun hk => h k hk
  have hsome : ∀ l : List κ, (l.filter fun k => (f k).isSome).filterMap f = l.filterMap f := by
    intro l
    rw [List.filterMap_filter]
    refine List.filterMap_congr fun k _ => ?_
    cases f k <;> rfl
  rw [← hsome keys, ← hsome keys', hfilter]

end SortedKeys

/-- When the blocks of a list carry distinct tags, the rows of one tag are its block. -/
theorem filter_flatMap_block {ι β τ : Type*} [DecidableEq τ] {is : List ι} {block : ι → List β}
    {tag : ι → τ} {tagOf : β → τ} (hnodup : (is.map tag).Nodup)
    (htag : ∀ i ∈ is, ∀ b ∈ block i, tagOf b = tag i) {i : ι} (hi : i ∈ is) :
    (is.flatMap block).filter (fun b => tagOf b = tag i) = block i := by
  induction is with
  | nil => cases hi
  | cons j is ih =>
      obtain ⟨hj, hnodup⟩ := List.nodup_cons.mp hnodup
      have hrest := ih hnodup fun k hk => htag k (List.mem_cons_of_mem _ hk)
      rw [List.flatMap_cons, List.filter_append]
      rcases List.mem_cons.mp hi with rfl | hi
      · have hself : (block i).filter (fun b => tagOf b = tag i) = block i :=
          List.filter_eq_self.mpr fun b hb => by simpa using htag i List.mem_cons_self b hb
        have hothers : (is.flatMap block).filter (fun b => tagOf b = tag i) = [] := by
          refine List.filter_eq_nil_iff.mpr fun b hb => ?_
          obtain ⟨k, hk, hb⟩ := List.mem_flatMap.mp hb
          rw [htag k (List.mem_cons_of_mem _ hk) b hb, decide_eq_true_eq]
          exact fun heq => hj (List.mem_map.mpr ⟨k, hk, heq⟩)
        rw [hself, hothers, List.append_nil]
      · have hnone : (block j).filter (fun b => tagOf b = tag i) = [] := by
          refine List.filter_eq_nil_iff.mpr fun b hb => ?_
          rw [htag j List.mem_cons_self b hb, decide_eq_true_eq]
          exact fun heq => hj (List.mem_map.mpr ⟨i, hi, heq.symm⟩)
        rw [hnone, List.nil_append, hrest hi]

/-- A column that tells the rows of each group apart tells all rows apart, with the group. -/
theorem nodup_of_groups {γ β : Type*} [DecidableEq γ] {group : α → γ} {col : α → β}
    {rows : List α} (h : ∀ g, ((rows.filter fun r => group r = g).map col).Nodup) :
    (rows.map fun r => (group r, col r)).Nodup := by
  rw [List.Nodup, List.pairwise_map]
  induction rows with
  | nil => exact .nil
  | cons a rows ih =>
      refine List.pairwise_cons.mpr ⟨fun b hb heq => ?_, ih fun g => ?_⟩
      · obtain ⟨hgroup, hcol⟩ := Prod.mk.inj heq
        have hown := h (group a)
        rw [List.filter_cons_of_pos (by simp), List.map_cons] at hown
        refine (List.nodup_cons.mp hown).1 (hcol ▸ List.mem_map_of_mem ?_)
        exact List.mem_filter.mpr ⟨hb, by simp [hgroup]⟩
      · exact (h g).sublist (((List.sublist_cons_self a rows).filter _).map col)

/-- Rows with distinct keys: those of one key are the first one of it, if there is any. -/
theorem filter_key_eq_find? {β : Type*} [DecidableEq β] {key : α → β} {rows : List α}
    (h : (rows.map key).Nodup) (k : β) :
    (rows.filter fun a => key a = k) = (rows.find? fun a => key a = k).toList := by
  induction rows with
  | nil => rfl
  | cons a rows ih =>
      obtain ⟨ha, hrest⟩ := List.nodup_cons.mp h
      by_cases hk : key a = k
      · have hnone : (rows.filter fun b => key b = k) = [] := by
          refine List.filter_eq_nil_iff.mpr fun b hb hbk => ha ?_
          rw [hk, ← of_decide_eq_true hbk]
          exact List.mem_map_of_mem hb
        simp [hk, hnone]
      · simp [hk, ih hrest]

section PerGroup
variable {γ : Type*} [LinearOrder γ] {group : α → γ} {version : α → ℕ} {rows : List α}

private theorem latest_of_group {g : γ} {a : α}
    (h : latestBy version (rows.filter fun r => group r = g) = some a) :
    a ∈ rows ∧ group a = g := by
  simpa using latestBy_mem h

theorem latestPerGroup_mem {a : α} (h : a ∈ latestPerGroup group version rows) : a ∈ rows := by
  obtain ⟨g, -, hg⟩ := List.mem_filterMap.mp h
  exact (latest_of_group hg).1

/-- The chosen rows are in strictly increasing order of their groups. -/
theorem latestPerGroup_sorted :
    (latestPerGroup group version rows).Pairwise fun a b => group a < group b := by
  refine List.Pairwise.filterMap _ (fun g g' hlt a ha b hb => ?_)
    (sortedKeys_pairwise _)
  rwa [(latest_of_group ha).2, (latest_of_group hb).2]

end PerGroup

/-! ## Append logs -/

/-- The rows are numbered `1, 2, …` in the order they were appended. -/
def Numbered (col : α → ℕ) (rows : List α) : Prop := rows.map col = List.range' 1 rows.length

namespace Numbered
variable {col : α → ℕ} {rows : List α}

theorem nil (col : α → ℕ) : Numbered col [] := rfl

theorem append_iff {more : List α} : Numbered col (rows ++ more) ↔
    Numbered col rows ∧ more.map col = List.range' (rows.length + 1) more.length := by
  have hsplit : List.range' 1 (rows ++ more).length =
      List.range' 1 rows.length ++ List.range' (rows.length + 1) more.length := by
    rw [List.length_append, ← List.range'_append_1, Nat.add_comm 1]
  rw [Numbered, hsplit, List.map_append]
  constructor
  · intro h
    exact List.append_inj h (by simp)
  · rintro ⟨hrows, hmore⟩
    rw [hrows, hmore]

theorem snoc {a : α} (h : Numbered col rows) (ha : col a = rows.length + 1) :
    Numbered col (rows ++ [a]) :=
  append_iff.mpr ⟨h, by simp [ha]⟩

/-- The row after a numbered log has the next number. -/
theorem next {a : α} {more : List α} (h : Numbered col (rows ++ a :: more)) :
    col a = rows.length + 1 := by
  have hmore := (append_iff.mp h).2
  rw [List.map_cons, List.length_cons, List.range'_succ] at hmore
  exact (List.cons.inj hmore).1

theorem mem_range {a : α} (h : Numbered col rows) (ha : a ∈ rows) :
    1 ≤ col a ∧ col a ≤ rows.length := by
  have hmem : col a ∈ List.range' 1 rows.length := h ▸ List.mem_map_of_mem ha
  rw [List.mem_range'_1] at hmem
  omega

/-- Every number up to the length is some row's. -/
theorem exists_row {k : ℕ} (h : Numbered col rows) (hpos : 1 ≤ k) (hk : k ≤ rows.length) :
    ∃ a ∈ rows, col a = k := by
  have hmem : k ∈ rows.map col := by
    rw [h, List.mem_range'_1]
    omega
  exact List.mem_map.mp hmem

theorem nodup (h : Numbered col rows) : (rows.map col).Nodup := by
  rw [h]
  exact List.nodup_range'

/-- A row is determined by its number. -/
theorem eq_of_col {a b : α} (h : Numbered col rows) (ha : a ∈ rows) (hb : b ∈ rows)
    (hab : col a = col b) : a = b :=
  List.inj_on_of_nodup_map h.nodup ha hb hab

/-- The largest number is the length. -/
theorem maxOf_eq (h : Numbered col rows) : maxOf col rows = rows.length := by
  apply le_antisymm
  · refine maxOf_le fun a ha => ?_
    exact (h.mem_range ha).2
  · rcases Nat.eq_zero_or_pos rows.length with hzero | hpos
    · omega
    · obtain ⟨a, ha, hlast⟩ := h.exists_row hpos le_rfl
      exact hlast ▸ le_maxOf ha

/-- The latest row is the last one. -/
theorem latestBy_eq (h : Numbered col rows) : latestBy col rows = rows.getLast? := by
  rcases List.eq_nil_or_concat rows with rfl | ⟨init, a, rfl⟩
  · rfl
  · rw [List.concat_eq_append] at h ⊢
    have hinit : Numbered col init := (append_iff.mp h).1
    have ha : col a = init.length + 1 := h.next
    rw [List.getLast?_append, List.getLast?_singleton, Option.some_or]
    refine latestBy_append_max fun b hb => ?_
    have := (hinit.mem_range hb).2
    omega

/-- A row numbered after what was read earlier is the next one, unless its number is taken. -/
theorem snoc_of_fresh {a : α} {read : List α} (h : Numbered col rows) (hread : read ⊆ rows)
    (ha : col a = maxOf col read + 1) (hfresh : ∀ b ∈ rows, col b ≠ col a) :
    Numbered col (rows ++ [a]) := by
  refine h.snoc ?_
  have hle : maxOf col read ≤ rows.length := by
    refine maxOf_le fun b hb => ?_
    exact (h.mem_range (hread hb)).2
  by_contra hne
  obtain ⟨b, hb, hcol⟩ := h.exists_row (show 1 ≤ col a by omega) (by omega)
  exact hfresh b hb hcol

/-- The number after what was read earlier is taken exactly when some row was not read. -/
theorem taken_iff {read : List α} (h : Numbered col rows) (hreads : Numbered col read)
    (hread : read ⊆ rows) :
    (∃ b ∈ rows, col b = maxOf col read + 1) ↔ ∃ b ∈ rows, b ∉ read := by
  rw [hreads.maxOf_eq]
  constructor
  · rintro ⟨b, hb, hcol⟩
    refine ⟨b, hb, fun hmem => ?_⟩
    have := (hreads.mem_range hmem).2
    omega
  · rintro ⟨b, hb, hnot⟩
    refine h.exists_row (by omega) ?_
    by_contra hlen
    obtain ⟨hpos, hle⟩ := h.mem_range hb
    obtain ⟨c, hc, hcol⟩ := hreads.exists_row hpos (by omega)
    exact hnot (h.eq_of_col (hread hc) hb hcol ▸ hc)

end Numbered

end Table
