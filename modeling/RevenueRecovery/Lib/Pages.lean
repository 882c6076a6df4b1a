import Mathlib.Data.List.Nodup
import Mathlib.Data.List.Pairwise
import Mathlib.Data.List.Perm.Basic
import Mathlib.Data.List.Sort

/-!
# Pages of a sorted listing

A listing is read page by page, each page with a query of its own that sorts the rows by a key
and may return those of one key in any order. The pages have every row once, whatever the
queries return, exactly when no two rows of one key are the last of a page and the first of the
next (`complete_iff`).

## Main definitions
* `Arranges` : an order in which a query may return the rows.
* `page`, `read` : a page, and the pages of one query each.
* `Complete` : every row is read once.
* `Separated` : no key goes over the end of a page.
-/
namespace Pages

variable {α κ : Type*} [LinearOrder κ] {key : α → κ} {rows l l' : List α} {limit : ℕ}

/-- `ORDER BY key DESC` may return the rows in this order. -/
structure Arranges (key : α → κ) (rows result : List α) : Prop where
  perm : result.Perm rows
  sorted : result.Pairwise fun a b => key b ≤ key a

/-- `OFFSET k * limit LIMIT limit`. -/
def page (limit k : ℕ) (result : List α) : List α := (result.drop (k * limit)).take limit

/-- The first pages, each of the result of its own query. -/
def read (limit count : ℕ) (results : ℕ → List α) : List α :=
  (List.range count).flatMap fun k => page limit k (results k)

/-- However the queries arrange the rows, their pages have every row once. -/
def Complete (key : α → κ) (limit : ℕ) (rows : List α) : Prop :=
  ∀ results : ℕ → List α, (∀ k, Arranges key rows (results k)) →
    ∀ count, rows.length ≤ count * limit → (read limit count results).Perm rows

/-- The keys from the largest to the smallest. -/
def sortedKeys (key : α → κ) (rows : List α) : List κ := (rows.map key).insertionSort (· ≥ ·)

/-- The last row of a page and the first of the next have different keys. -/
def Separated (key : α → κ) (limit : ℕ) (rows : List α) : Prop :=
  ∀ k, 0 < k → k * limit < rows.length →
    (sortedKeys key rows)[k * limit - 1]? ≠ (sortedKeys key rows)[k * limit]?

/-! ## Arrangements -/

theorem exists_arranges (key : α → κ) (rows : List α) : ∃ l, Arranges key rows l :=
  ⟨rows.insertionSort fun a b => key b ≤ key a, List.perm_insertionSort _ _,
    List.pairwise_insertionSort _ _⟩

/-- The keys are in one order in all arrangements. -/
theorem Arranges.keys (h : Arranges key rows l) : l.map key = sortedKeys key rows := by
  refine List.Perm.eq_of_pairwise' (r := (· ≥ ·)) (List.pairwise_map.mpr h.sorted)
    (List.pairwise_insertionSort _ _) ?_
  exact (h.perm.map key).trans (List.perm_insertionSort _ _).symm

/-- The rows before the first of a key are those of larger keys. -/
theorem Arranges.take_eq_filter (h : Arranges key rows l) {p : ℕ} (hpos : 0 < p)
    (hpred : p - 1 < l.length) (hp : p < l.length) (hne : key l[p - 1] ≠ key l[p]) :
    l.take p = l.filter fun a => key l[p] < key a := by
  have hsorted : ∀ {i j : ℕ} (hi : i < l.length) (hj : j < l.length), i ≤ j →
      key l[j] ≤ key l[i] := by
    intro i j hi hj hij
    rcases Nat.eq_or_lt_of_le hij with rfl | hlt
    · exact le_rfl
    · exact List.pairwise_iff_getElem.mp h.sorted i j hi hj hlt
  have hfront : ∀ a ∈ l.take p, key l[p] < key a := by
    intro a ha
    obtain ⟨i, hi, rfl⟩ := List.mem_iff_getElem.mp ha
    rw [List.length_take] at hi
    rw [List.getElem_take]
    have hlast : key l[p] < key l[p - 1] :=
      lt_of_le_of_ne (hsorted _ _ (by omega)) hne.symm
    exact hlast.trans_le (hsorted _ _ (by omega))
  have hback : ∀ a ∈ l.drop p, ¬ key l[p] < key a := by
    intro a ha
    obtain ⟨i, hi, rfl⟩ := List.mem_iff_getElem.mp ha
    rw [List.length_drop] at hi
    rw [List.getElem_drop]
    exact not_lt.mpr (hsorted hp _ (by omega))
  calc l.take p = (l.take p).filter (fun a => key l[p] < key a) ++
        (l.drop p).filter (fun a => key l[p] < key a) := by
        rw [List.filter_eq_self.mpr fun a ha => decide_eq_true (hfront a ha),
          List.filter_eq_nil_iff.mpr fun a ha hlt => hback a ha (of_decide_eq_true hlt),
          List.append_nil]
    _ = l.filter fun a => key l[p] < key a := by
        rw [← List.filter_append, List.take_append_drop]

/-- Up to a place where the key changes, all arrangements have the same rows. -/
theorem Arranges.take_perm (h : Arranges key rows l) (h' : Arranges key rows l') {p : ℕ}
    (hp : 0 < p → p < rows.length →
      (sortedKeys key rows)[p - 1]? ≠ (sortedKeys key rows)[p]?) :
    (l.take p).Perm (l'.take p) := by
  rcases Nat.eq_zero_or_pos p with rfl | hpos
  · exact .refl _
  rcases Nat.lt_or_ge p rows.length with hlt | hge
  · have hlength := h.perm.length_eq
    have hlength' := h'.perm.length_eq
    have hkey : ∀ {l : List α}, Arranges key rows l → ∀ {i : ℕ} (hi : i < l.length),
        (sortedKeys key rows)[i]? = some (key l[i]) := by
      intro l h i hi
      rw [← h.keys, List.getElem?_map, List.getElem?_eq_getElem hi, Option.map_some]
    have hin : p < l.length := by omega
    have hin' : p < l'.length := by omega
    have hsame : key l[p] = key l'[p] :=
      Option.some.inj ((hkey h hin).symm.trans (hkey h' hin'))
    have hne : ∀ {l : List α}, Arranges key rows l → ∀ (hpred : p - 1 < l.length)
        (hin : p < l.length), key l[p - 1] ≠ key l[p] := by
      intro l h hpred hin heq
      refine hp hpos hlt ?_
      rw [hkey h hpred, hkey h hin, heq]
    rw [h.take_eq_filter hpos (by omega) hin (hne h (by omega) hin),
      h'.take_eq_filter hpos (by omega) hin' (hne h' (by omega) hin'), hsame]
    exact (h.perm.trans h'.perm.symm).filter _
  · rw [List.take_of_length_le (h.perm.length_eq.trans_le hge),
      List.take_of_length_le (h'.perm.length_eq.trans_le hge)]
    exact h.perm.trans h'.perm.symm

/-! ## Pages -/

theorem take_succ_page (l : List α) (limit k : ℕ) :
    l.take ((k + 1) * limit) = l.take (k * limit) ++ page limit k l := by
  rw [Nat.succ_mul, List.take_add, page]

/-- The pages of one result are its rows. -/
theorem read_const (l : List α) (limit count : ℕ) :
    read limit count (fun _ => l) = l.take (count * limit) := by
  induction count with
  | zero => simp [read]
  | succ count ih =>
      rw [take_succ_page, ← ih, read, read, List.range_succ, List.flatMap_append,
        List.flatMap_singleton]

theorem getElem_mem_page {k i : ℕ} (hi : i < l.length) (hle : k * limit ≤ i)
    (hlt : i < (k + 1) * limit) : l[i] ∈ page limit k l := by
  rw [Nat.succ_mul] at hlt
  refine List.mem_iff_getElem.mpr ⟨i - k * limit, ?_, ?_⟩
  · rw [page, List.length_take, List.length_drop]
    omega
  · simp only [page, List.getElem_take, List.getElem_drop, Nat.add_sub_cancel' hle]

/-- A page has the same rows in all arrangements. -/
theorem Separated.page_perm (hsep : Separated key limit rows) (h : Arranges key rows l)
    (h' : Arranges key rows l') (k : ℕ) : (page limit k l).Perm (page limit k l') := by
  have htake : ∀ k, (l.take (k * limit)).Perm (l'.take (k * limit)) := by
    intro k
    refine h.take_perm h' fun hpos hlt => hsep k ?_ hlt
    exact Nat.pos_of_mul_pos_right hpos
  have hnext := htake (k + 1)
  rw [take_succ_page, take_succ_page] at hnext
  exact (List.perm_append_left_iff _).mp
    (hnext.trans ((htake k).symm.append_right (page limit k l')))

theorem Separated.complete (hsep : Separated key limit rows) : Complete key limit rows := by
  intro results hresults count hcount
  obtain ⟨l, hl⟩ := exists_arranges key rows
  have hread : (read limit count results).Perm (read limit count fun _ => l) :=
    List.Perm.flatMap_left _ fun k _ => hsep.page_perm (hresults k) hl k
  rw [read_const, List.take_of_length_le (hl.perm.length_eq.trans_le hcount)] at hread
  exact hread.trans hl.perm

/-- Rows of one key on two pages: the next query may return the other one first. -/
theorem Complete.separated (hlimit : 0 < limit) (hnodup : rows.Nodup)
    (h : Complete key limit rows) : Separated key limit rows := by
  intro k hk hlt hsame
  obtain ⟨l, hl⟩ := exists_arranges key rows
  have hlength := hl.perm.length_eq
  have hpos : 0 < k * limit := Nat.mul_pos hk hlimit
  obtain ⟨p, hp⟩ : ∃ p, k * limit = p + 1 := ⟨k * limit - 1, by omega⟩
  have hbound : p + 1 < l.length := by omega
  have hkey : key l[p] = key l[p + 1] := by
    rw [← hl.keys, hp, List.getElem?_map, List.getElem?_map, Nat.add_sub_cancel,
      List.getElem?_eq_getElem (by omega), List.getElem?_eq_getElem hbound] at hsame
    exact Option.some.inj hsame
  have hsplit : l = l.take p ++ l[p] :: l[p + 1] :: l.drop (p + 2) := by
    rw [← List.drop_eq_getElem_cons hbound, ← List.drop_eq_getElem_cons (by omega),
      List.take_append_drop]
  -- the query of page `k` returns the two rows the other way round
  let swapped := l.take p ++ l[p + 1] :: l[p] :: l.drop (p + 2)
  have hswapped : Arranges key rows swapped := by
    refine ⟨?_, ?_⟩
    · refine List.Perm.trans ?_ hl.perm
      conv_rhs => rw [hsplit]
      exact (List.Perm.swap _ _ _).append_left _
    · have hsorted := hl.sorted
      rw [hsplit] at hsorted
      simp only [List.pairwise_append, List.pairwise_cons, List.mem_cons, forall_eq_or_imp] at hsorted
      simp only [swapped, List.pairwise_append, List.pairwise_cons, List.mem_cons, forall_eq_or_imp]
      obtain ⟨hfront, ⟨⟨-, hfirst⟩, hsecond, hback⟩, hcross⟩ := hsorted
      refine ⟨hfront, ⟨⟨hkey.le, hsecond⟩, hfirst, hback⟩, fun a ha => ?_⟩
      exact ⟨(hcross a ha).2.1, (hcross a ha).1, (hcross a ha).2.2⟩
  let results (j : ℕ) : List α := if j = k then swapped else l
  have hresults : ∀ j, Arranges key rows (results j) := by
    intro j
    by_cases hj : j = k
    · simpa [results, hj] using hswapped
    · simpa [results, hj] using hl
  have hcount : rows.length ≤ rows.length * limit := Nat.le_mul_of_pos_right _ hlimit
  have hread := (h results hresults rows.length hcount).nodup_iff.mpr hnodup
  have hdisjoint := (List.nodup_flatMap.mp hread).2
  have hkcount : k < rows.length := lt_of_le_of_lt (Nat.le_mul_of_pos_right k hlimit) hlt
  have hfirst : l[p] ∈ page limit (k - 1) (results (k - 1)) := by
    rw [show results (k - 1) = l from if_neg (by omega)]
    obtain ⟨j, rfl⟩ : ∃ j, k = j + 1 := ⟨k - 1, by omega⟩
    rw [Nat.succ_mul] at hp
    refine getElem_mem_page (by omega) ?_ ?_
    · rw [Nat.add_sub_cancel]
      omega
    · rw [Nat.add_sub_cancel, Nat.succ_mul]
      omega
  have hsecond : l[p] ∈ page limit k (results k) := by
    rw [show results k = swapped from if_pos rfl]
    have hdrop : swapped.drop (k * limit) = l[p] :: l.drop (p + 2) := by
      have hassoc : swapped = (l.take p ++ [l[p + 1]]) ++ l[p] :: l.drop (p + 2) := by
        simp [swapped]
      rw [hassoc, List.drop_left']
      rw [List.length_append, List.length_take, List.length_singleton]
      omega
    obtain ⟨n, rfl⟩ : ∃ n, limit = n + 1 := ⟨limit - 1, by omega⟩
    rw [page, hdrop, List.take_succ_cons]
    exact List.mem_cons_self
  have hmem : ∀ j, j < rows.length → j ∈ List.range rows.length := fun j => List.mem_range.mpr
  have hsymm : Std.Symm (Function.onFun List.Disjoint fun j => page limit j (results j)) :=
    ⟨fun _ _ hij _ ha hb => hij hb ha⟩
  exact hdisjoint.forall (hmem (k - 1) (by omega)) (hmem k hkcount) (by omega) hfirst hsecond

/-- The pages have every row once exactly when no key goes over the end of a page. -/
theorem complete_iff (hlimit : 0 < limit) (hnodup : rows.Nodup) :
    Complete key limit rows ↔ Separated key limit rows :=
  ⟨Complete.separated hlimit hnodup, Separated.complete⟩

end Pages
