import Mathlib.Data.List.Sort
import Mathlib.Tactic.Common

/-!
# Sorting by a comparison function

A comparison answers a number, and its sign counts.  `StableSorted` is what a stable sort may
answer, whatever its algorithm: a rearrangement that no comparison contradicts and that keeps the
order of ties.  Entries are compared with their places in the list, so that two equal values are
still two entries.

* `ConsistentOn compare items`: the comparison is antisymmetric and transitive on the entries of
  this list.
* `ConsistentOn.unique`: then there is one rearrangement that a stable sort may answer.
* `TotalPreorder` and `compareBy` give comparisons that are consistent everywhere, and
  `sortEntries_pairwise` that their sorts exist.

### What is load-bearing

Consistency is asked of the entries of the list alone.  A comparison function of a program need not
be an order on all values; whether the order of a result depends on the sorting algorithm is a
question about each list, and `ConsistentOn` is its answer.
-/

namespace Async

variable {α : Type}

/-- A comparison that is a total preorder. -/
structure TotalPreorder (compare : α → α → ℤ) : Prop where
  antisymm : ∀ a b, (compare a b).sign = -(compare b a).sign
  trans : ∀ a b c, compare a b ≤ 0 → compare b c ≤ 0 → compare a c ≤ 0

/-- The comparison by a key. -/
def compareBy {β : Type} [LinearOrder β] (key : α → β) (a b : α) : ℤ :=
  if key a < key b then -1 else if key b < key a then 1 else 0

/-- Comparing by a key is a total preorder. -/
theorem compareBy_totalPreorder {β : Type} [LinearOrder β] (key : α → β) :
    TotalPreorder (compareBy key) where
  antisymm a b := by
    unfold compareBy
    rcases lt_trichotomy (key a) (key b) with hlt | heq | hgt
    · rw [if_pos hlt, if_neg hlt.not_gt, if_pos hlt]
      decide
    · rw [if_neg heq.not_lt, if_neg heq.not_gt, if_neg heq.not_gt, if_neg heq.not_lt]
      decide
    · rw [if_neg hgt.not_gt, if_pos hgt, if_pos hgt]
      decide
  trans a b c hab hbc := by
    have hle : ∀ a b : α, compareBy key a b ≤ 0 ↔ key a ≤ key b := by
      intro a b
      unfold compareBy
      rcases lt_trichotomy (key a) (key b) with hlt | heq | hgt
      · simp [hlt, hlt.le]
      · simp [heq]
      · simp [hgt, hgt.not_gt]
    exact (hle a c).mpr (((hle a b).mp hab).trans ((hle b c).mp hbc))

/-- **A comparison that is consistent on the entries of a list**, as a sort compares them:
each with the others. -/
structure ConsistentOn (compare : α → α → ℤ) (items : List α) : Prop where
  antisymm : ∀ a ∈ items.zipIdx, ∀ b ∈ items.zipIdx, a.2 ≠ b.2 →
    (compare a.1 b.1).sign = -(compare b.1 a.1).sign
  trans : ∀ a ∈ items.zipIdx, ∀ b ∈ items.zipIdx, ∀ c ∈ items.zipIdx,
    a.2 ≠ b.2 → b.2 ≠ c.2 → a.2 ≠ c.2 →
      compare a.1 b.1 ≤ 0 → compare b.1 c.1 ≤ 0 → compare a.1 c.1 ≤ 0

/-- Whether one entry may stand before another, each with its place in the list. -/
def Before (compare : α → α → ℤ) (a b : α × ℕ) : Prop :=
  compare a.1 b.1 < 0 ∨ compare a.1 b.1 = 0 ∧ a.2 < b.2

/-- **What a stable sort may answer.** -/
def StableSorted (compare : α → α → ℤ) (items result : List α) : Prop :=
  ∃ order : List (α × ℕ), order.Perm items.zipIdx ∧ order.Pairwise (Before compare) ∧
    order.map Prod.fst = result

/-- The order with ties by place. -/
def AtMost (compare : α → α → ℤ) (a b : α × ℕ) : Prop :=
  compare a.1 b.1 < 0 ∨ compare a.1 b.1 = 0 ∧ a.2 ≤ b.2

instance (compare : α → α → ℤ) : DecidableRel (AtMost compare) :=
  fun a b => inferInstanceAs (Decidable (compare a.1 b.1 < 0 ∨ compare a.1 b.1 = 0 ∧ a.2 ≤ b.2))

instance (compare : α → α → ℤ) : DecidableRel (Before compare) :=
  fun a b => inferInstanceAs (Decidable (compare a.1 b.1 < 0 ∨ compare a.1 b.1 = 0 ∧ a.2 < b.2))

variable {compare : α → α → ℤ} {items : List α}

/-- What opposite signs say. -/
theorem opposite_iff {m n : ℤ} (h : m.sign = -n.sign) :
    (m < 0 ↔ 0 < n) ∧ (m = 0 ↔ n = 0) ∧ (0 < m ↔ n < 0) := by
  rcases lt_trichotomy m 0 with hm | rfl | hm
  · rw [Int.sign_eq_neg_one_of_neg hm] at h
    have hn : 0 < n := Int.sign_eq_one_iff_pos.mp (by omega)
    omega
  · rw [Int.sign_zero] at h
    have hn : n = 0 := Int.sign_eq_zero_iff_zero.mp (by omega)
    omega
  · rw [Int.sign_eq_one_of_pos hm] at h
    have hn : n < 0 := Int.sign_eq_neg_one_iff_neg.mp (by omega)
    omega

/-- An entry is known by its place. -/
theorem eq_of_place {a b : α × ℕ} (ha : a ∈ items.zipIdx) (hb : b ∈ items.zipIdx)
    (hplace : a.2 = b.2) : a = b := by
  obtain ⟨a, i⟩ := a
  obtain ⟨b, j⟩ := b
  obtain rfl : i = j := hplace
  rw [List.mem_zipIdx_iff_getElem?] at ha hb
  rw [ha, Option.some.injEq] at hb
  exact Prod.ext hb rfl

/-- **Every correct stable sort gives the same result.** -/
theorem ConsistentOn.unique (h : ConsistentOn compare items) {result result' : List α}
    (hresult : StableSorted compare items result) (hresult' : StableSorted compare items result') :
    result = result' := by
  obtain ⟨order, hperm, hsorted, rfl⟩ := hresult
  obtain ⟨order', hperm', hsorted', rfl⟩ := hresult'
  refine congrArg _ (List.Perm.eq_of_pairwise (fun a b ha hb hab hba => ?_) hsorted hsorted'
    (hperm.trans hperm'.symm))
  have ha := hperm.mem_iff.mp ha
  have hb := hperm'.mem_iff.mp hb
  by_contra hne
  have hplace : a.2 ≠ b.2 := fun heq => hne (eq_of_place ha hb heq)
  have hsigns := opposite_iff (h.antisymm a ha b hb hplace)
  unfold Before at hab hba
  omega

section Preorder

/-- Of two entries one may stand first. -/
theorem TotalPreorder.total (h : TotalPreorder compare) (a b : α × ℕ) :
    AtMost compare a b ∨ AtMost compare b a := by
  have hsigns := opposite_iff (h.antisymm a.1 b.1)
  unfold AtMost
  omega

/-- What may stand first is transitive. -/
theorem TotalPreorder.atMost_trans (h : TotalPreorder compare) {a b c : α × ℕ}
    (hab : AtMost compare a b) (hbc : AtMost compare b c) : AtMost compare a c := by
  have hle : compare a.1 c.1 ≤ 0 := by
    refine h.trans a.1 b.1 c.1 ?_ ?_
    · unfold AtMost at hab
      omega
    · unfold AtMost at hbc
      omega
  have hab' := opposite_iff (h.antisymm a.1 b.1)
  have hbc' := opposite_iff (h.antisymm b.1 c.1)
  have hac' := opposite_iff (h.antisymm a.1 c.1)
  -- where the ends are tied, so is what stands between them
  have hcba : 0 ≤ compare a.1 c.1 → compare c.1 b.1 ≤ 0 ∧ compare b.1 a.1 ≤ 0 := by
    intro hnot
    exact ⟨h.trans c.1 a.1 b.1 (by omega) (by unfold AtMost at hab; omega),
      h.trans b.1 c.1 a.1 (by unfold AtMost at hbc; omega) (by omega)⟩
  unfold AtMost at hab hbc ⊢
  omega

/-- The stable sort of entries that keep their places. -/
def sortEntries (compare : α → α → ℤ) (entries : List (α × ℕ)) : List (α × ℕ) :=
  entries.insertionSort (AtMost compare)

/-- The sort answers a list in order. -/
theorem sortEntries_pairwise (h : TotalPreorder compare) {entries : List (α × ℕ)}
    (hplaces : (entries.map Prod.snd).Nodup) :
    (sortEntries compare entries).Pairwise (Before compare) := by
  have : Std.Total (AtMost compare) := ⟨h.total⟩
  have : IsTrans (α × ℕ) (AtMost compare) := ⟨fun _ _ _ => h.atMost_trans⟩
  have hperm := List.perm_insertionSort (AtMost compare) entries
  have hsorted := List.pairwise_insertionSort (AtMost compare) entries
  have hdistinct : (sortEntries compare entries).Pairwise fun a b => a.2 ≠ b.2 := by
    have hnodup := (hperm.map Prod.snd).nodup_iff.mpr hplaces
    exact List.pairwise_map.mp hnodup
  refine (hsorted.and hdistinct).imp fun ⟨hatMost, hne⟩ => ?_
  unfold AtMost at hatMost
  unfold Before
  omega

end Preorder

end Async
