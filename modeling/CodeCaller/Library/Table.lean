import Mathlib.Data.List.Basic
import Mathlib.Tactic.Common

/-!
# Tables with generated keys

A database table whose primary keys are generated on insertion.  A key is the number of insertions
made before, so a key is never used twice, not even after its row was deleted, and the order of the
keys is the order of creation.  That nothing is stored past the next key is a field of the
structure: a table with a row at a key it has not generated yet cannot be built.

* `insert`, `modify`, `filter` and `map` are the four ways a table changes; each has its lemma for
  the rows and one for the next key, tagged for `simp`.
* `toList` are the rows with their keys in the order of creation, which is what a query starts
  from.
* `count` and `keysWhere` count rows.  `count_le` and `count_lt` compare two states of one table
  without a computation: what keeps satisfying the condition is counted again, and a row that has
  come to satisfy it is counted in addition.

### What is load-bearing

The field `fresh`.  With it `lt_next` says that a stored row is older than the next insertion, so
an inserted row never hides another, and a key that was found once denotes the same row for ever or
none.
-/

namespace Async

/-- **A table** of rows `ρ` with generated keys. -/
structure Table (ρ : Type*) where
  /-- The row stored at a key. -/
  row : ℕ → Option ρ
  /-- The key the next insertion generates. -/
  next : ℕ
  /-- Nothing is stored at a key that has not been generated. -/
  fresh : ∀ key, next ≤ key → row key = none

namespace Table

variable {ρ : Type*}

instance : CoeFun (Table ρ) fun _ => ℕ → Option ρ := ⟨Table.row⟩

/-- The empty table. -/
def empty : Table ρ := ⟨fun _ => none, 0, fun _ _ => rfl⟩

/-- Store a new row at the next key. -/
def insert (t : Table ρ) (r : ρ) : Table ρ where
  row key := if key = t.next then some r else t.row key
  next := t.next + 1
  fresh key h := by
    rw [if_neg (by omega)]
    exact t.fresh key (by omega)

/-- Change the row at a key, if there is one. -/
def modify (t : Table ρ) (key : ℕ) (f : ρ → ρ) : Table ρ where
  row other := if other = key then (t.row key).map f else t.row other
  next := t.next
  fresh other h := by
    split
    · next heq => rw [t.fresh key (heq ▸ h)]; rfl
    · exact t.fresh other h

/-- Keep the rows that satisfy a condition; the others are deleted. -/
def filter (t : Table ρ) (keep : ℕ → ρ → Bool) : Table ρ where
  row key := (t.row key).filter (keep key)
  next := t.next
  fresh key h := by rw [t.fresh key h]; rfl

/-- Change every row. -/
def map (t : Table ρ) (f : ρ → ρ) : Table ρ where
  row key := (t.row key).map f
  next := t.next
  fresh key h := by rw [t.fresh key h]; rfl

/-- The rows with their keys, in the order of creation. -/
def toList (t : Table ρ) : List (ℕ × ρ) :=
  (List.range t.next).filterMap fun key => (t.row key).map fun r => (key, r)

@[simp] theorem empty_apply (key : ℕ) : (empty : Table ρ) key = none := rfl

@[simp] theorem insert_apply (t : Table ρ) (r : ρ) (key : ℕ) :
    (t.insert r) key = if key = t.next then some r else t key := rfl

@[simp] theorem insert_next (t : Table ρ) (r : ρ) : (t.insert r).next = t.next + 1 := rfl

@[simp] theorem modify_apply (t : Table ρ) (key : ℕ) (f : ρ → ρ) (other : ℕ) :
    (t.modify key f) other = if other = key then (t key).map f else t other := rfl

@[simp] theorem modify_next (t : Table ρ) (key : ℕ) (f : ρ → ρ) :
    (t.modify key f).next = t.next := rfl

@[simp] theorem filter_apply (t : Table ρ) (keep : ℕ → ρ → Bool) (key : ℕ) :
    (t.filter keep) key = (t key).filter (keep key) := rfl

@[simp] theorem filter_next (t : Table ρ) (keep : ℕ → ρ → Bool) :
    (t.filter keep).next = t.next := rfl

@[simp] theorem map_apply (t : Table ρ) (f : ρ → ρ) (key : ℕ) :
    (t.map f) key = (t key).map f := rfl

@[simp] theorem map_next (t : Table ρ) (f : ρ → ρ) : (t.map f).next = t.next := rfl

/-- Two tables are equal when they store the same rows and have generated as
many keys. -/
@[ext] theorem ext {t t' : Table ρ} (hrow : ∀ key, t key = t' key) (hnext : t.next = t'.next) :
    t = t' := by
  cases t with
  | mk row next fresh =>
    cases t' with
    | mk row' next' fresh' =>
      obtain rfl : row = row' := funext hrow
      obtain rfl : next = next' := hnext
      rfl

/-- Only what a change does to the stored row matters. -/
theorem modify_congr {t : Table ρ} {key : ℕ} {f g : ρ → ρ}
    (h : ∀ r, t key = some r → f r = g r) : t.modify key f = t.modify key g := by
  refine Table.ext (fun other => ?_) rfl
  simp only [modify_apply]
  split
  · cases hrow : t key with
    | none => rfl
    | some r => simp [h r hrow]
  · rfl

/-- Changing a missing row changes nothing. -/
theorem modify_of_none {t : Table ρ} {key : ℕ} (h : t key = none) (f : ρ → ρ) :
    t.modify key f = t := by
  refine Table.ext (fun other => ?_) rfl
  rw [modify_apply]
  split
  · next heq => rw [heq, h]; rfl
  · rfl

/-- A change of a row adds and deletes none. -/
@[simp] theorem isSome_modify (t : Table ρ) (key : ℕ) (f : ρ → ρ) (other : ℕ) :
    (t.modify key f other).isSome = (t other).isSome := by
  rw [modify_apply]
  split
  · next heq => rw [heq, Option.isSome_map]
  · rfl

/-- A new row that is changed at once is a changed row inserted. -/
@[simp] theorem modify_insert (t : Table ρ) (r : ρ) (f : ρ → ρ) :
    (t.insert r).modify t.next f = t.insert (f r) := by
  refine Table.ext (fun other => ?_) rfl
  simp only [modify_apply, insert_apply, if_true, Option.map_some]
  split <;> rfl

/-- Two changes of one row are one. -/
@[simp] theorem modify_modify (t : Table ρ) (key : ℕ) (f g : ρ → ρ) :
    (t.modify key f).modify key g = t.modify key (g ∘ f) := by
  refine Table.ext (fun other => ?_) rfl
  simp only [modify_apply, if_true]
  split
  · rw [Option.map_map]
  · rfl

/-- A stored row has a generated key. -/
theorem lt_next {t : Table ρ} {key : ℕ} {r : ρ} (h : t key = some r) : key < t.next := by
  by_contra hle
  rw [t.fresh key (by omega)] at h
  cases h

/-- The list of rows holds exactly the stored rows. -/
@[simp] theorem mem_toList {t : Table ρ} {key : ℕ} {r : ρ} :
    (key, r) ∈ t.toList ↔ t key = some r := by
  simp only [toList, List.mem_filterMap, List.mem_range, Option.map_eq_some_iff,
    Prod.mk.injEq]
  constructor
  · rintro ⟨_, _, _, h, rfl, rfl⟩
    exact h
  · intro h
    exact ⟨key, lt_next h, r, h, rfl, rfl⟩

/-- No two rows of the list have one key. -/
theorem nodup_keys (t : Table ρ) : (t.toList.map Prod.fst).Nodup := by
  have hkeys : t.toList.map Prod.fst = (List.range t.next).filter fun key => (t key).isSome := by
    unfold toList
    rw [List.map_filterMap, ← List.filterMap_eq_filter]
    congr
    funext key
    cases h : t key with
    | none => simp [Option.guard, h]
    | some r => simp [Option.guard, h]
  rw [hkeys]
  exact List.nodup_range.filter _

/-- What a query makes of some of the rows, under their keys. -/
theorem nodup_keys_filterMap {τ : Type*} (t : Table ρ) {f : ℕ × ρ → Option (ℕ × τ)}
    (hf : ∀ row found, f row = some found → found.1 = row.1) :
    ((t.toList.filterMap f).map Prod.fst).Nodup := by
  have hsub : ∀ rows : List (ℕ × ρ),
      ((rows.filterMap f).map Prod.fst).Sublist (rows.map Prod.fst) := by
    intro rows
    induction rows with
    | nil => exact List.Sublist.refl _
    | cons row rows ih =>
        rw [List.filterMap_cons]
        cases hfound : f row with
        | none => exact ih.cons _
        | some found =>
            rw [List.map_cons, List.map_cons, hf row found hfound]
            exact ih.cons_cons _
  exact t.nodup_keys.sublist (hsub t.toList)

/-! ## Counting rows -/

/-- A new row is the last one. -/
theorem toList_insert (t : Table ρ) (r : ρ) :
    (t.insert r).toList = t.toList ++ [(t.next, r)] := by
  have hold : (List.range t.next).filterMap (fun key => ((t.insert r) key).map fun r => (key, r)) =
      t.toList :=
    List.filterMap_congr fun key hkey => by
      rw [insert_apply, if_neg (Nat.ne_of_lt (List.mem_range.mp hkey))]
  unfold toList at hold ⊢
  rw [insert_next, List.range_succ, List.filterMap_append, hold]
  simp

/-- The number of rows that satisfy a condition. -/
def count (t : Table ρ) (p : ρ → Bool) : ℕ := (t.toList.filter fun row => p row.2).length

/-- An insertion adds one to a count, or nothing. -/
theorem count_insert (t : Table ρ) (r : ρ) (p : ρ → Bool) :
    (t.insert r).count p = t.count p + if p r = true then 1 else 0 := by
  unfold count
  rw [toList_insert, List.filter_append, List.length_append]
  cases h : p r <;> simp [h]

/-- The keys of the rows that satisfy a condition. -/
def keysWhere (t : Table ρ) (p : ρ → Bool) : List ℕ :=
  (t.toList.filter fun row => p row.2).map Prod.fst

/-- Rows are counted by their keys. -/
theorem count_eq_length (t : Table ρ) (p : ρ → Bool) : t.count p = (t.keysWhere p).length := by
  rw [keysWhere, List.length_map, count]

/-- No row is counted twice. -/
theorem nodup_keysWhere (t : Table ρ) (p : ρ → Bool) : (t.keysWhere p).Nodup :=
  t.nodup_keys.sublist (List.filter_sublist.map Prod.fst)

/-- The keys that count are those of the stored rows with the property. -/
theorem mem_keysWhere {t : Table ρ} {p : ρ → Bool} {key : ℕ} :
    key ∈ t.keysWhere p ↔ ∃ r, t key = some r ∧ p r = true := by
  simp only [keysWhere, List.mem_map, List.mem_filter, Prod.exists, mem_toList]
  constructor
  · rintro ⟨_, r, hr, rfl⟩
    exact ⟨r, hr⟩
  · rintro ⟨r, hr⟩
    exact ⟨key, r, hr, rfl⟩

/-- Rows that keep satisfying the condition are counted again. -/
theorem count_le {t t' : Table ρ} {p : ρ → Bool}
    (h : ∀ key r, t key = some r → p r = true → ∃ r', t' key = some r' ∧ p r' = true) :
    t.count p ≤ t'.count p := by
  rw [count_eq_length, count_eq_length]
  refine (t.nodup_keysWhere p).length_le_of_subset fun key hkey => ?_
  obtain ⟨r, hrow, hp⟩ := mem_keysWhere.mp hkey
  exact mem_keysWhere.mpr (h key r hrow hp)

/-- A row that has come to satisfy the condition is counted in addition. -/
theorem count_lt {t t' : Table ρ} {p : ρ → Bool} {new : ℕ} {r' : ρ}
    (h : ∀ key r, t key = some r → p r = true → ∃ r', t' key = some r' ∧ p r' = true)
    (hnew : t' new = some r') (hp : p r' = true)
    (hnot : ∀ r, t new = some r → p r = false) : t.count p < t'.count p := by
  rw [count_eq_length, count_eq_length]
  have hfresh : new ∉ t.keysWhere p := fun hmem => by
    obtain ⟨r, hrow, hpr⟩ := mem_keysWhere.mp hmem
    rw [hnot r hrow] at hpr
    cases hpr
  have hkeys : (new :: t.keysWhere p).Nodup :=
    List.nodup_cons.mpr ⟨hfresh, t.nodup_keysWhere p⟩
  refine Nat.lt_of_succ_le (hkeys.length_le_of_subset fun key hkey => ?_)
  rcases List.mem_cons.mp hkey with rfl | hold
  · exact mem_keysWhere.mpr ⟨r', hnew, hp⟩
  · obtain ⟨r, hrow, hpr⟩ := mem_keysWhere.mp hold
    exact mem_keysWhere.mpr (h key r hrow hpr)

end Table

end Async
