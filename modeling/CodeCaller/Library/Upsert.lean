import CodeCaller.Library.Table

/-!
# Tables with a unique key

`upsert` changes the row that has the key of a new one, or stores the new one.  A table that is
written by it alone is a finite map: `Holds.upsert` says that the operation is `Function.update`.

`lastWrite` is the value of such a map after a list of writes: what the last write with a property
has written, or what was there before.  Its lemmas (`lastWrite_congr`, `lastWrite_map`) let one
describe the table by the calls that were made, with no reference to rows.

### What is load-bearing

`Holds` asks for *one* row for each key.  Where a caller computes the key of a row it looks for in
another way than the key of the row it stores, the look-up fails and a second row appears, and
`Holds` is what is lost.
-/

namespace Async

/-! ## The last of some writes -/

section Last

variable {α β : Type} (p : α → Prop) [DecidablePred p] (f : α → β)

/-- What the last write with a property has written; `old` without one. -/
def lastWrite (old : Option β) : List α → Option β
  | [] => old
  | a :: rest => lastWrite (if p a then some (f a) else old) rest

variable {p f}

/-- There is a last write if there was one before, or one in the list. -/
theorem lastWrite_isSome {old : Option β} {l : List α} :
    (lastWrite p f old l).isSome ↔ old.isSome ∨ ∃ a ∈ l, p a := by
  induction l generalizing old with
  | nil => simp [lastWrite]
  | cons a rest ih =>
      unfold lastWrite
      rw [ih]
      split_ifs with hp <;> simp [hp]

/-- The last write is the same under a property that says the same of all of them. -/
theorem lastWrite_congr {q : α → Prop} [DecidablePred q] {old : Option β} {l : List α}
    (h : ∀ a ∈ l, p a ↔ q a) : lastWrite p f old l = lastWrite q f old l := by
  induction l generalizing old with
  | nil => rfl
  | cons a rest ih =>
      unfold lastWrite
      rw [ih fun b hb => h b (List.mem_cons_of_mem a hb)]
      simp only [h a List.mem_cons_self]

/-- Writes that are described by something else. -/
theorem lastWrite_map {γ : Type} {g : γ → α} {old : Option β} {l : List γ} :
    lastWrite p f old (l.map g) = lastWrite (fun c => p (g c)) (fun c => f (g c)) old l := by
  induction l generalizing old with
  | nil => rfl
  | cons c rest ih => exact ih

end Last

namespace Table

variable {ρ κ ν : Type} (key : ρ → κ) (value : ρ → ν)

/-- **A table that holds a map**: one row for each key, with its value. -/
structure Holds (t : Table ρ) (held : κ → Option ν) : Prop where
  unique : ∀ id id' row row', t id = some row → t id' = some row' → key row = key row' → id = id'
  stored : ∀ id row, t id = some row → held (key row) = some (value row)
  present : ∀ k, (held k).isSome → ∃ id row, t id = some row ∧ key row = k

/-- Change the row with the key of `create`, or store `create`. -/
def upsert [DecidableEq κ] (t : Table ρ) (create : ρ) (update : ρ → ρ) : Table ρ :=
  match t.toList.find? fun row => key row.2 = key create with
  | some row => t.modify row.1 update
  | none => t.insert create

variable {key value} {t : Table ρ} {held : κ → Option ν}

/-- A table without rows holds the empty map. -/
theorem holds_of_empty (h : ∀ id, t id = none) : Holds key value t fun _ => none where
  unique id id' row row' hrow _ _ := by
    rw [h id] at hrow
    cases hrow
  stored id row hrow := by
    rw [h id] at hrow
    cases hrow
  present k hk := by cases hk

section Upsert

variable [DecidableEq κ] {create : ρ} {update : ρ → ρ}

/-- The row of a key is changed. -/
theorem Holds.modify (h : Holds key value t held) {id : ℕ} {row : ρ} (hrow : t id = some row)
    (hkey : ∀ row, key (update row) = key row)
    (hvalue : ∀ row, value (update row) = value create) (hcreate : key row = key create) :
    Holds key value (t.modify id update)
      (Function.update held (key create) (some (value create))) := by
  have hchanged : ∀ other row', t.modify id update other = some row' →
      (other = id ∧ row' = update row) ∨ (other ≠ id ∧ t other = some row') := by
    intro other row' hrow'
    rw [modify_apply] at hrow'
    split_ifs at hrow' with hid
    · rw [hrow, Option.map_some, Option.some.injEq] at hrow'
      exact .inl ⟨hid, hrow'.symm⟩
    · exact .inr ⟨hid, hrow'⟩
  refine ⟨fun other other' row₁ row₂ h₁ h₂ heq => ?_, fun other row' hrow' => ?_,
    fun k hk => ?_⟩
  · rcases hchanged other row₁ h₁ with ⟨rfl, rfl⟩ | ⟨-, hrow₁⟩ <;>
      rcases hchanged other' row₂ h₂ with ⟨rfl, rfl⟩ | ⟨-, hrow₂⟩
    · rfl
    · exact h.unique _ _ _ _ hrow hrow₂ ((hkey row).symm.trans heq)
    · exact h.unique _ _ _ _ hrow₁ hrow (heq.trans (hkey row))
    · exact h.unique _ _ _ _ hrow₁ hrow₂ heq
  · rcases hchanged other row' hrow' with ⟨rfl, rfl⟩ | ⟨hne, hrow'⟩
    · rw [hkey, hcreate, Function.update_self, hvalue]
    · have hother : key row' ≠ key create := fun heq =>
        hne (h.unique _ _ _ _ hrow' hrow (heq.trans hcreate.symm))
      rw [Function.update_of_ne hother]
      exact h.stored other row' hrow'
  · by_cases hk' : k = key create
    · refine ⟨id, update row, ?_, (hkey row).trans (hcreate.trans hk'.symm)⟩
      rw [modify_apply, if_pos rfl, hrow]
      rfl
    · rw [Function.update_of_ne hk'] at hk
      obtain ⟨other, row', hrow', hother⟩ := h.present k hk
      refine ⟨other, row', ?_, hother⟩
      have hne : other ≠ id := fun heq => hk' (by
        obtain rfl : row' = row := Option.some.inj (hrow'.symm.trans (heq ▸ hrow))
        rw [← hother, hcreate])
      rw [modify_apply, if_neg hne, hrow']

/-- A row is stored under a new key. -/
theorem Holds.insert (h : Holds key value t held)
    (hnew : ∀ id row, t id = some row → key row ≠ key create) :
    Holds key value (t.insert create)
      (Function.update held (key create) (some (value create))) := by
  have hrows : ∀ id row, t.insert create id = some row →
      (id = t.next ∧ row = create) ∨ t id = some row := by
    intro id row hrow
    rw [insert_apply] at hrow
    split_ifs at hrow with hid
    · exact .inl ⟨hid, (Option.some.inj hrow).symm⟩
    · exact .inr hrow
  refine ⟨fun id id' row row' hrow hrow' heq => ?_, fun id row hrow => ?_, fun k hk => ?_⟩
  · rcases hrows id row hrow with ⟨rfl, rfl⟩ | hold <;>
      rcases hrows id' row' hrow' with ⟨rfl, rfl⟩ | hold'
    · rfl
    · exact absurd heq.symm (hnew id' row' hold')
    · exact absurd heq (hnew id row hold)
    · exact h.unique _ _ _ _ hold hold' heq
  · rcases hrows id row hrow with ⟨rfl, rfl⟩ | hold
    · rw [Function.update_self]
    · rw [Function.update_of_ne (hnew id row hold)]
      exact h.stored id row hold
  · by_cases hk' : k = key create
    · exact ⟨t.next, create, by rw [insert_apply, if_pos rfl], hk'.symm⟩
    · rw [Function.update_of_ne hk'] at hk
      obtain ⟨id, row, hrow, hkey⟩ := h.present k hk
      exact ⟨id, row, by rw [insert_apply, if_neg (Nat.ne_of_lt (lt_next hrow)), hrow], hkey⟩

/-- **An upsert is an update of the map.** -/
theorem Holds.upsert (h : Holds key value t held) (hkey : ∀ row, key (update row) = key row)
    (hvalue : ∀ row, value (update row) = value create) :
    Holds key value (t.upsert key create update)
      (Function.update held (key create) (some (value create))) := by
  unfold Table.upsert
  split
  · next row hfind =>
    have hrow : t row.1 = some row.2 := mem_toList.mp (List.mem_of_find?_eq_some hfind)
    have hcreate := List.find?_some hfind
    exact h.modify hrow hkey hvalue (of_decide_eq_true hcreate)
  · next hfind =>
    refine h.insert fun id row hrow heq => ?_
    have hnot := List.find?_eq_none.mp hfind (id, row) (mem_toList.mpr hrow)
    exact hnot (decide_eq_true heq)

end Upsert

end Table

end Async
