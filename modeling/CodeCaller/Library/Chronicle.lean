import CodeCaller.Library.Machine
import CodeCaller.Library.Table
import Mathlib.Data.List.Induction
import Mathlib.Order.Basic
import Mathlib.Data.Nat.Basic

/-!
# Histories of runs

An invariant of reachable states says nothing about the states before.  Where a program acts on
what it read some time ago, the past states have to be part of the invariant: the rule is
`Machine.exec_record`, an invariant of the last state of a run and of all the labels and states the
run has passed.

### Columns that never change

What makes old readings usable is that some columns of a table never change: a row that is found at
a key in two states of a run has the same value there, since no key is generated twice.

* `Table.Evolves column t t'` says it of one step: each row of the new table was there with the
  same value in the column, or has a new key.  It holds of an insertion and a deletion, and of an
  update that keeps the column.
* `Table.Chronicle view column seen s` says it of a history: any two states that store a row at a
  key agree on the column.  `Chronicle.step` extends it by one step.

Agreement of *every two* states is more than agreement of neighbours, because a row may be missing
in between; it follows since a deleted key does not come back (`Chronicle.behind`).

### Traces

`Warranted` and `Since` are about the events of a run in place of its states.  `Warranted W trace`:
every event is accounted for by the events before it.  `Since P Q trace`: an event of `P` has
happened, and none of `Q` since then.
-/

namespace Async

/-! ## The states of a run -/

namespace Machine

variable {σ ℓ : Type*} (M : Machine σ ℓ)

/-- The states a run passes, from its first to its last. -/
def states (s : σ) (labels : List ℓ) : List σ :=
  (M.visits s labels).map Prod.fst ++ [M.exec s labels]

/-- One more label passes one more state. -/
theorem states_concat (s : σ) (labels : List ℓ) (l : ℓ) :
    M.states s (labels ++ [l]) = M.states s labels ++ [M.step (M.exec s labels) l] := by
  simp [states]

theorem states_append (s : σ) (front back : List ℓ) :
    M.states s (front ++ back) =
      (M.visits s front).map Prod.fst ++ M.states (M.exec s front) back := by
  simp [states]

/-- A run passes its first state. -/
theorem mem_states_start (s : σ) (labels : List ℓ) : s ∈ M.states s labels := by
  cases labels with
  | nil => exact List.mem_cons_self
  | cons l labels => exact List.mem_cons_self

/-- A run passes its last state. -/
theorem exec_mem_states (s : σ) (labels : List ℓ) : M.exec s labels ∈ M.states s labels :=
  List.mem_append_right _ List.mem_cons_self

variable {M}

/-- **The invariant rule for a run with its history**, its labels and its states. -/
theorem exec_record {I : List ℓ → List σ → σ → Prop} {s : σ} {labels : List ℓ}
    (hstart : I [] [s] s)
    (hstep : ∀ labels seen s l, I labels seen s → M.enabled s l →
      I (labels ++ [l]) (seen ++ [M.step s l]) (M.step s l))
    (hruns : M.Runs s labels) : I labels (M.states s labels) (M.exec s labels) := by
  induction labels using List.reverseRecOn with
  | nil => exact hstart
  | append_singleton labels l ih =>
      obtain ⟨hfront, hlast⟩ := (M.runs_append s labels [l]).mp hruns
      have henabled : M.enabled (M.exec s labels) l := by simpa using hlast
      rw [states_concat, exec_append]
      exact hstep labels _ _ l (ih hfront) henabled

/-- The same without the labels. -/
theorem exec_history {I : List σ → σ → Prop} {s : σ} {labels : List ℓ} (hstart : I [s] s)
    (hstep : ∀ seen s l, I seen s → M.enabled s l → I (seen ++ [M.step s l]) (M.step s l))
    (hruns : M.Runs s labels) : I (M.states s labels) (M.exec s labels) :=
  exec_record (I := fun _ => I) hstart (fun _ => hstep) hruns

end Machine

namespace Table

variable {σ ρ κ : Type*}

/-! ## Columns that never change -/

/-- Where both tables store a row, `column` reads the same in both. -/
def Agrees (column : ρ → κ) (t t' : Table ρ) : Prop :=
  ∀ key r r', t key = some r → t' key = some r' → column r = column r'

/-- **A table comes of another without a change of a column**: each of its rows was there, with
the same value, or has a new key. -/
structure Evolves (column : ρ → κ) (t t' : Table ρ) : Prop where
  next : t.next ≤ t'.next
  kept : ∀ key r', t' key = some r' →
    (∃ r, t key = some r ∧ column r = column r') ∨ t.next ≤ key

section Evolves

variable {column : ρ → κ} {t t' : Table ρ}

theorem Evolves.refl (t : Table ρ) : t.Evolves column t where
  next := le_rfl
  kept _ r hrow := .inl ⟨r, hrow, rfl⟩

/-- A table that is the same. -/
theorem Evolves.of_eq (h : t' = t) : t.Evolves column t' := by
  rw [h]
  exact .refl t

/-- An insertion has a new key. -/
theorem evolves_insert (t : Table ρ) (r : ρ) : t.Evolves column (t.insert r) where
  next := Nat.le_succ _
  kept key r' hrow := by
    rw [insert_apply] at hrow
    split at hrow
    · next heq => exact .inr (Nat.le_of_eq heq.symm)
    · exact .inl ⟨r', hrow, rfl⟩

/-- An update that keeps the column of the row it finds. -/
theorem evolves_modify (t : Table ρ) (key : ℕ) {f : ρ → ρ}
    (hf : ∀ r, t key = some r → column (f r) = column r) :
    t.Evolves column (t.modify key f) where
  next := le_rfl
  kept other r' hrow := by
    rw [modify_apply] at hrow
    split at hrow
    · next heq =>
      obtain ⟨r, hold, rfl⟩ := Option.map_eq_some_iff.mp hrow
      rw [heq]
      exact .inl ⟨r, hold, (hf r hold).symm⟩
    · exact .inl ⟨r', hrow, rfl⟩

/-- An update of all rows that keeps the column. -/
theorem evolves_map (t : Table ρ) {f : ρ → ρ} (hf : ∀ r, column (f r) = column r) :
    t.Evolves column (t.map f) where
  next := le_rfl
  kept key r' hrow := by
    obtain ⟨r, hold, rfl⟩ := Option.map_eq_some_iff.mp hrow
    exact .inl ⟨r, hold, (hf r).symm⟩

/-- A deletion changes no row that stays. -/
theorem evolves_filter (t : Table ρ) (keep : ℕ → ρ → Bool) :
    t.Evolves column (t.filter keep) where
  next := le_rfl
  kept key r' hrow := by
    rw [filter_apply, Option.filter_eq_some_iff] at hrow
    exact .inl ⟨r', hrow.1, rfl⟩

/-- A row past the keys of the first table is new. -/
theorem Evolves.of_missing (h : t.Evolves column t') {key : ℕ} {r' : ρ} (hnone : t key = none)
    (hrow : t' key = some r') : t.next ≤ key := by
  rcases h.kept key r' hrow with ⟨r, hold, -⟩ | hnew
  · rw [hnone] at hold
    cases hold
  · exact hnew

end Evolves

/-! ## Chronicles -/

/-- **A history in which a column never changes**: two of its states that store a row at one
key agree on the column, and no state has generated a key the last one has not. -/
structure Chronicle (view : σ → Table ρ) (column : ρ → κ) (seen : List σ) (s : σ) : Prop where
  behind : ∀ g ∈ seen, (view g).next ≤ (view s).next
  agrees : ∀ g ∈ seen, ∀ g' ∈ seen, (view g).Agrees column (view g')

variable {view : σ → Table ρ} {column : ρ → κ} {seen : List σ} {s s' : σ}

/-- A history of one state. -/
theorem chronicle_start (s : σ) : Chronicle view column [s] s where
  behind g hg := by
    rw [List.mem_singleton.mp hg]
  agrees g hg g' hg' key r r' hrow hrow' := by
    rw [List.mem_singleton.mp hg] at hrow
    rw [List.mem_singleton.mp hg', hrow] at hrow'
    rw [Option.some.inj hrow']

/-- The next state of a history. -/
theorem Chronicle.step (h : Chronicle view column seen s) (hs : s ∈ seen)
    (hstep : (view s).Evolves column (view s')) : Chronicle view column (seen ++ [s']) s' := by
  have hnew : ∀ g ∈ seen, (view g).Agrees column (view s') := by
    intro g hg key r r' hrow hrow'
    rcases hstep.kept key r' hrow' with ⟨r'', hold, heq⟩ | hfresh
    · exact (h.agrees g hg s hs key r r'' hrow hold).trans heq
    · have hlt : key < (view s).next := (lt_next hrow).trans_le (h.behind g hg)
      exact absurd hfresh (Nat.not_le_of_lt hlt)
  refine ⟨fun g hg => ?_, fun g hg g' hg' => ?_⟩
  · rcases List.mem_append.mp hg with hold | hlast
    · exact (h.behind g hold).trans hstep.next
    · rw [List.mem_singleton.mp hlast]
  · rcases List.mem_append.mp hg with hold | hlast <;>
      rcases List.mem_append.mp hg' with hold' | hlast'
    · exact h.agrees g hold g' hold'
    · rw [List.mem_singleton.mp hlast']
      exact hnew g hold
    · rw [List.mem_singleton.mp hlast]
      exact fun key r r' hrow hrow' => (hnew g' hold' key r' r hrow' hrow).symm
    · rw [List.mem_singleton.mp hlast, List.mem_singleton.mp hlast']
      intro key r r' hrow hrow'
      rw [hrow] at hrow'
      rw [Option.some.inj hrow']

end Table

/-! ## Traces -/

section Trace

variable {η : Type*} {W W' : List η → η → Prop} {P Q : η → Prop} {trace more : List η}

/-- **Every event of a trace has its warrant** in the events before it. -/
def Warranted (W : List η → η → Prop) (trace : List η) : Prop :=
  ∀ before e after, trace = before ++ e :: after → W before e

theorem warranted_nil : Warranted W [] := fun before _ _ heq =>
  absurd heq.symm (List.append_ne_nil_of_right_ne_nil before (List.cons_ne_nil _ _))

/-- A weaker warrant. -/
theorem Warranted.mono (h : Warranted W trace) (himp : ∀ before e, W before e → W' before e) :
    Warranted W' trace := fun before e after heq => himp before e (h before e after heq)

/-- The warrant of an event is in the trace. -/
theorem Warranted.of_mem {e : η} (h : Warranted W trace) (hmem : e ∈ trace) :
    ∃ before, before ⊆ trace ∧ W before e := by
  obtain ⟨before, after, rfl⟩ := List.mem_iff_append.mp hmem
  exact ⟨before, List.subset_append_left _ _, h before e after rfl⟩

/-- A trace goes on with events that have their warrants. -/
theorem Warranted.append (h : Warranted W trace)
    (hmore : ∀ before e after, more = before ++ e :: after → W (trace ++ before) e) :
    Warranted W (trace ++ more) := by
  intro before e after heq
  rcases List.append_eq_append_iff.mp heq with ⟨rest, hbefore, hrest⟩ | ⟨rest, htrace, hrest⟩
  · rw [hbefore]
    exact hmore rest e after hrest
  · cases rest with
    | nil =>
        rw [List.nil_append] at hrest
        rw [List.append_nil] at htrace
        have hfirst := hmore [] e after hrest.symm
        rwa [List.append_nil, htrace] at hfirst
    | cons first rest =>
        obtain ⟨rfl, -⟩ := List.cons.inj hrest
        exact h before e rest htrace

/-- **An event of `P` has happened, and none of `Q` since then.** -/
def Since (P Q : η → Prop) (trace : List η) : Prop :=
  ∃ before e after, trace = before ++ e :: after ∧ P e ∧ ∀ later ∈ after, ¬Q later

/-- Events that are not of `Q` end nothing. -/
theorem Since.append (h : Since P Q trace) (hmore : ∀ e ∈ more, ¬Q e) :
    Since P Q (trace ++ more) := by
  obtain ⟨before, e, after, rfl, hP, hafter⟩ := h
  refine ⟨before, e, after ++ more, by simp, hP, fun later hlater => ?_⟩
  rcases List.mem_append.mp hlater with hold | hnew
  · exact hafter later hold
  · exact hmore later hnew

/-- A new event of `P` with none of `Q` beside it. -/
theorem since_append {e : η} (hmem : e ∈ more) (hP : P e) (hmore : ∀ e ∈ more, ¬Q e) :
    Since P Q (trace ++ more) := by
  obtain ⟨before, after, rfl⟩ := List.mem_iff_append.mp hmem
  refine ⟨trace ++ before, e, after, by simp, hP, fun later hlater => ?_⟩
  exact hmore later (List.mem_append_right _ (List.mem_cons_of_mem _ hlater))

end Trace

end Async
