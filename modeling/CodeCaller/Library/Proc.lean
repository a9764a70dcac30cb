import Mathlib.Logic.Relation
import Mathlib.Tactic.Common

/-!
# Asynchronous programs over a shared state

An `async` function is a sequence of *awaits*: at each of them one operation on the shared state
takes effect, and the function is resumed with its answer.  Between two awaits it runs synchronous
code, which may touch the shared state as well (an event emitted, a clock read).  `Proc σ ε α` is
the free such program: a tree whose inner nodes are the awaits and the synchronous effects, and
whose leaves are a returned value or a thrown error.

One program has several readings, and a verification of a service needs more than one of them.

* `Proc.run` — **run to completion**: nothing else happens until the program ends.
* `Proc.step?` — **one node at a time**: the residual program is a value, so a pool of programs can
  be interleaved at every await.
* `Proc.runWith`, in the module on faults — **with failing awaits**: the operation has no effect
  and throws.  Every `await` node carries the program it continues as in that case, which is what
  makes `try … catch` around an await see the fault.

### The proof rules

* **Equations** for `run`, one for each constructor of programs, tagged for `simp`.
* `Proc.Guarantees G`: every node, in whatever state it is run, moves the state along `G`.  It is
  proved along the program and holds in every pool.
* `Proc.Reaches R view`: a run to completion moves a view of the state along a chain of `R`; this
  compares a program with an abstract description of its effect.
* Where a node may rely on what the rest of a pool does, the rule is `Proc.Follows`, beside pools;
  where it acts on what earlier nodes of the same program have found, it is `Proc.Recalls`.

### What is load-bearing

The continuation of a node is chosen from the state the node *found*, not from the one it left: an
awaited operation answers with what it has read.  And `sync` nodes are nodes: a pool may switch
there too, so a result about all schedules holds for every coarser scheduler.
-/

namespace Async

/-- **An asynchronous program** over the shared state `σ` that throws `ε` or
returns `α`.  A node updates the state and continues with a program chosen from
the state it found. -/
inductive Proc (σ ε α : Type) : Type where
  | ret (value : α)
  | fail (error : ε)
  | sync (update : σ → σ) (next : σ → Proc σ ε α)
  | await (update : σ → σ) (next : σ → Proc σ ε α) (fault : ε → Proc σ ε α)

namespace Proc

variable {σ ε α β : Type}

/-- Sequencing: the second program replaces the returned value. -/
protected def bind : Proc σ ε α → (α → Proc σ ε β) → Proc σ ε β
  | ret value, f => f value
  | fail error, _ => fail error
  | sync update next, f => sync update fun s => (next s).bind f
  | await update next fault, f =>
      await update (fun s => (next s).bind f) (fun e => (fault e).bind f)

/-- `try … catch`: the handler replaces a thrown error, and also guards the
faults of the awaits inside the body. -/
protected def tryCatch : Proc σ ε α → (ε → Proc σ ε α) → Proc σ ε α
  | ret value, _ => ret value
  | fail error, handler => handler error
  | sync update next, handler => sync update fun s => (next s).tryCatch handler
  | await update next fault, handler =>
      await update (fun s => (next s).tryCatch handler)
        (fun e => (fault e).tryCatch handler)

instance : Monad (Proc σ ε) where
  pure := ret
  bind := Proc.bind

instance : MonadExceptOf ε (Proc σ ε) where
  throw := fail
  tryCatch := Proc.tryCatch

/-- One awaited operation: it takes effect at once, and answers or throws. -/
def atomically (operation : σ → Except ε α × σ) : Proc σ ε α :=
  await (fun s => (operation s).2)
    (fun s => match (operation s).1 with
      | .ok value => ret value
      | .error error => fail error)
    fail

/-- An awaited query. -/
def read (query : σ → α) : Proc σ ε α :=
  await id (fun s => ret (query s)) fail

/-- A synchronous effect on the state. -/
def modify (update : σ → σ) : Proc σ ε Unit :=
  sync update fun _ => ret ()

/-- A synchronous look at the state together with an effect on it. -/
def take (query : σ → α) (update : σ → σ) : Proc σ ε α :=
  sync update fun s => ret (query s)

/-! ## Run to completion -/

/-- **Run to completion** from a state: the outcome and the final state. -/
def run : Proc σ ε α → σ → Except ε α × σ
  | ret value, s => (.ok value, s)
  | fail error, s => (.error error, s)
  | sync update next, s => (next s).run (update s)
  | await update next _, s => (next s).run (update s)

@[simp] theorem run_pure (value : α) (s : σ) :
    (pure value : Proc σ ε α).run s = (.ok value, s) := rfl

@[simp] theorem run_throw (error : ε) (s : σ) :
    (throw error : Proc σ ε α).run s = (.error error, s) := rfl

@[simp] theorem run_read (query : σ → α) (s : σ) :
    (read query : Proc σ ε α).run s = (.ok (query s), s) := rfl

@[simp] theorem run_modify (update : σ → σ) (s : σ) :
    (modify update : Proc σ ε Unit).run s = (.ok (), update s) := rfl

@[simp] theorem run_take (query : σ → α) (update : σ → σ) (s : σ) :
    (take query update : Proc σ ε α).run s = (.ok (query s), update s) := rfl

/-- An operation that is one node runs as it is. -/
@[simp] theorem run_atomically (operation : σ → Except ε α × σ) (s : σ) :
    (atomically operation).run s = operation s := by
  simp only [atomically, run]
  cases h : operation s with
  | mk outcome s' => cases outcome <;> rfl

/-- A run of a sequence is a run of its first program, continued when that one
returned. -/
@[simp] theorem run_bind (p : Proc σ ε α) (f : α → Proc σ ε β) (s : σ) :
    (p >>= f).run s =
      match p.run s with
      | (.ok value, s') => (f value).run s'
      | (.error error, s') => (.error error, s') := by
  change (p.bind f).run s = _
  induction p generalizing s with
  | ret value => rfl
  | fail error => rfl
  | sync update next ih => exact ih s (update s)
  | await update next fault ih _ => exact ih s (update s)

/-- The sequencing rule where the first program returns. -/
theorem run_bind_of_ok {p : Proc σ ε α} {f : α → Proc σ ε β} {s s' : σ} {value : α}
    (h : p.run s = (.ok value, s')) : (p >>= f).run s = (f value).run s' := by
  rw [run_bind, h]

/-- The sequencing rule where the first program throws: the second is not run. -/
theorem run_bind_of_error {p : Proc σ ε α} {f : α → Proc σ ε β} {s s' : σ} {error : ε}
    (h : p.run s = (.error error, s')) : (p >>= f).run s = (.error error, s') := by
  rw [run_bind, h]

@[simp] theorem run_map (g : α → β) (p : Proc σ ε α) (s : σ) :
    (g <$> p).run s =
      match p.run s with
      | (.ok value, s') => (.ok (g value), s')
      | (.error error, s') => (.error error, s') :=
  run_bind p (fun value => pure (g value)) s

/-- A run of `try … catch` is a run of the body, continued by the handler when
the body threw. -/
@[simp] theorem run_tryCatch (p : Proc σ ε α) (handler : ε → Proc σ ε α) (s : σ) :
    (tryCatch p handler).run s =
      match p.run s with
      | (.ok value, s') => (.ok value, s')
      | (.error error, s') => (handler error).run s' := by
  change (p.tryCatch handler).run s = _
  induction p generalizing s with
  | ret value => rfl
  | fail error => rfl
  | sync update next ih => exact ih s (update s)
  | await update next fault ih _ => exact ih s (update s)

/-! ## One node at a time -/

/-- **The next node** of a program, if it has not ended. -/
def step? : Proc σ ε α → σ → Option (Proc σ ε α × σ)
  | ret _, _ => none
  | fail _, _ => none
  | sync update next, s => some (next s, update s)
  | await update next _, s => some (next s, update s)

/-- Running to completion is the schedule that never switches away: a step
does not change how the run ends. -/
theorem run_of_step? {p q : Proc σ ε α} {s s' : σ} (h : p.step? s = some (q, s')) :
    q.run s' = p.run s := by
  cases p with
  | ret value => cases h
  | fail error => cases h
  | sync update next => cases h; rfl
  | await update next fault => cases h; rfl

/-! ## What every node guarantees -/

/-- **Every node of the program moves the state along `G`**, whatever state it
finds: the effect of the program on a state shared with others. -/
def Guarantees (G : σ → σ → Prop) : Proc σ ε α → Prop
  | ret _ => True
  | fail _ => True
  | sync update next => ∀ s, G s (update s) ∧ (next s).Guarantees G
  | await update next fault =>
      (∀ s, G s (update s) ∧ (next s).Guarantees G) ∧ ∀ e, (fault e).Guarantees G

section Guarantees

variable {G : σ → σ → Prop}

/-- A program without nodes guarantees anything. -/
theorem guarantees_pure (value : α) : (pure value : Proc σ ε α).Guarantees G := trivial

/-- So does one that fails at once. -/
theorem guarantees_throw (error : ε) : (throw error : Proc σ ε α).Guarantees G := trivial

/-- A query guarantees what is reflexive. -/
theorem guarantees_read (refl : ∀ s, G s s) (query : σ → α) :
    (read query : Proc σ ε α).Guarantees G :=
  ⟨fun s => ⟨refl s, trivial⟩, fun _ => trivial⟩

/-- An update guarantees what it keeps in every state. -/
theorem guarantees_modify {update : σ → σ} (h : ∀ s, G s (update s)) :
    (modify update : Proc σ ε Unit).Guarantees G :=
  fun s => ⟨h s, trivial⟩

theorem guarantees_take {query : σ → α} {update : σ → σ} (h : ∀ s, G s (update s)) :
    (take query update : Proc σ ε α).Guarantees G :=
  fun s => ⟨h s, trivial⟩

/-- An operation guarantees what it keeps, whether it succeeds or fails. -/
theorem guarantees_atomically {operation : σ → Except ε α × σ}
    (h : ∀ s, G s (operation s).2) : (atomically operation).Guarantees G := by
  refine ⟨fun s => ⟨h s, ?_⟩, fun _ => trivial⟩
  dsimp only
  cases (operation s).1 with
  | ok value => trivial
  | error error => trivial

/-- What both programs of a sequence guarantee, the sequence does. -/
theorem Guarantees.bind {p : Proc σ ε α} (hp : p.Guarantees G) {f : α → Proc σ ε β}
    (hf : ∀ value, (f value).Guarantees G) : (p >>= f).Guarantees G := by
  change (p.bind f).Guarantees G
  induction p with
  | ret value => exact hf value
  | fail error => trivial
  | sync update next ih => exact fun s => ⟨(hp s).1, ih s (hp s).2⟩
  | await update next fault ih ihFault =>
      exact ⟨fun s => ⟨(hp.1 s).1, ih s (hp.1 s).2⟩, fun e => ihFault e (hp.2 e)⟩

/-- The handler may run from any node of the body, so it has to guarantee the same. -/
theorem Guarantees.tryCatch {p : Proc σ ε α} (hp : p.Guarantees G)
    {handler : ε → Proc σ ε α} (hh : ∀ error, (handler error).Guarantees G) :
    (tryCatch p handler).Guarantees G := by
  change (p.tryCatch handler).Guarantees G
  induction p with
  | ret value => trivial
  | fail error => exact hh error
  | sync update next ih => exact fun s => ⟨(hp s).1, ih s (hp s).2⟩
  | await update next fault ih ihFault =>
      exact ⟨fun s => ⟨(hp.1 s).1, ih s (hp.1 s).2⟩, fun e => ihFault e (hp.2 e)⟩

/-- The rule for a branch, whose condition the branches may use. -/
theorem Guarantees.ite {c : Prop} [Decidable c] {p q : Proc σ ε α}
    (hp : c → p.Guarantees G) (hq : ¬c → q.Guarantees G) :
    (if c then p else q).Guarantees G := by
  split
  · next h => exact hp h
  · next h => exact hq h

/-- Of every node something is guaranteed that always holds. -/
theorem guarantees_of_forall (h : ∀ s s', G s s') (p : Proc σ ε α) : p.Guarantees G := by
  induction p with
  | ret value => trivial
  | fail error => trivial
  | sync update next ih => exact fun s => ⟨h _ _, ih s⟩
  | await update next fault ih ihFault => exact ⟨fun s => ⟨h _ _, ih s⟩, ihFault⟩

/-- A weaker relation is guaranteed too. -/
theorem Guarantees.mono {G' : σ → σ → Prop} (h : ∀ s s', G s s' → G' s s') {p : Proc σ ε α}
    (hp : p.Guarantees G) : p.Guarantees G' := by
  induction p with
  | ret value => trivial
  | fail error => trivial
  | sync update next ih => exact fun s => ⟨h _ _ (hp s).1, ih s (hp s).2⟩
  | await update next fault ih ihFault =>
      exact ⟨fun s => ⟨h _ _ (hp.1 s).1, ih s (hp.1 s).2⟩, fun e => ihFault e (hp.2 e)⟩

/-- **From nodes to runs**: along a preorder, what every node does the whole
run does. -/
theorem Guarantees.run {p : Proc σ ε α} (hp : p.Guarantees G) (refl : ∀ s, G s s)
    (trans : ∀ {a b c}, G a b → G b c → G a c) (s : σ) : G s (p.run s).2 := by
  induction p generalizing s with
  | ret value => exact refl s
  | fail error => exact refl s
  | sync update next ih => exact trans (hp s).1 (ih s (hp s).2 (update s))
  | await update next fault ih _ =>
      exact trans (hp.1 s).1 (ih s (hp.1 s).2 (update s))

/-- The rest of a sequence moves the state its first program left along `G`. -/
theorem Guarantees.run_rest {p : Proc σ ε α} {f : α → Proc σ ε β}
    (hf : ∀ value, (f value).Guarantees G) (refl : ∀ s, G s s)
    (trans : ∀ {a b c}, G a b → G b c → G a c) (s : σ) :
    G (p.run s).2 ((p >>= f).run s).2 := by
  rw [run_bind]
  cases p.run s with
  | mk outcome s' =>
    cases outcome with
    | ok value => exact (hf value).run refl trans s'
    | error error => exact refl s'

end Guarantees

/-! ## What a run does to a view of the state -/

/-- **The run moves a view of the state by steps of `R`**: how a program is
compared with a description of its effect. -/
def Reaches {ρ : Type} (R : ρ → ρ → Prop) (view : σ → ρ) (p : Proc σ ε α) (s : σ) : Prop :=
  Relation.ReflTransGen R (view s) (view (p.run s).2)

section Reaches

variable {ρ : Type} {R : ρ → ρ → Prop} {view : σ → ρ}

/-- A run that does not change the view. -/
theorem Reaches.of_eq {p : Proc σ ε α} {s : σ} (h : view (p.run s).2 = view s) :
    p.Reaches R view s := by
  unfold Reaches
  rw [h]

/-- A run that is one step of the view. -/
theorem Reaches.single {p : Proc σ ε α} {s : σ} (h : R (view s) (view (p.run s).2)) :
    p.Reaches R view s :=
  Relation.ReflTransGen.single h

/-- The sequencing rule: the second program continues from where a returning
run of the first one ends. -/
theorem Reaches.bind {p : Proc σ ε α} {f : α → Proc σ ε β} {s : σ} (hp : p.Reaches R view s)
    (hf : ∀ value s', p.run s = (.ok value, s') → (f value).Reaches R view s') :
    (p >>= f).Reaches R view s := by
  unfold Reaches at hp ⊢
  rw [run_bind]
  cases h : p.run s with
  | mk outcome s' =>
    rw [h] at hp
    cases outcome with
    | ok value => exact hp.trans (hf value s' h)
    | error error => exact hp

/-- The rule for a branch. -/
theorem Reaches.ite {c : Prop} [Decidable c] {p q : Proc σ ε α} {s : σ}
    (hp : c → p.Reaches R view s) (hq : ¬c → q.Reaches R view s) :
    (if c then p else q).Reaches R view s := by
  split
  · next h => exact hp h
  · next h => exact hq h

/-- The rule for `try … catch`. -/
theorem Reaches.tryCatch {p : Proc σ ε α} {handler : ε → Proc σ ε α} {s : σ}
    (hp : p.Reaches R view s)
    (hh : ∀ error s', p.run s = (.error error, s') → (handler error).Reaches R view s') :
    (tryCatch p handler).Reaches R view s := by
  unfold Reaches at hp ⊢
  rw [run_tryCatch]
  cases h : p.run s with
  | mk outcome s' =>
    rw [h] at hp
    cases outcome with
    | ok value => exact hp
    | error error => exact hp.trans (hh error s' h)

end Reaches

end Proc

end Async
