import CodeCaller.Library.Machine
import CodeCaller.Library.Proc

/-!
# Pools of programs, interleaved at every node

A *pool* is a shared state and a list of programs that work on it.  A schedule is the list of the
indices of the programs, in the order they are resumed; each entry runs one node of its program.
This is at least as fine as a scheduler that switches at awaits only: what holds under every
schedule holds under every order in which a runtime can resume its asynchronous functions.

A program in a pool keeps its *past*: the states its nodes were run in and the states they left.
What a program has read, and whether it has written, are questions about its past, so a condition
on a schedule needs no ghost code.

### The calculus

`Proc.Follows R δ post a s` is a weakest precondition under a *rely* `R`: the program was last
resumed in `s`, between two of its nodes the others may move the state along `R`, and every node
takes the program from one *phase* of the protocol `δ` to the next, from `a` on; where it ends
`post` holds.  The rules of the calculus follow the constructors of programs (`follows_read`,
`follows_atomically`, `Follows.bind`, `Follows.tryCatch`, …), and `Guarantees.follows` covers the
stretches in which the phase does not change.

### From programs to pools

* `Pool.Follows.exec`: the invariant rule for a fixed pool.  If every program follows its protocol,
  an invariant of the phases and the shared state has to be proved for the steps of the protocols
  only.
* `Pool.Fits`, with a lemma for each way the pool changes: the same for pools that programs join,
  where what is known of a program may mention its place and its past.

### What is load-bearing

The protocol sees the *effect* of a node, a function on states, and not only the two states: so a
step of a protocol can say what a node would have done elsewhere, which is what a race needs.
`moves` is the special case of a protocol that looks at the states alone.
-/

namespace Async

variable {σ ε α β A : Type}

namespace Proc

/-! ## Ends of programs -/

/-- The outcome of a program that has ended. -/
def outcome? : Proc σ ε α → Option (Except ε α)
  | ret value => some (.ok value)
  | fail error => some (.error error)
  | sync .. | await .. => none

/-- A program that has not ended has a next node. -/
theorem step?_of_outcome? {p : Proc σ ε α} {s : σ} (h : p.outcome? = none) :
    ∃ next, p.step? s = some next := by
  cases p with
  | ret value => cases h
  | fail error => cases h
  | sync update next => exact ⟨_, rfl⟩
  | await update next fault => exact ⟨_, rfl⟩

/-- A program with a next node has not ended. -/
theorem outcome?_of_step? {p : Proc σ ε α} {s : σ} {next : Proc σ ε α × σ}
    (h : p.step? s = some next) : p.outcome? = none := by
  cases p with
  | ret value => cases h
  | fail error => cases h
  | sync update next => rfl
  | await update next fault => rfl

/-- A program that has ended has run. -/
theorem run_of_outcome? {p : Proc σ ε α} {s : σ} {outcome : Except ε α}
    (h : p.outcome? = some outcome) : p.run s = (outcome, s) := by
  cases p with
  | ret value => cases h; rfl
  | fail error => cases h; rfl
  | sync update next => cases h
  | await update next fault => cases h

/-- A program that has ended does nothing more. -/
theorem guarantees_of_outcome? {G : σ → σ → Prop} {p : Proc σ ε α} {outcome : Except ε α}
    (h : p.outcome? = some outcome) : p.Guarantees G := by
  cases p with
  | ret value => trivial
  | fail error => trivial
  | sync update next => cases h
  | await update next fault => cases h

/-- The first node of a sequence is that of its first program. -/
theorem step?_bind {p q : Proc σ ε α} {f : α → Proc σ ε β} {s s' : σ}
    (h : p.step? s = some (q, s')) : (p >>= f).step? s = some (q >>= f, s') := by
  cases p with
  | ret value => cases h
  | fail error => cases h
  | sync update next => cases h; rfl
  | await update next fault => cases h; rfl

/-- The node of an awaited operation that answers. -/
theorem step?_atomically {operation : σ → Except ε α × σ} {s s' : σ} {value : α}
    (h : (atomically operation).run s = (.ok value, s')) :
    (atomically operation).step? s = some (ret value, s') := by
  rw [run_atomically] at h
  unfold atomically step?
  dsimp only
  rw [h]

/-- What every node guarantees, the next one does, and all that are left. -/
theorem Guarantees.step {G : σ → σ → Prop} {p q : Proc σ ε α} {s s' : σ} (hp : p.Guarantees G)
    (h : p.step? s = some (q, s')) : G s s' ∧ q.Guarantees G := by
  cases p with
  | ret value => cases h
  | fail error => cases h
  | sync update next => cases h; exact hp s
  | await update next fault => cases h; exact hp.1 s

/-! ## Protocols -/

/-- The effect of the next node of a program, if it has not ended. -/
def effect? : Proc σ ε α → Option (σ → σ)
  | ret _ | fail _ => none
  | sync update _ | await update _ _ => some update

/-- The next node does what `effect?` says. -/
theorem step?_of_effect? {p : Proc σ ε α} {update : σ → σ} {s : σ}
    (h : p.effect? = some update) : ∃ q, p.step? s = some (q, update s) := by
  cases p with
  | ret value => cases h
  | fail error => cases h
  | sync update next => cases h; exact ⟨_, rfl⟩
  | await update next fault => cases h; exact ⟨_, rfl⟩

/-- **The program follows the protocol `δ` from the phase `a`**, when it was last
resumed in `s` and the rest of the pool moves the state along `R`: the effect of
each of its nodes, in whatever state the node is run, is a step of the protocol,
and where the program ends `post` holds. -/
def Follows (R : σ → σ → Prop) (δ : A → (σ → σ) → σ → A → Prop) :
    Proc σ ε α → (A → σ → Except ε α → Prop) → A → σ → Prop
  | ret value, post, a, s => ∀ s', R s s' → post a s' (.ok value)
  | fail error, post, a, s => ∀ s', R s s' → post a s' (.error error)
  | sync update next, post, a, s =>
      ∀ s', R s s' → ∃ a', δ a update s' a' ∧ (next s').Follows R δ post a' (update s')
  | await update next _, post, a, s =>
      ∀ s', R s s' → ∃ a', δ a update s' a' ∧ (next s').Follows R δ post a' (update s')

/-- The protocol that looks at a node only in the state it is run in. -/
abbrev moves (move : A → σ → σ → A → Prop) (a : A) (update : σ → σ) (s : σ) (a' : A) : Prop :=
  move a s (update s) a'

section Follows

variable {R : σ → σ → Prop} {δ : A → (σ → σ) → σ → A → Prop} {a : A} {s : σ}

/-- What the others do in the meantime is accounted for. -/
theorem Follows.rely (trans : ∀ {a b c}, R a b → R b c → R a c) {p : Proc σ ε α}
    {post : A → σ → Except ε α → Prop} {s' : σ} (hp : p.Follows R δ post a s) (h : R s s') :
    p.Follows R δ post a s' := by
  cases p with
  | ret value => exact fun s'' hs => hp s'' (trans h hs)
  | fail error => exact fun s'' hs => hp s'' (trans h hs)
  | sync update next => exact fun s'' hs => hp s'' (trans h hs)
  | await update next fault => exact fun s'' hs => hp s'' (trans h hs)

/-- A weaker postcondition is met too. -/
theorem Follows.mono {p : Proc σ ε α} {post post' : A → σ → Except ε α → Prop}
    (hp : p.Follows R δ post a s) (h : ∀ a s outcome, post a s outcome → post' a s outcome) :
    p.Follows R δ post' a s := by
  induction p generalizing a s with
  | ret value => exact fun s' hs => h _ _ _ (hp s' hs)
  | fail error => exact fun s' hs => h _ _ _ (hp s' hs)
  | sync update next ih =>
      intro s' hs
      obtain ⟨a', hstep, hnext⟩ := hp s' hs
      exact ⟨a', hstep, ih s' hnext⟩
  | await update next fault ih _ =>
      intro s' hs
      obtain ⟨a', hstep, hnext⟩ := hp s' hs
      exact ⟨a', hstep, ih s' hnext⟩

/-- A program that follows a protocol follows one that allows each of its steps in a phase it
stays in. -/
theorem Follows.weaken {B : Type} {δ' : B → (σ → σ) → σ → B → Prop} {b : B}
    (h : ∀ a update s a', δ a update s a' → δ' b update s b) {p : Proc σ ε α}
    {post : A → σ → Except ε α → Prop} (hp : p.Follows R δ post a s) :
    p.Follows R δ' (fun _ _ _ => True) b s := by
  induction p generalizing a s with
  | ret value => exact fun _ _ => trivial
  | fail error => exact fun _ _ => trivial
  | sync update next ih =>
      intro s' hs
      obtain ⟨a', hstep, hnext⟩ := hp s' hs
      exact ⟨b, h a update s' a' hstep, ih s' hnext⟩
  | await update next fault ih _ =>
      intro s' hs
      obtain ⟨a', hstep, hnext⟩ := hp s' hs
      exact ⟨b, h a update s' a' hstep, ih s' hnext⟩

/-- One node of a program is one step of its protocol. -/
theorem Follows.step {p q : Proc σ ε α} {post : A → σ → Except ε α → Prop} {s' s'' : σ}
    (hp : p.Follows R δ post a s) (h : R s s') (hstep : p.step? s' = some (q, s'')) :
    ∃ update a', p.effect? = some update ∧ s'' = update s' ∧ δ a update s' a' ∧
      q.Follows R δ post a' s'' := by
  cases p with
  | ret value => cases hstep
  | fail error => cases hstep
  | sync update next =>
      cases hstep
      obtain ⟨a', hδ, hnext⟩ := hp s' h
      exact ⟨update, a', rfl, rfl, hδ, hnext⟩
  | await update next fault =>
      cases hstep
      obtain ⟨a', hδ, hnext⟩ := hp s' h
      exact ⟨update, a', rfl, rfl, hδ, hnext⟩

/-- Where a program has ended, its postcondition holds. -/
theorem Follows.ended {p : Proc σ ε α} {post : A → σ → Except ε α → Prop} {s' : σ}
    {outcome : Except ε α} (hp : p.Follows R δ post a s) (h : R s s')
    (hend : p.outcome? = some outcome) : post a s' outcome := by
  cases p with
  | ret value => cases hend; exact hp s' h
  | fail error => cases hend; exact hp s' h
  | sync update next => cases hend
  | await update next fault => cases hend

/-- A program that has ended follows every protocol that it meets the postcondition of. -/
theorem follows_of_outcome? {p : Proc σ ε α} {outcome : Except ε α}
    (hend : p.outcome? = some outcome) {post : A → σ → Except ε α → Prop}
    (h : ∀ s', R s s' → post a s' outcome) : p.Follows R δ post a s := by
  cases p with
  | ret value => cases hend; exact h
  | fail error => cases hend; exact h
  | sync update next => cases hend
  | await update next fault => cases hend

/-- A returned value: the postcondition has to survive the others. -/
theorem follows_pure {value : α} {post : A → σ → Except ε α → Prop}
    (h : ∀ s', R s s' → post a s' (.ok value)) :
    (pure value : Proc σ ε α).Follows R δ post a s := h

/-- A thrown error: likewise. -/
theorem follows_throw {error : ε} {post : A → σ → Except ε α → Prop}
    (h : ∀ s', R s s' → post a s' (.error error)) :
    (throw error : Proc σ ε α).Follows R δ post a s := h

/-- A query: the phase may change with what it answers. -/
theorem follows_read {query : σ → α} {post : A → σ → Except ε α → Prop}
    (h : ∀ s', R s s' → ∃ a', δ a id s' a' ∧ ∀ s'', R s' s'' → post a' s'' (.ok (query s'))) :
    (read query : Proc σ ε α).Follows R δ post a s := h

/-- A synchronous effect. -/
theorem follows_modify {update : σ → σ} {post : A → σ → Except ε Unit → Prop}
    (h : ∀ s', R s s' → ∃ a', δ a update s' a' ∧
      ∀ s'', R (update s') s'' → post a' s'' (.ok ())) :
    (modify update : Proc σ ε Unit).Follows R δ post a s := h

/-- A look at the state together with an effect on it. -/
theorem follows_take {query : σ → α} {update : σ → σ} {post : A → σ → Except ε α → Prop}
    (h : ∀ s', R s s' → ∃ a', δ a update s' a' ∧
      ∀ s'', R (update s') s'' → post a' s'' (.ok (query s'))) :
    (take query update : Proc σ ε α).Follows R δ post a s := h

/-- An awaited operation: the phase may change with its effect and its answer. -/
theorem follows_atomically {operation : σ → Except ε α × σ}
    {post : A → σ → Except ε α → Prop}
    (h : ∀ s', R s s' → ∃ a', δ a (fun s => (operation s).2) s' a' ∧
      ∀ s'', R (operation s').2 s'' → post a' s'' (operation s').1) :
    (atomically operation).Follows R δ post a s := by
  intro s' hs
  obtain ⟨a', hstep, hpost⟩ := h s' hs
  refine ⟨a', hstep, ?_⟩
  dsimp only
  cases hout : (operation s').1 with
  | ok value =>
      rw [hout] at hpost
      exact hpost
  | error error =>
      rw [hout] at hpost
      exact hpost

/-- An awaited operation whose run is known. -/
theorem follows_atomically_run {operation : σ → Except ε α × σ}
    {post : A → σ → Except ε α → Prop}
    (h : ∀ s', R s s' → ∃ a' outcome s'', (atomically operation).run s' = (outcome, s'') ∧
      δ a (fun s => ((atomically operation).run s).2) s' a' ∧
      ∀ t, R s'' t → post a' t outcome) :
    (atomically operation).Follows R δ post a s := by
  refine follows_atomically fun s' hs => ?_
  obtain ⟨a', outcome, s'', hrun, hstep, hpost⟩ := h s' hs
  simp only [run_atomically] at hrun hstep
  rw [hrun]
  exact ⟨a', hstep, hpost⟩

/-- The same for a protocol that looks at the state only. -/
theorem follows_atomically_moves {operation : σ → Except ε α × σ}
    {move : A → σ → σ → A → Prop} {post : A → σ → Except ε α → Prop}
    (h : ∀ s', R s s' → ∃ a' outcome s'', (atomically operation).run s' = (outcome, s'') ∧
      move a s' s'' a' ∧ ∀ t, R s'' t → post a' t outcome) :
    (atomically operation).Follows R (moves move) post a s := by
  refine follows_atomically_run fun s' hs => ?_
  obtain ⟨a', outcome, s'', hrun, hstep, hpost⟩ := h s' hs
  exact ⟨a', outcome, s'', hrun, by rw [moves, hrun]; exact hstep, hpost⟩

/-- The sequencing rule, in the style of a weakest precondition: the first
program has to establish that the second one follows the rest. -/
theorem Follows.bind (refl : ∀ s, R s s) {p : Proc σ ε α} {f : α → Proc σ ε β}
    {post : A → σ → Except ε β → Prop}
    (hp : p.Follows R δ (fun a s outcome => match outcome with
      | .ok value => (f value).Follows R δ post a s
      | .error error => post a s (.error error)) a s) :
    (p >>= f).Follows R δ post a s := by
  change (p.bind f).Follows R δ post a s
  induction p generalizing a s with
  | ret value => exact hp s (refl s)
  | fail error => exact hp
  | sync update next ih =>
      intro s' hs
      obtain ⟨a', hstep, hnext⟩ := hp s' hs
      exact ⟨a', hstep, ih s' hnext⟩
  | await update next fault ih _ =>
      intro s' hs
      obtain ⟨a', hstep, hnext⟩ := hp s' hs
      exact ⟨a', hstep, ih s' hnext⟩

/-- The rule for `try … catch`. -/
theorem Follows.tryCatch (refl : ∀ s, R s s) {p : Proc σ ε α} {handler : ε → Proc σ ε α}
    {post : A → σ → Except ε α → Prop}
    (hp : p.Follows R δ (fun a s outcome => match outcome with
      | .ok value => post a s (.ok value)
      | .error error => (handler error).Follows R δ post a s) a s) :
    (tryCatch p handler).Follows R δ post a s := by
  change (p.tryCatch handler).Follows R δ post a s
  induction p generalizing a s with
  | ret value => exact hp
  | fail error => exact hp s (refl s)
  | sync update next ih =>
      intro s' hs
      obtain ⟨a', hstep, hnext⟩ := hp s' hs
      exact ⟨a', hstep, ih s' hnext⟩
  | await update next fault ih _ =>
      intro s' hs
      obtain ⟨a', hstep, hnext⟩ := hp s' hs
      exact ⟨a', hstep, ih s' hnext⟩

/-- The rule for a branch. -/
theorem Follows.ite {c : Prop} [Decidable c] {p q : Proc σ ε α}
    {post : A → σ → Except ε α → Prop} (hp : c → p.Follows R δ post a s)
    (hq : ¬c → q.Follows R δ post a s) : (if c then p else q).Follows R δ post a s := by
  split
  · next h => exact hp h
  · next h => exact hq h

/-- **The rule for a program that stays in its phase**: what every node guarantees
is a step of the protocol, and of the rely. -/
theorem Guarantees.follows {G : σ → σ → Prop} {p : Proc σ ε α} (hp : p.Guarantees G)
    (trans : ∀ {a b c}, R a b → R b c → R a c)
    (hstay : ∀ update, (∀ s, G s (update s)) → ∀ s, δ a update s a ∧ R s (update s))
    {post : A → σ → Except ε α → Prop}
    (hpost : ∀ s' outcome, R s s' → post a s' outcome) : p.Follows R δ post a s := by
  induction p generalizing s with
  | ret value => exact fun s' hs => hpost s' _ hs
  | fail error => exact fun s' hs => hpost s' _ hs
  | sync update next ih =>
      intro s' hs
      obtain ⟨hstep, hrely⟩ := hstay update (fun s => (hp s).1) s'
      exact ⟨a, hstep, ih s' (hp s').2 fun s'' outcome h'' =>
        hpost s'' outcome (trans hs (trans hrely h''))⟩
  | await update next fault ih _ =>
      intro s' hs
      obtain ⟨hstep, hrely⟩ := hstay update (fun s => (hp.1 s).1) s'
      exact ⟨a, hstep, ih s' (hp.1 s').2 fun s'' outcome h'' =>
        hpost s'' outcome (trans hs (trans hrely h''))⟩

end Follows

end Proc

/-! ## Pools -/

/-- **A program in a pool**: what is left of it, and its past. -/
structure Thread (σ ε α : Type) where
  program : Proc σ ε α
  past : List (σ × σ)

/-- **A pool of programs** over a shared state. -/
structure Pool (σ ε α : Type) where
  shared : σ
  threads : List (Thread σ ε α)

namespace Pool

/-- The pool in which no program was resumed yet. -/
def start (s : σ) (programs : List (Proc σ ε α)) : Pool σ ε α :=
  ⟨s, programs.map fun program => ⟨program, []⟩⟩

/-- One node of the `i`-th program. -/
def step (P : Pool σ ε α) (i : ℕ) : Pool σ ε α :=
  match P.threads[i]? with
  | none => P
  | some thread =>
    match thread.program.step? P.shared with
    | none => P
    | some (program, shared) =>
      ⟨shared, P.threads.set i ⟨program, thread.past ++ [(P.shared, shared)]⟩⟩

/-- A program joins the pool. -/
def add (P : Pool σ ε α) (program : Proc σ ε α) : Pool σ ε α :=
  ⟨P.shared, P.threads ++ [⟨program, []⟩]⟩

/-- Whether the `i`-th program is there and has not ended. -/
def live (P : Pool σ ε α) (i : ℕ) : Bool :=
  P.threads[i]?.any fun thread => thread.program.outcome?.isNone

/-- Whether all programs have ended. -/
def finished (P : Pool σ ε α) : Bool :=
  P.threads.all fun thread => thread.program.outcome?.isSome

/-- Whether the `i`-th program was resumed. -/
def started (P : Pool σ ε α) (i : ℕ) : Bool :=
  P.threads[i]?.any fun thread => !thread.past.isEmpty

/-- The outcome of the `i`-th program, if it has ended. -/
def outcome? (P : Pool σ ε α) (i : ℕ) : Option (Except ε α) :=
  P.threads[i]?.bind fun thread => thread.program.outcome?

/-- **The machine whose labels are schedules**: a program is resumed while it has
not ended. -/
def machine (σ ε α : Type) : Machine (Pool σ ε α) ℕ where
  start P := ∀ thread ∈ P.threads, thread.past = []
  enabled P i := P.live i = true
  step := step

variable {P : Pool σ ε α} {i j : ℕ} {thread : Thread σ ε α}

instance (schedule : List ℕ) : Decidable ((machine σ ε α).Runs P schedule) :=
  inferInstanceAs (Decidable (∀ visit ∈ (machine σ ε α).visits P schedule,
    visit.1.live visit.2 = true))

/-- A place is live where a program has not ended. -/
theorem live_iff : P.live i = true ↔
    ∃ thread, P.threads[i]? = some thread ∧ thread.program.outcome? = none := by
  unfold live
  rw [Option.any_eq_true]
  simp only [Option.isNone_iff_eq_none]

/-- What one node of a live program does to the pool. -/
theorem step_of_live (h : P.live i = true) :
    ∃ thread program shared, P.threads[i]? = some thread ∧
      thread.program.step? P.shared = some (program, shared) ∧
      P.step i = ⟨shared, P.threads.set i ⟨program, thread.past ++ [(P.shared, shared)]⟩⟩ := by
  obtain ⟨thread, hthread, hlive⟩ := live_iff.mp h
  obtain ⟨⟨program, shared⟩, hnode⟩ := Proc.step?_of_outcome? (s := P.shared) hlive
  refine ⟨thread, program, shared, hthread, hnode, ?_⟩
  unfold step
  rw [hthread]
  dsimp only
  rw [hnode]

/-- No step adds or drops a program. -/
@[simp] theorem step_length : (P.step i).threads.length = P.threads.length := by
  unfold step
  cases P.threads[i]? with
  | none => rfl
  | some thread =>
      dsimp only
      cases thread.program.step? P.shared with
      | none => rfl
      | some next => exact List.length_set

/-- The other programs stay as they are. -/
theorem step_other (h : j ≠ i) : (P.step i).threads[j]? = P.threads[j]? := by
  unfold step
  cases P.threads[i]? with
  | none => rfl
  | some thread =>
      dsimp only
      cases thread.program.step? P.shared with
      | none => rfl
      | some next => exact List.getElem?_set_ne (Ne.symm h)

/-- The program that was resumed. -/
theorem step_self (hthread : P.threads[i]? = some thread) {program : Proc σ ε α} {shared : σ}
    (hnode : thread.program.step? P.shared = some (program, shared)) :
    (P.step i).shared = shared ∧
      (P.step i).threads[i]? = some ⟨program, thread.past ++ [(P.shared, shared)]⟩ := by
  unfold step
  rw [hthread]
  dsimp only
  rw [hnode]
  obtain ⟨hlt, -⟩ := List.getElem?_eq_some_iff.mp hthread
  exact ⟨rfl, List.getElem?_set_self hlt⟩

/-- **What the phases say of their programs** has to be shown of the one that was resumed: the
others stay as they are. -/
theorem forall_step {J : ℕ → A → Thread σ ε α → Prop} {phase : ℕ → A} {a : A}
    (hlive : P.live i = true)
    (hbefore : ∀ (j : ℕ) (thread : Thread σ ε α),
      P.threads[j]? = some thread → J j (phase j) thread)
    (hself : ∀ (thread : Thread σ ε α) (program : Proc σ ε α) (shared : σ),
      P.threads[i]? = some thread → thread.program.step? P.shared = some (program, shared) →
      (P.step i).shared = shared → J i a ⟨program, thread.past ++ [(P.shared, shared)]⟩)
    (j : ℕ) (thread : Thread σ ε α) (hthread : (P.step i).threads[j]? = some thread) :
    J j (Function.update phase i a j) thread := by
  by_cases heq : j = i
  · subst heq
    obtain ⟨old, program, shared, hold, hnode, -⟩ := step_of_live hlive
    obtain ⟨hshared, hnew⟩ := step_self hold hnode
    obtain rfl := Option.some.inj (hnew.symm.trans hthread)
    rw [Function.update_self]
    exact hself old program shared hold hnode hshared
  · rw [step_other heq] at hthread
    rw [Function.update_of_ne heq]
    exact hbefore j thread hthread

/-- **One program at most is in some phase**, where the one that moves comes from it, or meets no
other there. -/
theorem single_update {Q : A → Prop} {phase : ℕ → A} {a : A}
    (hsingle : ∀ j k, Q (phase j) → Q (phase k) → j = k)
    (hfirst : ∀ j, Q (phase j) → Q a → Q (phase i)) (j k : ℕ)
    (hj : Q (Function.update phase i a j)) (hk : Q (Function.update phase i a k)) : j = k := by
  by_cases hji : j = i <;> by_cases hki : k = i
  · rw [hji, hki]
  · subst hji
    rw [Function.update_self] at hj
    rw [Function.update_of_ne hki] at hk
    exact hsingle j k (hfirst k hk hj) hk
  · subst hki
    rw [Function.update_self] at hk
    rw [Function.update_of_ne hji] at hj
    exact hsingle j k hj (hfirst j hj hk)
  · rw [Function.update_of_ne hji] at hj
    rw [Function.update_of_ne hki] at hk
    exact hsingle j k hj hk

/-- The effect of the next node of a program, whatever the state of the pool is. -/
theorem step_shared_of_effect? {update : σ → σ}
    (h : (P.threads[i]?.bind fun thread => thread.program.effect?) = some update) :
    (P.step i).shared = update P.shared := by
  obtain ⟨thread, hthread, heffect⟩ := Option.bind_eq_some_iff.mp h
  obtain ⟨program, hnode⟩ := Proc.step?_of_effect? (s := P.shared) heffect
  exact (step_self hthread hnode).1

/-- After a step, the program that was resumed has started, and no other has in addition. -/
theorem started_step (hlive : P.live i = true) :
    (P.step i).started j = true ↔ j = i ∨ P.started j = true := by
  obtain ⟨thread, program, shared, hthread, hnode, -⟩ := step_of_live hlive
  unfold started
  by_cases heq : j = i
  · subst heq
    rw [(step_self hthread hnode).2, Option.any_some]
    simp
  · rw [step_other heq]
    exact ⟨.inr, fun h => h.resolve_left heq⟩

/-- A program that has ended keeps its outcome. -/
theorem outcome?_step {outcome : Except ε α} (h : P.outcome? j = some outcome) :
    (P.step i).outcome? j = some outcome := by
  by_cases heq : j = i
  · subst heq
    obtain ⟨thread, hthread, hended⟩ := Option.bind_eq_some_iff.mp h
    have hstep : thread.program.step? P.shared = none := by
      cases hnode : thread.program.step? P.shared with
      | none => rfl
      | some next =>
          rw [Proc.outcome?_of_step? hnode] at hended
          cases hended
    unfold step
    rw [hthread]
    dsimp only
    rw [hstep]
    exact h
  · unfold outcome? at h ⊢
    rw [step_other heq]
    exact h

/-- A program that joins changes no outcome. -/
theorem outcome?_add {program : Proc σ ε α} {outcome : Except ε α}
    (h : P.outcome? j = some outcome) : (P.add program).outcome? j = some outcome := by
  obtain ⟨thread, hthread, hended⟩ := Option.bind_eq_some_iff.mp h
  obtain ⟨hlt, -⟩ := List.getElem?_eq_some_iff.mp hthread
  unfold outcome? add
  rw [List.getElem?_append_left hlt, hthread]
  exact hended

/-- A program of the grown pool was there, or is the new one. -/
theorem getElem?_add {program : Proc σ ε α}
    (h : (P.add program).threads[i]? = some thread) :
    P.threads[i]? = some thread ∨ i = P.threads.length ∧ thread = ⟨program, []⟩ := by
  unfold add at h
  rcases Nat.lt_trichotomy i P.threads.length with hlt | rfl | hgt
  · rw [List.getElem?_append_left hlt] at h
    exact .inl h
  · rw [List.getElem?_concat_length, Option.some.injEq] at h
    exact .inr ⟨rfl, h.symm⟩
  · have hlength : (P.threads ++ [(⟨program, []⟩ : Thread σ ε α)]).length ≤ i := by
      rw [List.length_append, List.length_singleton]
      exact hgt
    rw [List.getElem?_eq_none hlength] at h
    cases h

/-- No schedule adds or drops a program. -/
theorem exec_length {schedule : List ℕ} :
    ((machine σ ε α).exec P schedule).threads.length = P.threads.length := by
  induction schedule generalizing P with
  | nil => rfl
  | cons i schedule ih => exact ih.trans step_length

/-! ## Pools that follow protocols -/

/-- **Every program of the pool follows its protocol**, each from its own phase. -/
def Follows (R : σ → σ → Prop) (δ : ℕ → A → (σ → σ) → σ → A → Prop)
    (post : ℕ → A → σ → Except ε α → Prop) (phase : ℕ → A) (P : Pool σ ε α) : Prop :=
  ∀ (i : ℕ) (thread : Thread σ ε α), P.threads[i]? = some thread →
    thread.program.Follows R (δ i) (post i) (phase i) P.shared

section Follows

variable {R : σ → σ → Prop} {δ : ℕ → A → (σ → σ) → σ → A → Prop}
  {post : ℕ → A → σ → Except ε α → Prop} {phase : ℕ → A}

/-- A pool that has not started follows the protocols of its programs. -/
theorem follows_start {s : σ} {programs : List (Proc σ ε α)}
    (h : ∀ (i : ℕ) (program : Proc σ ε α), programs[i]? = some program →
      program.Follows R (δ i) (post i) (phase i) s) :
    (start s programs).Follows R δ post phase := by
  intro i thread hthread
  unfold start at hthread
  rw [List.getElem?_map, Option.map_eq_some_iff] at hthread
  obtain ⟨program, hprogram, rfl⟩ := hthread
  exact h i program hprogram

/-- In a finished pool every program has an outcome, and it meets its
postcondition. -/
theorem Follows.outcome (refl : ∀ s, R s s) (hP : P.Follows R δ post phase)
    (hfinished : P.finished = true) (hlt : i < P.threads.length) :
    ∃ outcome, P.outcome? i = some outcome ∧ post i (phase i) P.shared outcome := by
  have hthread : P.threads[i]? = some P.threads[i] := List.getElem?_eq_getElem hlt
  unfold finished at hfinished
  obtain ⟨outcome, hended⟩ := Option.isSome_iff_exists.mp
    (List.all_eq_true.mp hfinished _ (List.getElem_mem hlt))
  refine ⟨outcome, ?_, (hP i _ hthread).ended (refl _) hended⟩
  unfold outcome?
  rw [hthread]
  exact hended

/-- **A step of the pool is a step of one protocol**, and the others rely on it. -/
theorem Follows.step (refl : ∀ s, R s s) (trans : ∀ {a b c}, R a b → R b c → R a c)
    (hrely : ∀ i a update s a', δ i a update s a' → R s (update s))
    (hP : P.Follows R δ post phase) (hlive : P.live i = true) :
    ∃ update a', (P.threads[i]?.bind fun thread => thread.program.effect?) = some update ∧
      (P.step i).shared = update P.shared ∧ δ i (phase i) update P.shared a' ∧
      (P.step i).Follows R δ post (Function.update phase i a') := by
  obtain ⟨thread, program, shared, hthread, hnode, -⟩ := step_of_live hlive
  obtain ⟨hshared, -⟩ := step_self hthread hnode
  obtain ⟨update, a', heffect, rfl, hδ, hnext⟩ := (hP i thread hthread).step (refl _) hnode
  have hR : R P.shared (update P.shared) := hrely i _ _ _ a' hδ
  refine ⟨update, a', by rw [hthread]; exact heffect, hshared, hδ, ?_⟩
  unfold Pool.Follows
  rw [hshared]
  refine forall_step (J := fun j b other => other.program.Follows R (δ j) (post j) b
    (update P.shared)) hlive (fun j other hother => ?_) fun other next _ hother hstep _ => ?_
  · have hbefore : other.program.Follows R (δ j) (post j) (phase j) P.shared := hP j other hother
    exact hbefore.rely @trans hR
  · obtain rfl : thread = other := Option.some.inj (hthread.symm.trans hother)
    cases hnode.symm.trans hstep
    exact hnext

/-- The state moves along the rely. -/
theorem Follows.moved (trans : ∀ {a b c}, R a b → R b c → R a c)
    (hP : P.Follows R δ post phase) {s : σ} (hR : R P.shared s) :
    Follows R δ post phase { P with shared := s } := by
  intro i thread hthread
  have hbefore : thread.program.Follows R (δ i) (post i) (phase i) P.shared := hP i thread hthread
  exact hbefore.rely @trans hR

/-- A program joins the pool, in a phase of its own. -/
theorem Follows.add (hP : P.Follows R δ post phase) {program : Proc σ ε α} {a : A}
    (hprogram : program.Follows R (δ P.threads.length) (post P.threads.length) a P.shared) :
    (P.add program).Follows R δ post (Function.update phase P.threads.length a) := by
  intro i thread hthread
  rcases getElem?_add hthread with hold | ⟨rfl, rfl⟩
  · obtain ⟨hlt, -⟩ := List.getElem?_eq_some_iff.mp hold
    rw [Function.update_of_ne (Nat.ne_of_lt hlt)]
    exact hP i thread hold
  · rw [Function.update_self]
    exact hprogram

/-- **The invariant rule for pools that follow protocols**: an invariant of the
phases and the pool has to survive the steps of the protocols, where the
schedule meets its condition. -/
theorem Follows.exec {I : (ℕ → A) → Pool σ ε α → Prop} {C : Pool σ ε α → ℕ → Prop}
    (refl : ∀ s, R s s) (trans : ∀ {a b c}, R a b → R b c → R a c)
    (hrely : ∀ i a update s a', δ i a update s a' → R s (update s))
    (hstep : ∀ phase P i update a', I phase P → P.live i = true → C P i →
      (P.threads[i]?.bind fun thread => thread.program.effect?) = some update →
      (P.step i).shared = update P.shared → δ i (phase i) update P.shared a' →
      I (Function.update phase i a') (P.step i))
    {schedule : List ℕ} (hruns : (machine σ ε α).Runs P schedule)
    (hcond : ∀ visit ∈ (machine σ ε α).visits P schedule, C visit.1 visit.2)
    (hP : P.Follows R δ post phase) (hI : I phase P) :
    ∃ phase', ((machine σ ε α).exec P schedule).Follows R δ post phase' ∧
      I phase' ((machine σ ε α).exec P schedule) := by
  induction schedule generalizing P phase with
  | nil => exact ⟨phase, hP, hI⟩
  | cons i schedule ih =>
      obtain ⟨hlive, hruns⟩ := (Machine.runs_cons _ _ _ _).mp hruns
      rw [Machine.visits_cons, List.forall_mem_cons] at hcond
      obtain ⟨update, a', heffect, hshared, hδ, hnext⟩ := hP.step refl trans hrely hlive
      exact ih hruns hcond.2 hnext
        (hstep phase P i update a' hI hlive hcond.1 heffect hshared hδ)

end Follows

/-! ## Pools that programs join -/

/-- **Every program follows its protocol from a phase that fits what is known of it**, the
program with its past and its place in the pool. -/
def Fits (R : σ → σ → Prop) (δ : A → (σ → σ) → σ → A → Prop) (post : A → σ → Except ε α → Prop)
    (J : ℕ → A → Thread σ ε α → σ → Prop) (P : Pool σ ε α) : Prop :=
  ∀ (i : ℕ) (thread : Thread σ ε α), P.threads[i]? = some thread →
    ∃ a, thread.program.Follows R δ post a P.shared ∧ J i a thread P.shared

section Fits

variable {R : σ → σ → Prop} {δ : A → (σ → σ) → σ → A → Prop}
  {post : A → σ → Except ε α → Prop} {J : ℕ → A → Thread σ ε α → σ → Prop}

/-- What is known may be replaced by what follows from it. -/
theorem Fits.mono {J' : ℕ → A → Thread σ ε α → σ → Prop} (hP : P.Fits R δ post J)
    (h : ∀ (i : ℕ) (a : A) (thread : Thread σ ε α), P.threads[i]? = some thread →
      J i a thread P.shared → J' i a thread P.shared) : P.Fits R δ post J' := by
  intro i thread hthread
  obtain ⟨a, hfollows, hJ⟩ := hP i thread hthread
  exact ⟨a, hfollows, h i a thread hthread hJ⟩

/-- The others change the state. -/
theorem Fits.moved (trans : ∀ {a b c}, R a b → R b c → R a c)
    (hkeep : ∀ i a thread s s', J i a thread s → R s s' → J i a thread s')
    (hP : P.Fits R δ post J) {s : σ} (hR : R P.shared s) :
    Fits R δ post J { P with shared := s } := by
  intro i thread hthread
  obtain ⟨a, hfollows, hJ⟩ := hP i thread hthread
  exact ⟨a, hfollows.rely @trans hR, hkeep i a thread _ _ hJ hR⟩

/-- A program joins the pool. -/
theorem Fits.add (hP : P.Fits R δ post J) {program : Proc σ ε α} {a : A}
    (hprogram : program.Follows R δ post a P.shared)
    (hJ : J P.threads.length a ⟨program, []⟩ P.shared) : (P.add program).Fits R δ post J := by
  intro i thread hthread
  rcases getElem?_add hthread with hold | ⟨rfl, rfl⟩
  · exact hP i thread hold
  · exact ⟨a, hprogram, hJ⟩

/-- **One node of one program.** -/
theorem Fits.step (refl : ∀ s, R s s) (trans : ∀ {a b c}, R a b → R b c → R a c)
    (hrely : ∀ a update s a', δ a update s a' → R s (update s))
    (hkeep : ∀ i a thread s s', J i a thread s → R s s' → J i a thread s')
    (hmove : ∀ i a thread update s a' program, J i a thread s → δ a update s a' →
      J i a' ⟨program, thread.past ++ [(s, update s)]⟩ (update s))
    (hP : P.Fits R δ post J) (hlive : P.live i = true) :
    (P.step i).Fits R δ post J ∧ ∃ a update a' thread, P.threads[i]? = some thread ∧
      thread.program.effect? = some update ∧ J i a thread P.shared ∧ δ a update P.shared a' ∧
      (P.step i).shared = update P.shared := by
  obtain ⟨thread, program, shared, hthread, hnode, -⟩ := step_of_live hlive
  obtain ⟨hshared, hself⟩ := step_self hthread hnode
  obtain ⟨a, hfollows, hJ⟩ := hP i thread hthread
  obtain ⟨update, a', heffect, rfl, hδ, hnext⟩ := hfollows.step (refl _) hnode
  have hR : R P.shared (update P.shared) := hrely a _ _ a' hδ
  refine ⟨fun j other hother => ?_, a, update, a', thread, hthread, heffect, hJ, hδ, hshared⟩
  rw [hshared]
  by_cases heq : j = i
  · subst heq
    rw [hself, Option.some.injEq] at hother
    rw [← hother]
    exact ⟨a', hnext, hmove j a thread update _ a' program hJ hδ⟩
  · rw [step_other heq] at hother
    obtain ⟨b, hbefore, hknown⟩ := hP j other hother
    exact ⟨b, hbefore.rely @trans hR, hkeep j b other _ _ hknown hR⟩

end Fits

end Pool

end Async
