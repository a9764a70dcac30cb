import CodeCaller.Hub.System
import CodeCaller.Library.Sorting
import Mathlib.Data.List.Sigma
import Mathlib.Data.List.Lex

/-!
# The order of dispatch candidates

`getDispatchCandidates` sorts by a comparison that puts the preferred server first and compares the
others by name.  Between two profiles of the preferred server it says that each comes first, so
`candidate_order_iff`: the order is well defined exactly if there are no two.

What an answer of `sort` has to be is taken from `Library.Sorting`: a permutation of the list that
a stable sort may answer for the comparison.  With a consistent comparison there is one such
answer, and `OrderDefined` says which it is meant to be (`preferredFirst`); with an inconsistent
one the language standard leaves the order to the implementation, so the promise fails already in
asking for consistency.

The comparison of names is a parameter with one assumption, that it is a total preorder, as
`localeCompare` is.
-/

namespace CodeCaller

open Async

variable (env : Env) (preferred : ServerId)

/-- Whether a candidate is on the preferred server. -/
def WorkerDispatchCandidate.onPreferred (candidate : WorkerDispatchCandidate) : Bool :=
  candidate.serverId == preferred

/-- The order the query returns its rows in. -/
def queryBefore (left right : WorkerDispatchCandidate) : Prop :=
  left.serverId < right.serverId ∨
    left.serverId = right.serverId ∧
      left.profileName.map (·.toNat) ≤ right.profileName.map (·.toNat)

/-- The comparison of two candidates by the names of their servers. -/
def compareNames (left right : WorkerDispatchCandidate) : ℤ :=
  env.localeCompare left.serverName right.serverName

/-- **The order that is meant**: the profiles of the preferred server as the query returns
them, then the others by server name, ties in the order of the query. -/
def preferredFirst (items : List WorkerDispatchCandidate) : List WorkerDispatchCandidate :=
  (items.zipIdx.filter (fun entry => entry.1.onPreferred preferred) ++
    sortEntries (compareNames env)
      (items.zipIdx.filter fun entry => !entry.1.onPreferred preferred)).map Prod.fst

/-- **What is promised of the order**: the comparison is consistent, and what any correct
stable sort answers is the order that is meant, the preferred profiles by name. -/
structure OrderDefined (items : List WorkerDispatchCandidate) : Prop where
  consistent : ConsistentOn (WorkerRegistry.compareCandidates env preferred) items
  sorted : ∀ result,
    StableSorted (WorkerRegistry.compareCandidates env preferred) items result ↔
      result = preferredFirst env preferred items
  byProfileName : (items.filter (·.onPreferred preferred)).Pairwise fun left right =>
    left.profileName.map (·.toNat) ≤ right.profileName.map (·.toNat)

/-- No two profiles are on the preferred server. -/
def OnePreferred (items : List WorkerDispatchCandidate) : Prop :=
  items.Pairwise fun left right => ¬(left.onPreferred preferred = true ∧
    right.onPreferred preferred = true)

instance (items : List WorkerDispatchCandidate) : Decidable (OnePreferred preferred items) :=
  inferInstanceAs (Decidable (items.Pairwise fun left right =>
    ¬(left.onPreferred preferred = true ∧ right.onPreferred preferred = true)))

section Order

variable {env preferred} {items : List WorkerDispatchCandidate}
  {left right : WorkerDispatchCandidate}

/-- A preferred candidate on the left comes first, whatever is on the right. -/
theorem compareCandidates_left (h : left.onPreferred preferred = true) :
    WorkerRegistry.compareCandidates env preferred left right = -1 :=
  if_pos (beq_iff_eq.mp h)

/-- One on the right comes first, if there is none on the left. -/
theorem compareCandidates_right (hleft : ¬left.onPreferred preferred = true)
    (h : right.onPreferred preferred = true) :
    WorkerRegistry.compareCandidates env preferred left right = 1 :=
  (if_neg fun heq => hleft (beq_iff_eq.mpr heq)).trans (if_pos (beq_iff_eq.mp h))

/-- Two others are compared by the names of their servers. -/
theorem compareCandidates_names (hleft : ¬left.onPreferred preferred = true)
    (hright : ¬right.onPreferred preferred = true) :
    WorkerRegistry.compareCandidates env preferred left right = compareNames env left right :=
  (if_neg fun heq => hleft (beq_iff_eq.mpr heq)).trans
    (if_neg fun heq => hright (beq_iff_eq.mpr heq))

/-- Two entries at different places are not both on the preferred server. -/
theorem OnePreferred.not_both (h : OnePreferred preferred items)
    {a b : WorkerDispatchCandidate × ℕ} (ha : a ∈ items.zipIdx) (hb : b ∈ items.zipIdx)
    (hplace : a.2 ≠ b.2) :
    ¬(a.1.onPreferred preferred = true ∧ b.1.onPreferred preferred = true) := by
  rw [List.mem_zipIdx_iff_getElem?] at ha hb
  obtain ⟨hi, hai⟩ := List.getElem?_eq_some_iff.mp ha
  obtain ⟨hj, hbj⟩ := List.getElem?_eq_some_iff.mp hb
  rw [← hai, ← hbj]
  have hall := List.pairwise_iff_getElem.mp h
  rcases Nat.lt_or_gt_of_ne hplace with hlt | hlt
  · exact hall _ _ hi hj hlt
  · exact fun hboth => hall _ _ hj hi hlt hboth.symm

/-- **With one preferred profile the comparison is consistent.** -/
theorem OnePreferred.consistent (hnames : TotalPreorder env.localeCompare)
    (h : OnePreferred preferred items) :
    ConsistentOn (WorkerRegistry.compareCandidates env preferred) items where
  antisymm a ha b hb hplace := by
    have hnot := h.not_both ha hb hplace
    by_cases hleft : a.1.onPreferred preferred = true
    · have hright : ¬b.1.onPreferred preferred = true := fun hright => hnot ⟨hleft, hright⟩
      rw [compareCandidates_left hleft, compareCandidates_right hright hleft]
      rfl
    · by_cases hright : b.1.onPreferred preferred = true
      · rw [compareCandidates_left hright, compareCandidates_right hleft hright]
        rfl
      · rw [compareCandidates_names hleft hright, compareCandidates_names hright hleft]
        exact hnames.antisymm _ _
  trans a ha b hb c hc hab hbc hac hfirst hsecond := by
    by_cases hpa : a.1.onPreferred preferred = true
    · rw [compareCandidates_left hpa]
      decide
    · by_cases hpb : b.1.onPreferred preferred = true
      · rw [compareCandidates_right hpa hpb] at hfirst
        exact absurd hfirst (by decide)
      · by_cases hpc : c.1.onPreferred preferred = true
        · rw [compareCandidates_right hpb hpc] at hsecond
          exact absurd hsecond (by decide)
        · rw [compareCandidates_names hpa hpb] at hfirst
          rw [compareCandidates_names hpb hpc] at hsecond
          rw [compareCandidates_names hpa hpc]
          exact hnames.trans _ _ _ hfirst hsecond

/-- **The order that is meant is one a stable sort may answer.** -/
theorem OnePreferred.stableSorted (hnames : TotalPreorder env.localeCompare)
    (h : OnePreferred preferred items) :
    StableSorted (WorkerRegistry.compareCandidates env preferred) items
      (preferredFirst env preferred items) := by
  have hcompare : TotalPreorder (compareNames env) :=
    ⟨fun a b => hnames.antisymm _ _, fun a b c => hnames.trans _ _ _⟩
  have hnodup : (items.zipIdx.map Prod.snd).Nodup := List.nodup_zipIdx_map_snd items
  have hplaces : items.zipIdx.Pairwise fun a b => a.2 ≠ b.2 := List.pairwise_map.mp hnodup
  have hothers : ∀ a ∈ sortEntries (compareNames env)
      (items.zipIdx.filter fun entry => !entry.1.onPreferred preferred),
      ¬a.1.onPreferred preferred = true := by
    intro a ha
    have ha := (List.perm_insertionSort _ _).mem_iff.mp ha
    simpa using (List.mem_filter.mp ha).2
  refine ⟨_, ?_, List.pairwise_append.mpr ⟨?_, ?_, ?_⟩, rfl⟩
  · exact ((List.perm_insertionSort _ _).append_left _).trans (List.filter_append_perm _ _)
  · -- two preferred entries there are not
    refine (hplaces.filter _).imp_of_mem fun {a b} ha hb hplace => ?_
    rw [List.mem_filter] at ha hb
    exact absurd ⟨ha.2, hb.2⟩ (h.not_both ha.1 hb.1 hplace)
  · have hsorted := sortEntries_pairwise hcompare
      (hnodup.sublist (List.filter_sublist.map Prod.snd) :
        ((items.zipIdx.filter fun entry => !entry.1.onPreferred preferred).map Prod.snd).Nodup)
    refine hsorted.imp_of_mem fun {a b} ha hb hbefore => ?_
    unfold Before
    rwa [compareCandidates_names (hothers a ha) (hothers b hb)]
  · intro a ha b _
    refine .inl ?_
    rw [compareCandidates_left (List.mem_filter.mp ha).2]
    decide

/-- The query orders the profiles of one server by name. -/
theorem preferred_byProfileName (hquery : items.Pairwise queryBefore) :
    (items.filter (·.onPreferred preferred)).Pairwise fun left right =>
      left.profileName.map (·.toNat) ≤ right.profileName.map (·.toNat) := by
  refine (hquery.filter _).imp_of_mem fun {left right} hleft hright hbefore => ?_
  have hleft : left.serverId = preferred := beq_iff_eq.mp (List.mem_filter.mp hleft).2
  have hright : right.serverId = preferred := beq_iff_eq.mp (List.mem_filter.mp hright).2
  rcases hbefore with hlt | ⟨-, hle⟩
  · exact absurd hlt (by rw [hleft, hright]; exact lt_irrefl _)
  · exact hle

/-- **A consistent comparison leaves one preferred profile**: of two it puts each first. -/
theorem onePreferred_of_consistent
    (h : ConsistentOn (WorkerRegistry.compareCandidates env preferred) items) :
    OnePreferred preferred items := by
  refine List.pairwise_iff_getElem.mpr fun i j hi hj hlt ⟨hleft, hright⟩ => ?_
  have hsigns := h.antisymm (items[i], i) (List.mk_mem_zipIdx_iff_getElem?.mpr
    (List.getElem?_eq_getElem hi)) (items[j], j) (List.mk_mem_zipIdx_iff_getElem?.mpr
    (List.getElem?_eq_getElem hj)) (Nat.ne_of_lt hlt)
  rw [compareCandidates_left hleft, compareCandidates_left hright] at hsigns
  exact absurd hsigns (by decide)

end Order

/-- **The order of the candidates is well defined exactly if at most one of them is on the
preferred server.**  Compared with itself a preferred one is never tied. -/
theorem candidate_order_iff (env : Env) (preferred : ServerId)
    (items : List WorkerDispatchCandidate) (hnames : TotalPreorder env.localeCompare)
    (hquery : items.Pairwise queryBefore) :
    (OrderDefined env preferred items ↔ OnePreferred preferred items) ∧
      ∀ item ∈ items, WorkerRegistry.compareCandidates env preferred item item = 0 ↔
        ¬item.onPreferred preferred = true := by
  refine ⟨⟨fun h => onePreferred_of_consistent h.consistent, fun h => ?_⟩, fun item _ => ⟨?_, ?_⟩⟩
  · exact
      { consistent := h.consistent hnames
        sorted := fun result =>
          ⟨fun hresult => (h.consistent hnames).unique hresult (h.stableSorted hnames),
            fun hresult => hresult ▸ h.stableSorted hnames⟩
        byProfileName := preferred_byProfileName hquery }
  · intro htied hon
    rw [compareCandidates_left hon] at htied
    exact absurd htied (by decide)
  · intro hoff
    have hself := hnames.antisymm item.serverName item.serverName
    rw [compareCandidates_names hoff hoff]
    exact Int.sign_eq_zero_iff_zero.mp (by unfold compareNames; omega)

/-- An environment that compares names by their code units. -/
def Env.byCodeUnits : Env :=
  { Env.sample with
    localeCompare := compareBy (fun name => name.map UInt16.toNat : JsString → List ℕ) }

/-- A profile on each of two servers. -/
def sampleCandidates : List WorkerDispatchCandidate :=
  [⟨0, js "alpha", .CODEX, js "default"⟩, ⟨1, js "beta", .CODEX, js "default"⟩]

/-- One profile on each server, and the order is what is meant. -/
theorem candidate_order_sample : OrderDefined Env.byCodeUnits 1 sampleCandidates := by
  have hquery : sampleCandidates.Pairwise queryBefore := by
    unfold sampleCandidates queryBefore
    decide
  have hone : OnePreferred 1 sampleCandidates := by decide
  have hnames : TotalPreorder Env.byCodeUnits.localeCompare :=
    compareBy_totalPreorder (fun name => name.map UInt16.toNat : JsString → List ℕ)
  exact (candidate_order_iff Env.byCodeUnits 1 sampleCandidates hnames hquery).1.mpr hone

/-- Two profiles on one server, as the query returns them. -/
def twoProfiles : List WorkerDispatchCandidate :=
  [⟨0, js "alpha", .CODEX, js "default"⟩, ⟨0, js "alpha", .CODEX, js "fast"⟩]

/-- Of two profiles on the preferred server the comparison puts each first: a stable sort may
leave them as they are or turn them around. -/
theorem candidate_order_two_profiles :
    twoProfiles.Pairwise queryBefore ∧
      StableSorted (WorkerRegistry.compareCandidates Env.byCodeUnits 0) twoProfiles
        twoProfiles ∧
      StableSorted (WorkerRegistry.compareCandidates Env.byCodeUnits 0) twoProfiles
        twoProfiles.reverse ∧
      ¬OrderDefined Env.byCodeUnits 0 twoProfiles := by
  refine ⟨by unfold twoProfiles queryBefore; decide, ⟨twoProfiles.zipIdx, .refl _, ?_, rfl⟩,
    ⟨twoProfiles.zipIdx.reverse, List.reverse_perm _, ?_, rfl⟩, fun h => ?_⟩
  · unfold twoProfiles
    decide
  · unfold twoProfiles
    decide
  · exact absurd (onePreferred_of_consistent h.consistent) (by decide)

end CodeCaller
