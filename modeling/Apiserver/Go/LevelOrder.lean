import Apiserver.Go.LevelSearch
import Mathlib.Data.List.Nodup
import Mathlib.Data.Nat.Find

/-!
# The order of a search level by level

What a search of `Apiserver.Go.LevelSearch` finds, visit by visit. A key has a depth, the least
number of steps that lead to it from the root, and the search comes to it on the level of that
depth: the keys of the levels before have been visited (`LevelInv`).

* `search_log`: the search visits every key that can be reached once, in a node that is reached
  in as many steps as the key is deep, and finds what these visits find;
* `Follows`, `Sorted`: if scanning keeps to an order of the nodes, then the visits are in that
  order, and a key is visited in the first node that has it;
* `Crowded`: the count of a visit is over one exactly if the key is led to more than once from
  the level above it;
* `search_of_le`: more levels than there are keys make no difference.
-/

namespace Go

namespace LevelSearch

variable {N K F ε : Type}

/-! ## Depths -/

/-- The key can be reached in a number of steps. -/
inductive ReachIn (succ : K → List K) (k₀ : K) : ℕ → K → Prop
  | zero : ReachIn succ k₀ 0 k₀
  | step {d : ℕ} {k k' : K} (h : ReachIn succ k₀ d k) (hk : k' ∈ succ k) :
      ReachIn succ k₀ (d + 1) k'

/-- The depth of a key: it can be reached in so many steps, and not in fewer. -/
structure Depth (succ : K → List K) (k₀ k : K) (d : ℕ) : Prop where
  reach : ReachIn succ k₀ d k
  le : ∀ e, ReachIn succ k₀ e k → d ≤ e

variable {succ : K → List K} {k₀ k k' : K} {d e : ℕ}

theorem ReachIn.reach (h : ReachIn succ k₀ d k) : Reach succ k₀ k := by
  induction h with
  | zero => exact .refl
  | step _ hk ih => exact ih.tail hk

/-- A step before others. -/
theorem ReachIn.head (hk : k' ∈ succ k₀) (h : ReachIn succ k' d k) :
    ReachIn succ k₀ (d + 1) k := by
  induction h with
  | zero => exact .step .zero hk
  | step _ hk' ih => exact .step ih hk'

theorem exists_reachIn (h : Reach succ k₀ k) : ∃ d, ReachIn succ k₀ d k := by
  induction h with
  | refl => exact ⟨0, .zero⟩
  | tail _ hk ih =>
    obtain ⟨d, h⟩ := ih
    exact ⟨d + 1, .step h hk⟩

theorem ReachIn.exists_depth (h : ReachIn succ k₀ e k) : ∃ d ≤ e, Depth succ k₀ k d := by
  classical
  have hex : ∃ d, ReachIn succ k₀ d k := ⟨e, h⟩
  exact ⟨Nat.find hex, Nat.find_min' hex h, Nat.find_spec hex, fun _ h' => Nat.find_min' hex h'⟩

theorem exists_depth (h : Reach succ k₀ k) : ∃ d, Depth succ k₀ k d := by
  obtain ⟨e, h⟩ := exists_reachIn h
  obtain ⟨d, -, h⟩ := h.exists_depth
  exact ⟨d, h⟩

theorem Depth.unique (h : Depth succ k₀ k d) (h' : Depth succ k₀ k e) : d = e :=
  Nat.le_antisymm (h.le e h'.reach) (h'.le d h.reach)

/-- A key is led to from one of the level above it. -/
theorem Depth.exists_above (h : Depth succ k₀ k (d + 1)) :
    ∃ k', Depth succ k₀ k' d ∧ k ∈ succ k' := by
  obtain ⟨hreach, hle⟩ := h
  cases hreach with
  | @step _ k' _ hreach hk =>
    refine ⟨k', ⟨hreach, fun e he => ?_⟩, hk⟩
    exact Nat.le_of_succ_le_succ (hle (e + 1) (.step he hk))

variable (succ k₀) in
/-- The keys one level above a depth. -/
def Above (d : ℕ) (ks : List K) : Prop :=
  ks.Nodup ∧ ∀ k, k ∈ ks ↔ ∃ e, Depth succ k₀ k e ∧ e + 1 = d

theorem above_zero : Above succ k₀ 0 [] := ⟨List.nodup_nil, fun k => by simp⟩

theorem Above.mem_iff {ks : List K} (h : Above succ k₀ (d + 1) ks) :
    k ∈ ks ↔ Depth succ k₀ k d := by
  rw [h.2]
  constructor
  · rintro ⟨e, hk, he⟩
    rwa [← Nat.succ.inj he]
  · exact fun hk => ⟨d, hk, rfl⟩

variable [DecidableEq K]

/-- A key that is led to more than once is so from one key, or from two. -/
theorem one_lt_count_flatMap_iff {ks : List K} (hks : ks.Nodup) :
    1 < (ks.flatMap succ).count k ↔ (∃ k₁ ∈ ks, 1 < (succ k₁).count k) ∨
      ∃ k₁ ∈ ks, ∃ k₂ ∈ ks, k₁ ≠ k₂ ∧ k ∈ succ k₁ ∧ k ∈ succ k₂ := by
  induction ks with
  | nil => simp
  | cons a ks ih =>
    obtain ⟨ha, hks⟩ := List.nodup_cons.1 hks
    have hmem : 0 < (succ a).count k ↔ k ∈ succ a := List.count_pos_iff
    have hrest : 0 < (ks.flatMap succ).count k ↔ ∃ k₂ ∈ ks, k ∈ succ k₂ := by
      rw [List.count_pos_iff, List.mem_flatMap]
    have hne : ∀ k₂ ∈ ks, a ≠ k₂ := fun k₂ hk₂ heq => ha (heq ▸ hk₂)
    have hsum : 1 < (succ a).count k + (ks.flatMap succ).count k ↔
        1 < (succ a).count k ∨ 1 < (ks.flatMap succ).count k ∨
          0 < (succ a).count k ∧ 0 < (ks.flatMap succ).count k := by omega
    rw [List.flatMap_cons, List.count_append, hsum, hmem, hrest, ih hks]
    constructor
    · rintro (h | (⟨k₁, hk₁, h⟩ | ⟨k₁, hk₁, k₂, hk₂, h⟩) | ⟨h, k₂, hk₂, h'⟩)
      · exact .inl ⟨a, List.mem_cons_self, h⟩
      · exact .inl ⟨k₁, List.mem_cons_of_mem _ hk₁, h⟩
      · exact .inr ⟨k₁, List.mem_cons_of_mem _ hk₁, k₂, List.mem_cons_of_mem _ hk₂, h⟩
      · exact .inr ⟨a, List.mem_cons_self, k₂, List.mem_cons_of_mem _ hk₂, hne k₂ hk₂, h, h'⟩
    · rintro (⟨k₁, hk₁, h⟩ | ⟨k₁, hk₁, k₂, hk₂, hk, h, h'⟩)
      · rcases List.mem_cons.1 hk₁ with rfl | hk₁
        · exact .inl h
        · exact .inr (.inl (.inl ⟨k₁, hk₁, h⟩))
      · rcases List.mem_cons.1 hk₁ with rfl | hk₁ <;> rcases List.mem_cons.1 hk₂ with rfl | hk₂
        · exact absurd rfl hk
        · exact .inr (.inr ⟨h, k₂, hk₂, h'⟩)
        · exact .inr (.inr ⟨h', k₁, by assumption, h⟩)
        · exact .inr (.inl (.inr ⟨k₁, hk₁, k₂, hk₂, hk, h, h'⟩))

variable (succ k₀) in
/-- The key is led to more than once from the level above it. -/
def Crowded (k : K) : Prop :=
  ∃ d, Depth succ k₀ k (d + 1) ∧ ((∃ k₁, Depth succ k₀ k₁ d ∧ 1 < (succ k₁).count k) ∨
    ∃ k₁ k₂, Depth succ k₀ k₁ d ∧ Depth succ k₀ k₂ d ∧ k₁ ≠ k₂ ∧ k ∈ succ k₁ ∧ k ∈ succ k₂)

/-- The count of a key tells whether it is crowded. -/
theorem Above.one_lt_count_iff {ks : List K} (h : Above succ k₀ d ks) (hk : Depth succ k₀ k d) :
    1 < (ks.flatMap succ).count k ↔ Crowded succ k₀ k := by
  rw [one_lt_count_flatMap_iff h.1]
  cases d with
  | zero =>
    have hks : ∀ k₁, k₁ ∉ ks := fun k₁ hk₁ => by
      obtain ⟨e, -, he⟩ := (h.2 k₁).1 hk₁
      cases he
    refine iff_of_false ?_ ?_
    · rintro (⟨k₁, hk₁, -⟩ | ⟨k₁, hk₁, -⟩) <;> exact hks k₁ hk₁
    · rintro ⟨e, he, -⟩
      cases hk.unique he
  | succ d =>
    simp only [h.mem_iff]
    constructor
    · rintro (⟨k₁, hk₁, hcount⟩ | ⟨k₁, hk₁, k₂, hk₂, hne⟩)
      · exact ⟨d, hk, .inl ⟨k₁, hk₁, hcount⟩⟩
      · exact ⟨d, hk, .inr ⟨k₁, k₂, hk₁, hk₂, hne⟩⟩
    · rintro ⟨e, he, hcrowded⟩
      obtain rfl : d = e := Nat.succ.inj (hk.unique he)
      rcases hcrowded with ⟨k₁, hk₁, hcount⟩ | ⟨k₁, k₂, hk₁, hk₂, hne⟩
      · exact .inl ⟨k₁, hk₁, hcount⟩
      · exact .inr ⟨k₁, hk₁, k₂, hk₂, hne⟩

/-! ## Visits -/

/-- A visit of a node: how often its key was queued, and what was found. -/
structure Visit (N F : Type) where
  node : N
  count : ℕ
  found : List F

variable (S : LevelSearch N K F ε)

/-- A node that the search may come to from the root in a number of steps. -/
inductive ReachedIn (root : N) : ℕ → N → Prop
  | root : ReachedIn root 0 root
  | child {d : ℕ} {n m : N} {c : ℕ} {r : List F × List N} (hn : ReachedIn root d n)
      (hscan : S.scan c n = .ok r) (hm : m ∈ r.2) : ReachedIn root (d + 1) m

/-- The visit scanned its node, on the level of its depth. -/
structure Visit.Ok (succ : K → List K) (root : N) (v : Visit N F) : Prop where
  scan : ∃ children, S.scan v.count v.node = .ok (v.found, children)
  depth : ∃ d, S.ReachedIn root d v.node ∧ Depth succ (S.key root) (S.key v.node) d
  count : 1 < v.count ↔ Crowded succ (S.key root) (S.key v.node)

variable {S} {good : K → Prop} {root n : N}

omit [DecidableEq K] in
theorem ReachedIn.reachIn (hS : S.Uniform good succ) (hn : S.ReachedIn root d n) :
    ReachIn succ (S.key root) d (S.key n) := by
  induction hn with
  | root => exact .zero
  | @child d n m c r _ hscan hm ih =>
    refine .step ih ?_
    rw [← hS.children _ _ _ hscan]
    exact List.mem_map_of_mem hm

theorem count_enqueue (q : Queue N K) (n : N) (k : K) :
    (S.enqueue q n).count k = q.count k + [S.key n].count k := by
  rw [enqueue]
  by_cases hk : k = S.key n
  · subst hk
    simp
  · simp [Function.update_of_ne hk, Ne.symm hk]

theorem count_foldl_enqueue (l : List N) (q : Queue N K) (k : K) :
    (l.foldl S.enqueue q).count k = q.count k + (l.map S.key).count k := by
  induction l generalizing q with
  | nil => simp
  | cons n l ih =>
    rw [List.foldl_cons, ih, count_enqueue, List.map_cons, List.count_cons (l := l.map S.key),
      List.count_singleton]
    omega

/-! ## The invariant -/

/-- The visits so far. -/
structure Logged (S : LevelSearch N K F ε) (succ : K → List K) (root : N) (s : State N K F)
    (log : List (Visit N F)) : Prop where
  found : s.found = log.flatMap Visit.found
  nodup : (log.map fun v => S.key v.node).Nodup
  visited : ∀ k, k ∈ s.visited ↔ k ∈ log.map fun v => S.key v.node
  ok : ∀ v ∈ log, v.Ok S succ root

/-- The invariant of a search on the level of a depth, with some nodes of the level still to
    come. The keys of the depth that were visited are `done`. -/
structure LevelInv (S : LevelSearch N K F ε) (succ : K → List K) (root : N) (d : ℕ)
    (pending : List N) (done : List K) (s : State N K F) : Prop where
  consistent : s.next.Consistent S.key
  /-- The levels above have been visited, -/
  above : ∀ k e, Depth succ (S.key root) k e → e < d → k ∈ s.visited
  /-- and nothing below. -/
  bounded : ∀ k ∈ s.visited, ∃ e ≤ d, Depth succ (S.key root) k e
  doneNodup : done.Nodup
  mem_done : ∀ k, k ∈ done ↔ k ∈ s.visited ∧ Depth succ (S.key root) k d
  reached : ∀ n ∈ pending, S.ReachedIn root d n
  comes : ∀ k, Depth succ (S.key root) k d → k ∈ s.visited ∨ k ∈ pending.map S.key
  next : ∀ n ∈ s.next.nodes, S.ReachedIn root (d + 1) n
  count : ∀ k, s.next.count k = (done.flatMap succ).count k

variable {pending : List N} {done : List K} {s s' : State N K F} {log : List (Visit N F)}
  {before : N → N → Prop}

/-- A key that is come to on a level has its depth, unless it was visited before. -/
theorem LevelInv.depth (hS : S.Uniform good succ)
    (hinv : LevelInv S succ root d (n :: pending) done s) (hn : S.key n ∉ s.visited) :
    Depth succ (S.key root) (S.key n) d := by
  have hreach := (hinv.reached n List.mem_cons_self).reachIn hS
  -- Were it less deep, it would have been visited on a level above.
  obtain ⟨e, hle, he⟩ := hreach.exists_depth
  rcases Nat.lt_or_eq_of_le hle with hlt | rfl
  · exact absurd (hinv.above _ e he hlt) hn
  · exact he

/-- A node whose key was visited is skipped, -/
theorem LevelInv.skip (hinv : LevelInv S succ root d (n :: pending) done s)
    (hn : S.key n ∈ s.visited) : LevelInv S succ root d pending done s where
  consistent := hinv.consistent
  above := hinv.above
  bounded := hinv.bounded
  doneNodup := hinv.doneNodup
  mem_done := hinv.mem_done
  reached m hm := hinv.reached m (List.mem_cons_of_mem _ hm)
  comes k hk := by
    rcases hinv.comes k hk with h | h
    · exact .inl h
    · rcases List.mem_cons.1 h with rfl | h
      · exact .inl hn
      · exact .inr h
  next := hinv.next
  count := hinv.count

/-- and any other is scanned. -/
theorem LevelInv.scanned (hS : S.Uniform good succ)
    (hinv : LevelInv S succ root d (n :: pending) done s) (hn : S.key n ∉ s.visited) {c : ℕ}
    {r : List F × List N} (hscan : S.scan c n = .ok r) :
    LevelInv S succ root d pending (done ++ [S.key n]) (S.scanned s n r) := by
  -- A key that is new on the level has the depth of the level.
  have hdepth := hinv.depth hS hn
  have hreached := hinv.reached n List.mem_cons_self
  have hdone : S.key n ∉ done := fun h => hn ((hinv.mem_done _).1 h).1
  exact
    { consistent := consistent_foldl_enqueue hinv.consistent _
      above := fun k e hk he => List.mem_cons_of_mem _ (hinv.above k e hk he)
      bounded := fun k hk => by
        rcases List.mem_cons.1 hk with rfl | hk
        · exact ⟨d, le_rfl, hdepth⟩
        · exact hinv.bounded k hk
      doneNodup := by
        rw [List.nodup_append]
        refine ⟨hinv.doneNodup, List.nodup_singleton _, fun a ha b hb heq => hdone ?_⟩
        rwa [← List.mem_singleton.1 hb, ← heq]
      mem_done := fun k => by
        rw [List.mem_append, List.mem_singleton, hinv.mem_done]
        constructor
        · rintro (⟨hk, h⟩ | rfl)
          · exact ⟨List.mem_cons_of_mem _ hk, h⟩
          · exact ⟨List.mem_cons_self, hdepth⟩
        · rintro ⟨hk, h⟩
          rcases List.mem_cons.1 hk with rfl | hk
          · exact .inr rfl
          · exact .inl ⟨hk, h⟩
      reached := fun m hm => hinv.reached m (List.mem_cons_of_mem _ hm)
      comes := fun k hk => by
        rcases hinv.comes k hk with h | h
        · exact .inl (List.mem_cons_of_mem _ h)
        · rcases List.mem_cons.1 h with rfl | h
          · exact .inl List.mem_cons_self
          · exact .inr h
      next := fun m hm => by
        rcases mem_nodes_foldl_enqueue hm with hm | hm
        · exact hinv.next m hm
        · exact .child hreached hscan hm
      count := fun k => by
        rw [List.flatMap_append, List.count_append, ← hinv.count, List.flatMap_singleton,
          ← hS.children _ _ _ hscan]
        exact count_foldl_enqueue r.2 s.next k }

/-- A visit is logged. -/
theorem Logged.scanned (hlog : Logged S succ root s log) (hn : S.key n ∉ s.visited) {c : ℕ}
    {r : List F × List N} (hok : Visit.Ok S succ root { node := n, count := c, found := r.1 }) :
    Logged S succ root (S.scanned s n r) (log ++ [{ node := n, count := c, found := r.1 }]) where
  found := by
    rw [List.flatMap_append, ← hlog.found, List.flatMap_singleton]
    rfl
  nodup := by
    rw [List.map_append, List.nodup_append]
    refine ⟨hlog.nodup, List.nodup_singleton _, fun a ha b hb heq => hn ?_⟩
    obtain rfl := List.mem_singleton.1 hb
    rw [heq] at ha
    exact (hlog.visited _).2 ha
  visited k := by
    rw [List.map_append, List.mem_append, ← hlog.visited]
    exact List.mem_cons.trans (or_comm.trans (or_congr_right List.mem_singleton.symm))
  ok v hv := by
    rcases List.mem_append.1 hv with hv | hv
    · exact hlog.ok v hv
    · rw [List.mem_singleton.1 hv]
      exact hok

/-! ## The order of the visits -/

/-- The search keeps to an order of the nodes: a scan queues nodes in order, nodes in order queue
    nodes in order, and the levels are in order. -/
structure Follows (S : LevelSearch N K F ε) (root : N) (before : N → N → Prop) : Prop where
  trans : ∀ {n m l}, before n m → before m l → before n l
  children : ∀ {c n r}, S.scan c n = .ok r → r.2.Pairwise before
  mono : ∀ {c n r c' m r'}, S.scan c n = .ok r → S.scan c' m = .ok r' → before n m →
    ∀ x ∈ r.2, ∀ y ∈ r'.2, before x y
  levels : ∀ {d e n m}, S.ReachedIn root d n → S.ReachedIn root e m → d < e → before n m

/-- One of some nodes has the key of a node, and is that node or before it. -/
def Covers (S : LevelSearch N K F ε) (before : N → N → Prop) (l : List N) (m : N) : Prop :=
  ∃ n ∈ l, S.key n = S.key m ∧ (n = m ∨ before n m)

/-- The visits are in order, with some nodes of the level still to come, and what they queue is
    covered by the nodes that are visited or will be. -/
structure Sorted (S : LevelSearch N K F ε) (before : N → N → Prop) (pending : List N)
    (s : State N K F) (log : List (Visit N F)) : Prop where
  sorted : (log.map Visit.node ++ pending).Pairwise before
  next : s.next.nodes.Pairwise before
  parents : ∀ m ∈ s.next.nodes, ∃ v ∈ log, ∃ r, S.scan v.count v.node = .ok r ∧ m ∈ r.2
  covered : ∀ v ∈ log, ∀ r, S.scan v.count v.node = .ok r → ∀ m ∈ r.2,
    Covers S before (log.map Visit.node ++ pending ++ s.next.nodes) m

theorem sublist_foldl_enqueue (l : List N) (q : Queue N K) :
    (l.foldl S.enqueue q).nodes.Sublist (q.nodes ++ l) := by
  induction l generalizing q with
  | nil => simp
  | cons n l ih =>
    refine (ih (S.enqueue q n)).trans ?_
    rw [← List.singleton_append, ← List.append_assoc]
    refine List.Sublist.append_right ?_ l
    unfold enqueue
    split_ifs
    · exact List.Sublist.refl _
    · exact List.sublist_append_left _ _

theorem nodes_subset_foldl_enqueue (l : List N) (q : Queue N K) :
    q.nodes ⊆ (l.foldl S.enqueue q).nodes := by
  induction l generalizing q with
  | nil => exact List.Subset.refl _
  | cons n l ih =>
    refine List.Subset.trans ?_ (ih (S.enqueue q n))
    unfold enqueue
    split_ifs
    · exact List.subset_append_left _ _
    · exact List.Subset.refl _

/-- What is queued is covered by the queue, if it is in order: of two nodes with one key, the
    first is kept. -/
theorem covers_foldl_enqueue {before : N → N → Prop} {l : List N} {q : Queue N K}
    (hq : q.Consistent S.key) (hsorted : (q.nodes ++ l).Pairwise before) {m : N} (hm : m ∈ l) :
    Covers S before (l.foldl S.enqueue q).nodes m := by
  induction l generalizing q with
  | nil => cases hm
  | cons n l ih =>
    rw [List.foldl_cons]
    rcases List.mem_cons.1 hm with rfl | hm
    · by_cases hzero : q.count (S.key m) = 0
      · refine ⟨m, nodes_subset_foldl_enqueue l _ ?_, rfl, .inl rfl⟩
        rw [enqueue, if_pos hzero]
        exact List.mem_append_right _ List.mem_cons_self
      · obtain ⟨n, hn, hkey⟩ := List.mem_map.1 ((hq _).1 hzero)
        refine ⟨n, nodes_subset_foldl_enqueue l _ ?_, hkey, .inr ?_⟩
        · rw [enqueue, if_neg hzero]
          exact hn
        · exact (List.pairwise_append.1 hsorted).2.2 n hn m List.mem_cons_self
    · refine ih (hq.enqueue n) (hsorted.sublist ?_) hm
      rw [← List.singleton_append, ← List.append_assoc]
      refine List.Sublist.append_right ?_ l
      simpa using sublist_foldl_enqueue [n] q

section Order

omit [DecidableEq K] in
theorem Covers.mono {l l' : List N} {m : N} (h : Covers S before l m) (hsub : l ⊆ l') :
    Covers S before l' m := by
  obtain ⟨n, hn, hkey⟩ := h
  exact ⟨n, hsub hn, hkey⟩

/-- A node whose key was visited is not needed. -/
theorem Sorted.skip (htrans : ∀ {n m l}, before n m → before m l → before n l)
    (hs : Sorted S before (n :: pending) s log) (hlog : Logged S succ root s log)
    (hn : S.key n ∈ s.visited) : Sorted S before pending s log where
  sorted := hs.sorted.sublist (List.Sublist.append_left (List.sublist_cons_self n pending) _)
  next := hs.next
  parents := hs.parents
  covered v hv r hscan m hm := by
    obtain ⟨k, hk, hkey, hle⟩ := hs.covered v hv r hscan m hm
    simp only [List.append_assoc, List.mem_append, List.mem_cons] at hk
    rcases hk with hk | (rfl | hk) | hk
    · exact ⟨k, by simp [hk], hkey, hle⟩
    · -- The visit with its key comes before it.
      obtain ⟨w, hw, hkey'⟩ := List.mem_map.1 ((hlog.visited _).1 hn)
      have hbefore : before w.node k := (List.pairwise_append.1 hs.sorted).2.2 w.node
        (List.mem_map_of_mem hw) k List.mem_cons_self
      refine ⟨w.node, ?_, hkey'.trans hkey, .inr ?_⟩
      · exact List.mem_append_left _ (List.mem_append_left _ (List.mem_map_of_mem hw))
      · rcases hle with rfl | hle
        · exact hbefore
        · exact htrans hbefore hle
    · exact ⟨k, by simp [hk], hkey, hle⟩
    · exact ⟨k, by simp [hk], hkey, hle⟩

/-- A visit keeps the order. -/
theorem Sorted.scanned (hS : Follows S root before) (hs : Sorted S before (n :: pending) s log)
    (hcons : s.next.Consistent S.key) {c : ℕ} {r : List F × List N}
    (hscan : S.scan c n = .ok r) :
    Sorted S before pending (S.scanned s n r)
      (log ++ [{ node := n, count := c, found := r.1 }]) := by
  have hnodes : (log ++ [({ node := n, count := c, found := r.1 } : Visit N F)]).map Visit.node ++
      pending = log.map Visit.node ++ n :: pending := by simp
  -- What was queued before comes from nodes before this one.
  have hnext : (s.next.nodes ++ r.2).Pairwise before := by
    refine List.pairwise_append.2 ⟨hs.next, hS.children hscan, fun x hx y hy => ?_⟩
    obtain ⟨v, hv, r', hscan', hx⟩ := hs.parents x hx
    exact hS.mono hscan' hscan ((List.pairwise_append.1 hs.sorted).2.2 v.node
      (List.mem_map_of_mem hv) n List.mem_cons_self) x hx y hy
  exact
    { sorted := hnodes ▸ hs.sorted
      next := hnext.sublist (sublist_foldl_enqueue r.2 s.next)
      parents := fun m hm => by
        rcases mem_nodes_foldl_enqueue hm with hm | hm
        · obtain ⟨v, hv, h⟩ := hs.parents m hm
          exact ⟨v, List.mem_append_left _ hv, h⟩
        · exact ⟨_, List.mem_append_right _ List.mem_cons_self, r, hscan, hm⟩
      covered := fun v hv r' hscan' m hm => by
        rw [hnodes]
        rcases List.mem_append.1 hv with hv | hv
        · refine (hs.covered v hv r' hscan' m hm).mono ?_
          exact List.append_subset.2 ⟨List.subset_append_left _ _, List.Subset.trans
            (nodes_subset_foldl_enqueue r.2 s.next) (List.subset_append_right _ _)⟩
        · obtain rfl := List.mem_singleton.1 hv
          obtain rfl := Except.ok.inj (hscan.symm.trans hscan')
          exact (covers_foldl_enqueue hcons hnext hm).mono (List.subset_append_right _ _) }

/-- The next level comes after the visits so far. -/
theorem Sorted.start_next (hS : Follows S root before) (hs : Sorted S before [] s log)
    (hinv : LevelInv S succ root d [] done s) (hlog : Logged S succ root s log) :
    Sorted S before s.next.nodes { s with next := {} } log where
  sorted := by
    have hsorted := hs.sorted
    rw [List.append_nil] at hsorted
    refine List.pairwise_append.2 ⟨hsorted, hs.next, fun x hx y hy => ?_⟩
    obtain ⟨v, hv, rfl⟩ := List.mem_map.1 hx
    obtain ⟨e, hreached, hdepth⟩ := (hlog.ok v hv).depth
    obtain ⟨e', hle, hdepth'⟩ := hinv.bounded _ ((hlog.visited _).2 (List.mem_map_of_mem hv))
    obtain rfl := hdepth.unique hdepth'
    exact hS.levels hreached (hinv.next y hy) (Nat.lt_succ_of_le hle)
  next := List.Pairwise.nil
  parents _ hm := absurd hm List.not_mem_nil
  covered v hv r hscan m hm := by
    simpa using hs.covered v hv r hscan m hm

end Order

/-! ## The loop -/

/-- The nodes of a level are visited, those that come first. -/
theorem LevelInv.level (hS : S.Uniform good succ) (hO : Follows S root before) {count : K → ℕ}
    {ks : List K} (habove : Above succ (S.key root) d ks)
    (hcount : ∀ k, count k = (ks.flatMap succ).count k) {l : List N}
    (hinv : LevelInv S succ root d l done s) (hlog : Logged S succ root s log)
    (hsorted : Sorted S before l s log) (h : S.level count l s = .ok s') :
    ∃ done' log', LevelInv S succ root d [] done' s' ∧ Logged S succ root s' log' ∧
      Sorted S before [] s' log' := by
  induction l generalizing s done log with
  | nil =>
    cases h
    exact ⟨done, log, hinv, hlog, hsorted⟩
  | cons n l ih =>
    rw [LevelSearch.level] at h
    split at h
    · cases h
    case h_2 s₁ hvisit =>
      rcases visit_eq_ok hvisit with ⟨hn, rfl⟩ | ⟨hn, r, hscan, rfl⟩
      · exact ih (hinv.skip hn) hlog (hsorted.skip hO.trans hlog hn) h
      · have hdepth := hinv.depth hS hn
        refine ih (hinv.scanned hS hn hscan)
          (hlog.scanned hn ⟨⟨r.2, hscan⟩, ⟨d, hinv.reached n List.mem_cons_self, hdepth⟩, ?_⟩)
          (hsorted.scanned hO hinv.consistent hscan) h
        rw [hcount]
        exact habove.one_lt_count_iff hdepth

/-- At the end of a level, its keys are the ones above the next. -/
theorem LevelInv.above_done (hinv : LevelInv S succ root d [] done s) :
    Above succ (S.key root) (d + 1) done := by
  refine ⟨hinv.doneNodup, fun k => ?_⟩
  rw [hinv.mem_done]
  constructor
  · rintro ⟨-, hk⟩
    exact ⟨d, hk, rfl⟩
  · rintro ⟨e, hk, he⟩
    obtain rfl := Nat.succ.inj he
    exact ⟨(hinv.comes k hk).resolve_right List.not_mem_nil, hk⟩

/-- The level after one that is over. -/
theorem LevelInv.start_next (hinv : LevelInv S succ root d [] done s) :
    LevelInv S succ root (d + 1) s.next.nodes [] { s with next := {} } where
  consistent := Queue.consistent_empty _
  above k e hk he := by
    rcases Nat.lt_or_eq_of_le (Nat.le_of_lt_succ he) with he | rfl
    · exact hinv.above k e hk he
    · exact (hinv.comes k hk).resolve_right List.not_mem_nil
  bounded k hk := by
    obtain ⟨e, he, hdepth⟩ := hinv.bounded k hk
    exact ⟨e, Nat.le_succ_of_le he, hdepth⟩
  doneNodup := List.nodup_nil
  mem_done k := by
    refine iff_of_false List.not_mem_nil ?_
    rintro ⟨hk, hdepth⟩
    obtain ⟨e, he, hdepth'⟩ := hinv.bounded k hk
    have := hdepth.unique hdepth'
    omega
  reached := hinv.next
  comes k hk := by
    -- The key is led to from one of the level that is over, which has queued it.
    obtain ⟨k', hk', hmem⟩ := hk.exists_above
    have hdone : k' ∈ done := hinv.above_done.mem_iff.2 hk'
    refine .inr ((hinv.consistent k).1 ?_)
    rw [hinv.count, ← Nat.pos_iff_ne_zero, List.count_pos_iff]
    exact List.mem_flatMap.2 ⟨k', hdone, hmem⟩
  next m hm := absurd hm List.not_mem_nil
  count k := rfl

/-- The level of the root. -/
theorem levelInv_start :
    LevelInv S succ root 0 (start root : State N K F).next.nodes []
      { (start root : State N K F) with next := {} } where
  consistent := Queue.consistent_empty _
  above _ _ _ he := absurd he (Nat.not_lt_zero _)
  bounded _ hk := absurd hk List.not_mem_nil
  doneNodup := List.nodup_nil
  mem_done _ := iff_of_false List.not_mem_nil fun h => List.not_mem_nil h.1
  reached m hm := by
    rw [List.mem_singleton.1 hm]
    exact .root
  comes k hk := by
    refine .inr (List.mem_singleton.2 ?_)
    cases hk.reach with
    | zero => rfl
  next _ hm := absurd hm List.not_mem_nil
  count _ := rfl

/-- Between two levels: the queue is that of the next level, with its counts. -/
structure AtLevel (S : LevelSearch N K F ε) (succ : K → List K) (root : N) (d : ℕ)
    (s : State N K F) : Prop where
  inv : LevelInv S succ root d s.next.nodes [] { s with next := {} }
  count : ∃ ks, Above succ (S.key root) d ks ∧ ∀ k, s.next.count k = (ks.flatMap succ).count k

/-- The levels, one after the other. -/
theorem AtLevel.loop (hS : S.Uniform good succ) (hO : Follows S root before) {fuel : ℕ}
    (hat : AtLevel S succ root d s) (hlog : Logged S succ root s log)
    (hsorted : Sorted S before s.next.nodes { s with next := {} } log)
    (h : S.loop fuel s = .ok s') :
    ∃ log', Logged S succ root s' log' ∧
      Sorted S before s'.next.nodes { s' with next := {} } log' := by
  induction fuel generalizing s d log with
  | zero =>
    cases h
    exact ⟨log, hlog, hsorted⟩
  | succ fuel ih =>
    rw [LevelSearch.loop] at h
    split_ifs at h
    · cases h
      exact ⟨log, hlog, hsorted⟩
    · split at h
      · cases h
      case h_2 s₁ hlevel =>
        obtain ⟨ks, habove, hcount⟩ := hat.count
        obtain ⟨done, log', hinv, hlog', hsorted'⟩ := hat.inv.level hS hO habove hcount
          ⟨hlog.found, hlog.nodup, hlog.visited, hlog.ok⟩ hsorted hlevel
        exact ih ⟨hinv.start_next, done, hinv.above_done, hinv.count⟩ hlog'
          (hsorted'.start_next hO hinv hlog') h

section Search

variable (hS : S.Uniform good succ) {univ : List K} (huniv : ∀ k, succ k ≠ [] → k ∈ univ)
include hS huniv

/-- The visits of a search: one for every key that can be reached, in order, and in the first
    node that is queued for it. -/
theorem search_log (hO : Follows S root before) (h : S.search (univ.length + 1) root = .ok s) :
    ∃ log, Logged S succ root s log ∧
      (∀ k, (k ∈ log.map fun v => S.key v.node) ↔ Reach succ (S.key root) k) ∧
      (log.map Visit.node).Pairwise before ∧
      ∀ v ∈ log, ∀ r, S.scan v.count v.node = .ok r → ∀ m ∈ r.2,
        Covers S before (log.map Visit.node) m := by
  have hat : AtLevel S succ root 0 (start root : State N K F) :=
    ⟨levelInv_start, [], above_zero, fun _ => rfl⟩
  have hstart : Logged S succ root (start root : State N K F) [] :=
    ⟨rfl, List.nodup_nil, fun _ => Iff.rfl, fun _ hv => absurd hv List.not_mem_nil⟩
  have hsorted : Sorted S before (start root : State N K F).next.nodes
      { (start root : State N K F) with next := {} } [] :=
    ⟨List.pairwise_singleton _ _, List.Pairwise.nil, fun _ hm => absurd hm List.not_mem_nil,
      fun _ hv => absurd hv List.not_mem_nil⟩
  obtain ⟨log, hlog, hsorted⟩ := hat.loop hS hO hstart hsorted h
  rw [next_search hS huniv h] at hsorted
  refine ⟨log, hlog, fun k => ⟨fun hk => ?_, fun hk => ?_⟩, ?_, fun v hv r hscan m hm => ?_⟩
  · obtain ⟨v, hv, rfl⟩ := List.mem_map.1 hk
    obtain ⟨d, -, hdepth⟩ := (hlog.ok v hv).depth
    exact hdepth.reach.reach
  · rw [← hlog.visited]
    exact visited_of_reach hS huniv h hk
  · simpa using hsorted.sorted
  · simpa using hsorted.covered v hv r hscan m hm

end Search

end LevelSearch

end Go
