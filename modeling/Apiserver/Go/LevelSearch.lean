import Mathlib.Data.List.Basic
import Mathlib.Data.Nat.Basic
import Mathlib.Logic.Function.Basic
import Mathlib.Logic.Relation

/-!
# Searches level by level

A breadth-first search as Go code writes it: a loop over levels, each of which
scans the nodes that the level before has queued. A node is scanned unless one
with its key has been; scanning it finds some items, queues some nodes for the next
level, or fails, which ends the search. A node is queued once for its key on a
level, but it is counted how often it would have been, and the scan of a node may
depend on the count.

Whether a scan fails, and the keys of the nodes it queues, are to depend on the key
alone (`Uniform`). The search is then one of the graph of keys:

* `search_isOk_iff`: it fails if a key that can be reached is bad, and only then;
* `Found.of_mem`, `found_of_reach`: what is found is found in nodes that are
  reached, one at least for every key that can be;
* `next_search`: it ends with nothing left in the queue.
-/

namespace Go

/-- A search: the key of a node, and the scan of a node that was queued some number
    of times. -/
structure LevelSearch (N K F ε : Type) where
  key : N → K
  scan : ℕ → N → Except ε (List F × List N)

namespace LevelSearch

variable {N K F ε : Type}

/-- The nodes queued for the next level, and how often each key was. -/
structure Queue (N K : Type) where
  nodes : List N := []
  count : K → ℕ := fun _ => 0

structure State (N K F : Type) where
  visited : List K := []
  next : Queue N K := {}
  found : List F := []

/-- The state a search starts from. -/
def start (root : N) : State N K F := { next := { nodes := [root] } }

variable (S : LevelSearch N K F ε)

section Loop

variable [DecidableEq K]

def enqueue (q : Queue N K) (n : N) : Queue N K where
  nodes := if q.count (S.key n) = 0 then q.nodes ++ [n] else q.nodes
  count := Function.update q.count (S.key n) (q.count (S.key n) + 1)

/-- The state after a scan of a node. -/
def scanned (s : State N K F) (n : N) (r : List F × List N) : State N K F where
  visited := S.key n :: s.visited
  next := r.2.foldl S.enqueue s.next
  found := s.found ++ r.1

def visit (count : K → ℕ) (s : State N K F) (n : N) : Except ε (State N K F) :=
  if S.key n ∈ s.visited then .ok s
  else match S.scan (count (S.key n)) n with
    | .error err => .error err
    | .ok r => .ok (S.scanned s n r)

/-- The nodes of a level. -/
def level (count : K → ℕ) : List N → State N K F → Except ε (State N K F)
  | [], s => .ok s
  | n :: l, s => match S.visit count s n with
    | .error err => .error err
    | .ok s => level count l s

/-- The loop over the levels, for a number of them at most. -/
def loop : ℕ → State N K F → Except ε (State N K F)
  | 0, s => .ok s
  | fuel + 1, s =>
    if s.next.nodes.isEmpty then .ok s
    else match S.level s.next.count s.next.nodes { s with next := {} } with
      | .error err => .error err
      | .ok s => loop fuel s

def search (fuel : ℕ) (root : N) : Except ε (State N K F) := S.loop fuel (start root)

end Loop

/-! ## The graph of keys -/

/-- Whether a scan fails, and the keys it queues, depend on the key. -/
structure Uniform (good : K → Prop) (succ : K → List K) : Prop where
  isOk : ∀ c n, (∃ r, S.scan c n = .ok r) ↔ good (S.key n)
  children : ∀ c n r, S.scan c n = .ok r → r.2.map S.key = succ (S.key n)

/-- A node that the search may come to from the root. -/
inductive Reached (root : N) : N → Prop
  | root : Reached root root
  | child {n m : N} {c : ℕ} {r : List F × List N} (hn : Reached root n)
      (hscan : S.scan c n = .ok r) (hm : m ∈ r.2) : Reached root m

/-- The item is found in a node that is reached. -/
def Found (root : N) (f : F) : Prop :=
  ∃ n c r, S.Reached root n ∧ S.scan c n = .ok r ∧ f ∈ r.1

/-- The keys that can be reached. -/
abbrev Reach (succ : K → List K) : K → K → Prop := Relation.ReflTransGen fun k k' => k' ∈ succ k

variable {S} {good : K → Prop} {succ : K → List K} {root : N}

theorem Reached.reach (hS : S.Uniform good succ) {n : N} (hn : S.Reached root n) :
    Reach succ (S.key root) (S.key n) := by
  induction hn with
  | root => exact .refl
  | @child n m c r _ hscan hm ih =>
    refine ih.tail ?_
    rw [← hS.children _ _ _ hscan]
    exact List.mem_map_of_mem hm

/-! ## The queue -/

/-- A key was counted if a node with it is in the queue, and only then. -/
def Queue.Consistent (q : Queue N K) (key : N → K) : Prop :=
  ∀ k, q.count k ≠ 0 ↔ k ∈ q.nodes.map key

theorem Queue.consistent_empty (key : N → K) : ({} : Queue N K).Consistent key := fun k => by simp

variable [DecidableEq K]

variable {q : Queue N K}

theorem mem_nodes_enqueue {n m : N} (hm : m ∈ (S.enqueue q n).nodes) :
    m ∈ q.nodes ∨ m = n := by
  unfold enqueue at hm
  split_ifs at hm
  · simpa using hm
  · exact .inl hm

theorem mem_keys_enqueue (hq : q.Consistent S.key) (n : N) (k : K) :
    k ∈ (S.enqueue q n).nodes.map S.key ↔ k ∈ q.nodes.map S.key ∨ k = S.key n := by
  unfold enqueue
  split_ifs with hzero
  · simp
  · refine ⟨.inl, ?_⟩
    rintro (hk | rfl)
    · exact hk
    · exact (hq _).1 hzero

theorem Queue.Consistent.enqueue (hq : q.Consistent S.key) (n : N) :
    (S.enqueue q n).Consistent S.key := by
  intro k
  rw [mem_keys_enqueue hq, ← hq k]
  by_cases hk : k = S.key n
  · subst hk
    simp [LevelSearch.enqueue]
  · simp [LevelSearch.enqueue, hk]

theorem mem_nodes_foldl_enqueue {l : List N} {m : N} (hm : m ∈ (l.foldl S.enqueue q).nodes) :
    m ∈ q.nodes ∨ m ∈ l := by
  induction l generalizing q with
  | nil => exact .inl hm
  | cons n l ih =>
    rcases ih hm with hm | hm
    · rcases mem_nodes_enqueue hm with hm | rfl
      · exact .inl hm
      · exact .inr List.mem_cons_self
    · exact .inr (List.mem_cons_of_mem _ hm)

theorem consistent_foldl_enqueue (hq : q.Consistent S.key) (l : List N) :
    (l.foldl S.enqueue q).Consistent S.key := by
  induction l generalizing q with
  | nil => exact hq
  | cons n l ih => exact ih (hq.enqueue n)

theorem mem_keys_foldl_enqueue (hq : q.Consistent S.key) (l : List N) (k : K) :
    k ∈ (l.foldl S.enqueue q).nodes.map S.key ↔ k ∈ q.nodes.map S.key ∨ k ∈ l.map S.key := by
  induction l generalizing q with
  | nil => simp
  | cons n l ih =>
    rw [List.foldl_cons, ih (hq.enqueue n), mem_keys_enqueue hq, List.map_cons, List.mem_cons,
      or_assoc]

/-! ## The invariant -/

/-- The key has been visited, or will be: some nodes of the level are still to come. -/
def Comes (S : LevelSearch N K F ε) (pending : List N) (s : State N K F) (k : K) : Prop :=
  k ∈ s.visited ∨ k ∈ pending.map S.key ∨ k ∈ s.next.nodes.map S.key

/-- The invariant of the search, with some nodes of the level still to come. -/
structure Inv (S : LevelSearch N K F ε) (good : K → Prop) (succ : K → List K) (root : N)
    (pending : List N) (s : State N K F) : Prop where
  consistent : s.next.Consistent S.key
  reached : ∀ n, n ∈ pending ∨ n ∈ s.next.nodes → S.Reached root n
  rooted : Comes S pending s (S.key root)
  visitedGood : ∀ k ∈ s.visited, good k
  /-- What a visited key leads to is visited, or will be. -/
  closed : ∀ k ∈ s.visited, ∀ k' ∈ succ k, Comes S pending s k'
  found : ∀ f ∈ s.found, S.Found root f
  /-- A node with the key was scanned. -/
  kept : ∀ k ∈ s.visited, ∃ n c r, S.Reached root n ∧ S.key n = k ∧ S.scan c n = .ok r ∧
    ∀ f ∈ r.1, f ∈ s.found

section Steps

variable {pending : List N} {s s' : State N K F} {n : N}

omit [DecidableEq K] in
theorem come_skip {k : K} (hn : S.key n ∈ s.visited) (hk : Comes S (n :: pending) s k) :
    Comes S pending s k := by
  rcases hk with h | h | h
  · exact .inl h
  · rcases List.mem_cons.1 h with rfl | h
    · exact .inl hn
    · exact .inr (.inl h)
  · exact .inr (.inr h)

theorem come_scanned {k : K} (hs : s.next.Consistent S.key) {r : List F × List N}
    (hk : Comes S (n :: pending) s k) : Comes S pending (S.scanned s n r) k := by
  rcases hk with h | h | h
  · exact .inl (List.mem_cons_of_mem _ h)
  · rcases List.mem_cons.1 h with rfl | h
    · exact .inl List.mem_cons_self
    · exact .inr (.inl h)
  · exact .inr (.inr ((mem_keys_foldl_enqueue hs r.2 k).2 (.inl h)))

omit [DecidableEq K] in
theorem Inv.skip (hinv : Inv S good succ root (n :: pending) s) (hn : S.key n ∈ s.visited) :
    Inv S good succ root pending s where
  consistent := hinv.consistent
  reached m hm := hinv.reached m (hm.imp_left (List.mem_cons_of_mem _))
  rooted := come_skip hn hinv.rooted
  visitedGood := hinv.visitedGood
  closed k hk k' hk' := come_skip hn (hinv.closed k hk k' hk')
  found := hinv.found
  kept := hinv.kept

/-- A scan keeps the invariant. -/
theorem Inv.scanned (hS : S.Uniform good succ) (hinv : Inv S good succ root (n :: pending) s)
    {c : ℕ} {r : List F × List N} (hscan : S.scan c n = .ok r) :
    Inv S good succ root pending (S.scanned s n r) := by
  have hn : S.Reached root n := hinv.reached n (.inl List.mem_cons_self)
  exact
    { consistent := consistent_foldl_enqueue hinv.consistent _
      reached := fun m hm => by
        rcases hm with hm | hm
        · exact hinv.reached m (.inl (List.mem_cons_of_mem _ hm))
        · rcases mem_nodes_foldl_enqueue hm with hm | hm
          · exact hinv.reached m (.inr hm)
          · exact .child hn hscan hm
      rooted := come_scanned hinv.consistent hinv.rooted
      visitedGood := fun k hk => by
        rcases List.mem_cons.1 hk with rfl | hk
        · exact (hS.isOk c n).1 ⟨r, hscan⟩
        · exact hinv.visitedGood k hk
      closed := fun k hk k' hk' => by
        rcases List.mem_cons.1 hk with rfl | hk
        · -- The keys that the node itself leads to have been queued.
          rw [← hS.children _ _ _ hscan] at hk'
          exact .inr (.inr ((mem_keys_foldl_enqueue hinv.consistent r.2 k').2 (.inr hk')))
        · exact come_scanned hinv.consistent (hinv.closed k hk k' hk')
      found := fun f hf => by
        rcases List.mem_append.1 hf with hf | hf
        · exact hinv.found f hf
        · exact ⟨n, c, r, hn, hscan, hf⟩
      kept := fun k hk => by
        rcases List.mem_cons.1 hk with rfl | hk
        · exact ⟨n, c, r, hn, rfl, hscan, fun f hf => List.mem_append_right _ hf⟩
        · obtain ⟨m, c', r', hm, hkey, hscan', hsub⟩ := hinv.kept k hk
          exact ⟨m, c', r', hm, hkey, hscan', fun f hf => List.mem_append_left _ (hsub f hf)⟩ }

variable {count : K → ℕ}

/-- What a visit does. -/
theorem visit_eq_ok (h : S.visit count s n = .ok s') :
    (S.key n ∈ s.visited ∧ s' = s) ∨
      (S.key n ∉ s.visited ∧ ∃ r, S.scan (count (S.key n)) n = .ok r ∧ s' = S.scanned s n r) := by
  unfold visit at h
  split_ifs at h with hn
  · exact .inl ⟨hn, (Except.ok.inj h).symm⟩
  · refine .inr ⟨hn, ?_⟩
    split at h
    · cases h
    case h_2 r hr => exact ⟨r, hr, (Except.ok.inj h).symm⟩

theorem visit_isOk (hS : S.Uniform good succ) (hn : good (S.key n)) :
    ∃ s', S.visit count s n = .ok s' := by
  unfold visit
  split_ifs
  · exact ⟨s, rfl⟩
  · obtain ⟨r, hr⟩ := (hS.isOk (count (S.key n)) n).2 hn
    exact ⟨S.scanned s n r, by rw [hr]⟩

theorem Inv.visit (hS : S.Uniform good succ) (hinv : Inv S good succ root (n :: pending) s)
    (h : S.visit count s n = .ok s') : Inv S good succ root pending s' := by
  rcases visit_eq_ok h with ⟨hn, rfl⟩ | ⟨-, r, hscan, rfl⟩
  · exact hinv.skip hn
  · exact hinv.scanned hS hscan

theorem Inv.level (hS : S.Uniform good succ) {l : List N} (hinv : Inv S good succ root l s)
    (h : S.level count l s = .ok s') :
    Inv S good succ root [] s' := by
  induction l generalizing s with
  | nil =>
    cases h
    exact hinv
  | cons n l ih =>
    rw [LevelSearch.level] at h
    split at h
    · cases h
    case h_2 s₁ hvisit => exact ih (hinv.visit hS hvisit) h

/-- A level whose nodes are good goes through. -/
theorem Inv.level_isOk (hS : S.Uniform good succ) (count : K → ℕ) {l : List N}
    (hinv : Inv S good succ root l s)
    (hgood : ∀ k, Reach succ (S.key root) k → good k) : ∃ s', S.level count l s = .ok s' := by
  induction l generalizing s with
  | nil => exact ⟨s, rfl⟩
  | cons n l ih =>
    have hn := (hinv.reached n (.inl List.mem_cons_self)).reach hS
    obtain ⟨s₁, hvisit⟩ : ∃ s₁, S.visit count s n = .ok s₁ := visit_isOk hS (hgood _ hn)
    rw [LevelSearch.level, hvisit]
    exact ih (hinv.visit hS hvisit)

omit [DecidableEq K] in
theorem Comes.next {k : K} (hk : Comes S [] s k) :
    Comes S s.next.nodes { s with next := {} } k := by
  rcases hk with h | h | h
  · exact .inl h
  · simp at h
  · exact .inr (.inl h)

/-- The invariant between two levels: the nodes that were queued are the ones to come. -/
def Ready (S : LevelSearch N K F ε) (good : K → Prop) (succ : K → List K) (root : N)
    (s : State N K F) : Prop :=
  Inv S good succ root s.next.nodes { s with next := {} }

omit [DecidableEq K] in
theorem Ready.start : Ready S good succ root (start root) where
  consistent := Queue.consistent_empty _
  reached m hm := by
    rcases hm with hm | hm
    · obtain rfl := List.mem_singleton.1 hm
      exact .root
    · simp at hm
  rooted := .inr (.inl List.mem_cons_self)
  visitedGood _ hk := by simp [LevelSearch.start] at hk
  closed _ hk := by simp [LevelSearch.start] at hk
  found _ hf := by simp [LevelSearch.start] at hf
  kept _ hk := by simp [LevelSearch.start] at hk

omit [DecidableEq K] in
theorem Inv.ready (hinv : Inv S good succ root [] s) : Ready S good succ root s where
  consistent := Queue.consistent_empty _
  reached m hm := by
    rcases hm with hm | hm
    · exact hinv.reached m (.inr hm)
    · simp at hm
  rooted := hinv.rooted.next
  visitedGood := hinv.visitedGood
  closed k hk k' hk' := (hinv.closed k hk k' hk').next
  found := hinv.found
  kept := hinv.kept

/-- The loop keeps the invariant between levels. -/
theorem Ready.loop (hS : S.Uniform good succ) {fuel : ℕ} (hs : Ready S good succ root s)
    (h : S.loop fuel s = .ok s') : Ready S good succ root s' := by
  induction fuel generalizing s with
  | zero =>
    cases h
    exact hs
  | succ fuel ih =>
    rw [LevelSearch.loop] at h
    split_ifs at h
    · cases h
      exact hs
    · split at h
      · cases h
      case h_2 s₁ hlevel => exact ih (Inv.level hS hs hlevel).ready h

theorem Ready.loop_isOk (hS : S.Uniform good succ) (fuel : ℕ) (hs : Ready S good succ root s)
    (hgood : ∀ k, Reach succ (S.key root) k → good k) : ∃ s', S.loop fuel s = .ok s' := by
  induction fuel generalizing s with
  | zero => exact ⟨s, rfl⟩
  | succ fuel ih =>
    rw [LevelSearch.loop]
    split_ifs
    · exact ⟨s, rfl⟩
    · obtain ⟨s₁, hlevel⟩ := Inv.level_isOk hS s.next.count hs hgood
      rw [hlevel]
      exact ih (Inv.level hS hs hlevel).ready

/-! ## The end of the search -/

/-- How many keys of a list have not been visited. -/
def unvisited (univ : List K) (s : State N K F) : ℕ := univ.countP (· ∉ s.visited)

theorem unvisited_scanned_le (univ : List K) (r : List F × List N) :
    unvisited univ (S.scanned s n r) ≤ unvisited univ s := by
  refine List.countP_mono_left fun k _ hk => ?_
  simp only [decide_eq_true_eq] at hk ⊢
  exact fun h => hk (List.mem_cons_of_mem _ h)

/-- A scan of a new key leaves one less. -/
theorem unvisited_scanned_lt {univ : List K} (r : List F × List N) (hn : S.key n ∈ univ)
    (hs : S.key n ∉ s.visited) : unvisited univ (S.scanned s n r) < unvisited univ s := by
  obtain ⟨l₁, l₂, rfl⟩ := List.append_of_mem hn
  have h₁ := unvisited_scanned_le (S := S) (s := s) (n := n) l₁ r
  have h₂ := unvisited_scanned_le (S := S) (s := s) (n := n) l₂ r
  have hnew : S.key n ∈ (S.scanned s n r).visited := List.mem_cons_self
  simp only [unvisited] at h₁ h₂
  simp only [unvisited, List.countP_append, List.countP_cons, hs, hnew, not_true, not_false_iff,
    decide_true, decide_false, if_true, Bool.false_eq_true, if_false]
  omega

/-- A level queues nothing, or leaves fewer keys unvisited. -/
theorem unvisited_level (hS : S.Uniform good succ) {univ : List K}
    (huniv : ∀ k, succ k ≠ [] → k ∈ univ) {l : List N} (h : S.level count l s = .ok s') :
    unvisited univ s' ≤ unvisited univ s ∧
      (s'.next = s.next ∨ unvisited univ s' < unvisited univ s) := by
  induction l generalizing s with
  | nil =>
    cases h
    exact ⟨le_rfl, .inl rfl⟩
  | cons n l ih =>
    rw [LevelSearch.level] at h
    split at h
    · cases h
    case h_2 s₁ hvisit =>
      obtain ⟨hle, hnext⟩ := ih h
      rcases visit_eq_ok hvisit with ⟨-, rfl⟩ | ⟨hn, r, hscan, rfl⟩
      · exact ⟨hle, hnext⟩
      · refine ⟨Nat.le_trans hle (unvisited_scanned_le univ r), ?_⟩
        by_cases hsucc : succ (S.key n) = []
        · -- The node queues nothing.
          have hr : r.2 = [] := by
            rw [← List.map_eq_nil_iff (f := S.key), hS.children _ _ _ hscan, hsucc]
          refine hnext.imp (fun h => ?_) fun h =>
            Nat.lt_of_lt_of_le h (unvisited_scanned_le univ r)
          rw [h, scanned, hr, List.foldl_nil]
        · exact .inr (Nat.lt_of_le_of_lt hle (unvisited_scanned_lt r (huniv _ hsucc) hn))

/-- The loop ends before the fuel does. -/
theorem next_loop (hS : S.Uniform good succ) {univ : List K}
    (huniv : ∀ k, succ k ≠ [] → k ∈ univ) {fuel : ℕ} (hfuel : unvisited univ s < fuel)
    (h : S.loop fuel s = .ok s') : s'.next.nodes = [] := by
  induction fuel generalizing s with
  | zero => omega
  | succ fuel ih =>
    rw [LevelSearch.loop] at h
    split_ifs at h with hnil
    · cases h
      exact List.isEmpty_iff.1 hnil
    · split at h
      · cases h
      case h_2 s₁ hlevel =>
        obtain ⟨-, hnext | hlt⟩ := unvisited_level hS huniv hlevel
        · -- Nothing was queued, so that the loop ends here.
          have hnil : s₁.next.nodes = [] := by rw [hnext]
          cases fuel with
          | zero =>
            cases h
            exact hnil
          | succ fuel =>
            rw [LevelSearch.loop, hnil, List.isEmpty_nil, if_pos rfl] at h
            cases h
            exact hnil
        · exact ih (by simp only [unvisited] at hlt hfuel ⊢; omega) h

end Steps

/-! ## What a search finds -/

section Search

variable (hS : S.Uniform good succ) {univ : List K} (huniv : ∀ k, succ k ≠ [] → k ∈ univ)
include hS huniv

variable {s : State N K F}

/-- The search ends with nothing left in the queue. -/
theorem next_search (h : S.search (univ.length + 1) root = .ok s) :
    s.next.nodes = [] :=
  next_loop hS huniv (Nat.lt_succ_of_le (List.countP_le_length)) h

theorem visited_of_reach (h : S.search (univ.length + 1) root = .ok s) {k : K}
    (hk : Reach succ (S.key root) k) : k ∈ s.visited := by
  have hinv : Ready S good succ root s := Ready.loop hS .start h
  rw [Ready, next_search hS huniv h] at hinv
  have hcomes {k : K} (hk : Comes S [] { s with next := {} } k) : k ∈ s.visited := by
    simpa [Comes] using hk
  induction hk with
  | refl => exact hcomes hinv.rooted
  | tail _ hk ih => exact hcomes (hinv.closed _ ih _ hk)

/-- The search goes through if all keys that can be reached are good, and only then. -/
theorem search_isOk_iff :
    (∃ s, S.search (univ.length + 1) root = .ok s) ↔
      ∀ k, Reach succ (S.key root) k → good k := by
  refine ⟨fun ⟨s, h⟩ k hk => ?_, fun hgood => Ready.loop_isOk hS _ .start hgood⟩
  exact (Ready.loop hS .start h).visitedGood k (visited_of_reach hS huniv h hk)

/-- For every key that can be reached, what some node with it holds is found. -/
theorem found_of_reach (h : S.search (univ.length + 1) root = .ok s) {k : K}
    (hk : Reach succ (S.key root) k) :
    ∃ n c r, S.Reached root n ∧ S.key n = k ∧ S.scan c n = .ok r ∧ ∀ f ∈ r.1, f ∈ s.found :=
  (Ready.loop hS .start h).kept k (visited_of_reach hS huniv h hk)

omit huniv in
/-- What is found is found in a node that is reached. -/
theorem Found.of_mem {fuel : ℕ} (h : S.search fuel root = .ok s) {f : F} (hf : f ∈ s.found) :
    S.Found root f :=
  (Ready.loop hS .start h).found f hf

end Search

end LevelSearch

end Go
