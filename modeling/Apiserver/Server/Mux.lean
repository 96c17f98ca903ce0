import Apiserver.Basic
import Apiserver.Go.Sort
import Apiserver.Go.Strings
import Mathlib.Data.List.Infix
import Mathlib.Data.Prod.Lex
import Mathlib.Data.String.Basic

/-!
# The mux of the server

`PathRecorderMux` (`pkg/server/mux/pathrecorder.go`) serves the paths outside
the API. A handler is registered for a path or for everything under a prefix,
with or without listing it, and both are unregistered together. After every
operation the mux makes a new snapshot of its handlers to serve requests from:
the exact ones, and the prefixes in the order they are tried in.

A handler is an arbitrary `H`. The order of the prefixes comes from sorting them
with `sort.Sort`, after they have been read from a map in any order; each time
this is an arbitrary `PrefixSort`. The stacks of the callers, which are only
logged, are left out.

* `priority_lt_of_append`: the order lists a prefix after those it is a prefix of;
* `Snapshot.find_eq_some`: so the first that matches is the longest;
* `registers_run`: what is registered after any sequence of operations;
* `run_serveHTTP`: what serves a request then, which depends on what happened to
  each path only.
-/

namespace Apiserver.Server

open Go

/-! ## The order of prefixes -/

/-- `Less` of `byPrefixPriority`. -/
def byPrefixPriorityLess (s t : String) : Bool :=
  let lhsNumParts := s.toList.count '/'
  let rhsNumParts := t.toList.count '/'
  if lhsNumParts ≠ rhsNumParts then lhsNumParts < rhsNumParts
  else
    let lhsLen := s.utf8ByteSize
    let rhsLen := t.utf8ByteSize
    if lhsLen ≠ rhsLen then lhsLen < rhsLen
    else s < t

/-- What reading the prefixes from a map and `sort.Sort` of them, by the reverse
    of `byPrefixPriority`, may do. -/
structure PrefixSort where
  sort : List String → List String
  perm : ∀ l, (sort l).Perm l
  sorted : ∀ l, (sort l).Pairwise fun s t => byPrefixPriorityLess s t = false

/-! ## The mux -/

/-- `pathHandler`: what requests are served from. -/
structure PathHandler (H : Type) where
  pathToHandler : AList fun _ : String => H := ∅
  prefixHandlers : List (String × H) := []
  notFoundHandler : H

/-- `PathRecorderMux`. -/
structure PathRecorderMux (H : Type) where
  notFoundHandler : Option H := none
  pathToHandler : AList fun _ : String => H := ∅
  prefixToHandler : AList fun _ : String => H := ∅
  mux : PathHandler H
  exposedPaths : List String := []

variable {H : Type}

/-- `ServeHTTP` of a `pathHandler`: the handler a request for a path is sent to. -/
def PathHandler.serveHTTP (h : PathHandler H) (path : String) : H :=
  match h.pathToHandler.lookup path with
  | some exactHandler => exactHandler
  | none => match h.prefixHandlers.find? fun prefixHandler => hasPrefix path prefixHandler.1 with
    | some prefixHandler => prefixHandler.2
    | none => h.notFoundHandler

namespace PathRecorderMux

/-- `NewPathRecorderMux`, with the handler of `http.NotFoundHandler`. -/
def new (notFound : H) : PathRecorderMux H where
  mux := { notFoundHandler := notFound }

variable (m : PathRecorderMux H) (notFound : H) (order : PrefixSort)

/-- `ListedPaths`. -/
def listedPaths : List String := sliceStable id m.exposedPaths

/-- `refreshMuxLocked`. -/
def refreshMuxLocked : PathRecorderMux H :=
  { m with mux := {
      pathToHandler := m.pathToHandler
      prefixHandlers := (order.sort m.prefixToHandler.keys).filterMap fun p =>
        (m.prefixToHandler.lookup p).map (Prod.mk p)
      notFoundHandler := m.notFoundHandler.getD notFound } }

/-- `Unregister`. -/
def unregister (path : String) : PathRecorderMux H :=
  refreshMuxLocked { m with
    pathToHandler := m.pathToHandler.erase path
    prefixToHandler := m.prefixToHandler.erase path
    exposedPaths := m.exposedPaths.erase path } notFound order

/-- Registering a handler for a path, listed or not. -/
def register (listed : Bool) (path : String) (handler : H) : PathRecorderMux H :=
  refreshMuxLocked { m with
    exposedPaths := if listed then m.exposedPaths ++ [path] else m.exposedPaths
    pathToHandler := m.pathToHandler.insert path handler } notFound order

/-- `Handle`. -/
def handle (path : String) (handler : H) : PathRecorderMux H :=
  m.register notFound order true path handler

/-- `UnlistedHandle`. -/
def unlistedHandle (path : String) (handler : H) : PathRecorderMux H :=
  m.register notFound order false path handler

/-- Registering a handler for a prefix, listed or not. It panics, before anything
    is changed, if the prefix does not end in a slash. -/
def registerPrefix (listed : Bool) (path : String) (handler : H) : Option (PathRecorderMux H) :=
  if hasSuffix path "/" then
    some (refreshMuxLocked { m with
      exposedPaths := if listed then m.exposedPaths ++ [path] else m.exposedPaths
      prefixToHandler := m.prefixToHandler.insert path handler } notFound order)
  else none

/-- `HandlePrefix`. -/
def handlePrefix (path : String) (handler : H) : Option (PathRecorderMux H) :=
  m.registerPrefix notFound order true path handler

/-- `UnlistedHandlePrefix`. -/
def unlistedHandlePrefix (path : String) (handler : H) : Option (PathRecorderMux H) :=
  m.registerPrefix notFound order false path handler

/-- `NotFoundHandler`. -/
def setNotFoundHandler (notFoundHandler : Option H) : PathRecorderMux H :=
  refreshMuxLocked { m with notFoundHandler } notFound order

end PathRecorderMux

/-! ## Sequences of operations -/

/-- An operation on a mux. -/
inductive Op (H : Type)
  | handle (path : String) (handler : H)
  | unlistedHandle (path : String) (handler : H)
  | handlePrefix (path : String) (handler : H)
  | unlistedHandlePrefix (path : String) (handler : H)
  | unregister (path : String)
  | notFoundHandler (handler : Option H)

/-- An operation on a mux. One that panics leaves it as it was. -/
def Op.apply (notFound : H) (order : PrefixSort) (m : PathRecorderMux H) :
    Op H → PathRecorderMux H
  | .handle path handler => m.handle notFound order path handler
  | .unlistedHandle path handler => m.unlistedHandle notFound order path handler
  | .handlePrefix path handler => (m.handlePrefix notFound order path handler).getD m
  | .unlistedHandlePrefix path handler =>
    (m.unlistedHandlePrefix notFound order path handler).getD m
  | .unregister path => m.unregister notFound order path
  | .notFoundHandler handler => m.setNotFoundHandler notFound order handler

/-- The mux after a sequence of operations, each with the order its refresh finds
    the prefixes in. -/
def run (notFound : H) (ops : List (Op H × PrefixSort)) : PathRecorderMux H :=
  ops.foldl (fun m op => op.1.apply notFound op.2 m) (.new notFound)

/-! ## What is registered -/

/-- What an operation makes of the handler of a path, if it concerns it. -/
def Op.setsPath (path : String) : Op H → Option (Option H)
  | .handle p h | .unlistedHandle p h => if p = path then some (some h) else none
  | .unregister p => if p = path then some none else none
  | _ => none

/-- What an operation makes of the handler of a prefix, if it concerns it. -/
def Op.setsPrefix (path : String) : Op H → Option (Option H)
  | .handlePrefix p h | .unlistedHandlePrefix p h =>
    if p = path ∧ hasSuffix p "/" then some (some h) else none
  | .unregister p => if p = path then some none else none
  | _ => none

/-- What an operation makes of the handler of paths that are not found. -/
def Op.setsNotFound : Op H → Option (Option H)
  | .notFoundHandler h => some h
  | _ => none

/-- The handler a sequence of operations leaves: the latest one that has been
    set, unless it has been taken away since. -/
def latest (sets : Op H → Option (Option H)) (ops : List (Op H)) : Option H :=
  (ops.filterMap sets).getLast?.join

/-- Where a request for a path is to be sent. -/
inductive Dispatches (notFound : H) (ops : List (Op H)) (path : String) : H → Prop
  /-- To the latest handler for the path. -/
  | exact {h : H} (hpath : latest (Op.setsPath path) ops = some h) :
      Dispatches notFound ops path h
  /-- Or else to the one for the longest of its prefixes that has one. -/
  | longest {p : String} {h : H} (hpath : latest (Op.setsPath path) ops = none)
      (hp : hasPrefix path p) (hh : latest (Op.setsPrefix p) ops = some h)
      (hmax : ∀ q, hasPrefix path q → latest (Op.setsPrefix q) ops ≠ none →
        q.utf8ByteSize ≤ p.utf8ByteSize) :
      Dispatches notFound ops path h
  /-- Or else to the one for paths that are not found. -/
  | notFound (hpath : latest (Op.setsPath path) ops = none)
      (hnone : ∀ q, hasPrefix path q → latest (Op.setsPrefix q) ops = none) :
      Dispatches notFound ops path ((latest Op.setsNotFound ops).getD notFound)

/-! ## The order of prefixes, and the longest one -/

/-- What prefixes are sorted by. -/
def priority (s : String) : ℕ ×ₗ ℕ ×ₗ String :=
  toLex (s.toList.count '/', toLex (s.utf8ByteSize, s))

theorem byPrefixPriorityLess_iff {s t : String} :
    byPrefixPriorityLess s t = true ↔ priority s < priority t := by
  rw [byPrefixPriorityLess, priority, priority, Prod.Lex.toLex_lt_toLex, Prod.Lex.toLex_lt_toLex]
  dsimp only
  split_ifs with hparts hlen
  · simp [hparts]
  · simp_all
  · simp_all

theorem byPrefixPriorityLess_eq_false_iff {s t : String} :
    byPrefixPriorityLess s t = false ↔ priority t ≤ priority s := by
  rw [← not_lt, ← byPrefixPriorityLess_iff, Bool.not_eq_true]

/-- Sorting prefixes by insertion. -/
def PrefixSort.insertion : PrefixSort where
  sort := sliceStable fun s => OrderDual.toDual (priority s)
  perm l := (sliceStable_isSortOf _ l).perm
  sorted l := (sliceStable_isSortOf (fun s => OrderDual.toDual (priority s)) l).sorted.imp
    fun h => byPrefixPriorityLess_eq_false_iff.2 h

/-- A prefix is tried after those it is a prefix of. -/
theorem priority_lt_of_append {s t : String} (ht : t ≠ "") : priority s < priority (s ++ t) := by
  have hsize : s.utf8ByteSize < (s ++ t).utf8ByteSize := by
    have : 0 < t.utf8ByteSize := Nat.pos_of_ne_zero (mt String.utf8ByteSize_eq_zero_iff.1 ht)
    rw [String.utf8ByteSize_append]
    omega
  have hcount : s.toList.count '/' ≤ (s ++ t).toList.count '/' := by
    rw [String.toList_append, List.count_append]
    omega
  rw [priority, priority, Prod.Lex.toLex_lt_toLex, Prod.Lex.toLex_lt_toLex]
  rcases hcount.lt_or_eq with hlt | heq
  · exact .inl hlt
  · exact .inr ⟨heq, .inl hsize⟩

/-- Of two prefixes of a path, one is a prefix of the other. -/
theorem append_or_append_of_hasPrefix {path p q : String} (hp : hasPrefix path p)
    (hq : hasPrefix path q) : (∃ t, q = p ++ t) ∨ ∃ t, p = q ++ t := by
  rw [hasPrefix, List.isPrefixOf_iff_prefix] at hp hq
  rw [← hasPrefix_iff, ← hasPrefix_iff, hasPrefix, hasPrefix, List.isPrefixOf_iff_prefix,
    List.isPrefixOf_iff_prefix]
  exact List.prefix_or_prefix_of_prefix hp hq

/-- Of two prefixes of a path, the one that is tried first is not shorter. -/
theorem size_le_of_priority_le {path p q : String} (hp : hasPrefix path p)
    (hq : hasPrefix path q) (h : priority q ≤ priority p) : q.utf8ByteSize ≤ p.utf8ByteSize := by
  rcases append_or_append_of_hasPrefix hp hq with ⟨t, rfl⟩ | ⟨t, rfl⟩
  · by_cases ht : t = ""
    · rw [ht, String.append_empty]
    · exact absurd h (not_le.2 (priority_lt_of_append ht))
  · rw [String.utf8ByteSize_append]
    exact Nat.le_add_right _ _

/-- Prefixes of a path are told apart by their lengths. -/
theorem eq_of_size_eq {path p q : String} (hp : hasPrefix path p) (hq : hasPrefix path q)
    (h : p.utf8ByteSize = q.utf8ByteSize) : p = q := by
  rcases append_or_append_of_hasPrefix hp hq with ⟨t, rfl⟩ | ⟨t, rfl⟩
  · rw [String.utf8ByteSize_append] at h
    rw [String.utf8ByteSize_eq_zero_iff.1 (by omega : t.utf8ByteSize = 0), String.append_empty]
  · rw [String.utf8ByteSize_append] at h
    rw [String.utf8ByteSize_eq_zero_iff.1 (by omega : t.utf8ByteSize = 0), String.append_empty]

/-! ## Serving a request -/

theorem latest_concat (sets : Op H → Option (Option H)) (ops : List (Op H)) (op : Op H) :
    latest sets (ops ++ [op]) = (sets op).getD (latest sets ops) := by
  rw [latest, List.filterMap_append]
  cases hop : sets op with
  | none => simp [hop, latest]
  | some h => simp [hop]

/-- The prefixes of a snapshot are those of a map, in the order they are tried. -/
structure Snapshot (m : AList fun _ : String => H) (l : List (String × H)) : Prop where
  mem : ∀ p h, (p, h) ∈ l ↔ m.lookup p = some h
  sorted : l.Pairwise fun a b => priority b.1 ≤ priority a.1

theorem snapshot_empty : Snapshot (∅ : AList fun _ : String => H) [] where
  mem p h := by simp
  sorted := .nil

/-- A refresh takes the prefixes that are registered, in the order they are tried. -/
theorem snapshot_refresh (m : PathRecorderMux H) (notFound : H) (order : PrefixSort) :
    Snapshot m.prefixToHandler (m.refreshMuxLocked notFound order).mux.prefixHandlers where
  mem p h := by
    have hkeys : ∀ q, q ∈ order.sort m.prefixToHandler.keys ↔ q ∈ m.prefixToHandler := fun q =>
      (order.perm _).mem_iff.trans AList.mem_keys.symm
    simp only [PathRecorderMux.refreshMuxLocked, List.mem_filterMap, Option.map_eq_some_iff,
      Prod.mk.injEq]
    constructor
    · rintro ⟨q, -, g, hg, rfl, rfl⟩
      exact hg
    · intro hp
      exact ⟨p, (hkeys p).2 (AList.lookup_isSome.1 (by simp [hp])), h, hp, rfl, rfl⟩
  sorted := by
    rw [PathRecorderMux.refreshMuxLocked, List.pairwise_filterMap]
    refine (order.sorted _).imp fun hless a ha b hb => ?_
    rw [Option.map_eq_some_iff] at ha hb
    obtain ⟨_, -, rfl⟩ := ha
    obtain ⟨_, -, rfl⟩ := hb
    exact byPrefixPriorityLess_eq_false_iff.1 hless

variable {m : AList fun _ : String => H}

/-- The first prefix that matches is the longest. -/
theorem Snapshot.find_eq_some {l : List (String × H)} (hl : Snapshot m l) {path p : String} {h : H}
    (hfind : l.find? (fun ph => hasPrefix path ph.1) = some (p, h)) :
    hasPrefix path p ∧ m.lookup p = some h ∧
      ∀ q, hasPrefix path q → m.lookup q ≠ none → q.utf8ByteSize ≤ p.utf8ByteSize := by
  have hmem := List.mem_of_find?_eq_some hfind
  obtain ⟨hp, before, after, rfl, hbefore⟩ := List.find?_eq_some_iff_append.1 hfind
  refine ⟨hp, (hl.mem p h).1 hmem, fun q hq hreg => ?_⟩
  obtain ⟨g, hg⟩ := Option.ne_none_iff_exists'.1 hreg
  rcases List.mem_append.1 ((hl.mem q g).2 hg) with hq' | hq'
  · -- One that is tried before does not match.
    simpa [hq] using hbefore _ hq'
  · rcases List.mem_cons.1 hq' with heq | hq'
    · rw [(Prod.mk.inj heq).1]
    · have hsorted := List.pairwise_cons.1 (List.pairwise_append.1 hl.sorted).2.1
      have hle : priority q ≤ priority p := hsorted.1 (q, g) hq'
      exact size_le_of_priority_le hp hq hle

theorem Snapshot.find_eq_none {l : List (String × H)} (hl : Snapshot m l) {path : String}
    (hfind : l.find? (fun ph => hasPrefix path ph.1) = none) :
    ∀ q, hasPrefix path q → m.lookup q = none := by
  intro q hq
  by_contra hreg
  obtain ⟨g, hg⟩ := Option.ne_none_iff_exists'.1 hreg
  exact List.find?_eq_none.1 hfind _ ((hl.mem q g).2 hg) hq

/-- What is registered in a mux is what the operations leave. -/
structure Registers (notFound : H) (ops : List (Op H)) (m : PathRecorderMux H) : Prop where
  paths : ∀ p, m.pathToHandler.lookup p = latest (Op.setsPath p) ops
  prefixes : ∀ p, m.prefixToHandler.lookup p = latest (Op.setsPrefix p) ops
  default : m.notFoundHandler = latest Op.setsNotFound ops
  muxPaths : m.mux.pathToHandler = m.pathToHandler
  muxPrefixes : Snapshot m.prefixToHandler m.mux.prefixHandlers
  muxDefault : m.mux.notFoundHandler = m.notFoundHandler.getD notFound

/-- A mux sends requests where they are to be sent. -/
theorem Registers.dispatches {notFound : H} {ops : List (Op H)} {m : PathRecorderMux H}
    (hm : Registers notFound ops m) (path : String) :
    Dispatches notFound ops path (m.mux.serveHTTP path) := by
  rw [PathHandler.serveHTTP, hm.muxPaths, hm.paths]
  cases hpath : latest (Op.setsPath path) ops with
  | some h => exact .exact hpath
  | none =>
    cases hfind : m.mux.prefixHandlers.find? fun ph => hasPrefix path ph.1 with
    | some ph =>
      obtain ⟨hp, hreg, hmax⟩ := hm.muxPrefixes.find_eq_some hfind
      rw [hm.prefixes] at hreg
      simp only [hm.prefixes] at hmax
      exact .longest hpath hp hreg hmax
    | none =>
      have hnone := hm.muxPrefixes.find_eq_none hfind
      simp only [hm.prefixes] at hnone
      rw [hm.muxDefault, hm.default]
      exact .notFound hpath hnone

/-- A refresh brings the snapshot up to date. -/
theorem registers_refresh {notFound : H} {ops : List (Op H)} {m : PathRecorderMux H}
    (order : PrefixSort) (hpaths : ∀ p, m.pathToHandler.lookup p = latest (Op.setsPath p) ops)
    (hprefixes : ∀ p, m.prefixToHandler.lookup p = latest (Op.setsPrefix p) ops)
    (hdefault : m.notFoundHandler = latest Op.setsNotFound ops) :
    Registers notFound ops (m.refreshMuxLocked notFound order) where
  paths := hpaths
  prefixes := hprefixes
  default := hdefault
  muxPaths := rfl
  muxPrefixes := snapshot_refresh m notFound order
  muxDefault := rfl

theorem lookup_insert_eq {p q : String} {h : H} :
    (m.insert p h).lookup q = if p = q then some h else m.lookup q := by
  split_ifs with heq
  · rw [heq, AList.lookup_insert]
  · exact AList.lookup_insert_ne (Ne.symm heq)

theorem lookup_erase_eq {p q : String} :
    (m.erase p).lookup q = if p = q then none else m.lookup q := by
  split_ifs with heq
  · rw [heq, AList.lookup_erase]
  · exact AList.lookup_erase_ne (Ne.symm heq)

section

variable {notFound : H} {ops : List (Op H)} {m : PathRecorderMux H}

/-- A path is registered, -/
theorem Registers.register (hm : Registers notFound ops m) (order : PrefixSort) (listed : Bool)
    {path : String} {h : H} {op : Op H} (hop : op = .handle path h ∨ op = .unlistedHandle path h) :
    Registers notFound (ops ++ [op]) (m.register notFound order listed path h) := by
  refine registers_refresh order (fun p => ?_) (fun p => ?_) ?_
  · rw [latest_concat, lookup_insert_eq, hm.paths]
    rcases hop with rfl | rfl <;> simp only [Op.setsPath] <;> split_ifs <;> rfl
  · rw [latest_concat, hm.prefixes]
    rcases hop with rfl | rfl <;> rfl
  · rw [latest_concat, hm.default]
    rcases hop with rfl | rfl <;> rfl

/-- or a prefix. -/
theorem Registers.registerPrefix (hm : Registers notFound ops m) (order : PrefixSort)
    (listed : Bool) {path : String} {h : H} {op : Op H}
    (hop : op = .handlePrefix path h ∨ op = .unlistedHandlePrefix path h) :
    Registers notFound (ops ++ [op])
      ((m.registerPrefix notFound order listed path h).getD m) := by
  rw [PathRecorderMux.registerPrefix]
  by_cases hslash : hasSuffix path "/" = true
  · rw [if_pos hslash, Option.getD_some]
    refine registers_refresh order (fun p => ?_) (fun p => ?_) ?_
    · rw [latest_concat, hm.paths]
      rcases hop with rfl | rfl <;> rfl
    · rw [latest_concat, lookup_insert_eq, hm.prefixes]
      rcases hop with rfl | rfl <;> simp only [Op.setsPrefix, hslash, and_true] <;>
        split_ifs <;> rfl
    · rw [latest_concat, hm.default]
      rcases hop with rfl | rfl <;> rfl
  · -- The operation panics.
    rw [if_neg hslash, Option.getD_none]
    refine { hm with paths := fun p => ?_, prefixes := fun p => ?_, default := ?_ }
    · rw [latest_concat, hm.paths]
      rcases hop with rfl | rfl <;> rfl
    · rw [latest_concat, hm.prefixes]
      rcases hop with rfl | rfl <;> simp [Op.setsPrefix, hslash]
    · rw [latest_concat, hm.default]
      rcases hop with rfl | rfl <;> rfl

/-- One operation. -/
theorem Registers.apply (hm : Registers notFound ops m) (order : PrefixSort) (op : Op H) :
    Registers notFound (ops ++ [op]) (op.apply notFound order m) := by
  cases op with
  | handle path h => exact hm.register order true (.inl rfl)
  | unlistedHandle path h => exact hm.register order false (.inr rfl)
  | handlePrefix path h => exact hm.registerPrefix order true (.inl rfl)
  | unlistedHandlePrefix path h => exact hm.registerPrefix order false (.inr rfl)
  | unregister path =>
    refine registers_refresh order (fun p => ?_) (fun p => ?_) ?_
    · rw [latest_concat, lookup_erase_eq, hm.paths, Op.setsPath]
      split_ifs <;> rfl
    · rw [latest_concat, lookup_erase_eq, hm.prefixes, Op.setsPrefix]
      split_ifs <;> rfl
    · rw [latest_concat, hm.default]
      rfl
  | notFoundHandler h =>
    refine registers_refresh order (fun p => ?_) (fun p => ?_) ?_
    · rw [latest_concat, hm.paths]
      rfl
    · rw [latest_concat, hm.prefixes]
      rfl
    · rw [latest_concat]
      rfl

end

/-- A sequence of operations. -/
theorem registers_run (notFound : H) (ops : List (Op H × PrefixSort)) :
    Registers notFound (ops.map Prod.fst) (run notFound ops) := by
  induction ops using List.reverseRecOn with
  | nil =>
    exact {
      paths := fun p => rfl
      prefixes := fun p => rfl
      default := rfl
      muxPaths := rfl
      muxPrefixes := snapshot_empty
      muxDefault := rfl }
  | append_singleton ops op ih =>
    rw [run, List.foldl_append, List.map_append]
    exact ih.apply op.2 op.1

/-! ## Operations on different paths -/

/-- The path an operation is about; none for the handler of paths that are not
    found. -/
def Op.path : Op H → Option String
  | .handle p _ | .unlistedHandle p _ | .handlePrefix p _ | .unlistedHandlePrefix p _
  | .unregister p => some p
  | .notFoundHandler _ => none

/-- The same happens to every path, in the same order; operations on different
    paths may have changed places. -/
def SamePerPath (ops ops' : List (Op H)) : Prop :=
  ∀ path, ops.filter (·.path = path) = ops'.filter (·.path = path)

/-- What is left of something only one path is about. -/
theorem SamePerPath.latest_eq {ops ops' : List (Op H)} (h : SamePerPath ops ops')
    (path : Option String) {sets : Op H → Option (Option H)}
    (hsets : ∀ op, op.path ≠ path → sets op = none) : latest sets ops = latest sets ops' := by
  have hfilter (l : List (Op H)) :
      l.filterMap sets = (l.filter (·.path = path)).filterMap sets := by
    rw [List.filterMap_filter]
    refine List.filterMap_congr fun op _ => ?_
    by_cases hop : op.path = path
    · simp [hop]
    · simp [hop, hsets op hop]
  rw [latest, latest, hfilter ops, hfilter ops', h path]

theorem Op.setsPath_of_path_ne {path : String} (op : Op H) (h : op.path ≠ some path) :
    op.setsPath path = none := by
  cases op <;> simp_all [Op.path, Op.setsPath]

theorem Op.setsPrefix_of_path_ne {path : String} (op : Op H) (h : op.path ≠ some path) :
    op.setsPrefix path = none := by
  cases op <;> simp_all [Op.path, Op.setsPrefix]

theorem Op.setsNotFound_of_path_ne (op : Op H) (h : op.path ≠ none) : op.setsNotFound = none := by
  cases op <;> simp_all [Op.path, Op.setsNotFound]

/-- Only the calls for a path matter to it. -/
theorem SamePerPath.dispatches {notFound : H} {ops ops' : List (Op H)} (h : SamePerPath ops ops')
    {path : String} {g : H} (hg : Dispatches notFound ops' path g) :
    Dispatches notFound ops path g := by
  have hpaths (p : String) : latest (Op.setsPath p) ops' = latest (Op.setsPath p) ops :=
    (h.latest_eq (some p) Op.setsPath_of_path_ne).symm
  have hprefixes (p : String) : latest (Op.setsPrefix p) ops' = latest (Op.setsPrefix p) ops :=
    (h.latest_eq (some p) Op.setsPrefix_of_path_ne).symm
  have hdefault : latest Op.setsNotFound ops' = latest Op.setsNotFound ops :=
    (h.latest_eq none Op.setsNotFound_of_path_ne).symm
  cases hg with
  | exact hpath => exact .exact (hpaths _ ▸ hpath)
  | longest hpath hp hreg hmax =>
    simp only [hpaths, hprefixes] at hpath hreg hmax
    exact .longest hpath hp hreg hmax
  | notFound hpath hnone =>
    simp only [hpaths, hprefixes] at hpath hnone
    rw [hdefault]
    exact .notFound hpath hnone

/-- There is one handler a request is to be sent to. -/
theorem Dispatches.unique {notFound g h : H} {ops : List (Op H)} {path : String}
    (hg : Dispatches notFound ops path g) (hh : Dispatches notFound ops path h) : g = h := by
  cases hg with
  | exact hpath =>
    cases hh with
    | exact hpath' => exact Option.some.inj (hpath.symm.trans hpath')
    | longest hpath' => simp [hpath] at hpath'
    | notFound hpath' => simp [hpath] at hpath'
  | longest hpath hp hreg hmax =>
    cases hh with
    | exact hpath' => simp [hpath] at hpath'
    | longest _ hp' hreg' hmax' =>
      have hle := hmax _ hp' (by simp [hreg'])
      have hge := hmax' _ hp (by simp [hreg])
      cases eq_of_size_eq hp hp' (le_antisymm hge hle)
      exact Option.some.inj (hreg.symm.trans hreg')
    | notFound _ hnone => simp [hnone _ hp] at hreg
  | notFound hpath hnone =>
    cases hh with
    | exact hpath' => simp [hpath] at hpath'
    | longest _ hp' hreg' => simp [hnone _ hp'] at hreg'
    | notFound => rfl

/-- After any sequence of operations, whatever order the refreshes find the
    prefixes in, a request is sent to the latest handler for its path, or else
    the one for the longest prefix, or else the one for paths that are not
    found. The order of operations on different paths does not matter. -/
theorem run_serveHTTP (notFound : H) (ops : List (Op H × PrefixSort)) (path : String) :
    Dispatches notFound (ops.map Prod.fst) path ((run notFound ops).mux.serveHTTP path) ∧
    ∀ ops' : List (Op H × PrefixSort), SamePerPath (ops.map Prod.fst) (ops'.map Prod.fst) →
      (run notFound ops').mux.serveHTTP path = (run notFound ops).mux.serveHTTP path := by
  have hops := (registers_run notFound ops).dispatches path
  refine ⟨hops, fun ops' h => ?_⟩
  have hops' := h.dispatches ((registers_run notFound ops').dispatches path)
  exact hops'.unique hops

/-- Two prefixes, registered in one order and in the other. -/
theorem run_serveHTTP_swapped :
    (run "404" [(.handlePrefix "/a/b/" "b", .insertion),
      (.handlePrefix "/a/" "a", .insertion)]).mux.serveHTTP "/a/b/c" =
    (run "404" [(.handlePrefix "/a/" "a", .insertion),
      (.handlePrefix "/a/b/" "b", .insertion)]).mux.serveHTTP "/a/b/c" := by
  refine (run_serveHTTP "404" _ "/a/b/c").2 _ fun path => ?_
  by_cases ha : some "/a/" = path
  · subst ha
    rfl
  · simp [Op.path, List.filter_cons, ha]

end Apiserver.Server
