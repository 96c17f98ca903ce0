import Apiserver.Server.Mux

/-!
# The listed paths of the mux

A mux lists the paths that are registered with `Handle` and `HandlePrefix`, for
the index of the server. It keeps them in a list of their own: registering a path
adds it, also if it is there already, and unregistering it removes it once.

* `count_exposedPaths`: so how often a path is in the list is a count over the
  operations;
* `run_consistent_iff`: the listed paths are those that are registered with
  listing, each once, exactly when every repeated listing of a path has been
  undone by an `Unregister` of its own.
-/

namespace Apiserver.Server

open Go

variable {H : Type}

/-! ## Counting listings -/

/-- Whether an operation registers a path with listing (`true`) or unregisters it
    (`false`). -/
def Op.lists (path : String) : Op H → Option Bool
  | .handle p _ => if p = path then some true else none
  | .handlePrefix p _ => if p = path ∧ hasSuffix p "/" then some true else none
  | .unregister p => if p = path then some false else none
  | _ => none

/-- A path has been registered with listing, and not been unregistered since. -/
def isListed (path : String) (ops : List (Op H)) : Bool :=
  (ops.filterMap (Op.lists path)).getLast?.getD false

/-- Keeping count of a path: whether it is listed, and its surplus. -/
def surplusStep : Bool × ℕ → Bool → Bool × ℕ
  | (true, n), true => (true, n + 1)
  | (false, n), true => (true, n)
  | (true, n), false => (false, n)
  | (false, n), false => (false, n - 1)

/-- How often a path has been listed while it was already, short of the times it
    has been unregistered while it was not. -/
def surplus (path : String) (ops : List (Op H)) : ℕ :=
  ((ops.filterMap (Op.lists path)).foldl surplusStep (false, 0)).2

theorem isListed_eq (path : String) (ops : List (Op H)) :
    isListed path ops = ((ops.filterMap (Op.lists path)).foldl surplusStep (false, 0)).1 := by
  rw [isListed]
  induction ops.filterMap (Op.lists path) using List.reverseRecOn with
  | nil => rfl
  | append_singleton l b ih =>
    rw [List.foldl_append, List.getLast?_concat]
    rcases l.foldl surplusStep (false, 0) with ⟨_ | _, n⟩ <;> cases b <;> rfl

/-- How often a path is exposed. -/
def exposures (path : String) (ops : List (Op H)) : ℕ :=
  (if isListed path ops then 1 else 0) + surplus path ops

/-- A call lists its path, or takes it off the list. -/
theorem exposures_concat (path : String) (ops : List (Op H)) (op : Op H) :
    exposures path (ops ++ [op]) = match op.lists path with
      | none => exposures path ops
      | some true => exposures path ops + 1
      | some false => exposures path ops - 1 := by
  rw [exposures, exposures, isListed_eq, isListed_eq, surplus, surplus, List.filterMap_append]
  cases hop : op.lists path with
  | none => simp [hop]
  | some b =>
    rw [List.filterMap_cons_some hop, List.filterMap_nil, List.foldl_append]
    rcases (ops.filterMap (Op.lists path)).foldl surplusStep (false, 0) with ⟨_ | _, n⟩ <;>
      cases b <;> simp [surplusStep] <;> omega

theorem exposedPaths_registerPrefix (notFound : H) (order : PrefixSort) (m : PathRecorderMux H)
    (listed : Bool) (p : String) (h : H) :
    ((m.registerPrefix notFound order listed p h).getD m).exposedPaths =
      if listed = true ∧ hasSuffix p "/" = true then m.exposedPaths ++ [p]
      else m.exposedPaths := by
  rw [PathRecorderMux.registerPrefix]
  by_cases hslash : hasSuffix p "/" = true
  · rw [if_pos hslash]
    cases listed <;> simp [PathRecorderMux.refreshMuxLocked, hslash]
  · simp [hslash]

/-- The slice of paths counts the same. -/
theorem count_exposedPaths_apply (notFound : H) (order : PrefixSort) (m : PathRecorderMux H)
    (op : Op H) (path : String) :
    (op.apply notFound order m).exposedPaths.count path = match op.lists path with
      | none => m.exposedPaths.count path
      | some true => m.exposedPaths.count path + 1
      | some false => m.exposedPaths.count path - 1 := by
  cases op with
  | handle p h =>
    have happly : ((Op.handle p h).apply notFound order m).exposedPaths =
      m.exposedPaths ++ [p] := rfl
    rw [happly, List.count_append, List.count_singleton, Op.lists]
    by_cases hp : p = path <;> simp [hp]
  | unlistedHandle p h => rfl
  | handlePrefix p h =>
    rw [Op.apply, PathRecorderMux.handlePrefix, exposedPaths_registerPrefix, Op.lists]
    by_cases hslash : hasSuffix p "/" = true
    · rw [if_pos ⟨rfl, hslash⟩, List.count_append, List.count_singleton]
      by_cases hp : p = path
      · subst hp
        simp [hslash]
      · simp [hp]
    · simp [hslash]
  | unlistedHandlePrefix p h =>
    rw [Op.apply, PathRecorderMux.unlistedHandlePrefix, exposedPaths_registerPrefix]
    simp [Op.lists]
  | unregister p =>
    have happly : ((Op.unregister p).apply notFound order m).exposedPaths =
      m.exposedPaths.erase p := rfl
    rw [happly, List.count_erase, Op.lists]
    by_cases hp : p = path <;> simp [hp]
  | notFoundHandler h => rfl

/-- A path is exposed as often as it has been listed, short of the times it has
    been unregistered: `Unregister` takes one of them away. -/
theorem count_exposedPaths (notFound : H) (ops : List (Op H × PrefixSort)) (path : String) :
    (run notFound ops).exposedPaths.count path = exposures path (ops.map Prod.fst) := by
  induction ops using List.reverseRecOn with
  | nil => rfl
  | append_singleton ops op ih =>
    rw [run, List.foldl_append, List.map_append, List.map_singleton, exposures_concat, ← ih]
    exact count_exposedPaths_apply notFound op.2 (run notFound ops) op.1 path

theorem count_listedPaths (notFound : H) (ops : List (Op H × PrefixSort)) (path : String) :
    (run notFound ops).listedPaths.count path = exposures path (ops.map Prod.fst) := by
  rw [← count_exposedPaths, PathRecorderMux.listedPaths,
    (sliceStable_isSortOf id _).perm.count_eq]

/-- A path that has just been unregistered is not served. -/
theorem unregistered_run (notFound : H) {ops : List (Op H × PrefixSort)} {path : String}
    (h : (ops.map Prod.fst).getLast? = some (.unregister path)) :
    (run notFound ops).mux.pathToHandler.lookup path = none ∧
      ∀ g, (path, g) ∉ (run notFound ops).mux.prefixHandlers := by
  obtain ⟨l, hl⟩ := List.getLast?_eq_some_iff.1 h
  have hreg := registers_run notFound ops
  have hpath := hreg.paths path
  have hpre := hreg.prefixes path
  rw [hl, latest_concat] at hpath hpre
  simp only [Op.setsPath, Op.setsPrefix, if_true, Option.getD_some] at hpath hpre
  refine ⟨by rw [hreg.muxPaths, hpath], fun g hg => ?_⟩
  rw [hreg.muxPrefixes.mem, hpre] at hg
  cases hg

theorem isListed_of_unregister {ops : List (Op H)} {path : String}
    (h : ops.getLast? = some (.unregister path)) : isListed path ops = false := by
  obtain ⟨l, rfl⟩ := List.getLast?_eq_some_iff.1 h
  rw [isListed, List.filterMap_append]
  simp [Op.lists]

/-- What is promised of the listed paths after a sequence of operations. -/
structure Consistent (ops : List (Op H)) (m : PathRecorderMux H) : Prop where
  sorted : m.listedPaths.Pairwise (· ≤ ·)
  nodup : m.listedPaths.Nodup
  mem : ∀ path, path ∈ m.listedPaths ↔ isListed path ops = true
  /-- A path that has just been unregistered is neither listed nor served. -/
  unregistered : ∀ path, ops.getLast? = some (.unregister path) →
    path ∉ m.listedPaths ∧ m.mux.pathToHandler.lookup path = none ∧
      ∀ h, (path, h) ∉ m.mux.prefixHandlers

/-- The listed paths are those that are registered with listing, each once,
    exactly when no listing of a path that was listed already is left: one
    `Unregister` takes both handlers of a path away, but only one of its
    listings. -/
theorem run_consistent_iff (notFound : H) (ops : List (Op H × PrefixSort)) :
    Consistent (ops.map Prod.fst) (run notFound ops) ↔
      ∀ path, surplus path (ops.map Prod.fst) = 0 := by
  have hcount := count_listedPaths notFound ops
  simp only [exposures] at hcount
  constructor
  · intro h path
    have hle := List.nodup_iff_count_le_one.1 h.nodup path
    have hmem := h.mem path
    rw [← List.count_pos_iff, hcount] at hmem
    rw [hcount] at hle
    cases hl : isListed path (ops.map Prod.fst) <;> simp_all
  · intro h
    simp only [h, add_zero] at hcount
    have hmem : ∀ path, path ∈ (run notFound ops).listedPaths ↔
        isListed path (ops.map Prod.fst) = true := by
      intro path
      rw [← List.count_pos_iff, hcount]
      split_ifs with hl <;> simp [hl]
    refine ⟨?_, ?_, hmem, ?_⟩
    · exact (sliceStable_isSortOf id _).sorted
    · refine List.nodup_iff_count_le_one.2 fun path => ?_
      rw [hcount]
      split_ifs <;> omega
    · intro path hlast
      refine ⟨?_, unregistered_run notFound hlast⟩
      rw [hmem, isListed_of_unregister hlast]
      simp

/-- A path that has been registered twice is listed twice, and still listed after
    it has been unregistered. -/
theorem listedPaths_of_handle_twice :
    (run "404" [(.handle "/a" "first", .insertion),
      (.handle "/a" "second", .insertion)]).listedPaths = ["/a", "/a"] ∧
    (run "404" [(.handle "/a" "first", .insertion), (.handle "/a" "second", .insertion),
      (.unregister "/a", .insertion)]).listedPaths = ["/a"] := by
  constructor
  · decide
  · rfl

end Apiserver.Server
