import Apiserver.Proc.Process
import Mathlib.Data.Prod.Lex

/-!
# The hooks of a process

Modules register hooks with a process (`pkg/proc/api/v1/types.go`), to be run when it
starts, reloads or stops. A hook has a priority and a sub-priority, which are put into
one number of 32 bits, with the priority shifted by 13: `start` sorts the hooks of each
action by that number.

* `toNat_priorityOf`: the number does not overflow;
* `processPriority_le_iff`: if the priorities are multiples of 8, as the constants of
  the source are, the two parts do not overlap, so that the order is lexicographic;
* `runHooks_ranInOrder`: hooks are run up to the first that fails;
* `hooks_in_order`: the order in which `start` and `stop` run them, for hooks registered
  in any number of calls.
-/

namespace Apiserver.Proc

open Go

/-- `ProcessAction`. -/
inductive ProcessAction
  | start
  | reload
  | stop
  deriving DecidableEq

/-- The priorities of the source. -/
inductive Pri
  | sysInit
  | sysPrestart
  | modules
  | sysStart
  | sysPoststart
  deriving DecidableEq

/-- Their values, from 1 on, shifted by 3. -/
def Pri.value : Pri → UInt16
  | .sysInit => (1 : UInt16) <<< 3
  | .sysPrestart => (2 : UInt16) <<< 3
  | .modules => (3 : UInt16) <<< 3
  | .sysStart => (4 : UInt16) <<< 3
  | .sysPoststart => (5 : UInt16) <<< 3

theorem Pri.eight_dvd_value (c : Pri) : 8 ∣ c.value.toNat := by
  cases c <;> decide

/-- The number for a priority and a sub-priority. -/
def priorityOf (priority subPriority : UInt16) : UInt32 :=
  priority.toUInt32 <<< (16 - 3) + subPriority.toUInt32

/-- `HookOps`, as it is registered. -/
structure Hook where
  owner : String
  /-- `util.Name` of the function. -/
  name : String
  hookNum : ProcessAction
  priority : UInt16
  subPriority : UInt16
  /-- The number for the priorities, once it has been asked for. -/
  cache : UInt32 := 0
  cache_valid : cache = 0 ∨ cache = priorityOf priority subPriority := by exact .inl rfl

namespace Hook

/-- `ProcessPriority`, and the hook with the number. -/
def processPriority (h : Hook) : UInt32 × Hook :=
  if h.cache = 0 then
    (priorityOf h.priority h.subPriority,
      { h with cache := priorityOf h.priority h.subPriority, cache_valid := .inr rfl })
  else (h.cache, h)

/-- It does not matter whether the number has been asked for. -/
theorem processPriority_fst (h : Hook) :
    h.processPriority.1 = priorityOf h.priority h.subPriority := by
  rw [processPriority]
  split_ifs with hzero
  · rfl
  · exact h.cache_valid.resolve_left hzero

/-- The priorities, in lexicographic order. -/
def priorities (h : Hook) : ℕ ×ₗ ℕ := toLex (h.priority.toNat, h.subPriority.toNat)

end Hook

/-- The number fits into its 32 bits. -/
theorem toNat_priorityOf (priority subPriority : UInt16) :
    (priorityOf priority subPriority).toNat = priority.toNat <<< (16 - 3) + subPriority.toNat := by
  have hp := priority.toNat_lt
  have hs := subPriority.toNat_lt
  simp only [priorityOf, UInt32.toNat_add, UInt32.toNat_shiftLeft, UInt16.toNat_toUInt32,
    UInt32.reduceSub, UInt32.reduceToNat, Nat.reduceSub, Nat.reduceMod, Nat.shiftLeft_eq]
  omega

/-- The sub-priority only counts among hooks with the same priority. -/
theorem processPriority_le_iff {a b : Hook} (ha : 8 ∣ a.priority.toNat)
    (hb : 8 ∣ b.priority.toNat) :
    a.processPriority.1.toNat ≤ b.processPriority.1.toNat ↔ a.priorities ≤ b.priorities := by
  have has := a.subPriority.toNat_lt
  have hbs := b.subPriority.toNat_lt
  rw [a.processPriority_fst, b.processPriority_fst, toNat_priorityOf, toNat_priorityOf,
    Prod.Lex.le_iff]
  simp only [Hook.priorities, ofLex_toLex, Nat.shiftLeft_eq]
  omega

/-! ## Registration -/

/-- `hookOps` of a process: the hooks of each action. -/
abbrev HookTable := ProcessAction → List Hook

/-- The table of `newProcess`. -/
def newHookTable : HookTable := fun _ => []

namespace HookTable

/-- `RegisterHooks`. -/
def registerHooks (t : HookTable) (hooks : List Hook) : HookTable :=
  hooks.foldl (fun t v => Function.update t v.hookNum (t v.hookNum ++ [v])) t

/-- The hooks of some calls of `RegisterHooks`. -/
def registerAll (calls : List (List Hook)) : HookTable := calls.foldl registerHooks newHookTable

/-- Hooks are appended to those of their action. -/
theorem registerHooks_apply (t : HookTable) (hooks : List Hook) (a : ProcessAction) :
    t.registerHooks hooks a = t a ++ hooks.filter fun h => h.hookNum = a := by
  induction hooks generalizing t with
  | nil => simp [registerHooks]
  | cons v hooks ih =>
    have hcons : t.registerHooks (v :: hooks) =
        registerHooks (Function.update t v.hookNum (t v.hookNum ++ [v])) hooks := rfl
    rw [hcons, ih]
    by_cases hv : v.hookNum = a
    · subst hv
      rw [Function.update_self, List.filter_cons_of_pos (by simp), List.append_assoc,
        List.singleton_append]
    · rw [Function.update_of_ne (Ne.symm hv), List.filter_cons_of_neg (by simpa using hv)]

/-- The hooks of an action are in the order of registration. -/
theorem registerAll_apply (calls : List (List Hook)) (a : ProcessAction) :
    registerAll calls a = calls.flatten.filter fun h => h.hookNum = a := by
  suffices h : ∀ t : HookTable, calls.foldl registerHooks t a =
      t a ++ calls.flatten.filter fun h => h.hookNum = a by
    exact h newHookTable
  induction calls with
  | nil => simp
  | cons hooks calls ih =>
    intro t
    rw [List.foldl_cons, ih, registerHooks_apply, List.flatten_cons, List.filter_append,
      List.append_assoc]

/-- `Sort` for each action. The numbers that the hooks keep when they are compared make
    no difference, and are left out. -/
def sort (t : HookTable) : HookTable := fun a =>
  sliceStable (fun h : Hook => h.processPriority.1.toNat) (t a)

end HookTable

/-! ## Running hooks -/

/-- The error for a hook. -/
def Hook.error (h : Hook) (err : Error) : Error := h.owner ++ "." ++ h.name ++ "() err: " ++ err

/-- Running hooks in order, where `result i` is what the `i`th returns: the hooks that
    are run, and the one that fails with its error. -/
def runHooks (result : ℕ → Option Error) : ℕ → List Hook → List Hook × Option (Hook × Error)
  | _, [] => ([], none)
  | i, h :: l =>
    match result i with
    | some err => ([h], some (h, err))
    | none =>
      let (ran, failed) := runHooks result (i + 1) l
      (h :: ran, failed)

/-- The hooks are run in an order, all of them or up to the first that fails. -/
def RanInOrder (result : ℕ → Option Error) (order ran : List Hook)
    (failed : Option (Hook × Error)) : Prop :=
  (ran = order ∧ failed = none ∧ ∀ i < order.length, result i = none) ∨
    ∃ i h e, order[i]? = some h ∧ ran = order.take (i + 1) ∧ result i = some e ∧
      (∀ j < i, result j = none) ∧ failed = some (h, e)

/-- All hooks are run, or those up to the first that fails. -/
theorem runHooks_cases (result : ℕ → Option Error) (n : ℕ) (l : List Hook) :
    (runHooks result n l = (l, none) ∧ ∀ i < l.length, result (n + i) = none) ∨
      ∃ i h e, l[i]? = some h ∧ runHooks result n l = (l.take (i + 1), some (h, e)) ∧
        result (n + i) = some e ∧ ∀ j < i, result (n + j) = none := by
  induction l generalizing n with
  | nil => exact .inl ⟨rfl, fun i hi => absurd hi (Nat.not_lt_zero i)⟩
  | cons h l ih =>
    cases hn : result n with
    | some e =>
      refine .inr ⟨0, h, e, rfl, ?_, hn, fun j hj => absurd hj (Nat.not_lt_zero j)⟩
      simp only [runHooks, hn, List.take_succ_cons, List.take_zero]
    | none =>
      -- The hooks after this one are those of the run from the next number.
      have hshift : ∀ i, result (n + 1 + i) = result (n + (i + 1)) := by
        intro i
        rw [Nat.add_right_comm, Nat.add_assoc]
      rcases ih (n + 1) with ⟨hrun, hok⟩ | ⟨i, h', e, hi, hrun, he, hok⟩
      · refine .inl ⟨by simp only [runHooks, hn, hrun], fun i hi => ?_⟩
        cases i with
        | zero => exact hn
        | succ i => rw [← hshift]; exact hok i (Nat.lt_of_succ_lt_succ hi)
      · refine .inr ⟨i + 1, h', e, hi, ?_, by rw [← hshift]; exact he, fun j hj => ?_⟩
        · simp only [runHooks, hn, hrun, List.take_succ_cons]
        · cases j with
          | zero => exact hn
          | succ j => rw [← hshift]; exact hok j (Nat.lt_of_succ_lt_succ hj)

theorem runHooks_ranInOrder (result : ℕ → Option Error) (l : List Hook) :
    RanInOrder result l (runHooks result 0 l).1 (runHooks result 0 l).2 := by
  rcases runHooks_cases result 0 l with ⟨hrun, hok⟩ | ⟨i, h, e, hi, hrun, he, hok⟩
  · rw [hrun]
    exact .inl ⟨rfl, rfl, fun i hi => by simpa using hok i hi⟩
  · rw [hrun]
    exact .inr ⟨i, h, e, hi, rfl, by simpa using he, fun j hj => by simpa using hok j hj, rfl⟩

/-- What `start` does: the hooks it has sorted, those it has run, and the one that
    failed. -/
structure Started where
  hooks : HookTable
  ran : List Hook
  failed : Option (Hook × Error)

namespace HookTable

/-- `start`. -/
def start (t : HookTable) (result : ℕ → Option Error) : Started :=
  let (ran, failed) := runHooks result 0 (t.sort .start)
  { hooks := t.sort, ran, failed }

/-- The loop of `stop`, from the last hook to the first. -/
def stop (t : HookTable) (ctxDone : Bool) (result : ℕ → Option Error) :
    List Hook × Option (Hook × Error) :=
  if ctxDone then ([], none) else runHooks result 0 (t .stop).reverse

/-- The hooks are sorted by their priorities, with those that are the same in the order of
    registration. -/
theorem sort_isStableSortOf (calls : List (List Hook))
    (hpri : ∀ h ∈ calls.flatten, 8 ∣ h.priority.toNat) (a : ProcessAction) :
    IsStableSortOf Hook.priorities (calls.flatten.filter fun h => h.hookNum = a)
      ((registerAll calls).sort a) := by
  have hsort := sliceStable_isStableSortOf (fun h : Hook => h.processPriority.1.toNat)
    (registerAll calls a)
  rw [registerAll_apply] at hsort
  rw [sort, registerAll_apply]
  refine hsort.of_key fun h hh h' hh' => processPriority_le_iff ?_ ?_
  · exact hpri h (List.mem_filter.1 hh).1
  · exact hpri h' (List.mem_filter.1 hh').1

end HookTable

/-- `start` runs its hooks by their priorities, up to the first that fails, and `stop` runs
    its hooks in the reverse order. -/
theorem hooks_in_order (calls : List (List Hook))
    (hpri : ∀ h ∈ calls.flatten, 8 ∣ h.priority.toNat) (starting stopping : ℕ → Option Error) :
    let started := (HookTable.registerAll calls).start starting
    let stopped := started.hooks.stop false stopping
    (∃ order, IsStableSortOf Hook.priorities
        (calls.flatten.filter fun h => h.hookNum = .start) order ∧
      RanInOrder starting order started.ran started.failed) ∧
    ∃ order, IsStableSortOf Hook.priorities
        (calls.flatten.filter fun h => h.hookNum = .stop) order ∧
      RanInOrder stopping order.reverse stopped.1 stopped.2 :=
  ⟨⟨_, HookTable.sort_isStableSortOf calls hpri .start, runHooks_ranInOrder starting _⟩,
    ⟨_, HookTable.sort_isStableSortOf calls hpri .stop, runHooks_ranInOrder stopping _⟩⟩

/-- A start hook of a module. -/
def exampleHook (owner : String) (pri : Pri) (subPriority : UInt16) : Hook where
  owner
  name := "start"
  hookNum := .start
  priority := pri.value
  subPriority

/-- Two modules register a hook each, the later one to be run first. -/
def exampleHooks : List (List Hook) :=
  [[exampleHook "db" .modules 16], [exampleHook "logging" .sysInit 65535]]

theorem exampleHooks_in_order :
    let started := (HookTable.registerAll exampleHooks).start fun _ => none
    ∃ order, IsStableSortOf Hook.priorities
        (exampleHooks.flatten.filter fun h => h.hookNum = .start) order ∧
      RanInOrder (fun _ => none) order started.ran started.failed := by
  have hpri : ∀ h ∈ exampleHooks.flatten, 8 ∣ h.priority.toNat := by
    intro h hh
    simp only [exampleHooks, List.flatten_cons, List.flatten_nil, List.append_nil,
      List.singleton_append, List.mem_cons, List.not_mem_nil, or_false] at hh
    rcases hh with rfl | rfl
    · exact Pri.eight_dvd_value .modules
    · exact Pri.eight_dvd_value .sysInit
  exact (hooks_in_order exampleHooks hpri (fun _ => none) fun _ => none).1

example : ((HookTable.registerAll exampleHooks).start fun _ => none).ran.map Hook.owner =
    ["logging", "db"] := by decide

end Apiserver.Proc
