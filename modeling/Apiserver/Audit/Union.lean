import Apiserver.Basic
import Mathlib.Data.List.Perm.Basic
import Mathlib.Logic.Relation

/-!
# The union of audit backends

A union passes every call on to its members (`pkg/audit/union.go`). Two of its
methods call the members one after the other. `Run` makes a closure for each
member in a loop, and has them all run as goroutines (`AggregateGoroutines`).
The closures read the loop variable when they run, and in the version of Go the
module is written for there is one variable for all iterations: the state of a
run keeps that variable (`RunState.backend`), apart from the closures.

* `Inv.step`: what one step of the loop, or of a goroutine, preserves;
* `calls_of_reaches`: so in every run, whatever the schedule, all goroutines
  call the member that was listed last;
* `Inv.exists_returned`: from every point of a run, `Run` can return;
* `fanOut_iff`: every member is reached exactly once exactly when all members
  are one and the same backend.
-/

namespace Apiserver.Audit

variable {B : Type} (d : Deps)

/-! ## The loops -/

/-- `Union`: a union of one backend is that backend. -/
inductive Union (B : Type)
  | single (backend : B)
  | union (backends : List B)

/-- `Union`. -/
def newUnion : List B → Union B
  | [b] => .single b
  | l => .union l

section Loops

variable {σ : Type}

/-- `ProcessEvents` of the members, which may change the state they share: the
    members called, in order, whether all of them succeeded, and the state. -/
def processEventsLoop (process : B → σ → Bool × σ) : List B → Bool → σ → List B × Bool × σ
  | [], success, s => ([], success, s)
  | b :: l, success, s =>
    let (ok, s) := process b s
    let (calls, success, s) := processEventsLoop process l (ok && success) s
    (b :: calls, success, s)

/-- `ProcessEvents`. -/
def Union.processEvents (process : B → σ → Bool × σ) (s : σ) : Union B → List B × Bool × σ
  | .single b =>
    let (ok, s) := process b s
    ([b], ok, s)
  | .union l => processEventsLoop process l true s

/-- The loop of `Shutdown`. -/
def shutdownLoop (shut : B → σ → σ) : List B → σ → List B × σ
  | [], s => ([], s)
  | b :: l, s =>
    let (calls, s) := shutdownLoop shut l (shut b s)
    (b :: calls, s)

/-- `Shutdown`. -/
def Union.shutdown (shut : B → σ → σ) (s : σ) : Union B → List B × σ
  | .single b => ([b], shut b s)
  | .union l => shutdownLoop shut l s

theorem processEventsLoop_calls (process : B → σ → Bool × σ) (l : List B) (success : Bool) (s : σ) :
    (processEventsLoop process l success s).1 = l := by
  induction l generalizing success s with
  | nil => rfl
  | cons b l ih => exact congrArg (b :: ·) (ih _ _)

theorem shutdownLoop_calls (shut : B → σ → σ) (l : List B) (s : σ) :
    (shutdownLoop shut l s).1 = l := by
  induction l generalizing s with
  | nil => rfl
  | cons b l ih => exact congrArg (b :: ·) (ih _)

/-- `ProcessEvents` reaches every member once, in order. -/
theorem processEvents_calls (process : B → σ → Bool × σ) (s : σ) (l : List B) :
    ((newUnion l).processEvents process s).1 = l := by
  rw [newUnion.eq_def]
  split
  · rfl
  · exact processEventsLoop_calls process l true s

/-- `Shutdown` reaches every member once, in order. -/
theorem shutdown_calls (shut : B → σ → σ) (s : σ) (l : List B) :
    ((newUnion l).shutdown shut s).1 = l := by
  rw [newUnion.eq_def]
  split
  · rfl
  · exact shutdownLoop_calls shut l s

end Loops

/-! ## Goroutines -/

/-- Where a run is: in the loop, waiting for the goroutines that are still to
    run, or back from `Run`. -/
inductive Phase
  | loop
  | waiting (pending : List Nat)
  | returned (err : Option Error)

/-- The state of `Run` of a union. -/
structure RunState (B : Type) where
  phase : Phase := .loop
  /-- The members the loop has yet to come to. -/
  todo : List B
  /-- The loop variable, which all closures have captured. -/
  backend : Option B := none
  /-- The closures, by the iteration that made them. -/
  funcs : List Nat := []
  /-- The calls of `Run` of a member, and what they returned. -/
  calls : List (B × Option Error) := []

/-- A step of a run. -/
inductive Step : RunState B → RunState B → Prop
  | iterate {s : RunState B} {b : B} {l : List B} (hp : s.phase = .loop) (ht : s.todo = b :: l) :
      Step s { s with todo := l, backend := some b, funcs := s.funcs ++ [s.funcs.length] }
  /-- `AggregateGoroutines` starts a goroutine for every closure. -/
  | launch {s : RunState B} (hp : s.phase = .loop) (ht : s.todo = []) :
      Step s { s with phase := .waiting s.funcs }
  /-- Any of the goroutines runs its closure: `Run` of what the loop variable is
      now is called, and returns. -/
  | exec {s : RunState B} {pending : List Nat} {i : Nat} {b : B} (err : Option Error)
      (hp : s.phase = .waiting pending) (hi : i ∈ pending) (hb : s.backend = some b) :
      Step s { s with phase := .waiting (pending.erase i), calls := s.calls ++ [(b, err)] }
  /-- All goroutines are done. Their errors have come in in some order. -/
  | ret {s : RunState B} {errs : List Error} (hp : s.phase = .waiting [])
      (he : errs.Perm (s.calls.filterMap Prod.snd)) :
      Step s { s with phase := .returned (d.newAggregate errs) }

/-- A run takes `s` to `t`. -/
abbrev Reaches : RunState B → RunState B → Prop := Relation.ReflTransGen (Step d)

/-- `Run` of a union may make these calls and return this error. -/
inductive Ran : Union B → List (B × Option Error) → Option Error → Prop
  | single (b : B) (err : Option Error) : Ran (.single b) [(b, err)] err
  | union {l : List B} {s : RunState B} {err : Option Error}
      (hr : Reaches d { todo := l } s) (hs : s.phase = .returned err) : Ran (.union l) s.calls err

/-- What holds at every point of a run of the members `l`. -/
inductive Inv (l : List B) : RunState B → Prop
  /-- In the loop: the variable is the last member the loop came to. -/
  | loop {s : RunState B} (done : List B) (hp : s.phase = .loop) (hl : l = done ++ s.todo)
      (hb : s.backend = done.getLast?) (hf : s.funcs.length = done.length) (hc : s.calls = []) :
      Inv l s
  /-- After it: the variable is the last member, and so are all that have been called. -/
  | waiting {s : RunState B} {pending : List Nat} (hp : s.phase = .waiting pending)
      (hb : s.backend = l.getLast?) (hn : pending.length + s.calls.length = l.length)
      (hc : ∀ c ∈ s.calls, l.getLast? = some c.1) : Inv l s
  | returned {s : RunState B} {errs : List Error} (hp : s.phase = .returned (d.newAggregate errs))
      (he : errs.Perm (s.calls.filterMap Prod.snd)) (hn : s.calls.length = l.length)
      (hc : ∀ c ∈ s.calls, l.getLast? = some c.1) : Inv l s

variable {d}

theorem Inv.init (l : List B) : Inv d l { todo := l } :=
  .loop [] rfl rfl rfl rfl rfl

variable {l : List B}

/-- Every step keeps the invariant. -/
theorem Inv.step {s t : RunState B} (hi : Inv d l s) (hst : Step d s t) :
    Inv d l t := by
  -- The phase of the state says which case of the invariant a step starts from.
  cases hst with
  | @iterate b l' hp ht =>
    cases hi with
    | loop done _ hl hb hf hc =>
      refine .loop (done ++ [b]) hp ?_ ?_ ?_ hc
      · rw [hl, ht, List.append_assoc]
        rfl
      · exact (List.getLast?_concat).symm
      · simp [hf]
    | waiting hp' => cases hp.symm.trans hp'
    | returned hp' => cases hp.symm.trans hp'
  | launch hp ht =>
    cases hi with
    | loop done _ hl hb hf hc =>
      rw [ht, List.append_nil] at hl
      subst hl
      refine .waiting rfl hb ?_ ?_
      · simp [hc, hf]
      · simp [hc]
    | waiting hp' => cases hp.symm.trans hp'
    | returned hp' => cases hp.symm.trans hp'
  | @exec pending i b err hp hmem hb =>
    cases hi with
    | loop _ hp' => cases hp.symm.trans hp'
    | waiting hp' hb' hn hc =>
      cases hp.symm.trans hp'
      refine .waiting rfl hb' ?_ ?_
      · have hpos : 0 < pending.length := List.length_pos_of_mem hmem
        rw [List.length_erase_of_mem hmem, List.length_append, List.length_singleton]
        omega
      · intro c hc'
        rcases List.mem_append.1 hc' with hc' | hc'
        · exact hc c hc'
        · -- The closure reads the loop variable, which has stayed at the last member.
          rw [List.mem_singleton.1 hc', ← hb', hb]
    | returned hp' => cases hp.symm.trans hp'
  | ret hp he =>
    cases hi with
    | loop _ hp' => cases hp.symm.trans hp'
    | waiting hp' hb hn hc =>
      cases hp.symm.trans hp'
      refine .returned rfl he ?_ hc
      simpa using hn
    | returned hp' => cases hp.symm.trans hp'

/-- Every run keeps the invariant. -/
theorem Inv.reaches {s t : RunState B} (hi : Inv d l s) (hr : Reaches d s t) :
    Inv d l t := by
  induction hr with
  | refl => exact hi
  | tail _ hst ih => exact ih.step hst

/-! ## Runs come to an end -/

/-- The steps left in a run. -/
def RunState.remaining (s : RunState B) : Nat :=
  match s.phase with
  | .loop => 2 * s.todo.length + s.funcs.length + 2
  | .waiting pending => pending.length + 1
  | .returned _ => 0

/-- Every step leaves less to do. -/
theorem Step.remaining_lt {s t : RunState B} (hst : Step d s t) : t.remaining < s.remaining := by
  cases hst with
  | iterate hp ht =>
    simp only [RunState.remaining, hp, ht, List.length_append, List.length_cons, List.length_nil]
    omega
  | launch hp ht =>
    simp only [RunState.remaining, hp]
    omega
  | exec err hp hmem hb =>
    have hpos := List.length_pos_of_mem hmem
    simp only [RunState.remaining, hp, List.length_erase_of_mem hmem]
    omega
  | ret hp he =>
    simp only [RunState.remaining, hp]
    omega

/-- A run that has not returned can go on. -/
theorem Inv.progress {s : RunState B} (hi : Inv d l s) :
    (∃ err, s.phase = .returned err) ∨ ∃ t, Step d s t := by
  cases hi with
  | loop done hp hl hb hf hc =>
    cases ht : s.todo with
    | nil => exact .inr ⟨_, .launch hp ht⟩
    | cons b l => exact .inr ⟨_, .iterate hp ht⟩
  | @waiting pending hp hb hn hc =>
    cases pending with
    | nil => exact .inr ⟨_, .ret hp (.refl _)⟩
    | cons i pending =>
      -- A goroutine to run is one that was made for a member, so there are members.
      have hne : l ≠ [] := by
        rintro rfl
        simp at hn
      rw [List.getLast?_eq_some_getLast hne] at hb
      exact .inr ⟨_, .exec none hp List.mem_cons_self hb⟩
  | returned hp => exact .inl ⟨_, hp⟩

/-- From every point of a run, `Run` can return. -/
theorem Inv.exists_returned {s : RunState B} (hi : Inv d l s) :
    ∃ t err, Reaches d s t ∧ t.phase = .returned err := by
  induction hn : s.remaining using Nat.strong_induction_on generalizing s with
  | _ n ih =>
    rcases hi.progress with ⟨err, hs⟩ | ⟨t, hst⟩
    · exact ⟨s, err, .refl, hs⟩
    · obtain ⟨u, err, hr, hu⟩ := ih _ (hn ▸ hst.remaining_lt) (hi.step hst) rfl
      exact ⟨u, err, .head hst hr, hu⟩

/-! ## What the members see -/

/-- In every run, as many calls are made as there are members, and all of them
    are of the member that is listed last. -/
theorem calls_of_reaches {s : RunState B} {err : Option Error} (hr : Reaches d { todo := l } s)
    (hs : s.phase = .returned err) :
    s.calls.length = l.length ∧ (∀ c ∈ s.calls, l.getLast? = some c.1) ∧
      (err = none → ∀ c ∈ s.calls, c.2 = none) := by
  cases (Inv.init l).reaches hr with
  | loop _ hp => cases hp.symm.trans hs
  | waiting hp => cases hp.symm.trans hs
  | @returned errs hp he hn hc =>
    refine ⟨hn, hc, fun herr c hmem => ?_⟩
    cases hp.symm.trans hs
    rw [d.newAggregate_eq_none] at herr
    subst herr
    have := List.filterMap_eq_nil_iff.1 he.symm.eq_nil
    exact this c hmem

variable (d) in
/-- Every call on the union reaches every member exactly once, and `Run` returns
    nil only if `Run` of every member did. -/
structure FanOut (l : List B) : Prop where
  processEvents : ∀ {σ : Type} (process : B → σ → Bool × σ) (s : σ),
    ((newUnion l).processEvents process s).1.Perm l
  shutdown : ∀ {σ : Type} (shut : B → σ → σ) (s : σ), ((newUnion l).shutdown shut s).1.Perm l
  run : ∀ {calls : List (B × Option Error)} {err : Option Error},
    Ran d (newUnion l) calls err → (calls.map Prod.fst).Perm l
  nil : ∀ {calls : List (B × Option Error)}, Ran d (newUnion l) calls none →
    ∀ b ∈ l, (∃ c ∈ calls, c.1 = b) ∧ ∀ c ∈ calls, c.1 = b → c.2 = none

/-- What `Run` of a union of backends that are all the same does. -/
theorem ran_of_same (h : ∀ b ∈ l, ∀ b' ∈ l, b = b') {calls : List (B × Option Error)}
    {err : Option Error} (hr : Ran d (newUnion l) calls err) :
    calls.map Prod.fst = l ∧ (err = none → ∀ c ∈ calls, c.2 = none) := by
  rw [newUnion.eq_def] at hr
  split at hr
  · cases hr with
    | single b err =>
      refine ⟨rfl, fun herr c hc => ?_⟩
      rw [List.mem_singleton.1 hc, herr]
  · cases hr with
    | union hr hs =>
      obtain ⟨hn, hc, hnil⟩ := calls_of_reaches hr hs
      refine ⟨?_, hnil⟩
      cases hlast : l.getLast? with
      | none =>
        rw [List.getLast?_eq_none_iff] at hlast
        subst hlast
        simpa using hn
      | some b =>
        have hb : b ∈ l := List.mem_of_getLast? hlast
        rw [List.eq_replicate_iff.2 ⟨rfl, fun b' hb' => h b' hb' b hb⟩, List.eq_replicate_iff]
        refine ⟨by rw [List.length_map, hn], fun b' hb' => ?_⟩
        obtain ⟨c, hmem, rfl⟩ := List.mem_map.1 hb'
        exact Option.some.inj ((hc c hmem).symm.trans hlast)

/-- A union reaches every member exactly once exactly when its members are all
    the same: a list of two different ones has a member that `Run` never calls. -/
theorem fanOut_iff (l : List B) : FanOut d l ↔ ∀ b ∈ l, ∀ b' ∈ l, b = b' := by
  constructor
  · intro h
    suffices hlast : ∀ b ∈ l, l.getLast? = some b from fun b hb b' hb' =>
      Option.some.inj ((hlast b hb).symm.trans (hlast b' hb'))
    intro b hb
    by_cases hsingle : ∃ b', l = [b']
    · obtain ⟨b', rfl⟩ := hsingle
      rw [List.mem_singleton.1 hb]
      rfl
    · have hunion : newUnion l = .union l := by
        rw [newUnion.eq_def]
        split
        · exact absurd ⟨_, rfl⟩ hsingle
        · rfl
      -- There is a run that returns, and its calls are all of the last member.
      obtain ⟨s, err, hr, hs⟩ := (Inv.init (d := d) l).exists_returned
      have hperm := h.run (hunion ▸ Ran.union hr hs)
      obtain ⟨c, hmem, rfl⟩ := List.mem_map.1 (hperm.mem_iff.2 hb)
      exact (calls_of_reaches hr hs).2.1 c hmem
  · intro h
    refine ⟨fun process s => ?_, fun shut s => ?_, fun hr => ?_, fun hr b hb => ?_⟩
    · rw [processEvents_calls]
    · rw [shutdown_calls]
    · rw [(ran_of_same h hr).1]
    · obtain ⟨hcalls, hnil⟩ := ran_of_same h hr
      refine ⟨?_, fun c hc _ => hnil rfl c hc⟩
      rw [← hcalls] at hb
      exact List.mem_map.1 hb

/-- The end of a run of two backends. -/
def exampleEnd : RunState String where
  phase := .returned none
  todo := []
  backend := some "webhook"
  funcs := [0, 1]
  calls := [("webhook", none), ("webhook", none)]

/-- Two backends: the second one runs twice, the first one never, and `Run`
    returns nil. -/
theorem not_fanOut_log_webhook :
    Ran Deps.plain (newUnion ["log", "webhook"]) exampleEnd.calls none ∧
      ¬ FanOut Deps.plain ["log", "webhook"] := by
  have hran : Ran Deps.plain (newUnion ["log", "webhook"]) exampleEnd.calls none := by
    refine Ran.union ?_ rfl
    -- The two iterations, then the second goroutine and the first one.
    refine .head (.iterate rfl rfl) (.head (.iterate rfl rfl) (.head (.launch rfl rfl) ?_))
    refine .head (.exec (i := 1) none rfl (by decide) rfl) ?_
    refine .head (.exec (i := 0) none rfl (by decide) rfl) ?_
    have hret : Step Deps.plain _ _ :=
      Step.ret (s := { exampleEnd with phase := .waiting [] }) rfl (List.Perm.refl [])
    exact .single hret
  refine ⟨hran, fun h => ?_⟩
  have hmem : "log" ∈ ["webhook", "webhook"] := (h.run hran).mem_iff.2 List.mem_cons_self
  exact absurd hmem (by decide)

end Apiserver.Audit
