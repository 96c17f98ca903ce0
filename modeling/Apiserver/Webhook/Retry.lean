import Apiserver.Basic
import Apiserver.Go.Backoff

/-!
# Calling a webhook

The webhooks are called with retries (`pkg/util/webhook/webhook.go`): a call
that fails is repeated, with a backoff, if `ShouldRetry` accepts its error. The
function that is retried is a closure; what it captures is a state `σ`.

* `withExponentialBackoff_spec`: the calls that are made, and that the error is
  nil exactly when the last of them has succeeded;
* `made_withExponentialBackoff`: the calls of a `GenericWebhook`, whose result
  is the one it has captured last, or a zero value, which holds no error;
* `honest_withExponentialBackoff_iff`: so a result without an error stands for a
  call that succeeded, and no other is made after it, exactly when a call is
  made at all and none that succeeded is retried;
* `honest_processEvents`: as it is for the audit webhook.
-/

namespace Apiserver.Webhook

open Go

/-- What golib tells about errors. A nil error is `none`. -/
structure ErrorTests where
  isConnectionReset : Option Error → Bool := fun _ => false
  isInternalError : Option Error → Bool := fun _ => false
  isTimeout : Option Error → Bool := fun _ => false
  isTooManyRequests : Option Error → Bool := fun _ => false
  suggestsClientDelay : Option Error → Bool := fun _ => false

/-- `DefaultShouldRetry`. -/
def defaultShouldRetry (t : ErrorTests) (err : Option Error) : Bool :=
  t.isConnectionReset err || t.isInternalError err || t.isTimeout err || t.isTooManyRequests err ||
    t.suggestsClientDelay err

variable {σ : Type}

/-- The condition `WithExponentialBackoff` waits for. It captures the last error
    of the webhook. -/
def retryCondition (webhookFn : σ → σ × Option Error) (shouldRetry : Option Error → Bool)
    (captured : σ × Option Error) : (σ × Option Error) × Bool × Option Error :=
  match webhookFn captured.1 with
  | (s, webhookErr) =>
    if shouldRetry webhookErr then ((s, webhookErr), false, none)
    else match webhookErr with
      | some err => ((s, webhookErr), false, some err)
      | none => ((s, webhookErr), true, none)

/-- `WithExponentialBackoff`. -/
def withExponentialBackoff (ctx : Go.Context) (retryBackoff : Backoff)
    (webhookFn : σ → σ × Option Error) (shouldRetry : Option Error → Bool) (s : σ) :
    σ × Option Error :=
  match exponentialBackoffWithContext ctx retryBackoff (retryCondition webhookFn shouldRetry)
      (s, none) with
  | ((s, some webhookErr), _) => (s, some webhookErr)
  | ((s, none), some err) => (s, some ("webhook call failed: " ++ err))
  | ((s, none), none) => (s, none)

/-- `rest.Result`, as far as its `Error()` goes. -/
structure Result where
  body : List UInt8 := []
  err : Option Error := none
  deriving DecidableEq

/-- `GenericWebhook`, short of its client. -/
structure GenericWebhook where
  retryBackoff : Backoff
  /-- `ShouldRetry`, unless it is nil. -/
  shouldRetry : Option (Option Error → Bool) := none

/-- What the closure of a `GenericWebhook` captures: the result, and the results
    of all calls of the webhook that have been made. -/
structure Calls where
  made : List Result := []
  result : Result := {}
  deriving DecidableEq

namespace GenericWebhook

variable (g : GenericWebhook) (t : ErrorTests)

/-- The `ShouldRetry` in use. -/
def retries : Option Error → Bool := g.shouldRetry.getD (defaultShouldRetry t)

/-- `WithExponentialBackoff` of a `GenericWebhook`, with the result of the
    webhook when it is called for the `n`th time. The error of the retries is
    dropped. -/
def withExponentialBackoff (ctx : Go.Context) (webhookFn : ℕ → Result) : Calls :=
  (Webhook.withExponentialBackoff ctx g.retryBackoff
    (fun c =>
      let result := webhookFn c.made.length
      ({ made := c.made ++ [result], result }, result.err))
    (g.retries t) {}).1

end GenericWebhook

/-! ## The calls that are made -/

section

variable (webhookFn : σ → σ × Option Error) (shouldRetry : Option Error → Bool)

/-- What the closure has captured when it has been called `n` times. -/
def captured (s : σ) (n : ℕ) : σ := (fun s => (webhookFn s).1)^[n] s

/-- The error of the call after `n` calls. -/
def callErr (s : σ) (n : ℕ) : Option Error := (webhookFn (captured webhookFn s n)).2

/-- The error of the last of `n` calls. -/
def lastErr (s : σ) : ℕ → Option Error
  | 0 => none
  | n + 1 => callErr webhookFn s n

theorem captured_succ (s : σ) (n : ℕ) :
    captured webhookFn s (n + 1) = (webhookFn (captured webhookFn s n)).1 :=
  Function.iterate_succ_apply' _ n s

theorem retryCondition_fst (c : σ × Option Error) :
    (retryCondition webhookFn shouldRetry c).1 = webhookFn c.1 := by
  rw [retryCondition]
  rcases webhookFn c.1 with ⟨s, _ | err⟩
  · dsimp only
    split_ifs <;> rfl
  · dsimp only
    split_ifs <;> rfl

/-- Another call is asked for if `ShouldRetry` accepts the error, also a nil one. -/
theorem retryCondition_retry_iff (c : σ × Option Error) :
    (retryCondition webhookFn shouldRetry c).2 = (false, none) ↔
      shouldRetry (webhookFn c.1).2 = true := by
  rw [retryCondition]
  rcases webhookFn c.1 with ⟨s, _ | err⟩
  · dsimp only
    split_ifs with h <;> simp [h]
  · dsimp only
    split_ifs with h <;> simp [h]

theorem retryCondition_done_iff (c : σ × Option Error) :
    (retryCondition webhookFn shouldRetry c).2 = (true, none) ↔
      (webhookFn c.1).2 = none ∧ shouldRetry none = false := by
  rw [retryCondition]
  rcases webhookFn c.1 with ⟨s, _ | err⟩
  · dsimp only
    split_ifs with h <;> simp [h]
  · dsimp only
    split_ifs with h <;> simp

/-- The condition captures what the webhook does, and the error of the last call. -/
theorem iterate_retryCondition (s : σ) (n : ℕ) :
    (fun c => (retryCondition webhookFn shouldRetry c).1)^[n] (s, none) =
      (captured webhookFn s n, lastErr webhookFn s n) := by
  induction n with
  | zero => rfl
  | succ n ih =>
    rw [Function.iterate_succ_apply', ih, retryCondition_fst, captured_succ]
    rfl

variable {webhookFn shouldRetry}

/-- The webhook has been called `k` times, of at most `limit`. -/
structure Retried (webhookFn : σ → σ × Option Error) (shouldRetry : Option Error → Bool)
    (limit : ℕ) (s : σ) (k : ℕ) (out : σ × Option Error) : Prop where
  le_limit : k ≤ limit
  state : out.1 = captured webhookFn s k
  /-- A call that is retried has an error `ShouldRetry` accepts, or none if it
      accepts that. -/
  retried : ∀ i, i + 1 < k → shouldRetry (callErr webhookFn s i) = true
  /-- If there could have been more calls, the last is not to be retried. -/
  stopped : k < limit → ∃ i, k = i + 1 ∧ shouldRetry (callErr webhookFn s i) = false
  /-- The error is nil exactly when the last call has succeeded, and is not to be
      retried. -/
  err : out.2 = none ↔ ∃ i, k = i + 1 ∧ callErr webhookFn s i = none ∧ shouldRetry none = false

/-- The error, from the one of the last call and the one of the backoff. -/
theorem withExponentialBackoff_eq (ctx : Go.Context) (retryBackoff : Backoff) (s : σ)
    {c : σ × Option Error} {err : Option Error}
    (h : exponentialBackoffWithContext ctx retryBackoff (retryCondition webhookFn shouldRetry)
      (s, none) = (c, err)) :
    withExponentialBackoff ctx retryBackoff webhookFn shouldRetry s =
      (c.1, c.2.or (err.map ("webhook call failed: " ++ ·))) := by
  rw [withExponentialBackoff, h]
  rcases c with ⟨s', _ | webhookErr⟩
  · cases err with
    | none => rfl
    | some err => rfl
  · rfl

/-- The calls that are made. -/
theorem withExponentialBackoff_spec (webhookFn : σ → σ × Option Error)
    (shouldRetry : Option Error → Bool) (ctx : Go.Context) (retryBackoff : Backoff) (s : σ) :
    ∃ k, Retried webhookFn shouldRetry (retryBackoff.limit ctx) s k
      (withExponentialBackoff ctx retryBackoff webhookFn shouldRetry s) := by
  obtain ⟨⟨c, err⟩, hout⟩ : ∃ out, exponentialBackoffWithContext ctx retryBackoff
    (retryCondition webhookFn shouldRetry) (s, none) = out := ⟨_, rfl⟩
  obtain ⟨k, hk⟩ := exponentialBackoffWithContext_spec ctx retryBackoff
    (retryCondition webhookFn shouldRetry) (s, none)
  have hc := hk.state
  have herr := hk.err
  have hretried := hk.retried
  have hstopped := hk.stopped
  simp only [hout, iterate_retryCondition, ne_eq, retryCondition_retry_iff,
    retryCondition_done_iff] at hc herr hretried hstopped
  rw [withExponentialBackoff_eq ctx retryBackoff s hout, hc]
  refine ⟨k, hk.le_limit, rfl, hretried, ?_, ?_⟩
  · intro hlt
    obtain ⟨i, hi, hstop⟩ := hstopped hlt
    exact ⟨i, hi, Bool.eq_false_iff.2 hstop⟩
  · constructor
    · intro hnone
      rw [Option.or_eq_none_iff, Option.map_eq_none_iff] at hnone
      exact herr.1 hnone.2
    · rintro ⟨i, rfl, hok, hretry⟩
      have hlast : lastErr webhookFn s (i + 1) = none := hok
      rw [hlast, herr.2 ⟨i, rfl, hok, hretry⟩]
      rfl

end

/-! ## A result without an error -/

namespace GenericWebhook

variable {g : GenericWebhook} {t : ErrorTests} {ctx : Go.Context} {webhookFn : ℕ → Result}

/-- What a `GenericWebhook` has captured when its webhook has been called `n`
    times. -/
def callsOf (webhookFn : ℕ → Result) (n : ℕ) : Calls where
  made := (List.range n).map webhookFn
  result := (((List.range n).map webhookFn).getLast?).getD {}

/-- The webhook has been called `k` times, of at most `limit`. -/
structure Made (shouldRetry : Option Error → Bool) (webhookFn : ℕ → Result) (limit k : ℕ)
    (c : Calls) : Prop where
  le_limit : k ≤ limit
  calls : c = callsOf webhookFn k
  retried : ∀ i, i + 1 < k → shouldRetry (webhookFn i).err = true
  stopped : k < limit → ∃ i, k = i + 1 ∧ shouldRetry (webhookFn i).err = false

/-- The calls of a webhook, whose result is the one that has been captured last,
    or a zero value. -/
theorem made_withExponentialBackoff (g : GenericWebhook) (t : ErrorTests) (ctx : Go.Context)
    (webhookFn : ℕ → Result) :
    ∃ k, Made (g.retries t) webhookFn (g.retryBackoff.limit ctx) k
      (g.withExponentialBackoff t ctx webhookFn) := by
  set fn : Calls → Calls × Option Error := fun c =>
    let result := webhookFn c.made.length
    ({ made := c.made ++ [result], result }, result.err) with hfn
  have hcaptured : ∀ n, captured fn {} n = callsOf webhookFn n := by
    intro n
    induction n with
    | zero => rfl
    | succ n ih =>
      rw [captured_succ, ih]
      simp [hfn, callsOf, List.range_succ]
  have herr : ∀ n, callErr fn {} n = (webhookFn n).err := by
    intro n
    rw [callErr, hcaptured]
    simp [hfn, callsOf]
  obtain ⟨k, hk⟩ := withExponentialBackoff_spec fn (g.retries t) ctx g.retryBackoff {}
  refine ⟨k, hk.le_limit, ?_, ?_, ?_⟩
  · exact hk.state.trans (hcaptured k)
  · intro i hi
    rw [← herr]
    exact hk.retried i hi
  · intro hlt
    obtain ⟨i, hi, hstop⟩ := hk.stopped hlt
    exact ⟨i, hi, by rwa [← herr]⟩

/-- What a result is meant to tell about the calls that have been made. -/
structure Honest (shouldRetry : Option Error → Bool) (c : Calls) : Prop where
  /-- There is no error exactly when some call has succeeded. -/
  success : c.result.err = none ↔ ∃ r ∈ c.made, r.err = none
  /-- A call that has succeeded is the last. -/
  last : ∀ r ∈ c.made.dropLast, r.err ≠ none
  /-- A call is followed by another only after an error `ShouldRetry` accepts. -/
  retried : ∀ r ∈ c.made.dropLast, ∃ err, r.err = some err ∧ shouldRetry (some err) = true

theorem mem_dropLast_made {k : ℕ} {r : Result} :
    r ∈ (callsOf webhookFn k).made.dropLast ↔ ∃ i, i + 1 < k ∧ webhookFn i = r := by
  cases k with
  | zero => simp [callsOf]
  | succ n => simp [callsOf, List.range_succ]

section

variable {shouldRetry : Option Error → Bool} {limit k : ℕ} {c : Calls}

/-- A call is made if one is left. -/
theorem Made.pos (hk : Made shouldRetry webhookFn limit k c) (hlimit : 0 < limit) : 0 < k := by
  by_contra hzero
  obtain ⟨i, hi, -⟩ := hk.stopped (by omega)
  omega

/-- A call that is to be retried, after others that are, is followed by another
    if one is left. -/
theorem Made.succ_lt (hk : Made shouldRetry webhookFn limit k c) {i : ℕ} (hi : i + 1 < limit)
    (hretry : ∀ j ≤ i, shouldRetry (webhookFn j).err = true) : i + 1 < k := by
  by_contra hlast
  obtain ⟨j, rfl, hstop⟩ := hk.stopped (by omega)
  rw [hretry j (by omega)] at hstop
  cases hstop

theorem Honest.pos (hk : Made shouldRetry webhookFn limit k c) (h : Honest shouldRetry c) :
    0 < k := by
  by_contra hzero
  obtain rfl : k = 0 := by omega
  rw [hk.calls] at h
  obtain ⟨r, hr, -⟩ := h.success.1 rfl
  exact List.not_mem_nil hr

/-- The result is the one of the last call. So it is enough that all calls
    before have failed. -/
theorem Made.honest (hk : Made shouldRetry webhookFn limit k c) (hpos : 0 < k)
    (hfail : ∀ i, i + 1 < k → (webhookFn i).err ≠ none) : Honest shouldRetry c := by
  obtain ⟨n, rfl⟩ : ∃ n, k = n + 1 := ⟨k - 1, by omega⟩
  rw [hk.calls]
  refine ⟨?_, ?_, ?_⟩
  · have hresult : (callsOf webhookFn (n + 1)).result = webhookFn n := by
      simp [callsOf, List.range_succ]
    rw [hresult]
    constructor
    · intro hok
      exact ⟨webhookFn n, List.mem_map.2 ⟨n, List.mem_range.2 (by omega), rfl⟩, hok⟩
    · rintro ⟨r, hr, hok⟩
      obtain ⟨i, hi, rfl⟩ := List.mem_map.1 hr
      rcases Nat.lt_or_ge (i + 1) (n + 1) with hlt | hge
      · exact absurd hok (hfail i hlt)
      · obtain rfl : i = n := by have := List.mem_range.1 hi; omega
        exact hok
  · intro r hr
    obtain ⟨i, hi, rfl⟩ := mem_dropLast_made.1 hr
    exact hfail i hi
  · intro r hr
    obtain ⟨i, hi, rfl⟩ := mem_dropLast_made.1 hr
    obtain ⟨err, herr⟩ := Option.ne_none_iff_exists'.1 (hfail i hi)
    exact ⟨err, herr, herr ▸ hk.retried i hi⟩

end

/-- A result tells about the calls what it is meant to exactly when a call is
    made, as there is a step and the context is not done, and no call that
    succeeded is retried, which needs a `ShouldRetry` that accepts a nil error. -/
theorem honest_withExponentialBackoff_iff (g : GenericWebhook) (t : ErrorTests) (ctx : Go.Context)
    (webhookFn : ℕ → Result) :
    Honest (g.retries t) (g.withExponentialBackoff t ctx webhookFn) ↔
      (0 < g.retryBackoff.steps ∧ ctx 0 = none) ∧
      ∀ i, i + 1 < g.retryBackoff.limit ctx →
        (∀ j ≤ i, g.retries t (webhookFn j).err = true) → (webhookFn i).err ≠ none := by
  obtain ⟨k, hk⟩ := made_withExponentialBackoff g t ctx webhookFn
  rw [← Backoff.limit_pos]
  constructor
  · intro h
    refine ⟨(Honest.pos hk h).trans_le hk.le_limit, fun i hi hretry => ?_⟩
    refine h.last _ ?_
    rw [hk.calls]
    exact mem_dropLast_made.2 ⟨i, hk.succ_lt hi hretry, rfl⟩
  · rintro ⟨hlimit, hfail⟩
    exact hk.honest (hk.pos hlimit) fun i hi =>
      hfail i (hi.trans_le hk.le_limit) fun j hj => hk.retried j (by omega)

/-- With a context that is done no call is made, and the result holds no error. -/
theorem withExponentialBackoff_of_canceled :
    ({ retryBackoff := { steps := 5 } } : GenericWebhook).withExponentialBackoff {}
      (fun _ => some "context canceled") (fun _ => { err := some "connection refused" }) =
    { made := [], result := { err := none } } := by
  decide

end GenericWebhook

/-! ## The audit webhook -/

/-- `retryOnError` of the audit webhook (`plugin/audit/webhook/webhook.go`). -/
def retryOnError (err : Option Error) : Bool := err.isSome

/-- `processEvents` of the audit webhook: the error of posting the events. -/
def processEvents (t : ErrorTests) (retryBackoff : Backoff) (post : ℕ → Result) : Calls :=
  ({ retryBackoff, shouldRetry := some retryOnError } : GenericWebhook).withExponentialBackoff t
    .background post

/-- The audit webhook retries every error, and never gives up because of a
    context. So it reports events as sent exactly if some post has succeeded, as
    long as its backoff has a step. -/
theorem honest_processEvents (t : ErrorTests) {retryBackoff : Backoff}
    (hsteps : 0 < retryBackoff.steps) (post : ℕ → Result) :
    GenericWebhook.Honest retryOnError (processEvents t retryBackoff post) := by
  obtain ⟨k, hk⟩ := GenericWebhook.made_withExponentialBackoff
    { retryBackoff, shouldRetry := some retryOnError } t .background post
  refine hk.honest (hk.pos (Backoff.limit_pos.2 ⟨hsteps, rfl⟩)) fun i hi hok => ?_
  have hretry : retryOnError (post i).err = true := hk.retried i hi
  rw [hok] at hretry
  cases hretry

end Apiserver.Webhook
