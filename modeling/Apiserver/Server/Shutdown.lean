import Apiserver.Request.RequestInfo
import Apiserver.Transition.System
import Apiserver.Transition.Table

/-!
# Shutting down

When the server module is told to stop, it goes on to serve for a while, and then closes
its servers and waits for the requests that are being handled
(`pkg/server/module/server.go`). It does so by a wait group, in which there is

* one for each server, until the server is closed (`RunServer` in
  `pkg/server/secure_serving.go`);
* and one for each request that is being handled, unless it is long-running
  (`WithWaitGroup` in `pkg/filters/waitgroup.go`). A request that comes when the wait
  group is waited for is refused.

The state holds the channels that are closed, the wait group, and where the servers, the
requests and the goroutines of the module are. Requests come at any time, and as a server
may give up on its connections, also when it is closed.

* `stop_quiet`: once `stop` has returned, no request is handled that is not long-running,
  from then on;
* `served_until_delayed`: before the delay is over, no request is refused and no server is
  closed;
* `stop_returns_if_started`: `stop` can return, with no request to come, if the module had started,
  and otherwise it never does.
-/

namespace Apiserver.Server.Shutdown

open Go Transition

/-! ## Wait groups -/

/-- `SafeWaitGroup` of golib, with states `G`: its operations, what can be told of a group, and
    the laws of the operations. -/
structure SafeWaitGroup (G : Type) where
  new : G
  /-- `Add(1)`, unless it fails. -/
  add : G → Option G
  /-- `Done`, unless it panics. -/
  done : G → Option G
  /-- `Wait` is called. It returns when the counter is zero. -/
  wait : G → G
  /-- How many have been added and are not done. -/
  counter : G → Nat
  /-- `Wait` has been called. -/
  waited : G → Bool
  counter_new : counter new = 0
  waited_new : waited new = false
  /-- Nothing can be added once the group is waited for. -/
  add_of_waited : ∀ wg, waited wg = true → add wg = none
  add_of_not_waited : ∀ wg, waited wg = false →
    ∃ wg', add wg = some wg' ∧ counter wg' = counter wg + 1 ∧ waited wg' = false
  done_of_pos : ∀ wg, 0 < counter wg →
    ∃ wg', done wg = some wg' ∧ counter wg' = counter wg - 1 ∧ waited wg' = waited wg
  counter_wait : ∀ wg, counter (wait wg) = counter wg
  waited_wait : ∀ wg, waited (wait wg) = true

variable {G : Type}

/-! ## Requests -/

/-- `BasicLongRunningRequestCheck`. -/
def basicLongRunningRequestCheck (longRunningVerbs longRunningSubresources : List String)
    (requestInfo : RequestInfo) : Bool :=
  longRunningVerbs.contains requestInfo.verb ||
  (requestInfo.isResourceRequest && longRunningSubresources.contains requestInfo.subresource) ||
  (!requestInfo.isResourceRequest && hasPrefix requestInfo.path "/debug/pprof/")

/-- The `LongRunningFunc` of the module. -/
def longRunningFunc : RequestInfo → Bool :=
  basicLongRunningRequestCheck ["watch", "proxy"]
    ["attache", "exec", "proxyp", "log", "rotforward"]

/-- The responses `WithWaitGroup` writes itself. -/
inductive Reply
  | internalError (err : Error)
  /-- A `ServiceUnavailable` status, after these headers have been set. -/
  | serviceUnavailable (header : List (String × String)) (message : String)
  deriving DecidableEq

def shuttingDown : Reply :=
  .serviceUnavailable
    [("Retry-After", "1"), ("Content-Type", "application/json"),
      ("X-Content-Type-Options", "nosniff")]
    "apiserver is shutting down"

/-- Where a request is in `WithWaitGroup`. -/
inductive Progress
  | received
  /-- In the inner handler. -/
  | handling
  | finished
  | answered (r : Reply)
  deriving DecidableEq

/-- A request, with the info in its context. -/
structure Request where
  requestInfo : Option RequestInfo
  progress : Progress := .received
  deriving DecidableEq

section WithWaitGroup

variable (W : SafeWaitGroup G) (longRunning : RequestInfo → Bool)

/-- `WithWaitGroup`, up to the inner handler. -/
def withWaitGroup (wg : G) : Option RequestInfo → Progress × G
  | none => (.answered (.internalError "no RequestInfo found in the context"), wg)
  | some requestInfo =>
    if longRunning requestInfo then (.handling, wg)
    else match W.add wg with
      | none => (.answered shuttingDown, wg)
      | some wg => (.handling, wg)

/-- A request that is in the wait group while it is handled. -/
def Request.short (r : Request) : Bool := r.requestInfo.any (!longRunning ·)

/-- A request that is in the wait group. -/
def Request.counted (r : Request) : Bool := decide (r.progress = .handling) && r.short longRunning

end WithWaitGroup

/-! ## The module -/

/-- Where the goroutines of a server are. -/
inductive Serving
  | serving
  /-- In `Shutdown`. -/
  | shuttingDown
  /-- Its `stoppedCh` is closed, -/
  | stopped
  /-- and it is out of the wait group. -/
  | released
  deriving DecidableEq

/-- Where the goroutine is that waits for the wait group. -/
inductive Waiter
  | listening
  | waiting
  /-- It has closed `done`. -/
  | closed
  deriving DecidableEq

/-- Where `stop` is. -/
inductive Stop
  | idle
  | called
  | returned
  deriving DecidableEq

/-- The state of the module. -/
structure State (G : Type) where
  /-- `Start` got to its end. -/
  started : Bool := false
  stopCh : Bool := false
  delayedStopCh : Bool := false
  handlerChainWaitGroup : G
  servers : List Serving := []
  requests : List Request := []
  waiter : Waiter := .listening
  stop : Stop := .idle
  /-- `Done` has panicked. -/
  panicked : Bool := false

section Module

variable (W : SafeWaitGroup G)

/-- Starting a server, if there is one, with what its `Serve` returns. -/
def State.serve (s : State G) : Option (Option Error) → State G × Option Error
  | none => (s, none)
  | some (some err) => (s, some err)
  | some none =>
    ({ s with
      servers := s.servers ++ [.serving]
      -- The error of `Add` is ignored.
      handlerChainWaitGroup := (W.add s.handlerChainWaitGroup).getD s.handlerChainWaitGroup }, none)

/-- `Start`, with the error of installing the documentation of the API. -/
def start (openAPI : Option Error) (secureServing insecureServing : Option (Option Error)) :
    State G × Option Error :=
  let s : State G := { handlerChainWaitGroup := W.new }
  match openAPI with
  | some err => (s, some err)
  | none =>
    match s.serve W secureServing with
    | (s, some err) => (s, some err)
    | (s, none) =>
      match s.serve W insecureServing with
      | (s, some err) => (s, some err)
      | (s, none) => ({ s with started := true }, none)

/-- Leaving the wait group. -/
def State.done (s : State G) : State G :=
  match W.done s.handlerChainWaitGroup with
  | some wg => { s with handlerChainWaitGroup := wg }
  | none => { s with panicked := true }

/-- A request takes another step. -/
def State.move (s : State G) (k : Nat) (r : Request) (progress : Progress) : State G :=
  { s with requests := s.requests.set k { r with progress } }

/-- A server takes another step. -/
def State.turn (s : State G) (i : Nat) (v : Serving) : State G :=
  { s with servers := s.servers.set i v }

/-- The end of a handler, by a panic or not. -/
def State.finish (longRunning : RequestInfo → Bool) (s : State G) (k : Nat) (r : Request) :
    State G :=
  if r.short longRunning then (s.move k r .finished).done W else s.move k r .finished

/-- The request gets to the filter. -/
def State.enter (longRunning : RequestInfo → Bool) (s : State G) (k : Nat) (r : Request) :
    State G :=
  let w := withWaitGroup W longRunning s.handlerChainWaitGroup r.requestInfo
  { s.move k r w.1 with handlerChainWaitGroup := w.2 }

inductive Step (longRunning : RequestInfo → Bool) : State G → State G → Prop
  | receive (s : State G) (requestInfo : Option RequestInfo) :
    Step longRunning s { s with requests := s.requests ++ [{ requestInfo }] }
  | enter {s : State G} {k : Nat} {r : Request} (hr : s.requests[k]? = some r)
      (hreceived : r.progress = .received) : Step longRunning s (s.enter W longRunning k r)
  | finish {s : State G} {k : Nat} {r : Request} (hr : s.requests[k]? = some r)
      (hhandling : r.progress = .handling) : Step longRunning s (s.finish W longRunning k r)
  /-- The context of the process is cancelled. -/
  | cancel (s : State G) : Step longRunning s { s with stopCh := true }
  | stop {s : State G} (hstop : s.stop = .idle) :
    Step longRunning s { s with stopCh := true, stop := .called }
  /-- The goroutine that sleeps for the delay. -/
  | delay {s : State G} (hstarted : s.started = true) (hstopCh : s.stopCh = true)
      (hdelayed : s.delayedStopCh = false) : Step longRunning s { s with delayedStopCh := true }
  | shutdown {s : State G} {i : Nat} (hi : s.servers[i]? = some .serving)
      (hdelayed : s.delayedStopCh = true) : Step longRunning s (s.turn i .shuttingDown)
  /-- Its connections are idle, or its time is over. -/
  | stopped {s : State G} {i : Nat} (hi : s.servers[i]? = some .shuttingDown) :
    Step longRunning s (s.turn i .stopped)
  | release {s : State G} {i : Nat} (hi : s.servers[i]? = some .stopped) :
    Step longRunning s ((s.turn i .released).done W)
  | wait {s : State G} (hstarted : s.started = true) (hstopCh : s.stopCh = true)
      (hdelayed : s.delayedStopCh = true) (hwaiter : s.waiter = .listening) :
    Step longRunning s { s with
      waiter := .waiting
      handlerChainWaitGroup := W.wait s.handlerChainWaitGroup }
  | close {s : State G} (hwaiter : s.waiter = .waiting)
      (hcounter : W.counter s.handlerChainWaitGroup = 0) :
    Step longRunning s { s with waiter := .closed }
  | return {s : State G} (hstop : s.stop = .called) (hwaiter : s.waiter = .closed) :
    Step longRunning s { s with stop := .returned }

/-- The module, once `Start` has returned, also if it has failed. -/
def system (longRunning : RequestInfo → Bool) : System (State G) where
  init s := ∃ openAPI secureServing insecureServing,
    s = (start W openAPI secureServing insecureServing).1
  step := Step W longRunning

end Module

variable {W : SafeWaitGroup G} {longRunning : RequestInfo → Bool} {s t : State G}

/-! ## What is in the wait group -/

/-- How many servers and requests are in the wait group. -/
def State.pending (longRunning : RequestInfo → Bool) (s : State G) : Nat :=
  s.servers.countP (decide <| · ≠ .released) + s.requests.countP (Request.counted longRunning)

/-- What the state always is. -/
structure Balanced (W : SafeWaitGroup G) (longRunning : RequestInfo → Bool) (s : State G) :
    Prop where
  counter : W.counter s.handlerChainWaitGroup = s.pending longRunning
  panicked : s.panicked = false
  delayed : s.delayedStopCh = true → s.started = true
  serving : ∀ v ∈ s.servers, v = .serving ∨ s.delayedStopCh = true
  waiter : s.waiter = .listening ∨ s.delayedStopCh = true
  waited : W.waited s.handlerChainWaitGroup = decide (s.waiter ≠ .listening)
  closed : s.waiter = .closed → W.counter s.handlerChainWaitGroup = 0
  stop : s.stop = .idle ∨ s.stopCh = true
  returned : s.stop = .returned → s.waiter = .closed
  refused : ∀ r ∈ s.requests, r.progress = .answered shuttingDown →
    W.waited s.handlerChainWaitGroup = true ∧ r.short longRunning = true

/-- Who is in the wait group can leave it. -/
theorem done_of_pos (h : 0 < W.counter s.handlerChainWaitGroup) :
    ∃ wg, s.done W = { s with handlerChainWaitGroup := wg } ∧
      W.counter wg = W.counter s.handlerChainWaitGroup - 1 ∧
      W.waited wg = W.waited s.handlerChainWaitGroup := by
  obtain ⟨wg, hdone, hcounter, hwaited⟩ := W.done_of_pos _ h
  exact ⟨wg, by rw [State.done, hdone], hcounter, hwaited⟩

/-- What the filter does with a request: it goes past the wait group, or into it. -/
theorem withWaitGroup_cases (W : SafeWaitGroup G) (longRunning : RequestInfo → Bool) (wg : G)
    (r : Request) :
    let w := withWaitGroup W longRunning wg r.requestInfo
    (w.2 = wg ∧ ({ r with progress := w.1 } : Request).counted longRunning = false ∧
      (w.1 = .answered shuttingDown → W.waited wg = true ∧ r.short longRunning = true)) ∨
    (W.waited wg = false ∧ W.counter w.2 = W.counter wg + 1 ∧ W.waited w.2 = false ∧
      w.1 = .handling ∧ r.short longRunning = true) := by
  obtain ⟨requestInfo, progress⟩ := r
  cases requestInfo with
  | none => exact .inl (by simp [withWaitGroup, shuttingDown, Request.counted])
  | some info =>
    by_cases hlong : longRunning info = true
    · exact .inl (by simp [withWaitGroup, hlong, Request.counted, Request.short])
    · cases hwaited : W.waited wg with
      | true =>
        have hadd := W.add_of_waited wg hwaited
        exact .inl (by simp [withWaitGroup, hlong, hadd, Request.counted, Request.short])
      | false =>
        obtain ⟨wg', hadd, hcounter, hwaited'⟩ := W.add_of_not_waited wg hwaited
        exact .inr (by simp [withWaitGroup, hlong, hadd, hcounter, hwaited', Request.short])

/-! ## It is always what it should be -/

/-- A request takes a step, and the wait group counts what it did. -/
theorem Balanced.move {k : Nat} {r : Request} {progress : Progress} {wg : G}
    (h : Balanced W longRunning s) (hr : s.requests[k]? = some r)
    (hwaited : W.waited wg = W.waited s.handlerChainWaitGroup)
    (hcounter : W.counter wg + (if r.counted longRunning then 1 else 0) =
      W.counter s.handlerChainWaitGroup +
        (if ({ r with progress } : Request).counted longRunning then 1 else 0))
    (hclosed : s.waiter = .closed → W.counter wg = 0)
    (hrefused : progress = .answered shuttingDown →
      W.waited s.handlerChainWaitGroup = true ∧ r.short longRunning = true) :
    Balanced W longRunning { s.move k r progress with handlerChainWaitGroup := wg } :=
  { h with
    counter := by
      have hcount := countP_set_of_some (a := { r with progress }) (Request.counted longRunning) hr
      have hold := h.counter
      rw [State.pending] at hold
      change W.counter wg = s.servers.countP _ + (s.requests.set k _).countP _
      omega
    waited := hwaited.trans h.waited
    closed := hclosed
    refused := fun r' hr' hanswered => by
      rcases List.mem_or_eq_of_mem_set hr' with hmem | rfl
      · exact hwaited ▸ h.refused r' hmem hanswered
      · exact hwaited ▸ hrefused hanswered }

/-- A request that is let in is counted. -/
theorem Balanced.enter {k : Nat} {r : Request} (h : Balanced W longRunning s)
    (hr : s.requests[k]? = some r) (hreceived : r.progress = .received) :
    Balanced W longRunning (s.enter W longRunning k r) := by
  have hnot : r.counted longRunning = false := by simp [Request.counted, hreceived]
  rcases withWaitGroup_cases W longRunning s.handlerChainWaitGroup r with
    ⟨hwg, hcounted, hrefused⟩ | ⟨hwaited, hcounter, hwaited', hhandling, hshort⟩
  · refine h.move hr (by rw [hwg]) ?_ (fun hclosed => ?_) hrefused
    · rw [hwg, hnot, hcounted]
    · rw [hwg, h.closed hclosed]
  · have hcounted : ({ r with progress := .handling } : Request).counted longRunning = true := by
      rw [Request.counted, decide_eq_true rfl, Bool.true_and]
      exact hshort
    -- Nobody waits yet, or the wait group would not have let the request in.
    have hlistening : s.waiter = .listening := by
      have hw := h.waited
      rw [hwaited] at hw
      simpa using hw
    refine h.move hr (hwaited'.trans hwaited.symm) ?_ (fun hclosed => ?_) (fun hanswered => ?_)
    · rw [hhandling, hcounter, hnot, hcounted]
      simp
    · cases hlistening.symm.trans hclosed
    · cases hhandling.symm.trans hanswered

theorem Balanced.counter_pos_of_request {k : Nat} {r : Request} (h : Balanced W longRunning s)
    (hr : s.requests[k]? = some r) (hcounted : r.counted longRunning = true) :
    0 < W.counter s.handlerChainWaitGroup := by
  have hpos := List.countP_pos_iff.2 ⟨r, List.mem_of_getElem? hr, hcounted⟩
  rw [h.counter, State.pending]
  omega

/-- A request that is finished is counted no more. -/
theorem Balanced.finish {k : Nat} {r : Request} (h : Balanced W longRunning s)
    (hr : s.requests[k]? = some r) (hhandling : r.progress = .handling) :
    Balanced W longRunning (s.finish W longRunning k r) := by
  have hcounted : r.counted longRunning = r.short longRunning := by
    simp [Request.counted, hhandling]
  have hfinished : ({ r with progress := .finished } : Request).counted longRunning = false := by
    simp [Request.counted]
  cases hshort : r.short longRunning with
  | true =>
    have hpos := h.counter_pos_of_request hr (hcounted.trans hshort)
    obtain ⟨wg, hdone, hcounter, hwaited⟩ := done_of_pos (s := s.move k r .finished) hpos
    rw [State.finish, if_pos hshort, hdone]
    refine h.move hr hwaited ?_ (fun hclosed => ?_) (fun hanswered => by cases hanswered)
    · rw [hcounted, hshort, hfinished, hcounter]
      simp only [State.move, if_true, Bool.false_eq_true, if_false]
      omega
    · exact absurd (h.closed hclosed) (by omega)
  | false =>
    rw [State.finish, hshort]
    refine h.move hr rfl ?_ h.closed (fun hanswered => by cases hanswered)
    rw [hcounted, hshort, hfinished]

/-- A server takes a step after the delay, and the wait group counts what it did. -/
theorem Balanced.turn {i : Nat} {v v' : Serving} {wg : G}
    (h : Balanced W longRunning s) (hi : s.servers[i]? = some v) (hdelayed : s.delayedStopCh = true)
    (hwaited : W.waited wg = W.waited s.handlerChainWaitGroup)
    (hcounter : W.counter wg + (if v ≠ .released then 1 else 0) =
      W.counter s.handlerChainWaitGroup + (if v' ≠ .released then 1 else 0))
    (hclosed : s.waiter = .closed → W.counter wg = 0) :
    Balanced W longRunning { s.turn i v' with handlerChainWaitGroup := wg } :=
  { h with
    counter := by
      have hcount := countP_set_of_some (a := v') (decide <| · ≠ Serving.released) hi
      have hold := h.counter
      rw [State.pending] at hold
      change W.counter wg = (s.servers.set i v').countP _ + s.requests.countP _
      simp only [decide_eq_true_eq] at hcount
      omega
    serving := fun _ _ => .inr hdelayed
    waited := hwaited.trans h.waited
    closed := hclosed
    refused := fun r hr hanswered => hwaited ▸ h.refused r hr hanswered }

/-- A server that is not serving any more is so after the delay. -/
theorem Balanced.delayed_of_not_serving {i : Nat} {v : Serving} (h : Balanced W longRunning s)
    (hi : s.servers[i]? = some v) (hv : v ≠ .serving) : s.delayedStopCh = true :=
  (h.serving v (List.mem_of_getElem? hi)).resolve_left hv

/-- A server that stopped gives its count back. -/
theorem Balanced.release {i : Nat} (h : Balanced W longRunning s)
    (hi : s.servers[i]? = some .stopped) :
    Balanced W longRunning ((s.turn i .released).done W) := by
  have hpos : 0 < W.counter s.handlerChainWaitGroup := by
    have hpos : 0 < s.servers.countP (decide <| · ≠ .released) :=
      List.countP_pos_iff.2 ⟨.stopped, List.mem_of_getElem? hi, rfl⟩
    rw [h.counter, State.pending]
    omega
  obtain ⟨wg, hdone, hcounter, hwaited⟩ := done_of_pos (s := s.turn i .released) hpos
  rw [hdone]
  refine h.turn hi (h.delayed_of_not_serving hi (by decide)) hwaited ?_ (fun hclosed => ?_)
  · rw [hcounter]
    simp only [State.turn]
    simp
    omega
  · exact absurd (h.closed hclosed) (by omega)

/-- `Start` does not begin to wait. -/
theorem waiter_serve (s : State G) (result : Option (Option Error)) :
    (s.serve W result).1.waiter = s.waiter := by
  rcases result with _ | _ | err <;> rfl

/-- A server that starts is counted. -/
theorem Balanced.serve (h : Balanced W longRunning s) (hwaiter : s.waiter = .listening)
    (result : Option (Option Error)) : Balanced W longRunning (s.serve W result).1 := by
  rcases result with _ | _ | err
  · exact h
  · have hlistening : W.waited s.handlerChainWaitGroup = false := by
      rw [h.waited, hwaiter]
      rfl
    obtain ⟨wg, hadd, hcounter, hwaited⟩ := W.add_of_not_waited _ hlistening
    rw [State.serve, hadd]
    exact { h with
      counter := by
        rw [State.pending, List.countP_append, Option.getD_some, hcounter, h.counter,
          State.pending]
        simp
        omega
      waited := by rw [← h.waited, hlistening]; exact hwaited
      refused := fun r hr hanswered => by
        have hrefused := h.refused r hr hanswered
        rw [hlistening] at hrefused
        cases hrefused.1
      serving := fun v hv => by
        rcases List.mem_append.1 hv with hv | hv
        · exact h.serving v hv
        · exact .inl (List.mem_singleton.1 hv)
      closed := fun hclosed => by cases hwaiter.symm.trans hclosed }
  · exact h

theorem balanced_new : Balanced W longRunning { handlerChainWaitGroup := W.new } where
  counter := W.counter_new
  panicked := rfl
  delayed := by simp
  serving := by simp
  waiter := .inl rfl
  waited := W.waited_new
  closed := by simp
  stop := .inl rfl
  returned := by simp
  refused := by simp

/-- `Start` leaves the counter balanced. -/
theorem balanced_start (openAPI : Option Error)
    (secureServing insecureServing : Option (Option Error)) :
    Balanced W longRunning (start W openAPI secureServing insecureServing).1 := by
  have hsecure : Balanced W longRunning
      (State.serve W { handlerChainWaitGroup := W.new } secureServing).1 :=
    balanced_new.serve rfl secureServing
  have hinsecure := hsecure.serve (waiter_serve _ _) insecureServing
  unfold start
  cases openAPI with
  | some err => exact balanced_new
  | none =>
    dsimp only
    split
    · rename_i s err heq
      rw [heq] at hsecure
      exact hsecure
    · rename_i s heq
      rw [heq] at hinsecure
      split
      · rename_i s' err heq'
        rw [heq'] at hinsecure
        exact hinsecure
      · rename_i s' heq'
        rw [heq'] at hinsecure
        exact { hinsecure with delayed := fun _ => rfl }

/-- In every interleaving, the counter is what it stands for. -/
theorem balanced_invariant : (system W longRunning).Invariant (Balanced W longRunning) where
  init s hs := by
    obtain ⟨openAPI, secureServing, insecureServing, rfl⟩ := hs
    exact balanced_start openAPI secureServing insecureServing
  step s t h hstep := by
    cases hstep with
    | receive requestInfo =>
      exact { h with
        counter := by
          rw [h.counter, State.pending, State.pending, List.countP_append]
          simp [Request.counted]
        refused := fun r hr hanswered => by
          rcases List.mem_append.1 hr with hr | hr
          · exact h.refused r hr hanswered
          · cases List.mem_singleton.1 hr
            cases hanswered }
    | enter hr hreceived => exact h.enter hr hreceived
    | finish hr hhandling => exact h.finish hr hhandling
    | cancel => exact { h with stop := .inr rfl }
    | stop => exact { h with stop := .inr rfl, returned := fun hreturned => by cases hreturned }
    | delay hstarted =>
      exact { h with
        delayed := fun _ => hstarted
        serving := fun _ _ => .inr rfl
        waiter := .inr rfl }
    -- A server that shuts down has been told to, after the delay.
    | shutdown hi hdelayed => exact h.turn hi hdelayed rfl (by simp) h.closed
    | stopped hi =>
      exact h.turn hi (h.delayed_of_not_serving hi (by decide)) rfl (by simp) h.closed
    | release hi => exact h.release hi
    -- From here on no request is counted any more.
    | wait hstarted hstopCh hdelayed hwaiter =>
      exact { h with
        waiter := .inr hdelayed
        counter := (W.counter_wait _).trans h.counter
        waited := W.waited_wait _
        closed := fun hclosed => by cases hclosed
        returned := fun hreturned => by cases hwaiter.symm.trans (h.returned hreturned)
        refused := fun r hr hanswered => ⟨W.waited_wait _, (h.refused r hr hanswered).2⟩ }
    | close hwaiter hcounter =>
      exact { h with
        waiter := .inr (h.waiter.resolve_left (by simp [hwaiter]))
        waited := by rw [h.waited, hwaiter]; rfl
        closed := fun _ => hcounter
        returned := fun _ => rfl }
    | «return» hstop hwaiter =>
      exact { h with
        stop := .inr (h.stop.resolve_left (by simp [hstop]))
        returned := fun _ => hwaiter }

/-- A wait group that is a counter. -/
structure Group where
  counter : Nat := 0
  waited : Bool := false

def groups : SafeWaitGroup Group where
  new := {}
  add wg := if wg.waited then none else some { wg with counter := wg.counter + 1 }
  done wg := if wg.counter = 0 then none else some { wg with counter := wg.counter - 1 }
  wait wg := { wg with waited := true }
  counter := Group.counter
  waited := Group.waited
  counter_new := rfl
  waited_new := rfl
  add_of_waited wg h := if_pos h
  add_of_not_waited wg h := ⟨_, if_neg (by simp [h]), rfl, h⟩
  done_of_pos wg h := ⟨_, if_neg (Nat.pos_iff_ne_zero.1 h), rfl, rfl⟩
  counter_wait _ := rfl
  waited_wait _ := rfl

/-- A server that handles a request, -/
def busy : State Group where
  started := true
  handlerChainWaitGroup := { counter := 2 }
  servers := [.serving]
  requests := [{ requestInfo := some { verb := "get" }, progress := .handling }]

theorem reachable_busy : (system groups longRunningFunc).Reachable busy := by
  have hstart : (system groups longRunningFunc).Reachable (start groups none (some none) none).1 :=
    .of_init ⟨none, some none, none, rfl⟩
  have hreceive := hstart.step (Step.receive _ (some { verb := "get" }))
  exact hreceive.step (Step.enter (k := 0) (r := { requestInfo := some { verb := "get" } }) rfl rfl)

/-- one that is told to stop then, -/
def stopping : State Group := { busy with stopCh := true, stop := .called }

theorem reachable_stopping : (system groups longRunningFunc).Reachable stopping :=
  reachable_busy.step (Step.stop rfl)

/-- and what becomes of it. -/
def drained : State Group where
  started := true
  stopCh := true
  delayedStopCh := true
  handlerChainWaitGroup := { waited := true }
  servers := [.released]
  requests := [{ requestInfo := some { verb := "get" }, progress := .finished }]
  waiter := .closed
  stop := .returned

theorem reachable_drained : (system groups longRunningFunc).Reachable drained := by
  have hdelay := reachable_stopping.step (Step.delay rfl rfl rfl)
  have hwait := hdelay.step (Step.wait rfl rfl rfl rfl)
  have hfinish := hwait.step (Step.finish (k := 0) rfl rfl)
  have hshutdown := hfinish.step (Step.shutdown (i := 0) rfl rfl)
  have hstopped := hshutdown.step (Step.stopped (i := 0) rfl)
  have hrelease := hstopped.step (Step.release (i := 0) rfl)
  have hclose := hrelease.step (Step.close rfl rfl)
  exact hclose.step (Step.return rfl rfl)

/-! ## Once `stop` has returned -/

@[simp] theorem started_done (s : State G) : (s.done W).started = s.started := by
  unfold State.done
  split <;> rfl

@[simp] theorem waiter_done (s : State G) : (s.done W).waiter = s.waiter := by
  unfold State.done
  split <;> rfl

/-- What a step leaves as it is. -/
theorem Step.frame (h : Step W longRunning s t) :
    t.started = s.started ∧ (s.waiter = .closed → t.waiter = .closed) := by
  cases h with
  | receive | enter | cancel | stop | delay | shutdown | stopped | «return» => exact ⟨rfl, id⟩
  | finish =>
    unfold State.finish
    split_ifs
    · exact ⟨started_done _, fun hclosed => (waiter_done _).trans hclosed⟩
    · exact ⟨rfl, id⟩
  | release => exact ⟨started_done _, fun hclosed => (waiter_done _).trans hclosed⟩
  | wait _ _ _ hwaiter => exact ⟨rfl, fun hclosed => by cases hwaiter.symm.trans hclosed⟩
  | close => exact ⟨rfl, fun _ => rfl⟩

theorem frame_of_run (hrun : (system W longRunning).Run s t) :
    t.started = s.started ∧ (s.waiter = .closed → t.waiter = .closed) := by
  induction hrun with
  | refl => exact ⟨rfl, id⟩
  | tail _ hstep ih =>
    obtain ⟨hstarted, hclosed⟩ := Step.frame hstep
    exact ⟨hstarted.trans ih.1, fun h => hclosed (ih.2 h)⟩

/-- Nothing is in the wait group any more when `done` is closed. -/
theorem Balanced.quiet (h : Balanced W longRunning s) (hclosed : s.waiter = .closed) :
    (∀ r ∈ s.requests, r.progress = .handling →
      ∀ info, r.requestInfo = some info → longRunning info = true) ∧
    ∀ v ∈ s.servers, v = .released := by
  have hzero := h.counter.symm.trans (h.closed hclosed)
  obtain ⟨hservers, hrequests⟩ := Nat.add_eq_zero_iff.1 hzero
  constructor
  · intro r hr hhandling info hinfo
    have hcounted := List.countP_eq_zero.1 hrequests r hr
    simpa [Request.counted, Request.short, hhandling, hinfo] using hcounted
  · intro v hv
    simpa using List.countP_eq_zero.1 hservers v hv

/-- Once `stop` has returned, the servers are closed, and a request that is handled, then or
    later, is a long-running one. The wait group has not panicked. -/
theorem stop_quiet (hs : (system W longRunning).Reachable s) (hreturned : s.stop = .returned)
    (hrun : (system W longRunning).Run s t) :
    (∀ r ∈ t.requests, r.progress = .handling →
      ∀ info, r.requestInfo = some info → longRunning info = true) ∧
    (∀ v ∈ t.servers, v = .released) ∧ t.panicked = false := by
  have hclosed := (balanced_invariant.reachable hs).returned hreturned
  have ht := balanced_invariant.reachable (hs.run hrun)
  obtain ⟨hrequests, hservers⟩ := ht.quiet ((frame_of_run hrun).2 hclosed)
  exact ⟨hrequests, hservers, ht.panicked⟩

theorem stop_quiet_drained :
    drained.stop = .returned ∧ (∀ v ∈ drained.servers, v = .released) ∧
      drained.panicked = false :=
  ⟨rfl, (stop_quiet reachable_drained rfl .refl).2⟩

/-- Before the delay is over, every server serves, no request is refused, and `stop` has not
    returned. -/
theorem served_until_delayed (hs : (system W longRunning).Reachable s)
    (hdelayed : s.delayedStopCh = false) :
    (∀ r ∈ s.requests, r.progress ≠ .answered shuttingDown) ∧
    (∀ v ∈ s.servers, v = .serving) ∧ s.stop ≠ .returned := by
  have h := balanced_invariant.reachable hs
  have hlistening : s.waiter = .listening := h.waiter.resolve_right (by simp [hdelayed])
  refine ⟨fun r hr hanswered => ?_, fun v hv => ?_, fun hreturned => ?_⟩
  · have hwaited := (h.refused r hr hanswered).1
    rw [h.waited, hlistening] at hwaited
    cases hwaited
  · exact (h.serving v hv).resolve_right (by simp [hdelayed])
  · cases hlistening.symm.trans (h.returned hreturned)

theorem served_until_delayed_stopping :
    stopping.stopCh = true ∧ (∀ v ∈ stopping.servers, v = .serving) ∧
      stopping.stop ≠ .returned :=
  ⟨rfl, (served_until_delayed reachable_stopping rfl).2⟩

/-! ## `stop` returns -/

/-- The requests after some of those that were handled have finished. -/
def Finishes (l l' : List Request) : Prop :=
  ∀ (k : Nat) (r' : Request), l'[k]? = some r' → ∃ r : Request, l[k]? = some r ∧
    (r' = r ∨ (r.progress = .handling ∧ r' = { r with progress := .finished }))

theorem finishes_refl (l : List Request) : Finishes l l := fun _ r' h => ⟨r', h, .inl rfl⟩

theorem Finishes.set {l l' : List Request} {k : Nat} {r : Request} (h : Finishes l l')
    (hr : l'[k]? = some r) (hhandling : r.progress = .handling) :
    Finishes l (l'.set k { r with progress := .finished }) := by
  intro j r' hr'
  rcases eq_or_of_getElem?_set hr' with ⟨rfl, rfl⟩ | ⟨-, hold⟩
  · obtain ⟨r₀, hr₀, rfl | ⟨-, rfl⟩⟩ := h j r hr
    · exact ⟨r, hr₀, .inr ⟨hhandling, rfl⟩⟩
    · cases hhandling
  · exact h j r' hold

/-- What the servers and the requests in the wait group have to do. -/
def State.work (longRunning : RequestInfo → Bool) (s : State G) : Nat :=
  s.pending longRunning + s.servers.countP (decide <| · = .serving) +
  s.servers.countP (fun v => decide (v = .serving) || decide (v = .shuttingDown))

/-- What is to be done before `stop` returns. -/
def State.left (longRunning : RequestInfo → Bool) (s : State G) : Nat :=
  s.work longRunning + ((if s.delayedStopCh then 0 else 1) +
    (if s.waiter = .listening then 2 else if s.waiter = .waiting then 1 else 0) +
    if s.stop = .returned then 0 else 1)

@[simp] theorem left_done (s : State G) : (s.done W).left longRunning = s.left longRunning := by
  unfold State.done
  split <;> rfl

@[simp] theorem stop_done (s : State G) : (s.done W).stop = s.stop := by
  unfold State.done
  split <;> rfl

@[simp] theorem requests_done (s : State G) : (s.done W).requests = s.requests := by
  unfold State.done
  split <;> rfl

/-- A server that goes on leaves less to wait for, -/
theorem left_turn {i : Nat} {v v' : Serving} (hi : s.servers[i]? = some v)
    (hv : (v = .serving ∧ v' = .shuttingDown) ∨ (v = .shuttingDown ∧ v' = .stopped) ∨
      (v = .stopped ∧ v' = .released)) :
    (s.turn i v').left longRunning < s.left longRunning := by
  refine Nat.add_lt_add_right ?_ _
  have hreleased := countP_set_of_some (a := v') (decide <| · ≠ Serving.released) hi
  have hserving := countP_set_of_some (a := v') (decide <| · = Serving.serving) hi
  have hclosing := countP_set_of_some (a := v')
    (fun v => decide (v = Serving.serving) || decide (v = .shuttingDown)) hi
  simp only [State.work, State.pending, State.turn]
  rcases hv with ⟨rfl, rfl⟩ | ⟨rfl, rfl⟩ | ⟨rfl, rfl⟩ <;>
    simp at hreleased hserving hclosing ⊢ <;> omega

/-- and so does a request that is finished. -/
theorem left_move {k : Nat} {r : Request} (hr : s.requests[k]? = some r)
    (hcounted : r.counted longRunning = true) :
    (s.move k r .finished).left longRunning < s.left longRunning := by
  refine Nat.add_lt_add_right ?_ _
  have hcount := countP_set_of_some (a := { r with progress := .finished })
    (Request.counted longRunning) hr
  have hfinished : ({ r with progress := .finished } : Request).counted longRunning = false := by
    simp [Request.counted]
  rw [hcounted, hfinished] at hcount
  simp only [State.work, State.pending, State.move]
  simp at hcount
  omega

/-- What is in the wait group can get on. -/
theorem Balanced.exists_step_of_pos {l : List Request} (h : Balanced W longRunning s)
    (hdelayed : s.delayedStopCh = true) (hstop : s.stop ≠ .idle) (hl : Finishes l s.requests)
    (hpos : 0 < W.counter s.handlerChainWaitGroup) :
    ∃ t, Step W longRunning s t ∧ t.stop ≠ .idle ∧ Finishes l t.requests ∧
      t.left longRunning < s.left longRunning := by
  rw [h.counter, State.pending] at hpos
  -- Somebody is in the wait group, a server or a request that is handled.
  rcases Nat.add_pos_iff_pos_or_pos.1 hpos with hservers | hrequests
  · obtain ⟨v, hv, hne⟩ := List.countP_pos_iff.1 hservers
    obtain ⟨i, hi⟩ := List.mem_iff_getElem?.1 hv
    cases v with
    | serving => exact ⟨_, .shutdown hi hdelayed, hstop, hl, left_turn hi (.inl ⟨rfl, rfl⟩)⟩
    | shuttingDown => exact ⟨_, .stopped hi, hstop, hl, left_turn hi (.inr (.inl ⟨rfl, rfl⟩))⟩
    | stopped =>
      refine ⟨_, .release hi, ?_, ?_, ?_⟩
      · rwa [stop_done]
      · rwa [requests_done]
      · rw [left_done]
        exact left_turn hi (.inr (.inr ⟨rfl, rfl⟩))
    | released => cases hne
  · obtain ⟨r, hr, hcounted⟩ := List.countP_pos_iff.1 hrequests
    obtain ⟨k, hk⟩ := List.mem_iff_getElem?.1 hr
    obtain ⟨hhandling, hshort⟩ := Bool.and_eq_true_iff.1 hcounted
    have hhandling : r.progress = .handling := of_decide_eq_true hhandling
    refine ⟨_, .finish hk hhandling, ?_, ?_, ?_⟩ <;> rw [State.finish, if_pos hshort]
    · rwa [stop_done]
    · rw [requests_done]
      exact hl.set hk hhandling
    · rw [left_done]
      exact left_move hk hcounted

/-- As long as `stop` has not returned, something can be done for it. -/
theorem Balanced.exists_step {l : List Request} (h : Balanced W longRunning s)
    (hstarted : s.started = true) (hstop : s.stop ≠ .idle) (hreturned : s.stop ≠ .returned)
    (hl : Finishes l s.requests) :
    ∃ t, Step W longRunning s t ∧ t.stop ≠ .idle ∧ Finishes l t.requests ∧
      t.left longRunning < s.left longRunning := by
  have hstopCh : s.stopCh = true := h.stop.resolve_left hstop
  cases hdelayed : s.delayedStopCh with
  | false =>
    refine ⟨_, .delay hstarted hstopCh hdelayed, hstop, hl, Nat.add_lt_add_left ?_ _⟩
    simp [hdelayed]
  | true =>
    cases hwaiter : s.waiter with
    | listening =>
      refine ⟨_, .wait hstarted hstopCh hdelayed hwaiter, hstop, hl, Nat.add_lt_add_left ?_ _⟩
      simp [hwaiter]
    | waiting =>
      rcases Nat.eq_zero_or_pos (W.counter s.handlerChainWaitGroup) with hzero | hpos
      · refine ⟨_, .close hwaiter hzero, hstop, hl, Nat.add_lt_add_left ?_ _⟩
        simp [hwaiter]
      · exact h.exists_step_of_pos hdelayed hstop hl hpos
    | closed =>
      have hcalled : s.stop = .called := by
        cases hs : s.stop with
        | idle => exact absurd hs hstop
        | called => rfl
        | returned => exact absurd hs hreturned
      refine ⟨_, .return hcalled hwaiter, by simp, hl, Nat.add_lt_add_left ?_ _⟩
      simp [hcalled]

/-- If `Start` got to its end, `stop` can return, with no request to come, and with no more
    for the requests to do than that some handlers finish. Otherwise it never returns. -/
theorem stop_returns_if_started (hs : (system W longRunning).Reachable s)
    (hstop : s.stop = .called) :
    (s.started = true →
      ∃ t, (system W longRunning).Run s t ∧ t.stop = .returned ∧ Finishes s.requests t.requests) ∧
    (s.started = false → ∀ t, (system W longRunning).Run s t → t.stop ≠ .returned) := by
  constructor
  · intro hstarted
    let I (t : State G) : Prop := Balanced W longRunning t ∧ t.started = true ∧ t.stop ≠ .idle ∧
      Finishes s.requests t.requests
    have hstep (t : State G) (ht : I t) (hnot : t.stop ≠ .returned) :
        ∃ u, Step W longRunning t u ∧ I u ∧ u.left longRunning < t.left longRunning := by
      obtain ⟨hbalanced, hstarted, hidle, hl⟩ := ht
      obtain ⟨u, hstep, hidle', hl', hlt⟩ := hbalanced.exists_step hstarted hidle hnot hl
      exact ⟨u, hstep, ⟨balanced_invariant.step _ _ hbalanced hstep,
        (Step.frame hstep).1.trans hstarted, hidle', hl'⟩, hlt⟩
    have hI : I s :=
      ⟨balanced_invariant.reachable hs, hstarted, by simp [hstop], finishes_refl _⟩
    obtain ⟨t, hrun, ⟨-, -, -, hfinishes⟩, hreturned⟩ :=
      System.exists_run_of_measure (S := system W longRunning) (State.left longRunning) hstep hI
    exact ⟨t, hrun, hreturned, hfinishes⟩
  · intro hstarted t hrun hreturned
    have ht := balanced_invariant.reachable (hs.run hrun)
    have hdelayed := ht.waiter.resolve_left (by simp [ht.returned hreturned])
    have hstarted' := ht.delayed hdelayed
    rw [(frame_of_run hrun).1, hstarted] at hstarted'
    cases hstarted'

theorem stop_returns_if_started_stopping :
    stopping.stop = .called ∧ ∃ t, (system groups longRunningFunc).Run stopping t ∧
      t.stop = .returned ∧ Finishes stopping.requests t.requests :=
  ⟨rfl, (stop_returns_if_started reachable_stopping rfl).1 rfl⟩

end Apiserver.Server.Shutdown
