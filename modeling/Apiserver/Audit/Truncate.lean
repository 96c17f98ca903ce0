import Apiserver.Audit.Event
import Mathlib.Algebra.Group.Int.Defs
import Mathlib.Algebra.Ring.Nat

/-!
# The truncating audit backend

The backend (`plugin/audit/truncate/truncate.go`) keeps the events and batches it
passes on below a size. An event that is too large loses the objects of the
request and of the response; if that does not help, or if the size of an event
cannot be told, the event is reported as impacted. The others are passed on to
the backend behind, its delegate, in batches: an event that would make a batch
too large goes to the next one.

Sizes are of type `int64`, and so is the sum the loop keeps. The events of a call
are taken to have maps of annotations of their own: the copy that loses its
objects shares its map with the event it is a copy of.

* `truncated_truncate`: what becomes of an event that is too large. An annotation
  that is there already is not overwritten;
* `handled_measure`: what may become of an event (`Handled`);
* `Account.step`: the events go on in order, each in one batch or among the
  impacted ones; `Bounded.step`: a batch is not too large, as long as the sum does
  not overflow. Both are kept by one round of the loop, hence by all of them;
* `processEvents_report`: what holds of a call.
-/

namespace Apiserver.Audit

def annotationKey : String := "audit.k8s.io/truncated"
def annotationValue : String := "true"

/-- `Config`. -/
structure Config where
  maxEventSize : ℤ
  maxBatchSize : ℤ

/-- An event may have a size, and fits into a batch. -/
structure Config.Valid (c : Config) : Prop where
  pos : 0 < c.maxEventSize
  le : c.maxEventSize ≤ c.maxBatchSize

/-- `Validate` of the options, for a plugin. -/
def Config.validate (pluginName : String) (c : Config) : Option Error :=
  if c.maxEventSize ≤ 0 then
    some ("invalid audit truncate " ++ pluginName ++ " max event size " ++
      toString c.maxEventSize ++ ", must be a positive number")
  else if c.maxBatchSize < c.maxEventSize then
    some ("invalid audit truncate " ++ pluginName ++ " max batch size " ++
      toString c.maxBatchSize ++ ", must be greater than max event size (" ++
      toString c.maxEventSize ++ ")")
  else none

theorem Config.validate_eq_none_iff (pluginName : String) (c : Config) :
    c.validate pluginName = none ↔ c.Valid := by
  rw [validate]
  split_ifs with hpos hle
  · exact iff_of_false nofun fun h => absurd h.pos (not_lt.2 hpos)
  · exact iff_of_false nofun fun h => absurd h.le (not_le.2 hle)
  · exact iff_of_true rfl ⟨not_le.1 hpos, not_lt.1 hle⟩

/-- `GreaterOrEqual` of levels. -/
def Level.greaterOrEqual (l l' : Level) : Bool := ordLevel l ≥ ordLevel l'

/-- `truncate`. -/
def truncate (ev : Event) : Event :=
  ({ ev with requestObject := none, responseObject := none } : Event).logAnnotationEntry
    annotationKey annotationValue

/-- A sum of type `int64`. -/
def addInt64 (m n : ℤ) : ℤ := (m + n).bmod (2 ^ 64)

/-- `backend`: the configuration, the size of an event as it is encoded, and
    `ProcessEvents` of the delegate. -/
structure Truncating (σ : Type) where
  config : Config
  calcSize : Event → Except Error ℕ
  delegate : List Event → σ → Bool × σ

namespace Truncating

variable {σ : Type}

/-- The variables of `ProcessEvents`, the calls of the delegate with what they
    returned, and the state of the delegate. -/
structure Loop (σ : Type) where
  errors : List Error := []
  impacted : List Event := []
  batch : List Event := []
  batchSize : ℤ := 0
  success : Bool := true
  calls : List (List Event × Bool) := []
  state : σ

/-- What comes of `ProcessEvents`. -/
structure Result (σ : Type) where
  success : Bool
  calls : List (List Event × Bool)
  /-- The call of `HandlePluginError`, if there is one. -/
  pluginError : Option (Option Error × List Event)
  state : σ

/-- An event is reported. -/
def Loop.report (r : Loop σ) (err : Error) (ev : Event) : Loop σ :=
  { r with errors := r.errors ++ [err], impacted := r.impacted ++ [ev] }

/-- An event is added to the batch. -/
def Loop.push (r : Loop σ) (ev : Event) (size : ℕ) : Loop σ :=
  { r with batch := r.batch ++ [ev], batchSize := addInt64 r.batchSize size }

variable (b : Truncating σ)

/-- The batch is passed to the delegate. -/
def deliver (r : Loop σ) : Loop σ :=
  let (ok, s) := b.delegate r.batch r.state
  { r with
    success := ok && r.success
    calls := r.calls ++ [(r.batch, ok)]
    batch := []
    batchSize := 0
    state := s }

/-- The event to pass on, and its size: truncated, and then measured again, if it
    is too large and there is something to strip away. -/
def measure (ev : Event) : Event × Except Error ℕ :=
  match b.calcSize ev with
  | .ok size =>
    if size > b.config.maxEventSize && ev.level.greaterOrEqual .request then
      (truncate ev, b.calcSize (truncate ev))
    else (ev, .ok size)
  | .error err => (ev, .error err)

def tooLarge : Error := "event is too large even after truncating"

/-- Room is made for an event: the batch is passed on if the event does not fit. -/
def makeRoom (size : ℕ) (r : Loop σ) : Loop σ :=
  if r.batch ≠ [] ∧ addInt64 r.batchSize size > b.config.maxBatchSize then b.deliver r else r

/-- The body of the loop of `ProcessEvents`. -/
def step (r : Loop σ) (ev : Event) : Loop σ :=
  match b.measure ev with
  | (ev, .error err) => r.report err ev
  | (ev, .ok size) =>
    if size > b.config.maxEventSize then r.report tooLarge ev
    else (b.makeRoom size r).push ev size

/-- The end of `ProcessEvents`. -/
def finish (d : Deps) (r : Loop σ) : Result σ :=
  let r := if r.batch ≠ [] then b.deliver r else r
  { success := r.success
    calls := r.calls
    pluginError := if r.impacted ≠ [] then some (d.newAggregate r.errors, r.impacted) else none
    state := r.state }

/-- `ProcessEvents`. -/
def processEvents (d : Deps) (events : List Event) (s : σ) : Result σ :=
  b.finish d (events.foldl b.step { state := s })

end Truncating

/-! ## What becomes of an event -/

/-- An event that lost its objects, and has an annotation that says so unless
    there was one under that key. -/
structure Truncated (ev ev' : Event) : Prop where
  eq : ev' =
    { ev with requestObject := none, responseObject := none, annotations := ev'.annotations }
  annotation : ev'.annotations.lookup annotationKey =
    some ((ev.annotations.lookup annotationKey).getD annotationValue)
  others : ∀ key ≠ annotationKey, ev'.annotations.lookup key = ev.annotations.lookup key

/-- What `truncate` leaves of an event with a body. -/
theorem truncated_truncate {ev : Event} (h : ev.level.greaterOrEqual .request = true) :
    Truncated ev (truncate ev) := by
  have hless : ev.level.less .metadata = false := by
    cases hl : ev.level <;> simp_all [Level.greaterOrEqual, Level.less, ordLevel]
  rw [truncate, Event.logAnnotationEntry]
  simp only [hless, Bool.false_eq_true, ↓reduceIte]
  split_ifs with hother
  · -- Another value is there, and is kept.
    obtain ⟨v, hv, -⟩ :
        ∃ v, ev.annotations.lookup annotationKey = some v ∧ v ≠ annotationValue := by
      simpa [Option.any_eq_true] using hother
    exact ⟨rfl, by simp [hv], fun _ _ => rfl⟩
  · refine ⟨rfl, ?_, fun key hkey => AList.lookup_insert_ne hkey⟩
    rw [AList.lookup_insert]
    cases hv : ev.annotations.lookup annotationKey with
    | none => rfl
    | some v =>
      have hsame : v = annotationValue := by simpa [hv] using hother
      rw [Option.getD_some, hsame]

namespace Truncating

/-- What becomes of an event: it is passed on, or it is reported, for an error. -/
inductive Outcome
  | delivered (ev : Event)
  | impacted (ev : Event) (err : Error)

def Outcome.delivered? : Outcome → Option Event
  | delivered ev => some ev
  | impacted _ _ => none

def Outcome.impacted? : Outcome → Option Event
  | delivered _ => none
  | impacted ev _ => some ev

def Outcome.error? : Outcome → Option Error
  | delivered _ => none
  | impacted _ err => some err

variable {σ : Type} (b : Truncating σ)

/-- The event has a size, which is too large. -/
def Oversized (ev : Event) : Prop :=
  ∃ size : ℕ, b.calcSize ev = .ok size ∧ b.config.maxEventSize < size

/-- The event, or what is left of it if it is too large and is of a level with
    objects. -/
def Prepared (ev ev' : Event) : Prop :=
  ev' = ev ∨ (b.Oversized ev ∧ ev.level.greaterOrEqual .request = true ∧ Truncated ev ev')

/-- What may become of an event. -/
inductive Handled (ev : Event) : Outcome → Prop
  | delivered {ev' : Event} {size : ℕ} (hev : b.Prepared ev ev') (hsize : b.calcSize ev' = .ok size)
      (hle : size ≤ b.config.maxEventSize) : Handled ev (.delivered ev')
  | failed {ev' : Event} {err : Error} (hev : b.Prepared ev ev')
      (herr : b.calcSize ev' = .error err) : Handled ev (.impacted ev' err)
  | tooLarge {ev' : Event} (hev : b.Prepared ev ev') (hsize : b.Oversized ev') :
      Handled ev (.impacted ev' tooLarge)

/-- The size of an event that has one. -/
def size (ev : Event) : ℕ := (b.calcSize ev).toOption.getD 0

/-- The size of a batch. -/
def totalSize (l : List Event) : ℕ := (l.map b.size).sum

/-- The sums of the loop are of type `int64` and do not overflow. -/
def NoOverflow : Prop := b.config.maxBatchSize + b.config.maxEventSize < 2 ^ 63

/-- What holds of a call with the given events: each of them, in order, is either
    passed on, once, or reported; the batches that are passed on are not empty and
    not too large; and the result is whether the delegate took them all. -/
structure Report (d : Deps) (events : List Event) (result : Result σ) : Prop where
  outcomes : ∃ outcomes, List.Forall₂ b.Handled events outcomes ∧
    result.calls.flatMap (·.1) = outcomes.filterMap Outcome.delivered? ∧
    result.pluginError =
      if outcomes.filterMap Outcome.impacted? = [] then none
      else some (d.newAggregate (outcomes.filterMap Outcome.error?),
        outcomes.filterMap Outcome.impacted?)
  nonempty : ∀ call ∈ result.calls, call.1 ≠ []
  size : b.NoOverflow → ∀ call ∈ result.calls, b.totalSize call.1 ≤ b.config.maxBatchSize
  success : result.success = true ↔ ∀ call ∈ result.calls, call.2 = true

variable {b}

theorem measure_spec (ev : Event) : b.Prepared ev (b.measure ev).1 ∧
    (b.measure ev).2 = b.calcSize (b.measure ev).1 := by
  rw [measure]
  cases hsize : b.calcSize ev with
  | error err => exact ⟨.inl rfl, hsize.symm⟩
  | ok size =>
    dsimp only
    split_ifs with hlarge
    · obtain ⟨hlt, hlevel⟩ := Bool.and_eq_true_iff.1 hlarge
      exact ⟨.inr ⟨⟨size, hsize, by simpa using hlt⟩, hlevel, truncated_truncate hlevel⟩, rfl⟩
    · exact ⟨.inl rfl, hsize.symm⟩

/-- One round of the loop: the event is reported, or room is made for it in the
    batch. -/
theorem step_cases (r : Loop σ) (ev : Event) :
    (∃ ev' err, b.Handled ev (.impacted ev' err) ∧ b.step r ev = r.report err ev') ∨
    (∃ ev' size, b.Handled ev (.delivered ev') ∧ b.calcSize ev' = .ok size ∧
      size ≤ b.config.maxEventSize ∧ b.step r ev = (b.makeRoom size r).push ev' size) := by
  obtain ⟨hprepared, hmeasured⟩ := b.measure_spec ev
  obtain ⟨ev', size, hm⟩ : ∃ ev' size, b.measure ev = (ev', size) := ⟨_, _, rfl⟩
  rw [hm] at hprepared hmeasured
  rw [step, hm]
  cases size with
  | error err => exact .inl ⟨ev', err, .failed hprepared hmeasured.symm, rfl⟩
  | ok size =>
    dsimp only
    split_ifs with hlarge
    · exact .inl ⟨ev', tooLarge, .tooLarge hprepared ⟨size, hmeasured.symm, hlarge⟩, rfl⟩
    · have hle : (size : ℤ) ≤ b.config.maxEventSize := not_lt.1 hlarge
      exact .inr ⟨ev', size, .delivered hprepared hmeasured.symm hle, hmeasured.symm, hle, rfl⟩

/-! ## The loop -/

variable (b)

/-- The events so far are accounted for, in order: in the batches passed on, in
    the batch at hand, or among the impacted ones. -/
structure Account (events : List Event) (r : Loop σ) : Prop where
  outcomes : ∃ outcomes, List.Forall₂ b.Handled events outcomes ∧
    r.calls.flatMap (·.1) ++ r.batch = outcomes.filterMap Outcome.delivered? ∧
    r.impacted = outcomes.filterMap Outcome.impacted? ∧
    r.errors = outcomes.filterMap Outcome.error?
  nonempty : ∀ call ∈ r.calls, call.1 ≠ []
  success : r.success = true ↔ ∀ call ∈ r.calls, call.2 = true

/-- No batch is too large, and the loop knows the size of the one at hand. -/
structure Bounded (r : Loop σ) : Prop where
  calls : ∀ call ∈ r.calls, b.totalSize call.1 ≤ b.config.maxBatchSize
  batch : b.totalSize r.batch ≤ b.config.maxBatchSize
  batchSize : r.batchSize = b.totalSize r.batch

variable {b} {events : List Event} {r : Loop σ}

theorem Account.start (s : σ) : b.Account [] { state := s } :=
  ⟨⟨[], .nil, rfl, rfl, rfl⟩, fun _ h => absurd h List.not_mem_nil, by simp⟩

/-- Passing a batch on moves its events. -/
theorem Account.deliver (h : b.Account events r) (hbatch : r.batch ≠ []) :
    b.Account events (b.deliver r) := by
  obtain ⟨outcomes, hhandled, hdelivered, himpacted, herrors⟩ := h.outcomes
  refine ⟨⟨outcomes, hhandled, ?_, himpacted, herrors⟩, fun call hcall => ?_, ?_⟩
  · simpa [Truncating.deliver] using hdelivered
  · rcases List.mem_append.1 hcall with hcall | hcall
    · exact h.nonempty call hcall
    · rw [List.mem_singleton.1 hcall]
      exact hbatch
  · simp only [Truncating.deliver, Bool.and_eq_true, h.success, List.forall_mem_append,
      List.forall_mem_singleton, and_comm]

theorem Account.makeRoom (h : b.Account events r) (size : ℕ) :
    b.Account events (b.makeRoom size r) := by
  rw [Truncating.makeRoom]
  split_ifs with hroom
  · exact h.deliver hroom.1
  · exact h

theorem filterMap_append_singleton {α β : Type} (f : α → Option β) (l : List α) (x : α) :
    (l ++ [x]).filterMap f = l.filterMap f ++ (f x).toList := by
  rw [List.filterMap_append]
  cases hx : f x <;> simp [hx]

/-- One more event is accounted for where its outcome is. -/
theorem Account.extend (h : b.Account events r) {ev : Event} {o : Outcome} (hev : b.Handled ev o)
    {r' : Loop σ} (hcalls : r'.calls = r.calls) (hsuccess : r'.success = r.success)
    (hbatch : r'.batch = r.batch ++ o.delivered?.toList)
    (himpacted : r'.impacted = r.impacted ++ o.impacted?.toList)
    (herrors : r'.errors = r.errors ++ o.error?.toList) : b.Account (events ++ [ev]) r' := by
  obtain ⟨outcomes, hhandled, hout, himp, herr⟩ := h.outcomes
  refine ⟨⟨outcomes ++ [o], List.rel_append hhandled (.cons hev .nil), ?_, ?_, ?_⟩, ?_, ?_⟩
  · rw [filterMap_append_singleton, ← hout, hcalls, hbatch, List.append_assoc]
  · rw [filterMap_append_singleton, ← himp, himpacted]
  · rw [filterMap_append_singleton, ← herr, herrors]
  · rw [hcalls]
    exact h.nonempty
  · rw [hcalls, hsuccess]
    exact h.success

theorem Account.push (h : b.Account events r) {ev ev' : Event}
    (hev : b.Handled ev (.delivered ev')) (size : ℕ) :
    b.Account (events ++ [ev]) (r.push ev' size) :=
  h.extend hev rfl rfl rfl (List.append_nil _).symm (List.append_nil _).symm

theorem Account.report (h : b.Account events r) {ev ev' : Event} {err : Error}
    (hev : b.Handled ev (.impacted ev' err)) :
    b.Account (events ++ [ev]) (r.report err ev') :=
  h.extend hev rfl rfl (List.append_nil _).symm rfl rfl

theorem Account.step (h : b.Account events r) (ev : Event) :
    b.Account (events ++ [ev]) (b.step r ev) := by
  rcases b.step_cases r ev with ⟨ev', err, hev, heq⟩ | ⟨ev', size, hev, -, -, heq⟩
  · rw [heq]
    exact h.report hev
  · rw [heq]
    exact (h.makeRoom size).push hev size

theorem Account.foldl (h : b.Account events r) (l : List Event) :
    b.Account (events ++ l) (l.foldl b.step r) := by
  induction l generalizing events r with
  | nil => rwa [List.append_nil]
  | cons ev l ih =>
    rw [List.append_cons]
    exact ih (h.step ev)

/-! ## The size of batches -/

theorem totalSize_append_singleton {ev : Event} {size : ℕ} (hsize : b.calcSize ev = .ok size)
    (l : List Event) : b.totalSize (l ++ [ev]) = b.totalSize l + size := by
  have hev : b.size ev = size := by rw [Truncating.size, hsize]; rfl
  rw [totalSize, List.map_append, List.sum_append, List.map_singleton, hev]
  simp [totalSize]

/-- A sum that fits is exact. -/
theorem addInt64_eq {m n : ℕ} (h : (m : ℤ) + n < 2 ^ 63) : addInt64 m n = m + n := by
  rw [addInt64, Int.bmod_eq_of_le] <;> omega

theorem Bounded.deliver (h : b.Bounded r) (hmax : 0 ≤ b.config.maxBatchSize) :
    b.Bounded (b.deliver r) := by
  refine ⟨fun call hcall => ?_, hmax, rfl⟩
  rcases List.mem_append.1 hcall with hcall | hcall
  · exact h.calls call hcall
  · rw [List.mem_singleton.1 hcall]
    exact h.batch

/-- The event fits into the batch that is left. -/
theorem Bounded.makeRoom (h : b.Bounded r) (hno : b.NoOverflow) (hpos : 0 ≤ b.config.maxBatchSize)
    (hle : b.config.maxEventSize ≤ b.config.maxBatchSize) {size : ℕ}
    (hsize : size ≤ b.config.maxEventSize) :
    b.Bounded (b.makeRoom size r) ∧
      b.totalSize (b.makeRoom size r).batch + size ≤ b.config.maxBatchSize := by
  have hempty : b.totalSize [] = 0 := rfl
  have hsum : addInt64 r.batchSize size = b.totalSize r.batch + size := by
    have hbatch := h.batch
    rw [NoOverflow] at hno
    rw [h.batchSize, addInt64_eq (by omega)]
  rw [Truncating.makeRoom]
  split_ifs with hroom
  · refine ⟨h.deliver hpos, ?_⟩
    change (b.totalSize [] : ℤ) + size ≤ _
    omega
  · refine ⟨h, ?_⟩
    rw [hsum] at hroom
    by_cases hbatch : r.batch = []
    · rw [hbatch]
      omega
    · exact not_lt.1 fun hlt => hroom ⟨hbatch, hlt⟩

/-- No batch grows over the limit. -/
theorem Bounded.step (h : b.Bounded r) (hno : b.NoOverflow) (hpos : 0 ≤ b.config.maxBatchSize)
    (hle : b.config.maxEventSize ≤ b.config.maxBatchSize) (ev : Event) :
    b.Bounded (b.step r ev) := by
  rcases b.step_cases r ev with ⟨ev', err, -, heq⟩ | ⟨ev', size, -, hcalc, hsize, heq⟩
  · rw [heq]
    exact ⟨h.calls, h.batch, h.batchSize⟩
  · rw [heq]
    obtain ⟨hroom, hfits⟩ := h.makeRoom hno hpos hle hsize
    have htotal := b.totalSize_append_singleton hcalc (b.makeRoom size r).batch
    refine ⟨hroom.calls, ?_, ?_⟩
    · change (b.totalSize ((b.makeRoom size r).batch ++ [ev']) : ℤ) ≤ _
      omega
    · change addInt64 (b.makeRoom size r).batchSize size =
        b.totalSize ((b.makeRoom size r).batch ++ [ev'])
      rw [NoOverflow] at hno
      rw [hroom.batchSize, addInt64_eq (by omega), htotal]
      rfl

theorem Bounded.foldl (h : b.Bounded r) (hno : b.NoOverflow) (hpos : 0 ≤ b.config.maxBatchSize)
    (hle : b.config.maxEventSize ≤ b.config.maxBatchSize) (l : List Event) :
    b.Bounded (l.foldl b.step r) := by
  induction l generalizing r with
  | nil => exact h
  | cons ev l ih => exact ih (h.step hno hpos hle ev)

/-! ## A call -/

/-- What holds of the loop at its end holds of the call. -/
theorem Account.report_finish (h : b.Account events r)
    (hbounded : b.NoOverflow → b.Bounded r) (hpos : 0 ≤ b.config.maxBatchSize) (d : Deps) :
    b.Report d events (b.finish d r) := by
  -- The batch at hand is passed on, unless it is empty.
  obtain ⟨r', hr', hbatch, haccount, hbounded'⟩ :
      ∃ r', (if r.batch ≠ [] then b.deliver r else r) = r' ∧ r'.batch = [] ∧
        b.Account events r' ∧ (b.NoOverflow → b.Bounded r') := by
    by_cases hbatch : r.batch = []
    · exact ⟨r, if_neg (not_not.2 hbatch), hbatch, h, hbounded⟩
    · exact ⟨b.deliver r, if_pos hbatch, rfl, h.deliver hbatch,
        fun hno => (hbounded hno).deliver hpos⟩
  obtain ⟨outcomes, hhandled, hdelivered, himpacted, herrors⟩ := haccount.outcomes
  rw [finish, hr']
  refine ⟨⟨outcomes, hhandled, ?_, ?_⟩, haccount.nonempty, fun hno => (hbounded' hno).calls,
    haccount.success⟩
  · rw [← hdelivered, hbatch, List.append_nil]
  · rw [← himpacted, ← herrors]
    exact ite_not ..

/-- Every event is passed on, once and in order, or reported, as `Handled` says,
    in batches that are not empty and, unless the sums overflow, not too large;
    and the call succeeds if the delegate does on every batch. -/
theorem processEvents_report (d : Deps) (b : Truncating σ) (hvalid : b.config.Valid)
    (events : List Event) (s : σ) : b.Report d events (b.processEvents d events s) := by
  have hpos : 0 ≤ b.config.maxBatchSize := (hvalid.pos.trans_le hvalid.le).le
  have haccount : b.Account events (events.foldl b.step { state := s }) :=
    (Account.start s).foldl events
  have hstart : b.Bounded { state := s } :=
    ⟨fun _ h => absurd h List.not_mem_nil, hpos, rfl⟩
  exact haccount.report_finish (fun hno => hstart.foldl hno hpos hvalid.le events) hpos d

/-- Events with a request object have size 10, others 1. -/
def byObject : Truncating Unit where
  config := { maxEventSize := 5, maxBatchSize := 5 }
  calcSize ev := .ok (if ev.requestObject.isSome then 10 else 1)
  delegate _ s := (true, s)

/-- An event that loses its object is passed on with one that has none. -/
theorem byObject_report :
    byObject.config.Valid ∧ byObject.Report Deps.plain
      [{ level := .request, requestObject := some [0] }, { level := .metadata }]
      (byObject.processEvents Deps.plain
        [{ level := .request, requestObject := some [0] }, { level := .metadata }] ()) := by
  have hvalid : byObject.config.Valid := ⟨by decide, by decide⟩
  exact ⟨hvalid, processEvents_report Deps.plain byObject hvalid _ ()⟩

/-- Every event has half of the largest possible size of a batch, rounded up. -/
def halfSized : Truncating Unit where
  config := { maxEventSize := 2 ^ 63 - 1, maxBatchSize := 2 ^ 63 - 1 }
  calcSize _ := .ok (2 ^ 62)
  delegate _ s := (true, s)

/-- An event that says it was not truncated keeps saying so when it is; and two
    events whose sizes add up to more than an `int64` are passed on in one batch. -/
theorem truncation_exceptions :
    byObject.config.Valid ∧ halfSized.config.Valid ∧
    ((byObject.processEvents Deps.plain
      [{ level := .request, requestObject := some [0]
         annotations := AList.singleton annotationKey "no" }] ()).calls.flatMap (·.1)).map
        (fun ev => (ev.requestObject, ev.annotations.lookup annotationKey)) =
      [(none, some "no")] ∧
    (halfSized.processEvents Deps.plain [{ level := .metadata }, { level := .request }] ()).calls =
      [([{ level := .metadata }, { level := .request }], true)] ∧
    ¬(halfSized.totalSize [{ level := .metadata }, { level := .request }] : ℤ) ≤
      halfSized.config.maxBatchSize := by
  refine ⟨⟨by decide, by decide⟩, ⟨by decide, by decide⟩, by decide, by rfl, by decide⟩

end Truncating

end Apiserver.Audit
