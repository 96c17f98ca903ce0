import Apiserver.Certificates.Content
import Apiserver.Go.Workqueue
import Apiserver.Transition.System

/-!
# Serving what is in the files

The providers of certificates load their files in goroutines of their own, at any time. When
one has stored a new content, it adds an item to the queue of the controller that serves the
certificates. For an item, the worker of the controller makes a *pass*: it asks the providers
for their contents, one after the other, and serves them together (`syncCerts`). Contents may
change during a pass. If a pass fails, the item comes back after a delay. The controller starts
with two passes without an item, whose errors are ignored, and a timer, which adds an item now
and then (`SecureServingInfo.tlsConfig` and `Run` in `pkg/dynamiccertificates/tlsconfig.go`).

The state holds what the providers have stored, the loads and the worker with where they are,
and the queue. A step is one of any of them, so that the runs are all the interleavings.

* `Tracked`, `tracked_invariant`: a content that has changed since the worker has last asked
  for it has left a trace, from which there will be another pass;
* `quiet_served`: so when nothing is left to do, what the providers have is what is served;
* `can_serve`: and it can always get there.
-/

namespace Apiserver.Certificates

open Go Transition

variable {χ ρ Q : Type}

/-- What is taken from golib and the standard library. -/
structure Outside (χ ρ Q : Type) where
  deps : Deps
  x509 : X509 χ
  newPoolFromBytes : Bytes → Except Error ρ
  /-- `strings.TrimSpace`, for bytes. -/
  trimSpace : Bytes → Bytes
  workqueue : Workqueue Q String

/-- The providers of a server, which share no file, and the base of its configs. -/
structure Serving (χ : Type) where
  providers : Providers
  nodup : providers.cells.Nodup
  baseTLSConfig : TLSConfig χ := {}

namespace Serving

/-- The item of the queue. -/
def workItemKey : String := "key"

/-- A load that has found a new content. -/
inductive Load (ρ : Type)
  /-- It is about to store it, -/
  | storing (i : Cell) (content : i.Content ρ)
  /-- or has stored it, and is about to add an item to the queue. -/
  | notifying (i : Cell)

/-- Where the worker is. -/
inductive Worker (ρ : Type)
  /-- Between passes. -/
  | idle
  /-- In `newTLSContent`, with the providers it has yet to ask, and what the others have
      returned. What is there for the former is not used. -/
  | reading (rest : List Cell) (read : Stored ρ)
  /-- `syncCerts` has failed, -/
  | failed
  /-- or the pass is over but for `Done`. -/
  | finishing

structure State (χ ρ Q : Type) where
  stored : Stored ρ
  loads : List (Load ρ) := []
  queue : Q
  worker : Worker ρ := .idle
  /-- The passes of `RunOnce` that are not over. -/
  runOnce : ℕ := 2
  /-- The timer has added an item. -/
  ticked : Bool := false
  served : Controller.State χ := {}
  /-- What the last pass that succeeded has read. -/
  seen : Option (Stored ρ) := none

variable (e : Outside χ ρ Q) (v : Serving χ)

def controller : Controller χ := v.providers.controller v.baseTLSConfig

/-- `syncCerts`, with what a pass has read. -/
def sync (read : Stored ρ) (o : Order χ) (σ : Controller.State χ) :
    Option Error × Controller.State χ :=
  v.controller.syncCerts e.deps e.x509 (v.providers.provided e.trimSpace read) o σ

/-- The state after `syncCerts`, whose error is ignored in a pass of `RunOnce`. -/
def synced (s : State χ ρ Q) (read : Stored ρ) (o : Order χ) : State χ ρ Q :=
  { s with
    worker := if s.runOnce ≠ 0 then .idle
      else if (v.sync e read o s.served).1 = none then .finishing else .failed
    runOnce := s.runOnce - 1
    served := (v.sync e read o s.served).2
    seen := if (v.sync e read o s.served).1 = none then some read else s.seen }

/-- The load of a provider finds a new content, whatever is in its files. -/
inductive Finds (stored : Stored ρ) : Load ρ → Prop
  | ca {i : ℕ} {new : CaBundleAndVerifier ρ} (name : String) (file : Except Error Bytes)
      (hnotified : (loadCABundle e.deps e.newPoolFromBytes name file
        (some (stored (.ca i)))).notified = true)
      (hnew : (loadCABundle e.deps e.newPoolFromBytes name file
        (some (stored (.ca i)))).content = some new) :
      Finds stored (.storing (.ca i) new)
  | certKey {i : ℕ} {new : CertKeyContent} (name : String) (certFile keyFile : Except Error Bytes)
      (hnotified : (loadCertKeyPair e.deps e.x509 name certFile keyFile
        (some (stored (.certKey i)))).notified = true)
      (hnew : (loadCertKeyPair e.deps e.x509 name certFile keyFile
        (some (stored (.certKey i)))).content = some new) :
      Finds stored (.storing (.certKey i) new)

/-- The steps that need nothing from outside: those of the loads that have found a new content,
    of the queue and of the worker. -/
inductive Internal : State χ ρ Q → State χ ρ Q → Prop
  | store {s : State χ ρ Q} {before after : List (Load ρ)} {i : Cell} {content : i.Content ρ}
      (hloads : s.loads = before ++ .storing i content :: after) :
      Internal s { s with
        stored := Function.update s.stored i content
        loads := before ++ .notifying i :: after }
  | notify {s : State χ ρ Q} {before after : List (Load ρ)} {i : Cell}
      (hloads : s.loads = before ++ .notifying i :: after) :
      Internal s { s with
        loads := before ++ after
        queue := e.workqueue.add workItemKey s.queue }
  | fire {s : State χ ρ Q} (hdelayed : e.workqueue.Delayed s.queue workItemKey) :
      Internal s { s with queue := e.workqueue.fire workItemKey s.queue }
  | once {s : State χ ρ Q} (hidle : s.worker = .idle) (honce : s.runOnce ≠ 0) :
      Internal s { s with worker := .reading v.providers.cells s.stored }
  | get {s : State χ ρ Q} {key : String} {q : Q} (hidle : s.worker = .idle)
      (honce : s.runOnce = 0) (hget : e.workqueue.get s.queue = some (key, q)) :
      Internal s { s with queue := q, worker := .reading v.providers.cells s.stored }
  | read {s : State χ ρ Q} {i : Cell} {rest : List Cell} {read : Stored ρ}
      (hreading : s.worker = .reading (i :: rest) read) :
      Internal s { s with worker := .reading rest (Function.update read i (s.stored i)) }
  | sync {s : State χ ρ Q} {read : Stored ρ} (o : Order χ)
      (hreading : s.worker = .reading [] read) :
      Internal s (v.synced e s read o)
  | retry {s : State χ ρ Q} (hfailed : s.worker = .failed) :
      Internal s { s with
        queue := e.workqueue.addRateLimited workItemKey s.queue
        worker := .finishing }
  | done {s : State χ ρ Q} (hfinishing : s.worker = .finishing) :
      Internal s { s with queue := e.workqueue.done workItemKey s.queue, worker := .idle }

/-- A step: one of those, one of the timer, a load that finds a new content, or the end of the
    controller. -/
inductive Step : State χ ρ Q → State χ ρ Q → Prop
  | internal {s t : State χ ρ Q} (h : Internal e v s t) : Step s t
  /-- The timer is started after the passes of `RunOnce`. -/
  | tick {s : State χ ρ Q} (honce : s.runOnce = 0) :
      Step s { s with queue := e.workqueue.add workItemKey s.queue, ticked := true }
  | load {s : State χ ρ Q} {load : Load ρ} (h : Finds e s.stored load) :
      Step s { s with loads := s.loads ++ [load] }
  | shutDown {s : State χ ρ Q} : Step s { s with queue := e.workqueue.shutDown s.queue }

def system : System (State χ ρ Q) where
  init s := ∃ stored, s = { stored, queue := e.workqueue.new }
  step := Step e v

/-! ## Nothing is missed -/

/-- There will be another pass, without anything else happening. -/
def Signalled (s : State χ ρ Q) : Prop :=
  e.workqueue.Pending s.queue workItemKey ∨ e.workqueue.Delayed s.queue workItemKey ∨
    s.ticked = false ∨ s.worker = .failed

/-- What was read is what is stored, but for contents whose loads are about to say so. -/
def Current (cells : List Cell) (s : State χ ρ Q) (read : Stored ρ) : Prop :=
  ∀ i ∈ cells, read i = s.stored i ∨ .notifying i ∈ s.loads

/-- The invariant of the controller. -/
structure Tracked (s : State χ ρ Q) : Prop where
  keys : ∀ key, e.workqueue.Pending s.queue key → key = workItemKey
  /-- The item is being processed in every pass but those of `RunOnce`, -/
  processing : e.workqueue.Processing s.queue workItemKey ↔ s.worker ≠ .idle ∧ s.runOnce = 0
  ticked : s.runOnce ≠ 0 → s.ticked = false
  /-- which do not wait for anything. -/
  once : s.runOnce ≠ 0 → s.worker ≠ .failed ∧ s.worker ≠ .finishing
  /-- In a pass, what was read is current, -/
  read : e.workqueue.shuttingDown s.queue = false → ∀ rest read, s.worker = .reading rest read →
    Signalled e s ∨ Current (v.providers.cells.filter (· ∉ rest)) s read
  /-- and so is outside of one what the last pass that succeeded has read. -/
  seen : e.workqueue.shuttingDown s.queue = false → (∀ rest read, s.worker ≠ .reading rest read) →
    Signalled e s ∨ ∃ read, s.seen = some read ∧ Current v.providers.cells s read
  inStep : v.controller.InStep e.deps e.x509 s.served
  /-- What that pass has read is served. -/
  served : ∀ read ∈ s.seen, ∃ content,
    v.controller.newTLSContent e.deps (v.providers.provided e.trimSpace read) = .ok content ∧
      s.served.currentlyServedContent = some content

variable {e v} {s t : State χ ρ Q}

variable {read : Stored ρ}

/-- A pass that succeeds serves what it has read. -/
theorem sync_served {o : Order χ} {σ : Controller.State χ} (h : (v.sync e read o σ).1 = none) :
    ∃ content,
      v.controller.newTLSContent e.deps (v.providers.provided e.trimSpace read) = .ok content ∧
        (v.sync e read o σ).2.currentlyServedContent = some content := by
  rcases Controller.syncCerts_cases e.deps e.x509 v.controller
    (v.providers.provided e.trimSpace read) o σ with ⟨err, _, heq⟩ |
    ⟨new, hnew, ⟨hsame, heq⟩ | ⟨_, ⟨err, _, heq⟩ | ⟨config, _, heq⟩⟩⟩
  · rw [sync, heq] at h
    cases h
  · exact ⟨new, hnew, by rw [sync, heq]; exact hsame⟩
  · rw [sync, heq] at h
    cases h
  · exact ⟨new, hnew, by rw [sync, heq]⟩

theorem Current.mono {cells : List Cell} (h : Current cells s read)
    (hstored : ∀ i, t.stored i = s.stored i ∨ .notifying i ∈ t.loads)
    (hloads : ∀ i, .notifying i ∈ s.loads → .notifying i ∈ t.loads) : Current cells t read := by
  intro i hi
  rcases h i hi with heq | hmem
  · rcases hstored i with hsame | hnotifying
    · exact .inl (heq.trans hsame.symm)
    · exact .inr hnotifying
  · exact .inr (hloads i hmem)

/-- A state with the same queue and worker, in which the loads have gone on. -/
theorem Tracked.of_loads (h : Tracked e v s) (stored : Stored ρ) (loads : List (Load ρ))
    (hstored : ∀ i, stored i = s.stored i ∨ .notifying i ∈ loads)
    (hloads : ∀ i, .notifying i ∈ s.loads → .notifying i ∈ loads) :
    Tracked e v { s with stored, loads } :=
  { h with
    read := fun hdown rest read hreading =>
      (h.read hdown rest read hreading).imp_right fun hcurrent => hcurrent.mono hstored hloads
    seen := fun hdown hreading => by
      refine (h.seen hdown hreading).imp_right ?_
      rintro ⟨read, hread, hcurrent⟩
      exact ⟨read, hread, hcurrent.mono hstored hloads⟩ }

/-- A state in which an item was added to the queue, so that nothing is missed. -/
theorem Tracked.of_added (h : Tracked e v s) (loads : List (Load ρ)) {queue : Q}
    (ticked : Bool) (hadded : Workqueue.Added e.workqueue.toOperations workItemKey s.queue queue)
    (hticked : s.runOnce ≠ 0 → ticked = false) :
    Tracked e v { s with loads, queue, ticked } :=
  { h with
    keys := fun key hkey => by
      rcases hadded.only key hkey with heq | hpending
      · exact heq
      · exact h.keys key hpending
    processing := (hadded.processing _).trans h.processing
    ticked := hticked
    read := fun hdown _ _ _ => .inl (.inl (hadded.pending (hadded.shuttingDown.symm.trans hdown)))
    seen := fun hdown _ => .inl (.inl (hadded.pending (hadded.shuttingDown.symm.trans hdown))) }

/-- A load stores what it found, and has yet to tell. -/
theorem Tracked.store (h : Tracked e v s) {before after : List (Load ρ)} {i : Cell}
    {content : i.Content ρ} (hloads : s.loads = before ++ .storing i content :: after) :
    Tracked e v { s with
      stored := Function.update s.stored i content
      loads := before ++ .notifying i :: after } := by
  refine h.of_loads _ _ (fun j => ?_) fun j hj => ?_
  · by_cases hij : j = i
    · rw [hij]
      exact .inr (by simp)
    · exact .inl (Function.update_of_ne hij _ _)
  · rw [hloads] at hj
    simp only [List.mem_append, List.mem_cons, reduceCtorEq, false_or] at hj ⊢
    exact hj.imp_right .inr

/-- A pass begins, in which nothing is read yet. -/
theorem Tracked.begin (h : Tracked e v s) (queue : Q)
    (hkeys : ∀ key, e.workqueue.Pending queue key → e.workqueue.Pending s.queue key)
    (hprocessing : e.workqueue.Processing queue workItemKey ↔ s.runOnce = 0) :
    Tracked e v { s with queue, worker := .reading v.providers.cells s.stored } :=
  { h with
    keys := fun key hkey => h.keys key (hkeys key hkey)
    processing := by
      rw [hprocessing]
      simp
    once := fun _ => by simp
    read := fun _ rest read hreading => by
      cases hreading
      -- All cells are still to be read.
      refine .inr fun i hi => ?_
      simp only [List.mem_filter, decide_eq_true_eq] at hi
      exact absurd hi.1 hi.2
    seen := fun _ hreading => absurd rfl (hreading _ _) }

theorem Tracked.get (h : Tracked e v s) {key : String} {q : Q}
    (honce : s.runOnce = 0) (hget : e.workqueue.get s.queue = some (key, q)) :
    Tracked e v { s with queue := q, worker := .reading v.providers.cells s.stored } := by
  have htaken := e.workqueue.taken_get _ _ _ hget
  have hkey : key = workItemKey := h.keys key htaken.pending
  exact h.begin q htaken.only (by simp [htaken.processing, hkey, honce])

theorem Tracked.once_begin (h : Tracked e v s) (hidle : s.worker = .idle) (honce : s.runOnce ≠ 0) :
    Tracked e v { s with worker := .reading v.providers.cells s.stored } := by
  refine h.begin s.queue (fun _ => id) ?_
  rw [h.processing]
  simp [hidle, honce]

/-- The worker reads the content of a provider. -/
theorem Tracked.readCell (h : Tracked e v s) {i : Cell} {rest : List Cell}
    (hreading : s.worker = .reading (i :: rest) read) :
    Tracked e v { s with
      worker := .reading rest (Function.update read i (s.stored i)) } :=
  { h with
    processing := by
      rw [h.processing]
      simp [hreading]
    once := fun _ => by simp
    read := fun hdown rest' read' hreading' => by
      cases hreading'
      refine (h.read hdown _ _ hreading).imp (fun hsignalled => ?_) fun hcurrent j hj => ?_
      · simpa [Signalled, hreading] using hsignalled
      · by_cases hij : j = i
        · exact .inl (by rw [hij, Function.update_self])
        · rw [Function.update_of_ne hij]
          refine hcurrent j ?_
          simp only [List.mem_filter, decide_eq_true_eq, List.mem_cons, not_or] at hj ⊢
          exact ⟨hj.1, hij, hj.2⟩
    seen := fun _ hreading' => absurd rfl (hreading' _ _) }

/-- A pass ends. -/
theorem Tracked.synced (h : Tracked e v s) (o : Order χ) (hreading : s.worker = .reading [] read) :
    Tracked e v (v.synced e s read o) where
  keys := h.keys
  processing := by
    simp only [Serving.synced]
    rw [h.processing]
    by_cases honce : s.runOnce = 0
    · by_cases herr : (v.sync e read o s.served).1 = none <;> simp [hreading, honce, herr]
    · simp [honce]
  ticked honce := h.ticked fun hzero => honce (by simp [Serving.synced, hzero])
  once honce := by
    have hne : s.runOnce ≠ 0 := fun hzero => honce (by simp [Serving.synced, hzero])
    simp [Serving.synced, hne]
  read _ rest read' hreading' := by
    simp only [Serving.synced] at hreading'
    split_ifs at hreading'
  seen hdown _ := by
    by_cases honce : s.runOnce = 0
    · by_cases herr : (v.sync e read o s.served).1 = none
      · -- What was read in the pass is what is seen from now on.
        refine (h.read hdown [] read hreading).imp (fun hsignalled => ?_) fun hcurrent => ?_
        · simpa [Signalled, Serving.synced, hreading, honce, herr] using hsignalled
        · refine ⟨read, if_pos herr, fun i hi => ?_⟩
          exact hcurrent i (by simpa using hi)
      · exact .inl (.inr (.inr (.inr (by simp [Serving.synced, honce, herr]))))
    · exact .inl (.inr (.inr (.inl (h.ticked honce))))
  inStep := h.inStep.syncCerts _ o
  served read' hread' := by
    simp only [Serving.synced] at hread' ⊢
    split_ifs at hread' with herr
    · cases hread'
      exact sync_served herr
    · -- A pass that fails changes nothing.
      have hsame := (Controller.synced_syncCerts e.deps e.x509 v.controller
        (v.providers.provided e.trimSpace read) o s.served).failed herr
      rw [sync, hsame]
      exact h.served read' hread'

/-- After an error, the key is queued again. -/
theorem Tracked.retry (h : Tracked e v s) (hfailed : s.worker = .failed) :
    Tracked e v { s with
      queue := e.workqueue.addRateLimited workItemKey s.queue
      worker := .finishing } :=
  have hlimited := e.workqueue.limited_addRateLimited workItemKey s.queue
  { h with
    keys := fun key hkey => h.keys key ((hlimited.pending key).1 hkey)
    processing := by
      rw [hlimited.processing, h.processing]
      simp [hfailed]
    once := fun honce => absurd hfailed (h.once honce).1
    read := fun _ _ _ hreading => by cases hreading
    seen := fun hdown _ => by
      rw [hlimited.shuttingDown] at hdown
      exact .inl (.inr (.inl (hlimited.delayed hdown))) }

/-- A key that is done is queued only if it was added meanwhile. -/
theorem Tracked.done (h : Tracked e v s) (hfinishing : s.worker = .finishing) :
    Tracked e v { s with queue := e.workqueue.done workItemKey s.queue, worker := .idle } :=
  have hdone := e.workqueue.finished_done workItemKey s.queue
  { h with
    keys := fun key hkey => h.keys key ((hdone.pending key).1 hkey)
    processing := by simp [hdone.processing]
    once := fun _ => by simp
    read := fun _ _ _ hreading => by cases hreading
    seen := fun hdown _ => by
      rw [hdone.shuttingDown] at hdown
      refine (h.seen hdown (by simp [hfinishing])).imp_left ?_
      rintro (hpending | hdelayed | hticked | hfailed)
      · exact .inl ((hdone.pending _).2 hpending)
      · exact .inr (.inl (hdone.delayed _ hdelayed))
      · exact .inr (.inr (.inl hticked))
      · rw [hfinishing] at hfailed
        cases hfailed }

/-- The worker and the queue keep track. -/
theorem Tracked.internal (h : Tracked e v s) (hstep : Internal e v s t) : Tracked e v t := by
  cases hstep with
  | store hloads => exact h.store hloads
  | notify hloads => exact h.of_added _ _ (e.workqueue.added_add _ _) h.ticked
  | fire hdelayed => exact h.of_added _ _ (e.workqueue.added_fire _ _) h.ticked
  | once hidle honce => exact h.once_begin hidle honce
  | get hidle honce hget => exact h.get honce hget
  | read hreading => exact h.readCell hreading
  | sync o hreading => exact h.synced o hreading
  | retry hfailed => exact h.retry hfailed
  | done hfinishing => exact h.done hfinishing

/-- In every interleaving, what is not served is on its way. -/
theorem tracked_invariant (e : Outside χ ρ Q) (v : Serving χ) :
    (v.system e).Invariant (Tracked e v) where
  init := by
    rintro _ ⟨stored, rfl⟩
    exact {
      keys := fun key hkey => absurd hkey (e.workqueue.pending_new key)
      processing := by simp [e.workqueue.processing_new]
      ticked := fun _ => rfl
      once := by simp
      read := fun _ _ _ hreading => by cases hreading
      seen := fun _ _ => .inl (.inr (.inr (.inl rfl)))
      inStep := ⟨by simp, fun _ hcontent => by cases hcontent⟩
      served := fun _ hread => by cases hread }
  step s t h hstep := by
    cases hstep with
    | internal hinternal => exact h.internal hinternal
    | tick honce =>
      exact h.of_added _ _ (e.workqueue.added_add _ _) fun hne => absurd honce hne
    | load hfinds =>
      exact h.of_loads _ _ (fun _ => .inl rfl) fun i hi => List.mem_append_left _ hi
    | shutDown =>
      have hdown := e.workqueue.shuttingDown_shutDown s.queue
      exact { h with
        keys := fun key hkey => h.keys key ((e.workqueue.pending_shutDown _ _).1 hkey)
        processing := (e.workqueue.processing_shutDown _ _).trans h.processing
        read := fun hrunning => by simp [hdown] at hrunning
        seen := fun hrunning => by simp [hdown] at hrunning }

theorem Tracked.runOnce_eq_zero (h : Tracked e v s) (hticked : s.ticked = true) :
    s.runOnce = 0 := by
  by_contra honce
  rw [h.ticked honce] at hticked
  cases hticked

/-- The worker gets an item that is to be processed. -/
theorem Tracked.exists_get (h : Tracked e v s) (hidle : s.worker = .idle)
    (hpending : e.workqueue.Pending s.queue workItemKey) :
    ∃ p, e.workqueue.get s.queue = some p :=
  e.workqueue.exists_get _ _ hpending fun hprocessing => (h.processing.1 hprocessing).1 hidle

/-- What the providers have is served: the config that clients get is made of it. -/
def Serves (e : Outside χ ρ Q) (v : Serving χ) (s : State χ ρ Q) : Prop :=
  ∃ content config o,
    v.controller.newTLSContent e.deps (v.providers.provided e.trimSpace s.stored) = .ok content ∧
      v.controller.build e.deps e.x509 o content = .ok config ∧
      s.served.currentlyServedContent = some content ∧
      s.served.currentServingTLSConfig = some config

/-- Nothing is left to do, in a controller that has been started and not stopped. -/
structure Quiet (e : Outside χ ρ Q) (s : State χ ρ Q) : Prop where
  loads : s.loads = []
  worker : s.worker = .idle
  queue : e.workqueue.get s.queue = none
  delayed : ¬ e.workqueue.Delayed s.queue workItemKey
  ticked : s.ticked = true
  running : e.workqueue.shuttingDown s.queue = false

/-- What was seen last is served. -/
theorem Tracked.serves_of_seen (h : Tracked e v s) (hread : s.seen = some read)
    (hcurrent : ∀ i ∈ v.providers.cells, read i = s.stored i) : Serves e v s := by
  obtain ⟨content, hnew, hcontent⟩ := h.served read hread
  obtain ⟨config, hconfig⟩ : ∃ config, s.served.currentServingTLSConfig = some config := by
    rw [← Option.ne_none_iff_exists', Ne, h.inStep.none_iff, hcontent]
    exact Option.some_ne_none _
  obtain ⟨o, hbuild⟩ := h.inStep.built content hcontent config hconfig
  rw [v.providers.provided_congr hcurrent] at hnew
  exact ⟨content, config, o, hnew, hbuild, hcontent, hconfig⟩

/-- Nothing that was loaded is missed. In every interleaving of the loads, which may find
    anything, with the worker, the queue and the timer, as soon as nothing is left to do,
    clients get a config made of what the providers have. -/
theorem quiet_served (hreach : (v.system e).Reachable s) (hquiet : Quiet e s) : Serves e v s := by
  have h := (tracked_invariant e v).reachable hreach
  have hsignalled : ¬ Signalled e s := by
    rintro (hpending | hdelayed | hticked | hfailed)
    · obtain ⟨p, hget⟩ := h.exists_get hquiet.worker hpending
      rw [hquiet.queue] at hget
      cases hget
    · exact hquiet.delayed hdelayed
    · rw [hquiet.ticked] at hticked
      cases hticked
    · rw [hquiet.worker] at hfailed
      cases hfailed
  obtain hfalse | ⟨read, hread, hcurrent⟩ := h.seen hquiet.running (by simp [hquiet.worker])
  · exact absurd hfalse hsignalled
  · refine h.serves_of_seen hread fun i hi => ?_
    refine (hcurrent i hi).resolve_right ?_
    rw [hquiet.loads]
    exact List.not_mem_nil

/-- A server with a file of CA certificates. -/
def oneFile : Serving Bytes where
  providers := { clientCA := some (.file 0 "ca") }
  nodup := List.nodup_singleton _

/-- Certificates that are their bytes, all of which can be served. -/
def bytesOutside : Outside Bytes Unit (Workqueue.Lists String) where
  deps := .plain
  x509 :=
    { parseCertsPEM := fun _ => .ok []
      x509KeyPair := fun cert _ => .ok cert
      parseCertificate := fun cert => .ok { raw := cert }
      isIP := fun _ => false
      validation := ⟨fun _ => [], fun _ => []⟩
      quoteBytes := fun _ => "" }
  newPoolFromBytes _ := .ok ()
  trimSpace b := b
  workqueue := .lists

/-- The order of the entries. -/
def byEntries : Order Bytes where
  range m := m.entries.map Sigma.snd
  perm _ := .refl _

/-- A file with one byte. -/
def oneByte (b : UInt8) : Stored Unit
  | .ca _ => ⟨[b], ()⟩
  | .certKey _ => {}

/-- Serving a file with one byte. -/
def servedByte (b : UInt8) (stores : ℕ) : Controller.State Bytes where
  currentlyServedContent := some { clientCA := ⟨[b]⟩ }
  currentServingTLSConfig := some { clientCAs := some [] }
  stores := stores

/-- A pass that nothing interferes with. -/
theorem reachable_pass {s : State Bytes Unit (Workqueue.Lists String)}
    (h : (oneFile.system bytesOutside).Reachable s)
    (hreading : s.worker = .reading oneFile.providers.cells s.stored) :
    (oneFile.system bytesOutside).Reachable
      (oneFile.synced bytesOutside { s with worker := .reading [] s.stored } s.stored
        byEntries) := by
  have hread := h.step (.internal (.read hreading))
  rw [Function.update_eq_self] at hread
  exact hread.step (.internal (.sync byEntries rfl))

/-- The file after it has changed. -/
def changed : Stored Unit := Function.update (oneByte 0) (.ca 0) ⟨[1], ()⟩

/-- The file has changed, and the controller was told. -/
def told : State Bytes Unit (Workqueue.Lists String) where
  stored := changed
  queue := { pending := [workItemKey] }
  runOnce := 0
  ticked := true
  served := servedByte 0 1
  seen := some (oneByte 0)

theorem reachable_told : (oneFile.system bytesOutside).Reachable told := by
  let S := oneFile.system bytesOutside
  have h₀ : S.Reachable { stored := oneByte 0, queue := {} } := .of_init ⟨oneByte 0, rfl⟩
  have h₁ : S.Reachable
      { stored := oneByte 0
        queue := {}
        runOnce := 1
        served := servedByte 0 1
        seen := some (oneByte 0) } :=
    reachable_pass (h₀.step (.internal (.once rfl (by decide)))) rfl
  have h₂ : S.Reachable
      { stored := oneByte 0
        queue := {}
        runOnce := 0
        served := servedByte 0 1
        seen := some (oneByte 0) } :=
    reachable_pass (h₁.step (.internal (.once rfl (by decide)))) rfl
  have h₃ : S.Reachable
      { stored := oneByte 0
        queue := {}
        loads := [.storing (.ca 0) ⟨[1], ()⟩]
        runOnce := 0
        served := servedByte 0 1
        seen := some (oneByte 0) } :=
    h₂.step (.load (.ca "ca" (.ok [1]) rfl rfl))
  have h₄ : S.Reachable
      { stored := changed
        queue := {}
        loads := [.notifying (.ca 0)]
        runOnce := 0
        served := servedByte 0 1
        seen := some (oneByte 0) } :=
    h₃.step (.internal (@Internal.store _ _ _ _ _ _ [] [] _ _ rfl))
  exact (h₄.step (.internal (@Internal.notify _ _ _ _ _ _ [] [] _ rfl))).step (.tick rfl)

theorem quiet_served_reload : ∃ s, (oneFile.system bytesOutside).Reachable s ∧
    Quiet bytesOutside s ∧ s.stored = changed ∧ Serves bytesOutside oneFile s := by
  let S := oneFile.system bytesOutside
  have h₁ : S.Reachable
      { told with
        queue := { processing := [workItemKey] }
        worker := .reading oneFile.providers.cells changed } :=
    reachable_told.step (.internal (.get rfl rfl rfl))
  have h₂ : S.Reachable
      { told with
        queue := { processing := [workItemKey] }
        worker := .finishing
        served := servedByte 1 2
        seen := some changed } := reachable_pass h₁ rfl
  have h₃ : S.Reachable
      { told with
        queue := {}
        served := servedByte 1 2
        seen := some changed } := h₂.step (.internal (.done rfl))
  obtain ⟨s, hreach, hquiet, hstored⟩ :
      ∃ s, S.Reachable s ∧ Quiet bytesOutside s ∧ s.stored = changed :=
    ⟨_, h₃, ⟨rfl, rfl, rfl, List.not_mem_nil, rfl, rfl⟩, rfl⟩
  exact ⟨s, hreach, hquiet, hstored, quiet_served hreach hquiet⟩

/-! ## Getting there -/

/-- The worker and the queue go on by themselves. -/
structure Resumes (e : Outside χ ρ Q) (v : Serving χ) (s t : State χ ρ Q) : Prop where
  run : Relation.ReflTransGen (Internal e v) s t
  stored : t.stored = s.stored
  loads : t.loads = s.loads
  running : e.workqueue.shuttingDown t.queue = e.workqueue.shuttingDown s.queue
  ticked : t.ticked = s.ticked

namespace Resumes

variable {u : State χ ρ Q}

theorem refl (s : State χ ρ Q) : Resumes e v s s := ⟨.refl, rfl, rfl, rfl, rfl⟩

theorem trans (hst : Resumes e v s t) (htu : Resumes e v t u) : Resumes e v s u :=
  ⟨hst.run.trans htu.run, htu.stored.trans hst.stored, htu.loads.trans hst.loads,
    htu.running.trans hst.running, htu.ticked.trans hst.ticked⟩

theorem tracked (hst : Resumes e v s t) (h : Tracked e v s) : Tracked e v t := by
  have hrun := hst.run
  clear hst
  induction hrun with
  | refl => exact h
  | tail _ hstep ih => exact ih.internal hstep

/-- The providers are asked one after the other. -/
theorem reads {rest : List Cell} {read : Stored ρ} (h : s.worker = .reading rest read) :
    ∃ read', Resumes e v s { s with worker := .reading [] read' } ∧
      ∀ i ∈ rest, read' i = s.stored i := by
  have key : ∃ read', Resumes e v s { s with worker := .reading [] read' } ∧
      ∀ i, read' i = if i ∈ rest then s.stored i else read i := by
    induction rest generalizing s read with
    | nil =>
      refine ⟨read, ?_, by simp⟩
      rw [← h]
      exact refl s
    | cons i rest ih =>
      obtain ⟨read', hrest, hread'⟩ := ih (s := { s with
        worker := .reading rest (Function.update read i (s.stored i)) }) rfl
      refine ⟨read', trans ⟨.single (.read h), rfl, rfl, rfl, rfl⟩ hrest, fun j => ?_⟩
      rw [hread']
      by_cases hij : j = i
      · subst hij
        simp
      · simp [hij]
  obtain ⟨read', hrun, hread'⟩ := key
  exact ⟨read', hrun, fun i hi => by rw [hread', if_pos hi]⟩

theorem done (h : s.worker = .finishing) : ∃ t, Resumes e v s t ∧ t.worker = .idle :=
  ⟨_, ⟨.single (.done h), rfl, rfl, (e.workqueue.finished_done _ _).shuttingDown, rfl⟩, rfl⟩

theorem retry (h : s.worker = .failed) : ∃ t, Resumes e v s t ∧ t.worker = .idle := by
  obtain ⟨t, ht, hidle⟩ := done (e := e) (v := v) (s := { s with
    queue := e.workqueue.addRateLimited workItemKey s.queue, worker := .finishing }) rfl
  have hlimited := e.workqueue.limited_addRateLimited workItemKey s.queue
  exact ⟨t, trans ⟨.single (.retry h), rfl, rfl, hlimited.shuttingDown, rfl⟩ ht, hidle⟩

theorem synced {read : Stored ρ} (o : Order χ) (h : s.worker = .reading [] read) :
    Resumes e v s (v.synced e s read o) := ⟨.single (.sync o h), rfl, rfl, rfl, rfl⟩

/-- The pass that is under way, if any, comes to its end. -/
theorem idle (o : Order χ) (honce : s.runOnce = 0) :
    ∃ t, Resumes e v s t ∧ t.worker = .idle := by
  cases hworker : s.worker with
  | idle => exact ⟨s, refl s, hworker⟩
  | finishing => exact done hworker
  | failed => exact retry hworker
  | reading rest read =>
    obtain ⟨read', hreads, _⟩ := reads (e := e) (v := v) hworker
    have hsynced := hreads.trans (synced o rfl)
    by_cases herr : (v.sync e read' o s.served).1 = none
    · obtain ⟨t, ht, hidle⟩ := done (e := e) (v := v)
        (s := v.synced e { s with worker := .reading [] read' } read' o)
        (by simp [Serving.synced, honce, herr])
      exact ⟨t, hsynced.trans ht, hidle⟩
    · obtain ⟨t, ht, hidle⟩ := retry (e := e) (v := v)
        (s := v.synced e { s with worker := .reading [] read' } read' o)
        (by simp [Serving.synced, honce, herr])
      exact ⟨t, hsynced.trans ht, hidle⟩

/-- If there will be another pass, the worker gets to its beginning. -/
theorem begins (h : Tracked e v s) (hidle : s.worker = .idle) (honce : s.runOnce = 0)
    (hrunning : e.workqueue.shuttingDown s.queue = false) (hticked : s.ticked = true)
    (hsignalled : Signalled e s) :
    ∃ t, Resumes e v s t ∧ t.worker = .reading v.providers.cells t.stored := by
  have hgets : ∀ t, Tracked e v t → t.worker = .idle → t.runOnce = 0 →
      e.workqueue.Pending t.queue workItemKey →
      ∃ u, Resumes e v t u ∧ u.worker = .reading v.providers.cells u.stored := by
    intro t ht hidle honce hpending
    obtain ⟨⟨key, q⟩, hget⟩ := ht.exists_get hidle hpending
    have htaken := e.workqueue.taken_get _ _ _ hget
    exact ⟨_, ⟨.single (.get hidle honce hget), rfl, rfl, htaken.shuttingDown, rfl⟩, rfl⟩
  rcases hsignalled with hpending | hdelayed | hfalse | hfailed
  · exact hgets s h hidle honce hpending
  · have hfire : Internal e v s _ := .fire hdelayed
    have hadded := e.workqueue.added_fire workItemKey s.queue
    obtain ⟨t, ht, hreading⟩ := hgets _ (h.internal hfire) hidle honce (hadded.pending hrunning)
    exact ⟨t, trans ⟨.single hfire, rfl, rfl, hadded.shuttingDown, rfl⟩ ht, hreading⟩
  · rw [hticked] at hfalse
    cases hfalse
  · rw [hidle] at hfailed
    cases hfailed

end Resumes

/-- A pass that nothing interferes with serves what the providers have, if that can be served. -/
theorem sync_eq_none {content : DynamicCertificateContent} {config : TLSConfig χ} {o : Order χ}
    {stored : Stored ρ} (σ : Controller.State χ)
    (hnew : v.controller.newTLSContent e.deps (v.providers.provided e.trimSpace stored) =
      .ok content)
    (hbuild : v.controller.build e.deps e.x509 o content = .ok config) :
    (v.sync e stored o σ).1 = none :=
  (Controller.synced_syncCerts e.deps e.x509 v.controller
    (v.providers.provided e.trimSpace stored) o σ).err_iff.2 ⟨content, hnew, .inr ⟨config, hbuild⟩⟩

/-- From wherever the worker is, it gets to serve what the providers have, if that can be served
    and nothing else is loaded, without the timer. -/
theorem can_serve {content : DynamicCertificateContent} {config : TLSConfig χ} {o : Order χ}
    (hreach : (v.system e).Reachable s) (hloads : s.loads = []) (hticked : s.ticked = true)
    (hrunning : e.workqueue.shuttingDown s.queue = false)
    (hnew : v.controller.newTLSContent e.deps (v.providers.provided e.trimSpace s.stored) =
      .ok content)
    (hbuild : v.controller.build e.deps e.x509 o content = .ok config) :
    ∃ t, Relation.ReflTransGen (Internal e v) s t ∧ t.stored = s.stored ∧ Serves e v t := by
  have h := (tracked_invariant e v).reachable hreach
  obtain ⟨t, hst, hidle⟩ := Resumes.idle (e := e) (v := v) o (h.runOnce_eq_zero hticked)
  have ht := hst.tracked h
  rw [← hst.stored] at hnew
  have hticked' := hst.ticked.trans hticked
  obtain hsignalled | ⟨read, hread, hcurrent⟩ :=
    ht.seen (hst.running.trans hrunning) (by simp [hidle])
  · obtain ⟨u, htu, hreading⟩ := Resumes.begins ht hidle (ht.runOnce_eq_zero hticked')
      (hst.running.trans hrunning) hticked' hsignalled
    obtain ⟨read', hreads, hread'⟩ := Resumes.reads (e := e) (v := v) hreading
    have hrun := hst.trans (htu.trans (hreads.trans (.synced o rfl)))
    rw [← htu.stored, ← v.providers.provided_congr hread'] at hnew
    refine ⟨_, hrun.run, hrun.stored, (hrun.tracked h).serves_of_seen ?_ hread'⟩
    exact if_pos (sync_eq_none _ hnew hbuild)
  · refine ⟨t, hst.run, hst.stored, ht.serves_of_seen hread fun i hi => ?_⟩
    refine (hcurrent i hi).resolve_right ?_
    rw [hst.loads, hloads]
    exact List.not_mem_nil

theorem can_serve_reload : ∃ t, Relation.ReflTransGen (Internal bytesOutside oneFile) told t ∧
    t.stored = changed ∧ Serves bytesOutside oneFile t := by
  have hnew : oneFile.controller.newTLSContent bytesOutside.deps
      (oneFile.providers.provided bytesOutside.trimSpace told.stored) =
        .ok { clientCA := ⟨[1]⟩ } := rfl
  have hbuild : oneFile.controller.build bytesOutside.deps bytesOutside.x509 byEntries
      { clientCA := ⟨[1]⟩ } = .ok { clientCAs := some [] } := rfl
  exact can_serve reachable_told rfl rfl rfl hnew hbuild

end Serving

end Apiserver.Certificates
