import Apiserver.Basic
import Apiserver.Go.Http
import Apiserver.Transition.System
import Mathlib.Data.List.Induction
import Mathlib.Data.List.Perm.Subperm

/-!
# Remote commands

A command is executed in a container, or attached to, over one connection: the
client opens an error stream and one stream for each of stdin, stdout, stderr and
the size of the terminal that it asked for (`pkg/streaming/remotecommand`). The
server waits for them in `waitForStreams`, of which there is one for each version
of the protocol: a loop that takes the streams as they come, with a goroutine for
each stream to wait for its reply, and that returns when as many replies have been
sent as there are streams to expect.

This is a transition system, where a step is an iteration of the loop: a stream, a
reply or the timeout. A stream is told by its index in the order of arrival.

* `Inv`: the context holds the streams of the types that were received, and a reply
  is counted for one stream;
* `exists_returned`: the loop may return as soon as it has as many streams as are to be
  expected, with the context of those;
* `waitForStreams_complete_iff`: what is counted is streams and not types, so that
  the context is complete in every run exactly if the first streams that the client
  opens are of the types to expect, one of each.
-/

namespace Apiserver.RemoteCommand

open Go Transition

/-! ## Streams -/

/-- `Options`: the streams that the client asked for. -/
structure Options where
  stdin : Bool := false
  stdout : Bool := false
  stderr : Bool := false
  tty : Bool := false

/-- The types of streams of golib. -/
inductive StreamType
  | error
  | stdin
  | stdout
  | stderr
  | resize
deriving DecidableEq

def streamTypeHeader : String := "streamType"

/-- The value of the header of a stream. -/
def StreamType.value : StreamType → String
  | .error => "error"
  | .stdin => "stdin"
  | .stdout => "stdout"
  | .stderr => "stderr"
  | .resize => "resize"

/-- `api.Status`, with the causes of its details. -/
structure Status where
  status : String
  reason : String := ""
  message : String := ""
  causes : List (String × String) := []

/-- What the server gets from golib and the Go library. -/
structure Env where
  /-- `apierrors.NewInternalError`. -/
  newInternalError : Error → Status
  /-- `json.Marshal` of a status. -/
  marshal : Status → Except Error String

/-- How a status is written. -/
inductive StatusFormat
  /-- `v1WriteStatusFunc`: the message, of a failure only. -/
  | v1
  /-- `v4WriteStatusFunc`: as JSON. -/
  | v4

def StatusFormat.text (e : Env) (status : Status) : StatusFormat → Option String
  | .v1 => if status.status = "Success" then none else some status.message
  | .v4 => (e.marshal status).toOption

/-- What `v1WriteStatusFunc` and `v4WriteStatusFunc` return for a stream. -/
structure WriteStatusFunc where
  format : StatusFormat
  stream : ℕ

/-- The call of the function: what it writes, and to which stream. -/
def WriteStatusFunc.call (e : Env) (f : WriteStatusFunc) (status : Status) :
    Option (ℕ × String) :=
  (f.format.text e status).map (f.stream, ·)

/-- `context`: the streams that were received, `none` for nil. -/
structure Context where
  stdinStream : Option ℕ := none
  stdoutStream : Option ℕ := none
  stderrStream : Option ℕ := none
  writeStatus : Option WriteStatusFunc := none
  resizeStream : Option ℕ := none
  tty : Bool := false

/-- The stream of a type that the context holds. -/
def Context.stream (ctx : Context) : StreamType → Option ℕ
  | .error => ctx.writeStatus.map WriteStatusFunc.stream
  | .stdin => ctx.stdinStream
  | .stdout => ctx.stdoutStream
  | .stderr => ctx.stderrStream
  | .resize => ctx.resizeStream

/-! ## Versions of the protocol -/

/-- A `protocolHandler`: the cases of the switch in its `waitForStreams`, and what
    it does of its own. -/
structure ProtocolHandler where
  types : List StreamType
  statusFormat : StatusFormat
  supportsTerminalResizing : Bool
  /-- Error streams are reset, and the stdin stream is closed, on return. -/
  resets : Bool

def v4ProtocolHandler : ProtocolHandler where
  types := [.error, .stdin, .stdout, .stderr, .resize]
  statusFormat := .v4
  supportsTerminalResizing := true
  resets := false

def v3ProtocolHandler : ProtocolHandler where
  types := [.error, .stdin, .stdout, .stderr, .resize]
  statusFormat := .v1
  supportsTerminalResizing := true
  resets := false

def v2ProtocolHandler : ProtocolHandler where
  types := [.error, .stdin, .stdout, .stderr]
  statusFormat := .v1
  supportsTerminalResizing := false
  resets := false

def v1ProtocolHandler : ProtocolHandler where
  types := [.error, .stdin, .stdout, .stderr]
  statusFormat := .v1
  supportsTerminalResizing := false
  resets := true

/-- The versions of the protocol; one that is not negotiated is `v1`. -/
inductive Version
  | v1
  | v2
  | v3
  | v4

/-- The handler that `createHTTPStreamStreams` picks. -/
def Version.handler : Version → ProtocolHandler
  | .v1 => v1ProtocolHandler
  | .v2 => v2ProtocolHandler
  | .v3 => v3ProtocolHandler
  | .v4 => v4ProtocolHandler

/-- The streams that `createHTTPStreamStreams` counts. -/
def expectedStreams (h : ProtocolHandler) (opts : Options) : ℕ :=
  1 + opts.stdin.toNat + opts.stdout.toNat + opts.stderr.toNat +
    (opts.tty && h.supportsTerminalResizing).toNat

/-- The types of the streams that are counted. -/
def expectedTypes (h : ProtocolHandler) (opts : Options) : List StreamType :=
  [StreamType.error, .stdin, .stdout, .stderr, .resize].filter fun
    | .error => true
    | .stdin => opts.stdin
    | .stdout => opts.stdout
    | .stderr => opts.stderr
    | .resize => opts.tty && h.supportsTerminalResizing

theorem length_expectedTypes (h : ProtocolHandler) (opts : Options) :
    (expectedTypes h opts).length = expectedStreams h opts := by
  obtain ⟨stdin, stdout, stderr, tty⟩ := opts
  cases stdin <;> cases stdout <;> cases stderr <;> cases tty <;>
    cases hr : h.supportsTerminalResizing <;> simp [expectedTypes, expectedStreams, hr]

theorem nodup_expectedTypes (h : ProtocolHandler) (opts : Options) :
    (expectedTypes h opts).Nodup := by
  refine List.Nodup.filter _ ?_
  decide

namespace ProtocolHandler

variable (h : ProtocolHandler)

/-- The case of the switch for a stream, `none` for the default. -/
def streamType (headers : Header) : Option StreamType :=
  h.types.find? fun t => t.value == headers.get streamTypeHeader

/-- What the loop does to the context on a stream: a stream of a type that was
    received before is replaced. -/
def receive (ctx : Context) (i : ℕ) : StreamType → Context
  | .error => { ctx with writeStatus := some ⟨h.statusFormat, i⟩ }
  | .stdin => { ctx with stdinStream := some i }
  | .stdout => { ctx with stdoutStream := some i }
  | .stderr => { ctx with stderrStream := some i }
  | .resize => { ctx with resizeStream := some i }

theorem isSome_stream_receive (ctx : Context) (i : ℕ) (t t' : StreamType) :
    ((h.receive ctx i t).stream t').isSome ↔ (ctx.stream t').isSome ∨ t' = t := by
  cases t <;> cases t' <;> simp [receive, Context.stream]

/-- The types of the streams that have a case in the switch. -/
def received (streams : List Header) : List StreamType := streams.filterMap h.streamType

end ProtocolHandler

/-! ## The loop of `waitForStreams` -/

/-- What `waitForStreams` returned, with what it did to the streams on return. -/
structure Returned where
  result : Except Error Context
  closed : Option ℕ := none
  reset : List ℕ := []

/-- The state of the loop of `waitForStreams`. -/
structure State where
  /-- The streams that were received. -/
  streams : List Header := []
  ctx : Context := {}
  /-- The streams whose goroutine waits for the reply. -/
  waiting : List ℕ := []
  receivedStreams : ℕ := 0
  /-- The streams that a deferred call resets. -/
  deferred : List ℕ := []
  returned : Option Returned := none

namespace ProtocolHandler

variable (h : ProtocolHandler)

/-- A stream is received. -/
def receiveStream (s : State) (headers : Header) : State :=
  let i := s.streams.length
  let s := { s with streams := s.streams ++ [headers] }
  match h.streamType headers with
  | none => s
  | some t =>
    { s with
      ctx := h.receive s.ctx i t
      waiting := s.waiting ++ [i]
      deferred := if h.resets && t == .error then i :: s.deferred else s.deferred }

/-- The context is returned. -/
def returnContext (s : State) : Returned where
  result := .ok s.ctx
  closed := if h.resets then s.ctx.stdinStream else none
  reset := s.deferred

/-- The goroutine of the stream `i` notifies the loop of the reply. -/
def receiveReply (expectedStreams : ℕ) (s : State) (i : ℕ) : State :=
  let s := { s with
    waiting := s.waiting.erase i
    receivedStreams := s.receivedStreams + 1 }
  if s.receivedStreams = expectedStreams then
    { s with returned := some (h.returnContext s) }
  else s

end ProtocolHandler

/-- The timer has expired. -/
def expire (s : State) : State :=
  { s with
    returned := some
      { result := .error "timed out waiting for client to create streams"
        reset := s.deferred } }

/-- An iteration of the loop of `waitForStreams`. -/
inductive WaitStep (h : ProtocolHandler) (expectedStreams : ℕ) : State → State → Prop
  | stream {s : State} (hrun : s.returned = none) (headers : Header) :
    WaitStep h expectedStreams s (h.receiveStream s headers)
  | reply {s : State} (hrun : s.returned = none) {i : ℕ} (hi : i ∈ s.waiting) :
    WaitStep h expectedStreams s (h.receiveReply expectedStreams s i)
  | expired {s : State} (hrun : s.returned = none) :
    WaitStep h expectedStreams s (expire s)

/-- `waitForStreams` of a handler, for the streams of the options. -/
def waitForStreams (h : ProtocolHandler) (opts : Options) : System State where
  init s := s = {}
  step := WaitStep h (expectedStreams h opts)

/-! ## `ServeExec` and `ServeAttach` -/

/-- The call of `ctx.writeStatus`: `none` if it is nil, which is a panic. -/
def Context.callWriteStatus (e : Env) (ctx : Context) (status : Status) :
    Option (Option (ℕ × String)) :=
  ctx.writeStatus.map (·.call e status)

/-- An error of an executor. -/
inductive ExecError
  /-- A `utilexec.ExitError` of a process that has exited. -/
  | exited (exitStatus : ℤ) (text : Error)
  | other (text : Error)

/-- `ServeExec`, from the context that `createStreams` returns: the status that is
    written, `none` for the call of a nil function. -/
def serveExec (e : Env) (execInContainer : Context → Option ExecError) (ctx : Context) :
    Option (Option (ℕ × String)) :=
  match execInContainer ctx with
  | some (.exited rc text) =>
    ctx.callWriteStatus e
      { status := "Failure"
        reason := "NonZeroExitCode"
        message := "command terminated with non-zero exit code: " ++ text
        causes := [("ExitCode", toString rc)] }
  | some (.other text) =>
    ctx.callWriteStatus e (e.newInternalError ("error executing command in container: " ++ text))
  | none => ctx.callWriteStatus e { status := "Success" }

/-- `ServeAttach`, from the context that `createStreams` returns. -/
def serveAttach (e : Env) (attachContainer : Context → Option Error) (ctx : Context) :
    Option (Option (ℕ × String)) :=
  match attachContainer ctx with
  | some text =>
    ctx.callWriteStatus e (e.newInternalError ("error attaching to container: " ++ text))
  | none => ctx.callWriteStatus e { status := "Success" }

/-- The status is written on every path. -/
theorem isSome_serveExec (e : Env) (execInContainer : Context → Option ExecError)
    (ctx : Context) :
    (serveExec e execInContainer ctx).isSome ↔ ctx.writeStatus.isSome := by
  unfold serveExec
  split <;> simp [Context.callWriteStatus]

theorem isSome_serveAttach (e : Env) (attachContainer : Context → Option Error)
    (ctx : Context) :
    (serveAttach e attachContainer ctx).isSome ↔ ctx.writeStatus.isSome := by
  unfold serveAttach
  split <;> simp [Context.callWriteStatus]

/-! ## What the context holds -/

/-- The invariant of the loop. -/
structure Inv (h : ProtocolHandler) (expectedStreams : ℕ) (s : State) : Prop where
  /-- The context has a stream of each type that was received. -/
  stream : ∀ t, (s.ctx.stream t).isSome ↔ t ∈ h.received s.streams
  /-- Every stream with a case in the switch waits for its reply, or was counted. -/
  counted : s.receivedStreams + s.waiting.length = (h.received s.streams).length
  /-- The context is returned when the streams have been counted. -/
  result : ∀ r ∈ s.returned, ∀ ctx, r.result = .ok ctx →
    ctx = s.ctx ∧ s.receivedStreams = expectedStreams

section Steps

variable {h : ProtocolHandler} {expectedStreams : ℕ} {s : State}

theorem Inv.init : Inv h expectedStreams {} where
  stream t := by cases t <;> simp [Context.stream, ProtocolHandler.received]
  counted := rfl
  result _ hr := by simp at hr

/-- A stream is received, -/
theorem Inv.receiveStream (hinv : Inv h expectedStreams s) (hrun : s.returned = none)
    (headers : Header) : Inv h expectedStreams (h.receiveStream s headers) := by
  unfold ProtocolHandler.receiveStream
  cases ht : h.streamType headers with
  | none =>
    -- The default of the switch: the stream is dropped.
    have hrec : h.received (s.streams ++ [headers]) = h.received s.streams := by
      simp [ProtocolHandler.received, ht]
    exact
      { stream := fun t => by rw [hrec]; exact hinv.stream t
        counted := by rw [hrec]; exact hinv.counted
        result := hinv.result }
  | some t =>
    have hrec : h.received (s.streams ++ [headers]) = h.received s.streams ++ [t] := by
      simp [ProtocolHandler.received, ht]
    exact
      { stream := fun t' => by
          rw [h.isSome_stream_receive, hinv.stream, hrec, List.mem_append, List.mem_singleton]
        counted := by
          have hcount := hinv.counted
          simp only [hrec, List.length_append, List.length_singleton]
          omega
        result := fun r hr => by simp [hrun] at hr }

/-- or a reply. -/
theorem Inv.receiveReply (hinv : Inv h expectedStreams s) (hrun : s.returned = none) {i : ℕ}
    (hi : i ∈ s.waiting) : Inv h expectedStreams (h.receiveReply expectedStreams s i) := by
  have hcount : s.receivedStreams + 1 + (s.waiting.erase i).length =
      (h.received s.streams).length := by
    have hpos := List.length_pos_of_mem hi
    rw [List.length_erase_of_mem hi, ← hinv.counted]
    omega
  unfold ProtocolHandler.receiveReply
  by_cases hall : s.receivedStreams + 1 = expectedStreams
  · simp only [if_pos hall]
    exact
      { stream := hinv.stream
        counted := hcount
        result := fun r hr ctx hctx => by
          obtain rfl := Option.some.inj hr
          exact ⟨(Except.ok.inj hctx).symm, hall⟩ }
  · simp only [if_neg hall]
    exact
      { stream := hinv.stream
        counted := hcount
        result := fun r hr => by simp [hrun] at hr }

theorem Inv.expire (hinv : Inv h expectedStreams s) : Inv h expectedStreams (expire s) where
  stream := hinv.stream
  counted := hinv.counted
  result r hr ctx hctx := by
    obtain rfl := Option.some.inj hr
    exact absurd hctx (by simp)

theorem Inv.step {t : State} (hinv : Inv h expectedStreams s)
    (hst : WaitStep h expectedStreams s t) : Inv h expectedStreams t := by
  cases hst with
  | stream hrun headers => exact hinv.receiveStream hrun headers
  | reply hrun hi => exact hinv.receiveReply hrun hi
  | expired _ => exact hinv.expire

end Steps

theorem inv_reachable {h : ProtocolHandler} {opts : Options} {s : State}
    (hs : (waitForStreams h opts).Reachable s) : Inv h (expectedStreams h opts) s := by
  refine System.Invariant.reachable (S := waitForStreams h opts) ⟨?_, ?_⟩ hs
  · rintro _ rfl
    exact .init
  · exact fun _ _ hinv hst => hinv.step hst

/-- The streams that the client asked for have been set up. -/
structure Complete (v : Version) (opts : Options) (ctx : Context) : Prop where
  writeStatus : ctx.writeStatus.isSome
  stdin : opts.stdin → ctx.stdinStream.isSome
  stdout : opts.stdout → ctx.stdoutStream.isSome
  stderr : opts.stderr → ctx.stderrStream.isSome
  resize : opts.tty → v = .v3 ∨ v = .v4 → ctx.resizeStream.isSome

theorem supportsTerminalResizing_handler (v : Version) :
    v.handler.supportsTerminalResizing ↔ v = .v3 ∨ v = .v4 := by
  cases v <;> simp [Version.handler, v1ProtocolHandler, v2ProtocolHandler, v3ProtocolHandler,
    v4ProtocolHandler]

/-- The context is complete if each type has its stream. -/
theorem complete_iff {v : Version} {opts : Options} {ctx : Context} :
    Complete v opts ctx ↔ ∀ t ∈ expectedTypes v.handler opts, (ctx.stream t).isSome := by
  have hmem (t : StreamType) : t ∈ [StreamType.error, .stdin, .stdout, .stderr, .resize] := by
    cases t <;> decide
  constructor
  · intro hc t ht
    replace ht := (List.mem_filter.1 ht).2
    cases t with
    | error => simpa [Context.stream] using hc.writeStatus
    | stdin => exact hc.stdin ht
    | stdout => exact hc.stdout ht
    | stderr => exact hc.stderr ht
    | resize =>
      obtain ⟨htty, hresize⟩ := Bool.and_eq_true_iff.1 ht
      exact hc.resize htty ((supportsTerminalResizing_handler v).1 hresize)
  · intro hall
    exact
      { writeStatus := by
          simpa [Context.stream] using hall .error (List.mem_filter.2 ⟨hmem _, rfl⟩)
        stdin := fun ho => hall .stdin (List.mem_filter.2 ⟨hmem _, ho⟩)
        stdout := fun ho => hall .stdout (List.mem_filter.2 ⟨hmem _, ho⟩)
        stderr := fun ho => hall .stderr (List.mem_filter.2 ⟨hmem _, ho⟩)
        resize := fun ho hv => hall .resize (List.mem_filter.2 ⟨hmem _,
          Bool.and_eq_true_iff.2 ⟨ho, (supportsTerminalResizing_handler v).2 hv⟩⟩) }

/-! ## The streams that a client opens -/

/-- Some streams that come first are of the first types that are received. -/
theorem exists_prefix_received (h : ProtocolHandler) (streams : List Header) (k : ℕ) :
    ∃ l, l <+: streams ∧ h.received l = (h.received streams).take k := by
  induction streams generalizing k with
  | nil => exact ⟨[], List.prefix_rfl, by simp [ProtocolHandler.received]⟩
  | cons headers streams ih =>
    cases ht : h.streamType headers with
    | none =>
      obtain ⟨l, hl, hrec⟩ := ih k
      refine ⟨headers :: l, List.cons_prefix_cons.2 ⟨rfl, hl⟩, ?_⟩
      simpa [ProtocolHandler.received, List.filterMap_cons_none ht] using hrec
    | some t =>
      cases k with
      | zero => exact ⟨[], List.nil_prefix, by simp [ProtocolHandler.received]⟩
      | succ k =>
        obtain ⟨l, hl, hrec⟩ := ih k
        refine ⟨headers :: l, List.cons_prefix_cons.2 ⟨rfl, hl⟩, ?_⟩
        simpa [ProtocolHandler.received, List.filterMap_cons_some ht] using hrec

section Runs

variable {h : ProtocolHandler} {opts : Options}

/-- The client opens some streams before any reply is sent. -/
theorem exists_opened (h : ProtocolHandler) (opts : Options) (streams : List Header) :
    ∃ s, (waitForStreams h opts).Reachable s ∧ s.streams = streams ∧ s.returned = none ∧
      s.receivedStreams = 0 := by
  induction streams using List.reverseRec with
  | nil => exact ⟨{}, .of_init rfl, rfl, rfl, rfl⟩
  | append_singleton streams headers ih =>
    obtain ⟨s, hs, rfl, hrun, hzero⟩ := ih
    refine ⟨h.receiveStream s headers, hs.step (.stream hrun headers), ?_⟩
    unfold ProtocolHandler.receiveStream
    cases h.streamType headers with
    | none => exact ⟨rfl, hrun, hzero⟩
    | some t => exact ⟨rfl, hrun, hzero⟩

/-- If no more replies are to come than are missing, and they do come, the context is
    returned. -/
theorem exists_replied {s : State} (hs : (waitForStreams h opts).Reachable s)
    (hrun : s.returned = none) (hpos : s.waiting ≠ [])
    (hcount : s.receivedStreams + s.waiting.length = expectedStreams h opts) :
    ∃ s' r, (waitForStreams h opts).Reachable s' ∧ s'.streams = s.streams ∧
      s'.returned = some r ∧ r.result = .ok s.ctx := by
  -- By induction on the streams that wait: the last one returns.
  generalize hn : s.waiting.length = n at hcount
  induction n generalizing s with
  | zero => exact absurd (List.length_eq_zero_iff.1 hn) hpos
  | succ n ih =>
    obtain ⟨i, hi⟩ := List.exists_mem_of_ne_nil _ hpos
    have hstep := hs.step (WaitStep.reply hrun hi)
    let s₁ : State := { s with
      waiting := s.waiting.erase i
      receivedStreams := s.receivedStreams + 1 }
    have hlen : s₁.waiting.length = n := by
      rw [List.length_erase_of_mem hi, hn]
      rfl
    by_cases hall : s₁.receivedStreams = expectedStreams h opts
    · have heq : h.receiveReply (expectedStreams h opts) s i =
          { s₁ with returned := some (h.returnContext s₁) } := if_pos hall
      rw [heq] at hstep
      exact ⟨_, h.returnContext s₁, hstep, rfl, rfl, rfl⟩
    · have heq : h.receiveReply (expectedStreams h opts) s i = s₁ := if_neg hall
      have hcount₁ : s₁.receivedStreams + n = expectedStreams h opts := by
        rw [← hcount]
        exact Nat.add_right_comm _ _ _
      refine ih (s := s₁) (heq ▸ hstep) hrun (fun hnil => hall ?_) hlen hcount₁
      rw [hnil] at hlen
      rw [← hcount₁, ← hlen]
      rfl

theorem expectedStreams_pos (h : ProtocolHandler) (opts : Options) :
    0 < expectedStreams h opts := by
  unfold expectedStreams
  omega

/-- As many streams as are to be expected are enough for the context to be returned,
    with what is received of them. -/
theorem exists_returned {streams : List Header}
    (hlen : (h.received streams).length = expectedStreams h opts) :
    ∃ s r ctx, (waitForStreams h opts).Reachable s ∧ s.streams = streams ∧
      s.returned = some r ∧ r.result = .ok ctx := by
  obtain ⟨s, hs, rfl, hrun, hzero⟩ := exists_opened h opts streams
  have hcount := (inv_reachable hs).counted
  rw [hlen] at hcount
  have hpos : s.waiting ≠ [] := by
    intro hnil
    rw [hzero, hnil] at hcount
    exact absurd hcount (Nat.ne_of_lt (expectedStreams_pos h opts))
  obtain ⟨s', r, hs', hstreams, hr, hctx⟩ := exists_replied hs hrun hpos hcount
  exact ⟨s', r, s.ctx, hs', hstreams, hr, hctx⟩

/-- A context that is returned is that of the streams that were opened by then, which are
    as many as are to be expected at least. -/
theorem le_length_received {s : State} (hs : (waitForStreams h opts).Reachable s)
    {r : Returned} {ctx : Context} (hr : s.returned = some r) (hctx : r.result = .ok ctx) :
    ctx = s.ctx ∧ expectedStreams h opts ≤ (h.received s.streams).length := by
  have hinv := inv_reachable hs
  obtain ⟨hs', hcount⟩ := hinv.result r hr ctx hctx
  refine ⟨hs', ?_⟩
  rw [← hcount, ← hinv.counted]
  exact Nat.le_add_right _ _

end Runs

/-- The streams that the client asked for have been set up, and `ServeExec` and
    `ServeAttach` do not call a nil `writeStatus`. -/
def Served (v : Version) (opts : Options) (ctx : Context) : Prop :=
  Complete v opts ctx ∧ ∀ e : Env, (∀ execInContainer, (serveExec e execInContainer ctx).isSome) ∧
    ∀ attachContainer, (serveAttach e attachContainer ctx).isSome

/-- It can be served if each type was received. -/
theorem served_iff {v : Version} {opts : Options} {s : State}
    (hinv : Inv v.handler (expectedStreams v.handler opts) s) :
    Served v opts s.ctx ↔ expectedTypes v.handler opts ⊆ v.handler.received s.streams := by
  have hiff : Complete v opts s.ctx ↔
      expectedTypes v.handler opts ⊆ v.handler.received s.streams := by
    rw [complete_iff]
    exact forall₂_congr fun t _ => hinv.stream t
  rw [← hiff]
  refine ⟨And.left, fun hc => ⟨hc, fun e => ⟨fun _ => ?_, fun _ => ?_⟩⟩⟩
  · exact (isSome_serveExec e _ _).2 hc.writeStatus
  · exact (isSome_serveAttach e _ _).2 hc.writeStatus

/-- The first streams that the client opens, as many as are to be expected, are of the types
    to expect, one of each. Those that are of no type of the version do not count. -/
def OpensExpected (v : Version) (opts : Options) (opened : List Header) : Prop :=
  ((v.handler.received opened).take (expectedStreams v.handler opts)).Perm
    (expectedTypes v.handler opts)

/-- Whatever streams a client opens, and in whatever order the replies are sent: every context
    that `waitForStreams` may return has the streams that the client asked for exactly if it
    opens too few streams for one to be returned, or the first of them are those to expect. -/
theorem waitForStreams_complete_iff (v : Version) (opts : Options) (opened : List Header) :
    (∀ s, (waitForStreams v.handler opts).Reachable s → s.streams <+: opened →
      ∀ r ctx, s.returned = some r → r.result = .ok ctx → Served v opts ctx) ↔
      (v.handler.received opened).length < expectedStreams v.handler opts ∨
        OpensExpected v opts opened := by
  constructor
  · intro hall
    rw [or_iff_not_imp_left, Nat.not_lt]
    intro hle
    -- The run that returns as soon as it can.
    obtain ⟨l, hl, hrec⟩ := exists_prefix_received v.handler opened (expectedStreams v.handler opts)
    have hlen : (v.handler.received l).length = expectedStreams v.handler opts := by
      rw [hrec, List.length_take, Nat.min_eq_left hle]
    obtain ⟨s, r, ctx, hs, rfl, hr, hctx⟩ := exists_returned hlen
    obtain ⟨rfl, -⟩ := le_length_received hs hr hctx
    have hsub := (served_iff (inv_reachable hs)).1 (hall s hs hl r _ hr hctx)
    have hperm := ((nodup_expectedTypes v.handler opts).subperm hsub).perm_of_length_le
      (by rw [hlen, length_expectedTypes])
    rw [OpensExpected, ← hrec]
    exact hperm.symm
  · intro hopens s hs hpre r ctx hr hctx
    obtain ⟨rfl, hle⟩ := le_length_received hs hr hctx
    obtain ⟨l, hl⟩ : v.handler.received s.streams <+: v.handler.received opened :=
      hpre.filterMap _
    refine (served_iff (inv_reachable hs)).2 ?_
    rcases hopens with hlt | hperm
    · have hlen := congrArg List.length hl
      rw [List.length_append] at hlen
      omega
    · rw [OpensExpected, ← hl, List.take_append_of_le_length hle] at hperm
      exact fun t ht => List.mem_of_mem_take (hperm.mem_iff.2 ht)

/-- A client that asked for stdin. -/
def exampleOptions : Options := { stdin := true }

/-- The headers of a stream of a type. -/
def exampleHeaders (t : StreamType) : Header := Header.set ∅ streamTypeHeader t.value

/-- The client opens two streams, under the last version. -/
def exampleStreams (t t' : StreamType) : State :=
  v4ProtocolHandler.receiveStream (v4ProtocolHandler.receiveStream {} (exampleHeaders t))
    (exampleHeaders t')

/-- The replies are sent, that of the second stream first. -/
def exampleState (t t' : StreamType) : State :=
  v4ProtocolHandler.receiveReply 2 (v4ProtocolHandler.receiveReply 2 (exampleStreams t t') 1) 0

theorem exampleState_reachable (t t' : StreamType) :
    (waitForStreams Version.v4.handler exampleOptions).Reachable (exampleState t t') := by
  have htype (t : StreamType) : v4ProtocolHandler.streamType (exampleHeaders t) = some t := by
    cases t <;> decide
  have hexpected : expectedStreams Version.v4.handler exampleOptions = 2 := rfl
  have hstreams : (waitForStreams Version.v4.handler exampleOptions).Reachable
      (exampleStreams t t') := by
    refine System.Reachable.step (s := v4ProtocolHandler.receiveStream {} (exampleHeaders t)) ?_ ?_
    · exact (System.Reachable.of_init rfl).step (WaitStep.stream rfl _)
    · exact WaitStep.stream (by simp [ProtocolHandler.receiveStream, htype]) _
  refine (hstreams.step (WaitStep.reply ?_ (i := 1) ?_)).step (WaitStep.reply ?_ (i := 0) ?_) <;>
    simp [exampleStreams, ProtocolHandler.receiveStream, ProtocolHandler.receiveReply, htype,
      hexpected]

/-- The client opens the streams it asked for. -/
theorem waitForStreams_complete :
    ∀ s, (waitForStreams Version.v4.handler exampleOptions).Reachable s →
      s.streams <+: [exampleHeaders .stdin, exampleHeaders .error] →
      ∀ r ctx, s.returned = some r → r.result = .ok ctx → Served .v4 exampleOptions ctx :=
  (waitForStreams_complete_iff .v4 exampleOptions
    [exampleHeaders .stdin, exampleHeaders .error]).2 (.inr (by unfold OpensExpected; decide))

/-- The client opens the stdin stream twice: the error stream is not waited for, and
    the status of the command is written by a function that is nil. -/
theorem waitForStreams_of_stdin_twice :
    (waitForStreams Version.v4.handler exampleOptions).Reachable (exampleState .stdin .stdin) ∧
      (exampleState .stdin .stdin).streams = [exampleHeaders .stdin, exampleHeaders .stdin] ∧
      ∃ r ctx, (exampleState .stdin .stdin).returned = some r ∧ r.result = .ok ctx ∧
        ctx.writeStatus = none ∧
        ∀ e execInContainer, serveExec e execInContainer ctx = none := by
  refine ⟨exampleState_reachable _ _, rfl, _, _, rfl, rfl, rfl, fun e execInContainer => ?_⟩
  rw [← Option.not_isSome_iff_eq_none, isSome_serveExec]
  decide

end Apiserver.RemoteCommand
