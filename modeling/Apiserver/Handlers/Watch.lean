import Apiserver.Go.Channel
import Apiserver.Go.Encoding
import Apiserver.ResponseWriters.Negotiation
import Apiserver.Transition.System
import Mathlib.Data.List.Forall2

/-!
# Watches

A watch is served by sending the client what comes from a channel (`pkg/handlers/watch.go`): each
event is a frame of the body of the response, or a message on a websocket. The body is flushed
only when no other event waits in the channel, and so a frame may stay behind for some time.

The watcher that sends the events, the client, the timer and the server all run at the same time,
and a step is one of any of them.

* `Follows`, `follows_invariant`: what has been sent to the client is what the first events are
  encoded as, and what has not is in the hands of the server and in the channel;
* `frames_of_sent`: so the client sees the events in their order, and none of them twice;
* `waiting_flushed`: when the server waits for an event, the client has been sent all of them;
* `can_flush`: and the server gets there, if the client stays and the events can be encoded.
-/

namespace Apiserver.Handlers

open Go ResponseWriters Transition

variable {ε : Type}

/-! ## Starting to serve -/

/-- `runtime.Framer`: what makes a frame, if there is something. -/
structure Framer where
  newFrameWriter : Option (Bytes → Bytes)

/-- `runtime.StreamSerializerInfo`, and the other encoders, which have no framer. -/
structure Serializer (ε : Type) where
  framer : Option Framer := none
  encode : ε → Except Error Bytes

/-- `WatchServer`, short of the channel it serves. -/
structure WatchServer (ε : Type) where
  /-- The messages of a websocket are text. -/
  useTextFraming : Bool
  mediaType : String
  framer : Framer
  encoder : ε → Except Error Bytes
  /-- The time of `realTimeoutFactory`, where zero means that there is no timer. -/
  timeout : ℕ

/-- What is taken from golib and `goautoneg`. -/
structure Deps where
  quote : String → String
  parseAccept : String → List Clause
  newInternalError : Error → Error
  newBadRequest : Error → Error
  contentTypeJSON : String

variable (d : Deps)

/-- `ServeWatch`, up to the call of `ServeHTTP`. -/
def serveWatch (supported : List (SerializerInfo (Serializer ε))) (req : ResponseWriters.Request)
    (timeout : ℕ) : Except Error (WatchServer ε) := do
  let (serializer, streamSerializer) ←
    (negotiateOutputMediaTypeStream d.parseAccept req supported).mapError notAcceptableMessage
  match streamSerializer.framer with
  | none =>
    .error ("no framer defined for " ++ d.quote serializer.mediaType ++
      " available for embedded encoding")
  | some framer => .ok {
      useTextFraming := serializer.encodesAsText
      mediaType :=
        if serializer.mediaType ≠ d.contentTypeJSON then serializer.mediaType ++ ";stream=watch"
        else serializer.mediaType
      framer
      encoder := streamSerializer.encode
      timeout }

/-- How a watch is served. -/
inductive Transport
  /-- In the body of the response, with what makes a frame of it, -/
  | body (frame : Bytes → Bytes)
  /-- or over a websocket. -/
  | websocket

/-- `ServeHTTP`, up to the loop: the writer and its type may be able to flush, or not. -/
def WatchServer.serveHTTP (w : WatchServer ε) (isWebSocketRequest : Bool) (writer : String)
    (flusher : Bool) : Except Error Transport :=
  if isWebSocketRequest then .ok .websocket
  else if flusher = false then
    .error (d.newInternalError ("unable to start watch - can't get http.Flusher: " ++ writer))
  else match w.framer.newFrameWriter with
    | none =>
      .error (d.newBadRequest ("no stream framing support is available for media type " ++
        d.quote w.mediaType))
    | some frame => .ok (.body frame)

/-! ## The loops -/

/-- What is sent to a client. -/
inductive Frame
  | chunk (frame : Bytes)
  | text (message : Bytes)
  | binary (message : Bytes)
  deriving DecidableEq

/-- Where the server is. -/
inductive Loop (ε : Type)
  | selecting
  /-- It has got an event, -/
  | received (event : ε)
  /-- and has sent it. -/
  | sent
  | returned
  deriving DecidableEq

structure State (ε : Type) where
  /-- The channel of the watcher, -/
  ch : Channel ε
  /-- and what it has sent there. -/
  events : List ε
  loop : Loop ε := .selecting
  /-- The client is gone. -/
  done : Bool := false
  /-- The timer has fired. -/
  timedOut : Bool := false
  streamBuf : Bytes := []
  out : List Frame := []
  /-- How much of that has been flushed. -/
  flushed : ℕ := 0
  /-- The watcher is told to stop. -/
  stopped : Bool := false

/-- The deferred calls. -/
def State.ret (s : State ε) : State ε := { s with loop := .returned, stopped := true }

/-- `websocket.Message.Send`: a message for the bytes in the buffer. -/
def message (useTextFraming : Bool) (streamBuf : Bytes) : Frame :=
  if useTextFraming then .text streamBuf else .binary streamBuf

variable (w : WatchServer ε)

/-- Steps of the others: the watcher, the client and the timer. -/
inductive EnvStep : State ε → State ε → Prop
  | send {s : State ε} {e : ε} {ch : Channel ε} (hsend : s.ch.send e = some ch) :
    EnvStep s { s with ch, events := s.events ++ [e] }
  /-- A server that waits for an event is given it. -/
  | handOver {s : State ε} (e : ε) (hloop : s.loop = .selecting) (hbuffer : s.ch.buffer = [])
      (hclosed : s.ch.closed = false) :
    EnvStep s { s with loop := .received e, events := s.events ++ [e] }
  | close (s : State ε) : EnvStep s { s with ch := s.ch.close }
  | disconnect (s : State ε) : EnvStep s { s with done := true }
  | fire {s : State ε} (htimeout : w.timeout ≠ 0) : EnvStep s { s with timedOut := true }

/-- Steps of the server in both loops. -/
inductive LoopStep : State ε → State ε → Prop
  | done {s : State ε} (hloop : s.loop = .selecting) (hdone : s.done = true) : LoopStep s s.ret
  | ended {s : State ε} {ch : Channel ε} (hloop : s.loop = .selecting)
      (hrecv : s.ch.recv = some (none, ch)) : LoopStep s s.ret
  | receive {s : State ε} {e : ε} {ch : Channel ε} (hloop : s.loop = .selecting)
      (hrecv : s.ch.recv = some (some e, ch)) :
    LoopStep s { s with ch, loop := .received e }
  /-- An event cannot be encoded, or not be sent. Of the latter the client may have got a part. -/
  | fail {s : State ε} {e : ε} (hloop : s.loop = .received e) : LoopStep s s.ret

/-- Steps of `ServeHTTP` in its loop. -/
inductive BodyStep (frame : Bytes → Bytes) : State ε → State ε → Prop
  | timeout {s : State ε} (hloop : s.loop = .selecting) (htimedOut : s.timedOut = true) :
    BodyStep frame s s.ret
  | encode {s : State ε} {e : ε} {b : Bytes} (hloop : s.loop = .received e)
      (hencode : w.encoder e = .ok b) :
    BodyStep frame s { s with loop := .sent, out := s.out ++ [.chunk (frame b)] }
  | flush {s : State ε} (hloop : s.loop = .sent) :
    BodyStep frame s { s with
      loop := .selecting
      flushed := if s.ch.buffer.length = 0 then s.out.length else s.flushed }

/-- Steps of `HandleWS`. -/
inductive WebsocketStep : State ε → State ε → Prop
  | send {s : State ε} {e : ε} {b : Bytes} (hloop : s.loop = .received e)
      (hencode : w.encoder e = .ok b) :
    WebsocketStep s { s with
      loop := .sent
      streamBuf := s.streamBuf ++ b
      out := s.out ++ [message w.useTextFraming (s.streamBuf ++ b)]
      -- A message is sent at once.
      flushed := s.out.length + 1 }
  | reset {s : State ε} (hloop : s.loop = .sent) :
    WebsocketStep s { s with loop := .selecting, streamBuf := [] }

inductive Step : Transport → State ε → State ε → Prop
  | env {t : Transport} {s s' : State ε} (h : EnvStep w s s') : Step t s s'
  | loop {t : Transport} {s s' : State ε} (h : LoopStep s s') : Step t s s'
  | body {frame : Bytes → Bytes} {s s' : State ε} (h : BodyStep w frame s s') :
    Step (.body frame) s s'
  | websocket {s s' : State ε} (h : WebsocketStep w s s') : Step .websocket s s'

/-- A watch that is served, by a watcher that may have sent events before that. -/
def system (t : Transport) : System (State ε) where
  init s := ∃ ch done, s = { ch, events := ch.buffer, done }
  step := Step w t

/-! ## What the client is sent -/

/-- What the client is sent for an event. -/
inductive Framed (encoder : ε → Except Error Bytes) (useTextFraming : Bool) :
    Transport → ε → Frame → Prop
  | body {frame : Bytes → Bytes} {e : ε} {b : Bytes} (h : encoder e = .ok b) :
    Framed encoder useTextFraming (.body frame) e (.chunk (frame b))
  | websocket {e : ε} {b : Bytes} (h : encoder e = .ok b) :
    Framed encoder useTextFraming .websocket e (message useTextFraming b)

/-- The client has been sent the events, and nothing else. -/
def Sent (t : Transport) (events : List ε) (out : List Frame) : Prop :=
  List.Forall₂ (Framed w.encoder w.useTextFraming t) events out

/-- The event in the hands of the server. -/
def Loop.pending : Loop ε → List ε
  | .received e => [e]
  | _ => []

structure Follows (t : Transport) (s : State ε) : Prop where
  /-- What was sent to the client is for the first events, -/
  framed : Sent w t (s.events.take s.out.length) s.out
  /-- and the others are with the server, or in the channel. -/
  pending : s.loop ≠ .returned → s.events.drop s.out.length = s.loop.pending ++ s.ch.buffer
  flushed_le : s.flushed ≤ s.out.length
  /-- What is not flushed waits for an event that is in the channel. -/
  flushed : s.loop = .selecting → s.ch.buffer = [] → s.flushed = s.out.length
  messages : t = .websocket → s.flushed = s.out.length
  /-- The message for an event is not in the buffer any more when there is another event. -/
  streamBuf : t = .websocket → s.loop ≠ .sent → s.streamBuf = []

variable {w} {t : Transport} {s s' : State ε} {e : ε}

theorem Follows.length_le (h : Follows w t s) : s.out.length ≤ s.events.length := by
  have hlength := h.framed.length_eq
  rw [List.length_take] at hlength
  omega

/-- Another event does not change what the first ones are. -/
theorem Follows.take_append (h : Follows w t s) :
    (s.events ++ [e]).take s.out.length = s.events.take s.out.length :=
  List.take_append_of_le_length h.length_le

theorem Follows.drop_append (h : Follows w t s) :
    (s.events ++ [e]).drop s.out.length = s.events.drop s.out.length ++ [e] :=
  List.drop_append_of_le_length h.length_le

/-- The next event is sent to the client. -/
theorem Follows.next {f : Frame} (h : Follows w t s) (hloop : s.loop = .received e)
    (hf : Framed w.encoder w.useTextFraming t e f) :
    Sent w t (s.events.take (s.out.length + 1)) (s.out ++ [f]) ∧
      s.events.drop (s.out.length + 1) = s.ch.buffer := by
  have hpending := h.pending (by simp [hloop])
  rw [hloop] at hpending
  change s.events.drop s.out.length = e :: s.ch.buffer at hpending
  constructor
  · rw [List.take_add, hpending]
    exact List.rel_append h.framed (.cons hf .nil)
  · rw [← List.drop_drop, hpending]
    rfl

theorem Follows.ret (h : Follows w t s) (hloop : s.loop ≠ .sent) : Follows w t s.ret where
  framed := h.framed
  pending hret := absurd rfl hret
  flushed_le := h.flushed_le
  flushed hret := by cases hret
  messages := h.messages
  streamBuf ht _ := h.streamBuf ht hloop

/-- What the watcher and the client do leaves the frames as they are. -/
theorem Follows.env (h : Follows w t s) (hstep : EnvStep w s s') : Follows w t s' := by
  cases hstep with
  | @send e ch hsend =>
    have hbuffer := Channel.buffer_of_send hsend
    refine { h with framed := ?_, pending := fun hloop => ?_, flushed := fun _ hempty => ?_ }
    · rw [h.take_append]
      exact h.framed
    · rw [h.drop_append, h.pending hloop, hbuffer, List.append_assoc]
    · simp [hbuffer] at hempty
  | handOver e hloop hbuffer hclosed =>
    refine { h with
      framed := ?_
      pending := fun _ => ?_
      flushed := fun hloop' => ?_
      streamBuf := fun ht _ => h.streamBuf ht (by simp [hloop]) }
    · rw [h.take_append]
      exact h.framed
    · rw [h.drop_append, h.pending (by simp [hloop]), hloop, hbuffer]
      rfl
    · cases hloop'
  | close => exact { h with }
  | disconnect => exact { h with }
  | fire => exact { h with }

/-- The loop takes an event at a time. -/
theorem Follows.loop (h : Follows w t s) (hstep : LoopStep s s') : Follows w t s' := by
  cases hstep with
  | done hloop => exact h.ret (by simp [hloop])
  | ended hloop => exact h.ret (by simp [hloop])
  | @receive e ch hloop hrecv =>
    refine { h with
      pending := fun _ => ?_
      flushed := fun hloop' => ?_
      streamBuf := fun ht _ => h.streamBuf ht (by simp [hloop]) }
    · rw [h.pending (by simp [hloop]), hloop, Channel.buffer_of_recv hrecv]
      rfl
    · cases hloop'
  | fail hloop => exact h.ret (by simp [hloop])

/-- A body gets a frame for an event. -/
theorem Follows.body {frame : Bytes → Bytes} (h : Follows w (.body frame) s)
    (hstep : BodyStep w frame s s') : Follows w (.body frame) s' := by
  cases hstep with
  | timeout hloop => exact h.ret (by simp [hloop])
  | @encode e b hloop hencode =>
    obtain ⟨hframed, hdrop⟩ := h.next hloop (.body hencode)
    have hlength : (s.out ++ [Frame.chunk (frame b)]).length = s.out.length + 1 :=
      List.length_append
    exact {
      framed := by rwa [hlength]
      pending := fun _ => by rwa [hlength]
      flushed_le := by
        rw [hlength]
        exact h.flushed_le.trans (Nat.le_succ _)
      flushed := fun hloop' => by cases hloop'
      messages := fun ht => by cases ht
      streamBuf := fun ht => by cases ht }
  | flush hloop =>
    refine { h with
      pending := fun _ => ?_
      flushed_le := ?_
      flushed := fun _ hempty => ?_
      messages := fun ht => by cases ht
      streamBuf := fun ht => by cases ht }
    · rw [h.pending (by simp [hloop]), hloop]
      rfl
    · dsimp only
      split_ifs
      · exact le_rfl
      · exact h.flushed_le
    · -- The channel was empty when the server looked, and so all is flushed.
      exact if_pos (by rw [hempty]; rfl)

/-- A websocket gets a message for an event. -/
theorem Follows.websocket (h : Follows w .websocket s) (hstep : WebsocketStep w s s') :
    Follows w .websocket s' := by
  cases hstep with
  | @send e b hloop hencode =>
    -- The buffer was reset after the last message, so that this one is of the event alone.
    have hbuf : s.streamBuf = [] := h.streamBuf rfl (by simp [hloop])
    obtain ⟨hframed, hdrop⟩ := h.next hloop (.websocket hencode)
    have hlength : (s.out ++ [message w.useTextFraming (s.streamBuf ++ b)]).length =
        s.out.length + 1 := List.length_append
    exact {
      framed := by
        rw [hlength, hbuf]
        exact hframed
      pending := fun _ => by rwa [hlength]
      flushed_le := hlength.ge
      flushed := fun hloop' => by cases hloop'
      messages := fun _ => hlength.symm
      streamBuf := fun _ hloop' => absurd rfl hloop' }
  | reset hloop =>
    refine { h with
      pending := fun _ => ?_
      flushed := fun _ _ => h.messages rfl
      streamBuf := fun _ _ => rfl }
    rw [h.pending (by simp [hloop]), hloop]
    rfl

/-- The invariant. -/
theorem follows_invariant (w : WatchServer ε) (t : Transport) :
    (system w t).Invariant (Follows w t) where
  init s := by
    rintro ⟨ch, done, rfl⟩
    exact ⟨.nil, fun _ => rfl, le_rfl, fun _ _ => rfl, fun _ => rfl, fun _ _ => rfl⟩
  step s s' h hstep := by
    cases hstep with
    | env hstep => exact h.env hstep
    | loop hstep => exact h.loop hstep
    | body hstep => exact h.body hstep
    | websocket hstep => exact h.websocket hstep

/-- The server has the encoder for streams of the media type that is chosen. -/
theorem chosen_of_serveWatch {d : Deps} {supported : List (SerializerInfo (Serializer ε))}
    {req : ResponseWriters.Request} {timeout : ℕ} (h : serveWatch d supported req timeout = .ok w) :
    ∃ accepts stream, Chosen d.parseAccept req supported accepts ∧
      accepts.streamSerializer = some stream ∧ w.encoder = stream.encode := by
  obtain ⟨⟨accepts, stream⟩, hnegotiate, hserve⟩ := bind_eq_ok h
  obtain ⟨hchosen, hstream⟩ := chosen_of_negotiateOutputMediaTypeStream
    (mapError_eq_ok.1 hnegotiate)
  refine ⟨accepts, stream, hchosen, hstream, ?_⟩
  dsimp only at hserve
  split at hserve
  · cases hserve
  · cases hserve
    rfl

/-- The client is sent the first events in their order, each of them once, encoded as a stream of
    the media type that is chosen for its request. -/
theorem frames_of_sent (d : Deps) (supported : List (SerializerInfo (Serializer ε)))
    (req : ResponseWriters.Request) (timeout : ℕ) (w : WatchServer ε) (t : Transport)
    (s : State ε) (hserve : serveWatch d supported req timeout = .ok w)
    (h : (system w t).Reachable s) :
    ∃ accepts stream first, Chosen d.parseAccept req supported accepts ∧
      accepts.streamSerializer = some stream ∧ first <+: s.events ∧
      List.Forall₂ (Framed stream.encode w.useTextFraming t) first s.out ∧
      s.flushed ≤ s.out.length := by
  obtain ⟨accepts, stream, hchosen, hstream, hencoder⟩ := chosen_of_serveWatch hserve
  have hfollows := (follows_invariant w t).reachable h
  have hsent := hfollows.framed
  rw [Sent, hencoder] at hsent
  exact ⟨accepts, stream, _, hchosen, hstream, List.take_prefix _ _, hsent,
    hfollows.flushed_le⟩

def exampleDeps : Deps where
  quote text := text
  parseAccept _ := []
  newInternalError err := err
  newBadRequest err := err
  contentTypeJSON := "application/json"

/-- Bytes that are sent as they are, -/
def exampleSerializer : Serializer UInt8 where
  framer := some ⟨some id⟩
  encode e := .ok [e]

def exampleSupported : List (SerializerInfo (Serializer UInt8)) :=
  [⟨"application/json", "application", "json", true, exampleSerializer, none,
    some exampleSerializer⟩]

/-- and the server for them. -/
def exampleServer : WatchServer UInt8 where
  useTextFraming := true
  mediaType := "application/json"
  framer := ⟨some id⟩
  encoder e := .ok [e]
  timeout := 0

/-- An event that waits in the channel, -/
def oneWaiting : State UInt8 where
  ch := ⟨2, [1], false, by decide⟩
  events := [1]

/-- and the state after it has been sent. -/
def oneSent : State UInt8 where
  ch := ⟨2, [], false, by decide⟩
  events := [1]
  out := [.chunk [1]]
  flushed := 1

theorem reachable_oneWaiting : (system exampleServer (.body id)).Reachable oneWaiting :=
  .of_init ⟨_, _, rfl⟩

theorem reachable_oneSent : (system exampleServer (.body id)).Reachable oneSent :=
  have hreceived := reachable_oneWaiting.step (.loop (.receive rfl rfl))
  have hencoded := hreceived.step (.body (.encode rfl rfl))
  hencoded.step (.body (.flush rfl))

theorem frames_of_sent_one :
    ∃ accepts stream first, Chosen exampleDeps.parseAccept {} exampleSupported accepts ∧
      accepts.streamSerializer = some stream ∧ first <+: oneSent.events ∧
      List.Forall₂ (Framed stream.encode true (.body id)) first oneSent.out ∧
      oneSent.flushed ≤ oneSent.out.length :=
  frames_of_sent exampleDeps exampleSupported {} 0 exampleServer (.body id) oneSent rfl
    reachable_oneSent

/-- All events are with the client if there are none with the server and in the channel. -/
theorem Follows.framed_events (h : Follows w t s) (hloop : s.loop = .selecting)
    (hbuffer : s.ch.buffer = []) : Sent w t s.events s.out := by
  have hpending := h.pending (by simp [hloop])
  rw [hloop, hbuffer] at hpending
  have htake : s.events.take s.out.length = s.events := by
    have happend := List.take_append_drop s.out.length s.events
    rwa [hpending, show Loop.selecting.pending ++ [] = ([] : List ε) from rfl,
      List.append_nil] at happend
  rw [← htake]
  exact h.framed

/-- A server that waits for an event has sent and flushed all there were. -/
theorem waiting_flushed (w : WatchServer ε) (t : Transport) (s : State ε)
    (h : (system w t).Reachable s) (hloop : s.loop = .selecting) (hbuffer : s.ch.buffer = []) :
    Sent w t s.events s.out ∧ s.flushed = s.out.length :=
  have hfollows := (follows_invariant w t).reachable h
  ⟨hfollows.framed_events hloop hbuffer, hfollows.flushed hloop hbuffer⟩

theorem waiting_flushed_one :
    Sent exampleServer (.body id) oneSent.events oneSent.out ∧
      oneSent.flushed = oneSent.out.length :=
  waiting_flushed exampleServer (.body id) oneSent reachable_oneSent rfl rfl

/-! ## Getting there -/

/-- The steps the server has to take for the events it has. -/
def State.work (s : State ε) : ℕ :=
  3 * s.ch.buffer.length +
    match s.loop with
    | .selecting => 0
    | .received _ => 2
    | .sent => 1
    | .returned => 0

/-- There is a step to take, if the events can be encoded. -/
theorem exists_step (h : Follows w t s) (hreturned : s.loop ≠ .returned)
    (hencode : ∀ e ∈ s.events, ∃ b, w.encoder e = .ok b)
    (hgoal : ¬ (s.loop = .selecting ∧ s.ch.buffer = [])) :
    ∃ s', Step w t s s' ∧ s'.events = s.events ∧ s'.loop ≠ .returned ∧ s'.work < s.work := by
  cases hloop : s.loop with
  | selecting =>
    -- There is another event, or the server would be where it should get.
    obtain ⟨e, ch, hrecv⟩ := Channel.exists_recv fun hbuffer => hgoal ⟨hloop, hbuffer⟩
    refine ⟨_, .loop (.receive hloop hrecv), rfl, by simp, ?_⟩
    have hlength := congrArg List.length (Channel.buffer_of_recv hrecv)
    simp only [State.work, hloop, hlength, List.length_cons]
    omega
  | received e =>
    have hmem : e ∈ s.events := by
      have hpending := h.pending hreturned
      rw [hloop] at hpending
      refine List.mem_of_mem_drop (i := s.out.length) ?_
      rw [hpending]
      exact List.mem_cons_self
    obtain ⟨b, hb⟩ := hencode e hmem
    cases t with
    | body frame =>
      refine ⟨_, .body (.encode hloop hb), rfl, by simp, ?_⟩
      simp [State.work, hloop]
    | websocket =>
      refine ⟨_, .websocket (.send hloop hb), rfl, by simp, ?_⟩
      simp [State.work, hloop]
  | sent =>
    cases t with
    | body frame =>
      refine ⟨_, .body (.flush hloop), rfl, by simp, ?_⟩
      simp [State.work, hloop]
    | websocket =>
      refine ⟨_, .websocket (.reset hloop), rfl, by simp, ?_⟩
      simp [State.work, hloop]
  | returned => exact absurd hloop hreturned

/-- As long as the server serves, it can get all the events there are to the client, if they can
    be encoded. -/
theorem can_flush (w : WatchServer ε) (t : Transport) (s : State ε)
    (h : (system w t).Reachable s) (hreturned : s.loop ≠ .returned)
    (hencode : ∀ e ∈ s.events, ∃ b, w.encoder e = .ok b) :
    ∃ s', (system w t).Run s s' ∧ s'.events = s.events ∧
      Sent w t s.events s'.out ∧ s'.flushed = s'.out.length := by
  have hmeasure := System.exists_run_of_measure (S := system w t)
    (I := fun s' => Follows w t s' ∧ s'.events = s.events ∧ s'.loop ≠ .returned)
    (P := fun s' => s'.loop = .selecting ∧ s'.ch.buffer = []) State.work (fun u hu hgoal => by
      obtain ⟨hfollows, hevents, hloop⟩ := hu
      obtain ⟨u', hstep, hevents', hloop', hwork⟩ :=
        exists_step hfollows hloop (hevents ▸ hencode) hgoal
      exact ⟨u', hstep, ⟨(follows_invariant w t).step _ _ hfollows hstep,
        hevents'.trans hevents, hloop'⟩, hwork⟩)
    ⟨(follows_invariant w t).reachable h, rfl, hreturned⟩
  obtain ⟨s', hrun, ⟨hfollows, hevents, -⟩, hloop, hbuffer⟩ := hmeasure
  exact ⟨s', hrun, hevents, hevents ▸ hfollows.framed_events hloop hbuffer,
    hfollows.flushed hloop hbuffer⟩

theorem can_flush_one :
    ∃ s', (system exampleServer (.body id)).Run oneWaiting s' ∧ s'.events = [1] ∧
      Sent exampleServer (.body id) [1] s'.out ∧
      s'.flushed = s'.out.length :=
  can_flush exampleServer (.body id) oneWaiting reachable_oneWaiting (by simp [oneWaiting])
    fun e _ => ⟨[e], rfl⟩

end Apiserver.Handlers
