import Apiserver.Basic
import Apiserver.Go.Http
import Apiserver.Transition.System
import Apiserver.Transition.Table

/-!
# Port forwarding

A client forwards ports over one connection (`pkg/streaming/portforward/httpstream.go`).
For every forwarded connection it opens a data stream and an error stream with
one request id. The server pairs them: the loop of `run` takes the streams that
have been accepted one by one, looks for a pair with the id of the stream or makes
one, and adds the stream to it; a pair that is complete is forwarded by a
goroutine of its own. Another one monitors each pair: when the pair is complete,
or when it has waited too long, it removes what is registered under the id of the
pair.

This is a transition system, where a step is one of the loop, a monitor or a
goroutine that forwards. A stream, a pair and a goroutine are told by their
indices: streams in the order they arrive in, pairs as they are made.

* `Registered`: a pair is registered under its id until its monitor is done;
* `Assigned`: a stream is in one pair at most, which has its id;
* `Forwarded`: a pair is complete when it is forwarded, and is so once;
* `reachable_safe`: what follows for the calls of `PortForward`.
-/

namespace Apiserver.PortForward

open Go Transition

/-! ## Streams -/

/-- Headers of golib. -/
def portHeader : String := "port"
def streamTypeHeader : String := "streamType"
def requestIDHeader : String := "requestID"
def streamTypeError : String := "error"
def streamTypeData : String := "data"

/-- `httpstream.Stream`. -/
structure Stream where
  headers : Header
  identifier : ℕ

def Stream.streamType (stream : Stream) : String := stream.headers.get streamTypeHeader

/-- `strconv.ParseUint` in base 10, of what is left of a text, up to a maximum. -/
def parseUintLoop (maxVal : ℕ) : List Char → ℕ → Except Error ℕ
  | [], n => .ok n
  | c :: l, n =>
    if c.isDigit then
      let n := n * 10 + (c.toNat - '0'.toNat)
      if n > maxVal then .error "value out of range" else parseUintLoop maxVal l n
    else .error "invalid syntax"

/-- `strconv.ParseUint` of a text that is not empty, with 16 bits. -/
def parseUint16 (d : Deps) (s : String) : Except Error ℕ :=
  (parseUintLoop 65535 s.toList 0).mapError
    ("strconv.ParseUint: parsing " ++ d.quote s ++ ": " ++ ·)

/-- The check of the port of a stream. -/
def checkPort (d : Deps) (stream : Stream) : Option Error :=
  let portString := stream.headers.get portHeader
  if portString.isEmpty then some (d.quote portHeader ++ " header is required")
  else match parseUint16 d portString with
    | .error err => some ("unable to parse " ++ d.quote portString ++ " as a port: " ++ err)
    | .ok port =>
      if port < 1 then some ("port " ++ d.quote portString ++ " must be > 0") else none

/-- The check of the type of a stream. -/
def checkStreamType (d : Deps) (stream : Stream) : Option Error :=
  let streamType := stream.streamType
  if streamType.isEmpty then some (d.quote streamTypeHeader ++ " header is required")
  else if streamType ≠ streamTypeError ∧ streamType ≠ streamTypeData then
    some ("invalid stream type " ++ d.quote streamType)
  else none

/-- `httpStreamReceived`: the error a stream is rejected with. -/
def httpStreamReceived (d : Deps) (stream : Stream) : Option Error :=
  (checkPort d stream).or (checkStreamType d stream)

/-- `requestID`: the id of a stream, made of its identifier for older clients. -/
def Stream.requestID (stream : Stream) : String :=
  let requestID := stream.headers.get requestIDHeader
  if requestID.isEmpty then
    if stream.streamType = streamTypeError then toString (stream.identifier : ℤ)
    else if stream.streamType = streamTypeData then toString ((stream.identifier : ℤ) - 2)
    else requestID
  else requestID

/-! ## Pairs -/

/-- `httpStreamPair`. -/
structure StreamPair where
  requestID : String
  dataStream : Option ℕ := none
  errorStream : Option ℕ := none
  /-- How often the channel `complete` has been closed. -/
  closed : ℕ := 0

/-- The stream of a type in a pair. -/
def StreamPair.slot (p : StreamPair) (streamType : String) : Option ℕ :=
  if streamType = streamTypeError then p.errorStream
  else if streamType = streamTypeData then p.dataStream
  else none

/-- The first part of `add`: the stream is assigned. -/
def StreamPair.assign (p : StreamPair) (k : ℕ) (streamType : String) : Except Error StreamPair :=
  if streamType = streamTypeError then
    if p.errorStream.isSome then .error "error stream already assigned"
    else .ok { p with errorStream := some k }
  else if streamType = streamTypeData then
    if p.dataStream.isSome then .error "data stream already assigned"
    else .ok { p with dataStream := some k }
  else .ok p

/-- Both streams have been assigned. -/
def StreamPair.isComplete (p : StreamPair) : Bool := p.errorStream.isSome && p.dataStream.isSome

/-- `add`: the pair after it, and whether it is complete. -/
def StreamPair.add (p : StreamPair) (k : ℕ) (streamType : String) :
    StreamPair × Except Error Bool :=
  match p.assign k streamType with
  | .error err => (p, .error err)
  | .ok p =>
    if p.isComplete then ({ p with closed := p.closed + 1 }, .ok true) else (p, .ok false)

/-! ## The handler -/

/-- Where the loop of `run` is. -/
inductive Loop
  | idle
  /-- It has received a stream. -/
  | received (k : ℕ)
  /-- It has a pair for the stream, which may have been made for it. -/
  | found (k p : ℕ) (created : Bool)
  /-- It adds the stream to the pair. -/
  | adding (k p : ℕ)
  /-- The pair is complete, and is to be forwarded. -/
  | completed (p : ℕ)

/-- Where the monitor of a pair is. -/
inductive Monitor
  | unstarted
  | waiting
  /-- It has been woken, and is to remove its pair. -/
  | removing
  | done
  deriving DecidableEq

/-- A pair, and its monitor. -/
structure Entry where
  pair : StreamPair
  monitor : Monitor

/-- A goroutine that forwards a pair: the data stream and the error stream it has
    called `PortForward` with. -/
structure Forward where
  pair : ℕ
  call : Option (Option ℕ × Option ℕ) := none

/-- The handler of a connection. -/
structure State where
  /-- The streams that have been accepted. -/
  streams : List Stream := []
  /-- The pairs that have been made. -/
  pairs : List Entry := []
  streamPairs : AList fun _ : String => ℕ := ∅
  loop : Loop := .idle
  forwards : List Forward := []
  /-- The streams that have been rejected by a pair. -/
  rejected : List (ℕ × ℕ) := []
  /-- The pairs whose monitors have removed a pair, and what they removed. -/
  removed : List (ℕ × Option ℕ) := []

/-- `getStreamPair`, for a stream with an id. -/
def State.getStreamPair (s : State) (k : ℕ) (requestID : String) : State :=
  match s.streamPairs.lookup requestID with
  | some p => { s with loop := .found k p false }
  | none =>
    { s with
      pairs := s.pairs ++ [{ pair := { requestID }, monitor := .unstarted }]
      streamPairs := s.streamPairs.insert requestID s.pairs.length
      loop := .found k s.pairs.length true }

/-- What the loop does after `add`. -/
def State.added (s : State) (k p : ℕ) (e : Entry) : StreamPair × Except Error Bool → State
  | (pair, .error _) =>
    { s with
      pairs := s.pairs.set p { e with pair }
      loop := .idle
      rejected := s.rejected ++ [(k, p)] }
  | (pair, .ok true) =>
    { s with pairs := s.pairs.set p { e with pair }, loop := .completed p }
  | (pair, .ok false) => { s with pairs := s.pairs.set p { e with pair }, loop := .idle }

/-- A step of the loop. -/
inductive LoopStep (d : Deps) : State → State → Prop
  | receive {s : State} (stream : Stream) (hloop : s.loop = .idle)
      (hreceived : httpStreamReceived d stream = none) :
      LoopStep d s { s with
        streams := s.streams ++ [stream]
        loop := .received s.streams.length }
  | getStreamPair {s : State} {k : ℕ} {stream : Stream} (hloop : s.loop = .received k)
      (hk : s.streams[k]? = some stream) : LoopStep d s (s.getStreamPair k stream.requestID)
  | startMonitor {s : State} {k p : ℕ} {e : Entry} (hloop : s.loop = .found k p true)
      (hp : s.pairs[p]? = some e) :
      LoopStep d s { s with
        pairs := s.pairs.set p { e with monitor := .waiting }
        loop := .adding k p }
  | noMonitor {s : State} {k p : ℕ} (hloop : s.loop = .found k p false) :
      LoopStep d s { s with loop := .adding k p }
  | add {s : State} {k p : ℕ} {stream : Stream} {e : Entry} (hloop : s.loop = .adding k p)
      (hk : s.streams[k]? = some stream) (hp : s.pairs[p]? = some e) :
      LoopStep d s (s.added k p e (e.pair.add k stream.streamType))
  | forward {s : State} {p : ℕ} (hloop : s.loop = .completed p) :
      LoopStep d s { s with forwards := s.forwards ++ [{ pair := p }], loop := .idle }

/-- A step of a monitor, or of a goroutine that forwards. -/
inductive OtherStep : State → State → Prop
  | timeout {s : State} {p : ℕ} {e : Entry} (hp : s.pairs[p]? = some e)
      (hmonitor : e.monitor = .waiting) :
      OtherStep s { s with pairs := s.pairs.set p { e with monitor := .removing } }
  | complete {s : State} {p : ℕ} {e : Entry} (hp : s.pairs[p]? = some e)
      (hmonitor : e.monitor = .waiting) (hclosed : e.pair.closed ≠ 0) :
      OtherStep s { s with pairs := s.pairs.set p { e with monitor := .removing } }
  | remove {s : State} {p : ℕ} {e : Entry} (hp : s.pairs[p]? = some e)
      (hmonitor : e.monitor = .removing) :
      OtherStep s { s with
        pairs := s.pairs.set p { e with monitor := .done }
        streamPairs := s.streamPairs.erase e.pair.requestID
        removed := s.removed ++ [(p, s.streamPairs.lookup e.pair.requestID)] }
  | portForward {s : State} {f p : ℕ} {e : Entry} (hf : s.forwards[f]? = some { pair := p })
      (hp : s.pairs[p]? = some e) :
      OtherStep s { s with
        forwards := s.forwards.set f
          { pair := p, call := some (e.pair.dataStream, e.pair.errorStream) } }

/-- The handler. -/
def system (d : Deps) : System State where
  init s := s = {}
  step s t := LoopStep d s t ∨ OtherStep s t

/-! ## Adding a stream -/

/-- Accepted streams are data or error streams. -/
theorem streamType_of_received {d : Deps} {stream : Stream}
    (h : httpStreamReceived d stream = none) :
    stream.streamType = streamTypeError ∨ stream.streamType = streamTypeData := by
  have htype := (Option.or_eq_none_iff.1 h).2
  rw [checkStreamType] at htype
  split_ifs at htype with _ hne
  by_contra hor
  exact hne (not_or.1 hor)

/-- What `add` does with a stream of a type. -/
inductive Added (p : StreamPair) (k : ℕ) (streamType : String) :
    StreamPair × Except Error Bool → Prop
  /-- There is a stream of the type already. -/
  | assigned (err : Error) (hslot : p.slot streamType ≠ none) :
      Added p k streamType (p, .error err)
  | fresh {q : StreamPair} (hslot : p.slot streamType = none) (hid : q.requestID = p.requestID)
      (hslots : ∀ u, q.slot u = if u = streamType then some k else p.slot u) :
      Added p k streamType
        ({ q with closed := p.closed + if q.isComplete then 1 else 0 }, .ok q.isComplete)

variable {streamType : String}

/-- Assigning a stream to a slot that is free. -/
theorem assign_of_slot_eq_none {p : StreamPair} (k : ℕ)
    (htype : streamType = streamTypeError ∨ streamType = streamTypeData)
    (hslot : p.slot streamType = none) :
    ∃ q, p.assign k streamType = .ok q ∧ q.requestID = p.requestID ∧ q.closed = p.closed ∧
      ∀ u, q.slot u = if u = streamType then some k else p.slot u := by
  have hne : streamTypeData ≠ streamTypeError := by decide
  rcases htype with rfl | rfl
  · have hslot : p.errorStream = none := by simpa [StreamPair.slot] using hslot
    refine ⟨{ p with errorStream := some k }, by simp [StreamPair.assign, hslot], rfl, rfl, ?_⟩
    intro u
    by_cases hu : u = streamTypeError <;> simp [StreamPair.slot, hu]
  · have hslot : p.dataStream = none := by simpa [StreamPair.slot, hne] using hslot
    refine ⟨{ p with dataStream := some k }, by simp [StreamPair.assign, hslot, hne], rfl, rfl, ?_⟩
    intro u
    by_cases hu : u = streamTypeData <;> simp [StreamPair.slot, hu, hne]

theorem assign_of_slot_ne_none {p : StreamPair} (k : ℕ) (hslot : p.slot streamType ≠ none) :
    ∃ err, p.assign k streamType = .error err := by
  rw [StreamPair.slot] at hslot
  rw [StreamPair.assign]
  rw [← Option.isSome_iff_ne_none] at hslot
  split_ifs at hslot ⊢ with h₁ h₂
  · exact ⟨_, rfl⟩
  · exact ⟨_, rfl⟩
  · cases hslot

/-- A stream takes the slot of its type, if that is free. -/
theorem added_add (p : StreamPair) (k : ℕ)
    (htype : streamType = streamTypeError ∨ streamType = streamTypeData) :
    Added p k streamType (p.add k streamType) := by
  rw [StreamPair.add]
  by_cases hslot : p.slot streamType = none
  · obtain ⟨q, hassign, hid, hclosed, hslots⟩ := assign_of_slot_eq_none k htype hslot
    rw [hassign]
    dsimp only
    have hadded : Added p k streamType _ := .fresh hslot hid hslots
    rw [← hclosed] at hadded
    cases hcomplete : q.isComplete with
    | true =>
      rw [hcomplete] at hadded
      exact hadded
    | false =>
      rw [hcomplete] at hadded
      exact hadded
  · obtain ⟨err, hassign⟩ := assign_of_slot_ne_none k hslot
    rw [hassign]
    exact .assigned err hslot

/-! ## Pairs are registered until their monitors are done -/

variable {d : Deps} {s t : State}

/-- A pair is registered under its id until its monitor is done. -/
structure Registered (s : State) : Prop where
  live : ∀ p e, s.pairs[p]? = some e →
    (e.monitor ≠ .done ↔ s.streamPairs.lookup e.pair.requestID = some p)
  table : ∀ id p, s.streamPairs.lookup id = some p →
    ∃ e, s.pairs[p]? = some e ∧ e.pair.requestID = id
  /-- The monitor of a pair has not been started if the loop is about to. -/
  unstarted : ∀ p e, s.pairs[p]? = some e →
    (e.monitor = .unstarted ↔ ∃ k, s.loop = .found k p true)

/-- Steps that do not touch the pairs, and start no monitor. -/
theorem Registered.of_eq (h : Registered s) (hpairs : t.pairs = s.pairs)
    (hstreamPairs : t.streamPairs = s.streamPairs)
    (hloop : ∀ k p, t.loop = .found k p true ↔ s.loop = .found k p true) : Registered t where
  live := by
    rw [hpairs, hstreamPairs]
    exact h.live
  table := by
    rw [hpairs, hstreamPairs]
    exact h.table
  unstarted := by
    simp only [hpairs, hloop]
    exact h.unstarted

/-- Steps that replace a pair by one with the same id. -/
theorem Registered.set (h : Registered s) {p : ℕ} {e e' : Entry} (hp : s.pairs[p]? = some e)
    (hpairs : t.pairs = s.pairs.set p e') (hstreamPairs : t.streamPairs = s.streamPairs)
    (hid : e'.pair.requestID = e.pair.requestID) (hdone : e'.monitor = .done ↔ e.monitor = .done)
    (hself : e'.monitor = .unstarted ↔ ∃ k, t.loop = .found k p true)
    (hother : ∀ k q, q ≠ p → (t.loop = .found k q true ↔ s.loop = .found k q true)) :
    Registered t where
  live q f hq := by
    rw [hpairs] at hq
    rw [hstreamPairs]
    rcases eq_or_of_getElem?_set hq with ⟨rfl, rfl⟩ | ⟨-, hq⟩
    · rw [hid, ne_eq, hdone]
      exact h.live q e hp
    · exact h.live q f hq
  table id q hq := by
    rw [hstreamPairs] at hq
    rw [hpairs]
    obtain ⟨f, hf, hfid⟩ := h.table id q hq
    by_cases hqp : q = p
    · subst hqp
      rw [hp] at hf
      cases hf
      exact ⟨e', getElem?_set_of_some hp, hid.trans hfid⟩
    · exact ⟨f, by rw [List.getElem?_set_ne (Ne.symm hqp)]; exact hf, hfid⟩
  unstarted q f hq := by
    rw [hpairs] at hq
    rcases eq_or_of_getElem?_set hq with ⟨rfl, rfl⟩ | ⟨hne, hq⟩
    · exact hself
    · rw [h.unstarted q f hq]
      simp only [hother _ q hne]

/-- A new pair is registered. -/
theorem Registered.getStreamPair (h : Registered s) {k : ℕ} {id : String}
    (hloop : s.loop = .received k) : Registered (s.getStreamPair k id) := by
  rw [State.getStreamPair]
  split
  case h_1 p hp => exact h.of_eq rfl rfl (by simp [hloop])
  case h_2 hnone =>
    constructor
    · intro p e hp
      rcases eq_or_of_getElem?_concat hp with hold | ⟨rfl, rfl⟩
      · have hlive := h.live p e hold
        by_cases hid : e.pair.requestID = id
        · -- The id was free, so all other pairs with it are done.
          have hlt := (List.getElem?_eq_some_iff.1 hold).1
          subst hid
          rw [hnone] at hlive
          simp only [AList.lookup_insert, Option.some.injEq, hlive, reduceCtorEq, false_iff]
          omega
        · simp only [AList.lookup_insert_ne hid]
          exact hlive
      · simp
    · intro id' p hp
      by_cases hid : id' = id
      · subst hid
        simp only [AList.lookup_insert, Option.some.injEq] at hp
        subst hp
        exact ⟨_, List.getElem?_concat_length, rfl⟩
      · simp only [AList.lookup_insert_ne hid] at hp
        obtain ⟨e, he, heid⟩ := h.table id' p hp
        exact ⟨e, getElem?_concat_of_some he, heid⟩
    · intro p e hp
      rcases eq_or_of_getElem?_concat hp with hp | ⟨rfl, rfl⟩
      · have hlt := (List.getElem?_eq_some_iff.1 hp).1
        rw [h.unstarted p e hp, hloop]
        simp
        omega
      · simp

/-- What a monitor removes is its pair. -/
theorem Registered.lookup_of_removing (h : Registered s) {p : ℕ} {e : Entry}
    (hp : s.pairs[p]? = some e) (hmonitor : e.monitor = .removing) :
    s.streamPairs.lookup e.pair.requestID = some p :=
  (h.live p e hp).1 (by simp [hmonitor])

/-- The monitor removes a pair. -/
theorem Registered.remove (h : Registered s) {p : ℕ} {e : Entry} (hp : s.pairs[p]? = some e)
    (hmonitor : e.monitor = .removing)
    (hpairs : t.pairs = s.pairs.set p { e with monitor := .done })
    (hstreamPairs : t.streamPairs = s.streamPairs.erase e.pair.requestID)
    (hloop : t.loop = s.loop) : Registered t := by
  have hself := h.lookup_of_removing hp hmonitor
  refine ⟨fun q f hq => ?_, fun id q hq => ?_, fun q f hq => ?_⟩
  · rw [hpairs] at hq
    rw [hstreamPairs]
    rcases eq_or_of_getElem?_set hq with ⟨rfl, rfl⟩ | ⟨hne, hq⟩
    · simp
    · by_cases hid : f.pair.requestID = e.pair.requestID
      · have hlive := h.live q f hq
        rw [hid, hself] at hlive
        rw [hid, AList.lookup_erase, hlive]
        simp [Ne.symm hne]
      · rw [AList.lookup_erase_ne hid]
        exact h.live q f hq
  · rw [hstreamPairs] at hq
    rw [hpairs]
    by_cases hid : id = e.pair.requestID
    · rw [hid, AList.lookup_erase] at hq
      cases hq
    · rw [AList.lookup_erase_ne hid] at hq
      obtain ⟨f, hf, hfid⟩ := h.table id q hq
      refine ⟨f, ?_, hfid⟩
      rw [List.getElem?_set_ne]
      · exact hf
      · rintro rfl
        rw [hp] at hf
        cases hf
        exact hid hfid.symm
  · rw [hpairs] at hq
    rw [hloop]
    rcases eq_or_of_getElem?_set hq with ⟨rfl, rfl⟩ | ⟨-, hq⟩
    · rw [← h.unstarted q e hp]
      simp [hmonitor]
    · exact h.unstarted q f hq

theorem add_requestID (p : StreamPair) (k : ℕ) (streamType : String) :
    (p.add k streamType).1.requestID = p.requestID := by
  have hassign : ∀ q, p.assign k streamType = .ok q → q.requestID = p.requestID := by
    intro q hq
    rw [StreamPair.assign] at hq
    split_ifs at hq <;> cases hq <;> rfl
  rw [StreamPair.add]
  cases hq : p.assign k streamType with
  | error err => rfl
  | ok q =>
    dsimp only
    split_ifs
    · exact hassign q hq
    · exact hassign q hq

theorem added_pairs (s : State) (k p : ℕ) (e : Entry) (out : StreamPair × Except Error Bool) :
    (s.added k p e out).pairs = s.pairs.set p { e with pair := out.1 } := by
  rcases out with ⟨pair, err | _ | _⟩ <;> rfl

theorem added_streamPairs (s : State) (k p : ℕ) (e : Entry)
    (out : StreamPair × Except Error Bool) : (s.added k p e out).streamPairs = s.streamPairs := by
  rcases out with ⟨pair, err | _ | _⟩ <;> rfl

theorem added_loop_ne_found (s : State) (k p : ℕ) (e : Entry)
    (out : StreamPair × Except Error Bool) (j q : ℕ) (created : Bool) :
    (s.added k p e out).loop ≠ .found j q created := by
  rcases out with ⟨pair, err | _ | _⟩ <;> exact Loop.noConfusion

/-- The loop keeps the pairs registered. -/
theorem Registered.loopStep (h : Registered s) (hst : LoopStep d s t) : Registered t := by
  cases hst with
  | receive stream hloop => exact h.of_eq rfl rfl (by simp [hloop])
  | getStreamPair hloop => exact h.getStreamPair hloop
  | @startMonitor k p e hloop hp =>
    have hmonitor : e.monitor = .unstarted := (h.unstarted p e hp).2 ⟨k, hloop⟩
    refine h.set hp rfl rfl rfl (by simp [hmonitor]) (by simp) fun j q hne => ?_
    simp [hloop, Ne.symm hne]
  | noMonitor hloop => exact h.of_eq rfl rfl (by simp [hloop])
  | @add k p stream e hloop hk hp =>
    refine h.set hp (added_pairs _ _ _ _ _) (added_streamPairs _ _ _ _ _) (add_requestID _ _ _)
      Iff.rfl ?_ fun j q _ => ?_
    · rw [h.unstarted p e hp]
      simp [hloop, added_loop_ne_found]
    · simp [hloop, added_loop_ne_found]
  | forward hloop => exact h.of_eq rfl rfl (by simp [hloop])

theorem Registered.otherStep (h : Registered s) (hst : OtherStep s t) : Registered t := by
  cases hst with
  | @timeout p e hp hmonitor | @complete p e hp hmonitor =>
    refine h.set hp rfl rfl rfl (by simp [hmonitor]) ?_ fun j q _ => Iff.rfl
    rw [← h.unstarted p e hp]
    simp [hmonitor]
  | remove hp hmonitor => exact h.remove hp hmonitor rfl rfl rfl
  | portForward => exact h.of_eq rfl rfl fun _ _ => Iff.rfl

/-! ## A stream is in one pair -/

/-- The pair with an index, short of its monitor. -/
def State.pair? (s : State) (p : ℕ) : Option StreamPair := s.pairs[p]?.map Entry.pair

/-- The stream the loop is about to add. -/
def Loop.stream : Loop → Option ℕ
  | .received k | .found k _ _ | .adding k _ => some k
  | .idle | .completed _ => none

/-- The pair the loop is about to add a stream to. -/
def Loop.pair : Loop → Option ℕ
  | .found _ p _ | .adding _ p => some p
  | .idle | .received _ | .completed _ => none

/-- A stream is in one pair at most, which has its id. -/
structure Assigned (s : State) : Prop where
  types : ∀ (k : ℕ) (stream : Stream), s.streams[k]? = some stream →
    stream.streamType = streamTypeError ∨ stream.streamType = streamTypeData
  slot : ∀ p x u k, s.pair? p = some x → x.slot u = some k →
    ∃ stream, s.streams[k]? = some stream ∧ stream.streamType = u ∧
      stream.requestID = x.requestID
  unique : ∀ p q x y u v k, s.pair? p = some x → s.pair? q = some y → x.slot u = some k →
    y.slot v = some k → p = q
  /-- The stream the loop is about to add is in no pair yet, and has the id of the
      one it is to be added to. -/
  current : ∀ k, s.loop.stream = some k → ∃ stream, s.streams[k]? = some stream ∧
    (∀ p, s.loop.pair = some p → ∃ x, s.pair? p = some x ∧ x.requestID = stream.requestID) ∧
    ∀ p x u, s.pair? p = some x → x.slot u ≠ some k

/-- Steps that leave streams and pairs alone. -/
theorem Assigned.of_eq (h : Assigned s) (hstreams : t.streams = s.streams)
    (hpairs : ∀ p, t.pair? p = s.pair? p)
    (hstream : ∀ k, t.loop.stream = some k → s.loop.stream = some k)
    (hpair : ∀ p, t.loop.pair = some p → s.loop.pair = some p) : Assigned t where
  types := by
    rw [hstreams]
    exact h.types
  slot := by
    simp only [hstreams, hpairs]
    exact h.slot
  unique := by
    simp only [hpairs]
    exact h.unique
  current k hk := by
    simp only [hstreams, hpairs]
    obtain ⟨stream, hstream', hid, hfree⟩ := h.current k (hstream k hk)
    exact ⟨stream, hstream', fun p hp => hid p (hpair p hp), hfree⟩

/-- A monitor moves. -/
theorem pair?_set_monitor {p : ℕ} {e : Entry} (hp : s.pairs[p]? = some e) (monitor : Monitor)
    (ht : t.pairs = s.pairs.set p { e with monitor }) (q : ℕ) : t.pair? q = s.pair? q := by
  rw [State.pair?, State.pair?, ht]
  by_cases hpq : p = q
  · subst hpq
    rw [getElem?_set_of_some hp, hp]
    rfl
  · rw [List.getElem?_set_ne hpq]

/-- A stream that arrives is in no pair. -/
theorem Assigned.receive (h : Assigned s) {stream : Stream}
    (hreceived : httpStreamReceived d stream = none) :
    Assigned { s with
      streams := s.streams ++ [stream]
      loop := .received s.streams.length } where
  types k stream' hk := by
    rcases eq_or_of_getElem?_concat hk with hk | ⟨-, rfl⟩
    · exact h.types k stream' hk
    · exact streamType_of_received hreceived
  slot p x u k hp hslot := by
    obtain ⟨stream', hk, htype⟩ := h.slot p x u k hp hslot
    exact ⟨stream', getElem?_concat_of_some hk, htype⟩
  unique := h.unique
  current k hk := by
    cases hk
    refine ⟨stream, List.getElem?_concat_length, fun p hp => (by cases hp), ?_⟩
    intro p x u hp hslot
    obtain ⟨_, hk, -⟩ := h.slot p x u _ hp hslot
    exact absurd (List.getElem?_eq_some_iff.1 hk).1 (lt_irrefl _)

/-- The pair of a stream is the one for its request. -/
theorem Assigned.getStreamPair (h : Assigned s) (hr : Registered s) {k : ℕ} {stream : Stream}
    (hloop : s.loop = .received k) (hk : s.streams[k]? = some stream) :
    Assigned (s.getStreamPair k stream.requestID) := by
  obtain ⟨stream', hk', -, hfree⟩ := h.current k (by rw [hloop]; rfl)
  rw [hk] at hk'
  cases hk'
  rw [State.getStreamPair]
  split
  case h_1 p hp =>
    refine ⟨h.types, h.slot, h.unique, fun j hj => ?_⟩
    cases hj
    refine ⟨stream, hk, fun q hq => ?_, hfree⟩
    cases hq
    obtain ⟨e, he, hid⟩ := hr.table _ _ hp
    exact ⟨e.pair, by rw [State.pair?, he]; rfl, hid⟩
  case h_2 =>
    set t : State := { s with
      pairs := s.pairs ++ [{ pair := { requestID := stream.requestID }, monitor := .unstarted }]
      streamPairs := s.streamPairs.insert stream.requestID s.pairs.length
      loop := .found k s.pairs.length true } with ht
    -- A stream in a pair is in one that was there before: the new one is empty.
    have hold : ∀ p x u j, t.pair? p = some x → x.slot u = some j → s.pair? p = some x := by
      intro p x u j hp hslot
      rw [State.pair?, Option.map_eq_some_iff] at hp
      obtain ⟨e, he, rfl⟩ := hp
      rcases eq_or_of_getElem?_concat he with he | ⟨-, rfl⟩
      · rw [State.pair?, he]
        rfl
      · simp [StreamPair.slot] at hslot
    refine ⟨h.types, ?_, ?_, ?_⟩
    · exact fun p x u j hp hslot => h.slot p x u j (hold p x u j hp hslot) hslot
    · intro p q x y u v j hp hq hx hy
      exact h.unique p q x y u v j (hold p x u j hp hx) (hold q y v j hq hy) hx hy
    · intro j hj
      cases hj
      refine ⟨stream, hk, fun p hp => ?_, ?_⟩
      · cases hp
        exact ⟨{ requestID := stream.requestID }, by simp [State.pair?, ht], rfl⟩
      · exact fun p x u hp hslot => hfree p x u (hold p x u k hp hslot) hslot

variable {k p : ℕ}

/-- When a stream is added to a pair, a stream in a pair was in it before, or is the one that is
    added. -/
theorem slot_of_add {stream : Stream} {x y : StreamPair} (hx : s.pair? p = some x)
    (hpairs : ∀ q, t.pair? q = if q = p then some y else s.pair? q)
    (hid : y.requestID = x.requestID)
    (hslots : ∀ u, y.slot u = if u = stream.streamType then some k else x.slot u)
    (hfree : ∀ q z u, s.pair? q = some z → z.slot u ≠ some k) {q : ℕ} {z : StreamPair} {u : String}
    {j : ℕ} (hq : t.pair? q = some z) (hslot : z.slot u = some j) :
    (j ≠ k ∧ ∃ w, s.pair? q = some w ∧ w.slot u = some j ∧ w.requestID = z.requestID) ∨
      (j = k ∧ q = p ∧ u = stream.streamType ∧ z = y) := by
  rw [hpairs] at hq
  split_ifs at hq with hqp
  · cases hq
    rw [hslots] at hslot
    split_ifs at hslot with hu
    · exact .inr ⟨(Option.some.inj hslot).symm, hqp, hu, rfl⟩
    · refine .inl ⟨?_, x, hqp ▸ hx, hslot, hid.symm⟩
      rintro rfl
      exact hfree p x u hx hslot
  · refine .inl ⟨?_, z, hq, hslot, rfl⟩
    rintro rfl
    exact hfree q z u hq hslot

/-- A stream is added to the pair with its id. -/
theorem Assigned.add (h : Assigned s) {stream : Stream} {x y : StreamPair}
    (hloop : s.loop = .adding k p) (hk : s.streams[k]? = some stream) (hx : s.pair? p = some x)
    (hpairs : ∀ q, t.pair? q = if q = p then some y else s.pair? q)
    (hid : y.requestID = x.requestID)
    (hslots : ∀ u, y.slot u = if u = stream.streamType then some k else x.slot u)
    (hstreams : t.streams = s.streams) (hstream : t.loop.stream = none) : Assigned t := by
  obtain ⟨stream', hk', hsame, hfree⟩ := h.current k (by rw [hloop]; rfl)
  rw [hk] at hk'
  cases hk'
  obtain ⟨x', hx', hxid⟩ := hsame p (by rw [hloop]; rfl)
  rw [hx] at hx'
  cases hx'
  have hold {q : ℕ} {z : StreamPair} {u : String} {j : ℕ} (hq : t.pair? q = some z)
      (hslot : z.slot u = some j) := slot_of_add hx hpairs hid hslots hfree hq hslot
  refine ⟨?_, ?_, ?_, ?_⟩
  · rw [hstreams]
    exact h.types
  · intro q z u j hq hslot
    rw [hstreams]
    rcases hold hq hslot with ⟨-, w, hw, hwslot, hwid⟩ | ⟨rfl, -, rfl, rfl⟩
    · rw [← hwid]
      exact h.slot q w u j hw hwslot
    · exact ⟨stream, hk, rfl, (hid.trans hxid).symm⟩
  · intro q r z w u v j hq hr hz hw
    rcases hold hq hz with ⟨hne, z', hz', hzslot, -⟩ | ⟨heq, rfl, -⟩
    · rcases hold hr hw with ⟨-, w', hw', hwslot, -⟩ | ⟨heq, -⟩
      · exact h.unique q r z' w' u v j hz' hw' hzslot hwslot
      · exact absurd heq hne
    · rcases hold hr hw with ⟨hne, -⟩ | ⟨-, rfl, -⟩
      · exact absurd heq hne
      · rfl
  · intro j hj
    rw [hstream] at hj
    cases hj

theorem pair?_eq_some {p : ℕ} {e : Entry} (hp : s.pairs[p]? = some e) :
    s.pair? p = some e.pair := by
  rw [State.pair?, hp]
  rfl

theorem pair?_added {e : Entry} (hp : s.pairs[p]? = some e) (out : StreamPair × Except Error Bool)
    (q : ℕ) :
    (s.added k p e out).pair? q = if q = p then some out.1 else s.pair? q := by
  rw [State.pair?, added_pairs]
  split_ifs with hqp
  · subst hqp
    rw [getElem?_set_of_some hp]
    rfl
  · rw [List.getElem?_set_ne (Ne.symm hqp)]
    rfl

theorem added_streams (s : State) (k p : ℕ) (e : Entry)
    (out : StreamPair × Except Error Bool) : (s.added k p e out).streams = s.streams := by
  rcases out with ⟨pair, err | _ | _⟩ <;> rfl

theorem added_loop_stream (s : State) (k p : ℕ) (e : Entry)
    (out : StreamPair × Except Error Bool) : (s.added k p e out).loop.stream = none := by
  rcases out with ⟨pair, err | _ | _⟩ <;> rfl

theorem added_loop_pair (s : State) (k p : ℕ) (e : Entry)
    (out : StreamPair × Except Error Bool) : (s.added k p e out).loop.pair = none := by
  rcases out with ⟨pair, err | _ | _⟩ <;> rfl

/-- Steps of the loop keep streams to their pairs. -/
theorem Assigned.loopStep (h : Assigned s) (hr : Registered s) (hst : LoopStep d s t) :
    Assigned t := by
  cases hst with
  | receive stream _ hreceived => exact h.receive hreceived
  | getStreamPair hloop hk => exact h.getStreamPair hr hloop hk
  | startMonitor hloop hp =>
    refine h.of_eq rfl (pair?_set_monitor hp _ rfl) (fun j hj => ?_) fun q hq => ?_
    · rw [hloop]
      exact hj
    · rw [hloop]
      exact hq
  | noMonitor hloop =>
    refine h.of_eq rfl (fun _ => rfl) (fun j hj => ?_) fun q hq => ?_
    · rw [hloop]
      exact hj
    · rw [hloop]
      exact hq
  | @add k p stream e hloop hk hp =>
    have hadded := added_add e.pair k (h.types k stream hk)
    generalize hout : e.pair.add k stream.streamType = out at hadded
    cases hadded with
    | assigned err hslot =>
      refine h.of_eq (added_streams _ _ _ _ _) (fun q => ?_) ?_ ?_
      · rw [pair?_added hp]
        split_ifs with hqp
        · rw [hqp, pair?_eq_some hp]
        · rfl
      · simp [added_loop_stream]
      · simp [added_loop_pair]
    | fresh hslot hid hslots =>
      exact h.add hloop hk (pair?_eq_some hp) (pair?_added hp _) hid hslots
        (added_streams _ _ _ _ _) (added_loop_stream _ _ _ _ _)
  | forward => exact h.of_eq rfl (fun _ => rfl) (fun _ hj => by cases hj) fun _ hq => by cases hq

theorem Assigned.otherStep (h : Assigned s) (hst : OtherStep s t) : Assigned t := by
  cases hst with
  | timeout hp | complete hp | remove hp =>
    exact h.of_eq rfl (pair?_set_monitor hp _ rfl) (fun _ hj => hj) fun _ hq => hq
  | portForward => exact h.of_eq rfl (fun _ => rfl) (fun _ hj => hj) fun _ hq => hq

/-! ## A pair is forwarded once -/

/-- The pair the loop is about to forward. -/
def Loop.pending : Loop → List ℕ
  | .completed p => [p]
  | _ => []

/-- The pairs that have been or are about to be forwarded. -/
def State.forwarded (s : State) : List ℕ := s.forwards.map Forward.pair ++ s.loop.pending

/-- A pair is complete when it is forwarded, and is so once. -/
structure Forwarded (s : State) : Prop where
  closed : ∀ p x, s.pair? p = some x → x.closed = if x.isComplete then 1 else 0
  once : s.forwarded.Nodup
  complete : ∀ p ∈ s.forwarded, ∃ x, s.pair? p = some x ∧ x.isComplete = true
  /-- `PortForward` is called with the streams of the pair. -/
  calls : ∀ f ∈ s.forwards, ∀ c, f.call = some c →
    ∃ x, s.pair? f.pair = some x ∧ c = (x.dataStream, x.errorStream)

/-- Steps that leave pairs alone. -/
theorem Forwarded.of_eq (h : Forwarded s) (hpairs : ∀ p, t.pair? p = s.pair? p)
    (hforwards : t.forwards = s.forwards) (hpending : t.loop.pending = s.loop.pending) :
    Forwarded t where
  closed := by
    simp only [hpairs]
    exact h.closed
  once := by
    rw [State.forwarded, hforwards, hpending]
    exact h.once
  complete := by
    simp only [State.forwarded, hforwards, hpending, hpairs]
    exact h.complete
  calls := by
    simp only [hforwards, hpairs]
    exact h.calls

/-- A new pair has not been forwarded. -/
theorem Forwarded.getStreamPair (h : Forwarded s) {k : ℕ} {id : String}
    (hloop : s.loop = .received k) : Forwarded (s.getStreamPair k id) := by
  rw [State.getStreamPair]
  split
  case h_1 => exact h.of_eq (fun _ => rfl) rfl (by rw [hloop]; rfl)
  case h_2 =>
    set t : State := { s with
      pairs := s.pairs ++ [{ pair := { requestID := id }, monitor := .unstarted }]
      streamPairs := s.streamPairs.insert id s.pairs.length
      loop := .found k s.pairs.length true } with ht
    have hold : ∀ p x, s.pair? p = some x → t.pair? p = some x := by
      intro p x hp
      rw [State.pair?, Option.map_eq_some_iff] at hp
      obtain ⟨e, he, rfl⟩ := hp
      exact pair?_eq_some (getElem?_concat_of_some he)
    have hforwarded : t.forwarded = s.forwarded := by
      rw [State.forwarded, State.forwarded, hloop]
      rfl
    refine ⟨fun p x hp => ?_, ?_, ?_, ?_⟩
    · rw [State.pair?, Option.map_eq_some_iff] at hp
      obtain ⟨e, he, rfl⟩ := hp
      rcases eq_or_of_getElem?_concat he with he | ⟨-, rfl⟩
      · exact h.closed p _ (pair?_eq_some he)
      · rfl
    · rw [hforwarded]
      exact h.once
    · intro p hp
      rw [hforwarded] at hp
      obtain ⟨x, hx, hcomplete⟩ := h.complete p hp
      exact ⟨x, hold p x hx, hcomplete⟩
    · intro f hf c hc
      obtain ⟨x, hx, hcall⟩ := h.calls f hf c hc
      exact ⟨x, hold _ x hx, hcall⟩

/-- A pair with a free slot is not complete. -/
theorem isComplete_of_slot_eq_none {x : StreamPair}
    (htype : streamType = streamTypeError ∨ streamType = streamTypeData)
    (hslot : x.slot streamType = none) : x.isComplete = false := by
  have hne : streamTypeData ≠ streamTypeError := by decide
  rcases htype with rfl | rfl
  · have hslot : x.errorStream = none := by simpa [StreamPair.slot] using hslot
    simp [StreamPair.isComplete, hslot]
  · have hslot : x.dataStream = none := by simpa [StreamPair.slot, hne] using hslot
    simp [StreamPair.isComplete, hslot]

/-- A pair that is not complete has not been forwarded. Adding a stream to it may
    complete it. -/
theorem Forwarded.add (h : Forwarded s) {x y : StreamPair} (hloop : s.loop = .adding k p)
    (hx : s.pair? p = some x) (hfree : x.isComplete = false)
    (hpairs : ∀ q, t.pair? q = if q = p then some y else s.pair? q)
    (hclosed : y.closed = x.closed + if y.isComplete then 1 else 0)
    (hforwards : t.forwards = s.forwards)
    (hpending : t.loop.pending = if y.isComplete then [p] else []) : Forwarded t := by
  have hforwarded : t.forwarded = s.forwarded ++ if y.isComplete then [p] else [] := by
    rw [State.forwarded, State.forwarded, hforwards, hpending, hloop]
    simp [Loop.pending]
  -- What was forwarded is complete, which the pair is not yet.
  have hnew : p ∉ s.forwarded := by
    intro hmem
    obtain ⟨x', hx', hcomplete⟩ := h.complete p hmem
    rw [hx] at hx'
    cases hx'
    rw [hfree] at hcomplete
    cases hcomplete
  have hkeep : ∀ q ∈ s.forwarded, t.pair? q = s.pair? q := by
    intro q hq
    rw [hpairs, if_neg]
    rintro rfl
    exact hnew hq
  refine ⟨fun q z hq => ?_, ?_, fun q hq => ?_, fun f hf c hc => ?_⟩
  · rw [hpairs] at hq
    split_ifs at hq with hqp
    · cases hq
      have hzero := h.closed p x hx
      rw [hfree] at hzero
      rw [hclosed, hzero]
      simp
    · exact h.closed q z hq
  · rw [hforwarded]
    split_ifs
    · rw [← List.concat_eq_append]
      exact h.once.concat hnew
    · rw [List.append_nil]
      exact h.once
  · rw [hforwarded, List.mem_append] at hq
    rcases hq with hq | hq
    · rw [hkeep q hq]
      exact h.complete q hq
    · split_ifs at hq with hcomplete
      · rw [List.mem_singleton] at hq
        exact ⟨y, by rw [hpairs, if_pos hq], hcomplete⟩
      · cases hq
  · rw [hforwards] at hf
    rw [hkeep f.pair (List.mem_append_left _ (List.mem_map_of_mem hf))]
    exact h.calls f hf c hc

/-- A pair is forwarded by the stream that completes it. -/
theorem Forwarded.loopStep (h : Forwarded s) (ha : Assigned s) (hst : LoopStep d s t) :
    Forwarded t := by
  cases hst with
  | receive stream hloop => exact h.of_eq (fun _ => rfl) rfl (by rw [hloop]; rfl)
  | getStreamPair hloop => exact h.getStreamPair hloop
  | startMonitor hloop hp => exact h.of_eq (pair?_set_monitor hp _ rfl) rfl (by rw [hloop]; rfl)
  | noMonitor hloop => exact h.of_eq (fun _ => rfl) rfl (by rw [hloop]; rfl)
  | @add k p stream e hloop hk hp =>
    have htype := ha.types k stream hk
    have hadded := added_add e.pair k htype
    generalize hout : e.pair.add k stream.streamType = out at hadded
    cases hadded with
    | assigned err hslot =>
      refine h.of_eq (fun q => ?_) rfl (by rw [hloop]; rfl)
      rw [pair?_added hp]
      split_ifs with hqp
      · rw [hqp, pair?_eq_some hp]
      · rfl
    | @fresh q hslot hid hslots =>
      have hfree := isComplete_of_slot_eq_none htype hslot
      refine h.add hloop (pair?_eq_some hp) hfree (pair?_added hp _) rfl ?_ ?_
      · cases q.isComplete <;> rfl
      · change (State.added _ _ _ _ (_, .ok q.isComplete)).loop.pending =
          if q.isComplete then [p] else []
        cases q.isComplete <;> rfl
  | @forward p hloop =>
    have hforwarded : State.forwarded { s with
        forwards := s.forwards ++ [{ pair := p }], loop := .idle } = s.forwarded := by
      simp [State.forwarded, hloop, Loop.pending]
    refine ⟨h.closed, ?_, ?_, ?_⟩
    · rw [hforwarded]
      exact h.once
    · rw [hforwarded]
      exact h.complete
    · intro f hf c hc
      rcases List.mem_append.1 hf with hf | hf
      · exact h.calls f hf c hc
      · rw [List.mem_singleton] at hf
        subst hf
        cases hc

/-- Monitors and forwards keep what was forwarded. -/
theorem Forwarded.otherStep (h : Forwarded s) (hst : OtherStep s t) : Forwarded t := by
  cases hst with
  | timeout hp | complete hp | remove hp =>
    exact h.of_eq (pair?_set_monitor hp _ rfl) rfl rfl
  | @portForward f p e hf hp =>
    have hforwarded : State.forwarded { s with
        forwards := s.forwards.set f
          { pair := p, call := some (e.pair.dataStream, e.pair.errorStream) } } = s.forwarded := by
      rw [State.forwarded, State.forwarded, List.map_set]
      congr 1
      exact set_of_getElem?_eq_some (by rw [List.getElem?_map, hf]; rfl)
    refine ⟨h.closed, ?_, ?_, ?_⟩
    · rw [hforwarded]
      exact h.once
    · rw [hforwarded]
      exact h.complete
    · intro g hg c hc
      rcases List.mem_or_eq_of_mem_set hg with hg | rfl
      · exact h.calls g hg c hc
      · cases hc
        exact ⟨e.pair, pair?_eq_some hp, rfl⟩

/-! ## What holds of every run -/

/-- What holds of every reachable state. -/
structure Inv (s : State) : Prop where
  registered : Registered s
  assigned : Assigned s
  forwarded : Forwarded s
  removed : ∀ x ∈ s.removed, x.2 = some x.1

theorem removed_loopStep (hst : LoopStep d s t) : t.removed = s.removed := by
  cases hst with
  | getStreamPair =>
    rw [State.getStreamPair]
    split <;> rfl
  | @add k p stream e =>
    rcases e.pair.add k stream.streamType with ⟨pair, err | _ | _⟩ <;> rfl
  | receive | startMonitor | noMonitor | forward => rfl

theorem Registered.removed_otherStep (hr : Registered s) (h : ∀ x ∈ s.removed, x.2 = some x.1)
    (hst : OtherStep s t) : ∀ x ∈ t.removed, x.2 = some x.1 := by
  cases hst with
  | remove hp hmonitor =>
    intro x hx
    rcases List.mem_append.1 hx with hx | hx
    · exact h x hx
    · rw [List.mem_singleton] at hx
      subst hx
      exact hr.lookup_of_removing hp hmonitor
  | timeout | complete | portForward => exact h

/-- Before any stream the invariant holds. -/
theorem inv_empty : Inv {} where
  registered := { live := by simp, table := by simp, unstarted := by simp }
  assigned := {
    types := by simp
    slot := by simp [State.pair?]
    unique := by simp [State.pair?]
    current := by simp [Loop.stream] }
  forwarded := {
    closed := by simp [State.pair?]
    once := .nil
    complete := by simp [State.forwarded, Loop.pending]
    calls := by simp }
  removed := by simp

theorem inv_system (d : Deps) : (system d).Invariant Inv where
  init s hs := by
    cases hs
    exact inv_empty
  step s t h hst := by
    rcases hst with hst | hst
    · refine ⟨h.registered.loopStep hst, h.assigned.loopStep h.registered hst,
        h.forwarded.loopStep h.assigned hst, ?_⟩
      rw [removed_loopStep hst]
      exact h.removed
    · exact ⟨h.registered.otherStep hst, h.assigned.otherStep hst, h.forwarded.otherStep hst,
        h.registered.removed_otherStep h.removed hst⟩

/-- What is promised of the handler of a connection. -/
structure Safe (d : Deps) (s : State) : Prop where
  /-- `PortForward` is called with a data stream and an error stream of one id. -/
  calls : ∀ f ∈ s.forwards, ∀ c, f.call = some c → ∃ k j data err, c = (some k, some j) ∧
    s.streams[k]? = some data ∧ data.streamType = streamTypeData ∧
    s.streams[j]? = some err ∧ err.streamType = streamTypeError ∧
    data.requestID = err.requestID
  /-- No stream is used in two calls. -/
  distinct : ∀ (i j : ℕ) (f g : Forward) (c c' : Option ℕ × Option ℕ), i ≠ j →
    s.forwards[i]? = some f → s.forwards[j]? = some g → f.call = some c → g.call = some c' →
    c.1 ≠ c'.1 ∧ c.1 ≠ c'.2 ∧ c.2 ≠ c'.1 ∧ c.2 ≠ c'.2
  /-- A pair is forwarded at most once. -/
  once : (s.forwards.map Forward.pair).Nodup
  /-- Its channel is closed at most once. -/
  closed : ∀ (p : ℕ) (e : Entry), s.pairs[p]? = some e → e.pair.closed ≤ 1
  /-- A stream whose id a pair is registered under goes to that pair. -/
  live : ∀ (t : State) (k p : ℕ) (stream : Stream), (system d).step s t →
    s.loop = .received k → t.loop ≠ s.loop → s.streams[k]? = some stream →
    s.streamPairs.lookup stream.requestID = some p → t = { s with loop := .found k p false }
  /-- If the pair has a stream of the type, the stream is rejected, and nothing
      else happens. -/
  second : ∀ (t : State) (k p : ℕ) (stream : Stream) (e : Entry), (system d).step s t →
    s.loop = .adding k p → t.loop ≠ s.loop → s.streams[k]? = some stream →
    s.pairs[p]? = some e → e.pair.slot stream.streamType ≠ none →
    t = { s with loop := .idle, rejected := s.rejected ++ [(k, p)] }
  /-- A monitor removes the pair it was started for. -/
  removed : ∀ x ∈ s.removed, x.2 = some x.1

/-- The pair a call is made for. -/
theorem Inv.call (h : Inv s) {f : Forward} {c : Option ℕ × Option ℕ} (hf : f ∈ s.forwards)
    (hc : f.call = some c) :
    ∃ x k j, s.pair? f.pair = some x ∧ c = (some k, some j) ∧
      x.slot streamTypeData = some k ∧ x.slot streamTypeError = some j := by
  obtain ⟨x, hx, rfl⟩ := h.forwarded.calls f hf c hc
  obtain ⟨x', hx', hcomplete⟩ := h.forwarded.complete f.pair
    (List.mem_append_left _ (List.mem_map_of_mem hf))
  rw [hx] at hx'
  cases hx'
  rw [StreamPair.isComplete, Bool.and_eq_true, Option.isSome_iff_exists,
    Option.isSome_iff_exists] at hcomplete
  obtain ⟨⟨j, hj⟩, k, hk⟩ := hcomplete
  have hne : streamTypeData ≠ streamTypeError := by decide
  refine ⟨x, k, j, hx, by rw [hk, hj], ?_, ?_⟩
  · simpa [StreamPair.slot, hne] using hk
  · simpa [StreamPair.slot] using hj

/-- Only the loop moves itself. -/
theorem loop_otherStep (hst : OtherStep s t) : t.loop = s.loop := by
  cases hst <;> rfl

/-- The loop looks a pair up for the stream it has received. -/
theorem step_of_received {k : ℕ} {stream : Stream} (hst : (system d).step s t)
    (hloop : s.loop = .received k) (hmoved : t.loop ≠ s.loop) (hk : s.streams[k]? = some stream) :
    t = s.getStreamPair k stream.requestID := by
  rcases hst with hst | hst
  · cases hst with
    | @getStreamPair j stream' hloop' hj =>
      rw [hloop] at hloop'
      cases hloop'
      rw [hk] at hj
      cases hj
      rfl
    | receive _ hloop' | startMonitor hloop' | noMonitor hloop' | add hloop' | forward hloop' =>
      rw [hloop] at hloop'
      cases hloop'
  · exact absurd (loop_otherStep hst) hmoved

/-- The loop adds the stream to the pair. -/
theorem step_of_adding {stream : Stream} {e : Entry} (hst : (system d).step s t)
    (hloop : s.loop = .adding k p) (hmoved : t.loop ≠ s.loop) (hk : s.streams[k]? = some stream)
    (hp : s.pairs[p]? = some e) : t = s.added k p e (e.pair.add k stream.streamType) := by
  rcases hst with hst | hst
  · cases hst with
    | @add j q stream' e' hloop' hj hq =>
      rw [hloop] at hloop'
      cases hloop'
      rw [hk] at hj
      cases hj
      rw [hp] at hq
      cases hq
      rfl
    | receive _ hloop' | startMonitor hloop' | noMonitor hloop' | getStreamPair hloop'
    | forward hloop' =>
      rw [hloop] at hloop'
      cases hloop'
  · exact absurd (loop_otherStep hst) hmoved

/-- The invariants say all that is safe. -/
theorem Inv.safe (h : Inv s) : Safe d s where
  calls f hf c hc := by
    obtain ⟨x, k, j, hx, rfl, hk, hj⟩ := h.call hf hc
    obtain ⟨data, hdata, hdtype, hdid⟩ := h.assigned.slot _ x _ k hx hk
    obtain ⟨err, herr, hetype, heid⟩ := h.assigned.slot _ x _ j hx hj
    exact ⟨k, j, data, err, rfl, hdata, hdtype, herr, hetype, hdid.trans heid.symm⟩
  distinct i j f g c c' hij hi hj hc hc' := by
    obtain ⟨x, k, l, hx, rfl, hk, hl⟩ := h.call (List.mem_of_getElem? hi) hc
    obtain ⟨y, m, n, hy, rfl, hm, hn⟩ := h.call (List.mem_of_getElem? hj) hc'
    have hne : f.pair ≠ g.pair := by
      intro heq
      have hnodup := (List.nodup_append.1 h.forwarded.once).1
      have hlt := (List.getElem?_eq_some_iff.1 hi).1
      exact hij ((List.getElem?_inj (by simpa using hlt) hnodup).1 (by simp [hi, hj, heq]))
    have hdisjoint : ∀ u v a b, x.slot u = some a → y.slot v = some b → some a ≠ some b := by
      rintro u v a b hxa hyb heq
      cases heq
      exact hne (h.assigned.unique _ _ x y u v a hx hy hxa hyb)
    exact ⟨hdisjoint _ _ _ _ hk hm, hdisjoint _ _ _ _ hk hn, hdisjoint _ _ _ _ hl hm,
      hdisjoint _ _ _ _ hl hn⟩
  once := (List.nodup_append.1 h.forwarded.once).1
  closed p e hp := by
    rw [h.forwarded.closed p e.pair (pair?_eq_some hp)]
    split_ifs <;> omega
  live t k p stream hst hloop hmoved hk hp := by
    rw [step_of_received hst hloop hmoved hk, State.getStreamPair, hp]
  second t k p stream e hst hloop hmoved hk hp hslot := by
    rw [step_of_adding hst hloop hmoved hk hp]
    have hadded := added_add e.pair k (h.assigned.types k stream hk)
    generalize e.pair.add k stream.streamType = out at hadded
    cases hadded with
    | assigned err =>
      change State.mk _ (s.pairs.set p e) _ _ _ _ _ = _
      rw [set_of_getElem?_eq_some hp]
    | fresh hnone => exact absurd hnone hslot
  removed := h.removed

/-- Whatever streams arrive, and however the loop, the monitors and the goroutines
    that forward take turns: the calls of `PortForward` get a data stream and an
    error stream of one id, which are used in no other call; no pair is forwarded
    or closed twice; a second stream of a type is rejected; and a monitor removes
    its own pair. -/
theorem reachable_safe (h : (system d).Reachable s) : Safe d s :=
  ((inv_system d).reachable h).safe

/-- A stream of a type, for port 80 and request 1. -/
def exampleStream (streamType : String) : Stream where
  headers := (((∅ : Header).set portHeader "80").set requestIDHeader "1").set streamTypeHeader
    streamType
  identifier := 1

/-- A data stream and an error stream arrive, and are forwarded. -/
theorem exampleStream_safe : ∃ s, (system .plain).Reachable s ∧
    s.forwards.map Forward.call = [some (some 0, some 1)] ∧ Safe .plain s := by
  have h₀ : (system .plain).Reachable {} := .of_init rfl
  have h₁ := h₀.step (.inl (.receive (exampleStream "data") rfl (by decide)))
  have h₂ := h₁.step (.inl (.getStreamPair rfl rfl))
  have h₃ := h₂.step (.inl (.startMonitor rfl rfl))
  have h₄ := h₃.step (.inl (.add rfl rfl rfl))
  have h₅ := h₄.step (.inl (.receive (exampleStream "error") rfl (by decide)))
  have h₆ := h₅.step (.inl (.getStreamPair rfl rfl))
  have h₇ := h₆.step (.inl (.noMonitor rfl))
  have h₈ := h₇.step (.inl (.add rfl rfl rfl))
  have h₉ := h₈.step (.inl (.forward rfl))
  have h₁₀ := h₉.step (.inr (.portForward (f := 0) (p := 0) rfl rfl))
  exact ⟨_, h₁₀, rfl, reachable_safe h₁₀⟩

end Apiserver.PortForward
