import Apiserver.Basic
import Apiserver.Go.ResponseWriter

/-!
# The timeout filter

A handler runs with a time limit (`pkg/filters/timeout.go`). When it is over, the filter
responds instead of the handler, if that has not begun to respond, or else aborts the request.
The handler goes on, with a response writer that does nothing any more. So there is a writer
between the handler and that of the server, with a lock: whether the limit comes before or
after a call, a call is done as a whole. It keeps whether the handler has responded, in two
flags, and these are to agree with what the writer of the server has committed to.

A run is given by the calls of the handler before the limit, and those after it.

* `perform_timedOut`: a call after the limit does nothing;
* `Before`, `before_run`: the flags after the calls before the limit. `Flush` sets none of them;
* `oneSided_iff`: the response is that of one side only, unless the handler has done nothing but
  flush;
* `sent_timeout`: if it has not, and done nothing else, the client gets the error;
* `not_oneSided_flush`: if it has flushed, the error is written after the status of the handler.
-/

namespace Apiserver.Timeout

open Go

/-- What the writer of the server is capable of. -/
structure Config where
  flusher : Bool := true
  hijacker : Bool := true

/-- A call of the handler. A hijack is given with the error of taking over the connection. -/
inductive Call
  | write (p : Bytes)
  | writeHeader (code : ℤ)
  | flush
  | hijack (err : Option Error)
  deriving DecidableEq

/-- `baseTimeoutWriter`. -/
structure TimeoutWriter where
  w : ResponseWriter := {}
  timedOut : Bool := false
  wroteHeader : Bool := false
  hijacked : Bool := false
  deriving DecidableEq

/-- What comes of a call. -/
inductive Outcome
  | returned (n : ℕ) (err : Option Error)
  | panicked
  deriving DecidableEq

/-- `http.ErrHandlerTimeout`. -/
def errHandlerTimeout : Error := "http: Handler timeout"

/-- `http.ErrAbortHandler`. -/
def errAbortHandler : Error := "net/http: abort Handler"

namespace TimeoutWriter

/-- `Write`. -/
def write (p : Bytes) (tw : TimeoutWriter) : Outcome × TimeoutWriter :=
  if tw.timedOut then (.returned 0 (some errHandlerTimeout), tw)
  else if tw.hijacked then (.returned 0 (some errHijacked), tw)
  else
    let written := tw.w.write p
    (.returned written.1.1 written.1.2, { tw with wroteHeader := true, w := written.2 })

/-- `Flush`. -/
def flush (cfg : Config) (tw : TimeoutWriter) : Outcome × TimeoutWriter :=
  if tw.timedOut then (.returned 0 none, tw)
  else if cfg.flusher then
    match tw.w.flush with
    | some w => (.returned 0 none, { tw with w })
    | none => (.panicked, tw)
  else (.returned 0 none, tw)

/-- `WriteHeader`. -/
def writeHeader (code : ℤ) (tw : TimeoutWriter) : Outcome × TimeoutWriter :=
  if tw.timedOut || tw.wroteHeader || tw.hijacked then (.returned 0 none, tw)
  else
    match tw.w.writeHeader code with
    | some w => (.returned 0 none, { tw with wroteHeader := true, w })
    | none => (.panicked, { tw with wroteHeader := true })

/-- `hijack`. -/
def hijack (err : Option Error) (tw : TimeoutWriter) : Outcome × TimeoutWriter :=
  if tw.timedOut then (.returned 0 (some errHandlerTimeout), tw)
  else
    match tw.w.hijack err with
    | (some err, w) => (.returned 0 (some err), { tw with w })
    | (none, w) => (.returned 0 none, { tw with w, hijacked := true })

/-- A call of the handler. The writer has a method for a hijack only if that of the server does;
    else the handler has nothing to call. -/
def perform (cfg : Config) (tw : TimeoutWriter) : Call → Outcome × TimeoutWriter
  | .write p => tw.write p
  | .writeHeader code => tw.writeHeader code
  | .flush => tw.flush cfg
  | .hijack err => if cfg.hijacker then tw.hijack err else (.returned 0 none, tw)

/-- Some calls, one after the other. -/
def run (cfg : Config) (calls : List Call) (tw : TimeoutWriter) : TimeoutWriter :=
  calls.foldl (fun tw c => (tw.perform cfg c).2) tw

/-- `timeout`, with the error as it is encoded: whether it aborts the request, and the writer. -/
def timeout (body : Bytes) (tw : TimeoutWriter) : Bool × TimeoutWriter :=
  if !tw.wroteHeader && !tw.hijacked then
    match tw.w.writeHeader 504 with
    | some w => (false, { tw with timedOut := true, w := (w.write body).2 })
    | none => (true, { tw with timedOut := true })
  else (true, { tw with timedOut := true })

end TimeoutWriter

/-- What the filter waits for: the end of the handler, with the value it panics with, if any, or
    the limit. -/
inductive Event
  | result (err : Option Error)
  | timeout

/-- How the filter ends. -/
inductive Exit
  | returned
  | panicked (err : Error)
  deriving DecidableEq

/-- `ServeHTTP`, of a request that is not long running, with the calls of the handler before and
    after what the filter waits for. -/
def serveHTTP (cfg : Config) (body : Bytes) (before : List Call) (event : Event)
    (after : List Call) : Exit × TimeoutWriter :=
  let tw := TimeoutWriter.run cfg before {}
  match event with
  | .result none => (.returned, tw)
  | .result (some err) => (.panicked err, tw)
  | .timeout =>
    let timedOut := tw.timeout body
    (if timedOut.1 then .panicked errAbortHandler else .returned, timedOut.2.run cfg after)

/-! ## After the limit -/

namespace TimeoutWriter

theorem perform_timedOut {tw : TimeoutWriter} (h : tw.timedOut = true) (cfg : Config) (c : Call) :
    (tw.perform cfg c).2 = tw := by
  cases c with
  | write p => rw [perform, write, if_pos h]
  | writeHeader code => rw [perform, writeHeader, h, Bool.true_or, Bool.true_or, if_pos rfl]
  | flush => rw [perform, flush, if_pos h]
  | hijack err =>
    rw [perform]
    split_ifs
    · rw [hijack, if_pos h]
    · rfl

theorem run_timedOut {tw : TimeoutWriter} (h : tw.timedOut = true) (cfg : Config)
    (calls : List Call) : tw.run cfg calls = tw := by
  induction calls with
  | nil => rfl
  | cons c calls ih =>
    rw [run, List.foldl_cons, perform_timedOut h]
    exact ih

theorem timedOut_timeout (body : Bytes) (tw : TimeoutWriter) :
    (tw.timeout body).2.timedOut = true := by
  rw [timeout]
  split_ifs
  · cases tw.w.writeHeader 504 <;> rfl
  · rfl

/-! ## Before the limit -/

/-- The handler has responded, as far as the writer knows. -/
def used (tw : TimeoutWriter) : Bool := tw.wroteHeader || tw.hijacked

end TimeoutWriter

/-- The calls that set a flag. -/
def Call.Loud (cfg : Config) : Call → Prop
  | .write _ => True
  | .writeHeader _ => True
  | .flush => False
  | .hijack err => cfg.hijacker = true ∧ err = none

/-- The writer after some calls. -/
structure Before (cfg : Config) (calls : List Call) (tw : TimeoutWriter) : Prop where
  timedOut : tw.timedOut = false
  hijacked : tw.hijacked = tw.w.hijacked
  used_iff : tw.used = true ↔ ∃ c ∈ calls, c.Loud cfg
  /-- Without a flag, it is a flush that has committed the response. -/
  status_iff : tw.used = false → (tw.w.status ≠ none ↔ cfg.flusher = true ∧ .flush ∈ calls)

namespace TimeoutWriter

variable {cfg : Config} {calls : List Call} {tw : TimeoutWriter}

theorem exists_loud_concat {c : Call} :
    (∃ c' ∈ calls ++ [c], c'.Loud cfg) ↔ (∃ c' ∈ calls, c'.Loud cfg) ∨ c.Loud cfg := by
  simp [or_and_right, exists_or]

/-- A call that sets a flag, or finds one set. -/
theorem concat_used (h : Before cfg calls tw) {c : Call} {tw' : TimeoutWriter}
    (htimedOut : tw'.timedOut = false) (hhijacked : tw'.hijacked = tw'.w.hijacked)
    (hused : tw'.used = true) (hc : tw.used = true ∨ c.Loud cfg) :
    Before cfg (calls ++ [c]) tw' where
  timedOut := htimedOut
  hijacked := hhijacked
  used_iff := by
    rw [exists_loud_concat, ← h.used_iff]
    exact iff_of_true hused hc
  status_iff hunused := by
    rw [hused] at hunused
    cases hunused

/-- A call that finds a flag set and does nothing. -/
theorem concat_same (h : Before cfg calls tw) (hused : tw.used = true) (c : Call) :
    Before cfg (calls ++ [c]) tw :=
  concat_used h h.timedOut h.hijacked hused (.inl hused)

/-- A call that sets no flag and commits to nothing. -/
theorem concat_quiet (h : Before cfg calls tw) {c : Call} (hc : ¬c.Loud cfg)
    (hflush : c = .flush → cfg.flusher = false) : Before cfg (calls ++ [c]) tw where
  timedOut := h.timedOut
  hijacked := h.hijacked
  used_iff := by rw [exists_loud_concat, or_iff_left hc, h.used_iff]
  status_iff hunused := by
    rw [h.status_iff hunused]
    refine and_congr_right fun hflusher => ?_
    have hne : Call.flush ≠ c := fun heq => by rw [hflush heq.symm] at hflusher; cases hflusher
    simp [hne]

theorem before_write (h : Before cfg calls tw) (p : Bytes) :
    Before cfg (calls ++ [.write p]) (tw.write p).2 := by
  rw [write, h.timedOut, if_neg Bool.false_ne_true]
  by_cases hhijacked : tw.hijacked = true
  · rw [if_pos hhijacked]
    exact concat_same h (by simp [used, hhijacked]) _
  · rw [if_neg hhijacked]
    exact concat_used h rfl (h.hijacked.trans ResponseWriter.hijacked_write.symm) rfl (.inr trivial)

/-- The flags after a status. -/
theorem before_writeHeader (h : Before cfg calls tw) (code : ℤ) :
    Before cfg (calls ++ [.writeHeader code]) (tw.writeHeader code).2 := by
  rw [writeHeader, h.timedOut, Bool.false_or]
  by_cases hused : (tw.wroteHeader || tw.hijacked) = true
  · rw [if_pos hused]
    exact concat_same h hused _
  · rw [if_neg hused]
    cases hwrite : tw.w.writeHeader code with
    | some w =>
      exact concat_used h rfl
        (h.hijacked.trans (ResponseWriter.hijacked_writeHeader hwrite).symm) rfl (.inr trivial)
    | none => exact concat_used h rfl h.hijacked rfl (.inr trivial)

/-- A flush commits the response and leaves the flags as they are. -/
theorem before_flush (h : Before cfg calls tw) :
    Before cfg (calls ++ [.flush]) (tw.flush cfg).2 := by
  rw [flush, h.timedOut, if_neg Bool.false_ne_true]
  by_cases hflusher : cfg.flusher = true
  · rw [if_pos hflusher, ResponseWriter.flush]
    by_cases hhijacked : tw.w.hijacked = true
    · rw [if_pos hhijacked]
      exact concat_same h (by simp [used, h.hijacked, hhijacked]) _
    · rw [if_neg hhijacked]
      exact {
        timedOut := rfl
        hijacked := h.hijacked.trans ResponseWriter.hijacked_commit.symm
        used_iff := by
          rw [exists_loud_concat, or_iff_left (show ¬Call.Loud cfg .flush from id)]
          exact h.used_iff
        status_iff := fun _ => iff_of_true ResponseWriter.status_commit_ne_none
          ⟨hflusher, by simp⟩ }
  · rw [if_neg hflusher]
    exact concat_quiet h id fun _ => by simpa using hflusher

/-- The flags after a hijack. -/
theorem before_hijack (h : Before cfg calls tw) (err : Option Error)
    (hhijacker : cfg.hijacker = true) :
    Before cfg (calls ++ [.hijack err]) (tw.hijack err).2 := by
  rw [hijack, if_neg (by simp [h.timedOut])]
  by_cases hhijacked : tw.w.hijacked = true
  · have hw : tw.w.hijack err = (some errHijacked, tw.w) := by
      rw [ResponseWriter.hijack.eq_def, if_pos hhijacked]
    rw [hw]
    exact concat_same h (by simp [used, h.hijacked, hhijacked]) _
  · cases err with
    | some err =>
      have hw : tw.w.hijack (some err) = (some err, tw.w) := by
        rw [ResponseWriter.hijack.eq_def, if_neg hhijacked]
      rw [hw]
      exact concat_quiet h (by simp [Call.Loud]) (by simp)
    | none =>
      have hw : tw.w.hijack none = (none, { tw.w with hijacked := true }) := by
        rw [ResponseWriter.hijack.eq_def, if_neg hhijacked]
      rw [hw]
      exact concat_used h h.timedOut rfl (by simp [used]) (.inr ⟨hhijacker, rfl⟩)

/-- Any call before the timeout keeps it. -/
theorem before_perform (h : Before cfg calls tw) (c : Call) :
    Before cfg (calls ++ [c]) (tw.perform cfg c).2 := by
  cases c with
  | write p => exact before_write h p
  | writeHeader code => exact before_writeHeader h code
  | flush => exact before_flush h
  | hijack err =>
    rw [perform]
    by_cases hhijacker : cfg.hijacker = true
    · rw [if_pos hhijacker]
      exact before_hijack h err hhijacker
    · rw [if_neg hhijacker]
      exact concat_quiet h (fun hloud => hhijacker hloud.1) (by simp)

/-- The flags after any calls. -/
theorem before_run (cfg : Config) (calls : List Call) : Before cfg calls (run cfg calls {}) := by
  induction calls using List.reverseRecOn with
  | nil => exact ⟨rfl, rfl, by simp [run, used], by simp [run]⟩
  | append_singleton calls c ih =>
    rw [run, List.foldl_append]
    exact before_perform ih c

end TimeoutWriter

/-! ## One side only -/

/-- The response is that of one side. -/
structure OneSided (cfg : Config) (body : Bytes) (before after : List Call) : Prop where
  /-- The error is sent only if nothing of the handler was committed, -/
  sends : ((TimeoutWriter.run cfg before {}).timeout body).2.w.sent ≠
      (TimeoutWriter.run cfg before {}).w.sent →
    (TimeoutWriter.run cfg before {}).w.Untouched
  /-- nothing of the handler is sent after the limit, -/
  silent : (serveHTTP cfg body before .timeout after).2.w =
    ((TimeoutWriter.run cfg before {}).timeout body).2.w
  /-- and if the handler has committed or hijacked the response, the request is aborted. -/
  aborts : ¬(TimeoutWriter.run cfg before {}).w.Untouched →
    (serveHTTP cfg body before .timeout after).1 = .panicked errAbortHandler ∧
      (serveHTTP cfg body before .timeout after).2.w.sent =
        (TimeoutWriter.run cfg before {}).w.sent

/-- The handler has flushed, and done nothing else that the writer keeps. -/
def OnlyFlushed (cfg : Config) (before : List Call) : Prop :=
  cfg.flusher = true ∧ .flush ∈ before ∧ ∀ c ∈ before, ¬c.Loud cfg

theorem serveHTTP_timeout (cfg : Config) (body : Bytes) (before after : List Call) :
    serveHTTP cfg body before .timeout after =
      (if ((TimeoutWriter.run cfg before {}).timeout body).1 then .panicked errAbortHandler
        else .returned, ((TimeoutWriter.run cfg before {}).timeout body).2) := by
  have hafter := TimeoutWriter.run_timedOut
    (TimeoutWriter.timedOut_timeout body (TimeoutWriter.run cfg before {})) cfg after
  simp only [serveHTTP, hafter]

theorem not_flags (tw : TimeoutWriter) : (!tw.wroteHeader && !tw.hijacked) = !tw.used := by
  rw [TimeoutWriter.used, Bool.not_or]

/-- If a flag is set, the limit aborts the request and sends nothing. -/
theorem timeout_used {tw : TimeoutWriter} (h : tw.used = true) (body : Bytes) :
    tw.timeout body = (true, { tw with timedOut := true }) := by
  rw [TimeoutWriter.timeout, not_flags, h]
  rfl

/-- If none is, the limit does not abort it. -/
theorem timeout_unused {tw : TimeoutWriter} (h : tw.used = false) (body : Bytes) :
    (tw.timeout body).1 = false := by
  obtain ⟨w, hw⟩ : ∃ w, tw.w.writeHeader 504 = some w :=
    Option.ne_none_iff_exists'.1 (ResponseWriter.writeHeader_ne_none (by decide))
  rw [TimeoutWriter.timeout, not_flags, h, hw]
  rfl

/-- The response is that of one side, unless the handler has only flushed before the limit. -/
theorem oneSided_iff (cfg : Config) (body : Bytes) (before after : List Call) :
    OneSided cfg body before after ↔ ¬OnlyFlushed cfg before := by
  obtain ⟨-, hhijacked, hused, hstatus⟩ := TimeoutWriter.before_run cfg before
  have hserve := serveHTTP_timeout cfg body before after
  set tw := TimeoutWriter.run cfg before {}
  cases huse : tw.used with
  | true =>
    obtain ⟨c, hmem, hloud⟩ := hused.1 huse
    refine iff_of_true ?_ fun h => h.2.2 c hmem hloud
    rw [timeout_used huse] at hserve
    exact {
      sends := fun hsent => absurd (by rw [timeout_used huse]) hsent
      silent := by rw [hserve, timeout_used huse]
      aborts := fun _ => ⟨by rw [hserve]; rfl, by rw [hserve]⟩ }
  | false =>
    have hnoLoud : ∀ c ∈ before, ¬c.Loud cfg := fun c hmem hloud => by
      rw [hused.2 ⟨c, hmem, hloud⟩] at huse
      cases huse
    have hnotHijacked : tw.w.hijacked = false := by
      rw [← hhijacked]
      exact (Bool.or_eq_false_iff.1 huse).2
    -- A handler that only flushed has sent a status, and one that did nothing has not.
    have honly : OnlyFlushed cfg before ↔ tw.w.status ≠ none := by
      rw [hstatus huse, OnlyFlushed, ← and_assoc, and_iff_left hnoLoud]
    rw [honly, not_not]
    constructor
    · intro h
      by_contra hne
      have habort := (h.aborts fun huntouched => hne huntouched.1).1
      rw [hserve, timeout_unused huse] at habort
      cases habort
    · intro hnone
      have huntouched : tw.w.Untouched := ⟨hnone, hnotHijacked⟩
      exact ⟨fun _ => huntouched, by rw [hserve], fun h => absurd huntouched h⟩

/-- If the handler has done nothing, the client gets the error. -/
theorem sent_timeout {cfg : Config} {body : Bytes} {before : List Call} (after : List Call)
    (hquiet : ∀ c ∈ before, ¬c.Loud cfg) (hflush : .flush ∉ before) (hbody : body ≠ []) :
    (serveHTTP cfg body before .timeout after).2.w.sent =
      (TimeoutWriter.run cfg before {}).w.sent ++ [.status 504, .body body] := by
  obtain ⟨-, hhijacked, hused, hstatus⟩ := TimeoutWriter.before_run cfg before
  rw [serveHTTP_timeout]
  set tw := TimeoutWriter.run cfg before {}
  have huse : tw.used = false := by
    rw [← Bool.not_eq_true, hused]
    rintro ⟨c, hmem, hloud⟩
    exact hquiet c hmem hloud
  have huntouched : tw.w.Untouched := by
    refine ⟨by_contra fun hne => hflush ((hstatus huse).1 hne).2, ?_⟩
    rw [← hhijacked]
    exact (Bool.or_eq_false_iff.1 huse).2
  have hsent := ResponseWriter.write_writeHeader huntouched (by decide : (200 : ℤ) ≤ 504 ∧ _)
    (by decide) hbody
  obtain ⟨w, hw, hwrite⟩ := Option.map_eq_some_iff.1 hsent
  rw [TimeoutWriter.timeout, not_flags, huse, hw]
  exact hwrite

theorem not_oneSided_flush : ¬OneSided {} [123, 125] [.flush] [] := by
  intro h
  have hsent : ((TimeoutWriter.run {} [.flush] {}).timeout [123, 125]).2.w.sent =
      [.status 200, .body [123, 125]] := by decide
  have huntouched := h.sends (by rw [hsent]; decide)
  exact absurd huntouched.1 (by decide)

end Apiserver.Timeout
