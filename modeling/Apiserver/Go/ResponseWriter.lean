import Apiserver.Go.Encoding

/-!
# The response writer of a server

What `net/http` does with a response: it is committed to a status by the first call that
sends something, or by `WriteHeader` with a code that is not informational. Once the
connection is hijacked, nothing is sent any more.

What is sent is a list of pieces, in order. Of the header of a response, only the status is
kept.
-/

namespace Go

/-- A part of a response. -/
inductive Piece
  | informational (code : ℤ)
  | status (code : ℤ)
  | body (p : Bytes)
  deriving DecidableEq

/-- The `response` of a server, for a request with HTTP/1. -/
structure ResponseWriter where
  status : Option ℤ := none
  hijacked : Bool := false
  sent : List Piece := []
  deriving DecidableEq

/-- `http.ErrHijacked`. -/
def errHijacked : String := "http: connection has been hijacked"

/-- `http.ErrBodyNotAllowed`. -/
def errBodyNotAllowed : String := "http: request method or response status code does not allow body"

/-- `bodyAllowedForStatus`. -/
def bodyAllowedForStatus (status : ℤ) : Bool :=
  !((100 ≤ status && status ≤ 199) || status == 204 || status == 304)

namespace ResponseWriter

/-- Nothing was committed to. -/
def Untouched (w : ResponseWriter) : Prop := w.status = none ∧ w.hijacked = false

/-- The response is committed to a status, if it is not yet. -/
def commit (code : ℤ) (w : ResponseWriter) : ResponseWriter :=
  if w.status.isSome then w else { w with status := some code, sent := w.sent ++ [.status code] }

/-- `WriteHeader`; `none` for a panic. -/
def writeHeader (code : ℤ) (w : ResponseWriter) : Option ResponseWriter :=
  if w.hijacked then some w
  else if w.status.isSome then some w
  else if code < 100 ∨ 999 < code then none
  else if 100 ≤ code ∧ code ≤ 199 ∧ code ≠ 101 then
    some { w with sent := w.sent ++ [.informational code] }
  else some (w.commit code)

/-- `Write`: what it returns, and the response. -/
def write (p : Bytes) (w : ResponseWriter) : (ℕ × Option String) × ResponseWriter :=
  if w.hijacked then ((0, some errHijacked), w)
  else
    let w := w.commit 200
    if p.length = 0 then ((0, none), w)
    else if !bodyAllowedForStatus (w.status.getD 200) then ((0, some errBodyNotAllowed), w)
    else ((p.length, none), { w with sent := w.sent ++ [.body p] })

/-- `Flush`; `none` for a panic, as the buffer is gone with the connection. -/
def flush (w : ResponseWriter) : Option ResponseWriter :=
  if w.hijacked then none else some (w.commit 200)

/-- `Hijack`, with the error of taking over the connection, if any. -/
def hijack (err : Option String) (w : ResponseWriter) : Option String × ResponseWriter :=
  if w.hijacked then (some errHijacked, w)
  else
    match err with
    | some err => (some err, w)
    | none => (none, { w with hijacked := true })

variable {w : ResponseWriter} {code : ℤ} {p : Bytes}

@[simp] theorem hijacked_commit : (w.commit code).hijacked = w.hijacked := by
  rw [commit]
  split_ifs <;> rfl

theorem status_commit_ne_none : (w.commit code).status ≠ none := by
  rw [commit]
  split_ifs with hsome
  · exact fun hnone => absurd hsome (by simp [hnone])
  · exact Option.some_ne_none _

@[simp] theorem hijacked_write : (w.write p).2.hijacked = w.hijacked := by
  simp only [write]
  split_ifs
  · rfl
  · exact hijacked_commit
  · exact hijacked_commit
  · exact hijacked_commit

theorem hijacked_writeHeader {w' : ResponseWriter} (h : w.writeHeader code = some w') :
    w'.hijacked = w.hijacked := by
  rw [writeHeader] at h
  split_ifs at h
  · rw [← Option.some.inj h]
  · rw [← Option.some.inj h]
  · rw [← Option.some.inj h]
  · rw [← Option.some.inj h, hijacked_commit]

/-- `WriteHeader` does not panic on a code with three digits. -/
theorem writeHeader_ne_none (hcode : 100 ≤ code ∧ code ≤ 999) : w.writeHeader code ≠ none := by
  rw [writeHeader]
  split_ifs with hhijacked hsome hpanic
  · exact Option.some_ne_none _
  · exact Option.some_ne_none _
  · omega
  · exact Option.some_ne_none _
  · exact Option.some_ne_none _

/-- A final status and a body are sent by a response that is untouched. -/
theorem write_writeHeader (h : w.Untouched) (hcode : 200 ≤ code ∧ code ≤ 999)
    (hbody : bodyAllowedForStatus code = true) (hp : p ≠ []) :
    (w.writeHeader code).map (fun w => (w.write p).2.sent) =
      some (w.sent ++ [.status code, .body p]) := by
  obtain ⟨hstatus, hhijacked⟩ := h
  have hcommit : w.commit code =
      { w with status := some code, sent := w.sent ++ [.status code] } := by
    rw [commit, hstatus]
    rfl
  have hheader : w.writeHeader code = some (w.commit code) := by
    rw [writeHeader, hhijacked, hstatus, if_neg Bool.false_ne_true, if_neg (by simp),
      if_neg (by omega), if_neg (by omega)]
  have hagain : (w.commit code).commit 200 = w.commit code := by
    rw [hcommit]
    rfl
  rw [hheader, Option.map_some, write, hijacked_commit, hhijacked, if_neg Bool.false_ne_true]
  dsimp only
  rw [hagain, if_neg (by simpa using hp), hcommit, Option.getD_some, hbody, if_neg (by simp)]
  simp

end ResponseWriter

end Go
