import Apiserver.Go.Http
import Apiserver.Go.ResponseWriter

/-!
# Response writers with a header

The header of a response can be changed until the response is committed to a status, and the
header that is sent is the one at that time.

* `Sent`: a response is committed to a status that allows a body, and a header;
* `Sent.write`, `sent_writeHeader`: how it gets there, and that it stays there.
-/

namespace Go

/-- A response writer and its header. -/
structure HeaderWriter extends ResponseWriter where
  header : Header := ∅
  /-- The header that was sent with the status. -/
  sentHeader : Option Header := none

namespace HeaderWriter

variable (w : HeaderWriter)

/-- `Header().Set`. -/
def set (key value : String) : HeaderWriter := { w with header := w.header.set key value }

/-- `Header().Add`. -/
def add (key value : String) : HeaderWriter :=
  { w with header := w.header.push (canonicalMIMEHeaderKey key) value }

/-- The header is sent when the response is committed to a status. -/
def update (r : ResponseWriter) : HeaderWriter where
  toResponseWriter := r
  header := w.header
  sentHeader := if w.status.isNone && r.status.isSome then some w.header else w.sentHeader

/-- `WriteHeader`; `none` for a panic. -/
def writeHeader (code : ℤ) : Option HeaderWriter :=
  (w.toResponseWriter.writeHeader code).map w.update

/-- `Write`: what it returns, and the response. -/
def write (p : Bytes) : (ℕ × Option String) × HeaderWriter :=
  let (result, r) := w.toResponseWriter.write p
  (result, w.update r)

/-- The body of a response. -/
def body : Bytes := w.sent.flatMap fun piece =>
  match piece with
  | .body p => p
  | .informational _ => []
  | .status _ => []

/-- Nothing was sent. -/
structure Fresh : Prop where
  status : w.status = none
  hijacked : w.hijacked = false
  body : w.body = []

/-- A response is committed to a status and a header. -/
structure Sent (code : ℤ) (header : Header) (body : Bytes) : Prop where
  status : w.status = some code
  hijacked : w.hijacked = false
  sentHeader : w.sentHeader = some header
  body : w.body = body
  allowed : bodyAllowedForStatus code = true

variable {w} {code : ℤ} {header : Header} {body p : Bytes}

theorem Fresh.set (h : w.Fresh) (key value : String) : (w.set key value).Fresh :=
  ⟨h.status, h.hijacked, h.body⟩

theorem Fresh.add (h : w.Fresh) (key value : String) : (w.add key value).Fresh :=
  ⟨h.status, h.hijacked, h.body⟩

/-- A final status is sent with the header. -/
theorem sent_writeHeader (h : w.Fresh) (hcode : 200 ≤ code ∧ code ≤ 999)
    (hbody : bodyAllowedForStatus code = true) :
    ∃ w', w.writeHeader code = some w' ∧ w'.Sent code w.header [] := by
  have hheader : w.toResponseWriter.writeHeader code =
      some ⟨some code, w.hijacked, w.sent ++ [.status code]⟩ := by
    rw [ResponseWriter.writeHeader, h.hijacked, h.status, if_neg Bool.false_ne_true,
      if_neg (by simp), if_neg (by omega), if_neg (by omega), ResponseWriter.commit, h.status,
      h.hijacked]
    rfl
  refine ⟨w.update ⟨some code, w.hijacked, w.sent ++ [.status code]⟩, ?_, rfl, h.hijacked, ?_, ?_,
    hbody⟩
  · rw [writeHeader, hheader, Option.map_some]
  · simp [update, h.status]
  · have hempty := h.body
    simp only [HeaderWriter.body] at hempty ⊢
    simp [update, hempty]

/-- What is written after that goes to the body. -/
theorem Sent.write (h : w.Sent code header body) (p : Bytes) :
    ∃ w', w.write p = ((p.length, none), w') ∧ w'.Sent code header (body ++ p) := by
  have hcommit : w.toResponseWriter.commit 200 = w.toResponseWriter := by
    rw [ResponseWriter.commit, h.status]
    rfl
  have hsome : w.status.isNone = false := by rw [h.status]; rfl
  by_cases hp : p.length = 0
  · have hwrite : w.toResponseWriter.write p = ((0, none), w.toResponseWriter) := by
      rw [ResponseWriter.write, h.hijacked, if_neg Bool.false_ne_true, hcommit]
      exact if_pos hp
    rw [HeaderWriter.write, hwrite, hp, List.length_eq_zero_iff.1 hp, List.append_nil]
    refine ⟨_, rfl, h.status, h.hijacked, ?_, h.body, h.allowed⟩
    simp [update, hsome, h.sentHeader]
  · have hwrite : w.toResponseWriter.write p =
        ((p.length, none), { w.toResponseWriter with sent := w.sent ++ [.body p] }) := by
      rw [ResponseWriter.write, h.hijacked, if_neg Bool.false_ne_true, hcommit]
      simp [hp, h.status, h.allowed]
    rw [HeaderWriter.write, hwrite]
    refine ⟨_, rfl, h.status, h.hijacked, ?_, ?_, h.allowed⟩
    · simp [update, hsome, h.sentHeader]
    · rw [← h.body]
      simp [HeaderWriter.body, update]

end HeaderWriter

namespace Header

theorem get_set_self (h : Header) (key value : String) : (h.set key value).get key = value := by
  simp [get, values, index, set]

theorem get_set_of_ne {key key' : String}
    (hne : canonicalMIMEHeaderKey key' ≠ canonicalMIMEHeaderKey key) (h : Header)
    (value : String) : (h.set key value).get key' = h.get key' := by
  simp [get, values, index, set, AList.lookup_insert_ne hne]

theorem get_push_of_ne {key key' : String} (hne : canonicalMIMEHeaderKey key' ≠ key)
    (h : Header) (value : String) : (h.push key value).get key' = h.get key' := by
  simp [get, values, index, push, AList.lookup_insert_ne hne]

end Header

end Go
