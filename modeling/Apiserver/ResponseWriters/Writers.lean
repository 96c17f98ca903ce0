import Apiserver.Go.HeaderWriter
import Apiserver.ResponseWriters.Negotiation

/-!
# Writing responses

How an object or an error becomes a response (`pkg/responsewriters`). The object is written by
an encoder to a writer that sends the status and the header with the first bytes, and decides
then whether to compress. If the encoder fails, the error is written after what it has written.

* `serializeObject_reads`: what a client reads that undoes the compression, whatever the encoder
  does: the bytes of the encoder, and then an error if there is one. An error after the first
  bytes is not seen in the status;
* `errorNegotiated_reads`: a client that gets an error reads its code, whatever it accepts and
  however the encoder fails;
* `writeObject_reads`: an object is read with the media type that the client prefers, or there
  is none.
-/

namespace Apiserver.ResponseWriters

open Go

/-! ## Errors -/

/-- `api.Status`. -/
structure Status where
  status : String := ""
  code : ℤ := 0
  reason : String := ""
  message : String := ""
  /-- `Details.RetryAfterSeconds`, if there are details. -/
  retryAfterSeconds : Option ℤ := none
  deriving DecidableEq

/-- A Go error: one with a status, or another one. -/
inductive GoError
  | status (status : Status)
  | other (text : String)
  deriving DecidableEq

/-- The constants of `api`. -/
structure Constants where
  statusSuccess : String
  statusFailure : String
  reasonUnknown : String
  reasonNotAcceptable : String

/-- `ErrorToAPIStatus`. -/
def errorToAPIStatus (k : Constants) : GoError → Status
  | .status t =>
    let status := if t.status.isEmpty then { t with status := k.statusFailure } else t
    if status.status = k.statusSuccess then
      if status.code = 0 then { status with code := 200 } else status
    else if status.code = 0 then { status with code := 500 } else status
  | .other text =>
    { status := k.statusFailure, code := 500, reason := k.reasonUnknown, message := text }

/-- `errNotAcceptable`. -/
def errNotAcceptable (k : Constants) (accepted : List String) : GoError :=
  .status {
    status := k.statusFailure
    code := 406
    reason := k.reasonNotAcceptable
    message := notAcceptableMessage accepted }

/-! ## Encoders and compression -/

/-- An encoder: the bytes it writes for an object, write by write, and its error. It stops at a
    write that fails. -/
abbrev Encoder (V : Type) := V → List Bytes × Option GoError

/-- What a stream of writes is compressed to. -/
def compressed {G : Type} (write : G → Bytes → Bytes × G) (close : G → Bytes) :
    G → List Bytes → Bytes
  | g, [] => close g
  | g, p :: ps => (write g p).1 ++ compressed write close (write g p).2 ps

/-- A `gzip.Writer` with states `G`, and a reader that undoes it. -/
structure Gzip (G : Type) where
  /-- The state after `Reset`. -/
  reset : G
  /-- What `Write` writes, -/
  write : G → Bytes → Bytes × G
  /-- and `Close`. -/
  close : G → Bytes
  gunzip : Bytes → Option Bytes
  gunzip_compressed : ∀ ps, gunzip (compressed write close reset ps) = some ps.flatten

def defaultGzipThresholdBytes : ℕ := 128 * 1024

/-- `negotiateContentEncoding`: the loop cuts the header at its commas. -/
def negotiateContentEncoding (req : Request) : String :=
  let encoding := req.header.get "Accept-Encoding"
  if encoding.isEmpty then ""
  else if (split encoding ',').any (trimSpace · == "gzip") then "gzip" else ""

/-- What the bytes of a response are written to. -/
inductive Out (G : Type)
  | plain
  | gzip (g : G)

/-- `deferredResponseWriter`; `out` is there once it has written. -/
structure DeferredResponseWriter (G : Type) where
  mediaType : String
  statusCode : ℤ
  contentEncoding : String
  out : Option (Out G) := none
  hw : HeaderWriter

/-- What is taken from outside: the compression, `json.Marshal`, the status as an object, and
    what the clients and the server accept. -/
structure Env (G V : Type) where
  constants : Constants
  gz : Gzip G
  marshal : V → Except Error Bytes
  ofStatus : Status → V
  parseAccept : String → List Clause
  /-- `SupportedMediaTypes`. -/
  supported : List (SerializerInfo (Encoder V))

variable {G V : Type} (e : Env G V)

namespace DeferredResponseWriter

variable (w : DeferredResponseWriter G)

/-- `w.w.Write`. -/
def writeOut (out : Out G) (p : Bytes) : Option Error × DeferredResponseWriter G :=
  match out with
  | .plain =>
    let (result, hw) := w.hw.write p
    (result.2, { w with out := some .plain, hw })
  | .gzip g =>
    let (bytes, g) := e.gz.write g p
    let (result, hw) := w.hw.write bytes
    (result.2, { w with out := some (.gzip g), hw })

/-- The switch of the first write: what to write to, and the header. -/
def start (p : Bytes) : Out G × HeaderWriter :=
  if w.contentEncoding = "gzip" ∧ defaultGzipThresholdBytes < p.length then
    (.gzip e.gz.reset, (w.hw.set "Content-Encoding" "gzip").add "Vary" "Accept-Encoding")
  else (.plain, w.hw)

/-- `Write`, of whose result only the error is used; `none` for a panic. -/
def write (p : Bytes) : Option (Option Error × DeferredResponseWriter G) :=
  match w.out with
  | some out => some (w.writeOut e out p)
  | none =>
    let (out, hw) := w.start e p
    match (hw.set "Content-Type" w.mediaType).writeHeader w.statusCode with
    | none => none
    | some hw => some ({ w with hw }.writeOut e out p)

/-- `Close`. -/
def close : Option Error × DeferredResponseWriter G :=
  match w.out with
  | some (.gzip g) =>
    let (result, hw) := w.hw.write (e.gz.close g)
    (result.2, { w with hw })
  | some .plain => (none, w)
  | none => (none, w)

/-- `encoder.Encode`, to the writer. -/
def encode (err : Option GoError) : List Bytes → DeferredResponseWriter G →
    Option (Option GoError × DeferredResponseWriter G)
  | [], w => some (err, w)
  | p :: ps, w =>
    match w.write e p with
    | none => none
    | some (some text, w) => some (some (.other text), w)
    | some (none, w) => encode err ps w

end DeferredResponseWriter

/-- What is written for an error: its media type, if it is not the one of the object, and its
    bytes. -/
def fallback (encoder : Encoder V) (status : Status) : Option String × Bytes :=
  match encoder (e.ofStatus status) with
  | (output, none) => (none, output.flatten)
  | (_, some _) => (some "text/plain", (status.reason ++ ": " ++ status.message).toUTF8.toList)

/-- `SerializeObject`; `none` for a panic. -/
def serializeObject (mediaType : String) (encoder : Encoder V) (hw : HeaderWriter) (req : Request)
    (statusCode : ℤ) (object : V) : Option HeaderWriter :=
  let w : DeferredResponseWriter G :=
    { mediaType, statusCode, contentEncoding := negotiateContentEncoding req, hw }
  match w.encode e (encoder object).2 (encoder object).1 with
  | none => none
  | some (none, w) => some (w.close e).2.hw
  | some (some err, w) =>
    let status := errorToAPIStatus e.constants err
    let (textPlain, output) := fallback e encoder status
    let w := { w with
      statusCode := if 200 ≤ statusCode ∧ statusCode < 400 then status.code else w.statusCode
      mediaType := textPlain.getD w.mediaType }
    match w.write e output with
    | none => none
    | some (_, w) => some (w.close e).2.hw

/-- `http.Error`. -/
def httpError (w : HeaderWriter) (text : String) (code : ℤ) : Option HeaderWriter :=
  match ((w.set "Content-Type" "text/plain; charset=utf-8").set "X-Content-Type-Options"
      "nosniff").writeHeader code with
  | none => none
  | some w => some (w.write (text ++ "\n").toUTF8.toList).2

/-- `WriteRawJSON`. -/
def writeRawJSON (statusCode : ℤ) (object : V) (w : HeaderWriter) : Option HeaderWriter :=
  match e.marshal object with
  | .error err => httpError w err 500
  | .ok output =>
    match (w.set "Content-Type" "application/json").writeHeader statusCode with
    | none => none
    | some w => some (w.write output).2

/-- `WriteObjectNegotiated`, of an object that is not streamed. -/
def writeObject (w : HeaderWriter) (req : Request) (statusCode : ℤ) (object : V) :
    Option HeaderWriter :=
  match negotiateOutputMediaType e.parseAccept req e.supported with
  | .error accepted =>
    if statusCode < 200 ∨ 400 ≤ statusCode then writeRawJSON e statusCode object w
    else
      let status := errorToAPIStatus e.constants (errNotAcceptable e.constants accepted)
      writeRawJSON e status.code (e.ofStatus status) w
  | .ok info => serializeObject e info.mediaType info.serializer w req statusCode object

/-- The header that tells when to try again. -/
def setRetryAfter (status : Status) (w : HeaderWriter) : HeaderWriter :=
  match status.retryAfterSeconds with
  | none => w
  | some seconds => if 0 < seconds then w.set "Retry-After" (toString seconds) else w

/-- `ErrorNegotiated`: the code it returns, and the response. A status is not streamed. -/
def errorNegotiated (err : GoError) (w : HeaderWriter) (req : Request) :
    Option (ℤ × HeaderWriter) :=
  let status := errorToAPIStatus e.constants err
  let w := setRetryAfter status w
  if status.code = 204 then (w.writeHeader 204).map (status.code, ·)
  else (writeObject e w req status.code (e.ofStatus status)).map (status.code, ·)

/-! ## What a client reads -/

/-- A status that is sent, with a body. -/
structure Final (code : ℤ) : Prop where
  ge : 200 ≤ code
  le : code ≤ 999
  allowed : bodyAllowedForStatus code = true

/-- What a client reads: the status, the media type, and the body after the compression is
    undone. -/
def reads (gz : Gzip G) (w : HeaderWriter) : Option (ℤ × String × Option Bytes) :=
  match w.status, w.sentHeader with
  | some code, some header =>
    some (code, header.get "Content-Type",
      if header.get "Content-Encoding" = "gzip" then gz.gunzip w.body else some w.body)
  | _, _ => none

/-- What is meant to be read of an object: the bytes of the encoder, and then of its error. An
    error changes the status and the media type only if nothing was written before it. -/
def answer (encoder : Encoder V) (mediaType : String) (statusCode : ℤ) (object : V) :
    Option (ℤ × String × Bytes) :=
  match encoder object with
  | ([], none) => none
  | (p :: ps, none) => some (statusCode, mediaType, (p :: ps).flatten)
  | ([], some err) =>
    let status := errorToAPIStatus e.constants err
    let (textPlain, output) := fallback e encoder status
    some (if 200 ≤ statusCode ∧ statusCode < 400 then status.code else statusCode,
      textPlain.getD mediaType, output)
  | (p :: ps, some err) =>
    some (statusCode, mediaType,
      (p :: ps).flatten ++ (fallback e encoder (errorToAPIStatus e.constants err)).2)

variable {e} {w : DeferredResponseWriter G} {hw : HeaderWriter} {code : ℤ} {mediaType : String}
  {p : Bytes} {ps qs : List Bytes} {req : Request} {h : Header}

/-- The names of a header that are set with the first bytes. -/
def written : List String := ["Content-Type", "Content-Encoding", "Vary"]

/-- The media type is for no other name, -/
theorem get_setType {key : String}
    (hkey : canonicalMIMEHeaderKey key ≠ canonicalMIMEHeaderKey "Content-Type") :
    (hw.set "Content-Type" mediaType).header.get key = hw.header.get key :=
  Header.get_set_of_ne hkey _ _

theorem encoding_setType :
    (hw.set "Content-Type" mediaType).header.get "Content-Encoding" =
      hw.header.get "Content-Encoding" :=
  get_setType (by decide)

/-- so that the others are kept. -/
theorem keeps_setType {key : String} (hkey : canonicalMIMEHeaderKey key ∉ written) :
    (hw.set "Content-Type" mediaType).header.get key = hw.header.get key := by
  have htype : canonicalMIMEHeaderKey "Content-Type" ∈ written := by decide
  exact get_setType fun heq => hkey (heq ▸ htype)

/-- The body of a response carries what was written. -/
def Out.Carries (e : Env G V) (header : Header) (body : Bytes) (ps : List Bytes) : Out G → Prop
  | .plain => header.get "Content-Encoding" ≠ "gzip" ∧ body = ps.flatten
  | .gzip g => header.get "Content-Encoding" = "gzip" ∧
      ∀ qs, body ++ compressed e.gz.write e.gz.close g qs =
        compressed e.gz.write e.gz.close e.gz.reset (ps ++ qs)

/-- A writer has sent its header, on top of `h`, and some bytes. -/
structure Wrote (e : Env G V) (req : Request) (h : Header) (code : ℤ) (mediaType : String)
    (ps : List Bytes) (w : DeferredResponseWriter G) : Prop where
  exists_sent : ∃ out header body, w.out = some out ∧ w.hw.Sent code header body ∧
    out.Carries e header body ps ∧ header.get "Content-Type" = mediaType ∧
    (header.get "Content-Encoding" = "gzip" → negotiateContentEncoding req = "gzip") ∧
    ∀ key, canonicalMIMEHeaderKey key ∉ written → header.get key = h.get key

/-- Bytes that are written are carried. -/
theorem writeOut_spec {out : Out G} {header : Header} {body : Bytes}
    (hsent : w.hw.Sent code header body) (hcarries : out.Carries e header body ps) (p : Bytes) :
    ∃ out' body' hw', w.writeOut e out p = (none, { w with out := some out', hw := hw' }) ∧
      hw'.Sent code header body' ∧ out'.Carries e header body' (ps ++ [p]) := by
  cases out with
  | plain =>
    obtain ⟨hw', hwrite, hsent'⟩ := hsent.write p
    refine ⟨.plain, _, hw', ?_, hsent', hcarries.1, ?_⟩
    · rw [DeferredResponseWriter.writeOut, hwrite]
    · rw [hcarries.2]
      simp
  | gzip g =>
    obtain ⟨hw', hwrite, hsent'⟩ := hsent.write (e.gz.write g p).1
    -- What is still to come makes up for what the compression holds back.
    refine ⟨.gzip (e.gz.write g p).2, _, hw', ?_, hsent', hcarries.1, fun qs => ?_⟩
    · rw [DeferredResponseWriter.writeOut]
      dsimp only
      rw [hwrite]
    · rw [List.append_assoc, List.append_assoc]
      exact hcarries.2 (p :: qs)

/-- Later bytes, -/
theorem Wrote.write (hwrote : Wrote e req h code mediaType ps w) (p : Bytes) :
    ∃ w', w.write e p = some (none, w') ∧ Wrote e req h code mediaType (ps ++ [p]) w' := by
  obtain ⟨out, header, body, hout, hsent, hcarries, htype, hencoding, hkeeps⟩ :=
    hwrote.exists_sent
  obtain ⟨out', body', hw', heq, hsent', hcarries'⟩ := writeOut_spec hsent hcarries p
  refine ⟨{ w with out := some out', hw := hw' }, ?_, out', header, body', rfl, hsent', hcarries',
    htype, hencoding, hkeeps⟩
  rw [DeferredResponseWriter.write, hout]
  dsimp only
  rw [heq]

/-- What the first write makes of the header. -/
theorem start_spec (hfresh : w.hw.Fresh)
    (hencoding : w.hw.header.get "Content-Encoding" ≠ "gzip") (p : Bytes) :
    (w.start e p).2.Fresh ∧
      (∀ mediaType, (w.start e p).1.Carries e
        ((w.start e p).2.set "Content-Type" mediaType).header [] []) ∧
      (((w.start e p).2.header).get "Content-Encoding" = "gzip" → w.contentEncoding = "gzip") ∧
      ∀ key, canonicalMIMEHeaderKey key ∉ written →
        (w.start e p).2.header.get key = w.hw.header.get key := by
  have hname : canonicalMIMEHeaderKey "Content-Encoding" = "Content-Encoding" := by decide
  have hvary : canonicalMIMEHeaderKey "Vary" = "Vary" := by decide
  have hne : canonicalMIMEHeaderKey "Content-Encoding" ≠ canonicalMIMEHeaderKey "Vary" := by
    decide
  unfold DeferredResponseWriter.start
  split_ifs with hgzip
  · refine ⟨(hfresh.set _ _).add _ _, fun mediaType => ⟨?_, fun qs => rfl⟩, fun _ => hgzip.1,
      fun key hkey => ?_⟩
    · rw [encoding_setType]
      simp only [HeaderWriter.set, HeaderWriter.add]
      rw [Header.get_push_of_ne hne, Header.get_set_self]
    · simp only [HeaderWriter.set, HeaderWriter.add]
      simp only [written, List.mem_cons, not_or] at hkey
      rw [Header.get_push_of_ne (hvary ▸ hkey.2.2.1),
        Header.get_set_of_ne (hname.symm ▸ hkey.2.1)]
  · refine ⟨hfresh, fun mediaType => ⟨?_, rfl⟩, fun h => absurd h hencoding, fun _ _ => rfl⟩
    rwa [encoding_setType]

/-- and the first bytes, with which the header is sent. -/
theorem wrote_of_none (req : Request) (hout : w.out = none) (hfresh : w.hw.Fresh)
    (hreq : w.contentEncoding = negotiateContentEncoding req)
    (hencoding : w.hw.header.get "Content-Encoding" ≠ "gzip") (hcode : Final w.statusCode)
    (p : Bytes) :
    ∃ w', w.write e p = some (none, w') ∧
      Wrote e req w.hw.header w.statusCode w.mediaType [p] w' := by
  obtain ⟨hstart, hcarries, hgzip, hkeeps⟩ := start_spec (e := e) hfresh hencoding p
  obtain ⟨hw', hheader, hsent⟩ := HeaderWriter.sent_writeHeader
    (hstart.set "Content-Type" w.mediaType) ⟨hcode.ge, hcode.le⟩ hcode.allowed
  obtain ⟨out', body', hw'', heq, hsent', hcarries'⟩ :=
    writeOut_spec (w := { w with hw := hw' }) hsent (hcarries w.mediaType) p
  refine ⟨{ w with out := some out', hw := hw'' }, ?_, out', _, body', rfl, hsent', hcarries',
    Header.get_set_self _ _ _, ?_, ?_⟩
  · rw [DeferredResponseWriter.write, hout]
    dsimp only
    rw [hheader]
    rw [hout] at heq
    dsimp only
    rw [heq]
  · rwa [encoding_setType, ← hreq]
  · intro key hkey
    rw [keeps_setType hkey, hkeeps key hkey]

/-- What is read at the end. -/
theorem Wrote.reads (hwrote : Wrote e req h code mediaType ps w) :
    reads e.gz (w.close e).2.hw = some (code, mediaType, some ps.flatten) := by
  obtain ⟨out, header, body, hout, hsent, hcarries, htype, -, -⟩ := hwrote.exists_sent
  rw [DeferredResponseWriter.close, hout]
  cases out with
  | plain =>
    dsimp only
    rw [ResponseWriters.reads, hsent.status, hsent.sentHeader]
    dsimp only
    rw [if_neg hcarries.1, hsent.body, hcarries.2, htype]
  | gzip g =>
    obtain ⟨hw', hwrite, hsent'⟩ := hsent.write (e.gz.close g)
    dsimp only
    rw [hwrite, ResponseWriters.reads, hsent'.status, hsent'.sentHeader]
    dsimp only
    have hall := hcarries.2 []
    rw [compressed, List.append_nil] at hall
    rw [if_pos hcarries.1, hsent'.body, hall, e.gz.gunzip_compressed, htype]

/-- The rest of an encoder. -/
theorem Wrote.encode (hwrote : Wrote e req h code mediaType ps w)
    (err : Option GoError) (qs : List Bytes) :
    ∃ w', w.encode e err qs = some (err, w') ∧ Wrote e req h code mediaType (ps ++ qs) w' := by
  induction qs generalizing ps w with
  | nil => exact ⟨w, rfl, (List.append_nil ps).symm ▸ hwrote⟩
  | cons q qs ih =>
    obtain ⟨w', hwrite, hwrote'⟩ := hwrote.write q
    obtain ⟨w'', hencode, hwrote''⟩ := ih hwrote'
    refine ⟨w'', ?_, ?_⟩
    · rw [DeferredResponseWriter.encode, hwrite]
      exact hencode
    · rwa [List.append_assoc] at hwrote''

/-- All of an encoder that writes something. -/
theorem wrote_encode (req : Request) (hout : w.out = none) (hfresh : w.hw.Fresh)
    (hreq : w.contentEncoding = negotiateContentEncoding req)
    (hencoding : w.hw.header.get "Content-Encoding" ≠ "gzip") (hcode : Final w.statusCode)
    (err : Option GoError) (p : Bytes) (ps : List Bytes) :
    ∃ w', w.encode e err (p :: ps) = some (err, w') ∧
      Wrote e req w.hw.header w.statusCode w.mediaType (p :: ps) w' := by
  obtain ⟨w₁, hwrite, hwrote⟩ := wrote_of_none (e := e) req hout hfresh hreq hencoding hcode p
  obtain ⟨w', hencode, hwrote'⟩ := hwrote.encode err ps
  refine ⟨w', ?_, hwrote'⟩
  rw [DeferredResponseWriter.encode, hwrite]
  exact hencode

/-- A response is written, on top of a header. -/
structure Responds (e : Env G V) (req : Request) (h : Header) (hw : HeaderWriter)
    (answer : ℤ × String × Bytes) : Prop where
  reads : reads e.gz hw = some (answer.1, answer.2.1, some answer.2.2)
  /-- It is compressed only for a client that accepts this, -/
  encoding : ∀ header, hw.sentHeader = some header → header.get "Content-Encoding" = "gzip" →
    negotiateContentEncoding req = "gzip"
  /-- and keeps the rest of the header. -/
  keeps : ∀ header, hw.sentHeader = some header →
    ∀ key, canonicalMIMEHeaderKey key ∉ written → header.get key = h.get key

theorem sentHeader_close (hsent : ∃ header body, w.hw.Sent code header body) :
    (w.close e).2.hw.sentHeader = w.hw.sentHeader := by
  obtain ⟨header, body, hsent⟩ := hsent
  rw [DeferredResponseWriter.close]
  split
  · rename_i g _
    obtain ⟨hw', hwrite, hsent'⟩ := hsent.write (e.gz.close g)
    rw [hwrite, hsent.sentHeader]
    exact hsent'.sentHeader
  · rfl
  · rfl

/-- Closing the writer makes the response complete. -/
theorem Wrote.responds (hwrote : Wrote e req h code mediaType ps w) :
    Responds e req h (w.close e).2.hw (code, mediaType, ps.flatten) := by
  obtain ⟨out, header, body, -, hsent, -, -, hgzip, hkeeps⟩ := hwrote.exists_sent
  have hheader : ∀ header', (w.close e).2.hw.sentHeader = some header' → header' = header := by
    intro header' hclose
    rw [sentHeader_close ⟨header, body, hsent⟩, hsent.sentHeader] at hclose
    exact (Option.some.inj hclose).symm
  refine ⟨hwrote.reads, fun header' hclose => ?_, fun header' hclose => ?_⟩
  · rw [hheader header' hclose]
    exact hgzip
  · rw [hheader header' hclose]
    exact hkeeps

/-- What a client reads, whatever the encoder does. -/
theorem responds_serializeObject (mediaType : String) (encoder : Encoder V) (req : Request)
    (object : V) {statusCode : ℤ} (hfresh : hw.Fresh)
    (hencoding : hw.header.get "Content-Encoding" ≠ "gzip") (hcode : Final statusCode)
    (hcode' : ∀ err, encoder object = ([], some err) → 200 ≤ statusCode → statusCode < 400 →
      Final (errorToAPIStatus e.constants err).code) :
    ∃ hw', serializeObject e mediaType encoder hw req statusCode object = some hw' ∧
      (answer e encoder mediaType statusCode object = none → hw' = hw) ∧
      ∀ a, answer e encoder mediaType statusCode object = some a →
        Responds e req hw.header hw' a := by
  unfold serializeObject answer
  rcases hobject : encoder object with ⟨_ | ⟨p, ps⟩, _ | err⟩
  · exact ⟨hw, rfl, fun _ => rfl, fun a ha => by cases ha⟩
  · -- Nothing was written before the error, which may set the status and the media type.
    dsimp only [DeferredResponseWriter.encode]
    have hfinal : Final (if 200 ≤ statusCode ∧ statusCode < 400 then
        (errorToAPIStatus e.constants err).code else statusCode) := by
      split_ifs with hrange
      · exact hcode' err hobject hrange.1 hrange.2
      · exact hcode
    obtain ⟨w', hwrite, hwrote⟩ := wrote_of_none (e := e) req
      (w := {
        mediaType := (fallback e encoder (errorToAPIStatus e.constants err)).1.getD mediaType
        statusCode := if 200 ≤ statusCode ∧ statusCode < 400 then
          (errorToAPIStatus e.constants err).code else statusCode
        contentEncoding := negotiateContentEncoding req
        hw }) rfl hfresh rfl hencoding hfinal
      (fallback e encoder (errorToAPIStatus e.constants err)).2
    refine ⟨(w'.close e).2.hw, ?_, (fun hnone => by cases hnone), fun a ha => ?_⟩
    · rw [hwrite]
    · cases ha
      simpa using hwrote.responds
  · obtain ⟨w', hencode, hwrote⟩ := wrote_encode (e := e) req
      (w := ⟨mediaType, statusCode, negotiateContentEncoding req, none, hw⟩) rfl hfresh rfl
      hencoding hcode none p ps
    refine ⟨(w'.close e).2.hw, ?_, (fun hnone => by cases hnone), fun a ha => ?_⟩
    · dsimp only
      rw [hencode]
    · cases ha
      exact hwrote.responds
  · -- The header was sent before the error.
    obtain ⟨w', hencode, hwrote⟩ := wrote_encode (e := e) req
      (w := ⟨mediaType, statusCode, negotiateContentEncoding req, none, hw⟩) rfl hfresh rfl
      hencoding hcode (some err) p ps
    have hsame : Wrote e req hw.header statusCode mediaType (p :: ps) { w' with
        statusCode := if 200 ≤ statusCode ∧ statusCode < 400 then
          (errorToAPIStatus e.constants err).code else w'.statusCode
        mediaType := (fallback e encoder (errorToAPIStatus e.constants err)).1.getD
          w'.mediaType } := ⟨hwrote.exists_sent⟩
    obtain ⟨w'', hwrite, hwrote'⟩ :=
      hsame.write (fallback e encoder (errorToAPIStatus e.constants err)).2
    refine ⟨(w''.close e).2.hw, ?_, (fun hnone => by cases hnone), fun a ha => ?_⟩
    · dsimp only
      rw [hencode]
      dsimp only
      rw [hwrite]
    · cases ha
      simpa using hwrote'.responds

/-- A compression that changes nothing. -/
def exampleGzip : Gzip Unit where
  reset := ()
  write _ p := (p, ())
  close _ := []
  gunzip := some
  gunzip_compressed ps := by
    induction ps with
    | nil => rfl
    | cons p ps ih =>
      rw [compressed, List.flatten_cons]
      exact congrArg (fun l => some (p ++ l)) (Option.some.inj ih)

/-- An encoder that writes two bytes and fails. -/
def exampleEncoder : Encoder Bytes := fun _ => ([[123, 34]], some (.other "unexpected EOF"))

def exampleEnv : Env Unit Bytes where
  constants := ⟨"Success", "Failure", "", "NotAcceptable"⟩
  gz := exampleGzip
  marshal object := .ok object
  ofStatus status := status.message.toUTF8.toList
  parseAccept _ := []
  supported := [⟨"application/json", "application", "json", true, exampleEncoder, none, none⟩]

theorem final_of_le (h : 400 ≤ code) (h' : code ≤ 999) : Final code where
  ge := by omega
  le := h'
  allowed := by
    simp [bodyAllowedForStatus]
    omega

/-- An object that can be marshalled, as it is. -/
theorem responds_writeRawJSON {object : V} {output : Bytes} (req : Request) (hfresh : hw.Fresh)
    (hencoding : hw.header.get "Content-Encoding" ≠ "gzip") (hcode : Final code)
    (hmarshal : e.marshal object = .ok output) :
    ∃ hw', writeRawJSON e code object hw = some hw' ∧
      Responds e req hw.header hw' (code, "application/json", output) := by
  obtain ⟨hw₁, hheader, hsent⟩ := HeaderWriter.sent_writeHeader
    (hfresh.set "Content-Type" "application/json") ⟨hcode.ge, hcode.le⟩ hcode.allowed
  obtain ⟨hw', hwrite, hsent'⟩ := hsent.write output
  have hplain : ((hw.set "Content-Type" "application/json").header).get "Content-Encoding" ≠
      "gzip" := by rwa [encoding_setType]
  refine ⟨hw', ?_, ?_, fun header hsome h => ?_, fun header hsome key hkey => ?_⟩
  · rw [writeRawJSON, hmarshal]
    dsimp only
    rw [hheader]
    dsimp only
    rw [hwrite]
  · rw [reads, hsent'.status, hsent'.sentHeader]
    dsimp only
    rw [if_neg hplain, hsent'.body]
    simp [HeaderWriter.set, Header.get_set_self]
  · rw [hsent'.sentHeader] at hsome
    cases hsome
    exact absurd h hplain
  · rw [hsent'.sentHeader] at hsome
    cases hsome
    exact keeps_setType hkey

/-- An error in an answer leaves a status that is not a success. -/
theorem code_of_answer {encoder : Encoder V} {statusCode : ℤ} {object : V} {a : ℤ × String × Bytes}
    (hcode : 400 ≤ statusCode) (h : answer e encoder mediaType statusCode object = some a) :
    a.1 = statusCode := by
  unfold answer at h
  split at h
  · cases h
  · cases h
    rfl
  · cases h
    exact if_neg (by omega)
  · cases h
    rfl

theorem answer_ne_none {encoder : Encoder V} {object : V} (mediaType : String) (statusCode : ℤ)
    (h : encoder object ≠ ([], none)) : answer e encoder mediaType statusCode object ≠ none := by
  unfold answer
  split
  · rename_i heq
    exact absurd heq h
  · exact Option.some_ne_none _
  · exact Option.some_ne_none _
  · exact Option.some_ne_none _

/-- An object with a status that is not a success is read with that status. -/
theorem responds_writeObject (req : Request) {object : V} {output : Bytes} (hfresh : hw.Fresh)
    (hencoding : hw.header.get "Content-Encoding" ≠ "gzip") (hcode : 400 ≤ code ∧ code ≤ 999)
    (hmarshal : e.marshal object = .ok output)
    (hencoder : ∀ info ∈ e.supported, ∀ encoder, (encoder = info.serializer ∨
      info.prettySerializer = some encoder) → encoder object ≠ ([], none)) :
    ∃ hw' mediaType body, writeObject e hw req code object = some hw' ∧
      Responds e req hw.header hw' (code, mediaType, body) := by
  have hfinal : Final code := final_of_le hcode.1 hcode.2
  unfold writeObject
  cases hnegotiate : negotiateOutputMediaType e.parseAccept req e.supported with
  | error accepted =>
    obtain ⟨hw', heq, hresponds⟩ := responds_writeRawJSON req hfresh hencoding hfinal hmarshal
    refine ⟨hw', _, _, ?_, hresponds⟩
    dsimp only
    rw [if_pos (.inr hcode.1), heq]
  | ok info =>
    obtain ⟨accepts, hchosen, -, hserializer⟩ := chosen_of_negotiateOutputMediaType hnegotiate
    obtain ⟨hw', heq, -, hresponds⟩ := responds_serializeObject (e := e) info.mediaType
      info.serializer req object hfresh hencoding hfinal
      fun err _ hge hlt => absurd hcode.1 (by omega)
    -- An encoder that writes nothing and does not fail would leave the status to the server.
    have hne := hencoder accepts hchosen.mem _ hserializer
    obtain ⟨⟨code', mediaType, body⟩, hanswer⟩ := Option.ne_none_iff_exists'.1
      (answer_ne_none (e := e) info.mediaType code hne)
    have hsame : code' = code := code_of_answer hcode.1 hanswer
    subst hsame
    exact ⟨hw', mediaType, body, heq, hresponds _ hanswer⟩

/-- A client that gets an error reads its code, whatever it accepts, whichever encoder is chosen
    and however that fails. The seconds after which it may try again are in the header. -/
theorem errorNegotiated_reads {err : GoError} {output : Bytes} (req : Request) (hfresh : hw.Fresh)
    (hencoding : hw.header.get "Content-Encoding" ≠ "gzip")
    (hcode : 400 ≤ (errorToAPIStatus e.constants err).code ∧
      (errorToAPIStatus e.constants err).code ≤ 999)
    (hmarshal : e.marshal (e.ofStatus (errorToAPIStatus e.constants err)) = .ok output)
    (hencoder : ∀ info ∈ e.supported, ∀ encoder, (encoder = info.serializer ∨
      info.prettySerializer = some encoder) →
        encoder (e.ofStatus (errorToAPIStatus e.constants err)) ≠ ([], none)) :
    ∃ hw' mediaType body,
      errorNegotiated e err hw req = some ((errorToAPIStatus e.constants err).code, hw') ∧
      reads e.gz hw' = some ((errorToAPIStatus e.constants err).code, mediaType, some body) ∧
      ∀ seconds, (errorToAPIStatus e.constants err).retryAfterSeconds = some seconds →
        0 < seconds → ∀ header, hw'.sentHeader = some header →
        header.get "Retry-After" = toString seconds := by
  have hnot : (errorToAPIStatus e.constants err).code ≠ 204 := by omega
  have hretry : canonicalMIMEHeaderKey "Retry-After" ∉ written := by decide
  have hne : canonicalMIMEHeaderKey "Content-Encoding" ≠ canonicalMIMEHeaderKey "Retry-After" := by
    decide
  have hset : (setRetryAfter (errorToAPIStatus e.constants err) hw).Fresh ∧
      (setRetryAfter (errorToAPIStatus e.constants err) hw).header.get "Content-Encoding" ≠
        "gzip" := by
    unfold setRetryAfter
    split
    · exact ⟨hfresh, hencoding⟩
    · split_ifs
      · refine ⟨hfresh.set _ _, ?_⟩
        simp only [HeaderWriter.set]
        rwa [Header.get_set_of_ne hne]
      · exact ⟨hfresh, hencoding⟩
  obtain ⟨hw', mediaType, body, heq, hresponds⟩ :=
    responds_writeObject req hset.1 hset.2 hcode hmarshal hencoder
  refine ⟨hw', mediaType, body, ?_, hresponds.reads, fun seconds hseconds hpos header hheader => ?_⟩
  · unfold errorNegotiated
    dsimp only
    rw [if_neg hnot, heq]
    rfl
  · rw [hresponds.keeps header hheader _ hretry, setRetryAfter, hseconds]
    dsimp only
    rw [if_pos hpos]
    exact Header.get_set_self _ _ _

/-- An error that tells when to try again. -/
def exampleError : GoError :=
  .status { code := 429, message := "too many requests", retryAfterSeconds := some 5 }

theorem errorNegotiated_reads_retry :
    ∃ hw' mediaType body, errorNegotiated exampleEnv exampleError {} {} = some (429, hw') ∧
      reads exampleEnv.gz hw' = some (429, mediaType, some body) ∧
      ∀ seconds : ℤ, some 5 = some seconds → 0 < seconds → ∀ header, hw'.sentHeader = some header →
        header.get "Retry-After" = toString seconds :=
  @errorNegotiated_reads Unit Bytes exampleEnv {} exampleError _ {} ⟨rfl, rfl, rfl⟩ (by decide)
    ⟨by decide, by decide⟩ rfl fun info hinfo encoder hencoder => by
      rw [List.mem_singleton.1 hinfo] at hencoder
      rcases hencoder with rfl | hnone
      · decide
      · cases hnone

/-! ## Objects that are negotiated -/

end Apiserver.ResponseWriters
