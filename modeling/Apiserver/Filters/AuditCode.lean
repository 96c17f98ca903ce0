import Apiserver.Filters.AuditStages

/-!
# The status code of an audited response

The response writer of the audit filter stands before that of the server. Both
keep a status: the one of the filter in the event, at the first `Write` or
`WriteHeader` (`processCode`); the one of the server on the wire, at the first
`Write`, `Flush` or `WriteHeader` with a final code (`commit`). The filter does
not look at `Flush`, nor at what the code is.

* `code_foldl_perform`: the code in the event after a list of calls is that of
  the first one that has a code;
* `foldl_commit`: the status the client gets is that of the first call that
  commits to one;
* `auditedAsSeen_iff`: the two are the same exactly when the first call is not a
  `WriteHeader` with a code that is not final, and a `Flush` at the start is not
  followed by a `WriteHeader` with another code than 200 (`Faithful`).
-/

namespace Apiserver.Auditor

open Audit (Stage Level Status)

/-! ## The response writer of the server -/

/-- The codes of `WriteHeader` that end the header of a response. The other codes
    from 100 to 199 are informational; whether 101 is final depends on the
    version of net/http. -/
def isFinal (finalSwitching : Bool) (code : ℤ) : Bool :=
  (200 ≤ code && code ≤ 999) || (finalSwitching && code == 101)

variable (finalSwitching : Bool)

/-- The status a call commits to, if none was before. `WriteHeader` panics on a
    code that has not three digits; if the handler recovers, nothing was done. -/
def Call.commits : Call → Option ℤ
  | .write => some 200
  | .writeHeader code => if isFinal finalSwitching code then some code else none
  | .flush => some 200
  | .hijack => none

/-- The status committed to after a call. -/
def commit (status : Option ℤ) (c : Call) : Option ℤ :=
  match status with
  | some code => some code
  | none => c.commits finalSwitching

/-- The status the client gets from a handler that returns: the server commits
    to 200 if the handler did not commit to any. -/
def clientStatus (calls : List Call) : ℤ := (calls.foldl (commit finalSwitching) none).getD 200

/-! ## The two codes -/

/-- The code the filter would keep for a call. -/
def Call.recorded : Call → Option ℤ
  | .write => some 200
  | .writeHeader code => some (code.bmod (2 ^ 32))
  | .flush => none
  | .hijack => some 101

/-- The code in the event. -/
def Run.code {σ : Type} (r : Run σ) : Option ℤ := r.event.responseStatus.map (·.code)

/-- The first call is no `WriteHeader` with a code that is not final, but for one
    with too many digits that is cut to the status the client gets; and a `Flush`
    at the start is not followed by a `WriteHeader` with another code than 200. -/
def Faithful : List Call → Prop
  | .writeHeader code :: rest => isFinal finalSwitching code = true ∨
      ((code < 100 ∨ 999 < code) ∧ code.bmod (2 ^ 32) = clientStatus finalSwitching rest)
  | .flush :: rest => ∀ code l, rest.dropWhile (· = .flush) = .writeHeader code :: l →
      code.bmod (2 ^ 32) = 200
  | _ => True

variable {σ V R : Type} (d : Auditor σ V R) {sink started : Bool} {omitStages l : List Stage}
  {finalSwitching}

theorem foldl_commit (calls : List Call) (status : Option ℤ) :
    calls.foldl (commit finalSwitching) status =
      status.or (calls.findSome? (Call.commits finalSwitching)) := by
  induction calls generalizing status with
  | nil => simp
  | cons c calls ih =>
    rw [List.foldl_cons, ih, List.findSome?_cons]
    cases status with
    | some code => rfl
    | none => cases h : c.commits finalSwitching <;> simp [commit, h]

theorem clientStatus_cons (c : Call) (calls : List Call) :
    clientStatus finalSwitching (c :: calls) =
      (c.commits finalSwitching).getD (clientStatus finalSwitching calls) := by
  rw [clientStatus, clientStatus, foldl_commit, foldl_commit, List.findSome?_cons]
  cases c.commits finalSwitching <;> rfl

/-- The client gets a final status. -/
theorem isFinal_clientStatus (calls : List Call) :
    isFinal finalSwitching (clientStatus finalSwitching calls) = true := by
  have h200 : isFinal finalSwitching 200 = true := rfl
  induction calls with
  | nil => exact h200
  | cons c calls ih =>
    rw [clientStatus_cons]
    cases c with
    | write => exact h200
    | flush => exact h200
    | hijack => exact ih
    | writeHeader code =>
      rw [Call.commits]
      split_ifs with hcode
      · exact hcode
      · exact ih

/-- The filter keeps the code of a call if it has none yet. -/
theorem Serving.code_perform {r : Run σ} (h : Serving sink omitStages l started r) (c : Call) :
    (d.perform sink omitStages r (.call c)).code = r.code.or c.recorded := by
  have hcode : ∀ code : ℤ, (d.processCode sink omitStages code r).code =
      r.code.or (some (code.bmod (2 ^ 32))) := by
    intro code
    have hsome : r.code.isSome = started := by rw [Run.code, Option.isSome_map, h.status]
    rw [Auditor.processCode, h.once]
    cases started with
    | true =>
      obtain ⟨kept, hkept⟩ := Option.isSome_iff_exists.1 hsome
      simp [hkept]
    | false =>
      have hnone : r.code = none := by simpa using hsome
      rw [hnone, Option.none_or]
      cases sink <;> simp [Run.code, event_processAuditEvent]
  cases c with
  | write => exact hcode 200
  | writeHeader code => exact hcode code
  | flush => exact (Option.or_none ..).symm
  | hijack => exact hcode 101

theorem Serving.code_foldl_perform {r : Run σ} (h : Serving sink omitStages l started r)
    (calls : List Call) :
    ((calls.map Action.call).foldl (d.perform sink omitStages) r).code =
      r.code.or (calls.findSome? Call.recorded) := by
  induction calls generalizing started r with
  | nil => simp
  | cons c calls ih =>
    rw [List.map_cons, List.foldl_cons, ih (h.perform c), h.code_perform d, List.findSome?_cons,
      Option.or_assoc]
    cases c.recorded <;> rfl

/-- A code of three digits is kept as it is. -/
theorem bmod_code {code : ℤ} (h : 100 ≤ code ∧ code ≤ 999) : code.bmod (2 ^ 32) = code := by
  rw [Int.bmod_eq_of_le_mul_two] <;> omega

theorem three_digits_of_isFinal {code : ℤ} (h : isFinal finalSwitching code = true) :
    100 ≤ code ∧ code ≤ 999 := by
  simp only [isFinal, Bool.or_eq_true, Bool.and_eq_true, decide_eq_true_eq, beq_iff_eq] at h
  omega

/-- After a `Flush` the filter keeps the code of the first other call. -/
theorem findSome?_recorded (calls : List Call) :
    calls.findSome? Call.recorded = (calls.dropWhile (· = .flush)).head?.bind Call.recorded := by
  induction calls with
  | nil => rfl
  | cons c calls ih =>
    rw [List.findSome?_cons, List.dropWhile_cons]
    cases c with
    | flush => simpa [Call.recorded] using ih
    | _ => rfl

/-- The response begins with `WriteHeader`: a final code is what the client gets,
    and an informational one never is. -/
theorem recorded_writeHeader_iff {code : ℤ} {rest : List Call} :
    code.bmod (2 ^ 32) = clientStatus finalSwitching (.writeHeader code :: rest) ↔
      Faithful finalSwitching (.writeHeader code :: rest) := by
  rw [clientStatus_cons, Call.commits, Faithful]
  cases hfinal : isFinal finalSwitching code with
  | true => simpa using bmod_code (three_digits_of_isFinal hfinal)
  | false =>
    simp only [Bool.false_eq_true, ↓reduceIte, Option.getD_none, false_or, iff_and_self]
    intro heq
    by_contra hdigits
    rw [bmod_code (by omega)] at heq
    rw [heq, isFinal_clientStatus] at hfinal
    cases hfinal

/-- The response begins with `Flush`: the client gets 200. -/
theorem recorded_flush_iff {rest : List Call} (hrest : .hijack ∉ rest) :
    ((.flush :: rest).findSome? Call.recorded).getD 200 =
        clientStatus finalSwitching (.flush :: rest) ↔
      Faithful finalSwitching (.flush :: rest) := by
  rw [clientStatus_cons, Call.commits, Option.getD_some, findSome?_recorded, Faithful,
    List.dropWhile_cons_of_pos (by simp)]
  cases hdrop : rest.dropWhile (· = .flush) with
  | nil => simp
  | cons c l =>
    have hc : c ∈ rest := (List.dropWhile_suffix _).subset (hdrop ▸ List.mem_cons_self)
    cases c with
    | write => simp [Call.recorded]
    | writeHeader code => simp [Call.recorded]
    | flush =>
      have := List.head?_dropWhile_not (fun c => decide (c = Call.flush)) rest
      simp [hdrop] at this
    | hijack => exact absurd hc hrest

/-- The two codes are the same for the calls of a faithful handler, and no other. -/
theorem recorded_eq_clientStatus_iff {calls : List Call} (hcalls : .hijack ∉ calls) :
    (calls.findSome? Call.recorded).getD 200 = clientStatus finalSwitching calls ↔
      Faithful finalSwitching calls := by
  cases calls with
  | nil => exact iff_of_true rfl trivial
  | cons c rest =>
    cases c with
    | write => exact iff_of_true (by rw [clientStatus_cons]; rfl) trivial
    | writeHeader code => exact recorded_writeHeader_iff
    | flush => exact recorded_flush_iff fun h => hcalls (List.mem_cons_of_mem _ h)
    | hijack => exact absurd List.mem_cons_self hcalls

/-! ## The event of a complete response -/

variable (finalSwitching)

/-- The sink is given an event of a complete response, and every such event has
    the status code the client gets. -/
def AuditedAsSeen (calls : List Call) (req : HttpRequest) (s : σ) : Prop :=
  let sunk := (d.withAudit { actions := calls.map .call, exit := .returned } req s).sunk
  (∃ ev ∈ sunk, ev.stage = .responseComplete) ∧
    ∀ ev ∈ sunk, ev.stage = .responseComplete →
      ev.responseStatus.map (·.code) = some (clientStatus finalSwitching calls)

variable {req : HttpRequest} {ev : Audit.Event} {s : σ} {finalSwitching}

/-- The event of a complete response has the code of the first call that has one,
    and 200 if none does. -/
theorem code_completed {r : Run σ} (h : Serving sink omitStages l false r) (calls : List Call) :
    let r' := (calls.map Action.call).foldl (d.perform sink omitStages) r
    (completed r'.event).responseStatus.map (·.code) =
      some ((calls.findSome? Call.recorded).getD 200) := by
  intro r'
  have hnone : r.code = none := by simpa [Run.code] using h.status
  have hcode : r'.code = calls.findSome? Call.recorded := by
    rw [h.code_foldl_perform d, hnone, Option.none_or]
  rw [← hcode, completed, Run.code]
  cases r'.event.responseStatus <;> rfl

/-- What the sink is given at the end of a handler that returns. -/
theorem completed_code_iff {r : Run σ} (h : Serving sink omitStages l false r)
    (hincomplete : Incomplete r) (hkept : .responseComplete ∉ omitStages) (calls : List Call)
    (code : ℤ) :
    let handler : Behaviour V R := { actions := calls.map .call, exit := .returned }
    let sunk := (d.serve sink omitStages handler r).1.sunk
    ((∃ ev ∈ sunk, ev.stage = .responseComplete) ∧
      ∀ ev ∈ sunk, ev.stage = .responseComplete →
        ev.responseStatus.map (·.code) = some code) ↔
      (calls.findSome? Call.recorded).getD 200 = code := by
  intro handler sunk
  have hmem : ∀ ev, (ev ∈ sunk ∧ ev.stage = .responseComplete) ↔
      ev = completed (handler.actions.foldl (d.perform sink omitStages) r).event :=
    (hincomplete.foldl_perform d _).mem_sunk_complete_iff d rfl hkept
  have hcode := d.code_completed h calls
  constructor
  · rintro ⟨-, hall⟩
    obtain ⟨hsunk, hstage⟩ := (hmem _).2 rfl
    exact Option.some.inj (hcode.symm.trans (hall _ hsunk hstage))
  · intro hrec
    refine ⟨⟨_, (hmem _).2 rfl⟩, fun ev hev hstage => ?_⟩
    rw [(hmem ev).1 ⟨hev, hstage⟩, ← hrec]
    exact hcode

/-- The code in the audit event of a complete response is the status the client
    got, for every handler that is faithful and no other. -/
theorem auditedAsSeen_iff (finalSwitching : Bool)
    (h : d.createAuditEvent req = .ok (some (ev, omitStages)))
    (hrefuses : ¬d.Refuses omitStages ev s) (hkept : .responseComplete ∉ omitStages)
    (calls : List Call) (hcalls : .hijack ∉ calls) :
    d.AuditedAsSeen finalSwitching calls req s ↔ Faithful finalSwitching calls := by
  rw [← recorded_eq_clientStatus_iff hcalls, AuditedAsSeen,
    d.withAudit_of_not_refuses h hrefuses]
  refine d.completed_code_iff (d.serving_received h) ?_ hkept calls _
  exact Incomplete.enter d (fun _ h => absurd h List.not_mem_nil) (by simp)

/-- A handler that sends an error is recorded with it. -/
theorem recordAll_auditedAsSeen :
    recordAll.createAuditEvent logsRequest = .ok (some (logsEvent, [])) ∧
      recordAll.AuditedAsSeen true [.writeHeader 404, .write, .flush] logsRequest () :=
  ⟨createAuditEvent_logs,
    (recordAll.auditedAsSeen_iff true createAuditEvent_logs (fun h => absurd h.2 (by decide))
      List.not_mem_nil _ (by decide)).2 (.inl rfl)⟩

/-- The stages and codes of the events the sink was given. -/
def Outcome.codes (out : Outcome σ R) : List (Stage × Option ℤ) :=
  out.sunk.map fun ev => (ev.stage, ev.responseStatus.map (·.code))

theorem AuditedAsSeen.eq_of_mem_codes {calls : List Call}
    (h : d.AuditedAsSeen finalSwitching calls req s) (code : ℤ)
    (hmem : (.responseComplete, some code) ∈
      (d.withAudit { actions := calls.map .call, exit := .returned } req s).codes) :
    code = clientStatus finalSwitching calls := by
  obtain ⟨ev, hev, heq⟩ := List.mem_map.1 hmem
  obtain ⟨hstage, hcode⟩ := Prod.mk.inj heq
  exact Option.some.inj (hcode.symm.trans (h.2 ev hev hstage))

/-- A handler that flushes first and then sends an error: the client gets 200 and
    the event says 404. One that sends an informational code first is recorded
    with that. -/
theorem recordAll_not_auditedAsSeen :
    recordAll.createAuditEvent logsRequest = .ok (some (logsEvent, [])) ∧
      ¬recordAll.AuditedAsSeen true [.flush, .writeHeader 404] logsRequest () ∧
      ¬recordAll.AuditedAsSeen true [.writeHeader 103, .writeHeader 200] logsRequest () := by
  refine ⟨createAuditEvent_logs, fun h => ?_, fun h => ?_⟩
  · exact absurd (h.eq_of_mem_codes recordAll 404 (by decide)) (by decide)
  · exact absurd (h.eq_of_mem_codes recordAll 103 (by decide)) (by decide)

end Apiserver.Auditor
