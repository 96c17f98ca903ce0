import Mathlib.Data.List.AList
import Mathlib.Data.List.Induction

/-!
# Log reduction

A filter for log messages that repeat themselves (`components/logs/logreduction`). It remembers
for every parent, such as a container, the message that was printed last and when, and a message
is not printed if it is the same and a delay has not passed since. The records of a parent may be
cleared, and every call first drops all records that are older than the delay.

The abstract model is the history of the calls: the last message that was printed for a parent
since it was cleared (`LastPrinted`) decides on the next one (`Due`). Nothing is dropped from it.

* `lastPrinted_eq_some_iff`: the last message is found by going through the history;
* `Refines`: the records are those of the history, except for some that are too old to matter,
  which every call keeps so (`refines_step`) as time goes on;
* `printed_iff`: a message is printed exactly if it is due.
-/

namespace Apiserver.Logs

/-! ## The filter -/

/-- `Sub` of two times, in nanoseconds. A difference that is no `int64` saturates. -/
def sub (t u : ℤ) : ℤ := max Int64.minValue.toInt (min (t - u) Int64.maxValue.toInt)

/-- `LogReduction`. -/
structure LogReduction where
  lastError : AList fun _ : String => String := ∅
  errorPrinted : AList fun _ : String => ℤ := ∅
  identicalErrorDelay : Int64

namespace LogReduction

/-- `NewLogReduction`. -/
def newLogReduction (identicalErrorDelay : Int64) : LogReduction := { identicalErrorDelay }

variable (l : LogReduction)

/-- The delay has passed since a time. -/
def Expired (now t : ℤ) : Prop := l.identicalErrorDelay.toInt ≤ sub now t

instance (now t : ℤ) : Decidable (l.Expired now t) := inferInstanceAs (Decidable (_ ≤ _))

/-- `ClearID`. -/
def clearID (parentID : String) : LogReduction :=
  { l with
    lastError := l.lastError.erase parentID
    errorPrinted := l.errorPrinted.erase parentID }

/-- An iteration of the loop of `cleanupErrorTimeouts`. -/
def cleanup (now : ℤ) (l : LogReduction) (e : Σ _ : String, ℤ) : LogReduction :=
  if l.Expired now e.2 then l.clearID e.1 else l

/-- `cleanupErrorTimeouts`. -/
def cleanupErrorTimeouts (now : ℤ) : LogReduction := l.errorPrinted.entries.foldl (cleanup now) l

/-- The condition of `ShouldMessageBePrinted`. -/
def due (now : ℤ) (message parentID : String) : Bool :=
  match l.lastError.lookup parentID, l.errorPrinted.lookup parentID with
  | some lastMsg, some lastPrinted => message ≠ lastMsg ∨ l.Expired now lastPrinted
  -- `!ok || !ok1`
  | _, _ => true

/-- What `ShouldMessageBePrinted` remembers of a message that is printed. -/
def record (now : ℤ) (message parentID : String) : LogReduction :=
  { l with
    errorPrinted := l.errorPrinted.insert parentID now
    lastError := l.lastError.insert parentID message }

/-- `ShouldMessageBePrinted`, with one reading of the clock. -/
def shouldMessageBePrinted (now : ℤ) (message parentID : String) : Bool × LogReduction :=
  let l := l.cleanupErrorTimeouts now
  if l.due now message parentID then (true, l.record now message parentID) else (false, l)

end LogReduction

/-! ## Runs -/

/-- A call, with the reading of the clock. -/
inductive Call
  | message (message parentID : String) (now : ℤ)
  | clearID (parentID : String)
  deriving DecidableEq

/-- The reading of the clock. -/
def Call.now? : Call → Option ℤ
  | .message _ _ now => some now
  | .clearID _ => none

/-- A call, and whether the message was printed. -/
inductive Event
  | message (printed : Bool) (message parentID : String) (now : ℤ)
  | cleared (parentID : String)
  deriving DecidableEq

def Event.call : Event → Call
  | .message _ text parentID now => .message text parentID now
  | .cleared parentID => .clearID parentID

namespace LogReduction

def step (l : LogReduction) : Call → Event × LogReduction
  | .message message parentID now =>
    let r := l.shouldMessageBePrinted now message parentID
    (.message r.1 message parentID now, r.2)
  | .clearID parentID => (.cleared parentID, l.clearID parentID)

/-- What comes of some calls, one after the other. -/
def trace (l : LogReduction) : List Call → List Event
  | [] => []
  | c :: calls => (l.step c).1 :: (l.step c).2.trace calls

end LogReduction

/-! ## The history -/

/-- What was printed last for a parent is another message, or nothing, after the event. -/
def Event.Resets (parentID : String) : Event → Prop
  | .message printed _ id _ => printed = true ∧ id = parentID
  | .cleared id => id = parentID

/-- The text was printed for the parent at a time, as the last one, and the parent has not been
    cleared since. -/
def LastPrinted (history : List Event) (parentID text : String) (t : ℤ) : Prop :=
  ∃ pre post, history = pre ++ .message true text parentID t :: post ∧
    ∀ e ∈ post, ¬ e.Resets parentID

/-- A message is to be printed: no message of the parent was since it was cleared, or the last
    one was another, or the delay has passed since. -/
def Due (delay : Int64) (history : List Event) (message parentID : String) (now : ℤ) : Prop :=
  (∀ text t, ¬ LastPrinted history parentID text t) ∨
    ∃ text t, LastPrinted history parentID text t ∧ (message ≠ text ∨ delay.toInt ≤ now - t)

/-- What was printed last for every parent. -/
abbrev Printed := String → Option (String × ℤ)

def Printed.next (a : Printed) : Event → Printed
  | .message true message parentID now => Function.update a parentID (some (message, now))
  | .message false _ _ _ => a
  | .cleared parentID => Function.update a parentID none

def lastPrinted (history : List Event) : Printed := history.foldl Printed.next fun _ => none

theorem lastPrinted_concat (history : List Event) (e : Event) :
    lastPrinted (history ++ [e]) = (lastPrinted history).next e := by
  rw [lastPrinted, List.foldl_append]
  rfl

variable {parentID text : String} {history : List Event}

/-- What was printed last, after an event. -/
theorem Printed.next_eq_some_iff {a : Printed} {e : Event} {t : ℤ} :
    a.next e parentID = some (text, t) ↔
      e = .message true text parentID t ∨ ¬ e.Resets parentID ∧ a parentID = some (text, t) := by
  cases e with
  | message printed message id now =>
    cases printed with
    | false => simp [next, Event.Resets]
    | true =>
      by_cases hid : id = parentID
      · subst hid
        simp [next, Event.Resets]
      · simp [next, Event.Resets, hid, Function.update_of_ne (Ne.symm hid)]
  | cleared id =>
    by_cases hid : id = parentID
    · subst hid
      simp [next, Event.Resets]
    · simp [next, Event.Resets, hid, Function.update_of_ne (Ne.symm hid)]

/-- The same, in terms of the history. -/
theorem lastPrinted_concat_iff {e : Event} {t : ℤ} : LastPrinted (history ++ [e]) parentID text t ↔
      e = .message true text parentID t ∨
        ¬ e.Resets parentID ∧ LastPrinted history parentID text t := by
  constructor
  · rintro ⟨pre, post, heq, hpost⟩
    -- The message is the last event, or one before it.
    rcases List.eq_nil_or_concat post with rfl | ⟨post', e', rfl⟩
    · exact .inl (List.singleton_inj.1 (List.append_inj' heq rfl).2)
    · rw [List.concat_eq_append, ← List.cons_append, ← List.append_assoc] at heq
      obtain ⟨rfl, he⟩ := List.append_inj' heq rfl
      obtain rfl := List.singleton_inj.1 he
      exact .inr ⟨hpost e (by simp), pre, post', rfl, fun e' he' => hpost e' (by simp [he'])⟩
  · rintro (rfl | ⟨he, pre, post, rfl, hpost⟩)
    · exact ⟨history, [], rfl, by simp⟩
    · refine ⟨pre, post ++ [e], by simp, fun e' he' => ?_⟩
      rcases List.mem_append.1 he' with he' | he'
      · exact hpost e' he'
      · rwa [List.mem_singleton.1 he']

theorem lastPrinted_eq_some_iff {t : ℤ} :
    lastPrinted history parentID = some (text, t) ↔ LastPrinted history parentID text t := by
  induction history using List.reverseRecOn with
  | nil =>
    refine iff_of_false (by simp [lastPrinted]) ?_
    rintro ⟨pre, post, heq, -⟩
    simp at heq
  | append_singleton history e ih =>
    rw [lastPrinted_concat, Printed.next_eq_some_iff, lastPrinted_concat_iff, ih]

/-- There is at most one message that was printed last. -/
theorem due_iff {delay : Int64} {message parentID : String} {now : ℤ} :
    Due delay history message parentID now ↔ ∀ text t,
      lastPrinted history parentID = some (text, t) → message ≠ text ∨ delay.toInt ≤ now - t := by
  simp only [Due, ← lastPrinted_eq_some_iff]
  cases lastPrinted history parentID with
  | none => simp
  | some r => simp [Prod.ext_iff]

/-! ## The records -/

namespace LogReduction

variable {l : LogReduction} {now now' t : ℤ} {a : Printed} {message parentID text : String}

/-- The record of a parent. -/
def HasRecord (l : LogReduction) (parentID text : String) (t : ℤ) : Prop :=
  l.lastError.lookup parentID = some text ∧ l.errorPrinted.lookup parentID = some t

theorem due_eq_true_iff : l.due now message parentID = true ↔
    ∀ text t, l.HasRecord parentID text t → message ≠ text ∨ l.Expired now t := by
  unfold due HasRecord
  cases l.lastError.lookup parentID with
  | none => simp
  | some lastMsg =>
    cases l.errorPrinted.lookup parentID with
    | none => simp
    | some lastPrinted => simp

theorem hasRecord_clearID_iff {id : String} :
    (l.clearID id).HasRecord parentID text t ↔ id ≠ parentID ∧ l.HasRecord parentID text t := by
  by_cases hid : id = parentID
  · subst hid
    simp [HasRecord, clearID]
  · simp [HasRecord, clearID, hid, AList.lookup_erase_ne (Ne.symm hid)]

theorem hasRecord_record_iff {id : String} :
    (l.record now message id).HasRecord parentID text t ↔
      id = parentID ∧ message = text ∧ now = t ∨ id ≠ parentID ∧ l.HasRecord parentID text t := by
  by_cases hid : id = parentID
  · subst hid
    simp [HasRecord, record]
  · simp [HasRecord, record, hid, AList.lookup_insert_ne (Ne.symm hid)]

theorem identicalErrorDelay_cleanup (now : ℤ) (l : LogReduction) (e : Σ _ : String, ℤ) :
    (cleanup now l e).identicalErrorDelay = l.identicalErrorDelay := by
  unfold cleanup
  split <;> rfl

theorem identicalErrorDelay_cleanupErrorTimeouts (l : LogReduction) (now : ℤ) :
    (l.cleanupErrorTimeouts now).identicalErrorDelay = l.identicalErrorDelay := by
  rw [cleanupErrorTimeouts]
  generalize l.errorPrinted.entries = entries
  induction entries generalizing l with
  | nil => rfl
  | cons e entries ih => rw [List.foldl_cons, ih, identicalErrorDelay_cleanup]

/-- The loop of `cleanupErrorTimeouts` drops the records of the entries that are too old. -/
theorem hasRecord_foldl_cleanup_iff {entries : List (Σ _ : String, ℤ)} :
    (entries.foldl (cleanup now) l).HasRecord parentID text t ↔
      l.HasRecord parentID text t ∧ ∀ e ∈ entries, e.1 = parentID → ¬ l.Expired now e.2 := by
  induction entries generalizing l with
  | nil => simp
  | cons e entries ih =>
    rw [List.foldl_cons, ih, List.forall_mem_cons]
    simp only [Expired, identicalErrorDelay_cleanup]
    by_cases he : l.Expired now e.2
    · -- The record of the entry is dropped, and no other.
      rw [cleanup, if_pos he, hasRecord_clearID_iff]
      rw [Expired] at he
      simp only [he, not_true_eq_false, imp_false]
      tauto
    · rw [cleanup, if_neg he]
      rw [Expired] at he
      simp [he]

/-- The records that are left are those that are not too old. -/
theorem hasRecord_cleanupErrorTimeouts_iff :
    (l.cleanupErrorTimeouts now).HasRecord parentID text t ↔
      l.HasRecord parentID text t ∧ ¬ l.Expired now t := by
  rw [cleanupErrorTimeouts, hasRecord_foldl_cleanup_iff]
  refine and_congr_right fun hrecord => ⟨fun h => ?_, fun h e he hid => ?_⟩
  · exact h ⟨parentID, t⟩ (AList.mem_lookup_iff.1 hrecord.2) rfl
  · obtain ⟨id, u⟩ := e
    subst hid
    have hlookup : l.errorPrinted.lookup id = some u := AList.mem_lookup_iff.2 he
    rwa [Option.some.inj (hlookup.symm.trans hrecord.2)]

/-! ## The records and the history -/

theorem expired_iff (h : t ≤ now) :
    l.Expired now t ↔ l.identicalErrorDelay.toInt ≤ now - t := by
  have hmin : Int64.minValue.toInt ≤ 0 := Int64.minValue_le_toInt 0
  have hmax := l.identicalErrorDelay.toInt_le
  unfold Expired sub
  omega

/-- The records are those of the history, except for some that are too old to matter. -/
structure Refines (l : LogReduction) (a : Printed) (now : ℤ) : Prop where
  kept : ∀ parentID text t, l.HasRecord parentID text t → a parentID = some (text, t)
  lost : ∀ parentID text t, a parentID = some (text, t) →
    l.HasRecord parentID text t ∨ l.identicalErrorDelay.toInt ≤ now - t
  le : ∀ parentID text t, a parentID = some (text, t) → t ≤ now

namespace Refines

/-- What is too old stays so. -/
theorem mono (h : l.Refines a now) (hle : now ≤ now') : l.Refines a now' where
  kept := h.kept
  lost parentID text t ha := (h.lost parentID text t ha).imp_right fun hold => by omega
  le parentID text t ha := Int.le_trans (h.le parentID text t ha) hle

/-- Cleaning up drops only what is out of date. -/
theorem cleanupErrorTimeouts (h : l.Refines a now) :
    (l.cleanupErrorTimeouts now).Refines a now where
  kept parentID text t hrecord :=
    h.kept parentID text t (hasRecord_cleanupErrorTimeouts_iff.1 hrecord).1
  lost parentID text t ha := by
    rw [hasRecord_cleanupErrorTimeouts_iff, identicalErrorDelay_cleanupErrorTimeouts,
      ← expired_iff (h.le parentID text t ha)]
    -- What is dropped now is too old, as what was dropped before.
    by_cases hexp : l.Expired now t
    · exact .inr hexp
    · refine .inl ⟨(h.lost parentID text t ha).resolve_right fun hold => hexp ?_, hexp⟩
      exact (expired_iff (h.le parentID text t ha)).2 hold
  le := h.le

/-- The records decide as the history does. -/
theorem due_iff (h : l.Refines a now) (message parentID : String) :
    l.due now message parentID = true ↔ ∀ text t, a parentID = some (text, t) →
      message ≠ text ∨ l.identicalErrorDelay.toInt ≤ now - t := by
  rw [due_eq_true_iff]
  constructor
  · intro hdue text t ha
    rcases h.lost parentID text t ha with hrecord | hold
    · rw [← expired_iff (h.le parentID text t ha)]
      exact hdue text t hrecord
    · exact .inr hold
  · intro hdue text t hrecord
    have ha := h.kept parentID text t hrecord
    rw [expired_iff (h.le parentID text t ha)]
    exact hdue text t ha

/-- Clearing an id forgets what was printed for it. -/
theorem clearID (h : l.Refines a now) (parentID : String) :
    (l.clearID parentID).Refines (a.next (.cleared parentID)) now where
  kept id text t hrecord := by
    obtain ⟨hid, hrecord⟩ := hasRecord_clearID_iff.1 hrecord
    exact Printed.next_eq_some_iff.2 (.inr ⟨hid, h.kept id text t hrecord⟩)
  lost id text t ha := by
    rcases Printed.next_eq_some_iff.1 ha with heq | ⟨hid, ha⟩
    · cases heq
    · exact (h.lost id text t ha).imp_left fun hrecord => hasRecord_clearID_iff.2 ⟨hid, hrecord⟩
  le id text t ha := by
    rcases Printed.next_eq_some_iff.1 ha with heq | ⟨-, ha⟩
    · cases heq
    · exact h.le id text t ha

/-- A message that is printed is recorded. -/
theorem record (h : l.Refines a now) (message parentID : String) :
    (l.record now message parentID).Refines (a.next (.message true message parentID now)) now where
  kept id text t hrecord := by
    rw [Printed.next_eq_some_iff]
    rcases hasRecord_record_iff.1 hrecord with ⟨rfl, rfl, rfl⟩ | ⟨hid, hrecord⟩
    · exact .inl rfl
    · exact .inr ⟨fun hresets => hid hresets.2, h.kept id text t hrecord⟩
  lost id text t ha := by
    rw [hasRecord_record_iff]
    rcases Printed.next_eq_some_iff.1 ha with heq | ⟨hid, ha⟩
    · cases heq
      exact .inl (.inl ⟨rfl, rfl, rfl⟩)
    · refine (h.lost id text t ha).imp_left fun hrecord => .inr ⟨fun heq => hid ⟨rfl, heq⟩, hrecord⟩
  le id text t ha := by
    rcases Printed.next_eq_some_iff.1 ha with heq | ⟨-, ha⟩
    · cases heq
      exact Int.le_refl _
    · exact h.le id text t ha

/-- A call prints what is due, and remembers it. -/
theorem shouldMessageBePrinted (h : l.Refines a now) (message parentID : String) :
    ((l.shouldMessageBePrinted now message parentID).1 = true ↔
      ∀ text t, a parentID = some (text, t) →
        message ≠ text ∨ l.identicalErrorDelay.toInt ≤ now - t) ∧
      (l.shouldMessageBePrinted now message parentID).2.Refines
        (a.next (.message (l.shouldMessageBePrinted now message parentID).1 message parentID now))
        now := by
  have hclean := h.cleanupErrorTimeouts
  have hdue := hclean.due_iff message parentID
  rw [identicalErrorDelay_cleanupErrorTimeouts] at hdue
  rw [← hdue, LogReduction.shouldMessageBePrinted]
  cases (l.cleanupErrorTimeouts now).due now message parentID with
  | true => exact ⟨Iff.rfl, hclean.record message parentID⟩
  | false => exact ⟨Iff.rfl, hclean⟩

end Refines

theorem identicalErrorDelay_step (l : LogReduction) (c : Call) :
    (l.step c).2.identicalErrorDelay = l.identicalErrorDelay := by
  cases c with
  | message message parentID now =>
    simp only [step, shouldMessageBePrinted]
    split <;> exact identicalErrorDelay_cleanupErrorTimeouts l now
  | clearID parentID => rfl

theorem call_trace (l : LogReduction) (calls : List Call) :
    (l.trace calls).map Event.call = calls := by
  induction calls generalizing l with
  | nil => rfl
  | cons c calls ih =>
    rw [trace, List.map_cons, ih]
    cases c <;> rfl

/-- A step leads to records of what the history then is, for the readings that follow. -/
theorem refines_step {c : Call} {calls : List Call}
    (hmono : ((c :: calls).filterMap Call.now?).Pairwise (· ≤ ·))
    (h : ∀ now ∈ (c :: calls).filterMap Call.now?, l.Refines a now) :
    ∀ now ∈ calls.filterMap Call.now?, (l.step c).2.Refines (a.next (l.step c).1) now := by
  intro now' hnow'
  cases c with
  | message message parentID now =>
    have hlater : (now :: calls.filterMap Call.now?).Pairwise (· ≤ ·) := hmono
    have hnow := h now (by simp [Call.now?])
    refine (hnow.shouldMessageBePrinted message parentID).2.mono ?_
    exact List.rel_of_pairwise_cons hlater hnow'
  | clearID parentID => exact (h now' (by simpa [Call.now?] using hnow')).clearID parentID

/-- In a run that goes on from a history, what is due by the history is printed. -/
theorem trace_due (history : List Event) {calls : List Call}
    (hmono : (calls.filterMap Call.now?).Pairwise (· ≤ ·))
    (h : ∀ now ∈ calls.filterMap Call.now?, l.Refines (lastPrinted history) now)
    {pre post : List Event} {printed : Bool}
    (htrace : l.trace calls = pre ++ .message printed message parentID now :: post) :
    printed = true ↔
      Due l.identicalErrorDelay (history ++ pre) message parentID now := by
  induction calls generalizing l history pre with
  | nil => simp [trace] at htrace
  | cons c calls ih =>
    cases pre with
    | nil =>
      -- The message of the first call.
      obtain ⟨hevent, -⟩ := List.cons.inj htrace
      cases c with
      | message message' parentID' now' =>
        cases hevent
        rw [List.append_nil, due_iff]
        exact ((h now (by simp [Call.now?])).shouldMessageBePrinted message parentID).1
      | clearID parentID' => cases hevent
    | cons e pre =>
      obtain ⟨rfl, hrest⟩ := List.cons.inj htrace
      have hcalls : (calls.filterMap Call.now?).Pairwise (· ≤ ·) :=
        hmono.sublist ((List.sublist_cons_self c calls).filterMap _)
      have hstep := refines_step hmono h
      rw [← lastPrinted_concat] at hstep
      have hdue := ih _ hcalls hstep hrest
      rwa [identicalErrorDelay_step, List.append_assoc] at hdue

end LogReduction

/-- Over any calls, with readings of a clock that does not go back, a message is printed exactly
    if it is due by what happened before. -/
theorem printed_iff (delay : Int64) (calls : List Call)
    (hmono : (calls.filterMap Call.now?).Pairwise (· ≤ ·)) :
    ((LogReduction.newLogReduction delay).trace calls).map Event.call = calls ∧
      ∀ pre printed message parentID now post,
        (LogReduction.newLogReduction delay).trace calls =
          pre ++ .message printed message parentID now :: post →
        (printed = true ↔ Due delay pre message parentID now) := by
  refine ⟨LogReduction.call_trace _ calls, fun pre printed message parentID now post htrace => ?_⟩
  refine LogReduction.trace_due [] hmono (fun now' _ => ?_) htrace
  refine ⟨fun id text t hrecord => ?_, fun id text t ha => ?_, fun id text t ha => ?_⟩
  · cases hrecord.1
  · cases ha
  · cases ha

/-- Two containers that report the same, at readings of the clock in nanoseconds. -/
def restarts : List Call :=
  [.message "restarting" "web" 0, .message "restarting" "web" 5, .message "restarting" "db" 6,
    .clearID "web", .message "restarting" "web" 7, .message "restarting" "web" 20]

example : (LogReduction.newLogReduction 10).trace restarts =
    [.message true "restarting" "web" 0, .message false "restarting" "web" 5,
      .message true "restarting" "db" 6, .cleared "web", .message true "restarting" "web" 7,
      .message true "restarting" "web" 20] := by decide

theorem printed_iff_restarts :
    ((LogReduction.newLogReduction 10).trace restarts).map Event.call = restarts ∧
      ∀ pre printed message parentID now post,
        (LogReduction.newLogReduction 10).trace restarts =
          pre ++ .message printed message parentID now :: post →
        (printed = true ↔ Due 10 pre message parentID now) :=
  printed_iff 10 restarts (by decide)

end Apiserver.Logs
