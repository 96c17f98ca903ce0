import Apiserver.Basic
import Apiserver.Go.Encoding
import Mathlib.Data.List.Basic

/-!
# The recorder of warnings

A request has a recorder of warnings (`pkg/filters/warning.go`), which adds them to the
`Warning` headers of the response: a text once, and no more than a number of runes in all.

* As long as the texts fit into that number they are written in full.
* When one does not fit, the headers are deleted and all warnings so far are written again,
  each cut after some runes. From then on a warning is cut too, and none is written once the
  number is reached.

What does not make a header is not written and does not count. It is recorded, though, and is
written again with the others, when what is left of it may make one.

* `header_addWarnings`: what is in the headers after any warnings;
* `written_le`: a warning more than the number of runes may be written, if no text makes a
  header only when it is cut;
* `le_written_of_cut`: texts of this kind are written without any limit.
-/

namespace Apiserver.Filters.Warning

open Go

/-- What the recorder takes from outside. -/
structure Deps where
  /-- `[]rune(text)`, as long as `utf8.RuneCountInString` says, -/
  runes : Bytes → List Char
  /-- `string(runes)`, -/
  ofRunes : List Char → Bytes
  /-- and `NewWarningHeader`. -/
  newWarningHeader : ℕ → Bytes → Bytes → Except Error String

def truncateAtTotalRunes : ℕ := 4 * 1024
def truncateItemRunes : ℕ := 256

/-- `recordedWarning`. -/
structure RecordedWarning where
  agent : Bytes
  text : Bytes
  deriving DecidableEq

/-- `recorder`, with the `Warning` headers of its writer. -/
structure Recorder where
  recorded : List Bytes := []
  ordered : List RecordedWarning := []
  written : ℕ := 0
  truncating : Bool := false
  header : List String := []

variable (d : Deps)

/-- A text that is cut on a rune boundary, if needed, and the number of its runes. -/
def truncateItem (text : Bytes) : Bytes × ℕ :=
  let textRuneLength := (d.runes text).length
  if truncateItemRunes < textRuneLength then
    (d.ofRunes ((d.runes text).take truncateItemRunes), truncateItemRunes)
  else (text, textRuneLength)

namespace Recorder

/-- The existing items as truncated warnings. -/
def replay : List RecordedWarning → Recorder → Recorder
  | [], r => r
  | w :: ws, r =>
    let (text, textRuneLength) := truncateItem d w.text
    match d.newWarningHeader 299 w.agent text with
    | .error _ => replay ws r
    | .ok header =>
      replay ws { r with written := r.written + textRuneLength, header := r.header ++ [header] }

/-- `AddWarning`, which holds the lock of the recorder. -/
def addWarning (r : Recorder) (agent text : Bytes) : Recorder :=
  if text = [] then r
  -- The limit was exceeded, and reached again.
  else if truncateAtTotalRunes ≤ r.written ∧ r.truncating = true then r
  else if text ∈ r.recorded then r
  else
    let r := { r with
      recorded := text :: r.recorded
      ordered := r.ordered ++ [⟨agent, text⟩] }
    let (text, textRuneLength) :=
      if r.truncating then truncateItem d text else (text, (d.runes text).length)
    match d.newWarningHeader 299 agent text with
    | .error _ => r
    | .ok header =>
      if r.written + textRuneLength ≤ truncateAtTotalRunes ∨ r.truncating = true then
        { r with written := r.written + textRuneLength, header := r.header ++ [header] }
      else replay d r.ordered { r with truncating := true, written := 0, header := [] }

/-- The warnings of a request, one after the other. -/
def addWarnings (ws : List RecordedWarning) (r : Recorder) : Recorder :=
  ws.foldl (fun r w => r.addWarning d w.agent w.text) r

end Recorder

/-! ## What is written -/

/-- The header of a warning, -/
def full (w : RecordedWarning) : Option String :=
  (d.newWarningHeader 299 w.agent w.text).toOption

/-- and when it is cut. -/
def short (w : RecordedWarning) : Option String :=
  (d.newWarningHeader 299 w.agent (truncateItem d w.text).1).toOption

/-- The runes of a warning, if it has a header, -/
def fullRunes (w : RecordedWarning) : ℕ :=
  if (full d w).isSome then (d.runes w.text).length else 0

/-- and when it is cut. -/
def shortRunes (w : RecordedWarning) : ℕ :=
  if (short d w).isSome then (truncateItem d w.text).2 else 0

/-- The runes of some warnings. -/
def total (f : RecordedWarning → ℕ) : List RecordedWarning → ℕ
  | [] => 0
  | w :: ws => f w + total f ws

/-- The warnings with a text, and of those with the same text the first. -/
def distinct (ws : List RecordedWarning) : List RecordedWarning :=
  ws.foldl (fun acc w =>
    if w.text = [] ∨ w.text ∈ acc.map RecordedWarning.text then acc else acc ++ [w]) []

variable {d} {f g : RecordedWarning → ℕ} {w : RecordedWarning} {ws ws' : List RecordedWarning}
  {r : Recorder}

theorem total_append : total f (ws ++ ws') = total f ws + total f ws' := by
  induction ws with
  | nil => simp [total]
  | cons w ws ih => simp only [List.cons_append, total, ih, Nat.add_assoc]

theorem total_append_singleton : total f (ws ++ [w]) = total f ws + f w := by
  rw [total_append]
  rfl

theorem total_le_of_isPrefix (h : ws <+: ws') : total f ws ≤ total f ws' := by
  obtain ⟨rest, rfl⟩ := h
  rw [total_append]
  exact Nat.le_add_right _ _

theorem total_le_total (h : ∀ w ∈ ws, f w ≤ g w) : total f ws ≤ total g ws := by
  induction ws with
  | nil => exact Nat.le_refl 0
  | cons w ws ih =>
    exact Nat.add_le_add (h w List.mem_cons_self)
      (ih fun w' hw' => h w' (List.mem_cons_of_mem w hw'))

theorem shortRunes_le : shortRunes d w ≤ truncateItemRunes := by
  unfold shortRunes truncateItem
  dsimp only
  split_ifs with hsome hlt
  · exact Nat.le_refl _
  · exact Nat.le_of_not_lt hlt
  · exact Nat.zero_le _

/-- A warning has no more runes when it is cut, if it has a header. -/
theorem shortRunes_le_fullRunes (h : (short d w).isSome → (full d w).isSome) :
    shortRunes d w ≤ fullRunes d w := by
  unfold shortRunes fullRunes
  split_ifs with hshort hfull
  · unfold truncateItem
    dsimp only
    split_ifs with hlt
    · exact Nat.le_of_lt hlt
    · exact Nat.le_refl _
  · exact absurd (h hshort) hfull
  · exact Nat.zero_le _
  · exact Nat.le_refl _

theorem distinct_append_singleton : distinct (ws ++ [w]) =
    if w.text = [] ∨ w.text ∈ (distinct ws).map RecordedWarning.text then distinct ws
    else distinct ws ++ [w] := by
  simp [distinct]

theorem distinct_subset (hw : w ∈ distinct ws) : w ∈ ws := by
  induction ws using List.reverseRecOn with
  | nil => cases hw
  | append_singleton ws w' ih =>
    rw [distinct_append_singleton] at hw
    split_ifs at hw
    · exact List.mem_append_left _ (ih hw)
    · exact (List.mem_append.1 hw).elim (fun hw => List.mem_append_left _ (ih hw))
        (List.mem_append_right _)

/-! ## One warning -/

namespace Recorder

/-- All items are written again, cut, that have a header. -/
theorem replay_eq : replay d ws r = { r with
    written := r.written + total (shortRunes d) ws
    header := r.header ++ ws.filterMap (short d) } := by
  induction ws generalizing r with
  | nil => simp [replay, total]
  | cons w ws ih =>
    rw [replay]
    dsimp only
    cases hheader : d.newWarningHeader 299 w.agent (truncateItem d w.text).1 with
    | error err =>
      have hshort : short d w = none := by rw [short, hheader]; rfl
      dsimp only
      rw [ih, total, shortRunes, hshort, List.filterMap_cons_none hshort]
      simp
    | ok header =>
      have hshort : short d w = some header := by rw [short, hheader]; rfl
      dsimp only
      rw [ih, total, shortRunes, hshort, List.filterMap_cons_some hshort]
      simp [Nat.add_assoc]

/-- A warning whose text is new, and which is not over the limit, is recorded. -/
def record (r : Recorder) (w : RecordedWarning) : Recorder :=
  { r with recorded := w.text :: r.recorded, ordered := r.ordered ++ [w] }

section New

variable (htext : w.text ≠ []) (hnew : w.text ∉ r.recorded)

include htext hnew

/-- While warnings are cut, a new one is written like those that are written again, -/
theorem addWarning_truncating (htrunc : r.truncating = true)
    (hopen : r.written < truncateAtTotalRunes) :
    r.addWarning d w.agent w.text = replay d [w] (r.record w) := by
  have hlimit : ¬ (truncateAtTotalRunes ≤ r.written ∧ r.truncating = true) :=
    fun hand => absurd hand.1 (Nat.not_le.2 hopen)
  rw [addWarning, if_neg htext, if_neg hlimit, if_neg hnew]
  simp only [htrunc, if_true, replay]
  cases d.newWarningHeader 299 w.agent (truncateItem d w.text).1 with
  | error err => rw [record, htrunc]
  | ok header => simp [record, htrunc]

/-- before that it is left out if it has no header, -/
theorem addWarning_plain_none (htrunc : r.truncating = false) (hfull : full d w = none) :
    r.addWarning d w.agent w.text = r.record w := by
  have hlimit : ¬ (truncateAtTotalRunes ≤ r.written ∧ r.truncating = true) := by simp [htrunc]
  rw [addWarning, if_neg htext, if_neg hlimit, if_neg hnew]
  simp only [htrunc, Bool.false_eq_true, if_false, or_false]
  cases hheader : d.newWarningHeader 299 w.agent w.text with
  | error err => simp [record, htrunc]
  | ok header =>
    rw [full, hheader] at hfull
    cases hfull

/-- and written if it fits; if not, all warnings are written again. -/
theorem addWarning_plain {header : String} (htrunc : r.truncating = false)
    (hfull : full d w = some header) :
    r.addWarning d w.agent w.text =
      if r.written + (d.runes w.text).length ≤ truncateAtTotalRunes then
        { r.record w with
          written := r.written + (d.runes w.text).length
          header := r.header ++ [header] }
      else replay d (r.ordered ++ [w])
        { r.record w with truncating := true, written := 0, header := [] } := by
  have hlimit : ¬ (truncateAtTotalRunes ≤ r.written ∧ r.truncating = true) := by simp [htrunc]
  rw [addWarning, if_neg htext, if_neg hlimit, if_neg hnew]
  simp only [htrunc, Bool.false_eq_true, if_false, or_false]
  cases hheader : d.newWarningHeader 299 w.agent w.text with
  | error err =>
    rw [full, hheader] at hfull
    cases hfull
  | ok header' =>
    rw [full, hheader] at hfull
    cases hfull
    simp [record, htrunc]

end New

/-- The recorder after some warnings, whose writer had some headers before. -/
structure Follows (d : Deps) (header : List String) (ws : List RecordedWarning) (r : Recorder) :
    Prop where
  /-- It has recorded all warnings, or the first ones up to the limit. -/
  ordered : r.ordered <+: distinct ws
  all : r.ordered = distinct ws ∨ (truncateAtTotalRunes ≤ r.written ∧ r.truncating = true)
  recorded : ∀ text, text ∈ r.recorded ↔ text ∈ r.ordered.map RecordedWarning.text
  plain : r.truncating = false → r.written = total (fullRunes d) r.ordered ∧
    r.written ≤ truncateAtTotalRunes ∧ r.header = header ++ r.ordered.filterMap (full d)
  truncated : r.truncating = true → r.written = total (shortRunes d) r.ordered ∧
    truncateAtTotalRunes < total (fullRunes d) r.ordered ∧
    r.header = r.ordered.filterMap (short d)

variable {header : List String}

theorem Follows.ordered_eq (h : Follows d header ws r) (htrunc : r.truncating = false) :
    r.ordered = distinct ws :=
  h.all.resolve_right fun hlimit => Bool.false_ne_true (htrunc.symm.trans hlimit.2)

theorem follows_nil : Follows d header [] { header } where
  ordered := List.nil_prefix
  all := .inl rfl
  recorded := by simp
  plain _ := by simp [total]
  truncated h := absurd h Bool.false_ne_true

/-- A warning that is left out: its text is empty or was recorded, or the limit is reached. -/
theorem Follows.skip (h : Follows d header ws r)
    (hskip : w.text = [] ∨ w.text ∈ (distinct ws).map RecordedWarning.text ∨
      (truncateAtTotalRunes ≤ r.written ∧ r.truncating = true)) :
    Follows d header (ws ++ [w]) r := by
  have hprefix : distinct ws <+: distinct (ws ++ [w]) := by
    rw [distinct_append_singleton]
    split_ifs
    · exact List.prefix_rfl
    · exact List.prefix_append _ _
  have hall : r.ordered = distinct (ws ++ [w]) ∨
      (truncateAtTotalRunes ≤ r.written ∧ r.truncating = true) := by
    by_cases hlimit : truncateAtTotalRunes ≤ r.written ∧ r.truncating = true
    · exact .inr hlimit
    · have hor : w.text = [] ∨ w.text ∈ (distinct ws).map RecordedWarning.text := by tauto
      rw [distinct_append_singleton, if_pos hor]
      exact .inl (h.all.resolve_right hlimit)
  exact ⟨h.ordered.trans hprefix, hall, h.recorded, h.plain, h.truncated⟩

/-- A warning that is recorded. -/
theorem Follows.record {r' : Recorder} (h : Follows d header ws r)
    (hall : r.ordered = distinct ws) (htext : w.text ≠ []) (hnew : w.text ∉ r.recorded)
    (hordered : r'.ordered = r.ordered ++ [w]) (hrecorded : r'.recorded = w.text :: r.recorded)
    (hplain : r'.truncating = false → r'.written = total (fullRunes d) r'.ordered ∧
      r'.written ≤ truncateAtTotalRunes ∧ r'.header = header ++ r'.ordered.filterMap (full d))
    (htruncated : r'.truncating = true → r'.written = total (shortRunes d) r'.ordered ∧
      truncateAtTotalRunes < total (fullRunes d) r'.ordered ∧
      r'.header = r'.ordered.filterMap (short d)) :
    Follows d header (ws ++ [w]) r' := by
  have hdistinct : distinct (ws ++ [w]) = r'.ordered := by
    rw [distinct_append_singleton, if_neg, hordered, hall]
    rw [not_or, ← hall, ← h.recorded]
    exact ⟨htext, hnew⟩
  refine ⟨hdistinct ▸ List.prefix_rfl, .inl hdistinct.symm, fun text => ?_, hplain, htruncated⟩
  rw [hrecorded, hordered, List.map_append, List.mem_append, List.mem_cons, h.recorded]
  simp [or_comm]

/-- A new warning while warnings are cut, -/
theorem Follows.addWarning_truncating (h : Follows d header ws r) (htext : w.text ≠ [])
    (hnew : w.text ∉ r.recorded) (htrunc : r.truncating = true)
    (hopen : r.written < truncateAtTotalRunes) :
    Follows d header (ws ++ [w]) (r.addWarning d w.agent w.text) := by
  obtain ⟨hwritten, hover, hheader⟩ := h.truncated htrunc
  have hall : r.ordered = distinct ws :=
    h.all.resolve_right fun hlimit => Nat.not_le.2 hopen hlimit.1
  rw [Recorder.addWarning_truncating htext hnew htrunc hopen, replay_eq]
  refine h.record hall htext hnew rfl rfl (fun hfalse => ?_) fun _ => ⟨?_, ?_, ?_⟩
  · exact absurd (hfalse.symm.trans htrunc) Bool.false_ne_true
  · change r.written + total (shortRunes d) [w] = total (shortRunes d) (r.ordered ++ [w])
    rw [total_append, hwritten]
  · exact Nat.lt_of_lt_of_le hover (total_le_of_isPrefix (List.prefix_append _ _))
  · change r.header ++ _ = (r.ordered ++ [w]).filterMap (short d)
    rw [List.filterMap_append, hheader]

/-- and before that. -/
theorem Follows.addWarning_plain (h : Follows d header ws r) (htext : w.text ≠ [])
    (hnew : w.text ∉ r.recorded) (htrunc : r.truncating = false) :
    Follows d header (ws ++ [w]) (r.addWarning d w.agent w.text) := by
  obtain ⟨hwritten, hle, hheader⟩ := h.plain htrunc
  have hall := h.ordered_eq htrunc
  cases hfull : full d w with
  | none =>
    rw [addWarning_plain_none htext hnew htrunc hfull]
    refine h.record hall htext hnew rfl rfl (fun _ => ⟨?_, hle, ?_⟩) fun htrue => ?_
    · change r.written = total (fullRunes d) (r.ordered ++ [w])
      rw [total_append_singleton, fullRunes, hfull, hwritten]
      rfl
    · change r.header = header ++ (r.ordered ++ [w]).filterMap (full d)
      rw [List.filterMap_append, hheader]
      simp [hfull]
    · exact absurd (htrunc.symm.trans htrue) Bool.false_ne_true
  | some value =>
    have hrunes : fullRunes d w = (d.runes w.text).length := by simp [fullRunes, hfull]
    rw [Recorder.addWarning_plain htext hnew htrunc hfull]
    split_ifs with hfits
    · refine h.record hall htext hnew rfl rfl (fun _ => ⟨?_, hfits, ?_⟩) fun htrue => ?_
      · change r.written + _ = total (fullRunes d) (r.ordered ++ [w])
        rw [total_append_singleton, hrunes, hwritten]
      · change r.header ++ [value] = header ++ (r.ordered ++ [w]).filterMap (full d)
        rw [List.filterMap_append, hheader, List.append_assoc]
        simp [hfull]
      · exact absurd (htrunc.symm.trans htrue) Bool.false_ne_true
    · -- The warnings so far, and this one, are written again.
      rw [replay_eq]
      refine h.record hall htext hnew rfl rfl (fun hfalse => ?_) fun _ => ⟨?_, ?_, ?_⟩
      · cases hfalse
      · exact Nat.zero_add _
      · change truncateAtTotalRunes < total (fullRunes d) (r.ordered ++ [w])
        rw [total_append_singleton, hrunes, ← hwritten]
        exact Nat.lt_of_not_le hfits
      · exact List.nil_append _

/-- One warning: it is left out, or it is new and there is room for it. -/
theorem addWarning_eq_or (r : Recorder) (w : RecordedWarning) :
    (r.addWarning d w.agent w.text = r ∧ (w.text = [] ∨ w.text ∈ r.recorded ∨
      (truncateAtTotalRunes ≤ r.written ∧ r.truncating = true))) ∨
    (w.text ≠ [] ∧ w.text ∉ r.recorded ∧
      (r.truncating = false ∨ (r.truncating = true ∧ r.written < truncateAtTotalRunes))) := by
  by_cases htext : w.text = []
  · exact .inl ⟨if_pos htext, .inl htext⟩
  by_cases hlimit : truncateAtTotalRunes ≤ r.written ∧ r.truncating = true
  · refine .inl ⟨?_, .inr (.inr hlimit)⟩
    rw [addWarning, if_neg htext, if_pos hlimit]
  by_cases hnew : w.text ∈ r.recorded
  · refine .inl ⟨?_, .inr (.inl hnew)⟩
    rw [addWarning, if_neg htext, if_neg hlimit, if_pos hnew]
  refine .inr ⟨htext, hnew, ?_⟩
  cases htrunc : r.truncating with
  | false => exact .inl rfl
  | true => exact .inr ⟨rfl, Nat.lt_of_not_le fun hle => hlimit ⟨hle, htrunc⟩⟩

/-- Whatever the recorder is at, it follows the warnings. -/
theorem Follows.addWarning (h : Follows d header ws r) (w : RecordedWarning) :
    Follows d header (ws ++ [w]) (r.addWarning d w.agent w.text) := by
  rcases addWarning_eq_or (d := d) r w with ⟨heq, htext | hmem | hlimit⟩ |
      ⟨htext, hnew, htrunc | ⟨htrunc, hopen⟩⟩
  · exact heq.symm ▸ h.skip (.inl htext)
  · have htexts : w.text ∈ (distinct ws).map RecordedWarning.text :=
      (h.ordered.map _).subset ((h.recorded _).1 hmem)
    exact heq.symm ▸ h.skip (.inr (.inl htexts))
  · exact heq.symm ▸ h.skip (.inr (.inr hlimit))
  · exact h.addWarning_plain htext hnew htrunc
  · exact h.addWarning_truncating htext hnew htrunc hopen

/-- Any warnings. -/
theorem follows_addWarnings (header : List String) (ws : List RecordedWarning) :
    Follows d header ws (addWarnings d ws { header }) := by
  induction ws using List.reverseRecOn with
  | nil => exact follows_nil
  | append_singleton ws w ih =>
    rw [addWarnings, List.foldl_append]
    exact ih.addWarning w

/-- The headers after any warnings. If the distinct texts fit, they are written in full, after
    the headers of the writer. If not, these headers are gone, and the first warnings are
    written cut, all of them or up to the limit. -/
theorem header_addWarnings (d : Deps) (header : List String) (ws : List RecordedWarning) :
    (total (fullRunes d) (distinct ws) ≤ truncateAtTotalRunes →
      (addWarnings d ws { header }).header = header ++ (distinct ws).filterMap (full d)) ∧
    (truncateAtTotalRunes < total (fullRunes d) (distinct ws) →
      ∃ ws', ws' <+: distinct ws ∧
        (addWarnings d ws { header }).header = ws'.filterMap (short d) ∧
        (ws' = distinct ws ∨ truncateAtTotalRunes ≤ total (shortRunes d) ws')) := by
  have h : Follows d header ws (addWarnings d ws { header }) := follows_addWarnings header ws
  cases htrunc : (addWarnings d ws { header }).truncating with
  | false =>
    obtain ⟨hwritten, hle, hheader⟩ := h.plain htrunc
    rw [h.ordered_eq htrunc] at hwritten hheader
    exact ⟨fun _ => hheader, fun hover => absurd (hwritten ▸ hle) (Nat.not_le.2 hover)⟩
  | true =>
    obtain ⟨hwritten, hover, hheader⟩ := h.truncated htrunc
    refine ⟨fun hle => absurd (Nat.le_trans (total_le_of_isPrefix h.ordered) hle)
      (Nat.not_le.2 hover), fun _ => ⟨_, h.ordered, hheader, ?_⟩⟩
    exact h.all.imp_right fun hlimit => hwritten ▸ hlimit.1

/-! ## How much is written -/

/-- One warning writes one too much at most, if no text so far has a header only when it is
    cut. -/
theorem Follows.written_addWarning_le (h : Follows d header ws r)
    (hcut : ∀ w ∈ ws, (short d w).isSome → (full d w).isSome)
    (hle : r.written ≤ truncateAtTotalRunes + truncateItemRunes) (w : RecordedWarning) :
    (r.addWarning d w.agent w.text).written ≤ truncateAtTotalRunes + truncateItemRunes := by
  rcases addWarning_eq_or (d := d) r w with ⟨heq, -⟩ |
      ⟨htext, hnew, htrunc | ⟨htrunc, hopen⟩⟩
  · rwa [heq]
  · cases hfull : full d w with
    | none => rwa [addWarning_plain_none htext hnew htrunc hfull]
    | some value =>
      rw [Recorder.addWarning_plain htext hnew htrunc hfull]
      split_ifs with hfits
      · exact Nat.le_trans hfits (Nat.le_add_right _ _)
      · -- What was written in full does not become more.
        have hmem : ∀ w ∈ r.ordered, shortRunes d w ≤ fullRunes d w := fun w hw =>
          shortRunes_le_fullRunes (hcut w (distinct_subset (h.ordered.subset hw)))
        obtain ⟨hwritten, hlimit, -⟩ := h.plain htrunc
        calc (replay d (r.ordered ++ [w]) _).written
            = total (shortRunes d) r.ordered + shortRunes d w := by
              rw [replay_eq, ← total_append_singleton]
              exact Nat.zero_add _
          _ ≤ total (fullRunes d) r.ordered + truncateItemRunes :=
              Nat.add_le_add (total_le_total hmem) shortRunes_le
          _ ≤ truncateAtTotalRunes + truncateItemRunes :=
              Nat.add_le_add_right (hwritten ▸ hlimit) _
  · rw [Recorder.addWarning_truncating htext hnew htrunc hopen, replay_eq]
    exact Nat.add_le_add (Nat.le_of_lt hopen) shortRunes_le

/-- It goes over its limit by one item at most. -/
theorem written_addWarnings_le (hcut : ∀ w ∈ ws, (short d w).isSome → (full d w).isSome) :
    (addWarnings d ws { header }).written ≤ truncateAtTotalRunes + truncateItemRunes := by
  induction ws using List.reverseRecOn with
  | nil => exact Nat.zero_le _
  | append_singleton ws w ih =>
    have hcut' : ∀ w ∈ ws, (short d w).isSome → (full d w).isSome :=
      fun w hw => hcut w (List.mem_append_left _ hw)
    rw [addWarnings, List.foldl_append]
    exact (follows_addWarnings header ws).written_addWarning_le hcut' (ih hcut') w

/-- If no text has a header only when it is cut, the headers have the runes of one cut warning
    more than the limit at most. -/
theorem written_le (header : List String)
    (hcut : ∀ w ∈ ws, (short d w).isSome → (full d w).isSome) :
    ∃ ws', ws' <+: distinct ws ∧
      (((addWarnings d ws { header }).header = header ++ ws'.filterMap (full d) ∧
          total (fullRunes d) ws' ≤ truncateAtTotalRunes) ∨
        ((addWarnings d ws { header }).header = ws'.filterMap (short d) ∧
          total (shortRunes d) ws' ≤ truncateAtTotalRunes + truncateItemRunes)) := by
  have h : Follows d header ws (addWarnings d ws { header }) := follows_addWarnings header ws
  refine ⟨_, h.ordered, ?_⟩
  cases htrunc : (addWarnings d ws { header }).truncating with
  | false =>
    obtain ⟨hwritten, hle, hheader⟩ := h.plain htrunc
    exact .inl ⟨hheader, hwritten ▸ hle⟩
  | true =>
    obtain ⟨hwritten, -, hheader⟩ := h.truncated htrunc
    exact .inr ⟨hheader, hwritten ▸ written_addWarnings_le hcut⟩

/-- Texts of one byte for a rune, in which control characters are not allowed. A text is quoted,
    with the quotes and backslashes in it escaped. -/
def exampleDeps : Deps where
  runes text := text.map fun c => Char.ofNat c.toNat
  ofRunes runes := runes.map fun c => UInt8.ofNat c.toNat
  newWarningHeader code agent text :=
    let string (b : Bytes) := String.ofList (b.map fun c => Char.ofNat c.toNat)
    if text.any (· < 32) then .error "text must not contain control characters"
    else .ok (toString code ++ " " ++ (if agent = [] then "-" else string agent) ++ " \x22" ++
      string (text.flatMap fun c => if c = 34 ∨ c = 92 then [92, c] else [c]) ++ "\x22")

/-- A text that has a header. -/
def exampleLong (n : ℕ) : RecordedWarning := ⟨[], List.replicate n 97⟩

theorem length_exampleLong (n : ℕ) : (exampleLong n).text.length = n := List.length_replicate

theorem full_exampleLong (n : ℕ) : (full exampleDeps (exampleLong n)).isSome = true := by
  simp [full, exampleDeps, exampleLong, Except.toOption]

theorem fullRunes_exampleLong (n : ℕ) : fullRunes exampleDeps (exampleLong n) = n := by
  rw [fullRunes, if_pos (full_exampleLong n)]
  simp [exampleDeps, exampleLong]

/-- Two warnings that do not fit together. -/
theorem written_le_two :
    total (fullRunes exampleDeps) [exampleLong 4000, exampleLong 300] = 4300 ∧
    ∃ ws', ws' <+: distinct [exampleLong 4000, exampleLong 300] ∧
      (((addWarnings exampleDeps [exampleLong 4000, exampleLong 300] {}).header =
          [] ++ ws'.filterMap (full exampleDeps) ∧
        total (fullRunes exampleDeps) ws' ≤ truncateAtTotalRunes) ∨
      ((addWarnings exampleDeps [exampleLong 4000, exampleLong 300] {}).header =
          ws'.filterMap (short exampleDeps) ∧
        total (shortRunes exampleDeps) ws' ≤ truncateAtTotalRunes + truncateItemRunes)) := by
  refine ⟨?_, written_le [] fun w hw _ => ?_⟩
  · simp only [total, fullRunes_exampleLong]
  · obtain rfl | rfl : w = exampleLong 4000 ∨ w = exampleLong 300 := by simpa using hw
    · exact full_exampleLong 4000
    · exact full_exampleLong 300

theorem total_eq {n : ℕ} (h : ∀ w ∈ ws, f w = n) : total f ws = ws.length * n := by
  induction ws with
  | nil => simp [total]
  | cons w ws ih =>
    rw [total, h w List.mem_cons_self, ih fun w' hw' => h w' (List.mem_cons_of_mem w hw'),
      List.length_cons, Nat.add_mul, Nat.one_mul, Nat.add_comm]

theorem distinct_eq_self (htext : ∀ w ∈ ws, w.text ≠ [])
    (hnodup : (ws.map RecordedWarning.text).Nodup) : distinct ws = ws := by
  induction ws using List.reverseRecOn with
  | nil => rfl
  | append_singleton ws w ih =>
    rw [List.map_append, List.nodup_append] at hnodup
    rw [distinct_append_singleton,
      ih (fun w hw => htext w (List.mem_append_left _ hw)) hnodup.1, if_neg]
    rintro (hempty | hmem)
    · exact htext w (by simp) hempty
    · exact hnodup.2.2 _ hmem _ List.mem_cons_self rfl

/-- Texts that have a header only when they are cut are recorded and not counted. When another
    text does not fit, all of them are written, with no limit to their number. -/
theorem le_written_of_cut (header : List String) {long : RecordedWarning}
    (hnodup : ((ws ++ [long]).map RecordedWarning.text).Nodup)
    (htext : ∀ w ∈ ws ++ [long], w.text ≠ [])
    (hcut : ∀ w ∈ ws, full d w = none ∧ shortRunes d w = truncateItemRunes)
    (hlong : truncateAtTotalRunes < fullRunes d long) :
    (addWarnings d (ws ++ [long]) { header }).header = (ws ++ [long]).filterMap (short d) ∧
      ws.length * truncateItemRunes ≤ (addWarnings d (ws ++ [long]) { header }).written := by
  rw [addWarnings, List.foldl_append, List.foldl_cons, List.foldl_nil]
  have h : Follows d header ws (addWarnings d ws { header }) := follows_addWarnings header ws
  have hdistinct : distinct ws = ws :=
    distinct_eq_self (fun w hw => htext w (List.mem_append_left _ hw))
      (List.map_append ▸ hnodup).of_append_left
  have htotal : total (fullRunes d) ws = ws.length * 0 :=
    total_eq fun w hw => by simp [fullRunes, (hcut w hw).1]
  -- Nothing has been counted before the long text.
  have htrunc : (addWarnings d ws { header }).truncating = false :=
    Bool.eq_false_iff.2 fun htrue => by
      have hle := total_le_of_isPrefix (f := fullRunes d) h.ordered
      rw [hdistinct, htotal] at hle
      exact absurd (h.truncated htrue).2.1 (Nat.not_lt.2 (Nat.le_trans hle (Nat.zero_le _)))
  have hall : (addWarnings d ws { header }).ordered = ws :=
    (h.ordered_eq htrunc).trans hdistinct
  have hnew : long.text ∉ (addWarnings d ws { header }).recorded := by
    rw [h.recorded, hall]
    rw [List.map_append, List.nodup_append] at hnodup
    exact fun hmem => hnodup.2.2 _ hmem _ List.mem_cons_self rfl
  obtain ⟨value, hfull⟩ : ∃ value, full d long = some value := by
    unfold fullRunes at hlong
    split_ifs at hlong with hsome
    · exact Option.isSome_iff_exists.1 hsome
    · exact absurd hlong (Nat.not_lt_zero _)
  have hover : ¬ (addWarnings d ws { header }).written + (d.runes long.text).length ≤
      truncateAtTotalRunes := by
    have hrunes : fullRunes d long = (d.runes long.text).length := by simp [fullRunes, hfull]
    exact fun hle => absurd hlong (Nat.not_lt.2 (hrunes ▸ Nat.le_trans (Nat.le_add_left _ _) hle))
  have heq := addWarning_plain (htext long (by simp)) hnew htrunc hfull
  rw [if_neg hover, hall, replay_eq] at heq
  rw [addWarnings] at heq
  rw [heq]
  refine ⟨List.nil_append _, ?_⟩
  calc ws.length * truncateItemRunes
      = total (shortRunes d) ws := (total_eq fun w hw => (hcut w hw).2).symm
    _ ≤ total (shortRunes d) (ws ++ [long]) := total_le_of_isPrefix (List.prefix_append _ _)
    _ = 0 + total (shortRunes d) (ws ++ [long]) := (Nat.zero_add _).symm

/-- A text with line feeds after the runes that are kept of it. -/
def exampleCut (n : ℕ) : RecordedWarning := ⟨[], List.replicate 256 97 ++ List.replicate n 10⟩

theorem length_exampleCut (n : ℕ) : (exampleCut n).text.length = 256 + n := by
  rw [exampleCut, List.length_append, List.length_replicate, List.length_replicate]

/-- Two of the one kind, and one of the other that does not fit. -/
theorem le_written_of_cut_two :
    [exampleCut 1, exampleCut 2].length * truncateItemRunes ≤ (addWarnings exampleDeps
      ([exampleCut 1, exampleCut 2] ++ [exampleLong 4097]) {}).written := by
  have hlengths : (([exampleCut 1, exampleCut 2] ++ [exampleLong 4097]).map
      RecordedWarning.text).map List.length = [257, 258, 4097] := by
    simp only [List.cons_append, List.nil_append, List.map_cons, List.map_nil,
      length_exampleCut, length_exampleLong]
  refine (@le_written_of_cut exampleDeps [exampleCut 1, exampleCut 2] [] (exampleLong 4097)
    ?_ ?_ ?_ ?_).2
  · exact List.Nodup.of_map List.length (hlengths.symm ▸ by decide)
  · intro w hw htext
    have hmem : w.text.length ∈ [257, 258, 4097] :=
      hlengths ▸ List.mem_map_of_mem (List.mem_map_of_mem hw)
    rw [htext] at hmem
    exact absurd hmem (by decide)
  · decide +kernel
  · rw [fullRunes_exampleLong]
    decide

end Recorder

end Apiserver.Filters.Warning
