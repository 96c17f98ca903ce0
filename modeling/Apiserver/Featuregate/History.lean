import Apiserver.Featuregate.Gate

/-!
# Feature gates over many calls

A feature gate is made, features are added to it, and they are set in any number of
calls. A call that succeeds is a *setting*: a map, with the features that were known.

The gate keeps the values that were given to a feature by its name and by the special
features in one map, so that a special feature finds the ones it set before among those
that are set.

* `lookup_run`: the value of a feature is that of the last setting with its name, and
  otherwise that of the *first* setting with the special feature for its stage;
* `locked_iff`: so that a locked feature can be set by a special feature, where the
  lock is not looked at;
* `bulk_toggles_iff`: and a special feature is effective once.
-/

namespace Apiserver.Featuregate

open Go

/-- A call on a feature gate. -/
inductive Call
  | add (features : Known)
  | addFlag
  | set (o : Order) (value : String)
  | setFromMap (o : Order) (m : Input)

namespace FeatureGate

variable (d : Deps)

def step (f : FeatureGate) : Call → Option Error × FeatureGate
  | .add features => f.add d features
  | .addFlag => (none, f.addFlag)
  | .set o value => f.set d o value
  | .setFromMap o m => f.setFromMap o m

/-- The gate after some calls. -/
def run (f : FeatureGate) (calls : List Call) : FeatureGate :=
  calls.foldl (fun f call => (f.step d call).2) f

end FeatureGate

/-- The map a call sets features from, if there is one. -/
def Call.input (d : Deps) : Call → Option Input
  | .set _ value => (FeatureGate.parseMap d (split value ',') ∅).toOption
  | .setFromMap _ m => some m
  | _ => none

/-- A call that set features from a map, and the features that were known. -/
structure Setting where
  known : Known
  input : Input

namespace FeatureGate

variable (d : Deps)

/-- The setting that a call is, if it succeeds. -/
def setting (f : FeatureGate) (call : Call) : Option Setting :=
  if (f.step d call).1 = none then (call.input d).map (Setting.mk f.known) else none

/-- The settings among some calls. -/
def settings : FeatureGate → List Call → List Setting
  | _, [] => []
  | f, call :: calls => (f.setting d call).toList ++ settings (f.step d call).2 calls

end FeatureGate

/-- The value of the last map with a key. -/
def lastSet (k : Feature) : List Input → Option Bool
  | [] => none
  | m :: l => (lastSet k l).or (m.lookup k)

/-- The value of the first map with a key. -/
def firstSet (k : Feature) (l : List Input) : Option Bool := l.findSome? fun m => m.lookup k

/-- The value of the first special feature that was set for a feature. -/
def firstToggle (k : Feature) (l : List Setting) : Option Bool :=
  l.findSome? fun s => toggle s.known (fun g => s.input.lookup g) k

section LastSet

variable {k : Feature} {l : List Input}

theorem lastSet_eq_none : lastSet k l = none ↔ ∀ m ∈ l, m.lookup k = none := by
  induction l with
  | nil => simp [lastSet]
  | cons m l ih => rw [lastSet, Option.or_eq_none_iff, ih, List.forall_mem_cons, and_comm]

theorem exists_of_lastSet {v : Bool} (h : lastSet k l = some v) : ∃ m ∈ l, m.lookup k = some v := by
  induction l with
  | nil => cases h
  | cons m l ih =>
    rw [lastSet, Option.or_eq_some_iff] at h
    rcases h with h | ⟨_, h⟩
    · obtain ⟨m', hm', hv⟩ := ih h
      exact ⟨m', List.mem_cons_of_mem _ hm', hv⟩
    · exact ⟨m, List.mem_cons_self, h⟩

end LastSet

namespace FeatureGate

variable {d : Deps}

/-! ## What a call does -/

variable {f : FeatureGate}

/-- A call with a map is a `SetFromMap`. -/
theorem step_of_input {call : Call} {m : Input} (h : call.input d = some m) :
    ∃ o, f.step d call = f.setFromMap o m := by
  cases call with
  | add features => cases h
  | addFlag => cases h
  | set o value =>
    rw [Call.input] at h
    cases hparse : parseMap d (split value ',') ∅ with
    | error err =>
      rw [hparse] at h
      cases h
    | ok m' =>
      rw [hparse] at h
      cases h
      exact ⟨o, by simp only [step, set, hparse]⟩
  | setFromMap o m' =>
    cases h
    exact ⟨o, rfl⟩

/-- Features that are known stay as they are. -/
theorem addLoop_lookup {l : List (Σ _ : Feature, FeatureSpec)} {known known' : Known}
    (h : addLoop d l known = .ok known') {k : Feature} {spec : FeatureSpec}
    (hk : known.lookup k = some spec) : known'.lookup k = some spec := by
  induction l generalizing known with
  | nil =>
    cases h
    exact hk
  | cons e l ih =>
    obtain ⟨name, spec'⟩ := e
    rw [addLoop] at h
    cases hname : known.lookup name with
    | some existing =>
      simp only [hname] at h
      split_ifs at h
      exact ih h hk
    | none =>
      simp only [hname] at h
      refine ih h ?_
      have hne : k ≠ name := by
        rintro rfl
        rw [hk] at hname
        cases hname
      rwa [AList.lookup_insert_ne hne]

/-- A call without a map does not set features. -/
theorem step_of_no_input {call : Call} (h : call.input d = none) :
    (f.step d call).2.enabled = f.enabled ∧
      ∀ k spec, f.known.lookup k = some spec → (f.step d call).2.known.lookup k = some spec := by
  cases call with
  | add features =>
    simp only [step, add]
    split_ifs
    · exact ⟨rfl, fun _ _ => id⟩
    · cases hadd : addLoop d features.entries f.known with
      | error err => exact ⟨rfl, fun _ _ => id⟩
      | ok known => exact ⟨rfl, fun _ _ hk => addLoop_lookup hadd hk⟩
  | addFlag => exact ⟨rfl, fun _ _ => id⟩
  | set o value =>
    rw [Call.input] at h
    cases hparse : parseMap d (split value ',') ∅ with
    | error err => simp [step, set, hparse]
    | ok m =>
      rw [hparse] at h
      cases h
  | setFromMap o m => cases h

/-- A call that is not a setting leaves the values as they are; a setting gives the
    values of its map, and of the special features in it to what is not set. -/
theorem step_cases (f : FeatureGate) (call : Call) :
    f.setting d call = none ∧ (f.step d call).2.enabled = f.enabled ∨
      ∃ m, f.setting d call = some ⟨f.known, m⟩ ∧ AcceptsAll f.known m ∧
        ∀ k, (f.step d call).2.enabled.lookup k =
          ((m.lookup k).or (f.enabled.lookup k)).or (toggle f.known (fun g => m.lookup g) k) := by
  rw [setting]
  cases hinput : call.input d with
  | none => exact .inl ⟨by simp, (step_of_no_input hinput).1⟩
  | some m =>
    obtain ⟨o, hstep⟩ := step_of_input (f := f) hinput
    rw [hstep]
    rcases f.setFromMap_cases o m with ⟨⟨err, heq⟩, _⟩ | ⟨enabled, heq, haccepts, hlookup⟩
    · exact .inl (by simp [heq])
    · exact .inr ⟨m, by simp [heq], haccepts, by simpa [heq] using hlookup⟩

theorem known_step (f : FeatureGate) (call : Call) {k : Feature} {spec : FeatureSpec}
    (hk : f.known.lookup k = some spec) : (f.step d call).2.known.lookup k = some spec := by
  cases hinput : call.input d with
  | none => exact (step_of_no_input hinput).2 k spec hk
  | some m =>
    obtain ⟨o, hstep⟩ := step_of_input (f := f) hinput
    rw [hstep]
    rcases f.setFromMap_cases o m with ⟨⟨err, heq⟩, _⟩ | ⟨enabled, heq, _⟩
    · rwa [heq]
    · rwa [heq]

/-! ## What many calls do -/

theorem known_run (calls : List Call) {k : Feature} {spec : FeatureSpec}
    (hk : f.known.lookup k = some spec) : (f.run d calls).known.lookup k = some spec := by
  induction calls generalizing f with
  | nil => exact hk
  | cons call calls ih => exact ih (known_step f call hk)

/-- The value of a feature after some calls: the one it was set to last, or else the
    one it had, or else that of the first special feature for it. -/
theorem lookup_run (f : FeatureGate) (calls : List Call) (k : Feature) :
    (f.run d calls).enabled.lookup k =
      ((lastSet k ((f.settings d calls).map Setting.input)).or (f.enabled.lookup k)).or
        (firstToggle k (f.settings d calls)) := by
  induction calls generalizing f with
  | nil => simp [run, settings, lastSet, firstToggle]
  | cons call calls ih =>
    have hrun : f.run d (call :: calls) = (f.step d call).2.run d calls := rfl
    rw [hrun, ih, settings]
    rcases step_cases (d := d) f call with ⟨hnone, henabled⟩ | ⟨m, hsome, _, hlookup⟩
    · rw [hnone, henabled]
      rfl
    · rw [hsome, hlookup]
      have htoggle : firstToggle k (⟨f.known, m⟩ :: (f.step d call).2.settings d calls) =
          (toggle f.known (fun g => m.lookup g) k).or
            (firstToggle k ((f.step d call).2.settings d calls)) := by
        simp only [firstToggle, List.findSome?_cons]
        cases toggle f.known (fun g => m.lookup g) k <;> rfl
      simp only [Option.toList_some, List.singleton_append, List.map_cons, lastSet, htoggle,
        Option.or_assoc]

/-- A setting was accepted, with specs that the features still have. -/
theorem of_mem_settings {calls : List Call} {s : Setting} (hs : s ∈ f.settings d calls) :
    AcceptsAll s.known s.input ∧
      ∀ k spec, s.known.lookup k = some spec → (f.run d calls).known.lookup k = some spec := by
  induction calls generalizing f with
  | nil => cases hs
  | cons call calls ih =>
    rw [settings, List.mem_append, Option.mem_toList] at hs
    rcases hs with hs | hs
    · rcases step_cases (d := d) f call with ⟨hnone, _⟩ | ⟨m, hsome, haccepts, _⟩
      · rw [hnone] at hs
        cases hs
      · rw [hsome] at hs
        cases hs
        exact ⟨haccepts, fun k spec hk => known_run (call :: calls) hk⟩
    · exact ih hs

end FeatureGate

/-! ## Locked features -/

/-- Every locked feature has its default value. -/
def LockedAtDefault (d : Deps) (f : FeatureGate) : Prop :=
  ∀ k spec, f.known.lookup k = some spec → spec.lockToDefault = true →
    f.isEnabled d k = .ok spec.default

theorem FeatureGate.isEnabled_of_known (d : Deps) {f : FeatureGate} {k : Feature}
    {spec : FeatureSpec} (hk : f.known.lookup k = some spec) :
    f.isEnabled d k = .ok ((f.enabled.lookup k).getD spec.default) := by
  rw [isEnabled]
  cases f.enabled.lookup k with
  | some v => rfl
  | none => simp only [hk, Option.getD_none]

/-- Locked features have their default values exactly if each that was never set by its
    name was given that value by the first special feature for it, if any. -/
theorem locked_iff (d : Deps) (name : String) (calls : List Call) :
    LockedAtDefault d ((newFeatureGate name).run d calls) ↔
      ∀ k spec, ((newFeatureGate name).run d calls).known.lookup k = some spec →
        spec.lockToDefault = true →
        (∀ s ∈ (newFeatureGate name).settings d calls, s.input.lookup k = none) →
        ∀ v, firstToggle k ((newFeatureGate name).settings d calls) = some v →
          v = spec.default := by
  set f := newFeatureGate name
  -- What a locked feature is set to by its name is its default value.
  have hnamed : ∀ k spec v, (f.run d calls).known.lookup k = some spec →
      spec.lockToDefault = true →
      lastSet k ((f.settings d calls).map Setting.input) = some v → v = spec.default := by
    intro k spec v hk hlock hv
    obtain ⟨m, hm, hv⟩ := exists_of_lastSet hv
    obtain ⟨s, hs, rfl⟩ := List.mem_map.1 hm
    obtain ⟨haccepts, hspecs⟩ := FeatureGate.of_mem_settings hs
    obtain ⟨spec', hspec', hdefault⟩ := haccepts k v hv
    rw [hspecs k spec' hspec'] at hk
    cases hk
    exact (hdefault hlock).symm
  have hnever : ∀ k, lastSet k ((f.settings d calls).map Setting.input) = none ↔
      ∀ s ∈ f.settings d calls, s.input.lookup k = none := by
    intro k
    rw [lastSet_eq_none, List.forall_mem_map]
  have hvalue : ∀ k, (f.run d calls).enabled.lookup k =
      (lastSet k ((f.settings d calls).map Setting.input)).or
        (firstToggle k (f.settings d calls)) := by
    intro k
    have hempty : f.enabled.lookup k = none := rfl
    rw [FeatureGate.lookup_run, hempty, Option.or_none]
  constructor
  · intro h k spec hk hlock hno v hv
    have henabled := h k spec hk hlock
    rw [FeatureGate.isEnabled_of_known d hk, hvalue, (hnever k).2 hno, Option.none_or, hv]
      at henabled
    exact Except.ok.inj henabled
  · intro h k spec hk hlock
    rw [FeatureGate.isEnabled_of_known d hk, hvalue]
    cases hlast : lastSet k ((f.settings d calls).map Setting.input) with
    | some v => rw [hnamed k spec v hk hlock hlast, Option.some_or, Option.getD_some]
    | none =>
      rw [Option.none_or]
      cases hfirst : firstToggle k (f.settings d calls) with
      | some v => rw [h k spec hk hlock ((hnever k).1 hlast) v hfirst, Option.getD_some]
      | none => rw [Option.getD_none]

/-- A locked alpha feature is enabled with all alpha features. -/
theorem locked_toggled :
    let spec : FeatureSpec := { default := false, lockToDefault := true, preRelease := .alpha }
    let calls : List Call :=
      [.add ((∅ : Known).insert "X" spec),
        .setFromMap .plain ((∅ : Input).insert "AllAlpha" true)]
    let f := (newFeatureGate "").run .plain calls
    f.known.lookup "X" = some spec ∧ f.isEnabled .plain "X" = .ok true ∧
      ¬ LockedAtDefault .plain f := by
  refine ⟨rfl, rfl, fun h => ?_⟩
  have hX := h "X" { default := false, lockToDefault := true, preRelease := .alpha } rfl rfl
  cases hX

/-! ## Special features -/

/-- `Set` or `SetFromMap`. -/
def Call.isSet : Call → Bool
  | .set _ _ => true
  | .setFromMap _ _ => true
  | _ => false

/-- Every call succeeds. -/
def Succeed (d : Deps) : FeatureGate → List Call → Prop
  | _, [] => True
  | f, call :: calls => (f.step d call).1 = none ∧ Succeed d (f.step d call).2 calls

/-- The maps of some calls. -/
def inputs (d : Deps) (calls : List Call) : List Input := calls.filterMap (Call.input d)

/-- A feature that is not locked has the value it was set to last, or else the last value
    of the special feature for its stage, or else its default value. -/
def BulkDefaults (d : Deps) (f : FeatureGate) (calls : List Call) : Prop :=
  ∀ k spec gate, f.known.lookup k = some spec → spec.lockToDefault = false →
    spec.preRelease.gate = some gate →
    (f.run d calls).isEnabled d k = .ok ((lastSet k (inputs d calls)).getD
      ((lastSet gate (inputs d calls)).getD spec.default))

/-- A call that succeeds has an input. -/
theorem Call.exists_input {d : Deps} {f : FeatureGate} {call : Call} (hset : call.isSet = true)
    (hok : (f.step d call).1 = none) : ∃ m, call.input d = some m := by
  cases call with
  | add features => cases hset
  | addFlag => cases hset
  | set o value =>
    rw [input]
    cases hparse : FeatureGate.parseMap d (split value ',') ∅ with
    | error err =>
      simp only [FeatureGate.step, FeatureGate.set, hparse] at hok
      cases hok
    | ok m => exact ⟨m, rfl⟩
  | setFromMap o m => exact ⟨m, rfl⟩

/-- The known features stay the same, and every call is a setting. -/
theorem settings_of_succeed {d : Deps} {f : FeatureGate} {calls : List Call}
    (hset : ∀ call ∈ calls, call.isSet = true) (hok : Succeed d f calls) :
    f.settings d calls = (inputs d calls).map (Setting.mk f.known) := by
  induction calls generalizing f with
  | nil => rfl
  | cons call calls ih =>
    rw [List.forall_mem_cons] at hset
    obtain ⟨m, hm⟩ := Call.exists_input hset.1 hok.1
    obtain ⟨o, hstep⟩ := FeatureGate.step_of_input (f := f) hm
    have hknown : (f.step d call).2.known = f.known := by
      rw [hstep]
      rcases f.setFromMap_cases o m with ⟨⟨err, heq⟩, _⟩ | ⟨enabled, heq, _⟩ <;> rw [heq]
    have hinputs : inputs d (call :: calls) = m :: inputs d calls := List.filterMap_cons_some hm
    rw [FeatureGate.settings, FeatureGate.setting, if_pos hok.1, hm, ih hset.2 hok.2, hknown,
      hinputs]
    rfl

/-- There is a first value if there is a last. -/
theorem firstSet_eq_none {k : Feature} {l : List Input} :
    firstSet k l = none ↔ lastSet k l = none := by
  rw [firstSet, List.findSome?_eq_none_iff, lastSet_eq_none]

theorem firstToggle_map {known : Known} {k : Feature} {spec : FeatureSpec} {gate : Feature}
    (hk : known.lookup k = some spec) (hgate : spec.preRelease.gate = some gate) (l : List Input) :
    firstToggle k (l.map (Setting.mk known)) = firstSet gate l := by
  rw [firstToggle, List.findSome?_map, firstSet]
  simp [toggle, hk, hgate, Function.comp_def]

/-- Special features give defaults exactly if, for each feature that was never set by its
    name, the first value of the special feature is the last. -/
theorem bulk_toggles_iff (d : Deps) (f : FeatureGate) (hf : f.enabled = ∅) (calls : List Call)
    (hset : ∀ call ∈ calls, call.isSet = true) (hok : Succeed d f calls) :
    BulkDefaults d f calls ↔
      ∀ k spec gate, f.known.lookup k = some spec → spec.lockToDefault = false →
        spec.preRelease.gate = some gate → lastSet k (inputs d calls) = none →
        firstSet gate (inputs d calls) = lastSet gate (inputs d calls) := by
  have hvalue : ∀ k spec gate, f.known.lookup k = some spec →
      spec.preRelease.gate = some gate → (f.run d calls).isEnabled d k =
        .ok (((lastSet k (inputs d calls)).or (firstSet gate (inputs d calls))).getD
          spec.default) := by
    intro k spec gate hk hgate
    have hempty : f.enabled.lookup k = none := by
      rw [hf]
      rfl
    rw [FeatureGate.isEnabled_of_known d (FeatureGate.known_run calls hk), FeatureGate.lookup_run,
      settings_of_succeed hset hok, firstToggle_map hk hgate, hempty, Option.or_none, List.map_map]
    simp only [Function.comp_def, List.map_id']
  refine forall₃_congr fun k spec gate => forall₃_congr fun hk _ hgate => ?_
  rw [hvalue k spec gate hk hgate, Except.ok.injEq]
  cases hlast : lastSet k (inputs d calls) with
  | some v => simp
  | none =>
    simp only [Option.none_or, Option.getD_none, forall_const]
    -- The default does not tell the two apart: there is a first value if there is a last.
    cases hfirst : firstSet gate (inputs d calls) with
    | none => simp [firstSet_eq_none.1 hfirst]
    | some v =>
      cases hgate' : lastSet gate (inputs d calls) with
      | none =>
        rw [firstSet_eq_none.2 hgate'] at hfirst
        cases hfirst
      | some v' => simp

/-- A gate with an alpha feature. -/
def exampleGate : FeatureGate :=
  ((newFeatureGate "").add .plain
    ((∅ : Known).insert "X" { default := false, preRelease := .alpha })).2

/-- All alpha features but one are enabled, by one call. -/
theorem bulk_toggles_once :
    BulkDefaults .plain exampleGate [.set .plain "AllAlpha=true,X=false"] := by
  have hok : Succeed .plain exampleGate [.set .plain "AllAlpha=true,X=false"] := ⟨rfl, trivial⟩
  refine (bulk_toggles_iff .plain exampleGate rfl _ (by simp [Call.isSet]) hok).2 ?_
  intro k spec gate _ _ _ _
  have hinputs : inputs .plain [.set .plain "AllAlpha=true,X=false"] =
      [((∅ : Input).insert "AllAlpha" true).insert "X" false] := rfl
  rw [hinputs]
  simp [firstSet, lastSet]

/-- All alpha features are enabled and disabled again. The second call has no effect. -/
theorem bulk_toggled_twice :
    let calls : List Call := [.set .plain "AllAlpha=true", .set .plain "AllAlpha=false"]
    Succeed .plain exampleGate calls ∧
      (exampleGate.run .plain calls).isEnabled .plain "X" = .ok true ∧
      ¬ BulkDefaults .plain exampleGate calls := by
  refine ⟨⟨rfl, rfl, trivial⟩, rfl, fun h => ?_⟩
  have hX := h "X" { default := false, preRelease := .alpha } allAlphaGate rfl rfl rfl
  cases hX

end Apiserver.Featuregate
