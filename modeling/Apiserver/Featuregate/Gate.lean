import Apiserver.Basic
import Apiserver.Go.Strings

/-!
# Feature gates

A feature gate (`components/featuregate`) knows features by their specs, and has the
ones that were enabled or disabled. They are set from a map, or from a string that is
parsed to one. Two features are special: `AllAlpha` and `AllBeta` set every alpha
(beta) feature that is not set yet.

The code ranges over maps, the one with the values to set and, for the special
features, that of the known features. The orders in which it does are given to the
functions as an `Order`.

* `lookup_setLoop`: the values after the loop of `SetFromMap`, in terms of the map;
* `setLoop_eq_ok_iff`: whether it succeeds depends on the known features alone;
* `parseMap_eq_ok_iff`, `lookup_parseMap`: the same for the map parsed by `Set`;
* `set_order_independent`: neither depends on an order, and a failing call changes
  nothing.
-/

namespace Apiserver.Featuregate

open Go

abbrev Feature := String

/-- `prerelease`, how mature a feature is. -/
inductive Prerelease
  | alpha
  | beta
  | ga
  | deprecated
  deriving DecidableEq, Repr

/-- The string a stage is in the source. -/
def Prerelease.value : Prerelease → String
  | .alpha => "ALPHA"
  | .beta => "BETA"
  | .ga => ""
  | .deprecated => "DEPRECATED"

structure FeatureSpec where
  default : Bool
  lockToDefault : Bool := false
  preRelease : Prerelease := .ga
  deriving DecidableEq, Repr

/-- The `%v` verb for a spec. -/
def FeatureSpec.format (spec : FeatureSpec) : String :=
  "\x7b" ++ toString spec.default ++ " " ++ toString spec.lockToDefault ++ " "
    ++ spec.preRelease.value ++ "\x7d"

abbrev Known := AList fun _ : Feature => FeatureSpec

abbrev Enabled := AList fun _ : Feature => Bool

/-- The `map[string]bool` that features are set from. -/
abbrev Input := AList fun _ : String => Bool

def allAlphaGate : Feature := "AllAlpha"

def allBetaGate : Feature := "AllBeta"

/-- A feature that is of the stage and not set yet is set to a value. -/
def setUnset (stage : Prerelease) (val : Bool) (enabled : Enabled)
    (e : Σ _ : Feature, FeatureSpec) : Enabled :=
  if e.2.preRelease = stage ∧ e.1 ∉ enabled then enabled.insert e.1 val else enabled

/-- The loop of `setUnsetAlphaGates` and `setUnsetBetaGates`. -/
def setUnsetGates (stage : Prerelease) (known : Known) (enabled : Enabled) (val : Bool) : Enabled :=
  known.entries.foldl (setUnset stage val) enabled

def setUnsetAlphaGates : Known → Enabled → Bool → Enabled := setUnsetGates .alpha

def setUnsetBetaGates : Known → Enabled → Bool → Enabled := setUnsetGates .beta

/-- `specialFeatures`. -/
def specialFeatures (k : Feature) : Option (Known → Enabled → Bool → Enabled) :=
  if k = allAlphaGate then some setUnsetAlphaGates
  else if k = allBetaGate then some setUnsetBetaGates
  else none

/-- `defaultFeatures`. -/
def defaultFeatures : Known :=
  ((∅ : Known).insert allBetaGate { default := false, preRelease := .beta }).insert allAlphaGate
    { default := false, preRelease := .alpha }

/-- `featureGate`. -/
structure FeatureGate where
  featureGateName : String := ""
  known : Known
  enabled : Enabled
  closed : Bool := false

/-- `NewFeatureGate`. -/
def newFeatureGate (name : String) : FeatureGate where
  featureGateName := name
  known := defaultFeatures
  enabled := ∅

/-- The orders in which a call ranges over the map it is given and, for a special
    feature in it, over the known features. -/
structure Order where
  input : Input → Input
  known : Known → Feature → Known
  input_perm : ∀ m, (input m).entries.Perm m.entries
  known_perm : ∀ m k, (known m k).entries.Perm m.entries

/-- The orders of the entries as they are. -/
def Order.plain : Order where
  input m := m
  known m _ := m
  input_perm _ := .refl _
  known_perm _ _ := .refl _

namespace FeatureGate

variable (d : Deps) (f : FeatureGate)

/-- The loop of `SetFromMap`. -/
def setLoop (known : Known) (range : Feature → Known) :
    List (Σ _ : String, Bool) → Enabled → Except Error Enabled
  | [], enabled => .ok enabled
  | ⟨k, v⟩ :: l, enabled =>
    match known.lookup k with
    | none => .error ("unrecognized feature gate: " ++ k)
    | some featureSpec =>
      if featureSpec.lockToDefault ∧ featureSpec.default ≠ v then
        .error ("cannot set feature gate " ++ k ++ " to " ++ toString v
          ++ ", feature is locked to " ++ toString featureSpec.default)
      else
        let enabled := enabled.insert k v
        match specialFeatures k with
        | some fn => setLoop known range l (fn (range k) enabled v)
        | none => setLoop known range l enabled

/-- `SetFromMap`: the error, and the gate. The copies of the maps are stored if there
    is no error. -/
def setFromMap (o : Order) (m : Input) : Option Error × FeatureGate :=
  match setLoop f.known (o.known f.known) (o.input m).entries f.enabled with
  | .error err => (some err, f)
  | .ok enabled => (none, { f with enabled })

/-- A part of the string that is given to `Set`. -/
def parseEntry (s : String) : Except Error (String × Bool) :=
  match splitN s '=' 2 with
  | [k, v] =>
    match parseBool (trimSpace v) with
    | some boolValue => .ok (trimSpace k, boolValue)
    | none => .error ("invalid value of " ++ trimSpace k ++ "=" ++ trimSpace v
        ++ ", err: strconv.ParseBool: parsing " ++ d.quote (trimSpace v) ++ ": invalid syntax")
  | arr => .error ("missing bool value for " ++ trimSpace (arr.headD ""))

/-- The loop of `Set`. -/
def parseMap : List String → Input → Except Error Input
  | [], m => .ok m
  | s :: l, m =>
    if s = "" then parseMap l m
    else
      match parseEntry d s with
      | .error err => .error err
      | .ok (k, v) => parseMap l (m.insert k v)

/-- `Set`. -/
def set (o : Order) (value : String) : Option Error × FeatureGate :=
  match parseMap d (split value ',') ∅ with
  | .error err => (some err, f)
  | .ok m => f.setFromMap o m

/-- The loop of `Add`. -/
def addLoop : List (Σ _ : Feature, FeatureSpec) → Known → Except Error Known
  | [], known => .ok known
  | ⟨name, spec⟩ :: l, known =>
    match known.lookup name with
    | some existingSpec =>
      if existingSpec = spec then addLoop l known
      else .error ("feature gate " ++ d.quote name ++ " with different spec already exists: "
        ++ existingSpec.format)
    | none => addLoop l (known.insert name spec)

/-- `Add`. -/
def add (features : Known) : Option Error × FeatureGate :=
  if f.closed then (some "cannot add a feature gate after adding it to the flag set", f)
  else
    match addLoop d features.entries f.known with
    | .error err => (some err, f)
    | .ok known => (none, { f with known })

/-- `AddFlag`, what it does to the gate. -/
def addFlag : FeatureGate := { f with closed := true }

/-- `Enabled`; an error is that of a panic. -/
def isEnabled (key : Feature) : Except Error Bool :=
  match f.enabled.lookup key with
  | some v => .ok v
  | none =>
    match f.known.lookup key with
    | some spec => .ok spec.default
    | none => .error ("feature " ++ d.quote key ++ " is not registered in FeatureGate "
        ++ d.quote f.featureGateName)

end FeatureGate

/-! ## What a call does -/

/-- The special feature for a stage. -/
def Prerelease.gate : Prerelease → Option Feature
  | .alpha => some allAlphaGate
  | .beta => some allBetaGate
  | _ => none

theorem Prerelease.gate_inj {stage stage' : Prerelease} {g : Feature}
    (h : stage.gate = some g) (h' : stage'.gate = some g) : stage = stage' := by
  have hne : allAlphaGate ≠ allBetaGate := by decide
  cases stage <;> cases stage' <;> simp only [gate, Option.some.injEq, reduceCtorEq] at h h' ⊢
  · exact hne (h.trans h'.symm)
  · exact hne (h'.trans h.symm)

/-- The value that setting the special features gives to a feature not set yet. -/
def toggle (known : Known) (input : Feature → Option Bool) (k : Feature) : Option Bool :=
  (known.lookup k).bind fun spec => spec.preRelease.gate.bind input

theorem toggle_or (known : Known) (a b : Feature → Option Bool) (k : Feature) :
    toggle known (fun g => (a g).or (b g)) k = (toggle known a k).or (toggle known b k) := by
  simp only [toggle]
  cases known.lookup k with
  | none => rfl
  | some spec =>
    simp only [Option.bind_some]
    cases spec.preRelease.gate <;> rfl

section SetUnset

variable {stage : Prerelease} {val : Bool} {k : Feature} {enabled : Enabled}

/-- A feature of the stage is set, unless it has a value. -/
theorem lookup_setUnset {e : Σ _ : Feature, FeatureSpec} :
    (setUnset stage val enabled e).lookup k =
      (enabled.lookup k).or (if e.1 = k ∧ e.2.preRelease = stage then some val else none) := by
  rw [setUnset]
  by_cases hk : e.1 = k
  · subst hk
    by_cases hset : e.1 ∈ enabled
    · obtain ⟨v, hv⟩ := Option.isSome_iff_exists.1 (AList.lookup_isSome.2 hset)
      simp [hset, hv]
    · rw [AList.lookup_eq_none.2 hset, Option.none_or]
      by_cases hstage : e.2.preRelease = stage
      · simp [hset, hstage]
      · simp [hstage, AList.lookup_eq_none.2 hset]
  · have hright : ¬ (e.1 = k ∧ e.2.preRelease = stage) := fun h => hk h.1
    rw [if_neg hright, Option.or_none]
    split_ifs
    · exact AList.lookup_insert_ne (Ne.symm hk)
    · rfl

/-- The same for a list of features. -/
theorem lookup_foldl_setUnset {l : List (Σ _ : Feature, FeatureSpec)} :
    (l.foldl (setUnset stage val) enabled).lookup k = (enabled.lookup k).or
      (if ∃ e ∈ l, e.1 = k ∧ e.2.preRelease = stage then some val else none) := by
  induction l generalizing enabled with
  | nil => simp
  | cons e l ih =>
    rw [List.foldl_cons, ih, lookup_setUnset, Option.or_assoc]
    simp only [List.exists_mem_cons_iff]
    by_cases he : e.1 = k ∧ e.2.preRelease = stage
    · simp [he]
    · simp only [he, if_false, Option.none_or, false_or]

/-- The loop sets the features of the stage that are not set. -/
theorem lookup_setUnsetGates {known : Known} :
    (setUnsetGates stage known enabled val).lookup k = (enabled.lookup k).or
      (if (known.lookup k).map FeatureSpec.preRelease = some stage then some val else none) := by
  have hstage : (∃ e ∈ known.entries, e.1 = k ∧ e.2.preRelease = stage) ↔
      (known.lookup k).map FeatureSpec.preRelease = some stage := by
    rw [Option.map_eq_some_iff]
    constructor
    · rintro ⟨⟨_, spec⟩, he, rfl, hstage⟩
      exact ⟨spec, AList.mem_lookup_iff.2 he, hstage⟩
    · rintro ⟨spec, hspec, hstage⟩
      exact ⟨⟨k, spec⟩, AList.mem_lookup_iff.1 hspec, rfl, hstage⟩
  rw [setUnsetGates, lookup_foldl_setUnset]
  simp only [hstage]

end SetUnset

namespace FeatureGate

variable {known : Known} {range : Feature → Known} {k : Feature}

/-- The value an input may be set to: the feature is known, and not locked to another. -/
def Accepts (known : Known) (k : Feature) (v : Bool) : Prop :=
  ∃ spec, known.lookup k = some spec ∧ (spec.lockToDefault = true → spec.default = v)

/-- An iteration of the loop of `SetFromMap` that does not fail. -/
def setOne (range : Feature → Known) (enabled : Enabled) (k : Feature) (v : Bool) : Enabled :=
  match specialFeatures k with
  | some fn => fn (range k) (enabled.insert k v) v
  | none => enabled.insert k v

/-- An iteration of the loop fails, or goes on. -/
theorem setLoop_cons (known : Known) (range : Feature → Known) (k : Feature) (v : Bool)
    (l : List (Σ _ : String, Bool)) (enabled : Enabled) :
    (∃ err, setLoop known range (⟨k, v⟩ :: l) enabled = .error err) ∧ ¬ Accepts known k v ∨
      setLoop known range (⟨k, v⟩ :: l) enabled =
        setLoop known range l (setOne range enabled k v) ∧ Accepts known k v := by
  rw [setLoop]
  cases hk : known.lookup k with
  | none => exact .inl ⟨⟨_, rfl⟩, fun ⟨spec, hspec, _⟩ => by rw [hk] at hspec; cases hspec⟩
  | some spec =>
    have haccepts : Accepts known k v ↔ ¬ (spec.lockToDefault = true ∧ spec.default ≠ v) := by
      simp [Accepts, hk]
    by_cases hlock : spec.lockToDefault = true ∧ spec.default ≠ v
    · simp only [if_pos hlock]
      exact .inl ⟨⟨_, rfl⟩, fun h => haccepts.1 h hlock⟩
    · simp only [if_neg hlock]
      refine .inr ⟨?_, haccepts.2 hlock⟩
      rw [setOne]
      cases specialFeatures k <;> rfl

/-- Whether the loop succeeds depends on the known features alone. -/
theorem setLoop_eq_ok_iff {l : List (Σ _ : String, Bool)} {enabled : Enabled} :
    (∃ enabled', setLoop known range l enabled = .ok enabled') ↔
      ∀ e ∈ l, Accepts known e.1 e.2 := by
  induction l generalizing enabled with
  | nil => simp [setLoop]
  | cons e l ih =>
    rw [List.forall_mem_cons]
    rcases setLoop_cons known range e.1 e.2 l enabled with ⟨⟨err, herr⟩, hno⟩ | ⟨hgo, hyes⟩
    · simp [herr, hno]
    · rw [hgo, ih]
      exact ⟨fun h => ⟨hyes, h⟩, fun h => h.2⟩

variable {v : Bool} {l : List String} {m m' : Input}

/-- Setting one special feature gives its value to the features of its stage. -/
theorem toggle_single {stage : Prerelease} {g : Feature} (hg : stage.gate = some g) :
    toggle known (fun g' => if g' = g then some v else none) k =
      if (known.lookup k).map FeatureSpec.preRelease = some stage then some v else none := by
  rw [toggle]
  cases known.lookup k with
  | none => simp
  | some spec =>
    by_cases hstage : spec.preRelease = stage
    · simp [hstage, hg]
    · cases hgate : spec.preRelease.gate with
      | none => simp [hgate, hstage]
      | some g' =>
        have hne : g' ≠ g := by
          rintro rfl
          exact hstage (Prerelease.gate_inj hgate hg)
        simp [hgate, hstage, hne]

/-- The special features are those for the stages. -/
theorem specialFeatures_cases (k : Feature) :
    (∃ stage : Prerelease, stage.gate = some k ∧ specialFeatures k = some (setUnsetGates stage)) ∨
      (∀ stage : Prerelease, stage.gate ≠ some k) ∧ specialFeatures k = none := by
  by_cases halpha : k = allAlphaGate
  · exact .inl ⟨.alpha, by rw [halpha]; rfl, by rw [halpha]; rfl⟩
  · by_cases hbeta : k = allBetaGate
    · exact .inl ⟨.beta, by rw [hbeta]; rfl, by rw [hbeta]; rfl⟩
    · refine .inr ⟨fun stage h => ?_, by rw [specialFeatures, if_neg halpha, if_neg hbeta]⟩
      cases stage <;> simp_all [Prerelease.gate]

/-- The features that an iteration sets: the one that is named, and if that is the
    special feature for their stage, those that are not set. -/
theorem lookup_setOne (hrange : ∀ k', (range k').entries.Perm known.entries) {enabled : Enabled}
    {k₀ : Feature} :
    (setOne range enabled k₀ v).lookup k = if k = k₀ then some v else
      (enabled.lookup k).or (toggle known (fun g => if g = k₀ then some v else none) k) := by
  have hinsert : k ≠ k₀ → (enabled.insert k₀ v).lookup k = enabled.lookup k :=
    AList.lookup_insert_ne
  rw [setOne]
  rcases specialFeatures_cases k₀ with ⟨stage, hg, hspecial⟩ | ⟨hnone, hspecial⟩
  · simp only [hspecial, lookup_setUnsetGates, toggle_single hg, AList.perm_lookup (hrange k₀)]
    by_cases hk : k = k₀
    · subst hk
      rw [if_pos rfl, AList.lookup_insert, Option.some_or]
    · rw [if_neg hk, hinsert hk]
  · have htoggle : toggle known (fun g => if g = k₀ then some v else none) k = none := by
      rw [toggle]
      simp only [Option.bind_eq_none_iff]
      intro spec _ g hg
      rw [if_neg]
      rintro rfl
      exact hnone spec.preRelease hg
    simp only [hspecial]
    rw [htoggle, Option.or_none]
    by_cases hk : k = k₀
    · subst hk
      rw [if_pos rfl, AList.lookup_insert]
    · rw [if_neg hk, hinsert hk]

/-- What the loop of `SetFromMap` leaves: the values of the map, the values that were
    set before, and for the others those of the special features in the map. -/
theorem lookup_setLoop (hrange : ∀ k', (range k').entries.Perm known.entries)
    {l : List (Σ _ : String, Bool)} (hl : l.NodupKeys) {enabled enabled' : Enabled}
    (h : setLoop known range l enabled = .ok enabled') :
    enabled'.lookup k =
      ((l.dlookup k).or (enabled.lookup k)).or (toggle known (fun g => l.dlookup g) k) := by
  induction l generalizing enabled with
  | nil =>
    cases h
    simp [toggle]
  | cons e l ih =>
    rcases setLoop_cons known range e.1 e.2 l enabled with ⟨⟨err, herr⟩, _⟩ | ⟨hgo, _⟩
    · rw [herr] at h
      cases h
    · rw [hgo] at h
      rw [List.nodupKeys_cons] at hl
      rw [ih hl.2 h, lookup_setOne hrange]
      have hcons : ∀ g, (e :: l).dlookup g =
          (if g = e.1 then some e.2 else none).or (l.dlookup g) := by
        intro g
        by_cases hg : g = e.1
        · subst hg
          rw [List.dlookup_cons_eq, if_pos rfl, Option.some_or]
        · rw [List.dlookup_cons_ne _ _ hg, if_neg hg, Option.none_or]
      simp only [hcons, toggle_or]
      by_cases hk : k = e.1
      · subst hk
        rw [List.dlookup_eq_none.2 hl.1]
        simp
      · simp only [if_neg hk, Option.none_or, Option.or_assoc]

/-- Every value of a map may be set. -/
def AcceptsAll (known : Known) (m : Input) : Prop :=
  ∀ k v, m.lookup k = some v → Accepts known k v

variable (d : Deps) (f : FeatureGate)

/-- `SetFromMap` fails and changes nothing, or sets the features whatever the order. -/
theorem setFromMap_cases (o : Order) (m : Input) :
    (∃ err, f.setFromMap o m = (some err, f)) ∧ ¬ AcceptsAll f.known m ∨
      ∃ enabled, f.setFromMap o m = (none, { f with enabled }) ∧ AcceptsAll f.known m ∧
        ∀ k, enabled.lookup k = ((m.lookup k).or (f.enabled.lookup k)).or
          (toggle f.known (fun g => m.lookup g) k) := by
  have hperm := o.input_perm m
  have haccepts : (∀ e ∈ (o.input m).entries, Accepts f.known e.1 e.2) ↔ AcceptsAll f.known m := by
    constructor
    · intro h k v hv
      exact h ⟨k, v⟩ (hperm.mem_iff.2 (AList.mem_lookup_iff.1 hv))
    · rintro h ⟨k, v⟩ he
      exact h k v (AList.mem_lookup_iff.2 (hperm.mem_iff.1 he))
  have hok : (∃ enabled, setLoop f.known (o.known f.known) (o.input m).entries f.enabled =
      .ok enabled) ↔ AcceptsAll f.known m := setLoop_eq_ok_iff.trans haccepts
  rw [← hok, setFromMap]
  cases hloop : setLoop f.known (o.known f.known) (o.input m).entries f.enabled with
  | error err => exact .inl ⟨⟨err, rfl⟩, fun ⟨enabled, h⟩ => by cases h⟩
  | ok enabled =>
    refine .inr ⟨enabled, rfl, ⟨enabled, rfl⟩, fun k => ?_⟩
    have hlookup : ∀ g, (o.input m).entries.dlookup g = m.lookup g :=
      fun g => AList.perm_lookup hperm
    rw [lookup_setLoop (o.known_perm f.known) (o.input m).nodupKeys hloop]
    simp only [hlookup]

/-! ## Parsing -/

/-- The key of a part of the string that is given to `Set`. -/
def entryKey (s : String) : String := trimSpace ((splitN s '=' 2).headD "")

variable {d}

theorem entryKey_of_parseEntry {s k : String} (h : parseEntry d s = .ok (k, v)) :
    entryKey s = k := by
  unfold parseEntry at h
  rw [entryKey]
  split at h
  · split at h
    · cases h
      simp [*]
    · cases h
  · cases h

theorem parseMap_eq_ok_iff {m : Input} :
    (∃ m', parseMap d l m = .ok m') ↔ ∀ s ∈ l, s ≠ "" → ∃ e, parseEntry d s = .ok e := by
  induction l generalizing m with
  | nil => simp [parseMap]
  | cons s l ih =>
    rw [List.forall_mem_cons, parseMap]
    by_cases hs : s = ""
    · simp [hs, ih]
    · cases hparse : parseEntry d s with
      | error err => simp [hs]
      | ok e => simp [hs, ih]

/-- A key that is not given keeps its value. -/
theorem lookup_parseMap_of_ne (h : parseMap d l m = .ok m') {k : String}
    (hk : ∀ s ∈ l, s ≠ "" → entryKey s ≠ k) : m'.lookup k = m.lookup k := by
  induction l generalizing m with
  | nil =>
    cases h
    rfl
  | cons s l ih =>
    rw [List.forall_mem_cons] at hk
    rw [parseMap] at h
    by_cases hs : s = ""
    · rw [if_pos hs] at h
      exact ih h hk.2
    · rw [if_neg hs] at h
      cases hparse : parseEntry d s with
      | error err =>
        rw [hparse] at h
        cases h
      | ok e =>
        simp only [hparse] at h
        rw [ih h hk.2, AList.lookup_insert_ne]
        rw [← entryKey_of_parseEntry hparse]
        exact (hk.1 hs).symm

/-- A key has the value it is given, if no key is given twice. -/
theorem lookup_parseMap_of_mem
    (hl : (l.filter (· ≠ "")).Pairwise fun s s' => entryKey s ≠ entryKey s')
    (h : parseMap d l m = .ok m') {s : String} (hmem : s ∈ l) (hs : s ≠ "") {k : String}
    (hparse : parseEntry d s = .ok (k, v)) : m'.lookup k = some v := by
  induction l generalizing m with
  | nil => cases hmem
  | cons s' l ih =>
    rw [parseMap] at h
    by_cases hs' : s' = ""
    · rw [if_pos hs'] at h
      rw [List.filter_cons_of_neg (by simp [hs'])] at hl
      refine ih hl h ((List.mem_cons.1 hmem).resolve_left ?_)
      rintro rfl
      exact hs hs'
    · rw [if_neg hs'] at h
      rw [List.filter_cons_of_pos (by simp [hs']), List.pairwise_cons] at hl
      rcases List.mem_cons.1 hmem with rfl | hmem
      · -- No later part has the key, so the value is the one that is inserted.
        simp only [hparse] at h
        rw [lookup_parseMap_of_ne h fun s' hs' hne => ?_, AList.lookup_insert]
        rw [← entryKey_of_parseEntry hparse]
        exact (hl.1 s' (List.mem_filter.2 ⟨hs', by simpa using hne⟩)).symm
      · split at h
        · cases h
        · exact ih hl.2 h hmem

/-- The map that is parsed, if no key is given twice. -/
theorem lookup_parseMap (hl : (l.filter (· ≠ "")).Pairwise fun s s' => entryKey s ≠ entryKey s')
    (h : parseMap d l m = .ok m') {k : String} :
    m'.lookup k = some v ↔ (∃ s ∈ l, s ≠ "" ∧ parseEntry d s = .ok (k, v)) ∨
      m.lookup k = some v ∧ ∀ s ∈ l, s ≠ "" → entryKey s ≠ k := by
  by_cases hk : ∀ s ∈ l, s ≠ "" → entryKey s ≠ k
  · have hno : ¬ ∃ s ∈ l, s ≠ "" ∧ parseEntry d s = .ok (k, v) := by
      rintro ⟨s, hmem, hs, hparse⟩
      exact hk s hmem hs (entryKey_of_parseEntry hparse)
    rw [lookup_parseMap_of_ne h hk, or_iff_right hno, and_iff_left hk]
  · rw [or_iff_left fun hkept => hk hkept.2]
    push Not at hk
    obtain ⟨s, hmem, hs, rfl⟩ := hk
    constructor
    · intro hlookup
      obtain ⟨⟨k, v'⟩, hparse⟩ := parseMap_eq_ok_iff.1 ⟨m', h⟩ s hmem hs
      rw [entryKey_of_parseEntry hparse] at hlookup ⊢
      rw [lookup_parseMap_of_mem hl h hmem hs hparse] at hlookup
      exact ⟨s, hmem, hs, by rw [hparse, Option.some.inj hlookup]⟩
    · rintro ⟨s', hmem', hs', hparse⟩
      exact lookup_parseMap_of_mem hl h hmem' hs' hparse

/-- No key is given twice in a string. -/
def DistinctKeys (value : String) : Prop :=
  ((split value ',').filter (· ≠ "")).Pairwise fun s s' => entryKey s ≠ entryKey s'

/-! ## Order -/

/-- Two calls on a gate fail together, leave every feature with the same value, and
    change nothing if they fail. -/
structure SameOutcome (f : FeatureGate) (r r' : Option Error × FeatureGate) : Prop where
  err_iff : r.1 = none ↔ r'.1 = none
  enabled : ∀ k, r.2.enabled.lookup k = r'.2.enabled.lookup k
  known : r.2.known = r'.2.known
  isEnabled : ∀ d k, r.2.isEnabled d k = r'.2.isEnabled d k
  unchanged : r.1 ≠ none → r.2 = f
  unchanged' : r'.1 ≠ none → r'.2 = f

variable {f}

theorem SameOutcome.of_errors {err err' : Error} : SameOutcome f (some err, f) (some err', f) where
  err_iff := by simp
  enabled _ := rfl
  known := rfl
  isEnabled _ _ := rfl
  unchanged _ := rfl
  unchanged' _ := rfl

/-- Only the values of the map matter. -/
theorem setFromMap_sameOutcome (hm : ∀ k, m.lookup k = m'.lookup k) (o o' : Order) :
    SameOutcome f (f.setFromMap o m) (f.setFromMap o' m') := by
  have haccepts : AcceptsAll f.known m ↔ AcceptsAll f.known m' := by simp only [AcceptsAll, hm]
  rcases f.setFromMap_cases o m with ⟨⟨err, heq⟩, hno⟩ | ⟨enabled, heq, hyes, hlookup⟩
  · rcases f.setFromMap_cases o' m' with ⟨⟨err', heq'⟩, _⟩ | ⟨_, _, hyes', _⟩
    · rw [heq, heq']
      exact .of_errors
    · exact absurd (haccepts.2 hyes') hno
  · rcases f.setFromMap_cases o' m' with ⟨_, hno'⟩ | ⟨enabled', heq', _, hlookup'⟩
    · exact absurd (haccepts.1 hyes) hno'
    · have hsame : ∀ k, enabled.lookup k = enabled'.lookup k := by
        intro k
        simp only [hlookup, hlookup', hm]
      rw [heq, heq']
      exact {
        err_iff := by simp
        enabled := hsame
        known := rfl
        isEnabled := fun d k => by simp only [FeatureGate.isEnabled, hsame]
        unchanged := fun h => absurd rfl h
        unchanged' := fun h => absurd rfl h }

/-- The map that is parsed does not depend on the order of the parts. -/
theorem set_sameOutcome {value value' : String}
    (hperm : (split value ',').Perm (split value' ',')) (hkeys : DistinctKeys value)
    (o o' : Order) : SameOutcome f (f.set d o value) (f.set d o' value') := by
  have hkeys' : DistinctKeys value' :=
    (hperm.filter _).pairwise hkeys fun h => Ne.symm h
  have hok : (∃ m, parseMap d (split value ',') ∅ = .ok m) ↔
      ∃ m, parseMap d (split value' ',') ∅ = .ok m := by
    simp only [parseMap_eq_ok_iff, hperm.mem_iff]
  rw [set, set]
  cases hm : parseMap d (split value ',') ∅ with
  | error err =>
    cases hm' : parseMap d (split value' ',') ∅ with
    | error err' => exact .of_errors
    | ok m' =>
      obtain ⟨m, h⟩ := hok.2 ⟨m', hm'⟩
      rw [hm] at h
      cases h
  | ok m =>
    cases hm' : parseMap d (split value' ',') ∅ with
    | error err' =>
      obtain ⟨m', h⟩ := hok.1 ⟨m, hm⟩
      rw [hm'] at h
      cases h
    | ok m' =>
      refine setFromMap_sameOutcome (fun k => Option.ext fun v => ?_) o o'
      rw [lookup_parseMap hkeys hm, lookup_parseMap hkeys' hm']
      simp only [hperm.mem_iff]

end FeatureGate

/-- Setting features does not depend on the order of the map, of the known features or
    of the parts of the string, and a call that fails changes nothing. -/
theorem set_order_independent (d : Deps) (f : FeatureGate) (o o' : Order) :
    (∀ m, f.SameOutcome (f.setFromMap o m) (f.setFromMap o' m)) ∧
    ∀ value value', (split value ',').Perm (split value' ',') → FeatureGate.DistinctKeys value →
      f.SameOutcome (f.set d o value) (f.set d o' value') :=
  ⟨fun _ => FeatureGate.setFromMap_sameOutcome (fun _ => rfl) o o',
    fun _ _ hperm hkeys => FeatureGate.set_sameOutcome hperm hkeys o o'⟩

/-- The parts of a string the other way round. -/
theorem set_order_independent_swap : (newFeatureGate "").SameOutcome
    ((newFeatureGate "").set .plain .plain "AllAlpha=true,AllBeta=false")
    ((newFeatureGate "").set .plain .plain "AllBeta=false,AllAlpha=true") :=
  have hperm : (split "AllAlpha=true,AllBeta=false" ',').Perm
      (split "AllBeta=false,AllAlpha=true" ',') :=
    List.Perm.swap "AllBeta=false" "AllAlpha=true" []
  (set_order_independent .plain (newFeatureGate "") .plain .plain).2 _ _ hperm
    (by rw [FeatureGate.DistinctKeys]; decide)

end Apiserver.Featuregate
