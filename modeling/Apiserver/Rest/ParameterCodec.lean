import Apiserver.Rest.Values

/-!
# The parameter codec

`EncodeParameters` and `DecodeParameters` (`pkg/rest/parametercodec/codec.go`) send the
fields of a struct in the path, the query and the header of a request. Both go through
the fields that were found for its type: encoding leaves out those that are zero, and
decoding sets those that are there.

The way back is not always the same: of a slice in the path or the header one text
arrives, and decoding makes what the pointers to embedded structs point to, also when
nothing below was sent.

* `encodeFields_spec`: what is looked up for each field once the value is encoded;
* `Decoded`, `decoded_decodeFields`: the value as decoding fills it;
* `ParamType.carries_iff`: what of a value one of the places carries;
* `roundTrips_iff`: which values come back.
-/

namespace Apiserver.Rest

open Go

/-! ## Values as texts -/

/-- How golib writes values. -/
structure ValueFormat where
  bool : Bool → String
  int : Int64 → String

/-- `util.GetValue` of golib, on the types of parameters. -/
def ValueFormat.getValue (format : ValueFormat) : Leaf → List String
  | .string s => [s]
  | .bool b => [format.bool b]
  | .int i => [format.int i]
  | .strings l => l.getD []

/-- `util.GetValue` and `util.SetValue` of golib, where the one inverts the other. -/
structure ValueCodec extends ValueFormat where
  bool_ne : bool true ≠ ""
  int_ne : ∀ i, i ≠ 0 → int i ≠ ""
  setValue : GoType → List String → Except Error Leaf
  setValue_getValue : ∀ x, x ≠ .strings none →
    setValue x.type (toValueFormat.getValue x) = .ok x

/-- What the codec takes from the Go library and golib, and the `Validate` of the values. -/
structure ParamCodec (R : Types) where
  /-- The name of the kind of a type. -/
  kind : GoType → String
  zeros : Zeros R
  values : ValueCodec
  validate : Value → Option Error := fun _ => none

/-! ## Encoding and decoding -/

namespace Parameters

/-- Adding the texts of a value, in one of the places. -/
def add (params : Parameters) (key : String) (data : List String) :
    ParamType → Except Panic Parameters
  | .path => match data with
    | [] => .error "runtime error: index out of range [0] with length 0"
    | d :: _ => .ok { params with path := params.path.insert key d }
  | .query => .ok { params with query := data.foldl (fun q d => q.push key d) params.query }
  | .header => .ok
      { params with
        header := data.foldl (fun h d => h.push (canonicalMIMEHeaderKey key) d) params.header }

/-- The texts of a value, if it is there. -/
def lookup (params : Parameters) (key : String) : ParamType → Option (List String)
  | .path => (params.path.lookup key).map fun d => [d]
  | .query => params.query.lookup key
  | .header =>
    if params.header.get key = "" then none else some [params.header.get key]

end Parameters

/-- The key that decoding looks a field up by. -/
def Field.lookupKey (f : Field) : String := if f.name = "" then f.key else f.name

namespace ParamCodec

variable {R : Types} (C : ParamCodec R)

/-- An iteration of the loop of `encodeParameters`. A field of another type than those of
    parameters is not modelled. -/
def encodeField (v : Value) (params : Parameters) (f : Field) : Except Failure Parameters :=
  let missing : Except Failure Parameters :=
    if f.required then .error (.error (f.key ++ " must be set")) else .ok params
  match v.get f.index with
  | none => missing
  | some (.leaf x) =>
    if x.isZero then missing
    else match f.paramType with
      | none => .error (.error ("invalid kind:  " ++ f.key))
      | some place => match params.add f.key (C.values.getValue x) place with
        | .error msg => .error (.panic msg)
        | .ok params => .ok params
  | some _ => .error (.error "unsupported type")

def encodeFields (v : Value) : List Field → Parameters → Except Failure Parameters
  | [], params => .ok params
  | f :: l, params => match C.encodeField v params f with
    | .error err => .error err
    | .ok params => encodeFields v l params

/-- `encodeParameters`. -/
def encodeParameters (t : GoType) (v : Value) : Except Failure Parameters :=
  match C.validate v with
  | some err => .error (.error err)
  | none =>
    if t.struct? = none ∨ t.string = "time.Time" then
      .error (.error ("rest-encode: input must be a struct, got " ++ C.kind t ++ "/" ++ t.string))
    else match R.typeFields t with
      | .error msg => .error (.panic msg)
      | .ok fields => C.encodeFields v fields { header := ∅, path := ∅, query := ∅ }

/-- `setFieldValue`: what the field is set to, if it is. -/
def setFieldValue (params : Parameters) (f : Field) : Except Failure (Option Leaf) :=
  match f.paramType with
  | none => .error (.panic ("invalid opt type " ++ R.describe f.type))
  | some place => match params.lookup f.lookupKey place with
    | none =>
      if f.required then .error (.error (f.lookupKey ++ " must be set")) else .ok none
    | some data => match C.values.setValue f.type data with
      | .error err => .error (.error err)
      | .ok x => .ok (some x)

/-- An iteration of the loop of `decodeParameters`. -/
def decodeField (params : Parameters) (t : GoType) (v : Value) (f : Field) :
    Except Failure Value :=
  match C.zeros.getSubv t true f.index v with
  | .error err => .error err
  | .ok v => match C.setFieldValue params f with
    | .error err => .error err
    | .ok none => .ok v
    | .ok (some x) => .ok (v.set x f.index)

def decodeFields (params : Parameters) (t : GoType) : List Field → Value → Except Failure Value
  | [], v => .ok v
  | f :: l, v => match C.decodeField params t v f with
    | .error err => .error err
    | .ok v => decodeFields params t l v

/-- `decodeParameters`, into a value of a type. -/
def decodeParameters (params : Parameters) (t : GoType) (v : Value) : Except Failure Value :=
  if t.struct? = none ∨ t.string = "time.Time" then
    .error (.error "schema: interface must be a pointer to struct")
  else match R.typeFields t with
    | .error msg => .error (.panic msg)
    | .ok fields => C.decodeFields params t fields v

/-- The value comes back when it is encoded, and decoded into a zero value. -/
def RoundTrips (t : GoType) (v : Value) : Prop :=
  ∃ params w, C.encodeParameters t v = .ok params ∧
    C.decodeParameters params t (C.zeros.zero t) = .ok w ∧ Same w v

end ParamCodec

/-! ## What arrives -/

/-- What arrives of a value that is sent in one of the places; `none` if nothing does. -/
def ParamType.arriving (place : ParamType) (x : Leaf) : Option Leaf :=
  if x.isZero then none
  else match x with
    | .strings l => match place with
      | .path => (l.getD []).head?.map fun d => .strings (some [d])
      | .query => if (l.getD []).isEmpty then none else some (.strings l)
      | .header => ((l.getD []).head?.filter (· ≠ "")).map fun d => .strings (some [d])
    | x => some x

/-- What arrives has the type of what was sent. -/
theorem ParamType.type_of_arriving {place : ParamType} {x y : Leaf}
    (h : place.arriving x = some y) : y.type = x.type ∧ y ≠ .strings none := by
  unfold arriving at h
  by_cases hzero : x.isZero = true
  · simp [hzero] at h
  rw [if_neg hzero] at h
  cases x with
  | strings l =>
    cases place with
    | path =>
      obtain ⟨d, -, rfl⟩ := Option.map_eq_some_iff.1 h
      exact ⟨rfl, by simp⟩
    | query =>
      dsimp only at h
      split_ifs at h
      cases h
      refine ⟨rfl, ?_⟩
      rintro h
      cases h
      exact hzero rfl
    | header =>
      obtain ⟨d, -, rfl⟩ := Option.map_eq_some_iff.1 h
      exact ⟨rfl, by simp⟩
  | _ =>
    cases h
    exact ⟨rfl, by simp⟩

/-- What is looked up of the texts that were added in one of the places. -/
def ParamType.found (place : ParamType) (data : List String) : Option (List String) :=
  match place with
  | .path => data.head?.map fun d => [d]
  | .query => if data.isEmpty then none else some data
  | .header => (data.head?.filter (· ≠ "")).map fun d => [d]

/-- What is found at the place is what arrives. -/
theorem ValueCodec.found_getValue (values : ValueCodec) (place : ParamType) {x : Leaf}
    (hx : x.isZero = false) :
    place.found (values.getValue x) = (place.arriving x).map values.getValue := by
  -- The text of a value that is not zero is not empty.
  have hscalar (d : String) (hd : d ≠ "") : place.found [d] = some [d] := by
    cases place <;> simp [ParamType.found, hd]
  unfold ParamType.arriving
  rw [if_neg (by simp [hx])]
  cases x with
  | string s => exact hscalar s (by simpa [Leaf.isZero] using hx)
  | bool b =>
    obtain rfl : b = true := by simpa [Leaf.isZero] using hx
    exact hscalar _ values.bool_ne
  | int i => exact hscalar _ (values.int_ne i (by simpa [Leaf.isZero] using hx))
  | strings l =>
    cases place with
    | path => simp [ParamType.found, ValueFormat.getValue, Function.comp_def]
    | query =>
      simp only [ParamType.found, ValueFormat.getValue]
      by_cases hl : (l.getD []).isEmpty = true <;> simp [hl, ValueFormat.getValue]
    | header => simp [ParamType.found, ValueFormat.getValue, Function.comp_def]

namespace Parameters

variable {params params' : Parameters} {key key' : String} {data : List String}
  {place : ParamType}

/-- What is under a key, in each of the places. -/
def under (params : Parameters) (key : String) :
    Option String × Option (List String) × List String :=
  (params.path.lookup key, params.query.lookup key,
    params.header.index (canonicalMIMEHeaderKey key))

theorem lookup_congr (h : params.under key = params'.under key) (place : ParamType) :
    params.lookup key place = params'.lookup key place := by
  simp only [under, Prod.mk.injEq] at h
  cases place with
  | path => simp [lookup, h.1]
  | query => exact h.2.1
  | header => simp [lookup, Header.get, Header.values, h.2.2]

theorem add_isOk_iff : (∃ params', params.add key data place = .ok params') ↔
    (place = .path → data ≠ []) := by
  cases place with
  | path => cases data <;> simp [add]
  | _ => simp [add]

/-- Keys that differ in more than case do not interfere. -/
theorem under_add (h : params.add key data place = .ok params')
    (hkey : key'.toList.map Char.toLower ≠ key.toList.map Char.toLower) :
    params'.under key' = params.under key' := by
  have hne : key' ≠ key := fun heq => hkey (by rw [heq])
  have hcanonical : canonicalMIMEHeaderKey key' ≠ canonicalMIMEHeaderKey key :=
    fun heq => hkey (map_toLower_eq_of_canonicalMIMEHeaderKey_eq heq)
  cases place with
  | path =>
    cases data with
    | nil => cases h
    | cons d data =>
      cases h
      simp [under, AList.lookup_insert_ne hne]
  | query =>
    cases h
    simp [under, Header.lookup_foldl_push, hne]
  | header =>
    cases h
    simp [under, Header.index, Header.lookup_foldl_push, hcanonical]

/-- What is looked up after it was added. -/
theorem lookup_add (h : params.add key data place = .ok params')
    (habsent : params.under key = (none, none, [])) :
    params'.lookup key place = place.found data := by
  simp only [under, Prod.mk.injEq] at habsent
  cases place with
  | path =>
    cases data with
    | nil => cases h
    | cons d data =>
      cases h
      simp [lookup, ParamType.found]
  | query =>
    cases h
    rw [lookup, Header.lookup_foldl_push, ParamType.found, Header.index, habsent.2.1]
    cases data <;> simp
  | header =>
    cases h
    have hindex : Header.index (data.foldl (fun h d => h.push (canonicalMIMEHeaderKey key) d)
        params.header) (canonicalMIMEHeaderKey key) = data := by
      have habsent := habsent.2.2
      rw [Header.index, Header.lookup_foldl_push, habsent]
      rw [Header.index] at habsent
      cases data <;> simp [habsent]
    simp only [lookup, Header.get, Header.values, hindex, ParamType.found]
    cases data with
    | nil => rfl
    | cons d data => by_cases hd : d = "" <;> simp [hd, Option.filter]

end Parameters

/-! ## Encoding -/

/-- A field of one of the types of parameters, recorded for a struct. -/
structure ParamField (R : Types) (s : String) (f : Field) : Prop where
  path : ∃ sf, R.FieldPath s f.index sf ∧ sf.type = f.type
  leaf : f.type.IsLeaf
  place : ∃ place, f.paramType = some place
  key : f.lookupKey = f.key

/-- What arrives of a field of a value. -/
def Field.sent (f : Field) (v : Value) : Option Leaf :=
  match f.paramType, v.get f.index with
  | some place, some (.leaf x) => place.arriving x
  | _, _ => none

/-- The field is there, if it is required. -/
def Field.Present (f : Field) (v : Value) : Prop :=
  f.required = true → ∃ x, v.get f.index = some (.leaf x) ∧ x.isZero = false

theorem Field.Present.isZero {f : Field} {v : Value} {x : Leaf} (h : f.Present v)
    (hget : v.get f.index = some (.leaf x)) (hreq : f.required = true) : x.isZero = false := by
  obtain ⟨y, hy, hzero⟩ := h hreq
  rw [hget] at hy
  cases hy
  exact hzero

/-- An empty slice, which is not nil, is to be sent in the path. -/
def Field.EmptyPath (f : Field) (v : Value) : Prop :=
  f.paramType = some .path ∧ v.get f.index = some (.leaf (.strings (some [])))

variable {s : String}

theorem ParamField.get {R : Types} {f : Field} {v : Value} (hf : ParamField R s f)
    (hv : HasType R v (.struct s)) :
    v.get f.index = none ∨ ∃ x, v.get f.index = some (.leaf x) ∧ x.type = f.type := by
  cases hget : v.get f.index with
  | none => exact .inl rfl
  | some w =>
    obtain ⟨sf, hpath, htype⟩ := hf.path
    have hw := hv.get_fieldPath rfl hpath hget
    rw [htype] at hw
    obtain ⟨x, rfl, hx⟩ := hw.eq_leaf hf.leaf
    exact .inr ⟨x, rfl, hx⟩

theorem ParamField.type_of_sent {R : Types} {f : Field} {v : Value} (hf : ParamField R s f)
    (hv : HasType R v (.struct s)) {y : Leaf} (hy : f.sent v = some y) :
    y.type = f.type ∧ y ≠ .strings none := by
  obtain ⟨place, hplace⟩ := hf.place
  rcases hf.get hv with hget | ⟨x, hget, hx⟩
  · simp [Field.sent, hplace, hget] at hy
  · simp only [Field.sent, hplace, hget] at hy
    obtain ⟨htype, hne⟩ := ParamType.type_of_arriving hy
    exact ⟨htype.trans hx, hne⟩

theorem ValueFormat.getValue_eq_nil {format : ValueFormat} {x : Leaf} (hx : x.isZero = false) :
    format.getValue x = [] ↔ x = .strings (some []) := by
  cases x with
  | strings l => cases l <;> simp_all [getValue, Leaf.isZero]
  | _ => simp [getValue]

namespace ParamCodec

/-- What is looked up for a field is what arrives of it. -/
def Delivers {R : Types} (C : ParamCodec R) (params : Parameters) (v : Value) (f : Field) : Prop :=
  ∀ place, f.paramType = some place →
    params.lookup f.key place = (f.sent v).map C.values.getValue

variable {R : Types} {C : ParamCodec R} {s : String} {v : Value} {f : Field} {l : List Field}
  {params params' : Parameters}

/-- An iteration of the encoding skips the field, or adds its texts. -/
theorem encodeField_cases (hf : ParamField R s f) (hv : HasType R v (.struct s))
    (hreq : f.Present v) (params : Parameters) :
    (C.encodeField v params f = .ok params ∧ f.sent v = none ∧ ¬ f.EmptyPath v) ∨
      ∃ x place, v.get f.index = some (.leaf x) ∧ x.isZero = false ∧ f.paramType = some place ∧
        C.encodeField v params f = (params.add f.key (C.values.getValue x) place).mapError
          Failure.panic := by
  obtain ⟨place, hplace⟩ := hf.place
  unfold encodeField
  rcases hf.get hv with hget | ⟨x, hget, -⟩
  · have hopt : f.required ≠ true := fun h => by
      obtain ⟨x, hx, -⟩ := hreq h
      simp [hget] at hx
    refine .inl ⟨by simp [hget, hopt], by simp [Field.sent, hplace, hget], fun h => ?_⟩
    exact absurd h.2 (by simp [hget])
  · by_cases hzero : x.isZero = true
    · have hopt : f.required ≠ true := fun h => by simp [hreq.isZero hget h] at hzero
      refine .inl ⟨by simp [hget, hzero, hopt], ?_, fun h => ?_⟩
      · simp [Field.sent, hplace, hget, ParamType.arriving, hzero]
      · have hx := h.2
        rw [hget] at hx
        cases hx
        simp [Leaf.isZero] at hzero
    · refine .inr ⟨x, place, hget, by simpa using hzero, hplace, ?_⟩
      simp only [hget, hzero, hplace]
      cases params.add f.key (C.values.getValue x) place <;> rfl

/-- Only empty values of paths cannot be encoded. -/
theorem encodeField_isOk_iff (hf : ParamField R s f) (hv : HasType R v (.struct s))
    (hreq : f.Present v) (params : Parameters) :
    (∃ params', C.encodeField v params f = .ok params') ↔ ¬ f.EmptyPath v := by
  rcases C.encodeField_cases hf hv hreq params with
    ⟨hok, -, hempty⟩ | ⟨x, place, hget, hx, hplace, h⟩
  · exact iff_of_true ⟨params, hok⟩ hempty
  · have hadd : (∃ params', C.encodeField v params f = .ok params') ↔
        ∃ params', params.add f.key (C.values.getValue x) place = .ok params' := by
      rw [h]
      exact exists_congr fun _ => mapError_eq_ok
    rw [hadd, Parameters.add_isOk_iff, Field.EmptyPath, hplace, hget, Option.some.injEq,
      Option.some.injEq, Value.leaf.injEq, ← ValueFormat.getValue_eq_nil hx, not_and]

/-- What an iteration of the encoding adds. -/
theorem encodeField_spec (hf : ParamField R s f) (hv : HasType R v (.struct s))
    (hreq : f.Present v) (h : C.encodeField v params f = .ok params')
    (habsent : params.under f.key = (none, none, [])) :
    C.Delivers params' v f ∧
      ∀ key, key.toList.map Char.toLower ≠ f.key.toList.map Char.toLower →
        params'.under key = params.under key := by
  rcases C.encodeField_cases hf hv hreq params with
    ⟨hok, hsent, -⟩ | ⟨x, place, hget, hx, hplace, hadd⟩
  · rw [hok] at h
    cases h
    refine ⟨fun place _ => ?_, fun _ _ => rfl⟩
    rw [hsent, Option.map_none]
    simp only [Parameters.under, Prod.mk.injEq] at habsent
    cases place with
    | path => simp [Parameters.lookup, habsent.1]
    | query => exact habsent.2.1
    | header => simp [Parameters.lookup, Header.get, Header.values, habsent.2.2]
  · rw [hadd, mapError_eq_ok] at h
    refine ⟨fun place' hplace' => ?_, fun key hkey => Parameters.under_add h hkey⟩
    obtain rfl := Option.some.inj (hplace.symm.trans hplace')
    rw [Parameters.lookup_add h habsent, C.values.found_getValue _ hx]
    simp [Field.sent, hplace, hget]

/-- Encoding goes through unless an empty slice is to be sent in the path. -/
theorem encodeFields_isOk_iff (hl : ∀ f ∈ l, ParamField R s f) (hv : HasType R v (.struct s))
    (hreq : ∀ f ∈ l, f.Present v) (params : Parameters) :
    (∃ params', C.encodeFields v l params = .ok params') ↔ ∀ f ∈ l, ¬ f.EmptyPath v := by
  induction l generalizing params with
  | nil => simp [encodeFields]
  | cons f l ih =>
    rw [List.forall_mem_cons] at hl hreq ⊢
    rw [← C.encodeField_isOk_iff hl.1 hv hreq.1 params, encodeFields]
    cases hf : C.encodeField v params f with
    | error err => simp
    | ok params₁ => simpa using ih hl.2 hreq.2 params₁

/-- What is looked up for each field once the value is encoded. -/
theorem encodeFields_spec (hl : ∀ f ∈ l, ParamField R s f) (hv : HasType R v (.struct s))
    (hreq : ∀ f ∈ l, f.Present v)
    (hkeys : (l.map fun f => f.key.toList.map Char.toLower).Nodup)
    (h : C.encodeFields v l params = .ok params')
    (habsent : ∀ f ∈ l, params.under f.key = (none, none, [])) :
    (∀ f ∈ l, C.Delivers params' v f) ∧
      ∀ key, (∀ f ∈ l, key.toList.map Char.toLower ≠ f.key.toList.map Char.toLower) →
        params'.under key = params.under key := by
  induction l generalizing params with
  | nil =>
    cases h
    simp
  | cons f l ih =>
    rw [List.forall_mem_cons] at hl hreq habsent
    rw [List.map_cons, List.nodup_cons] at hkeys
    have hfresh {g : Field} (hg : g ∈ l) :
        g.key.toList.map Char.toLower ≠ f.key.toList.map Char.toLower := fun heq =>
      hkeys.1 (List.mem_map.2 ⟨g, hg, heq⟩)
    rw [encodeFields] at h
    split at h
    · cases h
    case h_2 params₁ hf =>
      obtain ⟨hlookup, hframe⟩ := encodeField_spec hl.1 hv hreq.1 hf habsent.1
      obtain ⟨ihlookup, ihframe⟩ := ih hl.2 hreq.2 hkeys.2 h fun g hg => by
        rw [hframe _ (hfresh hg), habsent.2 g hg]
      refine ⟨?_, fun key hkey => ?_⟩
      · rw [List.forall_mem_cons]
        refine ⟨fun place hplace => ?_, ihlookup⟩
        -- The fields that follow have other keys.
        rw [← hlookup place hplace]
        exact Parameters.lookup_congr (ihframe f.key fun g hg => (hfresh hg).symm) place
      · rw [List.forall_mem_cons] at hkey
        rw [ihframe key hkey.2, hframe key hkey.1]

end ParamCodec

/-! ## Decoding -/

/-- The value as decoding has filled it: some fields are done. -/
structure Decoded (R : Types) (s : String) (v : Value) (done : List Field) (w : Value) :
    Prop where
  typed : HasType R w (.struct s)
  /-- What arrived is there. -/
  sent : ∀ f ∈ done, ∀ y, f.sent v = some y → w.get f.index = some (.leaf y)
  unsent : ∀ f ∈ done, f.sent v = none → ∃ x, w.get f.index = some (.leaf x) ∧ x.isZero = true
  /-- The other parameters are zero. -/
  rest : ∀ idx x, w.get idx = some (.leaf x) → (∀ f ∈ done, f.index ≠ idx) → x.isZero = true
  /-- The pointers to what was filled have been made, and no others. -/
  nonNil : ∀ idx, w.obs idx = some (.ptr true) → ∃ f ∈ done, idx <+: f.index ∧ idx ≠ f.index
  settable : ∀ f ∈ done, ¬ R.Blocked s f.index
  required : ∀ f ∈ done, f.required = true → f.sent v ≠ none

/-- What the walk to a field does, while some fields are done: the field is zero, and the
    pointers to it have been made. -/
structure Walked (R : Types) (s : String) (done : List Field) (f : Field) (w w' : Value) :
    Prop where
  typed : HasType R w' (.struct s)
  leaf : ∃ x, w'.get f.index = some (.leaf x) ∧ x.isZero = true ∧ x.type = f.type
  kept : ∀ idx x, w.get idx = some (.leaf x) → w'.get idx = some (.leaf x)
  rest : ∀ idx x, w'.get idx = some (.leaf x) → (∀ g ∈ done, g.index ≠ idx) → x.isZero = true
  nonNil : ∀ idx, w'.obs idx = some (.ptr true) →
    ∃ g ∈ f :: done, idx <+: g.index ∧ idx ≠ g.index
  settable : ¬ R.Blocked s f.index

section Walked

variable {R : Types} {s : String} {v w w' : Value} {f : Field} {done : List Field}

/-- A field that was not sent leaves the value as it is, -/
theorem Walked.unsent (h : Walked R s done f w w') (hdec : Decoded R s v done w)
    (hsent : f.sent v = none) (hreq : f.required = false) : Decoded R s v (f :: done) w' where
  typed := h.typed
  sent := by
    rw [List.forall_mem_cons]
    refine ⟨fun y hy => ?_, fun g hg y hy => h.kept _ _ (hdec.sent g hg y hy)⟩
    simp [hsent] at hy
  unsent := by
    rw [List.forall_mem_cons]
    refine ⟨fun _ => ?_, fun g hg hnone => ?_⟩
    · obtain ⟨x, hx, hzero, -⟩ := h.leaf
      exact ⟨x, hx, hzero⟩
    · obtain ⟨x, hx, hzero⟩ := hdec.unsent g hg hnone
      exact ⟨x, h.kept _ _ hx, hzero⟩
  rest idx x hx hidx := h.rest idx x hx fun g hg => hidx g (List.mem_cons_of_mem _ hg)
  nonNil := h.nonNil
  settable := List.forall_mem_cons.2 ⟨h.settable, hdec.settable⟩
  required := List.forall_mem_cons.2 ⟨by simp [hreq], hdec.required⟩

/-- and one that was sent is set. -/
theorem Walked.sent (h : Walked R s done f w w') (hdec : Decoded R s v done w)
    (hnew : ∀ g ∈ done, g.index ≠ f.index) {y : Leaf} (hsent : f.sent v = some y)
    (hy : y.type = f.type) : Decoded R s v (f :: done) (w'.set y f.index) := by
  obtain ⟨x, hx, -, hxtype⟩ := h.leaf
  have hobs := Value.obs_set hx y
  have hset : (w'.set y f.index).get f.index = some (.leaf y) := by
    rw [← Value.obs_eq_leaf, hobs, if_pos rfl]
  -- Fields have index sequences of their own, so that no other field is set.
  have hother {idx : List ℕ} (hidx : idx ≠ f.index) (z : Leaf) :
      (w'.set y f.index).get idx = some (.leaf z) ↔ w'.get idx = some (.leaf z) := by
    rw [← Value.obs_eq_leaf, hobs, if_neg hidx, Value.obs_eq_leaf]
  exact
    { typed := h.typed.set hx (hy.trans hxtype.symm)
      sent := by
        rw [List.forall_mem_cons]
        refine ⟨fun z hz => ?_, fun g hg z hz => ?_⟩
        · obtain rfl := Option.some.inj (hsent.symm.trans hz)
          exact hset
        · exact (hother (hnew g hg) z).2 (h.kept _ _ (hdec.sent g hg z hz))
      unsent := by
        rw [List.forall_mem_cons]
        refine ⟨fun hnone => by simp [hsent] at hnone, fun g hg hnone => ?_⟩
        obtain ⟨z, hz, hzero⟩ := hdec.unsent g hg hnone
        exact ⟨z, (hother (hnew g hg) z).2 (h.kept _ _ hz), hzero⟩
      rest := fun idx z hz hidx => by
        rw [List.forall_mem_cons] at hidx
        exact h.rest idx z ((hother hidx.1.symm z).1 hz) hidx.2
      nonNil := fun idx hidx => by
        rw [hobs] at hidx
        split_ifs at hidx
        · cases hidx
        · exact h.nonNil idx hidx
      settable := List.forall_mem_cons.2 ⟨h.settable, hdec.settable⟩
      required := List.forall_mem_cons.2 ⟨by simp [hsent], hdec.required⟩ }

end Walked

namespace ParamCodec

section Decode

variable {R : Types} {C : ParamCodec R} {s : String} {v w w' : Value} {f : Field}
  {done l : List Field} {params : Parameters}

/-- A field gets what was sent for it. -/
theorem setFieldValue_eq (hf : ParamField R s f) (hv : HasType R v (.struct s))
    (hlookup : C.Delivers params v f) :
    C.setFieldValue params f = match f.sent v with
      | some y => .ok (some y)
      | none =>
        if f.required then .error (.error (f.lookupKey ++ " must be set")) else .ok none := by
  obtain ⟨place, hplace⟩ := hf.place
  unfold setFieldValue
  simp only [hplace]
  rw [show params.lookup f.lookupKey place = _ from hf.key ▸ hlookup place hplace]
  cases hsent : f.sent v with
  | none => rfl
  | some y =>
    obtain ⟨htype, hne⟩ := hf.type_of_sent hv hsent
    have hset := C.values.setValue_getValue y hne
    rw [htype] at hset
    simp [hset]

/-- An iteration of the decoding that goes through. -/
theorem decodeField_eq_ok (hf : ParamField R s f) (hv : HasType R v (.struct s))
    (hlookup : C.Delivers params v f)
    (h : C.decodeField params (.struct s) w f = .ok w') :
    ∃ w₁, C.zeros.getSubv (.struct s) true f.index w = .ok w₁ ∧
      ((f.sent v = none ∧ f.required = false ∧ w' = w₁) ∨
        ∃ y, f.sent v = some y ∧ w' = w₁.set y f.index) := by
  unfold decodeField at h
  cases hwalk : C.zeros.getSubv (.struct s) true f.index w with
  | error err => simp [hwalk] at h
  | ok w₁ =>
    refine ⟨w₁, rfl, ?_⟩
    simp only [hwalk, C.setFieldValue_eq hf hv hlookup] at h
    cases hsent : f.sent v with
    | some y =>
      simp only [hsent] at h
      exact .inr ⟨y, rfl, (Except.ok.inj h).symm⟩
    | none =>
      cases hreq : f.required with
      | true => simp [hsent, hreq] at h
      | false =>
        simp only [hsent, hreq] at h
        exact .inl ⟨rfl, rfl, (Except.ok.inj h).symm⟩

theorem index_ne_cons (hnew : ∀ f' ∈ l, ∀ g ∈ done, g.index ≠ f'.index)
    (hf : f.index ∉ l.map (·.index)) : ∀ f' ∈ l, ∀ g ∈ f :: done, g.index ≠ f'.index := by
  intro f' hf' g hg
  rcases List.mem_cons.1 hg with rfl | hg
  · exact fun heq => hf (List.mem_map.2 ⟨f', hf', heq.symm⟩)
  · exact hnew f' hf' g hg

variable {D : GoType → Prop} (hD : R.ParamTypes D) (hs : D (.struct s))
include hD hs

theorem decoded_zero (v : Value) : Decoded R s v [] (C.zeros.zero (.struct s)) where
  typed := hasType_zero hD C.zeros hs
  sent _ hf := by simp at hf
  unsent _ hf := by simp at hf
  rest idx x hx _ := (obs_zero hD C.zeros hs idx).1 x (Value.obs_eq_leaf.2 hx)
  nonNil idx hidx := absurd hidx (obs_zero hD C.zeros hs idx).2
  settable _ hf := by simp at hf
  required _ hf := by simp at hf

/-- The walk to a field that is not done. -/
theorem walked_getSubv (hdec : Decoded R s v done w) (hf : ParamField R s f)
    (hnew : ∀ g ∈ done, g.index ≠ f.index)
    (h : C.zeros.getSubv (.struct s) true f.index w = .ok w') : Walked R s done f w w' := by
  obtain ⟨sf, hpath, htype⟩ := hf.path
  obtain ⟨htyped, hcreated⟩ := created_getSubv hD hpath hs rfl hdec.typed h
  have hrest (idx : List ℕ) (x : Leaf) (hx : w'.get idx = some (.leaf x))
      (hidx : ∀ g ∈ done, g.index ≠ idx) : x.isZero = true := by
    rcases hcreated.leaf idx x (Value.obs_eq_leaf.2 hx) with hx | hx
    · exact hdec.rest idx x (Value.obs_eq_leaf.1 hx) hidx
    · exact hx
  obtain ⟨x, hx, hxtype⟩ : ∃ x, w'.get f.index = some (.leaf x) ∧ x.type = f.type := by
    obtain ⟨u, hu⟩ := hcreated.reached
    rcases hf.get htyped with hget | hget
    · simp [hget] at hu
    · exact hget
  refine ⟨htyped, ⟨x, hx, hrest _ x hx hnew, hxtype⟩, fun idx y hy => ?_, hrest,
    fun idx hidx => ?_, ?_⟩
  · exact Value.obs_eq_leaf.1 (hcreated.kept idx y (Value.obs_eq_leaf.2 hy))
  · rcases hcreated.nonNil idx hidx with hidx | hidx
    · obtain ⟨g, hg, hpre⟩ := hdec.nonNil idx hidx
      exact ⟨g, List.mem_cons_of_mem _ hg, hpre⟩
    · exact ⟨f, List.mem_cons_self, hidx⟩
  · -- A pointer that cannot be set would have been made for a field before.
    rintro ⟨idx, sf', s', u, hpre, hne, hpath', hptr, hexp⟩
    have hobs := nonNil_of_getSubv hD hpath hs rfl hdec.typed h hpre hne hpath' hptr hexp
    obtain ⟨g, hg, hpre', hne'⟩ := hdec.nonNil idx hobs
    exact hdec.settable g hg ⟨idx, sf', s', u, hpre', hne', hpath', hptr, hexp⟩

/-- An iteration of the decoding. -/
theorem decoded_decodeField (hdec : Decoded R s v done w) (hf : ParamField R s f)
    (hv : HasType R v (.struct s)) (hnew : ∀ g ∈ done, g.index ≠ f.index)
    (hlookup : C.Delivers params v f)
    (h : C.decodeField params (.struct s) w f = .ok w') : Decoded R s v (f :: done) w' := by
  obtain ⟨w₁, hwalk, ⟨hsent, hreq, rfl⟩ | ⟨y, hsent, rfl⟩⟩ :=
    decodeField_eq_ok hf hv hlookup h
  · exact (walked_getSubv hD hs hdec hf hnew hwalk).unsent hdec hsent hreq
  · exact (walked_getSubv hD hs hdec hf hnew hwalk).sent hdec hnew hsent
      (hf.type_of_sent hv hsent).1

/-- A field that can be set is decoded. -/
theorem decodeField_isOk (hdec : Decoded R s v done w) (hf : ParamField R s f)
    (hv : HasType R v (.struct s))
    (hlookup : C.Delivers params v f)
    (hsettable : ¬ R.Blocked s f.index) (hreq : f.required = true → f.sent v ≠ none) :
    ∃ w', C.decodeField params (.struct s) w f = .ok w' := by
  obtain ⟨sf, hpath, -⟩ := hf.path
  obtain ⟨w₁, hwalk⟩ : ∃ w₁, C.zeros.getSubv (.struct s) true f.index w = .ok w₁ :=
    getSubv_isOk hD hpath hs rfl hdec.typed (fun _ _ _ => rfl) hsettable
  rw [decodeField, hwalk]
  simp only [C.setFieldValue_eq hf hv hlookup]
  cases hsent : f.sent v with
  | some y => exact ⟨_, rfl⟩
  | none =>
    have hopt : ¬ f.required = true := fun h => hreq h hsent
    rw [if_neg hopt]
    exact ⟨w₁, rfl⟩

/-- Decoding fills the value as described, if it goes through. -/
theorem decoded_decodeFields (hdec : Decoded R s v done w) (hl : ∀ f ∈ l, ParamField R s f)
    (hv : HasType R v (.struct s)) (hnew : ∀ f ∈ l, ∀ g ∈ done, g.index ≠ f.index)
    (hindex : (l.map (·.index)).Nodup)
    (hlookup : ∀ f ∈ l, C.Delivers params v f)
    (h : C.decodeFields params (.struct s) l w = .ok w') :
    Decoded R s v (l.reverse ++ done) w' := by
  induction l generalizing done w with
  | nil =>
    cases h
    exact hdec
  | cons f l ih =>
    rw [List.forall_mem_cons] at hl hnew hlookup
    rw [List.map_cons, List.nodup_cons] at hindex
    rw [decodeFields] at h
    split at h
    · cases h
    case h_2 w₁ hw₁ =>
      have hdec₁ := decoded_decodeField hD hs hdec hl.1 hv hnew.1 hlookup.1 hw₁
      simpa using ih hdec₁ hl.2 (index_ne_cons hnew.2 hindex.1) hindex.2 hlookup.2 h

/-- Fields that can be set are decoded, one after the other. -/
theorem decodeFields_isOk (hdec : Decoded R s v done w) (hl : ∀ f ∈ l, ParamField R s f)
    (hv : HasType R v (.struct s)) (hnew : ∀ f ∈ l, ∀ g ∈ done, g.index ≠ f.index)
    (hindex : (l.map (·.index)).Nodup)
    (hlookup : ∀ f ∈ l, C.Delivers params v f)
    (hsettable : ∀ f ∈ l, ¬ R.Blocked s f.index)
    (hreq : ∀ f ∈ l, f.required = true → f.sent v ≠ none) :
    ∃ w', C.decodeFields params (.struct s) l w = .ok w' := by
  induction l generalizing done w with
  | nil => exact ⟨w, rfl⟩
  | cons f l ih =>
    rw [List.forall_mem_cons] at hl hnew hlookup hsettable hreq
    rw [List.map_cons, List.nodup_cons] at hindex
    obtain ⟨w₁, hw₁⟩ := decodeField_isOk hD hs hdec hl.1 hv hlookup.1 hsettable.1 hreq.1
    have hdec₁ := decoded_decodeField hD hs hdec hl.1 hv hnew.1 hlookup.1 hw₁
    rw [decodeFields, hw₁]
    exact ih hdec₁ hl.2 (index_ne_cons hnew.2 hindex.1) hindex.2 hlookup.2 hsettable.2 hreq.2

end Decode

end ParamCodec

/-! ## Structs of parameters -/

/-- The struct is one of parameters: its fields are of the types of parameters, or embed
    structs that are of parameters in turn. -/
structure Types.ParamStruct (R : Types) (s : String) : Prop where
  leaf : ∀ u, R.Explored s u → ∀ sf ∈ R.fields u, sf.anonymous = false → sf.type.IsLeaf
  embeds : ∀ u, R.Explored s u → ∀ sf ∈ R.fields u, sf.anonymous = true → sf.embeds ≠ none

section ParamStruct

variable {R : Types} {s : String} {f : Field}

/-- The types in a struct of parameters. -/
def Types.Within (R : Types) (s : String) (t : GoType) : Prop :=
  t.IsLeaf ∨ ∃ u, t.deref = .struct u ∧ R.Explored s u

/-- The types within a struct of parameters. -/
theorem Types.ParamStruct.paramTypes (h : R.ParamStruct s) : R.ParamTypes (R.Within s) where
  leaf_or_struct t ht := ht.imp_right fun ⟨u, hu, _⟩ => ⟨u, hu⟩
  elem s' t ht := by
    rcases ht with ⟨x, hx⟩ | ⟨u, hu, hexp⟩
    · cases x <;> cases hx
    · obtain rfl : t = .struct u := hu
      exact .inr ⟨u, rfl, hexp⟩
  fields t u ht hu sf hsf := by
    rcases ht with ht | ⟨u', hu', hexp⟩
    · exact absurd hu (ht.deref_ne u)
    · obtain rfl : u = u' := by simpa [hu] using hu'
      cases ha : sf.anonymous with
      | false => exact .inl (h.leaf u hexp sf hsf ha)
      | true =>
        obtain ⟨u', hu'⟩ := Option.ne_none_iff_exists'.1 (h.embeds u hexp sf hsf ha)
        exact .inr ⟨u', StructField.deref_of_embeds hu',
          hexp.tail (List.mem_filterMap.2 ⟨sf, hsf, hu'⟩)⟩

theorem Types.within_self (R : Types) (s : String) : R.Within s (.struct s) :=
  .inr ⟨s, rfl, .refl⟩

theorem GoType.IsLeaf.deref_eq {t : GoType} (h : t.IsLeaf) : t.deref = t := by
  obtain ⟨x, rfl⟩ := h
  cases x <;> rfl

/-- A field that is recorded for a struct of parameters is one of them. -/
theorem Types.ParamStruct.paramField (h : R.ParamStruct s) (hf : R.walk.RecordedIn R s f) :
    ParamField R s f := by
  cases hf with
  | @mk u index i sf props hu hi hrec =>
    obtain ⟨hr, hprops⟩ := Types.records_iff.1 hrec
    have hmem := List.mem_of_getElem? hi
    have ha : sf.anonymous = false := by
      by_contra ha
      exact h.embeds u hu.explored sf hmem (by simpa using ha) hrec.embeds
    have hleaf := h.leaf u hu.explored sf hmem ha
    have htag : ¬ sf.Untagged := by simpa [ha] using hr.2
    obtain ⟨-, hplace, hkey⟩ := R.getFieldProps_tagged hprops ha htag
    refine ⟨⟨sf, hu.fieldPath hi, hleaf.deref_eq.symm⟩, hleaf.deref_eq.symm ▸ hleaf,
      Option.isSome_iff_exists.1 hplace, ?_⟩
    unfold Field.lookupKey
    split_ifs with hname
    · rfl
    · exact (hkey hname).symm

/-- Fields that are recorded at one index sequence have one key. -/
theorem Types.key_eq_of_recordedIn {g : Field} (hf : R.walk.RecordedIn R s f)
    (hg : R.walk.RecordedIn R s g) (hindex : f.index = g.index) : f.key = g.key := by
  cases hf with
  | @mk _ index i _ _ hu hi hr =>
    cases hg with
    | @mk _ index' i' _ _ hu' hi' hr' =>
      have hpath := hu'.fieldPath hi'
      rw [show index' ++ [i'] = index ++ [i] from hindex.symm] at hpath
      obtain rfl := (hu.fieldPath hi).unique hpath
      obtain rfl := hr.unique hr'
      rfl

end ParamStruct

/-! ## The round trip -/

/-- A value is carried in one of the places, and set again: of a slice, one text is in the
    path and in the header, where it must not be empty, and a slice without texts cannot be
    told from one that was not sent. -/
def ParamType.Carries (place : ParamType) (required : Bool) : Leaf → Prop
  | .strings (some l) => match place with
    | .path => l.length = 1
    | .query => l = [] → required = false
    | .header => (l = [] ∧ required = false) ∨ ∃ d, d ≠ "" ∧ l = [d]
  | _ => True

theorem ParamType.arriving_strings (place : ParamType) (l : List String) :
    place.arriving (.strings (some l)) = match place with
      | .path => l.head?.map fun d => .strings (some [d])
      | .query => if l.isEmpty then none else some (.strings (some l))
      | .header => (l.head?.filter (· ≠ "")).map fun d => .strings (some [d]) := by
  cases place <;> rfl

/-- A place carries a value that arrives as what it was. -/
theorem ParamType.carries_iff {place : ParamType} {required : Bool} {x : Leaf}
    (hreq : required = true → x.isZero = false) :
    place.Carries required x ↔ ¬ (place = .path ∧ x = .strings (some [])) ∧
      (∀ y, place.arriving x = some y → y.normal = x.normal) ∧
        (place.arriving x = none → x.Blank ∧ required = false) := by
  by_cases hzero : x.isZero = true
  · -- Nothing is sent.
    have hopt : required = false := by
      by_contra h
      simp [hreq (by simpa using h)] at hzero
    have hcarries : place.Carries required x := by
      cases x with
      | strings l => cases l <;> simp_all [Carries, Leaf.isZero]
      | _ => trivial
    have hx : x ≠ .strings (some []) := by
      rintro rfl
      cases hzero
    have harriving : place.arriving x = none := if_pos hzero
    refine iff_of_true hcarries ⟨fun h => hx h.2, fun y hy => ?_, fun _ => ⟨.inl hzero, hopt⟩⟩
    rw [harriving] at hy
    cases hy
  · cases x with
    | strings l =>
      cases l with
      | none => exact absurd rfl hzero
      | some l =>
        rw [arriving_strings]
        cases place with
        | path => rcases l with _ | ⟨d, _ | ⟨e, l⟩⟩ <;> simp [Carries, Leaf.normal]
        | query => cases l <;> simp [Carries, Leaf.Blank]
        | header =>
          cases l with
          | nil => simp [Carries, Leaf.Blank]
          | cons d l =>
            by_cases hd : d = ""
            · simp [Carries, hd, Leaf.Blank, Leaf.isZero, Option.filter]
            · cases l <;> simp [Carries, hd, Leaf.normal, Option.filter]
    | _ => simp_all [Carries, arriving]

/-- A field that was encoded is decoded to the same if its place carries it. -/
theorem Decoded.carries_iff {R : Types} {fields : List Field} {v w : Value} {f : Field}
    {place : ParamType} {x : Leaf} (hdec : Decoded R s v fields w) (hf : f ∈ fields)
    (hv : HasType R v (.struct s)) (hplace : f.paramType = some place)
    (hget : v.get f.index = some (.leaf x)) (hreq : f.Present v) (hpath : ¬ f.EmptyPath v) :
    place.Carries f.required x ↔ ∃ z, w.get f.index = some (.leaf z) ∧ z.normal = x.normal := by
  have hnonempty : ¬ (place = .path ∧ x = .strings (some [])) := by
    rintro ⟨rfl, rfl⟩
    exact hpath ⟨hplace, hget⟩
  have hsent : f.sent v = place.arriving x := by simp [Field.sent, hplace, hget]
  rw [ParamType.carries_iff (hreq.isZero hget), and_iff_right hnonempty]
  cases harriving : place.arriving x with
  | some y =>
    have hw := hdec.sent f hf y (hsent.trans harriving)
    simp [hw]
  | none =>
    obtain ⟨z, hz, hzero⟩ := hdec.unsent f hf (hsent.trans harriving)
    have hopt : f.required = false := by
      by_contra h
      exact hdec.required f hf (by simpa using h) (hsent.trans harriving)
    have hblank := Leaf.normal_eq_of_blank hzero (hdec.typed.leaf_type hv hz hget)
    simp [hz, hblank, hopt]

theorem Decoded.reached {R : Types} {fields : List Field} {v w : Value} {f : Field}
    (hdec : Decoded R s v fields w) (hf : f ∈ fields) : ∃ z, w.get f.index = some (.leaf z) := by
  cases hsent : f.sent v with
  | some y => exact ⟨y, hdec.sent f hf y hsent⟩
  | none =>
    obtain ⟨z, hz, -⟩ := hdec.unsent f hf hsent
    exact ⟨z, hz⟩

theorem Decoded.of_reverse {R : Types} {l : List Field} {v w : Value}
    (h : Decoded R s v l.reverse w) : Decoded R s v l w where
  typed := h.typed
  sent f hf := h.sent f (List.mem_reverse.2 hf)
  unsent f hf := h.unsent f (List.mem_reverse.2 hf)
  rest idx x hx hidx := h.rest idx x hx fun f hf => hidx f (List.mem_reverse.1 hf)
  nonNil idx hidx := by simpa using h.nonNil idx hidx
  settable f hf := h.settable f (List.mem_reverse.2 hf)
  required f hf := h.required f (List.mem_reverse.2 hf)

/-- What is asked of a value for it to come back. -/
structure Faithful {R : Types} (C : ParamCodec R) (s : String) (fields : List Field) (v : Value) :
    Prop where
  valid : C.validate v = none
  notTime : s ≠ "time.Time"
  /-- The value has each field, which is not behind a nil pointer, and it is carried. -/
  carried : ∀ f ∈ fields, ∃ x, v.get f.index = some (.leaf x) ∧
    ∀ place, f.paramType = some place → place.Carries f.required x
  settable : ∀ f ∈ fields, ¬ R.Blocked s f.index
  /-- The fields without a tag are not sent. -/
  rest : ∀ idx x, v.get idx = some (.leaf x) → (∀ f ∈ fields, f.index ≠ idx) → x.Blank
  /-- A pointer that is not nil leads to a field. -/
  nonNil : ∀ idx, v.obs idx = some (.ptr true) → ∃ f ∈ fields, idx <+: f.index ∧ idx ≠ f.index

section Faithful

variable {R : Types} {C : ParamCodec R} {s : String} {fields : List Field} {v w : Value}
  {f : Field}

/-- A field that is carried can be encoded, and is there if it is required. -/
theorem Faithful.sent (h : Faithful C s fields v) (hf : f ∈ fields) (hpf : ParamField R s f)
    (hreq : f.Present v) : ¬ f.EmptyPath v ∧ (f.required = true → f.sent v ≠ none) := by
  obtain ⟨x, hx, hcarries⟩ := h.carried f hf
  obtain ⟨place, hplace⟩ := hpf.place
  obtain ⟨hpath, -, hnone⟩ := (ParamType.carries_iff (hreq.isZero hx)).1 (hcarries place hplace)
  refine ⟨fun hempty => ?_, fun hrequired hsent => ?_⟩
  · obtain ⟨hplace', hx'⟩ := hempty
    rw [hplace] at hplace'
    rw [hx] at hx'
    cases hplace'
    cases hx'
    exact hpath ⟨rfl, rfl⟩
  · simp only [Field.sent, hplace, hx] at hsent
    simp [(hnone hsent).2] at hrequired

/-- What is decoded is the same: it is observed to be. -/
theorem Faithful.same (h : Faithful C s fields v) (hdec : Decoded R s v fields w)
    {D : GoType → Prop} (hD : R.ParamTypes D) (hs : D (.struct s))
    (hpf : ∀ f ∈ fields, ParamField R s f) (hv : HasType R v (.struct s))
    (hreq : ∀ f ∈ fields, f.Present v) : Same w v := by
  refine same_of_agree hD hdec.typed hs hv (fun idx z x hz hx htype => ?_)
    fun idx => ⟨fun hidx => ?_, fun hidx => ?_⟩
  · rw [Value.obs_eq_leaf] at hz hx
    by_cases hidx : ∃ f ∈ fields, f.index = idx
    · obtain ⟨f, hf, rfl⟩ := hidx
      obtain ⟨x', hx', hcarries⟩ := h.carried f hf
      obtain ⟨place, hplace⟩ := (hpf f hf).place
      rw [hx] at hx'
      cases hx'
      have hempty := (h.sent hf (hpf f hf) (hreq f hf)).1
      obtain ⟨z', hz', hnormal⟩ :=
        (hdec.carries_iff hf hv hplace hx (hreq f hf) hempty).1 (hcarries place hplace)
      rw [hz] at hz'
      cases hz'
      exact hnormal
    · have hother : ∀ f ∈ fields, f.index ≠ idx := fun f hf heq => hidx ⟨f, hf, heq⟩
      exact (Leaf.normal_eq_of_blank (hdec.rest idx z hz hother) htype).2 (h.rest idx x hx hother)
  · obtain ⟨f, hf, hpre, hne⟩ := hdec.nonNil idx hidx
    obtain ⟨x, hx, -⟩ := h.carried f hf
    exact hdec.typed.nonNil hv hidx hpre hne hx
  · obtain ⟨f, hf, hpre, hne⟩ := h.nonNil idx hidx
    obtain ⟨z, hz⟩ := hdec.reached hf
    exact hv.nonNil hdec.typed hidx hpre hne hz

end Faithful

namespace ParamCodec

section RoundTrip

variable {R : Types} {C : ParamCodec R} {s : String} {fields : List Field} {v w : Value}
  {params : Parameters}

theorem encodeParameters_eq_ok_iff (hfields : R.typeFields (.struct s) = .ok fields) :
    C.encodeParameters (.struct s) v = .ok params ↔ C.validate v = none ∧ s ≠ "time.Time" ∧
      C.encodeFields v fields { header := ∅, path := ∅, query := ∅ } = .ok params := by
  unfold encodeParameters
  cases C.validate v with
  | some err => simp
  | none => by_cases hs : s = "time.Time" <;> simp [GoType.struct?, GoType.string, hs, hfields]

theorem decodeParameters_eq (hfields : R.typeFields (.struct s) = .ok fields)
    (hs : s ≠ "time.Time") (params : Parameters) (w : Value) :
    C.decodeParameters params (.struct s) w = C.decodeFields params (.struct s) fields w := by
  unfold decodeParameters
  simp [GoType.struct?, GoType.string, hs, hfields]

section Recorded

variable (hfields : R.typeFields (.struct s) = .ok fields)
include hfields

theorem recordedIn_of_mem {f : Field} (hf : f ∈ fields) : R.walk.RecordedIn R s f := by
  obtain ⟨s', hs, hcollect, -⟩ := R.typeFields_eq_ok_iff.1 hfields
  cases hs
  exact FieldWalk.recordedIn_of_mem_collect hcollect hf

theorem nodup_index : (fields.map (·.index)).Nodup := by
  obtain ⟨-, -, -, hkeys⟩ := R.typeFields_eq_ok_iff.1 hfields
  refine (hkeys.of_map _).map_on fun f hf g hg hindex => ?_
  refine List.inj_on_of_nodup_map hkeys hf hg ?_
  exact Types.key_eq_of_recordedIn (recordedIn_of_mem hfields hf) (recordedIn_of_mem hfields hg)
    hindex

end Recorded

variable (hfields : R.typeFields (.struct s) = .ok fields) (hparams : R.ParamStruct s)
  (hkeys : (fields.map fun f => f.key.toList.map Char.toLower).Nodup)
  (hv : HasType R v (.struct s)) (hreq : ∀ f ∈ fields, f.Present v)
include hfields hparams hkeys hv hreq

theorem delivers_of_encodeFields
    (h : C.encodeFields v fields { header := ∅, path := ∅, query := ∅ } = .ok params) :
    ∀ f ∈ fields, C.Delivers params v f :=
  (encodeFields_spec (fun _ hf => hparams.paramField (recordedIn_of_mem hfields hf)) hv hreq hkeys h
    fun f _ => by simp [Parameters.under, Header.index]).1

/-- Decoding what was encoded. -/
theorem decoded_of_encodeFields
    (h : C.encodeFields v fields { header := ∅, path := ∅, query := ∅ } = .ok params)
    (hw : C.decodeFields params (.struct s) fields (C.zeros.zero (.struct s)) = .ok w) :
    Decoded R s v fields w := by
  have hzero := C.decoded_zero hparams.paramTypes (R.within_self s) v
  have hpf (f : Field) (hf : f ∈ fields) := hparams.paramField (recordedIn_of_mem hfields hf)
  have hlookup := delivers_of_encodeFields hfields hparams hkeys hv hreq h
  have hdec := decoded_decodeFields hparams.paramTypes (R.within_self s) hzero hpf hv (by simp)
    (nodup_index hfields) hlookup hw
  rw [List.append_nil] at hdec
  exact hdec.of_reverse

/-- The conditions are necessary, -/
theorem faithful_of_roundTrips (h : C.RoundTrips (.struct s) v) : Faithful C s fields v := by
  obtain ⟨params, w, henc, hw, hsame⟩ := h
  obtain ⟨hvalid, htime, henc⟩ := (encodeParameters_eq_ok_iff hfields).1 henc
  rw [decodeParameters_eq hfields htime] at hw
  have hdec := decoded_of_encodeFields hfields hparams hkeys hv hreq henc hw
  have hpf (f : Field) (hf : f ∈ fields) := hparams.paramField (recordedIn_of_mem hfields hf)
  have hpath := (C.encodeFields_isOk_iff hpf hv hreq _).1 ⟨params, henc⟩
  refine ⟨hvalid, htime, fun f hf => ?_, hdec.settable, fun idx x hx hidx => ?_, fun idx hidx => ?_⟩
  · -- The field was filled, so the value has it.
    obtain ⟨z, hz⟩ := hdec.reached hf
    obtain ⟨x, hx, hnormal⟩ := Value.leaf_of_obs (hsame.obs f.index) hz
    refine ⟨x, hx, fun place hplace => ?_⟩
    rw [hdec.carries_iff hf hv hplace hx (hreq f hf) (hpath f hf)]
    exact ⟨z, hz, hnormal⟩
  · obtain ⟨z, hz, hnormal⟩ := Value.leaf_of_obs (hsame.obs idx).symm hx
    rw [← Leaf.normal_eq_of_blank (hdec.rest idx z hz hidx) (hdec.typed.leaf_type hv hz hx)]
    exact hnormal.symm
  · exact hdec.nonNil idx (Value.ptr_of_obs (hsame.obs idx).symm hidx)

/-- and sufficient. -/
theorem roundTrips_of_faithful (h : Faithful C s fields v) : C.RoundTrips (.struct s) v := by
  have hD := hparams.paramTypes
  have hs := R.within_self s
  have hpf (f : Field) (hf : f ∈ fields) := hparams.paramField (recordedIn_of_mem hfields hf)
  have hsent (f : Field) (hf : f ∈ fields) := h.sent hf (hpf f hf) (hreq f hf)
  obtain ⟨params, henc⟩ := (C.encodeFields_isOk_iff hpf hv hreq
    { header := ∅, path := ∅, query := ∅ }).2 fun f hf => (hsent f hf).1
  have hlookup := delivers_of_encodeFields hfields hparams hkeys hv hreq henc
  obtain ⟨w, hw⟩ := decodeFields_isOk hD hs (C.decoded_zero hD hs v) hpf hv (by simp)
    (nodup_index hfields) hlookup h.settable fun f hf => (hsent f hf).2
  have hdec := decoded_of_encodeFields hfields hparams hkeys hv hreq henc hw
  refine ⟨params, w, (encodeParameters_eq_ok_iff hfields).2 ⟨h.valid, h.notTime, henc⟩, ?_,
    h.same hdec hD hs hpf hv hreq⟩
  rw [decodeParameters_eq hfields h.notTime, hw]

/-- A value comes back from its parameters if and only if it has every field and none is in
    a place that does not carry it. -/
theorem roundTrips_iff : C.RoundTrips (.struct s) v ↔ Faithful C s fields v :=
  ⟨faithful_of_roundTrips hfields hparams hkeys hv hreq,
    roundTrips_of_faithful hfields hparams hkeys hv hreq⟩

end RoundTrip

end ParamCodec

/-! ## An example -/

/-- `strconv.FormatInt`, in base ten. -/
def formatInt : ℤ → String
  | .ofNat n => String.ofList (Nat.toDigits 10 n)
  | .negSucc n => String.ofList ('-' :: Nat.toDigits 10 (n + 1))

/-- `strconv.ParseInt`, of a text that `FormatInt` wrote. -/
def parseInt (d : String) : ℤ :=
  match d.toList with
  | '-' :: l => -(Nat.ofDigitChars 10 l 0 : ℤ)
  | l => Nat.ofDigitChars 10 l 0

theorem parseInt_formatInt (i : ℤ) : parseInt (formatInt i) = i := by
  cases i with
  | ofNat n =>
    unfold parseInt formatInt
    rw [String.toList_ofList]
    split
    case h_1 l hl =>
      -- A sign is not a digit.
      have hdigit : '-' ∈ Nat.toDigits 10 n := hl ▸ List.mem_cons_self
      exact absurd (Nat.isDigit_of_mem_toDigits (by simp) le_rfl hdigit) (by decide)
    · rw [Nat.ofDigitChars_ten_toDigits]
      rfl
  | negSucc n =>
    simp only [parseInt, formatInt, String.toList_ofList, Nat.ofDigitChars_ten_toDigits]
    rfl

theorem formatInt_ne_empty (i : ℤ) : formatInt i ≠ "" := by
  cases i with
  | ofNat n => simp [formatInt, Nat.toDigits_ne_nil]
  | negSucc n => simp [formatInt]

/-- The texts of `strconv`. -/
def exampleValues : ValueCodec where
  bool b := if b then "true" else "false"
  int i := formatInt i.toInt
  bool_ne := by decide
  int_ne i _ := formatInt_ne_empty i.toInt
  setValue
    | .other "string", [d] => .ok (.string d)
    | .other "bool", [d] => .ok (.bool (d == "true"))
    | .other "int", [d] => .ok (.int (.ofInt (parseInt d)))
    | .slice "[]string", data => .ok (.strings (some data))
    | _, _ => .error "unsupported type"
  setValue_getValue x hx := by
    cases x with
    | string s => rfl
    | bool b => cases b <;> rfl
    | int i => simp [Leaf.type, ValueFormat.getValue, parseInt_formatInt]
    | strings l =>
      cases l with
      | none => exact absurd rfl hx
      | some l => rfl

/-- The fields of `Params`: `ID string`, an embedded `*Page` and `Labels []string`. -/
def exampleStruct : List StructField :=
  [{ name := "ID", type := .other "string", tags := [("param", "path,required"), ("name", "id")] },
    { name := "Page", type := .ptr "*Page" (.struct "Page"), anonymous := true },
    { name := "Labels", type := .slice "[]string",
      tags := [("param", "header"), ("name", "Labels")] }]

/-- The fields of `Page`: `Limit int`. -/
def examplePage : List StructField :=
  [{ name := "Limit", type := .other "int", tags := [("param", "query"), ("name", "limit")] }]

def exampleParamTypes : Types where
  structs := (AList.singleton "Params" exampleStruct).insert "Page" examplePage
  parseFloat _ := none
  toLower := id
  toUpper := id
  lowerCamelCasedName := id
  describe := GoType.string

def exampleFields : List Field :=
  [{ key := "id", paramType := some .path, required := true, name := "id",
     type := .other "string", index := [0] },
    { key := "Labels", paramType := some .header, name := "Labels", type := .slice "[]string",
      index := [2] },
    { key := "limit", paramType := some .query, name := "limit", type := .other "int",
      index := [1, 0] }]

theorem typeFields_exampleParamTypes :
    exampleParamTypes.typeFields (.struct "Params") = .ok exampleFields := by
  rfl

theorem mem_fields_exampleParamTypes {sf : StructField} (h : sf ∈ exampleParamTypes.fields s) :
    sf ∈ exampleStruct ++ examplePage := by
  unfold Types.fields exampleParamTypes at h
  rw [List.mem_append]
  by_cases hpage : s = "Page"
  · subst hpage
    rw [AList.lookup_insert] at h
    exact .inr h
  · rw [AList.lookup_insert_ne hpage] at h
    by_cases hparams : s = "Params"
    · subst hparams
      exact .inl h
    · have hkey : s ∉ (AList.singleton "Params" exampleStruct :
          AList fun _ : String => List StructField) := by
        rw [AList.mem_keys, AList.keys_singleton]
        simpa using hparams
      simp [AList.lookup_eq_none.2 hkey] at h

/-- The fields are exported, and parameters but for the page. -/
theorem field_exampleParamTypes {sf : StructField} (h : sf ∈ exampleParamTypes.fields s) :
    sf.exported = true ∧
      ((sf.anonymous = false ∧ sf.type.IsLeaf) ∨
        sf.embeds = some "Page" ∧ sf.type = .ptr "*Page" (.struct "Page")) := by
  have hmem := mem_fields_exampleParamTypes h
  simp only [exampleStruct, examplePage, List.cons_append, List.nil_append, List.mem_cons,
    List.not_mem_nil, or_false] at hmem
  rcases hmem with rfl | rfl | rfl | rfl
  · exact ⟨rfl, .inl ⟨rfl, .string "", rfl⟩⟩
  · exact ⟨rfl, .inr ⟨rfl, rfl⟩⟩
  · exact ⟨rfl, .inl ⟨rfl, .strings none, rfl⟩⟩
  · exact ⟨rfl, .inl ⟨rfl, .int 0, rfl⟩⟩

theorem paramStruct_exampleParamTypes (s : String) : exampleParamTypes.ParamStruct s where
  leaf u _ sf hsf ha := by
    obtain ⟨-, ⟨-, hleaf⟩ | ⟨hembeds, -⟩⟩ := field_exampleParamTypes hsf
    · exact hleaf
    · simp [StructField.embeds, ha] at hembeds
  embeds u _ sf hsf ha := by
    obtain ⟨-, ⟨ha', -⟩ | ⟨hembeds, -⟩⟩ := field_exampleParamTypes hsf
    · simp [ha] at ha'
    · simp [hembeds]

theorem not_blocked_exampleParamTypes (s : String) (index : List ℕ) :
    ¬ exampleParamTypes.Blocked s index := by
  rintro ⟨idx, sf, s', t, -, -, hpath, -, hexp⟩
  obtain ⟨u, hmem⟩ := hpath.mem_fields
  simp [(field_exampleParamTypes hmem).1] at hexp

/-- The zero value of a type that is no struct. -/
def exampleZero : GoType → Value
  | .other "string" => .leaf (.string "")
  | .other "bool" => .leaf (.bool false)
  | .other "int" => .leaf (.int 0)
  | .slice _ => .leaf (.strings none)
  | _ => .ptr none

def exampleCodec : ParamCodec exampleParamTypes where
  kind _ := "struct"
  zeros :=
    { zero := fun
        | .struct s => .struct ((exampleParamTypes.fields s).map fun sf => exampleZero sf.type)
        | t => exampleZero t
      zero_leaf := fun x => by cases x <;> exact ⟨_, rfl, rfl, rfl⟩
      zero_struct := fun s => by
        refine congrArg Value.struct (List.map_congr_left fun sf hsf => ?_)
        obtain ⟨-, ⟨-, x, hx⟩ | ⟨-, hpage⟩⟩ := field_exampleParamTypes hsf
        · rw [← hx]
          cases x <;> rfl
        · rw [hpage]
      zero_ptr := fun _ _ => rfl }
  values := exampleValues

/-- The parameters `id`, a page with a limit, and labels. -/
def exampleParams (labels : List String) : Value :=
  .struct [.leaf (.string "a"), .ptr (some (.struct [.leaf (.int 10)])),
    .leaf (.strings (some labels))]

theorem hasType_exampleParams (labels : List String) :
    HasType exampleParamTypes (exampleParams labels) (.struct "Params") := by
  refine .struct rfl fun i sf v hsf hv => ?_
  rcases i with _ | _ | _ | i
  · cases hsf
    cases hv
    exact .leaf rfl
  · cases hsf
    cases hv
    refine .ptr (.struct rfl fun i sf v hsf hv => ?_)
    rcases i with _ | i
    · cases hsf
      cases hv
      exact .leaf rfl
    · cases hv
  · cases hsf
    cases hv
    exact .leaf rfl
  · cases hv

theorem present_exampleParams (labels : List String) :
    ∀ f ∈ exampleFields, f.Present (exampleParams labels) := by
  intro f hf hreq
  simp only [exampleFields, List.mem_cons, List.not_mem_nil, or_false] at hf
  rcases hf with rfl | rfl | rfl
  · exact ⟨.string "a", rfl, rfl⟩
  · cases hreq
  · cases hreq

theorem get_exampleParams {labels : List String} {idx : List ℕ} {u : Value}
    (h : (exampleParams labels).get idx = some u) : idx ∈ [[], [0], [1], [2], [1, 0]] := by
  rcases idx with _ | ⟨i, idx⟩
  · simp
  · rcases i with _ | _ | _ | i <;> rcases idx with _ | ⟨j, idx⟩ <;>
      simp [exampleParams, Value.get, Value.fields] at h ⊢
    -- Below the page.
    rcases j with _ | j <;> rcases idx with _ | ⟨k, idx⟩ <;>
      simp [Value.get, Value.fields] at h ⊢

/-- Parameters with one label come back. -/
theorem exampleParams_roundTrips :
    exampleCodec.RoundTrips (.struct "Params") (exampleParams ["new"]) := by
  refine (ParamCodec.roundTrips_iff typeFields_exampleParamTypes
    (paramStruct_exampleParamTypes "Params") (by decide) (hasType_exampleParams _)
    (present_exampleParams _)).2 ?_
  refine ⟨rfl, by decide, fun f hf => ?_, fun f _ => not_blocked_exampleParamTypes _ _,
    fun idx x hx hidx => ?_, fun idx hidx => ?_⟩
  · simp only [exampleFields, List.mem_cons, List.not_mem_nil, or_false] at hf
    rcases hf with rfl | rfl | rfl
    · exact ⟨_, rfl, fun place _ => trivial⟩
    · refine ⟨_, rfl, fun place hplace => ?_⟩
      cases hplace
      exact .inr ⟨"new", by decide, rfl⟩
    · exact ⟨_, rfl, fun place _ => trivial⟩
  · have hmem := get_exampleParams hx
    simp only [exampleFields, List.mem_cons, List.not_mem_nil, or_false, forall_eq_or_imp,
      forall_eq] at hmem hidx
    rcases hmem with rfl | rfl | rfl | rfl | rfl
    · cases hx
    · exact absurd rfl hidx.1
    · cases hx
    · exact absurd rfl hidx.2.1
    · exact absurd rfl hidx.2.2
  · obtain ⟨w, hw⟩ := Value.obs_eq_ptr.1 hidx
    have hmem := get_exampleParams hw
    simp only [List.mem_cons, List.not_mem_nil, or_false] at hmem
    rcases hmem with rfl | rfl | rfl | rfl | rfl
    · cases hw
    · cases hw
    · exact ⟨_, .tail _ (.tail _ (.head _)), by decide, by decide⟩
    · cases hw
    · cases hw

/-- Of the labels, one comes back. -/
theorem exampleParams_not_roundTrips :
    HasType exampleParamTypes (exampleParams ["new", "hot"]) (.struct "Params") ∧
      (∀ f ∈ exampleFields, f.Present (exampleParams ["new", "hot"])) ∧
      (∃ params, exampleCodec.encodeParameters (.struct "Params") (exampleParams ["new", "hot"]) =
          .ok params ∧
        exampleCodec.decodeParameters params (.struct "Params")
          (exampleCodec.zeros.zero (.struct "Params")) = .ok (exampleParams ["new"])) ∧
      ¬ exampleCodec.RoundTrips (.struct "Params") (exampleParams ["new", "hot"]) := by
  refine ⟨hasType_exampleParams _, present_exampleParams _, ⟨_, rfl, rfl⟩, fun h => ?_⟩
  have hfaithful := ParamCodec.faithful_of_roundTrips typeFields_exampleParamTypes
    (paramStruct_exampleParamTypes "Params") (by decide) (hasType_exampleParams _)
    (present_exampleParams _) h
  obtain ⟨x, hx, hcarries⟩ := hfaithful.carried _ (.tail _ (.head _))
  cases hx
  rcases hcarries .header rfl with ⟨hnil, -⟩ | ⟨d, -, hone⟩
  · cases hnil
  · cases hone

end Apiserver.Rest
