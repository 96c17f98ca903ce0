import Apiserver.Rest.FieldWalk

/-!
# The fields of a parameter type

The parameter codec (`pkg/rest/parametercodec/structfields.go`) reads the fields of
a struct from their tags, such as `param:"query,required"`, with the walk of
`Apiserver.Rest.FieldWalk`: `typeFields` records a field with its key, the place it is sent in,
and its index sequence. What it cannot make sense of, it panics on.

* `records_iff`, `fieldOk_iff`: which fields the walk records, and which it panics on;
* `collect_isOk_iff`, `collect_ne_nil_iff`: the search goes through if the tags of every struct
  that is embedded are well formed, and finds the fields of each of them;
* `typeFields_eq_ok_iff`: and it is accepted if no two have the same key.
-/

namespace Apiserver.Rest

open Go

/-! ## Tags -/

/-- Where a parameter is sent. -/
inductive ParamType
  | path
  | query
  | header
deriving DecidableEq

def ParamType.ofTag (s : String) : Option ParamType :=
  if s = "path" then some .path
  else if s = "header" then some .header
  else if s = "query" then some .query
  else none

/-- `fieldProps`, short of what only the documentation of a route uses. -/
structure FieldProps where
  key : String := ""
  /-- The empty text is `none`. -/
  paramType : Option ParamType := none
  skip : Bool := false
  hidden : Bool := false
  required : Bool := false
  name : String := ""
deriving DecidableEq

/-- A field whose tag says nothing: there is none, or it is `param:"-"`. -/
def StructField.Untagged (sf : StructField) : Prop := sf.tag "param" = "-" ∨ sf.tag "param" = ""

instance (sf : StructField) : Decidable sf.Untagged :=
  inferInstanceAs (Decidable (_ ∨ _))

namespace Types

variable (R : Types)

/-- The key of a field whose tag gives no name. -/
def defaultKey (name : String) : ParamType → String
  | .path => R.toLower name
  | .header => R.toUpper name
  | .query => R.lowerCamelCasedName name

/-- The key of a field: its name, if its tag gives one. -/
def fieldKey (sf : StructField) (typ : ParamType) : String :=
  if sf.tag "name" ≠ "" then sf.tag "name" else R.defaultKey sf.name typ

/-- `getFieldProps`. -/
def getFieldProps (sf : StructField) : Except Panic FieldProps :=
  if sf.anonymous then .ok {}
  else if sf.Untagged then .ok { skip := true }
  else
    match (R.limitError (sf.tag "maximum")).or (R.limitError (sf.tag "minimum")) with
    | some err => .error err
    | none => match ParamType.ofTag (parseTag (sf.tag "param")).1 with
      | none => .error ("unknown param type=" ++ (parseTag (sf.tag "param")).1 ++ " " ++
          R.describe sf.type)
      | some typ => .ok
        { key := R.fieldKey sf typ
          paramType := some typ
          hidden := containsOption (parseTag (sf.tag "param")).2 "hidden"
          required := containsOption (parseTag (sf.tag "param")).2 "required"
          name := sf.tag "name" }

/-- The tag of a field is well formed: it names a place, and its limits are numbers. -/
structure WellTagged (sf : StructField) : Prop where
  maximum : R.limitError (sf.tag "maximum") = none
  minimum : R.limitError (sf.tag "minimum") = none
  place : (ParamType.ofTag (parseTag (sf.tag "param")).1).isSome

/-- The tags that do not make it panic. -/
theorem getFieldProps_isOk_iff (sf : StructField) :
    (∃ props, R.getFieldProps sf = .ok props) ↔
      sf.anonymous = true ∨ sf.Untagged ∨ R.WellTagged sf := by
  unfold getFieldProps
  split_ifs with ha hu
  · simp [ha]
  · simp [hu]
  · simp only [ha, hu, Bool.false_eq_true, false_or]
    cases hlimits : (R.limitError (sf.tag "maximum")).or (R.limitError (sf.tag "minimum")) with
    | some err =>
      refine iff_of_false (by simp) fun h => ?_
      simp [h.maximum, h.minimum] at hlimits
    | none =>
      rw [Option.or_eq_none_iff] at hlimits
      cases htyp : ParamType.ofTag (parseTag (sf.tag "param")).1 with
      | none =>
        refine iff_of_false (by simp) fun h => ?_
        simpa [htyp] using h.place
      | some typ =>
        refine iff_of_true ⟨_, rfl⟩ ⟨hlimits.1, hlimits.2, ?_⟩
        rw [htyp]
        rfl

/-- What the tag of a field that is not embedded says. -/
theorem getFieldProps_tagged {sf : StructField} {props : FieldProps}
    (h : R.getFieldProps sf = .ok props) (ha : sf.anonymous = false) (hu : ¬ sf.Untagged) :
    props.skip = false ∧ props.paramType.isSome ∧ (props.name ≠ "" → props.key = props.name) := by
  unfold getFieldProps at h
  rw [if_neg (by simp [ha]), if_neg hu] at h
  split at h
  · cases h
  · split at h
    · cases h
    · cases h
      refine ⟨rfl, rfl, fun hname => ?_⟩
      exact if_pos hname

end Types

/-! ## The search -/

/-- A `field` that was found. -/
structure Field extends FieldProps where
  type : GoType
  index : List ℕ

/-- The field is recorded: it has a tag, or is embedded and not a struct. -/
def StructField.Records (sf : StructField) : Prop :=
  sf.exported = true ∧ if sf.anonymous then sf.embeds = none else ¬ sf.Untagged

namespace Types

variable (R : Types)

/-- The walk of the parameter codec. -/
def walk : FieldWalk FieldProps Field where
  getFieldProps := R.getFieldProps
  skip := FieldProps.skip
  field props type index := { props with type, index }
  key f := f.key
  duplicate f := "duplicate field " ++ f.key ++ " " ++ R.describe f.type
  embeds_of_skip {sf props} h hskip := by
    rw [StructField.embeds, if_neg]
    intro ha
    rw [getFieldProps, if_pos ha] at h
    cases h
    cases hskip

/-- The search of `typeFields`. -/
abbrev fieldSearch : LevelSearch Node String Field Panic := R.walk.fieldSearch R

/-- The fields that the loop of `typeFields` finds in a struct. -/
abbrev collect (s : String) : Except Panic (List Field) := R.walk.collect R s

/-- `typeFields`. -/
def typeFields (t : GoType) : Except Panic (List Field) :=
  match t.struct? with
  | none => .error ("reflect: NumField of non-struct type " ++ t.string)
  | some s => R.walk.typeFields R s

/-- `ValidateParamType`. -/
def validateParamType (t : GoType) : Except Failure Unit :=
  if t.string = "time.Time" then
    .error (.error "schema: interface must be a pointer to struct")
  else match R.typeFields t with
    | .error msg => .error (.panic msg)
    | .ok fields =>
      if fields.isEmpty then .error (.error "schema: can not find param tag from struct")
      else .ok ()

/-! ## What the search finds -/

variable {R} {sf : StructField}

/-- The walk records the fields with tags, and those that embed something else than a struct. -/
theorem records_iff {props : FieldProps} :
    R.walk.Records sf props ↔ sf.Records ∧ R.getFieldProps sf = .ok props := by
  by_cases ha : sf.anonymous = true
  · have hprops : R.getFieldProps sf = .ok {} := if_pos ha
    constructor
    · rintro ⟨hi, hok, -, he⟩
      have hexp : sf.exported = true := by
        by_contra hexp
        exact hi ⟨by simpa using hexp, he⟩
      exact ⟨⟨hexp, by rwa [if_pos ha]⟩, hok⟩
    · rintro ⟨⟨hexp, he⟩, hok⟩
      rw [if_pos ha] at he
      obtain rfl := Except.ok.inj (hprops.symm.trans hok)
      exact ⟨fun hi => absurd hexp (by simp [hi.1]), hok, rfl, he⟩
  · have he : sf.embeds = none := if_neg ha
    constructor
    · rintro ⟨hi, hok, hskip, -⟩
      have hexp : sf.exported = true := by
        by_contra hexp
        exact hi ⟨by simpa using hexp, he⟩
      refine ⟨⟨hexp, ?_⟩, hok⟩
      rw [if_neg ha]
      intro hu
      have hprops : R.getFieldProps sf = .ok { skip := true } := by
        rw [getFieldProps, if_neg ha, if_pos hu]
      obtain rfl := Except.ok.inj (hprops.symm.trans hok)
      cases hskip
    · rintro ⟨⟨hexp, hu⟩, hok⟩
      rw [if_neg ha] at hu
      exact ⟨fun hi => absurd hexp (by simp [hi.1]), hok,
        (R.getFieldProps_tagged hok (by simpa using ha) hu).1, he⟩

/-- The field does not make the search panic. -/
def FieldOk (R : Types) (sf : StructField) : Prop :=
  sf.exported = true → sf.anonymous = true ∨ sf.Untagged ∨ R.WellTagged sf

/-- In terms of tags, a field is fine for the walk. -/
theorem fieldOk_iff : R.walk.FieldOk sf ↔ R.FieldOk sf := by
  have hprops : (∃ props, R.walk.getFieldProps sf = .ok props) ↔
      sf.anonymous = true ∨ sf.Untagged ∨ R.WellTagged sf := R.getFieldProps_isOk_iff sf
  rw [FieldWalk.FieldOk, hprops, FieldOk]
  constructor
  · rintro (hi | h) hexp
    · exact absurd hexp (by simp [hi.1])
    · exact h
  · intro h
    by_cases hexp : sf.exported = true
    · exact .inr (h hexp)
    · -- An unexported field that is not ignored is embedded, which is no error.
      by_cases ha : sf.anonymous = true
      · exact .inr (.inl ha)
      · exact .inl ⟨by simpa using hexp, if_neg ha⟩

/-- The search goes through if the tags of all structs that are scanned are well
    formed, and only then. -/
theorem collect_isOk_iff (s : String) :
    (∃ l, R.collect s = .ok l) ↔ ∀ u, R.Explored s u → ∀ sf ∈ R.fields u, R.FieldOk sf := by
  rw [FieldWalk.collect_isOk_iff]
  simp only [fieldOk_iff]

variable (R) in
/-- A struct that is scanned has a field to record. -/
def HasField (s : String) : Prop := ∃ u, R.Explored s u ∧ ∃ sf ∈ R.fields u, sf.Records

/-- Something is found if there is something to record. -/
theorem collect_ne_nil_iff {s : String} {l : List Field} (h : R.collect s = .ok l) :
    l ≠ [] ↔ R.HasField s := by
  constructor
  · intro hl
    obtain ⟨f, hf⟩ := List.exists_mem_of_ne_nil l hl
    cases FieldWalk.recordedIn_of_mem_collect h hf with
    | mk hu hi hr => exact ⟨_, hu.explored, _, List.mem_of_getElem? hi, (records_iff.1 hr).1⟩
  · rintro ⟨u, hu, sf, hsf, hr⟩
    have hok := (collect_isOk_iff s).1 ⟨l, h⟩ u hu sf hsf
    obtain ⟨props, hprops⟩ := (R.getFieldProps_isOk_iff sf).2 (hok hr.1)
    obtain ⟨index, hmem⟩ := FieldWalk.mem_collect h hu hsf (records_iff.2 ⟨hr, hprops⟩)
    exact List.ne_nil_of_mem hmem

theorem typeFields_eq_ok_iff {t : GoType} {l : List Field} :
    R.typeFields t = .ok l ↔
      ∃ s, t = .struct s ∧ R.collect s = .ok l ∧ (l.map (·.key)).Nodup := by
  unfold typeFields
  cases t with
  | struct s =>
    simp only [GoType.struct?, GoType.struct.injEq, exists_eq_left']
    exact FieldWalk.typeFields_eq_ok_iff
  | _ => simp [GoType.struct?]

end Types

end Apiserver.Rest
