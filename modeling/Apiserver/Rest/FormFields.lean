import Apiserver.Rest.Values

/-!
# The fields of a form

The codec for forms (`pkg/rest/urlencoded/structfields.go`) reads the fields of a struct from
their tags with the walk of `Apiserver.Rest.FieldWalk`. The tags are those of JSON, such as
`json:"name,required"`.

* `recorded_of_mem_typeFields`, `diverge_typeFields`: each field is found at an index sequence
  that leads to it, and the sequences of two fields lead apart;
* `mem_typeFields_of_required`: a field that is marked as required, in a struct or in one that is
  embedded, is found with its key, and as one that is required.
-/

namespace Apiserver.Rest.Urlencoded

open Go

/-! ## Tags -/

/-- `fieldProps`, short of what only the documentation of a route uses. -/
structure Props where
  key : String := ""
  skip : Bool := false
  hidden : Bool := false
  required : Bool := false
  name : String := ""
  deriving DecidableEq

/-- A `field` that was found. -/
structure Field extends Props where
  type : GoType
  index : List ℕ

/-- A field whose tag says nothing. -/
def Untagged (sf : StructField) : Prop := sf.tag "json" = "-" ∨ sf.tag "json" = ""

instance (sf : StructField) : Decidable (Untagged sf) := inferInstanceAs (Decidable (_ ∨ _))

/-- Whether the tag of a field has an option. -/
def hasOption (sf : StructField) (option : String) : Bool :=
  containsOption (parseTag (sf.tag "json")).2 option

variable (R : Types)

/-- The key of a field: the name in its tag, if there is one. -/
def fieldKey (sf : StructField) : String :=
  if (parseTag (sf.tag "json")).1 = "" then R.lowerCamelCasedName sf.name
  else (parseTag (sf.tag "json")).1

/-- `getFieldProps`. -/
def getFieldProps (sf : StructField) : Except Panic Props :=
  if sf.anonymous then .ok {}
  else if Untagged sf then .ok { skip := true }
  else
    match (R.limitError (sf.tag "maximum")).or (R.limitError (sf.tag "minimum")) with
    | some err => .error err
    | none => .ok
      { key := fieldKey R sf
        hidden := hasOption sf "hidden"
        required := hasOption sf "required"
        name := (parseTag (sf.tag "json")).1 }

/-! ## The search -/

/-- The walk of the codec for forms; what a duplicate panics with is shortened. -/
def walk : FieldWalk Props Field where
  getFieldProps := getFieldProps R
  skip := Props.skip
  field props type index := { props with type, index }
  key f := f.key
  duplicate f := f.key ++ " type field " ++ R.describe f.type
  embeds_of_skip {sf props} h hskip := by
    rw [StructField.embeds, if_neg]
    intro ha
    rw [getFieldProps, if_pos ha] at h
    cases h
    cases hskip

/-- `typeFields` of a struct type. -/
abbrev typeFields (s : String) : Except Panic (List Field) := (walk R).typeFields R s

/-! ## What the search finds -/

variable {R} {sf : StructField}

variable (R) in
/-- The field was recorded at its index sequence in a struct. -/
def Recorded (s : String) (f : Field) : Prop :=
  ∃ sf, R.FieldPath s f.index sf ∧ sf.embeds = none ∧ getFieldProps R sf = .ok f.toProps

theorem recorded_of_mem_typeFields {s : String} {l : List Field} (h : typeFields R s = .ok l)
    {f : Field} (hf : f ∈ l) : Recorded R s f := by
  cases FieldWalk.recordedIn_of_mem_collect (FieldWalk.typeFields_eq_ok_iff.1 h).1 hf with
  | mk hu hi hr => exact ⟨_, hu.fieldPath hi, hr.embeds, hr.ok⟩

/-- Neither of the index sequences leads on from the other. -/
def Diverge (p q : List ℕ) : Prop := ¬p <+: q ∧ ¬q <+: p

/-- Nothing leads on from a field that embeds nothing. -/
theorem eq_of_leads_on {s : String} {p q : List ℕ} {sf sf' : StructField}
    (hp : R.FieldPath s p sf) (hembeds : sf.embeds = none) (hq : R.FieldPath s q sf')
    (hpre : p <+: q) : p = q := by
  induction hp generalizing q with
  | last hi =>
    cases hq with
    | last hi' =>
      obtain ⟨rfl, -⟩ := List.cons_prefix_cons.1 hpre
      rfl
    | step hi' hembeds' _ =>
      -- The longer sequence goes on through a field that embeds a struct.
      obtain ⟨rfl, -⟩ := List.cons_prefix_cons.1 hpre
      obtain rfl := Option.some.inj (hi.symm.trans hi')
      cases hembeds.symm.trans hembeds'
  | step hi hembeds' hp ih =>
    cases hq with
    | last hi' =>
      obtain ⟨rfl, hnil⟩ := List.cons_prefix_cons.1 hpre
      exact absurd (List.prefix_nil.1 hnil) hp.ne_nil
    | step hi' hembeds'' hq =>
      obtain ⟨rfl, hrest⟩ := List.cons_prefix_cons.1 hpre
      obtain rfl := Option.some.inj (hi.symm.trans hi')
      obtain rfl := Option.some.inj (hembeds'.symm.trans hembeds'')
      rw [ih hembeds hq hrest]

/-- The index sequences of two fields lead apart. -/
theorem diverge_typeFields {s : String} {l : List Field} (h : typeFields R s = .ok l) :
    l.Pairwise fun f g => Diverge f.index g.index := by
  have hkeys : l.Pairwise fun f g => f.key ≠ g.key :=
    List.pairwise_map.1 (FieldWalk.typeFields_eq_ok_iff.1 h).2
  refine hkeys.imp_of_mem fun {f g} hf hg hne => ?_
  obtain ⟨sf, hpath, hembeds, hprops⟩ := recorded_of_mem_typeFields h hf
  obtain ⟨sf', hpath', hembeds', hprops'⟩ := recorded_of_mem_typeFields h hg
  -- At one index sequence there is one field, with one key.
  have hindex : f.index ≠ g.index := by
    intro heq
    rw [heq] at hpath
    obtain rfl := hpath.unique hpath'
    exact hne (congrArg Props.key (Except.ok.inj (hprops.symm.trans hprops')))
  exact ⟨fun hpre => hindex (eq_of_leads_on hpath hembeds hpath' hpre),
    fun hpre => hindex (eq_of_leads_on hpath' hembeds' hpath hpre).symm⟩

/-! ## Required fields -/

/-- The field is marked as required. -/
structure Required (sf : StructField) : Prop where
  exported : sf.exported = true
  named : sf.anonymous = false
  tagged : ¬Untagged sf
  required : hasOption sf "required" = true

/-- A field that is marked is recorded as it is marked. -/
theorem records_of_required (hsf : Required sf) {props : Props}
    (hprops : getFieldProps R sf = .ok props) :
    (walk R).Records sf props ∧ props.required = true ∧ props.key = fieldKey R sf := by
  have hembeds : sf.embeds = none := by rw [StructField.embeds, hsf.named]; rfl
  have hmarked : props.skip = false ∧ props.required = true ∧ props.key = fieldKey R sf := by
    unfold getFieldProps at hprops
    rw [hsf.named, if_neg Bool.false_ne_true, if_neg hsf.tagged] at hprops
    split at hprops
    · cases hprops
    · cases hprops
      exact ⟨rfl, hsf.required, rfl⟩
  refine ⟨⟨fun hi => ?_, hprops, hmarked.1, hembeds⟩, hmarked.2⟩
  exact Bool.false_ne_true (hi.1.symm.trans hsf.exported)

/-- A required field of a struct, or of one that is embedded in it, is found. -/
theorem mem_typeFields_of_required {s u : String} {l : List Field}
    (h : typeFields R s = .ok l) (hu : R.Explored s u) (hmem : sf ∈ R.fields u)
    (hsf : Required sf) : ∃ f ∈ l, f.required = true ∧ f.key = fieldKey R sf := by
  have hcollect := (FieldWalk.typeFields_eq_ok_iff.1 h).1
  rcases (FieldWalk.collect_isOk_iff s).1 ⟨l, hcollect⟩ u hu sf hmem with hi | ⟨props, hprops⟩
  · exact absurd (hi.1.symm.trans hsf.exported) Bool.false_ne_true
  · obtain ⟨hr, hrequired, hkey⟩ := records_of_required hsf hprops
    obtain ⟨index, hf⟩ := FieldWalk.mem_collect hcollect hu hmem hr
    exact ⟨_, hf, hrequired, hkey⟩

end Apiserver.Rest.Urlencoded
