import Apiserver.Rest.FormFields

/-!
# Forms

The codec for `application/x-www-form-urlencoded` (`pkg/rest/urlencoded/urlencoded.go`). The
encoder writes the fields of a struct that are not zero, or the entries of a map, where those of
an entry that is a struct are written as if they were fields of the map. The decoder sets each
field of a struct to what the form has under its key.

A field that is marked as required has to be set, when a struct is encoded. Of the structs in a
map the error is dropped, and decoding does not look at the mark.

* `getSubv_put`: setting a field leaves alone what an index sequence that leads apart reaches;
* `scanMap_isOk_iff`, `decodeFields_isOk_iff`: what encoding a map and decoding a form take;
* `enforces_iff`: where the fields that are required are enforced.
-/

namespace Apiserver.Rest.Urlencoded

open Go

/-! ## Values -/

/-- A value, with those that are neither structs nor pointers left open. -/
inductive GoValue (β : Type)
  | struct (type : String) (fields : List (GoValue β))
  /-- A pointer to a value of a type. -/
  | ptr (type : GoType) (elem : Option (GoValue β))
  | other (x : β)

/-- The types of the program, and what the codec takes from the Go library and golib. -/
structure Codec (β : Type) extends Types where
  /-- `IsZero` of a value that is neither a struct nor a pointer. -/
  isZeroOther : β → Bool
  /-- The text of its type. -/
  typeOther : β → String
  /-- The zero value of a type. -/
  zero : GoType → GoValue β
  /-- The name of the kind of a value. -/
  kind : GoValue β → String
  /-- `util.GetValue`. -/
  getValue : GoValue β → Except Error (List String)
  /-- `util.SetValue`: the value as it is afterwards. -/
  setValue : GoValue β → List String → Except Error (GoValue β)
  /-- `url.ParseQuery`. -/
  parseQuery : String → Except Error Header
  /-- `errors.NewInternalError`. -/
  newInternalError : Error → Error

variable {β : Type}

namespace GoValue

/-- `reflect.Indirect` of what an interface holds, which is `none` for nil. -/
def indirect : Option (GoValue β) → Option (GoValue β)
  | some (.ptr _ elem) => elem
  | v => v

/-- The type and the fields of a struct, or of the one that is pointed to. -/
def fields : GoValue β → Option (String × List (GoValue β))
  | .struct s l => some (s, l)
  | .ptr _ (some (.struct s l)) => some (s, l)
  | _ => none

/-- The value with other fields. -/
def withFields (l : List (GoValue β)) : GoValue β → GoValue β
  | .struct s _ => .struct s l
  | .ptr t (some (.struct s _)) => .ptr t (some (.struct s l))
  | v => v

/-- The type of a struct whose fields are read. A time is a struct as well, but is taken
    as a whole. -/
def structType : GoValue β → Option String
  | .struct s _ => if s = "time.Time" then none else some s
  | _ => none

end GoValue

namespace Codec

variable (C : Codec β)

mutual

/-- `IsZero`. -/
def isZero : GoValue β → Bool
  | .struct _ l => allZero l
  | .ptr _ elem => elem.isNone
  | .other x => C.isZeroOther x

def allZero : List (GoValue β) → Bool
  | [] => true
  | v :: l => isZero v && allZero l

end

/-- The text of the type of a value. -/
def typeString : GoValue β → String
  | .struct s _ => s
  | .ptr t _ => "*" ++ t.string
  | .other x => C.typeOther x

/-- The pointer is made to point to a struct, if it is nil. -/
def made (allowCreate canSet : Bool) : GoValue β → Except Error (GoValue β)
  | .ptr t none =>
    if !allowCreate then .error ("struct " ++ t.string ++ " is nil")
    else if !canSet then
      .error ("getSubv: cannot set embedded pointer to unexported struct: " ++ t.string)
    else .ok (.ptr t (some (C.zero t)))
  | v => .ok v

/-- `getSubv`: the field at an index sequence, and what becomes of the whole when it is set. A
    value whose fields are not those of its type is refused. -/
def getSubv (allowCreate canSet : Bool) :
    List ℕ → GoValue β → Except Error (GoValue β × (GoValue β → GoValue β))
  | [], v => .ok (v, id)
  | i :: index, v => match C.made allowCreate canSet v with
    | .error err => .error err
    | .ok v => match v.fields with
      | none => .error "reflect: call of reflect.Value.Field on a value that is not a struct"
      | some (s, l) => match (C.fields s)[i]?, l[i]? with
        | some sf, some w => match getSubv allowCreate sf.exported index w with
          | .error err => .error err
          | .ok (x, put) => .ok (x, fun y => v.withFields (l.set i (put y)))
        | _, _ => .error "reflect: Field index out of range"

/-! ## Encoding -/

/-- An iteration of the loop of `scan`: the values of the form afterwards, and the error
    that `scan` returns. -/
def encodeField (v : GoValue β) (values : Header) (f : Field) : Header × Option Error :=
  let missing := if f.required then some (f.key ++ " must be set") else none
  match C.getSubv false true f.index v with
  | .error _ => (values, missing)
  | .ok (w, _) =>
    if C.isZero w then (values, missing)
    else match C.getValue w with
      | .error err => (values, some err)
      | .ok data => (data.foldl (fun values d => values.push f.key d) values, none)

def encodeFields (v : GoValue β) : List Field → Header → Header × Option Error
  | [], values => (values, none)
  | f :: l, values => match C.encodeField v values f with
    | (values, some err) => (values, some err)
    | (values, none) => encodeFields v l values

/-- What asking for the type of nil panics with. -/
def zeroValue : Panic := "reflect: call of reflect.Value.Type on zero Value"

/-- `scan` of what is not a map. -/
def scanStruct (src : Option (GoValue β)) (values : Header) :
    Except Panic (Header × Option Error) :=
  match GoValue.indirect src with
  | none => .error zeroValue
  | some v => match v.structType with
    | none => .ok (values, some ("schema: interface must be a struct got " ++ C.typeString v))
    | some s => match typeFields C.toTypes s with
      | .error msg => .error msg
      | .ok fields => .ok (C.encodeFields v fields values)

/-- A `map[string]interface{}`, its entries in the order they are visited. -/
abbrev Map (β : Type) := AList fun _ : String => Option (GoValue β)

/-- The loop of `scanMap`. -/
def scanMap : List (Sigma fun _ : String => Option (GoValue β)) → Header →
    Except Panic (Header × Option Error)
  | [], values => .ok (values, none)
  | e :: l, values => match GoValue.indirect e.2 with
    | none => .error zeroValue
    | some v => match v.structType with
      | some _ => match C.scanStruct e.2 values with
        | .error msg => .error msg
        -- The error of `scan` is dropped; what it added stays.
        | .ok (values, _) => scanMap l values
      | none => match C.getValue v with
        | .error err => .ok (values, some err)
        | .ok data => scanMap l (if data = [] then values else values.insert e.1 data)

end Codec

/-- What is encoded. -/
inductive Source (β : Type)
  | map (m : Codec.Map β)
  | value (v : Option (GoValue β))

namespace Codec

variable (C : Codec β)

/-- `scan`. -/
def scan (values : Header) : Source β → Except Panic (Header × Option Error)
  | .map m => C.scanMap m.entries values
  | .value v => C.scanStruct v values

/-- `Encode`: the form that is written. The writer is what it answers to a form. -/
def encode (write : Header → Option Error) (src : Source β) : Except Failure Header :=
  match C.scan ∅ src with
  | .error msg => .error (.panic msg)
  | .ok (_, some err) => .error (.error err)
  | .ok (values, none) => match write values with
    | some err => .error (.error err)
    | none => .ok values

/-! ## Decoding -/

/-- An iteration of the loop of `decode`. -/
def decodeField (values : Header) (v : GoValue β) (f : Field) : Except Error (GoValue β) :=
  match C.getSubv true true f.index v with
  | .error err => .error err
  | .ok (w, put) => (C.setValue w (values.index f.key)).map put

def decodeFields (values : Header) : List Field → GoValue β → Except Error (GoValue β)
  | [], v => .ok v
  | f :: l, v => match C.decodeField values v f with
    | .error err => .error err
    | .ok v => decodeFields values l v

/-- `decode`. -/
def decode (values : Header) (v : GoValue β) : Except Failure (GoValue β) :=
  match v.structType with
  | none => .error (.error
      (C.newInternalError "schema: interface must be a pointer to struct"))
  | some s => match typeFields C.toTypes s with
    | .error msg => .error (.panic msg)
    | .ok fields => (C.decodeFields values fields v).mapError .error

end Codec

/-- A `Decoder`. -/
structure Decoder where
  form : Option Header := none
  /-- The body, read to its end. -/
  body : Except Error String := .ok ""

namespace Decoder

variable (C : Codec β) (d : Decoder)

/-- The values that are decoded. No body is longer than `maxFormSize`. -/
def values : Except Error Header :=
  match d.form with
  | some form => .ok form
  | none => d.body.bind C.parseQuery

/-- `Decode`: what is pointed to afterwards. -/
def decode (dst : Option (GoValue β)) : Except Failure (GoValue β) :=
  match d.values C with
  | .error err => .error (.error err)
  | .ok values => match dst with
    | none => .error (.panic Codec.zeroValue)
    | some (.ptr _ none) => .error (.error (C.newInternalError "invalid potiner(nil)"))
    | some (.ptr _ (some v)) => C.decode values v
    | some v => .error (.error
        (C.newInternalError ("needs a pointer, got " ++ C.kind v ++ " " ++ C.kind v)))

end Decoder

/-! ## Setting a field -/

namespace GoValue

variable {v : GoValue β} {s : String} {l : List (GoValue β)}

theorem fields_withFields (h : v.fields = some (s, l)) (l' : List (GoValue β)) :
    (v.withFields l').fields = some (s, l') := by
  unfold fields at h
  split at h
  · cases h
    rfl
  · cases h
    rfl
  · cases h

end GoValue

namespace Codec

variable {C : Codec β} {allowCreate canSet : Bool} {v w x : GoValue β}
  {put : GoValue β → GoValue β}

theorem made_of_fields {s : String} {l : List (GoValue β)} (h : v.fields = some (s, l))
    (allowCreate canSet : Bool) : C.made allowCreate canSet v = .ok v := by
  unfold made
  split
  · cases h
  · rfl

/-- What a walk reaches is reached from the field at its first index. -/
theorem fst_getSubv_cons {i : ℕ} {index : List ℕ} {s : String} {l : List (GoValue β)}
    (hmade : C.made allowCreate canSet v = .ok w) (hfields : w.fields = some (s, l)) :
    (C.getSubv allowCreate canSet (i :: index) v).map Prod.fst =
      match (C.fields s)[i]?, l[i]? with
      | some sf, some u => (C.getSubv allowCreate sf.exported index u).map Prod.fst
      | _, _ => .error "reflect: Field index out of range" := by
  simp only [getSubv, hmade, hfields]
  cases (C.fields s)[i]? with
  | none => rfl
  | some sf =>
    cases l[i]? with
    | none => rfl
    | some u =>
      dsimp only
      cases C.getSubv allowCreate sf.exported index u <;> rfl

/-- A walk goes through a value with fields, and on from one of them. -/
theorem getSubv_cons_eq_ok {i : ℕ} {index : List ℕ}
    (h : C.getSubv allowCreate canSet (i :: index) v = .ok (x, put)) :
    ∃ w s l sf u put', C.made allowCreate canSet v = .ok w ∧ w.fields = some (s, l) ∧
      (C.fields s)[i]? = some sf ∧ l[i]? = some u ∧
      C.getSubv allowCreate sf.exported index u = .ok (x, put') ∧
      put = fun y => w.withFields (l.set i (put' y)) := by
  rw [getSubv] at h
  cases hmade : C.made allowCreate canSet v with
  | error err =>
    rw [hmade] at h
    cases h
  | ok w =>
    simp only [hmade] at h
    cases hfields : w.fields with
    | none =>
      rw [hfields] at h
      cases h
    | some p =>
      simp only [hfields] at h
      split at h
      case h_1 sf u hsf hu =>
        cases hsub : C.getSubv allowCreate sf.exported index u with
        | error err =>
          rw [hsub] at h
          cases h
        | ok r =>
          rw [hsub] at h
          cases h
          exact ⟨w, p.1, p.2, sf, u, r.2, rfl, hfields, hsf, hu, hsub, rfl⟩
      case h_2 => cases h

/-- Setting a field leaves alone what an index sequence that leads apart reaches. -/
theorem getSubv_put {p q : List ℕ} (hdiverge : Diverge p q)
    (h : C.getSubv allowCreate canSet p v = .ok (x, put)) (y : GoValue β) :
    (C.getSubv allowCreate canSet q (put y)).map Prod.fst =
      (C.getSubv allowCreate canSet q v).map Prod.fst := by
  -- Where the sequences still agree, what the one has made the other finds; a struct that is
  -- made has the fields it would have been made with for the other.
  induction p generalizing q v canSet put with
  | nil => exact absurd List.nil_prefix hdiverge.1
  | cons i p ih =>
    cases q with
    | nil => exact absurd List.nil_prefix hdiverge.2
    | cons j q =>
      obtain ⟨w, s, l, sf, u, put', hmade, hfields, hsf, hu, hsub, rfl⟩ := getSubv_cons_eq_ok h
      have hfields' := GoValue.fields_withFields hfields (l.set i (put' y))
      rw [fst_getSubv_cons hmade hfields, fst_getSubv_cons (made_of_fields hfields' _ _) hfields']
      by_cases hij : i = j
      · subst hij
        have hrest : Diverge p q := by
          refine ⟨fun hpre => hdiverge.1 ?_, fun hpre => hdiverge.2 ?_⟩ <;>
            exact List.cons_prefix_cons.2 ⟨rfl, hpre⟩
        have hi : (l.set i (put' y))[i]? = some (put' y) :=
          List.getElem?_set_self (List.getElem?_eq_some_iff.1 hu).1
        simp only [hsf, hu, hi, ih hrest hsub]
      · rw [List.getElem?_set_ne hij]

/-! ## Encoding a struct -/

variable (C) in
/-- The field at an index sequence is there, and not zero. -/
def IsSet (v : GoValue β) (index : List ℕ) : Prop :=
  ∃ w put, C.getSubv false true index v = .ok (w, put) ∧ C.isZero w = false

variable (C) in
/-- The required fields of a struct are set. -/
def RequiredSet (v : GoValue β) : Prop :=
  ∀ s fields, v.structType = some s → typeFields C.toTypes s = .ok fields →
    ∀ f ∈ fields, f.required = true → C.IsSet v f.index

theorem isSet_of_encodeField {values values' : Header} {f : Field} (hrequired : f.required = true)
    (h : C.encodeField v values f = (values', none)) : C.IsSet v f.index := by
  rw [encodeField, hrequired] at h
  cases hsub : C.getSubv false true f.index v with
  | error err =>
    rw [hsub] at h
    cases h
  | ok r =>
    simp only [hsub] at h
    by_cases hzero : C.isZero r.1 = true
    · rw [if_pos hzero] at h
      cases h
    · exact ⟨r.1, r.2, hsub, Bool.eq_false_of_not_eq_true hzero⟩

/-- Required fields that were encoded are set. -/
theorem isSet_of_encodeFields {fields : List Field} {values values' : Header}
    (h : C.encodeFields v fields values = (values', none)) :
    ∀ f ∈ fields, f.required = true → C.IsSet v f.index := by
  induction fields generalizing values with
  | nil => simp
  | cons f l ih =>
    rw [encodeFields] at h
    split at h
    · cases h
    case h_2 values₁ hfield =>
      intro g hg hrequired
      rcases List.mem_cons.1 hg with rfl | hg
      · exact isSet_of_encodeField hrequired hfield
      · exact ih h g hg hrequired

/-- If a struct is encoded, its required fields are set. -/
theorem requiredSet_of_scanStruct {src : Option (GoValue β)} {values values' : Header}
    (h : C.scanStruct src values = .ok (values', none)) (hv : GoValue.indirect src = some v) :
    C.RequiredSet v := by
  intro s fields hs hfields
  simp only [scanStruct, hv, hs, hfields, Except.ok.injEq] at h
  exact isSet_of_encodeFields h

/-! ## Encoding a map -/

variable (C) in
/-- An entry of a map does not keep it from being encoded. -/
def Encodable (x : Option (GoValue β)) : Prop :=
  ∃ v, GoValue.indirect x = some v ∧
    (∀ s, v.structType = some s → ∃ fields, typeFields C.toTypes s = .ok fields) ∧
    (v.structType = none → ∃ data, C.getValue v = .ok data)

/-- Encoding a map takes each of its entries to be encodable; whether the required fields of
    a struct are set plays no part. -/
theorem scanMap_isOk_iff {l : List (Sigma fun _ : String => Option (GoValue β))}
    (values : Header) :
    (∃ values', C.scanMap l values = .ok (values', none)) ↔ ∀ e ∈ l, C.Encodable e.2 := by
  induction l generalizing values with
  | nil => simp [scanMap]
  | cons e l ih =>
    rw [List.forall_mem_cons, scanMap, Encodable]
    cases hv : GoValue.indirect e.2 with
    | none => simp
    | some v =>
      cases hs : v.structType with
      | some s =>
        cases hfields : typeFields C.toTypes s with
        | error msg => simp [scanStruct, hv, hs, hfields]
        | ok fields => simp [scanStruct, hv, hs, hfields, ih]
      | none =>
        cases hdata : C.getValue v with
        | error err => simp [hs, hdata]
        | ok data => simp [hs, hdata, ih]

end Codec

/-! ## Enforcing -/

/-- The structs that the encoder reads the fields of. -/
def Source.Writes : Source β → GoValue β → Prop
  | .map m, v => v.structType ≠ none ∧ ∃ e ∈ m.entries, GoValue.indirect e.2 = some v
  | .value x, v => GoValue.indirect x = some v

variable (C : Codec β)

/-- If something is encoded, the required fields of the structs that were written are set. -/
def EncoderEnforces (src : Source β) : Prop :=
  ∀ write values, C.encode write src = .ok values → ∀ v, src.Writes v → C.RequiredSet v

/-- The form has a value for each required field. -/
def Present (values : Header) (fields : List Field) : Prop :=
  ∀ f ∈ fields, f.required = true → values.index f.key ≠ []

/-- The decoder is given a form, and a pointer to a struct with some fields. -/
structure Decoder.Reads (d : Decoder) (dst : Option (GoValue β)) (values : Header) (v : GoValue β)
    (fields : List Field) : Prop where
  values_eq : d.values C = .ok values
  pointer : ∃ t, dst = some (.ptr t (some v))
  struct : ∃ s, v.structType = some s ∧ typeFields C.toTypes s = .ok fields

/-- If something is decoded, the form has a value for each required field of its type. -/
def DecoderEnforces (d : Decoder) (dst : Option (GoValue β)) : Prop :=
  ∀ v', d.decode C dst = .ok v' → ∀ values v fields, d.Reads C dst values v fields →
    Present values fields

/-- The field can be reached, or made, and takes what the form has for it. -/
def Takes (values : Header) (v : GoValue β) (f : Field) : Prop :=
  ∃ w x, (C.getSubv true true f.index v).map Prod.fst = .ok w ∧
    C.setValue w (values.index f.key) = .ok x

variable {C} {v : GoValue β} {values : Header}

theorem decodeField_eq_ok_iff {v' : GoValue β} {f : Field} :
    C.decodeField values v f = .ok v' ↔ ∃ w put x, C.getSubv true true f.index v = .ok (w, put) ∧
      C.setValue w (values.index f.key) = .ok x ∧ put x = v' := by
  rw [Codec.decodeField]
  cases C.getSubv true true f.index v with
  | error err => simp
  | ok r =>
    obtain ⟨w, put⟩ := r
    cases hset : C.setValue w (values.index f.key) with
    | error err => simp [hset, Except.map]
    | ok x => simp [hset, Except.map]

/-- Decoding takes each field to take what the form has for it, be it nothing. -/
theorem decodeFields_isOk_iff {fields : List Field}
    (hfields : fields.Pairwise fun f g => Diverge f.index g.index) :
    (∃ v', C.decodeFields values fields v = .ok v') ↔ ∀ f ∈ fields, Takes C values v f := by
  -- After the first field is set, the others reach what they reached before.
  induction fields generalizing v with
  | nil => simp [Codec.decodeFields]
  | cons f l ih =>
    obtain ⟨hf, hl⟩ := List.pairwise_cons.1 hfields
    rw [List.forall_mem_cons]
    constructor
    · rintro ⟨v', h⟩
      rw [Codec.decodeFields] at h
      split at h
      · cases h
      case h_2 v₁ hfield =>
        obtain ⟨w, put, x, hsub, hset, rfl⟩ := decodeField_eq_ok_iff.1 hfield
        refine ⟨⟨w, x, by rw [hsub]; rfl, hset⟩, fun g hg => ?_⟩
        have htakes := (ih hl).1 ⟨v', h⟩ g hg
        rwa [Takes, Codec.getSubv_put (hf g hg) hsub] at htakes
    · rintro ⟨⟨w, x, hfst, hset⟩, htakes⟩
      obtain ⟨⟨w, put⟩, hsub, rfl⟩ := map_eq_ok hfst
      have hfield := decodeField_eq_ok_iff.2 ⟨w, put, x, hsub, hset, rfl⟩
      simp only [Codec.decodeFields, hfield]
      refine (ih hl).2 fun g hg => ?_
      rw [Takes, Codec.getSubv_put (hf g hg) hsub]
      exact htakes g hg

theorem Decoder.Reads.decode_isOk_iff {d : Decoder} {dst : Option (GoValue β)}
    {fields : List Field} (h : d.Reads C dst values v fields) :
    (∃ v', d.decode C dst = .ok v') ↔ ∀ f ∈ fields, Takes C values v f := by
  obtain ⟨t, rfl⟩ := h.pointer
  obtain ⟨s, hs, hfields⟩ := h.struct
  rw [← decodeFields_isOk_iff (diverge_typeFields hfields)]
  simp only [Decoder.decode, h.values_eq, Codec.decode, hs, hfields]
  cases C.decodeFields values fields v <;> simp [Except.mapError]

variable (C) in
/-- The encoder enforces the required fields of a struct. Those of the structs in a map it
    enforces only if they are set, or the map is not encoded for another reason; the decoder only
    if the form has them, or something in it is not taken. -/
theorem enforces_iff :
    (∀ x, EncoderEnforces C (.value x)) ∧
      (∀ m, EncoderEnforces C (.map m) ↔ ((∀ e ∈ m.entries, C.Encodable e.2) →
        ∀ v, (Source.map m).Writes v → C.RequiredSet v)) ∧
      (∀ d dst, DecoderEnforces C d dst ↔ ∀ values v fields, d.Reads C dst values v fields →
        (∀ f ∈ fields, Takes C values v f) → Present values fields) ∧
      ∀ s u sf fields, typeFields C.toTypes s = .ok fields → C.Explored s u → sf ∈ C.fields u →
        Required sf → ∃ f ∈ fields, f.required = true ∧ f.key = fieldKey C.toTypes sf := by
  refine ⟨fun x => ?_, fun m => ⟨fun henforces hm => ?_, fun hall => ?_⟩,
    fun d dst => ⟨fun henforces => ?_, fun hall => ?_⟩, fun s u sf fields => ?_⟩
  · intro write values h v hv
    rw [Codec.encode, Codec.scan] at h
    split at h
    · cases h
    · cases h
    case h_3 values' hscan => exact Codec.requiredSet_of_scanStruct hscan hv
  · obtain ⟨values, hscan⟩ := (Codec.scanMap_isOk_iff ∅).2 hm
    refine henforces (fun _ => none) values ?_
    simp only [Codec.encode, Codec.scan, hscan]
  · intro write values h
    rw [Codec.encode, Codec.scan] at h
    split at h
    · cases h
    · cases h
    case h_3 values' hscan => exact hall ((Codec.scanMap_isOk_iff ∅).1 ⟨values', hscan⟩)
  · intro values v fields hreads htakes
    obtain ⟨v', hdecode⟩ := hreads.decode_isOk_iff.2 htakes
    exact henforces v' hdecode values v fields hreads
  · intro v' hdecode values v fields hreads
    exact hall values v fields hreads (hreads.decode_isOk_iff.1 ⟨v', hdecode⟩)
  · exact fun h hu hmem hsf => mem_typeFields_of_required h hu hmem hsf

/-- A login without a name. -/
def nameless : GoValue String := .struct "Login" [.other ""]

/-- A program with one struct, whose only field is required, and texts for values. -/
def login : Codec String where
  structs := AList.singleton "Login"
    [{ name := "Name", type := .other "string", tags := [("json", "name,required")] }]
  parseFloat _ := none
  toLower := id
  toUpper := id
  lowerCamelCasedName := id
  describe := GoType.string
  isZeroOther s := s == ""
  typeOther _ := "string"
  zero
    | .struct _ => nameless
    | .ptr _ t => .ptr t none
    | _ => .other ""
  kind
    | .struct _ _ => "struct"
    | .ptr _ _ => "ptr"
    | .other _ => "string"
  getValue
    | .other s => .ok [s]
    | _ => .error "unsupported type"
  setValue v data := .ok (data.head?.elim v .other)
  parseQuery body := if body = "" then .ok ∅ else .error "invalid form"
  newInternalError := id

def nameField : Field :=
  { key := "name", required := true, name := "name", type := .other "string", index := [0] }

theorem typeFields_login : typeFields login.toTypes "Login" = .ok [nameField] := rfl

/-- A login without a name is encoded if it is in a map, and decoded from an empty form. -/
theorem not_enforces_login :
    ¬EncoderEnforces login (.map (AList.singleton "login" (some nameless))) ∧
      ¬DecoderEnforces login { form := some ∅ }
        (some (.ptr (.struct "Login") (some nameless))) := by
  refine ⟨fun h => ?_, fun h => ?_⟩
  · obtain ⟨w, put, hsub, hset⟩ := h (fun _ => none) ∅ rfl nameless
      ⟨by decide, _, List.mem_singleton_self _, rfl⟩ "Login" _ rfl typeFields_login nameField
      (List.mem_singleton_self _) rfl
    cases hsub
    cases hset
  · exact h nameless rfl ∅ nameless [nameField]
      ⟨rfl, ⟨_, rfl⟩, "Login", rfl, typeFields_login⟩ nameField (List.mem_singleton_self _) rfl rfl

end Apiserver.Rest.Urlencoded
