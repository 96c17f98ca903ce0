import Apiserver.Rest.TypeFields

/-!
# Values of parameter types

The values that the parameter codec reads and fills: a struct of parameters, whose
fields are texts, numbers and the like, with other structs embedded in it, or
pointers to them. The codec walks a value along an index sequence (`getSubv`); on the
way it makes the structs that nil pointers are to point to, which cannot be done for
a pointer to an unexported struct.

A value is what can be observed of it along index sequences (`Value.obs`): the parameters
in it and which pointers are nil.

* `same_of_agree`: values of a type are the same if what is observed of them is;
* `obs_set`: setting a parameter changes what is observed of it, and nothing else;
* `Created`, `created_getSubv`: the walk changes pointers along the sequence only.
-/

namespace Apiserver.Rest

open Go

/-! ## Values -/

/-- A value of one of the types of parameters. A slice that is nil is `none`. -/
inductive Leaf
  | string (s : String)
  | bool (b : Bool)
  | int (i : Int64)
  | strings (l : Option (List String))
deriving DecidableEq

namespace Leaf

def type : Leaf → GoType
  | .string _ => .other "string"
  | .bool _ => .other "bool"
  | .int _ => .other "int"
  | .strings _ => .slice "[]string"

/-- `IsZero`. -/
def isZero : Leaf → Bool
  | .string s => s == ""
  | .bool b => !b
  | .int i => i == 0
  | .strings l => l.isNone

/-- The value with nil and empty slices identified. -/
def normal : Leaf → Leaf
  | .strings l => .strings (some (l.getD []))
  | x => x

/-- Zero, or an empty slice. -/
def Blank (x : Leaf) : Prop := x.isZero = true ∨ x = .strings (some [])

/-- A zero value stands for the blank ones of its type. -/
theorem normal_eq_of_blank {x y : Leaf} (hx : x.isZero = true) (htype : x.type = y.type) :
    x.normal = y.normal ↔ y.Blank := by
  cases x with
  | string a =>
    cases y with
    | string b =>
      obtain rfl : a = "" := by simpa [isZero] using hx
      rw [eq_comm]
      simp [normal, Blank, isZero]
    | _ => simp [type] at htype
  | bool a =>
    cases y with
    | bool b =>
      obtain rfl : a = false := by simpa [isZero] using hx
      rw [eq_comm]
      simp [normal, Blank, isZero]
    | _ => simp [type] at htype
  | int a =>
    cases y with
    | int b =>
      obtain rfl : a = 0 := by simpa [isZero] using hx
      rw [eq_comm]
      simp [normal, Blank, isZero]
    | _ => simp [type] at htype
  | strings a =>
    cases y with
    | strings b =>
      obtain rfl : a = none := by simpa [isZero] using hx
      rw [eq_comm]
      cases b <;> simp [normal, Blank, isZero]
    | _ => simp [type] at htype

end Leaf

/-- The type of a parameter. -/
def GoType.IsLeaf (t : GoType) : Prop := ∃ x : Leaf, x.type = t

/-- A value of a parameter type. -/
inductive Value
  | leaf (x : Leaf)
  | struct (fields : List Value)
  | ptr (elem : Option Value)

/-- The values are equal, with nil and empty slices identified. -/
inductive Same : Value → Value → Prop
  | leaf {x y : Leaf} (h : x.normal = y.normal) : Same (.leaf x) (.leaf y)
  | struct {l l' : List Value} (hlen : l.length = l'.length)
      (h : ∀ (i : ℕ) (v w : Value), l[i]? = some v → l'[i]? = some w → Same v w) :
      Same (.struct l) (.struct l')
  | nil : Same (.ptr none) (.ptr none)
  | ptr {v w : Value} (h : Same v w) : Same (.ptr (some v)) (.ptr (some w))

/-- The value is one of a type. -/
inductive HasType (R : Types) : Value → GoType → Prop
  | leaf {x : Leaf} {t : GoType} (h : x.type = t) : HasType R (.leaf x) t
  | struct {s : String} {l : List Value} (hlen : l.length = (R.fields s).length)
      (h : ∀ (i : ℕ) (sf : StructField) (v : Value), (R.fields s)[i]? = some sf →
        l[i]? = some v → HasType R v sf.type) : HasType R (.struct l) (.struct s)
  | nil {s : String} {t : GoType} : HasType R (.ptr none) (.ptr s t)
  | ptr {s : String} {t : GoType} {v : Value} (h : HasType R v t) :
      HasType R (.ptr (some v)) (.ptr s t)

namespace Value

/-- The fields of a struct, or of the one that is pointed to. -/
def fields : Value → Option (List Value)
  | .struct l => some l
  | .ptr (some (.struct l)) => some l
  | _ => none

/-- The field at an index sequence: `getSubv` that makes nothing. It is `none` if there is
    a nil pointer on the way. -/
def get : List ℕ → Value → Option Value
  | [], v => some v
  | i :: index, v => v.fields.bind fun l => l[i]?.bind (get index)

/-- The value with other fields. -/
def withFields (l : List Value) : Value → Value
  | .struct _ => .struct l
  | .ptr (some (.struct _)) => .ptr (some (.struct l))
  | v => v

/-- Setting the field at an index sequence. -/
def set (x : Leaf) : List ℕ → Value → Value
  | [], _ => .leaf x
  | i :: index, v => match v.fields with
    | none => v
    | some l => v.withFields (l.modify i (set x index))

end Value

/-- What can be observed at an index sequence. -/
inductive Obs
  | leaf (x : Leaf)
  | struct
  | ptr (nonNil : Bool)

namespace Value

def shape : Value → Obs
  | .leaf x => .leaf x
  | .struct _ => .struct
  | .ptr elem => .ptr elem.isSome

def obs (index : List ℕ) (v : Value) : Option Obs := (v.get index).map shape

end Value

def Obs.normal : Obs → Obs
  | .leaf x => .leaf x.normal
  | o => o

/-! ## Types of parameters -/

/-- The types that are met in a struct of parameters: its fields are of the types of
    parameters, or embed a struct of the same kind. -/
structure Types.ParamTypes (R : Types) (D : GoType → Prop) : Prop where
  leaf_or_struct : ∀ t, D t → t.IsLeaf ∨ ∃ s, t.deref = .struct s
  elem : ∀ s t, D (.ptr s t) → D t
  fields : ∀ t s, D t → t.deref = .struct s → ∀ sf ∈ R.fields s, D sf.type

/-- The zero values of the types of a program: no struct has a field of its own type. -/
structure Zeros (R : Types) where
  zero : GoType → Value
  zero_leaf : ∀ x : Leaf, ∃ y, zero x.type = .leaf y ∧ y.type = x.type ∧ y.isZero = true
  zero_struct : ∀ s, zero (.struct s) = .struct ((R.fields s).map fun sf => zero sf.type)
  zero_ptr : ∀ s t, zero (.ptr s t) = .ptr none

theorem Types.ParamTypes.elem_struct {R : Types} {D : GoType → Prop} (hD : R.ParamTypes D)
    {s : String} {t : GoType} (ht : D (.ptr s t)) : ∃ u, t = .struct u := by
  rcases hD.leaf_or_struct _ ht with ⟨x, hx⟩ | ⟨u, hu⟩
  · cases x <;> simp [Leaf.type] at hx
  · exact ⟨u, hu⟩

theorem GoType.deref_eq_struct {t : GoType} {s : String} (h : t.deref = .struct s) :
    t = .struct s ∨ ∃ s', t = .ptr s' (.struct s) := by
  cases t <;> simp_all [GoType.deref]

theorem GoType.IsLeaf.deref_ne {t : GoType} (h : t.IsLeaf) (s : String) : t.deref ≠ .struct s := by
  obtain ⟨x, rfl⟩ := h
  cases x <;> simp [Leaf.type, GoType.deref]

/-! ## Observations -/

namespace Value

@[simp] theorem obs_nil (v : Value) : v.obs [] = some v.shape := rfl

variable {v : Value} {l : List Value}

theorem obs_cons (h : v.fields = some l) (i : ℕ) (index : List ℕ) :
    v.obs (i :: index) = l[i]?.bind (obs index) := by
  rw [obs, get, h, Option.bind_some]
  cases l[i]? <;> rfl

theorem obs_cons_of_none (h : v.fields = none) (i : ℕ) (index : List ℕ) :
    v.obs (i :: index) = none := by
  rw [obs, get, h]
  rfl

theorem fields_eq_some (h : v.fields = some l) :
    v = .struct l ∨ v = .ptr (some (.struct l)) := by
  unfold fields at h
  split at h
  · exact .inl (congrArg _ (Option.some.inj h))
  · obtain rfl := Option.some.inj h
    exact .inr rfl
  · cases h

theorem fields_withFields (h : v.fields = some l) (l' : List Value) :
    (v.withFields l').fields = some l' := by
  rcases fields_eq_some h with rfl | rfl <;> rfl

theorem shape_withFields (h : v.fields = some l) (l' : List Value) :
    (v.withFields l').shape = v.shape := by
  rcases fields_eq_some h with rfl | rfl <;> rfl

theorem shape_ne_leaf (h : v.fields = some l) (x : Leaf) :
    v.shape ≠ .leaf x := by
  rcases fields_eq_some h with rfl | rfl <;> simp [shape]

/-- Replacing a field changes what is observed below it, and nothing else. -/
theorem obs_withFields_set (h : v.fields = some l) {i : ℕ} (hi : i < l.length) (w : Value) (j : ℕ)
    (idx : List ℕ) :
    (v.withFields (l.set i w)).obs (j :: idx) =
      if i = j then w.obs idx else l[j]?.bind (obs idx) := by
  rw [obs_cons (fields_withFields h _), List.getElem?_set]
  by_cases hj : i = j
  · subst hj
    simp [hi]
  · simp [hj]

/-- Setting a parameter changes what is observed of it, and nothing else. -/
theorem obs_set {index : List ℕ} {y : Leaf} (h : v.get index = some (.leaf y)) (x : Leaf)
    (idx : List ℕ) :
    (v.set x index).obs idx = if idx = index then some (.leaf x) else v.obs idx := by
  induction index generalizing v idx with
  | nil =>
    cases h
    cases idx with
    | nil => rfl
    | cons j idx =>
      rw [if_neg (by simp), set, obs_cons_of_none rfl, obs_cons_of_none rfl]
  | cons i index ih =>
    rw [get, Option.bind_eq_some_iff] at h
    obtain ⟨l, hl, h⟩ := h
    obtain ⟨w, hw, h⟩ := Option.bind_eq_some_iff.1 h
    have hset : v.set x (i :: index) = v.withFields (l.modify i (set x index)) := by
      rw [set, hl]
    rw [hset]
    cases idx with
    | nil => simp [shape_withFields hl]
    | cons j idx =>
      rw [obs_cons (fields_withFields hl _), obs_cons hl, List.getElem?_modify]
      by_cases hj : i = j
      · subst hj
        simp [hw, ih h]
      · have hne : j :: idx ≠ i :: index := fun heq => hj (List.cons.inj heq).1.symm
        rw [if_neg hne]
        simp [hj]

end Value

/-- The fields of a value of a struct type have the types of its fields. -/
theorem HasType.fields {R : Types} {v : Value} {t : GoType} {s : String} {l : List Value}
    (hv : HasType R v t) (hs : t.deref = .struct s) (hl : v.fields = some l) :
    l.length = (R.fields s).length ∧ ∀ (i : ℕ) (sf : StructField) (w : Value),
      (R.fields s)[i]? = some sf → l[i]? = some w → HasType R w sf.type := by
  rcases Value.fields_eq_some hl with rfl | rfl
  · cases hv with
    | struct hlen h =>
      cases hs
      exact ⟨hlen, h⟩
  · cases hv with
    | ptr hv =>
      cases hv with
      | struct hlen h =>
        cases hs
        exact ⟨hlen, h⟩

/-- A value with fields is of a struct type, or of one of pointers to it. -/
theorem HasType.deref_of_fields {R : Types} {v : Value} {t : GoType} {l : List Value}
    (hv : HasType R v t) (hl : v.fields = some l) : ∃ s, t.deref = .struct s := by
  rcases Value.fields_eq_some hl with rfl | rfl
  · cases hv with
    | struct _ _ => exact ⟨_, rfl⟩
  · cases hv with
    | ptr hv =>
      cases hv with
      | struct _ _ => exact ⟨_, rfl⟩

/-- A value keeps its type with other fields of the right types. -/
theorem HasType.withFields {R : Types} {v : Value} {t : GoType} {s : String} {l l' : List Value}
    (hv : HasType R v t) (hs : t.deref = .struct s) (hl : v.fields = some l)
    (hlen : l'.length = (R.fields s).length)
    (h : ∀ (i : ℕ) (sf : StructField) (w : Value), (R.fields s)[i]? = some sf →
      l'[i]? = some w → HasType R w sf.type) : HasType R (v.withFields l') t := by
  rcases Value.fields_eq_some hl with rfl | rfl
  · cases hv with
    | struct _ _ =>
      cases hs
      exact .struct hlen h
  · cases hv with
    | ptr hv =>
      cases hv with
      | struct _ _ =>
        cases hs
        exact .ptr (.struct hlen h)

/-- A value of a type with a struct behind it is a nil pointer, or has fields. -/
theorem HasType.nil_or_fields {R : Types} {v : Value} {t : GoType} {s : String}
    (hv : HasType R v t) (hs : t.deref = .struct s) :
    v = .ptr none ∨ ∃ l, v.fields = some l := by
  rcases GoType.deref_eq_struct hs with rfl | ⟨s', rfl⟩
  · cases hv with
    | leaf h => exact absurd hs (GoType.IsLeaf.deref_ne ⟨_, h⟩ s)
    | struct _ _ => exact .inr ⟨_, rfl⟩
  · cases hv with
    | leaf h => exact absurd hs (GoType.IsLeaf.deref_ne ⟨_, h⟩ s)
    | nil => exact .inl rfl
    | ptr hv =>
      cases hv with
      | leaf h => exact absurd hs (GoType.IsLeaf.deref_ne ⟨_, h⟩ s)
      | struct _ _ => exact .inr ⟨_, rfl⟩

variable {index : List ℕ}

/-- Setting a leaf keeps the type. -/
theorem HasType.set {R : Types} {v : Value} {x y : Leaf} {t : GoType} (hv : HasType R v t)
    (h : v.get index = some (.leaf y)) (hx : x.type = y.type) :
    HasType R (v.set x index) t := by
  induction index generalizing v t with
  | nil =>
    cases h
    cases hv with
    | leaf h => exact .leaf (hx.trans h)
  | cons i index ih =>
    rw [Value.get, Option.bind_eq_some_iff] at h
    obtain ⟨l, hl, h⟩ := h
    obtain ⟨w, hw, h⟩ := Option.bind_eq_some_iff.1 h
    have hset : v.set x (i :: index) = v.withFields (l.modify i (Value.set x index)) := by
      rw [Value.set, hl]
    obtain ⟨s, hs⟩ : ∃ s, t.deref = .struct s := hv.deref_of_fields hl
    obtain ⟨hlen, hfields⟩ := hv.fields hs hl
    rw [hset]
    refine hv.withFields hs hl (by simpa using hlen) fun j sf w' hsf hw' => ?_
    rw [List.getElem?_modify] at hw'
    by_cases hj : i = j
    · subst hj
      obtain rfl : w.set x index = w' := by simpa [hw] using hw'
      exact ih (hfields i sf w hsf hw) h
    · refine hfields j sf w' hsf ?_
      simpa [hj] using hw'

theorem HasType.eq_leaf {R : Types} {v : Value} {t : GoType} (hv : HasType R v t) (ht : t.IsLeaf) :
    ∃ x, v = .leaf x ∧ x.type = t := by
  obtain ⟨y, hy⟩ := ht
  cases hv with
  | leaf h => exact ⟨_, rfl, h⟩
  | _ => cases y <;> simp [Leaf.type] at hy

theorem HasType.eq_ptr {R : Types} {v : Value} {s : String} {t : GoType}
    (hv : HasType R v (.ptr s t)) : ∃ elem, v = .ptr elem := by
  cases hv with
  | @leaf x _ h => cases x <;> simp [Leaf.type] at h
  | nil => exact ⟨_, rfl⟩
  | ptr _ => exact ⟨_, rfl⟩

theorem HasType.eq_struct {R : Types} {v : Value} {s : String} (hv : HasType R v (.struct s)) :
    ∃ l, v = .struct l := by
  cases hv with
  | @leaf x _ h => cases x <;> simp [Leaf.type] at h
  | struct _ _ => exact ⟨_, rfl⟩

/-- At an index sequence, values of one type have values of one type. -/
theorem HasType.get {R : Types} {v w a b : Value} {t : GoType} (hv : HasType R v t)
    (hw : HasType R w t) (ha : v.get index = some a) (hb : w.get index = some b) :
    ∃ t', HasType R a t' ∧ HasType R b t' := by
  induction index generalizing v w t with
  | nil =>
    cases ha
    cases hb
    exact ⟨t, hv, hw⟩
  | cons i index ih =>
    rw [Value.get, Option.bind_eq_some_iff] at ha hb
    obtain ⟨l, hl, ha⟩ := ha
    obtain ⟨l', hl', hb⟩ := hb
    obtain ⟨v', hv', ha⟩ := Option.bind_eq_some_iff.1 ha
    obtain ⟨w', hw', hb⟩ := Option.bind_eq_some_iff.1 hb
    obtain ⟨s, hs⟩ := hv.deref_of_fields hl
    obtain ⟨hlen, hfields⟩ := hv.fields hs hl
    obtain ⟨hi, -⟩ := List.getElem?_eq_some_iff.1 hv'
    have hsf := List.getElem?_eq_getElem (hlen ▸ hi)
    exact ih (hfields i _ v' hsf hv') ((hw.fields hs hl').2 i _ w' hsf hw') ha hb

theorem HasType.leaf_type {R : Types} {v w : Value} {t : GoType} {x y : Leaf} (hv : HasType R v t)
    (hw : HasType R w t) (hx : v.get index = some (.leaf x)) (hy : w.get index = some (.leaf y)) :
    x.type = y.type := by
  obtain ⟨t', hxt, hyt⟩ := hv.get hw hx hy
  cases hxt with
  | leaf hx =>
    cases hyt with
    | leaf hy => exact hx.trans hy.symm

theorem Value.get_append (v : Value) (index index' : List ℕ) :
    v.get (index ++ index') = (v.get index).bind (Value.get index') := by
  induction index generalizing v with
  | nil => rfl
  | cons i index ih =>
    rw [List.cons_append, get, get, Option.bind_assoc]
    refine congrArg _ (funext fun l => ?_)
    rw [Option.bind_assoc]
    exact congrArg _ (funext fun w => ih w)

theorem Value.obs_eq_leaf {v : Value} {x : Leaf} :
    v.obs index = some (.leaf x) ↔ v.get index = some (.leaf x) := by
  rw [obs, Option.map_eq_some_iff]
  refine ⟨?_, fun h => ⟨_, h, rfl⟩⟩
  rintro ⟨w, hw, hshape⟩
  cases w with
  | leaf y =>
    cases hshape
    exact hw
  | _ => cases hshape

theorem Value.obs_eq_ptr {v : Value} :
    v.obs index = some (.ptr true) ↔ ∃ w, v.get index = some (.ptr (some w)) := by
  rw [obs, Option.map_eq_some_iff]
  refine ⟨?_, fun ⟨w, h⟩ => ⟨_, h, rfl⟩⟩
  rintro ⟨w, hw, hshape⟩
  cases w with
  | ptr elem =>
    cases elem with
    | none => cases hshape
    | some w => exact ⟨w, hw⟩
  | _ => cases hshape

/-- A pointer on the way to something is not nil. -/
theorem HasType.nonNil {R : Types} {v w : Value} {t : GoType} {idx index : List ℕ}
    (hv : HasType R v t) (hw : HasType R w t) (hobs : v.obs idx = some (.ptr true))
    (hpre : idx <+: index) (hne : idx ≠ index) {u : Value} (hu : w.get index = some u) :
    w.obs idx = some (.ptr true) := by
  obtain ⟨a, ha⟩ := Value.obs_eq_ptr.1 hobs
  obtain ⟨rest, rfl⟩ := hpre
  obtain ⟨j, rest, rfl⟩ := List.exists_cons_of_ne_nil fun h : rest = [] => hne (by simp [h])
  rw [Value.get_append, Option.bind_eq_some_iff] at hu
  obtain ⟨b, hb, hu⟩ := hu
  obtain ⟨t', ha', hb'⟩ := hv.get hw ha hb
  cases ha' with
  | ptr _ =>
    obtain ⟨elem, rfl⟩ := hb'.eq_ptr
    cases elem with
    | none => cases hu
    | some b => exact Value.obs_eq_ptr.2 ⟨b, hb⟩

/-! ## Values that are the same -/

/-- Values that are the same have the same fields, -/
theorem Same.fields {v w : Value} (h : Same v w) :
    (v.fields = none ∧ w.fields = none) ∨ ∃ l l', v.fields = some l ∧ w.fields = some l' ∧
      l.length = l'.length ∧ ∀ (i : ℕ) (v' w' : Value), l[i]? = some v' → l'[i]? = some w' →
        Same v' w' := by
  cases h with
  | leaf _ => exact .inl ⟨rfl, rfl⟩
  | struct hlen h => exact .inr ⟨_, _, rfl, rfl, hlen, h⟩
  | nil => exact .inl ⟨rfl, rfl⟩
  | ptr h =>
    cases h with
    | leaf _ => exact .inl ⟨rfl, rfl⟩
    | struct hlen h => exact .inr ⟨_, _, rfl, rfl, hlen, h⟩
    | nil => exact .inl ⟨rfl, rfl⟩
    | ptr _ => exact .inl ⟨rfl, rfl⟩

/-- and nothing in them can be told apart. -/
theorem Same.obs {v w : Value} (h : Same v w) (index : List ℕ) :
    (v.obs index).map Obs.normal = (w.obs index).map Obs.normal := by
  induction index generalizing v w with
  | nil =>
    cases h with
    | leaf h => simp [Value.shape, Obs.normal, h]
    | struct _ _ => rfl
    | nil => rfl
    | ptr _ => rfl
  | cons i index ih =>
    rcases h.fields with ⟨hv, hw⟩ | ⟨l, l', hv, hw, hlen, hl⟩
    · rw [Value.obs_cons_of_none hv, Value.obs_cons_of_none hw]
    · rw [Value.obs_cons hv, Value.obs_cons hw]
      by_cases hi : i < l.length
      · have hi' : i < l'.length := hlen ▸ hi
        rw [List.getElem?_eq_getElem hi, List.getElem?_eq_getElem hi']
        exact ih (hl i _ _ (List.getElem?_eq_getElem hi) (List.getElem?_eq_getElem hi'))
      · rw [List.getElem?_eq_none (not_lt.1 hi), List.getElem?_eq_none (hlen ▸ not_lt.1 hi)]

/-- Parameters that are observed to be the same. -/
theorem Value.leaf_of_obs {v w : Value} {x : Leaf}
    (h : (v.obs index).map Obs.normal = (w.obs index).map Obs.normal)
    (hx : v.get index = some (.leaf x)) :
    ∃ y, w.get index = some (.leaf y) ∧ x.normal = y.normal := by
  rw [obs_eq_leaf.2 hx, Option.map_some, eq_comm, Option.map_eq_some_iff] at h
  obtain ⟨o, ho, hnormal⟩ := h
  cases o with
  | leaf y =>
    rw [Obs.normal, Obs.normal, Obs.leaf.injEq] at hnormal
    exact ⟨y, obs_eq_leaf.1 ho, hnormal.symm⟩
  | _ => cases hnormal

theorem Value.ptr_of_obs {v w : Value}
    (h : (v.obs index).map Obs.normal = (w.obs index).map Obs.normal)
    (hx : v.obs index = some (.ptr true)) : w.obs index = some (.ptr true) := by
  rw [hx, Option.map_some, eq_comm, Option.map_eq_some_iff] at h
  obtain ⟨o, ho, hnormal⟩ := h
  cases o with
  | ptr nonNil =>
    cases hnormal
    exact ho
  | _ => cases hnormal

section Domain

variable {R : Types} {D : GoType → Prop} (hD : R.ParamTypes D)
include hD

/-- Values of a type are the same if their parameters are, and the same pointers are nil. -/
theorem same_of_agree {v w : Value} {t : GoType} (hv : HasType R v t) (ht : D t)
    (hw : HasType R w t)
    (hleaf : ∀ index x y, v.obs index = some (.leaf x) → w.obs index = some (.leaf y) →
      x.type = y.type → x.normal = y.normal)
    (hptr : ∀ index, v.obs index = some (.ptr true) ↔ w.obs index = some (.ptr true)) :
    Same v w := by
  induction hv generalizing w with
  | @leaf x t hx =>
    obtain ⟨y, rfl, hy⟩ := hw.eq_leaf ⟨x, hx⟩
    exact .leaf (hleaf [] x y rfl rfl (hx.trans hy.symm))
  | @struct s l hlen hfields ih =>
    obtain ⟨l', rfl⟩ := hw.eq_struct
    obtain ⟨hlen', hfields'⟩ := hw.fields rfl rfl
    refine .struct (hlen.trans hlen'.symm) fun i v w hv hw => ?_
    obtain ⟨hi, -⟩ := List.getElem?_eq_some_iff.1 hv
    have hsf := List.getElem?_eq_getElem (hlen ▸ hi)
    have hvobs (index : List ℕ) : v.obs index = (Value.struct l).obs (i :: index) := by
      rw [Value.obs_cons rfl, hv, Option.bind_some]
    have hwobs (index : List ℕ) : w.obs index = (Value.struct l').obs (i :: index) := by
      rw [Value.obs_cons rfl, hw, Option.bind_some]
    refine ih i _ v hsf hv (hD.fields _ s ht rfl _ (List.mem_of_getElem? hsf))
      (hfields' i _ w hsf hw) (fun index x y hx hy => ?_) fun index => ?_
    · exact hleaf (i :: index) x y (hvobs index ▸ hx) (hwobs index ▸ hy)
    · rw [hvobs, hwobs]
      exact hptr (i :: index)
  | nil =>
    obtain ⟨elem, rfl⟩ := hw.eq_ptr
    cases elem with
    | none => exact .nil
    | some w => exact absurd ((hptr []).2 rfl) (by simp [Value.shape])
  | @ptr s t v hv ih =>
    obtain ⟨elem, rfl⟩ := hw.eq_ptr
    cases elem with
    | none => exact absurd ((hptr []).1 rfl) (by simp [Value.shape])
    | some w =>
      obtain ⟨u, rfl⟩ := hD.elem_struct ht
      cases hw with
      | ptr hw =>
        obtain ⟨l, rfl⟩ := hv.eq_struct
        obtain ⟨l', rfl⟩ := hw.eq_struct
        -- The structs have the fields of the pointers to them.
        refine .ptr (ih (hD.elem s _ ht) hw (fun index x y hx hy => ?_) fun index => ?_)
        · cases index with
          | nil => exact absurd hx (by simp [Value.shape])
          | cons i index => exact hleaf (i :: index) x y hx hy
        · cases index with
          | nil => simp [Value.shape]
          | cons i index => exact hptr (i :: index)

/-! ## Zero values -/

variable (Z : Zeros R)

/-- Zero values have their types. -/
theorem hasType_zero {t : GoType} (ht : D t) : HasType R (Z.zero t) t := by
  -- By induction on the size of the value, as the type may lead back to itself
  -- through a pointer.
  induction hn : sizeOf (Z.zero t) using Nat.strongRecOn generalizing t with
  | _ n ih =>
    rcases hD.leaf_or_struct t ht with ⟨x, rfl⟩ | ⟨s, hs⟩
    · obtain ⟨y, hy, htype, -⟩ := Z.zero_leaf x
      rw [hy]
      exact .leaf htype
    · rcases GoType.deref_eq_struct hs with rfl | ⟨s', rfl⟩
      · rw [Z.zero_struct]
        refine .struct (by simp) fun i sf v hsf hv => ?_
        rw [List.getElem?_map, hsf, Option.map_some, Option.some.injEq] at hv
        subst hv
        have hmem := List.mem_of_getElem? hsf
        refine ih (sizeOf (Z.zero sf.type)) ?_ (hD.fields _ s ht rfl sf hmem) rfl
        rw [← hn, Z.zero_struct, Value.struct.sizeOf_spec]
        have hlt := List.sizeOf_lt_of_mem (List.mem_map_of_mem (f := fun sf => Z.zero sf.type) hmem)
        omega
      · rw [Z.zero_ptr]
        exact .nil

/-- What is observed of a zero value is zero. -/
theorem obs_zero {t : GoType} (ht : D t) (index : List ℕ) :
    (∀ x, (Z.zero t).obs index = some (.leaf x) → x.isZero = true) ∧
      (Z.zero t).obs index ≠ some (.ptr true) := by
  induction index generalizing t with
  | nil =>
    rcases hD.leaf_or_struct t ht with ⟨x, rfl⟩ | ⟨s, hs⟩
    · obtain ⟨y, hy, -, hzero⟩ := Z.zero_leaf x
      simp [hy, Value.shape, hzero]
    · rcases GoType.deref_eq_struct hs with rfl | ⟨s', rfl⟩
      · simp [Z.zero_struct, Value.shape]
      · simp [Z.zero_ptr, Value.shape]
  | cons i index ih =>
    rcases hD.leaf_or_struct t ht with ⟨x, rfl⟩ | ⟨s, hs⟩
    · obtain ⟨y, hy, -, -⟩ := Z.zero_leaf x
      rw [hy, Value.obs_cons_of_none rfl]
      simp
    · rcases GoType.deref_eq_struct hs with rfl | ⟨s', rfl⟩
      · rw [Z.zero_struct, Value.obs_cons rfl, List.getElem?_map]
        cases hsf : (R.fields s)[i]? with
        | none => simp
        | some sf => exact ih (hD.fields _ s ht rfl sf (List.mem_of_getElem? hsf))
      · rw [Z.zero_ptr, Value.obs_cons_of_none rfl]
        simp

end Domain

/-! ## Walking along an index sequence -/

namespace Types

variable (R : Types)

/-- The field at an index sequence, which leads to it through embedded structs. -/
inductive FieldPath : String → List ℕ → StructField → Prop
  | last {s : String} {i : ℕ} {sf : StructField} (hi : (R.fields s)[i]? = some sf) :
      FieldPath s [i] sf
  | step {s u : String} {i : ℕ} {sf sf' : StructField} {index : List ℕ}
      (hi : (R.fields s)[i]? = some sf) (he : sf.embeds = some u)
      (h : FieldPath u index sf') : FieldPath s (i :: index) sf'

/-- The sequence passes a pointer to an unexported struct. -/
def Blocked (s : String) (index : List ℕ) : Prop :=
  ∃ idx sf s' t, idx <+: index ∧ idx ≠ index ∧ R.FieldPath s idx sf ∧ sf.type = .ptr s' t ∧
    sf.exported = false

variable {R}

theorem Leads.fieldPath {s u : String} {index : List ℕ} {i : ℕ} {sf : StructField}
    (h : R.Leads s index u) (hi : (R.fields u)[i]? = some sf) :
    R.FieldPath s (index ++ [i]) sf := by
  induction h with
  | nil => exact .last hi
  | cons hj he _ ih => exact .step hj he (ih hi)

theorem FieldPath.ne_nil {s : String} {index : List ℕ} {sf : StructField}
    (h : R.FieldPath s index sf) : index ≠ [] := by
  cases h <;> simp

theorem FieldPath.mem_fields {s : String} {index : List ℕ} {sf : StructField}
    (h : R.FieldPath s index sf) : ∃ u, sf ∈ R.fields u := by
  induction h with
  | last hi => exact ⟨_, List.mem_of_getElem? hi⟩
  | step _ _ _ ih => exact ih

/-- A path leads to one field. -/
theorem FieldPath.unique {s : String} {index : List ℕ} {sf sf' : StructField}
    (h : R.FieldPath s index sf) (h' : R.FieldPath s index sf') : sf = sf' := by
  induction h with
  | last hi =>
    cases h' with
    | last hi' => exact Option.some.inj (hi.symm.trans hi')
    | step _ _ h => exact absurd rfl h.ne_nil
  | step hi he h ih =>
    cases h' with
    | last _ => exact absurd rfl h.ne_nil
    | step hi' he' h' =>
      obtain rfl := Option.some.inj (hi.symm.trans hi')
      obtain rfl := Option.some.inj (he.symm.trans he')
      exact ih h'

end Types

theorem StructField.deref_of_embeds {sf : StructField} {u : String} (h : sf.embeds = some u) :
    sf.type.deref = .struct u := by
  unfold embeds at h
  split_ifs at h
  cases ht : sf.type.deref <;> simp_all [GoType.struct?]

/-- The value at the index sequence of a field has the type of the field. -/
theorem HasType.get_fieldPath {R : Types} {v w : Value} {t : GoType} {s : String} {sf : StructField}
    (hv : HasType R v t) (hs : t.deref = .struct s) (hpath : R.FieldPath s index sf)
    (hw : v.get index = some w) : HasType R w sf.type := by
  induction hpath generalizing v t with
  | @last s i sf hi =>
    rw [Value.get, Option.bind_eq_some_iff] at hw
    obtain ⟨l, hl, hw⟩ := hw
    obtain ⟨u, hu, hw⟩ := Option.bind_eq_some_iff.1 hw
    cases hw
    exact (hv.fields hs hl).2 i sf _ hi hu
  | @step s u i sf sf' index hi he _ ih =>
    rw [Value.get, Option.bind_eq_some_iff] at hw
    obtain ⟨l, hl, hw⟩ := hw
    obtain ⟨v', hv', hw⟩ := Option.bind_eq_some_iff.1 hw
    exact ih ((hv.fields hs hl).2 i sf v' hi hv') (StructField.deref_of_embeds he) hw

section Walk

variable {R : Types} (Z : Zeros R)

/-- The pointer is made to point to a struct, if it is nil. -/
def Zeros.made (t : GoType) (canSet : Bool) (v : Value) : Except Failure Value :=
  match t, v with
  | .ptr _ t, .ptr none =>
    if canSet then .ok (.ptr (some (Z.zero t)))
    else .error (.error ("getSubv: cannot set embedded pointer to unexported struct: " ++ t.string))
  | _, v => .ok v

/-- `getSubv` that makes what is missing: the value as it is afterwards. -/
def Zeros.getSubv (t : GoType) (canSet : Bool) : List ℕ → Value → Except Failure Value
  | [], v => .ok v
  | i :: index, v => match Z.made t canSet v with
    | .error err => .error err
    | .ok v => match t.deref.struct?, v.fields with
      | some s, some l => match (R.fields s)[i]?, l[i]? with
        | some sf, some w => match getSubv sf.type sf.exported index w with
          | .error err => .error err
          | .ok w => .ok (v.withFields (l.set i w))
        | _, _ => .error (.panic "reflect: Field index out of range")
      | _, _ => .error (.panic "reflect: call of reflect.Value.Field on a value that is no struct")

variable {Z} {t : GoType} {s : String} {canSet : Bool} {v v₁ v' w w' : Value} {l : List Value}
  {i : ℕ} {index : List ℕ} {sf : StructField}

theorem Zeros.getSubv_cons (hmade : Z.made t canSet v = .ok v₁) (hs : t.deref = .struct s)
    (hl : v₁.fields = some l) (hi : (R.fields s)[i]? = some sf) (hw : l[i]? = some w) :
    Z.getSubv t canSet (i :: index) v =
      (Z.getSubv sf.type sf.exported index w).map fun w' => v₁.withFields (l.set i w') := by
  rw [getSubv, hmade]
  simp only [hs, GoType.struct?, hl, hi, hw]
  cases Z.getSubv sf.type sf.exported index w <;> rfl

/-- The struct behind a value is there, or has been made. -/
inductive Zeros.Enters (Z : Zeros R) (s : String) (v : Value) : Value → List Value → Prop
  | there {l : List Value} (hl : v.fields = some l) : Enters Z s v v l
  | made {v₁ : Value} (hv : v = .ptr none) (hshape : v₁.shape = .ptr true)
      (hl : v₁.fields = some ((R.fields s).map fun sf => Z.zero sf.type)) :
      Enters Z s v v₁ ((R.fields s).map fun sf => Z.zero sf.type)

theorem Zeros.Enters.fields (h : Z.Enters s v v₁ l) : v₁.fields = some l := by
  cases h with
  | there hl => exact hl
  | made _ _ hl => exact hl

/-- A field can be replaced by one of its type. -/
theorem HasType.step (hs : t.deref = .struct s) (hv : HasType R v₁ t) (hl : v₁.fields = some l)
    (hi : (R.fields s)[i]? = some sf) (hw : HasType R w' sf.type) :
    HasType R (v₁.withFields (l.set i w')) t := by
  obtain ⟨hlen, hfields⟩ := hv.fields hs hl
  refine hv.withFields hs hl (by simpa using hlen) fun j sf' u hsf' hu => ?_
  rw [List.getElem?_set] at hu
  split_ifs at hu with hj hlt
  · subst hj
    obtain rfl := Option.some.inj (hi.symm.trans hsf')
    obtain rfl := Option.some.inj hu
    exact hw
  · exact hfields j sf' u hsf' hu

theorem Zeros.Enters.shape_ne_leaf (h : Z.Enters s v v₁ l) (x : Leaf) : v.shape ≠ .leaf x := by
  cases h with
  | there hl => exact Value.shape_ne_leaf hl x
  | made hv _ _ =>
    subst hv
    simp [Value.shape]

section Domain

variable {D : GoType → Prop} (hD : R.ParamTypes D)
include hD

/-- A nil pointer is made to point to something, if it can be set. -/
theorem Zeros.made_cases (ht : D t) (hs : t.deref = .struct s) (hv : HasType R v t)
    (canSet : Bool) :
    (∃ v₁ l, Z.made t canSet v = .ok v₁ ∧ HasType R v₁ t ∧ Z.Enters s v v₁ l) ∨
      (v = .ptr none ∧ canSet = false ∧ (∃ s', t = .ptr s' (.struct s)) ∧
        ∃ err, Z.made t canSet v = .error (.error err)) := by
  rcases hv.nil_or_fields hs with rfl | ⟨l, hl⟩
  · -- A nil pointer: it can be set or not.
    obtain rfl | ⟨s', rfl⟩ := GoType.deref_eq_struct hs
    · obtain ⟨l, hl⟩ := hv.eq_struct
      cases hl
    · cases canSet with
      | false => exact .inr ⟨rfl, rfl, ⟨s', rfl⟩, _, rfl⟩
      | true =>
        refine .inl ⟨_, _, rfl, .ptr (hasType_zero hD Z (hD.elem s' _ ht)), .made rfl rfl ?_⟩
        rw [Z.zero_struct]
        rfl
  · refine .inl ⟨v, l, ?_, hv, .there hl⟩
    rcases Value.fields_eq_some hl with rfl | rfl <;> cases t <;> rfl

end Domain

/-! ### What the walk changes -/

/-- What the walk along an index sequence does to a value: parameters are as before, or
    zero, and only pointers along the sequence are made. -/
structure Created (index : List ℕ) (v v' : Value) : Prop where
  kept : ∀ idx x, v.obs idx = some (.leaf x) → v'.obs idx = some (.leaf x)
  leaf : ∀ idx x, v'.obs idx = some (.leaf x) → v.obs idx = some (.leaf x) ∨ x.isZero = true
  nonNil : ∀ idx, v'.obs idx = some (.ptr true) →
    v.obs idx = some (.ptr true) ∨ (idx <+: index ∧ idx ≠ index)
  reached : ∃ w, v'.get index = some w

theorem Created.refl (v : Value) : Created [] v v where
  kept _ _ h := h
  leaf _ _ h := .inl h
  nonNil _ h := .inl h
  reached := ⟨v, rfl⟩

section Domain

variable {D : GoType → Prop} (hD : R.ParamTypes D)
include hD

/-- What is observed of the fields of the struct is what was observed before, or zero. -/
theorem Zeros.Enters.obs (henter : Z.Enters s v v₁ l) (ht : D t) (hs : t.deref = .struct s)
    (j : ℕ) (idx : List ℕ) :
    (∀ o, v.obs (j :: idx) = some o → l[j]?.bind (Value.obs idx) = some o) ∧
      (∀ x, l[j]?.bind (Value.obs idx) = some (.leaf x) →
        v.obs (j :: idx) = some (.leaf x) ∨ x.isZero = true) ∧
      (l[j]?.bind (Value.obs idx) = some (.ptr true) → v.obs (j :: idx) = some (.ptr true)) := by
  cases henter with
  | there hl =>
    rw [Value.obs_cons hl]
    exact ⟨fun _ h => h, fun _ h => .inl h, fun h => h⟩
  | made hv _ _ =>
    subst hv
    rw [Value.obs_cons_of_none rfl, List.getElem?_map]
    cases hsf : (R.fields s)[j]? with
    | none => simp
    | some sf =>
      obtain ⟨hleaf, hptr⟩ :=
        obs_zero hD Z (hD.fields t s ht hs sf (List.mem_of_getElem? hsf)) idx
      exact ⟨fun _ h => by simp at h, fun x h => .inr (hleaf x h), fun h => absurd h hptr⟩

/-- What is created further down. -/
theorem Created.step (ht : D t) (hs : t.deref = .struct s) (henter : Z.Enters s v v₁ l)
    (hw : l[i]? = some w) (h : Created index w w') :
    Created (i :: index) v (v₁.withFields (l.set i w')) := by
  have hl := henter.fields
  obtain ⟨hlt, -⟩ := List.getElem?_eq_some_iff.1 hw
  -- Only the field that was entered differs from the struct as it was entered.
  have hafter := Value.obs_withFields_set hl hlt w'
  have hfield (idx : List ℕ) : l[i]?.bind (Value.obs idx) = w.obs idx := by
    rw [hw, Option.bind_some]
  refine ⟨fun idx x hx => ?_, fun idx x hx => ?_, fun idx hx => ?_, ?_⟩
  · cases idx with
    | nil => exact absurd (Option.some.inj hx) (henter.shape_ne_leaf x)
    | cons j idx =>
      have hbefore := (henter.obs hD ht hs j idx).1 _ hx
      rw [hafter]
      split_ifs with hj
      · subst hj
        exact h.kept idx x (hfield idx ▸ hbefore)
      · exact hbefore
  · cases idx with
    | nil =>
      rw [Value.obs_nil, Value.shape_withFields hl] at hx
      exact absurd (Option.some.inj hx) (Value.shape_ne_leaf hl x)
    | cons j idx =>
      obtain ⟨-, hbefore, -⟩ := henter.obs hD ht hs j idx
      rw [hafter] at hx
      split_ifs at hx with hj
      · subst hj
        rcases h.leaf idx x hx with hx | hx
        · exact hbefore x ((hfield idx).trans hx)
        · exact .inr hx
      · exact hbefore x hx
  · cases idx with
    | nil => exact .inr ⟨List.nil_prefix, by simp⟩
    | cons j idx =>
      obtain ⟨-, -, hbefore⟩ := henter.obs hD ht hs j idx
      rw [hafter] at hx
      split_ifs at hx with hj
      · subst hj
        rcases h.nonNil idx hx with hx | ⟨hpre, hne⟩
        · exact .inl (hbefore ((hfield idx).trans hx))
        · exact .inr ⟨List.cons_prefix_cons.2 ⟨rfl, hpre⟩, by simpa using hne⟩
      · exact .inl (hbefore hx)
  · obtain ⟨u, hu⟩ := h.reached
    refine ⟨u, ?_⟩
    rw [Value.get, Value.fields_withFields hl, Option.bind_some, List.getElem?_set_self hlt]
    exact hu

/-- A step of a walk that goes through. -/
theorem Zeros.getSubv_cons_eq_ok (ht : D t) (hs : t.deref = .struct s) (hv : HasType R v t)
    (hi : (R.fields s)[i]? = some sf) (h : Z.getSubv t canSet (i :: index) v = .ok v') :
    ∃ v₁ l w w', Z.made t canSet v = .ok v₁ ∧ HasType R v₁ t ∧ Z.Enters s v v₁ l ∧
      l[i]? = some w ∧ HasType R w sf.type ∧
      Z.getSubv sf.type sf.exported index w = .ok w' ∧ v' = v₁.withFields (l.set i w') := by
  rcases Z.made_cases hD ht hs hv canSet with ⟨v₁, l, hmade, hv₁, henter⟩ | ⟨-, -, -, err, hmade⟩
  · obtain ⟨hlen, hfields⟩ := hv₁.fields hs henter.fields
    obtain ⟨hlt, -⟩ := List.getElem?_eq_some_iff.1 hi
    have hw := List.getElem?_eq_getElem (hlen ▸ hlt)
    rw [getSubv_cons hmade hs henter.fields hi hw] at h
    cases hsub : Z.getSubv sf.type sf.exported index l[i] with
    | error err => simp [hsub, Except.map] at h
    | ok w' =>
      rw [hsub] at h
      exact ⟨v₁, l, _, w', hmade, hv₁, henter, hw, hfields i sf _ hi hw, hsub,
        (Except.ok.inj h).symm⟩
  · rw [getSubv, hmade] at h
    cases h

/-- A step of a walk at a pointer that can be set. -/
theorem Zeros.getSubv_cons_of_set (ht : D t) (hs : t.deref = .struct s) (hv : HasType R v t)
    (hset : ∀ s' u, t = .ptr s' u → canSet = true) (hi : (R.fields s)[i]? = some sf) :
    ∃ (v₁ : Value) (l : List Value) (w : Value),
      (∀ index w', Z.getSubv sf.type sf.exported index w = .ok w' →
        Z.getSubv t canSet (i :: index) v = .ok (v₁.withFields (l.set i w'))) ∧
        HasType R w sf.type := by
  rcases Z.made_cases hD ht hs hv canSet with
    ⟨v₁, l, hmade, hv₁, henter⟩ | ⟨-, hfalse, ⟨s', hptr⟩, -⟩
  · obtain ⟨hlen, hfields⟩ := hv₁.fields hs henter.fields
    obtain ⟨hlt, -⟩ := List.getElem?_eq_some_iff.1 hi
    have hw := List.getElem?_eq_getElem (hlen ▸ hlt)
    refine ⟨v₁, l, _, fun index w' hsub => ?_, hfields i sf _ hi hw⟩
    rw [getSubv_cons hmade hs henter.fields hi hw, hsub]
    rfl
  · exact absurd (hset _ _ hptr) (by simp [hfalse])

/-- The walk along an index sequence changes the value as described, if it goes through. -/
theorem created_getSubv (hpath : R.FieldPath s index sf) (ht : D t) (hs : t.deref = .struct s)
    (hv : HasType R v t) (h : Z.getSubv t canSet index v = .ok v') :
    HasType R v' t ∧ Created index v v' := by
  induction hpath generalizing t canSet v v' with
  | last hi =>
    obtain ⟨v₁, l, w, w', -, hv₁, henter, hw, hwtype, hsub, rfl⟩ :=
      Z.getSubv_cons_eq_ok hD ht hs hv hi h
    cases hsub
    exact ⟨hv₁.step hs henter.fields hi hwtype, .step hD ht hs henter hw (.refl w)⟩
  | step hi he _ ih =>
    obtain ⟨v₁, l, w, w', -, hv₁, henter, hw, hwtype, hsub, rfl⟩ :=
      Z.getSubv_cons_eq_ok hD ht hs hv hi h
    have hsf := hD.fields _ _ ht hs _ (List.mem_of_getElem? hi)
    obtain ⟨hwtype', hcreated⟩ := ih hsf (StructField.deref_of_embeds he) hwtype hsub
    exact ⟨hv₁.step hs henter.fields hi hwtype', .step hD ht hs henter hw hcreated⟩

/-- The walk goes through if no pointer on the way is one to an unexported struct. -/
theorem getSubv_isOk (hpath : R.FieldPath s index sf) (ht : D t) (hs : t.deref = .struct s)
    (hv : HasType R v t) (hset : ∀ s' u, t = .ptr s' u → canSet = true)
    (hblocked : ¬ R.Blocked s index) : ∃ v', Z.getSubv t canSet index v = .ok v' := by
  induction hpath generalizing t canSet v with
  | last hi =>
    obtain ⟨v₁, l, w, hsub, -⟩ := Z.getSubv_cons_of_set hD ht hs hv hset hi
    exact ⟨_, hsub [] w rfl⟩
  | @step s u i sf sf' index hi he hpath ih =>
    obtain ⟨v₁, l, w, hsub, hw⟩ := Z.getSubv_cons_of_set hD ht hs hv hset hi
    obtain ⟨w', hw'⟩ : ∃ w', Z.getSubv sf.type sf.exported index w = .ok w' := by
      refine ih (hD.fields _ _ ht hs _ (List.mem_of_getElem? hi)) (StructField.deref_of_embeds he)
        hw (fun s' u' hptr => ?_) ?_
      · by_contra hexp
        refine hblocked ⟨[i], sf, s', u', ?_, ?_, .last hi, hptr, by simpa using hexp⟩
        · exact List.cons_prefix_cons.2 ⟨rfl, List.nil_prefix⟩
        · simpa using hpath.ne_nil.symm
      · rintro ⟨idx, sf₁, s', u', hpre, hne, hpath', hptr, hexp⟩
        exact hblocked ⟨i :: idx, sf₁, s', u', List.cons_prefix_cons.2 ⟨rfl, hpre⟩,
          by simpa using hne, .step hi he hpath', hptr, hexp⟩
    exact ⟨_, hsub index w' hw'⟩

/-- If the walk goes through, the pointers to unexported structs on the way were there. -/
theorem nonNil_of_getSubv (hpath : R.FieldPath s index sf) (ht : D t) (hs : t.deref = .struct s)
    (hv : HasType R v t) (h : Z.getSubv t canSet index v = .ok v') {idx : List ℕ}
    {sf' : StructField} {s' : String} {u : GoType} (hpre : idx <+: index) (hne : idx ≠ index)
    (hpath' : R.FieldPath s idx sf') (hptr : sf'.type = .ptr s' u) (hexp : sf'.exported = false) :
    v.obs idx = some (.ptr true) := by
  induction hpath generalizing t canSet v v' idx with
  | @last s i sf hi =>
    -- Nothing but the empty sequence is a proper beginning of this one.
    obtain ⟨j, idx', rfl⟩ := List.exists_cons_of_ne_nil hpath'.ne_nil
    obtain ⟨rfl, hnil⟩ := List.cons_prefix_cons.1 hpre
    exact absurd (by rw [List.prefix_nil.1 hnil]) hne
  | @step s u₁ i sf sf₁ index hi he hpath ih =>
    obtain ⟨v₁, l, w, w', -, -, henter, hw, hwtype, hsub, -⟩ :=
      Z.getSubv_cons_eq_ok hD ht hs hv hi h
    -- It is enough to find the pointer from the first field on.
    suffices hfield : ∃ idx', idx = i :: idx' ∧ w.obs idx' = some (.ptr true) by
      obtain ⟨idx', rfl, hobs⟩ := hfield
      refine (henter.obs hD ht hs i idx').2.2 ?_
      rw [hw]
      exact hobs
    cases hpath' with
    | @last _ j _ hj =>
      obtain ⟨rfl, -⟩ := List.cons_prefix_cons.1 hpre
      obtain rfl := Option.some.inj (hi.symm.trans hj)
      refine ⟨[], rfl, ?_⟩
      rw [hptr] at hwtype
      cases hwtype with
      | @leaf x _ hx => cases x <;> simp [Leaf.type] at hx
      | nil =>
        -- A nil pointer that cannot be set.
        obtain ⟨j, index', rfl⟩ := List.exists_cons_of_ne_nil hpath.ne_nil
        rw [hptr, hexp] at hsub
        cases hsub
      | ptr _ => rfl
    | @step _ u₂ j sf₂ _ idx' hj he' hpath' =>
      obtain ⟨rfl, hpre'⟩ := List.cons_prefix_cons.1 hpre
      obtain rfl := Option.some.inj (hi.symm.trans hj)
      obtain rfl := Option.some.inj (he.symm.trans he')
      refine ⟨idx', rfl, ?_⟩
      exact ih (hD.fields _ _ ht hs _ (List.mem_of_getElem? hi)) (StructField.deref_of_embeds he)
        hwtype hsub hpre' (by simpa using hne) hpath'

end Domain

end Walk

end Apiserver.Rest
