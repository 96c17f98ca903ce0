import Apiserver.Go.LevelSearch
import Apiserver.Rest.RouteHandle

/-!
# The walk over the fields of a struct

Two packages find the fields of a struct from their tags: the parameter codec and the codec for
forms (`structfields.go` of `pkg/rest/parametercodec` and `pkg/rest/urlencoded`). Their
`typeFields` have the same text: a breadth-first search that walks the embedded structs level by
level and records a field with its index sequence, and a check that no two fields have one key.
What differs is what `getFieldProps` makes of a tag and what a duplicate panics with, which are
the parameters here (`FieldWalk`).

A struct type is told by its text; the fields of the struct types of the program are given by a
table (`Types`).

* `scanned_of_scanFields`, `mem_scanFields`: what comes of the fields of a struct;
* `collect_isOk_iff`: the search goes through if `getFieldProps` does for every struct that is
  embedded;
* `recordedIn_of_mem_collect`: what is found was recorded at an index sequence that leads to it;
* `typeFields_eq_ok_iff`: and it is accepted if no two fields have the same key.
-/

namespace Apiserver.Rest

open Go

/-- The value a call panics with. -/
abbrev Panic := String

/-- Why a call gives no value: it returns an error, or panics. -/
inductive Failure
  | error (err : Error)
  | panic (msg : Panic)
deriving DecidableEq

/-! ## Struct types -/

/-- A `reflect.StructField`. -/
structure StructField where
  name : String
  type : GoType
  anonymous : Bool := false
  /-- Whether `PkgPath` is empty. -/
  exported : Bool := true
  tags : List (String × String) := []

/-- `Tag.Get`. -/
def StructField.tag (sf : StructField) (key : String) : String := (sf.tags.lookup key).getD ""

/-- The struct types of the program, and what the codecs take from the Go library
    and golib. -/
structure Types where
  /-- The fields of a struct type, by its text. -/
  structs : AList fun _ : String => List StructField
  /-- The error of `strconv.ParseFloat`, if there is one. -/
  parseFloat : String → Option Error
  /-- `strings.ToLower`. -/
  toLower : String → String
  /-- `strings.ToUpper`. -/
  toUpper : String → String
  /-- `util.LowerCamelCasedName`. -/
  lowerCamelCasedName : String → String
  /-- The package and the name of a type, as `panicType` writes them. -/
  describe : GoType → String

/-- The type, or the one it points to. -/
def GoType.deref : GoType → GoType
  | .ptr _ t => t
  | t => t

/-- The text of a struct type. -/
def GoType.struct? : GoType → Option String
  | .struct s => some s
  | _ => none

namespace StructField

variable (sf : StructField)

/-- The struct that is embedded by a field, or by the pointer in it. -/
def embeds : Option String := if sf.anonymous then sf.type.deref.struct? else none

/-- The field is ignored for being unexported; an embedded struct is not, as it may
    have exported fields. -/
def Ignored : Prop := sf.exported = false ∧ sf.embeds = none

instance : Decidable sf.Ignored := inferInstanceAs (Decidable (_ ∧ _))

end StructField

/-! ## Tags -/

/-- `parseTag`: what is before the first comma, and after it. -/
def parseTag (tag : String) : String × String :=
  match cutList ',' tag.toList with
  | some (typ, opts) => (String.ofList typ, String.ofList opts)
  | none => (tag, "")

/-- `Contains`, for an option whose name is not empty. -/
def containsOption (opts option : String) : Bool := (split opts ',').contains option

/-- A struct to scan: an embedded one is told by the index sequence that leads to it. -/
structure Node where
  index : List ℕ
  struct : String

namespace Types

variable (R : Types)

/-- The error of a `maximum` or a `minimum` tag. -/
def limitError (v : String) : Option Error := if v = "" then none else R.parseFloat v

/-- The fields of a struct type. -/
def fields (s : String) : List StructField := (R.structs.lookup s).getD []

/-- The struct types embedded in one. -/
def embedded (s : String) : List String := (R.fields s).filterMap StructField.embeds

variable {R}

theorem embedded_eq_nil (s : String) (h : R.embedded s ≠ []) : s ∈ R.structs.keys := by
  by_contra hs
  refine h ?_
  rw [embedded, fields, AList.lookup_eq_none.2 (fun hmem => hs (AList.mem_keys.1 hmem))]
  rfl

variable (R) in
/-- An index sequence leads from a struct to one that is embedded in it. -/
inductive Leads : String → List ℕ → String → Prop
  | nil {s : String} : Leads s [] s
  | cons {s u v : String} {i : ℕ} {sf : StructField} {index : List ℕ}
      (hi : (R.fields s)[i]? = some sf) (he : sf.embeds = some u) (hv : Leads u index v) :
      Leads s (i :: index) v

theorem Leads.concat {s u v : String} {index : List ℕ} {i : ℕ} {sf : StructField}
    (h : R.Leads s index u) (hi : (R.fields u)[i]? = some sf) (he : sf.embeds = some v) :
    R.Leads s (index ++ [i]) v := by
  induction h with
  | nil => exact .cons hi he .nil
  | cons hj he' _ ih => exact .cons hj he' (ih hi)

variable (R) in
/-- The structs that are scanned for a struct type. -/
def Explored (s u : String) : Prop := LevelSearch.Reach R.embedded s u

theorem Leads.explored {s u : String} {index : List ℕ} (h : R.Leads s index u) :
    R.Explored s u := by
  induction h with
  | nil => exact .refl
  | cons hi he _ ih =>
    exact .head (List.mem_filterMap.2 ⟨_, List.mem_of_getElem? hi, he⟩) ih

end Types

/-! ## The walk -/

/-- What a package makes of the fields of a struct. -/
structure FieldWalk (π φ : Type) where
  getFieldProps : StructField → Except Panic π
  skip : π → Bool
  /-- The `field` that is recorded, with its type and its index sequence. -/
  field : π → GoType → List ℕ → φ
  key : φ → String
  /-- What `typeFields` panics with if another field has the key. -/
  duplicate : φ → Panic
  /-- An embedded struct is not skipped. -/
  embeds_of_skip : ∀ {sf props}, getFieldProps sf = .ok props → skip props = true →
    sf.embeds = none

namespace FieldWalk

variable {π φ : Type}

/-- A field twice if the struct was queued more than once, so that its key is seen to
    be a duplicate. -/
def copies (count : ℕ) (f : φ) : List φ := if count > 1 then [f, f] else [f]

variable (W : FieldWalk π φ)

/-- The field of a struct at an index. -/
def scanField (count : ℕ) (n : Node) (sf : StructField) (i : ℕ) :
    Except Panic (List φ × List Node) :=
  if sf.Ignored then .ok ([], [])
  else match W.getFieldProps sf with
    | .error err => .error err
    | .ok props =>
      if W.skip props then .ok ([], [])
      else
        let index := n.index ++ [i]
        match sf.embeds with
        | none => .ok (copies count (W.field props sf.type.deref index), [])
        -- An embedded field has no name of its own.
        | some s => .ok ([], [{ index, struct := s }])

/-- The fields of a struct from an index on. -/
def scanFields (count : ℕ) (n : Node) :
    List StructField → ℕ → Except Panic (List φ × List Node)
  | [], _ => .ok ([], [])
  | sf :: l, i => match W.scanField count n sf i with
    | .error err => .error err
    | .ok r => match scanFields count n l (i + 1) with
      | .error err => .error err
      | .ok r' => .ok (r.1 ++ r'.1, r.2 ++ r'.2)

/-- The search of `typeFields`. -/
def fieldSearch (R : Types) : LevelSearch Node String φ Panic where
  key := Node.struct
  scan count n := W.scanFields count n (R.fields n.struct) 0

/-- The fields that the loop of `typeFields` finds in a struct. -/
def collect (R : Types) (s : String) : Except Panic (List φ) :=
  ((W.fieldSearch R).search (R.structs.keys.length + 1) { index := [], struct := s }).map (·.found)

/-- The check of `typeFields` that no key is there twice. -/
def checkKeys : List φ → List String → Except Panic Unit
  | [], _ => .ok ()
  | f :: l, seen =>
    if W.key f ∈ seen then .error (W.duplicate f) else checkKeys l (W.key f :: seen)

/-- `typeFields` of a struct type. -/
def typeFields (R : Types) (s : String) : Except Panic (List φ) :=
  match W.collect R s with
  | .error err => .error err
  | .ok fields => match W.checkKeys fields [] with
    | .error err => .error err
    | .ok () => .ok fields

/-! ## Scanning a struct -/

/-- The field is recorded, with what its tag says. -/
structure Records (sf : StructField) (props : π) : Prop where
  not_ignored : ¬ sf.Ignored
  ok : W.getFieldProps sf = .ok props
  skip : W.skip props = false
  embeds : sf.embeds = none

/-- The field does not make the search panic. -/
def FieldOk (sf : StructField) : Prop := sf.Ignored ∨ ∃ props, W.getFieldProps sf = .ok props

/-- What scanning a field gives. -/
inductive Scanned (count : ℕ) (n : Node) (sf : StructField) (i : ℕ) :
    List φ × List Node → Prop
  | skipped (hr : ∀ props, ¬ W.Records sf props) (he : sf.embeds = none) :
      Scanned count n sf i ([], [])
  | recorded {props : π} (hr : W.Records sf props) :
      Scanned count n sf i (copies count (W.field props sf.type.deref (n.index ++ [i])), [])
  | queued {s : String} (he : sf.embeds = some s) :
      Scanned count n sf i ([], [{ index := n.index ++ [i], struct := s }])

theorem mem_copies {count : ℕ} {f g : φ} : f ∈ copies count g ↔ f = g := by
  unfold copies
  split <;> simp

variable {W} {R : Types} {count : ℕ} {n : Node} {sf : StructField} {i : ℕ}

theorem Records.unique {props props' : π} (h : W.Records sf props) (h' : W.Records sf props') :
    props = props' := Except.ok.inj (h.ok.symm.trans h'.ok)

variable {r : List φ × List Node} {l : List StructField}

/-- What the scan of a field does. -/
theorem scanned_of_scanField (h : W.scanField count n sf i = .ok r) :
    W.Scanned count n sf i r := by
  unfold scanField at h
  by_cases hi : sf.Ignored
  · rw [if_pos hi] at h
    cases h
    exact .skipped (fun _ hr => hr.not_ignored hi) hi.2
  rw [if_neg hi] at h
  cases hprops : W.getFieldProps sf with
  | error err => simp [hprops] at h
  | ok props =>
    simp only [hprops] at h
    cases hskip : W.skip props with
    | true =>
      rw [hskip, if_pos rfl] at h
      cases h
      refine .skipped (fun props' hr => ?_) (W.embeds_of_skip hprops hskip)
      obtain rfl := Except.ok.inj (hprops.symm.trans hr.ok)
      exact Bool.false_ne_true (hr.skip.symm.trans hskip)
    | false =>
      rw [hskip, if_neg Bool.false_ne_true] at h
      cases he : sf.embeds with
      | some s =>
        simp only [he] at h
        cases h
        exact .queued he
      | none =>
        simp only [he] at h
        cases h
        exact .recorded ⟨hi, hprops, hskip, he⟩

/-- The scan of a field fails on its tag only. -/
theorem scanField_isOk_iff : (∃ r, W.scanField count n sf i = .ok r) ↔ W.FieldOk sf := by
  rw [FieldOk, scanField]
  by_cases hi : sf.Ignored
  · rw [if_pos hi]
    exact iff_of_true ⟨_, rfl⟩ (.inl hi)
  rw [if_neg hi, or_iff_right hi]
  cases hprops : W.getFieldProps sf with
  | error err => simp
  | ok props =>
    refine iff_of_true ?_ ⟨props, rfl⟩
    dsimp only
    split_ifs
    · exact ⟨_, rfl⟩
    · cases sf.embeds <;> exact ⟨_, rfl⟩

/-- Scanning some fields is scanning the first and the rest. -/
theorem scanFields_cons_eq_ok :
    W.scanFields count n (sf :: l) i = .ok r ↔
      ∃ r₁ r₂, W.scanField count n sf i = .ok r₁ ∧ W.scanFields count n l (i + 1) = .ok r₂ ∧
        r = (r₁.1 ++ r₂.1, r₁.2 ++ r₂.2) := by
  rw [scanFields]
  cases W.scanField count n sf i with
  | error err => simp
  | ok r₁ =>
    cases W.scanFields count n l (i + 1) with
    | error err => simp
    | ok r₂ => simp [eq_comm]

/-- The scan goes through if all fields do. -/
theorem scanFields_isOk_iff :
    (∃ r, W.scanFields count n l i = .ok r) ↔ ∀ sf ∈ l, W.FieldOk sf := by
  induction l generalizing i with
  | nil => simp [scanFields]
  | cons sf l ih =>
    have hsf : (∃ r, W.scanField count n sf i = .ok r) ↔ W.FieldOk sf := scanField_isOk_iff
    rw [List.forall_mem_cons, ← ih (i := i + 1), ← hsf]
    simp only [scanFields_cons_eq_ok]
    constructor
    · rintro ⟨_, r₁, r₂, h₁, h₂, -⟩
      exact ⟨⟨r₁, h₁⟩, r₂, h₂⟩
    · rintro ⟨⟨r₁, h₁⟩, r₂, h₂⟩
      exact ⟨_, r₁, r₂, h₁, h₂, rfl⟩

/-- The structs that are queued are the ones embedded. -/
theorem struct_scanFields (h : W.scanFields count n l i = .ok r) :
    r.2.map Node.struct = l.filterMap StructField.embeds := by
  induction l generalizing i r with
  | nil =>
    cases h
    rfl
  | cons sf l ih =>
    obtain ⟨r₁, r₂, h₁, h₂, rfl⟩ := scanFields_cons_eq_ok.1 h
    rw [List.map_append, ih h₂]
    cases scanned_of_scanField h₁ with
    | skipped _ he => simp [he]
    | recorded hr => simp [hr.embeds]
    | queued he => simp [he]

theorem uniform_fieldSearch :
    (W.fieldSearch R).Uniform (fun s => ∀ sf ∈ R.fields s, W.FieldOk sf) R.embedded where
  isOk _ _ := scanFields_isOk_iff
  children _ _ _ h := struct_scanFields h

/-- What scanning some fields gives comes from one of them. -/
theorem scanned_of_scanFields (h : W.scanFields count n l i = .ok r) :
    (∀ f ∈ r.1, ∃ j sf r', l[j]? = some sf ∧ W.Scanned count n sf (i + j) r' ∧ f ∈ r'.1) ∧
      (∀ m ∈ r.2, ∃ j sf r', l[j]? = some sf ∧ W.Scanned count n sf (i + j) r' ∧ m ∈ r'.2) := by
  induction l generalizing i r with
  | nil =>
    cases h
    simp
  | cons sf l ih =>
    obtain ⟨r₁, r₂, h₁, h₂, rfl⟩ := scanFields_cons_eq_ok.1 h
    obtain ⟨ihf, ihm⟩ := ih h₂
    have hnext (j : ℕ) : i + 1 + j = i + (j + 1) := by omega
    refine ⟨fun f hf => ?_, fun m hm => ?_⟩
    · rcases List.mem_append.1 hf with hf | hf
      · exact ⟨0, sf, r₁, rfl, scanned_of_scanField h₁, hf⟩
      · obtain ⟨j, sf', r', hj, hs, hf⟩ := ihf f hf
        exact ⟨j + 1, sf', r', hj, hnext j ▸ hs, hf⟩
    · rcases List.mem_append.1 hm with hm | hm
      · exact ⟨0, sf, r₁, rfl, scanned_of_scanField h₁, hm⟩
      · obtain ⟨j, sf', r', hj, hs, hm⟩ := ihm m hm
        exact ⟨j + 1, sf', r', hj, hnext j ▸ hs, hm⟩

/-- A field to record is found. -/
theorem mem_scanFields {props : π} (h : W.scanFields count n l i = .ok r) (hsf : sf ∈ l)
    (hr : W.Records sf props) :
    ∃ index, W.field props sf.type.deref index ∈ r.1 := by
  induction l generalizing i r with
  | nil => cases hsf
  | cons sf' l ih =>
    obtain ⟨r₁, r₂, h₁, h₂, rfl⟩ := scanFields_cons_eq_ok.1 h
    rcases List.mem_cons.1 hsf with rfl | hsf
    · cases scanned_of_scanField h₁ with
      | skipped hno _ => exact absurd hr (hno props)
      | recorded hr' =>
        obtain rfl := hr.unique hr'
        exact ⟨_, List.mem_append_left _ (mem_copies.2 rfl)⟩
      | queued he => exact absurd (hr.embeds.symm.trans he) (by simp)
    · obtain ⟨index, hmem⟩ := ih h₂ hsf
      exact ⟨index, List.mem_append_right _ hmem⟩

/-- A struct that a field embeds is queued. -/
theorem queued_scanFields {j : ℕ} {u : String} (h : W.scanFields count n l i = .ok r)
    (hj : l[j]? = some sf) (he : sf.embeds = some u) :
    { index := n.index ++ [i + j], struct := u } ∈ r.2 := by
  induction l generalizing i j r with
  | nil => cases hj
  | cons sf' l ih =>
    obtain ⟨r₁, r₂, h₁, h₂, rfl⟩ := scanFields_cons_eq_ok.1 h
    cases j with
    | zero =>
      obtain rfl : sf' = sf := Option.some.inj hj
      cases scanned_of_scanField h₁ with
      | skipped _ he' => exact absurd (he'.symm.trans he) (by simp)
      | recorded hr => exact absurd (hr.embeds.symm.trans he) (by simp)
      | queued he' =>
        obtain rfl := Option.some.inj (he'.symm.trans he)
        exact List.mem_append_left _ List.mem_cons_self
    | succ j =>
      have hnext : i + (j + 1) = i + 1 + j := by omega
      rw [hnext]
      exact List.mem_append_right _ (ih h₂ hj)

/-- A node is queued for a field that embeds its struct. -/
theorem embeds_of_mem_scanFields {m : Node} (h : W.scanFields count n l i = .ok r)
    (hm : m ∈ r.2) :
    ∃ j sf, l[j]? = some sf ∧ sf.embeds = some m.struct ∧ m.index = n.index ++ [i + j] := by
  obtain ⟨j, sf, r', hj, hscanned, hm⟩ := (scanned_of_scanFields h).2 m hm
  cases hscanned with
  | skipped _ _ => cases hm
  | recorded _ => cases hm
  | queued he =>
    obtain rfl := List.mem_singleton.1 hm
    exact ⟨j, sf, hj, he, rfl⟩

/-! ## What the search finds -/

theorem leads_of_reached {s : String}
    (h : (W.fieldSearch R).Reached { index := [], struct := s } n) :
    R.Leads s n.index n.struct := by
  induction h with
  | root => exact .nil
  | @child n m c r _ hscan hm ih =>
    obtain ⟨j, sf, hj, he, hindex⟩ := embeds_of_mem_scanFields hscan hm
    rw [hindex, Nat.zero_add]
    exact ih.concat hj he

variable (W R) in
/-- The field was recorded at its index sequence in a struct. -/
inductive RecordedIn (s : String) : φ → Prop
  | mk {u : String} {index : List ℕ} {i : ℕ} {sf : StructField} {props : π}
      (hu : R.Leads s index u) (hi : (R.fields u)[i]? = some sf) (hr : W.Records sf props) :
      RecordedIn s (W.field props sf.type.deref (index ++ [i]))

theorem collect_eq_ok {s : String} {l : List φ} (h : W.collect R s = .ok l) :
    ∃ st, (W.fieldSearch R).search (R.structs.keys.length + 1) { index := [], struct := s } =
      .ok st ∧ st.found = l := map_eq_ok h

/-- The search goes through if the tags of all structs that are scanned are well
    formed, and only then. -/
theorem collect_isOk_iff (s : String) :
    (∃ l, W.collect R s = .ok l) ↔ ∀ u, R.Explored s u → ∀ sf ∈ R.fields u, W.FieldOk sf := by
  have hsearch : (∃ st, (W.fieldSearch R).search (R.structs.keys.length + 1)
      { index := [], struct := s } = .ok st) ↔
        ∀ u, R.Explored s u → ∀ sf ∈ R.fields u, W.FieldOk sf :=
    LevelSearch.search_isOk_iff uniform_fieldSearch Types.embedded_eq_nil
  rw [← hsearch]
  constructor
  · rintro ⟨l, h⟩
    obtain ⟨st, hst, -⟩ := collect_eq_ok h
    exact ⟨st, hst⟩
  · rintro ⟨st, hst⟩
    exact ⟨st.found, by rw [collect, hst]; rfl⟩

/-- What is found is recorded in a struct that is embedded. -/
theorem recordedIn_of_mem_collect {s : String} {l : List φ} (h : W.collect R s = .ok l)
    {f : φ} (hf : f ∈ l) : W.RecordedIn R s f := by
  obtain ⟨st, hst, rfl⟩ := collect_eq_ok h
  obtain ⟨n, c, r, hn, hscan, hf⟩ := LevelSearch.Found.of_mem uniform_fieldSearch hst hf
  obtain ⟨j, sf, r', hj, hscanned, hf⟩ := (scanned_of_scanFields hscan).1 f hf
  cases hscanned with
  | skipped _ _ => cases hf
  | recorded hr =>
    rw [mem_copies.1 hf, Nat.zero_add]
    exact .mk (leads_of_reached hn) hj hr
  | queued _ => cases hf

/-- A field to record of a struct that is scanned is found. -/
theorem mem_collect {s u : String} {l : List φ} {props : π} (h : W.collect R s = .ok l)
    (hu : R.Explored s u) (hsf : sf ∈ R.fields u) (hr : W.Records sf props) :
    ∃ index, W.field props sf.type.deref index ∈ l := by
  obtain ⟨st, hst, rfl⟩ := collect_eq_ok h
  obtain ⟨n, c, r, -, rfl, hscan, hsub⟩ :=
    LevelSearch.found_of_reach uniform_fieldSearch Types.embedded_eq_nil hst hu
  obtain ⟨index, hmem⟩ := mem_scanFields hscan hsf hr
  exact ⟨index, hsub _ hmem⟩

/-! ## Keys -/

theorem checkKeys_eq_ok_iff (l : List φ) (seen : List String) :
    W.checkKeys l seen = .ok () ↔ (l.map W.key).Nodup ∧ ∀ f ∈ l, W.key f ∉ seen := by
  induction l generalizing seen with
  | nil => simp [checkKeys]
  | cons f l ih =>
    rw [checkKeys, List.map_cons, List.nodup_cons, List.forall_mem_cons]
    by_cases hf : W.key f ∈ seen
    · simp [hf]
    · rw [if_neg hf, ih]
      simp only [List.mem_map, List.mem_cons, not_or, not_exists, not_and]
      grind

/-- It is accepted if no two fields have one key. -/
theorem typeFields_eq_ok_iff {s : String} {l : List φ} :
    W.typeFields R s = .ok l ↔ W.collect R s = .ok l ∧ (l.map W.key).Nodup := by
  unfold typeFields
  cases hcollect : W.collect R s with
  | error err => simp
  | ok l' =>
    have hkeys := W.checkKeys_eq_ok_iff l' []
    simp only [List.not_mem_nil, not_false_iff, implies_true, and_true] at hkeys
    cases hcheck : W.checkKeys l' [] with
    | error err =>
      simp only [hcheck, reduceCtorEq, false_iff] at hkeys ⊢
      rintro ⟨hl, hnodup⟩
      cases hl
      exact hkeys hnodup
    | ok _ =>
      simp only [hcheck, true_iff] at hkeys
      simp only [hcheck, Except.ok.injEq]
      refine ⟨?_, And.left⟩
      rintro rfl
      exact ⟨rfl, hkeys⟩

end FieldWalk

end Apiserver.Rest
