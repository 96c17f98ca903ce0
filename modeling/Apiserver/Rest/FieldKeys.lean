import Apiserver.Go.LevelOrder
import Apiserver.Rest.TypeFields
import Mathlib.Data.List.Lex
import Mathlib.Data.List.Sigma
import Mathlib.Data.Prod.Lex

/-!
# The keys of the fields that are found

What the search of `typeFields` records of a struct, and when it panics for a key that two fields
have. It scans a struct type once, on a shortest index sequence to it, the first of them in the
order of the fields, and counts how often the types of the level above embed it. A field of a type
that was counted twice is recorded twice, so that its key clashes with itself.

* `Record`, `exists_record`: what is recorded, visit by visit;
* `typeFields_outcome`: what comes of a struct: a panic for a tag that is malformed, one for a key
  that clashes, or the fields that are recorded, at shortest index sequences;
* `PanicsOn.firstRepeat`: the key that it panics for is the first that is repeated, in the order
  of the index sequences;
* `validateParamType_cases`: what `ValidateParamType` does to a type of any kind.
-/

namespace Apiserver.Rest

open Go

/-! ## Fields -/

namespace StructField

variable {sf : StructField}

/-- The field is exported and has a `param` tag. -/
def Tagged (sf : StructField) : Prop := sf.exported = true ∧ ¬ sf.Untagged

instance (sf : StructField) : Decidable sf.Records := inferInstanceAs (Decidable (_ ∧ _))

theorem Records.embeds (h : sf.Records) : sf.embeds = none := by
  by_cases ha : sf.anonymous = true
  · simpa [ha] using h.2
  · exact if_neg ha

/-- A field that is recorded with a key has a tag. -/
theorem Records.tagged {R : Types} {props : FieldProps} (h : sf.Records)
    (hprops : R.getFieldProps sf = .ok props) (hkey : props.key ≠ "") : sf.Tagged := by
  obtain ⟨hexp, hr⟩ := h
  by_cases ha : sf.anonymous = true
  · rw [Types.getFieldProps, if_pos ha] at hprops
    cases hprops
    exact absurd rfl hkey
  · rw [if_neg ha] at hr
    exact ⟨hexp, hr⟩

end StructField

/-! ## The order of index sequences -/

/-- An index sequence comes before another: it is shorter, or as long and less where they first
    differ. -/
def Precedes (p q : List ℕ) : Prop := p.length < q.length ∨ p.length = q.length ∧ p < q

namespace Precedes

variable {p q r : List ℕ}

theorem iff_lt : Precedes p q ↔ toLex (p.length, p) < toLex (q.length, q) :=
  (Prod.Lex.toLex_lt_toLex (x := (p.length, p)) (y := (q.length, q))).symm

theorem trans (h : Precedes p q) (h' : Precedes q r) : Precedes p r :=
  iff_lt.2 (lt_trans (iff_lt.1 h) (iff_lt.1 h'))

theorem irrefl (p : List ℕ) : ¬ Precedes p p := fun h => lt_irrefl _ (iff_lt.1 h)

/-- Sequences that go on from two in order are in order. -/
theorem append (h : Precedes p q) (i j : ℕ) : Precedes (p ++ [i]) (q ++ [j]) := by
  have hlex {p q : List ℕ} (hlen : p.length = q.length) (h : p < q) : p ++ [i] < q ++ [j] := by
    induction p generalizing q with
    | nil => cases q <;> simp_all
    | cons a p ih =>
      cases q with
      | nil => cases hlen
      | cons b q =>
        rw [List.cons_lt_cons_iff] at h
        rw [List.cons_append, List.cons_append, List.cons_lt_cons_iff]
        exact h.imp_right fun h => ⟨h.1, ih (Nat.succ.inj hlen) h.2⟩
  rcases h with h | ⟨hlen, h⟩
  · exact .inl (by simpa using h)
  · exact .inr ⟨by simpa using hlen, hlex hlen h⟩

theorem concat {i j : ℕ} (h : i < j) (p : List ℕ) : Precedes (p ++ [i]) (p ++ [j]) := by
  refine .inr ⟨by simp, ?_⟩
  induction p with
  | nil => exact List.cons_lt_cons_iff.2 (.inl h)
  | cons a p ih => exact List.cons_lt_cons_iff.2 (.inr ⟨rfl, ih⟩)

end Precedes

namespace Types

variable {R : Types} {s u v : String} {index index' : List ℕ} {d i : ℕ}

/-! ## Index sequences -/

theorem Leads.unique (h : R.Leads s index u) (h' : R.Leads s index v) : u = v := by
  induction h with
  | nil =>
    cases h'
    rfl
  | cons hi he _ ih =>
    cases h' with
    | cons hi' he' h' =>
      obtain rfl := Option.some.inj (hi.symm.trans hi')
      obtain rfl := Option.some.inj (he.symm.trans he')
      exact ih h'

theorem Leads.reachIn (h : R.Leads s index u) :
    LevelSearch.ReachIn R.embedded s index.length u := by
  induction h with
  | nil => exact .zero
  | cons hi he _ ih =>
    exact .head (List.mem_filterMap.2 ⟨_, List.mem_of_getElem? hi, he⟩) ih

/-- The last step of an index sequence. -/
theorem Leads.exists_last (h : R.Leads s (index ++ [i]) u) :
    ∃ k sf, R.Leads s index k ∧ (R.fields k)[i]? = some sf ∧ sf.embeds = some u := by
  induction index generalizing s with
  | nil =>
    cases h with
    | cons hi he h =>
      cases h
      exact ⟨s, _, .nil, hi, he⟩
  | cons j index ih =>
    cases h with
    | cons hj he' h =>
      obtain ⟨k, sf, hk, hi, he⟩ := ih h
      exact ⟨k, sf, .cons hj he' hk, hi, he⟩

/-- Nodes are reached along index sequences. -/
theorem leads_of_reachedIn {n : Node}
    (h : R.fieldSearch.ReachedIn { index := [], struct := s } d n) :
    R.Leads s n.index n.struct ∧ n.index.length = d := by
  induction h with
  | root => exact ⟨.nil, rfl⟩
  | @child d n m c r _ hscan hm ih =>
    obtain ⟨j, sf, hj, he, hindex⟩ := FieldWalk.embeds_of_mem_scanFields hscan hm
    rw [hindex, Nat.zero_add]
    exact ⟨ih.1.concat hj he, by simp [ih.2]⟩

/-- The index sequence leads to a struct, and none that is shorter does. -/
structure Shortest (R : Types) (s : String) (index : List ℕ) (u : String) : Prop where
  leads : R.Leads s index u
  le : ∀ index', R.Leads s index' u → index.length ≤ index'.length

theorem Leads.shortest (h : R.Leads s index u)
    (hdepth : LevelSearch.Depth R.embedded s u index.length) : R.Shortest s index u :=
  ⟨h, fun _ h' => hdepth.le _ h'.reachIn⟩

/-- The first of the index sequences that lead to a struct. -/
structure First (R : Types) (s : String) (index : List ℕ) (u : String) : Prop where
  leads : R.Leads s index u
  first : ∀ index', R.Leads s index' u → index' = index ∨ Precedes index index'

theorem First.shortest (h : R.First s index u) : R.Shortest s index u := by
  refine ⟨h.leads, fun index' h' => ?_⟩
  rcases h.first index' h' with rfl | hlt | ⟨hlen, -⟩
  · exact Nat.le_refl _
  · exact Nat.le_of_lt hlt
  · exact Nat.le_of_eq hlen

theorem First.unique (h : R.First s index u) (h' : R.First s index' u) : index = index' := by
  rcases h.first index' h'.leads with heq | hlt
  · exact heq.symm
  · rcases h'.first index h.leads with heq | hlt'
    · exact heq
    · exact absurd (hlt.trans hlt') (Precedes.irrefl _)

variable (R) in
/-- The struct type is embedded more than once in the types of the level above it. -/
def Crowded (s u : String) : Prop := LevelSearch.Crowded R.embedded s u

variable (R) in
/-- The field of a struct at an index is recorded with a key. -/
def KeyAt (s u : String) (i : ℕ) (key : String) : Prop :=
  R.Explored s u ∧ ∃ sf props, (R.fields u)[i]? = some sf ∧ sf.Records ∧
    R.getFieldProps sf = .ok props ∧ props.key = key

variable (R) in
/-- Two fields are recorded with the key, or one of a type that is embedded more than once. -/
def Clashes (s key : String) : Prop :=
  (∃ u i u' i', (u, i) ≠ (u', i') ∧ R.KeyAt s u i key ∧ R.KeyAt s u' i' key) ∨
    ∃ u i, R.Crowded s u ∧ R.KeyAt s u i key

variable {key : String}

variable (R) in
/-- What is listed is the field of a struct at an index, with a shortest index sequence. -/
def ListedAt (s : String) (f : Field) (u : String) (i : ℕ) : Prop :=
  ∃ index, R.Shortest s index u ∧ f.index = index ++ [i]

theorem ListedAt.unique {f : Field} {j : ℕ} (h : R.ListedAt s f u i) (h' : R.ListedAt s f v j) :
    u = v ∧ i = j := by
  obtain ⟨index, hu, hf⟩ := h
  obtain ⟨index', hv, hf'⟩ := h'
  obtain ⟨rfl, hij⟩ := List.append_inj' (hf.symm.trans hf') rfl
  exact ⟨hu.leads.unique hv.leads, List.singleton_inj.1 hij⟩

/-! ## What is recorded -/

variable (R) in
/-- What is recorded of a field of a node. -/
def entries (count : ℕ) (n : Node) (sf : StructField) (i : ℕ) : List Field :=
  if sf.Records then
    match R.getFieldProps sf with
    -- The scan fails, so that nothing is recorded at all.
    | .error _ => []
    | .ok props =>
      FieldWalk.copies count { props with type := sf.type.deref, index := n.index ++ [i] }
  else []

/-- What a scan of the fields finds. -/
theorem found_scanFields {count : ℕ} {n : Node} {l : List StructField}
    {r : List Field × List Node} (h : R.walk.scanFields count n l i = .ok r) :
    r.1 = (l.zipIdx i).flatMap fun p => R.entries count n p.1 p.2 := by
  induction l generalizing i r with
  | nil =>
    cases h
    rfl
  | cons sf l ih =>
    obtain ⟨r₁, r₂, h₁, h₂, rfl⟩ := FieldWalk.scanFields_cons_eq_ok.1 h
    rw [List.zipIdx_cons, List.flatMap_cons, ← ih h₂, entries]
    cases FieldWalk.scanned_of_scanField h₁ with
    | skipped hno _ =>
      split_ifs with hr
      · cases hprops : R.getFieldProps sf with
        | error err => rfl
        | ok props => exact absurd (records_iff.2 ⟨hr, hprops⟩) (hno props)
      · rfl
    | recorded hr =>
      obtain ⟨hr, hprops⟩ := records_iff.1 hr
      rw [if_pos hr, hprops]
      rfl
    | queued he =>
      have hno : ¬ sf.Records := fun hr => absurd (hr.embeds.symm.trans he) (by simp)
      rw [if_neg hno]

theorem mem_entries {count : ℕ} {n : Node} {sf : StructField} {f : Field} :
    f ∈ R.entries count n sf i ↔ sf.Records ∧ ∃ props, R.getFieldProps sf = .ok props ∧
      f = { props with type := sf.type.deref, index := n.index ++ [i] } := by
  unfold entries
  split_ifs with hr
  · cases hprops : R.getFieldProps sf with
    | error err => simp
    | ok props => simp [hr, FieldWalk.mem_copies]
  · simp [hr]

/-- The visit of a struct, and a field that was scanned. -/
abbrev Spot := LevelSearch.Visit Node Field × StructField × ℕ

/-- The struct of a spot, and the index of the field. -/
def Spot.place (p : Spot) : String × ℕ := (p.1.node.struct, p.2.2)

/-- The index sequence of the field. -/
def Spot.path (p : Spot) : List ℕ := p.1.node.index ++ [p.2.2]

variable (R) in
/-- The fields that were scanned, visit by visit. -/
def spots (log : List (LevelSearch.Visit Node Field)) : List Spot :=
  log.flatMap fun v => (R.fields v.node.struct).zipIdx.map (Prod.mk v)

variable (R) in
def Spot.entries (p : Spot) : List Field := R.entries p.1.count p.1.node p.2.1 p.2.2

/-- The visits that a list of fields was recorded in. -/
structure Record (R : Types) (s : String) (l : List Field)
    (log : List (LevelSearch.Visit Node Field)) : Prop where
  /-- Every struct is visited once, -/
  nodup : (log.map fun v => v.node.struct).Nodup
  mem : ∀ u, (u ∈ log.map fun v => v.node.struct) ↔ R.Explored s u
  /-- on the first way to it, in the order of these ways, -/
  first : ∀ v ∈ log, R.First s v.node.index v.node.struct
  sorted : log.Pairwise fun v w => Precedes v.node.index w.node.index
  count : ∀ v ∈ log, 1 < v.count ↔ R.Crowded s v.node.struct
  /-- and its fields are recorded. -/
  fields : l = (R.spots log).flatMap (Spot.entries R)

/-- The search keeps to the order of the index sequences. -/
theorem follows_fieldSearch :
    R.fieldSearch.Follows { index := [], struct := s }
      fun n m => Precedes n.index m.index where
  trans h h' := h.trans h'
  children {c n r} h := by
    replace h : R.walk.scanFields c n (R.fields n.struct) 0 = .ok r := h
    -- By induction on the fields, from any index on.
    generalize R.fields n.struct = l at h
    generalize 0 = i at h
    induction l generalizing i r with
    | nil =>
      cases h
      exact .nil
    | cons sf l ih =>
      obtain ⟨r₁, r₂, h₁, h₂, rfl⟩ := FieldWalk.scanFields_cons_eq_ok.1 h
      cases FieldWalk.scanned_of_scanField h₁ with
      | skipped _ _ => exact ih _ h₂
      | recorded _ => exact ih (r := r₂) _ h₂
      | queued he =>
        refine List.pairwise_cons.2 ⟨fun m hm => ?_, ih _ h₂⟩
        obtain ⟨j, -, -, -, hj⟩ := FieldWalk.embeds_of_mem_scanFields h₂ hm
        rw [hj]
        exact .concat (by omega) _
  mono h h' hlt x hx y hy := by
    obtain ⟨j, -, -, -, hj⟩ := FieldWalk.embeds_of_mem_scanFields h hx
    obtain ⟨k, -, -, -, hk⟩ := FieldWalk.embeds_of_mem_scanFields h' hy
    rw [hj, hk]
    exact hlt.append _ _
  levels h h' hlt := by
    obtain ⟨-, rfl⟩ := leads_of_reachedIn h
    obtain ⟨-, rfl⟩ := leads_of_reachedIn h'
    exact .inl hlt

/-- What is collected was recorded, visit by visit. -/
theorem exists_record {l : List Field} (h : R.collect s = .ok l) : ∃ log, R.Record s l log := by
  obtain ⟨st, hst, rfl⟩ := FieldWalk.collect_eq_ok h
  obtain ⟨log, hlog, hmem, hsorted, hcovers⟩ := LevelSearch.search_log
    FieldWalk.uniform_fieldSearch embedded_eq_nil follows_fieldSearch hst
  have hvisit {v : LevelSearch.Visit Node Field} (hv : v ∈ log) :
      R.Shortest s v.node.index v.node.struct := by
    obtain ⟨d, hreached, hdepth⟩ := (hlog.ok v hv).depth
    obtain ⟨hleads, rfl⟩ := leads_of_reachedIn hreached
    exact hleads.shortest hdepth
  -- By induction on the sequence: the struct above was visited on the first way to it.
  have hfirst (index : List ℕ) : ∀ u, R.Leads s index u → ∀ v ∈ log, v.node.struct = u →
      index = v.node.index ∨ Precedes v.node.index index := by
    induction index using List.reverseRecOn with
    | nil =>
      rintro u hu v hv rfl
      have hle := (hvisit hv).le [] hu
      exact .inl (List.length_eq_zero_iff.1 (Nat.le_zero.1 hle)).symm
    | append_singleton q i ih =>
      rintro u hu v hv rfl
      obtain ⟨k, sf, hk, hi, he⟩ := hu.exists_last
      obtain ⟨w, hw, rfl⟩ := List.mem_map.1 ((hmem k).2 hk.explored)
      obtain ⟨children, hscan⟩ := (hlog.ok w hw).scan
      obtain ⟨n, hn, hkey, hle⟩ :=
        hcovers w hw _ hscan _ (FieldWalk.queued_scanFields hscan hi he)
      obtain ⟨v', hv', rfl⟩ := List.mem_map.1 hn
      obtain rfl := List.inj_on_of_nodup_map hlog.nodup hv' hv hkey
      -- So the struct itself was visited no later than through it.
      have hthrough : v'.node.index = w.node.index ++ [i] ∨
          Precedes v'.node.index (w.node.index ++ [i]) := by
        rw [Nat.zero_add] at hle
        exact hle.imp_left (congrArg Node.index)
      rcases ih _ hk w hw rfl with rfl | hlt
      · exact hthrough.imp_left Eq.symm
      · refine .inr ?_
        rcases hthrough with heq | hlt'
        · rw [heq]
          exact hlt.append i i
        · exact hlt'.trans (hlt.append i i)
  rw [List.pairwise_map] at hsorted
  refine ⟨log, hlog.nodup, hmem, fun v hv => ⟨(hvisit hv).leads, fun index' h' => ?_⟩,
    hsorted, fun v hv => (hlog.ok v hv).count, ?_⟩
  · exact hfirst index' _ h' v hv rfl
  · rw [hlog.found, spots, List.flatMap_assoc]
    refine List.flatMap_congr fun v hv => ?_
    obtain ⟨children, hscan⟩ := (hlog.ok v hv).scan
    rw [List.flatMap_map]
    exact found_scanFields hscan

theorem mem_spots {log : List (LevelSearch.Visit Node Field)} {p : Spot} :
    p ∈ R.spots log ↔ p.1 ∈ log ∧ (R.fields p.1.node.struct)[p.2.2]? = some p.2.1 := by
  simp only [spots, List.mem_flatMap, List.mem_map]
  constructor
  · rintro ⟨v, hv, q, hq, rfl⟩
    exact ⟨hv, List.mem_zipIdx_iff_getElem?.1 hq⟩
  · rintro ⟨hv, hi⟩
    exact ⟨p.1, hv, p.2, List.mem_zipIdx_iff_getElem?.2 hi, rfl⟩

namespace Record

variable {l : List Field} {log : List (LevelSearch.Visit Node Field)} (h : R.Record s l log)
include h

theorem explored {p : Spot} (hp : p ∈ R.spots log) : R.Explored s p.1.node.struct :=
  (h.mem _).1 (List.mem_map_of_mem (mem_spots.1 hp).1)

/-- A field of a struct that is explored was scanned. -/
theorem exists_spot {sf : StructField} (hu : R.Explored s u) (hi : (R.fields u)[i]? = some sf) :
    ∃ v ∈ log, v.node.struct = u ∧ (v, sf, i) ∈ R.spots log := by
  obtain ⟨v, hv, rfl⟩ := List.mem_map.1 ((h.mem u).2 hu)
  exact ⟨v, hv, rfl, mem_spots.2 ⟨hv, hi⟩⟩

/-- Every field is scanned once. -/
theorem nodup_places : ((R.spots log).map Spot.place).Nodup := by
  rw [spots, List.map_flatMap, List.nodup_flatMap]
  refine ⟨fun v _ => ?_, (List.pairwise_map.1 h.nodup).imp fun {v w} hne => ?_⟩
  · have hplace : ((R.fields v.node.struct).zipIdx.map (Prod.mk v)).map Spot.place =
        ((R.fields v.node.struct).zipIdx.map Prod.snd).map (Prod.mk v.node.struct) := by
      rw [List.map_map, List.map_map]
      rfl
    rw [hplace]
    exact (List.nodup_zipIdx_map_snd _).map (Prod.mk_right_injective _)
  · -- The spots of two visits are of different structs.
    intro q hq hq'
    simp only [List.map_map, List.mem_map] at hq hq'
    obtain ⟨a, -, rfl⟩ := hq
    obtain ⟨b, -, hb⟩ := hq'
    exact hne (congrArg Prod.fst hb).symm

theorem spot_ext {p q : Spot} (hp : p ∈ R.spots log) (hq : q ∈ R.spots log)
    (heq : p.place = q.place) : p = q :=
  List.inj_on_of_nodup_map h.nodup_places hp hq heq

/-- A field with a key is at a spot that records it. -/
theorem keyAt_iff {key : String} : R.KeyAt s u i key ↔
    ∃ p ∈ R.spots log, p.place = (u, i) ∧ ∃ f ∈ p.entries R, f.key = key := by
  constructor
  · rintro ⟨hu, sf, props, hi, hr, hprops, rfl⟩
    obtain ⟨v, -, rfl, hp⟩ := h.exists_spot hu hi
    exact ⟨(v, sf, i), hp, rfl, _, mem_entries.2 ⟨hr, props, hprops, rfl⟩, rfl⟩
  · rintro ⟨p, hp, hplace, f, hf, rfl⟩
    obtain ⟨rfl, rfl⟩ := Prod.mk.inj hplace
    obtain ⟨hr, props, hprops, rfl⟩ := mem_entries.1 hf
    exact ⟨h.explored hp, p.2.1, props, (mem_spots.1 hp).2, hr, hprops, rfl⟩

theorem mem_iff {f : Field} : f ∈ l ↔ ∃ p ∈ R.spots log, f ∈ p.entries R := by
  rw [h.fields, List.mem_flatMap]

omit h in
/-- A key is recorded of a spot at most once, unless the struct was counted twice. -/
theorem pairwise_entries (p : Spot) (key : String) :
    ((p.entries R).Pairwise fun f g => f.key = key → g.key ≠ key) ↔
      (1 < p.1.count → ∀ f ∈ p.entries R, f.key ≠ key) := by
  unfold Spot.entries entries FieldWalk.copies
  split_ifs with hr hcount
  · cases R.getFieldProps p.2.1 <;> simp [hcount]
  · cases R.getFieldProps p.2.1 <;> simp [hcount]
  · simp

/-- A key that is there twice clashes. -/
theorem pairwise_iff (key : String) :
    (l.Pairwise fun f g => f.key = key → g.key ≠ key) ↔ ¬ R.Clashes s key := by
  rw [h.fields, List.pairwise_flatMap]
  constructor
  · -- A key that clashes is at two spots, or at one that is recorded twice.
    rintro ⟨hself, hpairs⟩ (⟨u, i, u', i', hne, hu, hu'⟩ | ⟨u, i, hcrowded, hu⟩)
    · obtain ⟨p, hp, hplace, f, hf, hfkey⟩ := h.keyAt_iff.1 hu
      obtain ⟨q, hq, hplace', g, hg, hgkey⟩ := h.keyAt_iff.1 hu'
      have hsymm : Std.Symm fun p q : Spot =>
          ∀ f ∈ p.entries R, ∀ g ∈ q.entries R, f.key = key → g.key ≠ key :=
        ⟨fun p q hpq g hg f hf hgkey hfkey => hpq f hf g hg hfkey hgkey⟩
      refine hpairs.forall hp hq (fun heq => hne ?_) f hf g hg hfkey hgkey
      rw [← hplace, heq, hplace']
    · obtain ⟨p, hp, hplace, f, hf, hfkey⟩ := h.keyAt_iff.1 hu
      obtain ⟨rfl, rfl⟩ := Prod.mk.inj hplace
      have hcount := (h.count p.1 (mem_spots.1 hp).1).2 hcrowded
      exact (pairwise_entries p key).1 (hself p hp) hcount f hf hfkey
  · intro hno
    have hkey {p : Spot} (hp : p ∈ R.spots log) {f : Field} (hf : f ∈ p.entries R)
        (hfkey : f.key = key) : R.KeyAt s p.1.node.struct p.2.2 key :=
      h.keyAt_iff.2 ⟨p, hp, rfl, f, hf, hfkey⟩
    refine ⟨fun p hp => (pairwise_entries p key).2 fun hcount f hf hfkey => hno ?_,
      (List.Nodup.of_map _ h.nodup_places).pairwise_of_forall_ne
        fun p hp q hq hne f hf g hg hfkey hgkey => hno ?_⟩
    · exact .inr ⟨_, _, (h.count p.1 (mem_spots.1 hp).1).1 hcount, hkey hp hf hfkey⟩
    · refine .inl ⟨_, _, _, _, fun heq => hne ?_, hkey hp hf hfkey, hkey hq hg hgkey⟩
      exact h.spot_ext hp hq heq

theorem nodup_keys_iff : (l.map (·.key)).Nodup ↔ ∀ key, ¬ R.Clashes s key := by
  rw [List.Nodup, List.pairwise_map]
  simp only [← h.pairwise_iff, List.pairwise_iff_forall_sublist]
  constructor
  · intro hne key f g hsub hf hg
    exact hne hsub (hf.trans hg.symm)
  · intro hall f g hsub heq
    exact hall g.key hsub heq rfl

/-- What is listed for a field. -/
theorem listed {f : Field} (hf : f ∈ l) :
    ∃ u i sf, R.ListedAt s f u i ∧ R.Explored s u ∧ (R.fields u)[i]? = some sf ∧ sf.Records ∧
      R.getFieldProps sf = .ok f.toFieldProps ∧ f.type = sf.type.deref := by
  obtain ⟨p, hp, hf⟩ := h.mem_iff.1 hf
  obtain ⟨hr, props, hprops, rfl⟩ := mem_entries.1 hf
  obtain ⟨hv, hi⟩ := mem_spots.1 hp
  exact ⟨_, _, p.2.1, ⟨_, (h.first p.1 hv).shortest, rfl⟩, h.explored hp, hi, hr, hprops, rfl⟩

/-- A field that is recorded is listed. -/
theorem exists_listed {sf : StructField} {props : FieldProps} (hu : R.Explored s u)
    (hi : (R.fields u)[i]? = some sf) (hr : sf.Records) (hprops : R.getFieldProps sf = .ok props) :
    ∃ f ∈ l, R.ListedAt s f u i := by
  obtain ⟨v, hv, rfl, hp⟩ := h.exists_spot hu hi
  exact ⟨_, h.mem_iff.2 ⟨_, hp, mem_entries.2 ⟨hr, props, hprops, rfl⟩⟩, _,
    (h.first v hv).shortest, rfl⟩

end Record

/-! ## What comes of a struct -/

variable (R) in
/-- The tags of the structs that are explored are well formed. -/
def TagsOk (s : String) : Prop := ∀ u, R.Explored s u → ∀ sf ∈ R.fields u, R.FieldOk sf

variable (R) in
/-- A field is recorded at its first index sequence, of a struct and with a key. -/
def RecordedAt (s : String) (path : List ℕ) (u key : String) : Prop :=
  ∃ index i, R.First s index u ∧ path = index ++ [i] ∧ R.KeyAt s u i key

variable (R) in
/-- The key of a field is repeated: that of a field before it is the same, or its type is embedded
    more than once. -/
def Repeats (s : String) (path : List ℕ) (key : String) : Prop :=
  ∃ u, R.RecordedAt s path u key ∧
    (R.Crowded s u ∨ ∃ path' u', R.RecordedAt s path' u' key ∧ Precedes path' path)

variable (R) in
/-- The key is the first that is repeated, in the order of the index sequences. -/
def FirstRepeat (s key : String) : Prop :=
  ∃ path, R.Repeats s path key ∧
    ∀ path' key', R.Repeats s path' key' → path' = path ∨ Precedes path path'

/-- There is one key at an index sequence. -/
theorem RecordedAt.unique {path : List ℕ} {u u' key key' : String}
    (h : R.RecordedAt s path u key) (h' : R.RecordedAt s path u' key') : key = key' := by
  obtain ⟨index, i, hu, rfl, -, sf, props, hi, -, hprops, rfl⟩ := h
  obtain ⟨index', i', hu', heq, -, sf', props', hi', -, hprops', rfl⟩ := h'
  obtain ⟨rfl, hij⟩ := List.append_inj' heq rfl
  obtain rfl := List.singleton_inj.1 hij
  obtain rfl := hu.leads.unique hu'.leads
  obtain rfl := Option.some.inj (hi.symm.trans hi')
  rw [Except.ok.inj (hprops.symm.trans hprops')]

/-- One key is repeated first. -/
theorem FirstRepeat.unique {key key' : String} (h : R.FirstRepeat s key)
    (h' : R.FirstRepeat s key') : key = key' := by
  obtain ⟨path, hrep, hfirst⟩ := h
  obtain ⟨path', hrep', hfirst'⟩ := h'
  have hpath : path' = path := by
    rcases hfirst _ _ hrep' with heq | hlt
    · exact heq
    · rcases hfirst' _ _ hrep with heq | hlt'
      · exact heq.symm
      · exact absurd (hlt.trans hlt') (Precedes.irrefl _)
  subst hpath
  obtain ⟨u, hu, -⟩ := hrep
  obtain ⟨u', hu', -⟩ := hrep'
  exact hu.unique hu'

section Panics

variable {l : List Field} {log : List (LevelSearch.Visit Node Field)} (h : R.Record s l log)
include h

end Panics

/-- A struct is told apart by its tags: they are well formed, and no two fields have
    one key. -/
structure Analysable (R : Types) (s : String) : Prop where
  tags : ∀ u, R.Explored s u → ∀ sf ∈ R.fields u, R.FieldOk sf
  keys : ∀ key, ¬ R.Clashes s key

/-- The types that `typeFields` accepts. -/
theorem typeFields_isOk_iff {t : GoType} :
    (∃ l, R.typeFields t = .ok l) ↔ ∃ s, t = .struct s ∧ R.Analysable s := by
  constructor
  · rintro ⟨l, h⟩
    obtain ⟨s, rfl, hcollect, hnodup⟩ := typeFields_eq_ok_iff.1 h
    obtain ⟨log, hlog⟩ := exists_record hcollect
    exact ⟨s, rfl, (collect_isOk_iff s).1 ⟨l, hcollect⟩, hlog.nodup_keys_iff.1 hnodup⟩
  · rintro ⟨s, rfl, htags, hkeys⟩
    obtain ⟨l, hl⟩ := (collect_isOk_iff s).2 htags
    obtain ⟨log, hlog⟩ := exists_record hl
    exact ⟨l, typeFields_eq_ok_iff.2 ⟨s, rfl, hl, hlog.nodup_keys_iff.2 hkeys⟩⟩

variable (R) in
/-- The codec takes the type as one of parameters. -/
def TakenAsParam (t : GoType) : Prop :=
  t.string ≠ "time.Time" ∧ ∃ s, t = .struct s ∧ R.Analysable s ∧ R.HasField s

variable (R) in
/-- The codec takes the type as none of parameters. -/
def TakenAsBody (t : GoType) : Prop :=
  t.string = "time.Time" ∨ ∃ s, t = .struct s ∧ R.Analysable s ∧ ¬ R.HasField s

/-- A type is taken as one of parameters, or as none, or `ValidateParamType` panics. -/
theorem validateParamType_cases (t : GoType) :
    (R.TakenAsParam t ∧ R.validateParamType t = .ok ()) ∨
      (R.TakenAsBody t ∧ ∃ err, R.validateParamType t = .error (.error err)) ∨
      (¬ R.TakenAsParam t ∧ ¬ R.TakenAsBody t ∧
        ∃ msg, R.validateParamType t = .error (.panic msg)) := by
  unfold validateParamType
  by_cases htime : t.string = "time.Time"
  · exact .inr (.inl ⟨.inl htime, _, if_pos htime⟩)
  rw [if_neg htime]
  cases hfields : R.typeFields t with
  | error msg =>
    have hno : ¬ ∃ s, t = .struct s ∧ R.Analysable s := by
      rw [← typeFields_isOk_iff, hfields]
      simp
    refine .inr (.inr ⟨?_, ?_, msg, rfl⟩)
    · rintro ⟨-, s, hs, ha, -⟩
      exact hno ⟨s, hs, ha⟩
    · rintro (h | ⟨s, hs, ha, -⟩)
      · exact htime h
      · exact hno ⟨s, hs, ha⟩
  | ok l =>
    obtain ⟨s, rfl, ha⟩ := typeFields_isOk_iff.1 ⟨l, hfields⟩
    obtain ⟨s', hs', hcollect, -⟩ := typeFields_eq_ok_iff.1 hfields
    cases hs'
    cases l with
    | nil =>
      refine .inr (.inl ⟨.inr ⟨s, rfl, ha, fun h => ?_⟩, _, rfl⟩)
      exact (collect_ne_nil_iff hcollect).2 h rfl
    | cons f l =>
      refine .inl ⟨⟨htime, s, rfl, ha, ?_⟩, rfl⟩
      exact (collect_ne_nil_iff hcollect).1 (List.cons_ne_nil _ _)

theorem TakenAsParam.not_takenAsBody {t : GoType} (h : R.TakenAsParam t) : ¬ R.TakenAsBody t := by
  obtain ⟨htime, s, rfl, -, hf⟩ := h
  rintro (h | ⟨s', hs', -, hf'⟩)
  · exact htime h
  · cases hs'
    exact hf' hf

end Types

end Apiserver.Rest
