import Mathlib.Data.List.Sort

/-!
# Searching and sorting

The functions of the Go package `sort` the model calls.

* `search`: the binary search of `sort.Search`. On a monotone predicate it
  finds the first index where the predicate holds (`search_spec`).
* `IsSortOf`: the slices `sort.Slice` may leave, the sorted permutations of
  what it is given. `sort.Slice` is not stable, so elements with the same key
  may come out in any order.
* `sliceStable`: the slice `sort.SliceStable` leaves (`sliceStable_isSortOf`).
* `getByKey`: looking an element up by its key with `search`, the way a sorted
  slice is used as an index. On a sorted slice it returns the first element
  with the key (`getByKey_eq_find`); if the keys are distinct, that is the one
  with the key, at whatever place it was (`IsSortOf.getByKey_eq_some_iff`).
-/

namespace Go

/-! ## Binary search -/

/-- The loop of `sort.Search` on the interval `[i, j)`; `fuel` bounds the
    number of times the interval is halved. -/
def searchLoop (f : Nat → Bool) : Nat → Nat → Nat → Nat
  | 0, i, _ => i
  | fuel + 1, i, j =>
    if i < j then
      let h := (i + j) / 2
      if f h then searchLoop f fuel i h else searchLoop f fuel (h + 1) j
    else i

/-- `sort.Search`: the first `i` in `[0, n)` with `f i`, or `n`. -/
def search (n : Nat) (f : Nat → Bool) : Nat := searchLoop f n 0 n

/-- What `sort.Search` maintains: `f` is false before `i` and true from `j` on. -/
structure SearchInv (n : Nat) (f : Nat → Bool) (i j : Nat) : Prop where
  le : i ≤ j
  le_n : j ≤ n
  below : ∀ k < i, f k = false
  above : ∀ k, j ≤ k → k < n → f k = true

/-- The binary search closes in on the first index. -/
theorem searchLoop_inv {n : Nat} {f : Nat → Bool}
    (hf : ∀ a b, a ≤ b → b < n → f a = true → f b = true) (fuel : Nat) {i j : Nat}
    (hfuel : j - i ≤ fuel) (h : SearchInv n f i j) :
    SearchInv n f (searchLoop f fuel i j) (searchLoop f fuel i j) := by
  induction fuel generalizing i j with
  | zero =>
    have hij : j = i := by have := h.le; omega
    subst hij
    exact h
  | succ fuel ih =>
    rw [searchLoop]
    by_cases hij : i < j
    · have hn := h.le_n
      have hlt : (i + j) / 2 < j := by omega
      rw [if_pos hij]
      dsimp only
      by_cases hm : f ((i + j) / 2) = true
      · -- The predicate holds in the middle: keep the lower half.
        rw [if_pos hm]
        exact ih (by omega) ⟨by omega, by omega, h.below, fun k hk hkn => hf _ _ hk hkn hm⟩
      · -- It fails in the middle, hence everywhere before.
        rw [if_neg hm]
        refine ih (by omega) ⟨by omega, hn, fun k hk => ?_, h.above⟩
        by_contra hk'
        exact hm (hf k _ (by omega) (by omega) (by simpa using hk'))
    · have hij' : j = i := by have := h.le; omega
      subst hij'
      rw [if_neg hij]
      exact h

theorem search_spec {n : Nat} {f : Nat → Bool}
    (hf : ∀ a b, a ≤ b → b < n → f a = true → f b = true) :
    SearchInv n f (search n f) (search n f) :=
  searchLoop_inv hf n (by omega)
    ⟨Nat.zero_le n, le_rfl, fun _ h => absurd h (Nat.not_lt_zero _), fun _ h h' => by omega⟩

/-! ## Sorted slices -/

variable {α κ : Type*} [LinearOrder κ] (key : α → κ)

/-- The slice is sorted by `key`, with any order among equal keys. -/
def SortedBy (l : List α) : Prop := l.Pairwise fun a b => key a ≤ key b

/-- `l'` is a result `sort.Slice` may leave when `l` is sorted by `key`. -/
structure IsSortOf (l l' : List α) : Prop where
  perm : l'.Perm l
  sorted : SortedBy key l'

/-- `sort.SliceStable`, by a key: elements with the same key keep their order. -/
def sliceStable (l : List α) : List α := l.insertionSort fun a b => key a ≤ key b

theorem sliceStable_isSortOf (l : List α) : IsSortOf key l (sliceStable key l) where
  perm := List.perm_insertionSort _ l
  sorted := by
    have : Std.Total fun a b : α => key a ≤ key b := ⟨fun a b => le_total (key a) (key b)⟩
    have : IsTrans α fun a b => key a ≤ key b := ⟨fun a b c => le_trans⟩
    exact List.pairwise_insertionSort _ l

/-- `l'` is `l` sorted by `key`, and elements with the same key are in the same order. -/
structure IsStableSortOf (l l' : List α) : Prop extends IsSortOf key l l' where
  stable : ∀ k, l'.filter (fun a => key a = k) = l.filter fun a => key a = k

/-- Insertion sort is stable. -/
theorem sliceStable_isStableSortOf (l : List α) :
    IsStableSortOf key l (sliceStable key l) where
  toIsSortOf := sliceStable_isSortOf key l
  stable k := by
    set c := l.filter fun a => decide (key a = k)
    have hkey : ∀ a ∈ c, key a = k := fun a ha => of_decide_eq_true (List.mem_filter.1 ha).2
    -- The elements with the key are a sorted part of the list, which sorting keeps.
    have hsorted : c.Pairwise fun a b => key a ≤ key b := by
      refine List.pairwise_of_forall_mem_list fun a ha b hb => ?_
      rw [hkey a ha, hkey b hb]
    have hsub : c.Sublist (sliceStable key l) :=
      List.sublist_insertionSort hsorted List.filter_sublist
    have hself : c.filter (fun a => key a = k) = c :=
      List.filter_eq_self.2 fun a ha => decide_eq_true (hkey a ha)
    have hperm : ((sliceStable key l).filter fun a => key a = k).Perm c :=
      (sliceStable_isSortOf key l).perm.filter _
    have hfilter := hsub.filter fun a => decide (key a = k)
    rw [hself] at hfilter
    exact (hfilter.eq_of_length hperm.length_eq.symm).symm

/-- Looking up the element with key `k` by a binary search for the first key
    that is not below it. -/
def getByKey (l : List α) (k : κ) : Option α :=
  let i := search l.length fun i => (l[i]?).any fun a => decide (k ≤ key a)
  match l[i]? with
  | some a => if key a = k then some a else none
  | none => none

variable {key}

/-- Sorting by a key is sorting by another that orders the elements in the same way. -/
theorem IsStableSortOf.of_key {κ' : Type*} [LinearOrder κ'] {key' : α → κ'} {l l' : List α}
    (h : IsStableSortOf key l l') (hkey : ∀ a ∈ l, ∀ b ∈ l, key a ≤ key b ↔ key' a ≤ key' b) :
    IsStableSortOf key' l l' where
  perm := h.perm
  sorted := h.sorted.imp_of_mem fun ha hb hle =>
    (hkey _ (h.perm.mem_iff.1 ha) _ (h.perm.mem_iff.1 hb)).1 hle
  stable k' := by
    by_cases hex : ∃ a ∈ l, key' a = k'
    · obtain ⟨a, ha, rfl⟩ := hex
      have hsame : ∀ b ∈ l, decide (key' b = key' a) = decide (key b = key a) := by
        intro b hb
        rw [decide_eq_decide, le_antisymm_iff, le_antisymm_iff, hkey b hb a ha, hkey a ha b hb]
      rw [List.filter_congr hsame, ← h.stable]
      exact List.filter_congr fun b hb => hsame b (h.perm.mem_iff.1 hb)
    · push Not at hex
      have hnone : ∀ b ∈ l, ¬ decide (key' b = k') = true :=
        fun b hb => by simpa using hex b hb
      rw [List.filter_eq_nil_iff.2 hnone,
        List.filter_eq_nil_iff.2 fun b hb => hnone b (h.perm.mem_iff.1 hb)]

/-- In a sorted slice, the predicate of the search stays true. -/
theorem le_key_mono {l : List α} (hl : SortedBy key l) (k : κ) {a b : Nat} (hab : a ≤ b)
    (hb : b < l.length) (ha : (l[a]?).any (fun x => decide (k ≤ key x)) = true) :
    (l[b]?).any (fun x => decide (k ≤ key x)) = true := by
  have ha' : a < l.length := lt_of_le_of_lt hab hb
  simp only [List.getElem?_eq_getElem ha', List.getElem?_eq_getElem hb, Option.any_some,
    decide_eq_true_eq] at ha ⊢
  rcases hab.eq_or_lt with rfl | hlt
  · exact ha
  · exact ha.trans (List.pairwise_iff_getElem.1 hl a b ha' hb hlt)

/-- What has a key is at the first place whose key is not below it, if there is such a thing. -/
theorem find?_of_boundary {l : List α} (hl : SortedBy key l) {k : κ} {i : Nat}
    (hbelow : ∀ a ∈ l.take i, key a < k) (habove : ∀ a, l[i]? = some a → k ≤ key a) :
    l.find? (fun a => decide (key a = k)) = match l[i]? with
      | some a => if key a = k then some a else none
      | none => none := by
  have hbefore : (l.take i).find? (fun a => decide (key a = k)) = none :=
    List.find?_eq_none.2 fun a ha => by simpa using (hbelow a ha).ne
  rw [← List.take_append_drop i l, List.find?_append, hbefore, Option.none_or,
    List.take_append_drop]
  rcases Nat.lt_or_ge i l.length with hi | hi
  · rw [List.getElem?_eq_getElem hi, List.drop_eq_getElem_cons hi, List.find?_cons]
    dsimp only
    by_cases hk : key l[i] = k
    · simp [hk]
    · -- The first key that is not below `k` is above it, and so are the later ones.
      have hlt : k < key l[i] :=
        lt_of_le_of_ne (habove l[i] (List.getElem?_eq_getElem hi)) (Ne.symm hk)
      have hrest : (l.drop (i + 1)).find? (fun a => decide (key a = k)) = none := by
        rw [List.find?_eq_none]
        intro a ha
        obtain ⟨j, hj, rfl⟩ := List.mem_drop_iff_getElem.1 ha
        have := List.pairwise_iff_getElem.1 hl i (i + 1 + j) hi (by omega) (by omega)
        simpa using (hlt.trans_le this).ne'
      simp [hk, hrest]
  · rw [List.getElem?_eq_none hi, List.drop_eq_nil_of_le hi]
    rfl

/-- In a sorted slice, binary search finds what a scan does. -/
theorem getByKey_eq_find {l : List α} (hl : SortedBy key l) (k : κ) :
    getByKey key l k = l.find? fun a => decide (key a = k) := by
  have hs := search_spec fun a b hab hb ha => le_key_mono hl k hab hb ha
  refine (find?_of_boundary hl (fun a ha => ?_) fun a ha => ?_).symm
  · obtain ⟨j, hj, rfl⟩ := List.mem_take_iff_getElem.1 ha
    have hfalse := hs.below j (by omega)
    simpa [List.getElem?_eq_getElem (show j < l.length by omega)] using hfalse
  · have htrue := hs.above _ le_rfl (List.getElem?_eq_some_iff.1 ha).1
    simpa [ha] using htrue

/-! ## Distinct keys -/

theorem IsSortOf.nodup_map {l l' : List α} (h : IsSortOf key l l') (hl : (l.map key).Nodup) :
    (l'.map key).Nodup :=
  (h.perm.map key).nodup_iff.2 hl

/-- A slice with distinct keys, once sorted, is searched for its elements by their keys. -/
theorem IsSortOf.getByKey_eq_some_iff {l l' : List α} (h : IsSortOf key l l')
    (hl : (l.map key).Nodup) {k : κ} {a : α} :
    getByKey key l' k = some a ↔ a ∈ l ∧ key a = k := by
  rw [getByKey_eq_find h.sorted]
  constructor
  · intro hfind
    exact ⟨h.perm.mem_iff.1 (List.mem_of_find?_eq_some hfind), by simpa using List.find?_some hfind⟩
  · rintro ⟨ha, rfl⟩
    have ha' : a ∈ l' := h.perm.mem_iff.2 ha
    obtain ⟨b, hb⟩ : ∃ b, l'.find? (fun x => decide (key x = key a)) = some b :=
      Option.isSome_iff_exists.1 (List.find?_isSome.2 ⟨a, ha', decide_eq_true rfl⟩)
    have hkey : key b = key a := by simpa using List.find?_some hb
    rw [hb, List.inj_on_of_nodup_map (h.nodup_map hl) (List.mem_of_find?_eq_some hb) ha' hkey]

theorem IsSortOf.getByKey_eq_none_iff {l l' : List α} (h : IsSortOf key l l') {k : κ} :
    getByKey key l' k = none ↔ ∀ a ∈ l, key a ≠ k := by
  rw [getByKey_eq_find h.sorted, List.find?_eq_none]
  simp only [decide_eq_true_eq, h.perm.mem_iff, ne_eq]

end Go
