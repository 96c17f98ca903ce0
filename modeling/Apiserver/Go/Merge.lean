import Mathlib.Data.List.AList

/-!
# Maps that values are merged into

A map that is filled pair by pair, where a value is merged with the one its key already has: it
takes its place, or is appended to it. What a key has in the end depends on the pairs with this
key, in their order.

* `lookup_putAll`: the value of a key, after pairs have been put in;
* `lookup_putAll_merge`: what is put into a map is merged with what it has;
* `Lists`, `lookup_putAll_of_lists`: a list of a map, from which the map can be filled again.
-/

namespace Go

variable {κ α : Type} [DecidableEq κ]

/-- A value is merged into a map. -/
def put (merge : α → α → α) (m : AList fun _ : κ => α) (k : κ) (a : α) : AList fun _ : κ => α :=
  m.insert k (match m.lookup k with
    | none => a
    | some b => merge b a)

/-- Pairs are put into a map one after the other. -/
def putAll (merge : α → α → α) (m : AList fun _ : κ => α) (l : List (κ × α)) :
    AList fun _ : κ => α :=
  l.foldl (fun m p => put merge m p.1 p.2) m

variable {merge : α → α → α} {m : AList fun _ : κ => α} {k : κ}

theorem lookup_put (merge : α → α → α) (m : AList fun _ : κ => α) (k k' : κ) (a : α) :
    (put merge m k a).lookup k' =
      if k = k' then Option.merge merge (m.lookup k') (some a) else m.lookup k' := by
  by_cases hk : k = k'
  · subst hk
    rw [put, AList.lookup_insert, if_pos rfl]
    cases m.lookup k <;> rfl
  · rw [put, AList.lookup_insert_ne (Ne.symm hk), if_neg hk]

/-- What a key has is merged from the pairs with the key. -/
theorem lookup_putAll (merge : α → α → α) (m : AList fun _ : κ => α) (l : List (κ × α)) (k : κ) :
    (putAll merge m l).lookup k =
      (l.filter (·.1 = k)).foldl (fun o p => Option.merge merge o (some p.2)) (m.lookup k) := by
  induction l generalizing m with
  | nil => rfl
  | cons p l ih =>
    rw [putAll, List.foldl_cons, ← putAll, ih, lookup_put]
    by_cases hp : p.1 = k
    · rw [if_pos hp, List.filter_cons_of_pos (by simpa using hp), List.foldl_cons]
    · rw [if_neg hp, List.filter_cons_of_neg (by simpa using hp)]

/-- What is put into a map is merged with what it has. -/
theorem lookup_putAll_merge [Std.Associative merge] (m : AList fun _ : κ => α)
    (l : List (κ × α)) (k : κ) :
    (putAll merge m l).lookup k =
      Option.merge merge (m.lookup k) ((putAll merge ∅ l).lookup k) := by
  rw [lookup_putAll, lookup_putAll, AList.lookup_empty]
  generalize m.lookup k = o
  -- The fold may begin with any value that the rest is merged with.
  have hfold (l : List (κ × α)) (o o' : Option α) :
      l.foldl (fun o p => Option.merge merge o (some p.2)) (Option.merge merge o o') =
        Option.merge merge o (l.foldl (fun o p => Option.merge merge o (some p.2)) o') := by
    induction l generalizing o' with
    | nil => rfl
    | cons p l ih =>
      rw [List.foldl_cons, List.foldl_cons, ← ih]
      congr 1
      exact Std.Associative.assoc _ _ _
  rw [← hfold]
  congr 1
  cases o <;> rfl

/-! ## The pairs of a map -/

/-- The pairs of a map, in the order of its entries. -/
def pairs (m : AList fun _ : κ => α) : List (κ × α) := m.entries.map fun e => (e.1, e.2)

/-- A map has one pair for a key at most. -/
theorem filter_pairs (m : AList fun _ : κ => α) (k : κ) :
    (pairs m).filter (·.1 = k) = ((m.lookup k).map (Prod.mk k)).toList := by
  obtain ⟨l, hl⟩ := m
  rw [pairs, AList.lookup]
  induction l with
  | nil => rfl
  | cons e l ih =>
    obtain ⟨he, hl⟩ := List.nodupKeys_cons.1 hl
    rw [List.map_cons]
    by_cases hk : e.1 = k
    · subst hk
      rw [List.filter_cons_of_pos (by simp), ih hl, List.dlookup_cons_eq,
        List.dlookup_eq_none.2 he]
      rfl
    · rw [List.filter_cons_of_neg (by simpa using hk), ih hl, List.dlookup_cons_ne _ _ (Ne.symm hk)]

theorem mem_pairs {p : κ × α} : p ∈ pairs m ↔ m.lookup p.1 = some p.2 := by
  have hfilter : p ∈ (pairs m).filter (·.1 = p.1) ↔ p ∈ pairs m := by simp
  rw [← hfilter, filter_pairs]
  cases m.lookup p.1 with
  | none => simp
  | some a => simp [Prod.ext_iff, eq_comm]

/-! ## Listing a map -/

variable {γ : Type}

/-- The list has the items of every key of a map, in their order. -/
def Lists (items : α → List γ) (m : AList fun _ : κ => α) (l : List (κ × γ)) : Prop :=
  ∀ k, l.filter (·.1 = k) = ((m.lookup k).elim [] items).map (Prod.mk k)

/-- A map is listed in any order of its pairs. -/
theorem lists_of_perm {l : List (κ × α)} (h : l.Perm (pairs m)) : Lists (fun a => [a]) m l := by
  intro k
  have hperm := h.filter (·.1 = k)
  rw [filter_pairs] at hperm
  cases hlookup : m.lookup k with
  | none =>
    rw [hlookup] at hperm
    exact List.perm_nil.1 hperm
  | some a =>
    rw [hlookup] at hperm
    exact List.perm_singleton.1 hperm

/-- The items for a key come from its pairs. -/
theorem filter_flatMap_fst (items : α → List γ) (l : List (κ × α)) (k : κ) :
    (l.flatMap fun p => (items p.2).map (Prod.mk p.1)).filter (·.1 = k) =
      (l.filter (·.1 = k)).flatMap fun p => (items p.2).map (Prod.mk p.1) := by
  induction l with
  | nil => rfl
  | cons p l ih =>
    rw [List.flatMap_cons, List.filter_append, ih]
    by_cases hp : p.1 = k
    · rw [List.filter_cons_of_pos (by simpa using hp), List.flatMap_cons]
      congr 1
      simp [hp]
    · rw [List.filter_cons_of_neg (by simpa using hp)]
      simp [hp]

/-- The items of a map, key by key. -/
theorem lists_flatMap (items : α → List γ) (m : AList fun _ : κ => α) :
    Lists items m ((pairs m).flatMap fun p => (items p.2).map (Prod.mk p.1)) := by
  intro k
  rw [filter_flatMap_fst, filter_pairs]
  cases m.lookup k with
  | none => rfl
  | some a => simp

theorem mem_of_lists {items : α → List γ} {l : List (κ × γ)} (h : Lists items m l) {p : κ × γ}
    (hp : p ∈ l) : ∃ a, m.lookup p.1 = some a ∧ p.2 ∈ items a := by
  have hfilter : p ∈ l.filter (·.1 = p.1) := by simpa using hp
  rw [h p.1] at hfilter
  obtain ⟨c, hc, hpc⟩ := List.mem_map.1 hfilter
  cases hlookup : m.lookup p.1 with
  | none =>
    rw [hlookup] at hc
    cases hc
  | some a =>
    rw [hlookup] at hc
    exact ⟨a, rfl, by rwa [← hpc]⟩

/-- A map is filled again from a list of it, if its values are merged again from their items. -/
theorem lookup_putAll_of_lists {items : α → List γ} {val : γ → α} {l : List (κ × γ)}
    (h : Lists items m l)
    (hval : ∀ k a, m.lookup k = some a →
      (items a).foldl (fun o c => Option.merge merge o (some (val c))) none = some a) (k : κ) :
    (putAll merge ∅ (l.map fun p => (p.1, val p.2))).lookup k = m.lookup k := by
  have hfilter : (l.map fun p => (p.1, val p.2)).filter (·.1 = k) =
      (l.filter (·.1 = k)).map fun p => (p.1, val p.2) := List.filter_map
  rw [lookup_putAll, hfilter, h k, List.map_map, List.foldl_map, AList.lookup_empty]
  cases hlookup : m.lookup k with
  | none => rfl
  | some a => exact hval k a hlookup

end Go
