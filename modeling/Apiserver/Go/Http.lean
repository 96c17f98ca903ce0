import Mathlib.Data.List.AList

/-!
# HTTP headers and requests

The part of the Go package `net/http` the model uses: a header is a map from
names to lists of values, whose methods bring the name they are given into
canonical form first (`canonicalMIMEHeaderKey`), which is the same for names that
differ in case (`canonicalMIMEHeaderKey_congr`).
-/

namespace Go

/-- A Go `http.Header` or `url.Values`, its entries listed in the order a
    `for range` visits them. -/
abbrev Header := AList fun _ : String => List String

/-- The characters a field name is made of. -/
def isTokenChar (c : Char) : Bool := c.isAlphanum || "!#$%&'*+-.^_`|~".toList.contains c

/-- The canonical case of a name: upper case at the beginning and after a
    hyphen, lower case elsewhere. -/
def canonicalCase : Bool → List Char → List Char
  | _, [] => []
  | upper, c :: l => (if upper then c.toUpper else c.toLower) :: canonicalCase (c == '-') l

/-- `textproto.CanonicalMIMEHeaderKey`: a name with any other character in it is
    kept as it is. -/
def canonicalMIMEHeaderKey (s : String) : String :=
  if s.toList.all isTokenChar then String.ofList (canonicalCase true s.toList) else s

/-- The characters of a name are ASCII, so there are few to check a fact on. -/
theorem exists_of_isTokenChar {c : Char} (h : isTokenChar c = true) :
    ∃ n : Fin 128, Char.ofNat n = c := by
  suffices hc : c.toNat < 128 from ⟨⟨c.toNat, hc⟩, Char.ofNat_toNat c⟩
  rw [isTokenChar, Bool.or_eq_true] at h
  rcases h with h | h
  · have hle : (c.val ≤ 'Z'.val ∨ c.val ≤ 'z'.val) ∨ c.val ≤ '9'.val := by
      obtain h | h := Bool.or_eq_true_iff.1 h
      · obtain h | h := Bool.or_eq_true_iff.1 h
        · exact .inl (.inl (of_decide_eq_true h).2)
        · exact .inl (.inr (of_decide_eq_true (Bool.and_eq_true_iff.1 h).2))
      · exact .inr (of_decide_eq_true (Bool.and_eq_true_iff.1 h).2)
    have hZ : 'Z'.val.toNat = 90 := rfl
    have hz : 'z'.val.toNat = 122 := rfl
    have h9 : '9'.val.toNat = 57 := rfl
    rw [UInt32.le_iff_toNat_le, UInt32.le_iff_toNat_le, UInt32.le_iff_toNat_le] at hle
    rw [Char.toNat]
    omega
  · have hall : "!#$%&'*+-.^_`|~".toList.all (fun d => decide (d.toNat < 128)) = true := by decide
    exact of_decide_eq_true (List.all_eq_true.1 hall c (List.contains_iff_mem.1 h))

/-- The canonical case of a name does not depend on its case. -/
theorem canonicalCase_map_toLower {l : List Char} (hl : l.all isTokenChar = true) (upper : Bool) :
    canonicalCase upper (l.map Char.toLower) = canonicalCase upper l := by
  induction l generalizing upper with
  | nil => rfl
  | cons c l ih =>
    rw [List.all_cons, Bool.and_eq_true] at hl
    have hc : c.toLower.toUpper = c.toUpper ∧ c.toLower.toLower = c.toLower ∧
        (c.toLower == '-') = (c == '-') := by
      obtain ⟨n, rfl⟩ := exists_of_isTokenChar hl.1
      clear hl
      revert n
      decide
    rw [List.map_cons, canonicalCase, canonicalCase, ih hl.2, hc.1, hc.2.1, hc.2.2]

theorem isTokenChar_toLower {c : Char} (h : isTokenChar c = true) :
    isTokenChar c.toLower = true := by
  obtain ⟨n, rfl⟩ := exists_of_isTokenChar h
  revert n
  decide

/-- Names that are the same up to case have one canonical form. -/
theorem canonicalMIMEHeaderKey_congr {s t : String} (hs : s.toList.all isTokenChar = true)
    (ht : t.toList.all isTokenChar = true)
    (h : s.toList.map Char.toLower = t.toList.map Char.toLower) :
    canonicalMIMEHeaderKey s = canonicalMIMEHeaderKey t := by
  rw [canonicalMIMEHeaderKey, canonicalMIMEHeaderKey, if_pos hs, if_pos ht,
    ← canonicalCase_map_toLower hs, ← canonicalCase_map_toLower ht, h]

/-- The canonical case of a name is the name, up to case. -/
theorem map_toLower_canonicalCase {l : List Char} (hl : l.all isTokenChar = true) (upper : Bool) :
    (canonicalCase upper l).map Char.toLower = l.map Char.toLower := by
  induction l generalizing upper with
  | nil => rfl
  | cons c l ih =>
    rw [List.all_cons, Bool.and_eq_true] at hl
    have hc : c.toUpper.toLower = c.toLower ∧ c.toLower.toLower = c.toLower := by
      obtain ⟨n, rfl⟩ := exists_of_isTokenChar hl.1
      clear hl
      revert n
      decide
    rw [canonicalCase, List.map_cons, List.map_cons, ih hl.2]
    cases upper
    · simp [hc.2]
    · simp [hc.1]

/-- Names with one canonical form are the same up to case. -/
theorem map_toLower_eq_of_canonicalMIMEHeaderKey_eq {s t : String}
    (h : canonicalMIMEHeaderKey s = canonicalMIMEHeaderKey t) :
    s.toList.map Char.toLower = t.toList.map Char.toLower := by
  have hlower (s : String) :
      (canonicalMIMEHeaderKey s).toList.map Char.toLower = s.toList.map Char.toLower := by
    unfold canonicalMIMEHeaderKey
    split_ifs with hs
    · rw [String.toList_ofList, map_toLower_canonicalCase hs]
    · rfl
  rw [← hlower s, h, hlower t]
namespace Header

/-- The values stored under a name as it is; nil if there are none. -/
def index (h : Header) (key : String) : List String := (h.lookup key).getD []

/-- `Values`. -/
def values (h : Header) (key : String) : List String := h.index (canonicalMIMEHeaderKey key)

/-- `Get`: the first value, or the empty string. -/
def get (h : Header) (key : String) : String := (h.values key).headD ""

/-- `Set`. -/
def set (h : Header) (key value : String) : Header := h.insert (canonicalMIMEHeaderKey key) [value]

/-- `Del`. -/
def del (h : Header) (key : String) : Header := h.erase (canonicalMIMEHeaderKey key)

/-- Adding a value under a name as it is: `h[key] = append(h[key], value)`. -/
def push (h : Header) (key value : String) : Header := h.insert key (h.index key ++ [value])

theorem index_push (h : Header) (key value key' : String) :
    (h.push key value).index key' = h.index key' ++ if key = key' then [value] else [] := by
  by_cases hk : key = key'
  · subst hk
    simp [push, index]
  · simp [push, index, AList.lookup_insert_ne (Ne.symm hk), hk]

theorem mem_push {h : Header} {key value key' : String} :
    key' ∈ h.push key value ↔ key' = key ∨ key' ∈ h := by
  rw [push, AList.mem_insert]

/-- Adding values under a name leaves the others as they are. -/
theorem lookup_foldl_push (data : List String) (h : Header) (key key' : String) :
    (data.foldl (fun h d => h.push key d) h).lookup key' =
      if key' = key ∧ data ≠ [] then some (h.index key ++ data) else h.lookup key' := by
  induction data generalizing h with
  | nil => simp
  | cons d data ih =>
    rw [List.foldl_cons, ih, index_push]
    by_cases hk : key' = key
    · subst hk
      cases data <;> simp [push]
    · simp [hk, push, AList.lookup_insert_ne hk]

/-- The values pairs have under a name. -/
def valuesOf (l : List (String × String)) (key : String) : List String :=
  (l.filter (·.1 = key)).map (·.2)

/-- Adding a list of pairs, the values under each name are added in order. -/
theorem index_foldl_push (l : List (String × String)) (h : Header) (key : String) :
    (l.foldl (fun h p => h.push p.1 p.2) h).index key = h.index key ++ valuesOf l key := by
  induction l generalizing h with
  | nil => simp [valuesOf]
  | cons p l ih =>
    rw [List.foldl_cons, ih, index_push, List.append_assoc, valuesOf, valuesOf, List.filter_cons]
    by_cases hk : p.1 = key <;> simp [hk]

theorem mem_foldl_push {l : List (String × String)} {h : Header} {key : String} :
    key ∈ l.foldl (fun h p => h.push p.1 p.2) h ↔ key ∈ h ∨ valuesOf l key ≠ [] := by
  induction l generalizing h with
  | nil => simp [valuesOf]
  | cons p l ih =>
    rw [List.foldl_cons, ih, mem_push, valuesOf, valuesOf, List.filter_cons]
    by_cases hk : p.1 = key
    · simp [hk]
    · simp [hk, Ne.symm hk]

theorem mem_del {h : Header} {key key' : String} :
    key' ∈ h.del key ↔ key' ≠ canonicalMIMEHeaderKey key ∧ key' ∈ h := by
  rw [del, AList.mem_erase]

/-- What is left when a list of names is deleted. -/
theorem mem_foldl_del {names : List String} {h : Header} {key : String} :
    key ∈ names.foldl del h ↔ key ∈ h ∧ ∀ n ∈ names, key ≠ canonicalMIMEHeaderKey n := by
  induction names generalizing h with
  | nil => simp
  | cons n names ih =>
    rw [List.foldl_cons, ih, mem_del, List.forall_mem_cons]
    tauto

end Header

/-- The parts of an `http.Request` that the model reads: the path and the
    decoded query of its URL, and its header. -/
structure Request where
  method : String := "GET"
  path : String := "/"
  query : Header := ∅
  header : Header := ∅
  deriving DecidableEq

end Go
