import Apiserver.Go.Encoding

/-!
# Strings with their lengths

Strings written one after the other can be told apart if each comes after its
length, in four bytes as `binary.BigEndian` writes them. The length is truncated
to 32 bits, so that this is so for strings that are shorter than `2 ^ 32`.

* `lengthPrefixed_append_inj`: what begins with such a string determines it, and
  the rest;
* `lengthPrefixedList_inj`: a list of them determines the strings.
-/

namespace Go

/-- `binary.BigEndian.PutUint32`, of a length truncated to 32 bits. -/
def putUint32 (n : ℕ) : Bytes :=
  [UInt8.ofNat (n / 2 ^ 24), UInt8.ofNat (n / 2 ^ 16), UInt8.ofNat (n / 2 ^ 8), UInt8.ofNat n]

theorem putUint32_inj {n m : ℕ} (hn : n < 2 ^ 32) (hm : m < 2 ^ 32)
    (h : putUint32 n = putUint32 m) : n = m := by
  simp only [putUint32, List.cons.injEq, ← UInt8.toNat_inj, UInt8.toNat_ofNat'] at h
  omega

/-- A string after its length. -/
def lengthPrefixed (s : Bytes) : Bytes := putUint32 s.length ++ s

/-- A list of strings, each after its length, after the length of the list. -/
def lengthPrefixedList (l : List Bytes) : Bytes := putUint32 l.length ++ l.flatMap lengthPrefixed

theorem lengthPrefixed_append_inj {s t rest rest' : Bytes} (hs : s.length < 2 ^ 32)
    (ht : t.length < 2 ^ 32) (h : lengthPrefixed s ++ rest = lengthPrefixed t ++ rest') :
    s = t ∧ rest = rest' := by
  rw [lengthPrefixed, lengthPrefixed, List.append_assoc, List.append_assoc] at h
  obtain ⟨hput, h⟩ := List.append_inj h rfl
  exact List.append_inj h (putUint32_inj hs ht hput)

/-- Prefixed texts can be told apart. -/
theorem flatMap_lengthPrefixed_inj {l l' : List Bytes} (hl : ∀ s ∈ l, s.length < 2 ^ 32)
    (hl' : ∀ s ∈ l', s.length < 2 ^ 32) (hlength : l.length = l'.length)
    (h : l.flatMap lengthPrefixed = l'.flatMap lengthPrefixed) : l = l' := by
  induction l generalizing l' with
  | nil => exact (List.length_eq_zero_iff.1 hlength.symm).symm
  | cons s l ih =>
    obtain ⟨t, l', rfl⟩ := List.exists_cons_of_length_eq_add_one hlength.symm
    rw [List.flatMap_cons, List.flatMap_cons] at h
    obtain ⟨rfl, hrest⟩ := lengthPrefixed_append_inj (hl s List.mem_cons_self)
      (hl' t List.mem_cons_self) h
    rw [ih (fun u hu => hl u (List.mem_cons_of_mem _ hu))
      (fun u hu => hl' u (List.mem_cons_of_mem _ hu)) (by simpa using hlength) hrest]

theorem lengthPrefixedList_inj {l l' : List Bytes} (hlength : l.length < 2 ^ 32)
    (hl : ∀ s ∈ l, s.length < 2 ^ 32) (hlength' : l'.length < 2 ^ 32)
    (hl' : ∀ s ∈ l', s.length < 2 ^ 32) (h : lengthPrefixedList l = lengthPrefixedList l') :
    l = l' := by
  obtain ⟨hput, h⟩ := List.append_inj h rfl
  exact flatMap_lengthPrefixed_inj hl hl' (putUint32_inj hlength hlength' hput) h

end Go
