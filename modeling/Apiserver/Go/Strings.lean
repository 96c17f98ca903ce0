import Mathlib.Data.List.DropRight
import Mathlib.Data.String.Basic

/-!
# Strings

The functions of the Go package `strings` the model calls, on Lean strings. A
Go string is a sequence of bytes and a Lean string one of characters: the
functions below only cut strings at whole characters and compare them, which
gives the same answer on the bytes of valid UTF-8.

* `hasPrefix_iff`: a prefix is cut off by `trimPrefix` and nothing else is;
* `join_split`: joining the parts of a split string gives the string back;
* `split_ne_nil`: there is always a first part, possibly empty.
-/

namespace Go

/-! ## Prefixes and suffixes -/

/-- `strings.HasPrefix`. -/
def hasPrefix (s p : String) : Bool := p.toList.isPrefixOf s.toList

/-- `strings.HasSuffix`. -/
def hasSuffix (s p : String) : Bool := p.toList.isSuffixOf s.toList

/-- `strings.TrimPrefix`. -/
def trimPrefix (s p : String) : String :=
  if hasPrefix s p then String.ofList (s.toList.drop p.toList.length) else s

/-- `strings.TrimSuffix`. -/
def trimSuffix (s p : String) : String :=
  if hasSuffix s p then String.ofList (s.toList.take (s.toList.length - p.toList.length)) else s

theorem hasPrefix_iff {s p : String} : hasPrefix s p = true ↔ ∃ t, s = p ++ t := by
  rw [hasPrefix, List.isPrefixOf_iff_prefix]
  constructor
  · rintro ⟨t, ht⟩
    refine ⟨String.ofList t, ?_⟩
    rw [← String.toList_inj, String.toList_append, String.toList_ofList, ht]
  · rintro ⟨t, rfl⟩
    rw [String.toList_append]
    exact List.prefix_append _ _

theorem hasSuffix_iff {s p : String} : hasSuffix s p = true ↔ ∃ t, s = t ++ p := by
  rw [hasSuffix, List.isSuffixOf_iff_suffix]
  constructor
  · rintro ⟨t, ht⟩
    refine ⟨String.ofList t, ?_⟩
    rw [← String.toList_inj, String.toList_append, String.toList_ofList, ht]
  · rintro ⟨t, rfl⟩
    rw [String.toList_append]
    exact List.suffix_append _ _

@[simp] theorem hasPrefix_append (p t : String) : hasPrefix (p ++ t) p = true :=
  hasPrefix_iff.2 ⟨t, rfl⟩

@[simp] theorem trimPrefix_append (p t : String) : trimPrefix (p ++ t) p = t := by
  rw [trimPrefix, if_pos (hasPrefix_append p t), String.toList_append, List.drop_left,
    String.ofList_toList]

@[simp] theorem trimSuffix_append (t p : String) : trimSuffix (t ++ p) p = t := by
  rw [trimSuffix, if_pos (hasSuffix_iff.2 ⟨t, rfl⟩), String.toList_append, List.length_append,
    Nat.add_sub_cancel, List.take_left, String.ofList_toList]

/-- What has a prefix and is cut off it. -/
theorem hasPrefix_and_trimPrefix_iff {s p t : String} :
    (hasPrefix s p = true ∧ t = trimPrefix s p) ↔ s = p ++ t := by
  constructor
  · rintro ⟨hp, rfl⟩
    obtain ⟨u, rfl⟩ := hasPrefix_iff.1 hp
    rw [trimPrefix_append]
  · rintro rfl
    exact ⟨hasPrefix_append p t, (trimPrefix_append p t).symm⟩

theorem hasSuffix_and_trimSuffix_iff {s p t : String} :
    (hasSuffix s p = true ∧ t = trimSuffix s p) ↔ s = t ++ p := by
  constructor
  · rintro ⟨hp, rfl⟩
    obtain ⟨u, rfl⟩ := hasSuffix_iff.1 hp
    rw [trimSuffix_append]
  · rintro rfl
    exact ⟨hasSuffix_iff.2 ⟨t, rfl⟩, (trimSuffix_append t p).symm⟩

/-! ## Cutting characters off -/

/-- `strings.TrimRight` with a cutset of one character. -/
def trimRight (s : String) (c : Char) : String :=
  String.ofList (s.toList.reverse.dropWhile (· == c)).reverse

/-- `strings.Trim` with a cutset of one character. -/
def trim (s : String) (c : Char) : String :=
  String.ofList ((s.toList.dropWhile (· == c)).reverse.dropWhile (· == c)).reverse

variable {c : Char} {s : String}

theorem dropWhile_of_head? {l : List Char} (h : c ∉ l.head?) :
    l.dropWhile (· == c) = l := by
  cases l with
  | nil => rfl
  | cons d l =>
    rw [List.dropWhile_cons_of_neg]
    intro hd
    exact h (by rw [← eq_of_beq hd]; rfl)

/-- What is between two other characters is not cut off. -/
theorem trim_singleton_append (hhead : c ∉ s.toList.head?) (hlast : c ∉ s.toList.getLast?) :
    trim (String.singleton c ++ s) c = s := by
  rw [trim, String.toList_append, String.toList_singleton, List.singleton_append,
    List.dropWhile_cons_of_pos (p := (· == c)) (beq_self_eq_true c), dropWhile_of_head? hhead,
    dropWhile_of_head? (by rwa [List.head?_reverse]), List.reverse_reverse, String.ofList_toList]

/-- Only the last character is cut off when there is no other like it. -/
theorem trimRight_append_singleton (h : c ∉ s.toList) :
    trimRight (s ++ String.singleton c) c = s := by
  have hhead : c ∉ s.toList.reverse.head? := fun hc => h (List.mem_reverse.1 (List.mem_of_head? hc))
  rw [trimRight, String.toList_append, String.toList_singleton, List.reverse_append,
    List.reverse_singleton, List.singleton_append,
    List.dropWhile_cons_of_pos (p := (· == c)) (beq_self_eq_true c), dropWhile_of_head? hhead,
    List.reverse_reverse, String.ofList_toList]

/-- `unicode.IsSpace`: the characters with the White_Space property. -/
def isSpace (c : Char) : Bool :=
  let n := c.toNat
  (0x09 ≤ n && n ≤ 0x0d) || n == 0x20 || n == 0x85 || n == 0xa0 || n == 0x1680 ||
    (0x2000 ≤ n && n ≤ 0x200a) || n == 0x2028 || n == 0x2029 || n == 0x202f || n == 0x205f ||
    n == 0x3000

/-- `strings.TrimSpace`. -/
def trimSpace (s : String) : String :=
  String.ofList ((s.toList.dropWhile isSpace).reverse.dropWhile isSpace).reverse

theorem toList_trimSpace (s : String) :
    (trimSpace s).toList = (s.toList.dropWhile isSpace).rdropWhile isSpace := by
  rw [trimSpace, String.toList_ofList, List.rdropWhile]

theorem mem_of_mem_trimSpace (h : c ∈ (trimSpace s).toList) :
    c ∈ s.toList := by
  rw [toList_trimSpace] at h
  have hdrop := List.rdropWhile_prefix isSpace (s.toList.dropWhile isSpace)
  exact (List.dropWhile_suffix _).subset (hdrop.subset h)

/-- What is trimmed has nothing left to trim. -/
theorem trimSpace_trimSpace (s : String) : trimSpace (trimSpace s) = trimSpace s := by
  rw [← String.toList_inj, toList_trimSpace (trimSpace s), toList_trimSpace s]
  -- Cutting at the end leaves the first character, if any, as it was.
  have hfront : ((s.toList.dropWhile isSpace).rdropWhile isSpace).dropWhile isSpace =
      (s.toList.dropWhile isSpace).rdropWhile isSpace := by
    rw [List.dropWhile_eq_self_iff]
    intro hpos
    have hdrop := List.rdropWhile_prefix isSpace (s.toList.dropWhile isSpace)
    rw [hdrop.getElem]
    exact List.dropWhile_get_zero_not _ _ (hpos.trans_le hdrop.length_le)
  rw [hfront, List.rdropWhile_idempotent]

/-- A string is left as it is if it does not begin or end with white space. -/
theorem trimSpace_eq_self_iff :
    trimSpace s = s ↔
      (∀ c ∈ s.toList.head?, isSpace c = false) ∧ ∀ c ∈ s.toList.getLast?, isSpace c = false := by
  rw [← String.toList_inj, toList_trimSpace]
  have hhead : s.toList.dropWhile isSpace = s.toList ↔
      ∀ c ∈ s.toList.head?, isSpace c = false := by
    cases s.toList <;> simp [List.dropWhile_eq_self_iff]
  have hlast : s.toList.rdropWhile isSpace = s.toList ↔
      ∀ c ∈ s.toList.getLast?, isSpace c = false := by
    rw [List.rdropWhile_eq_self_iff]
    constructor
    · intro h c hc
      obtain ⟨hne, rfl⟩ := List.mem_getLast?_eq_getLast hc
      simpa using h hne
    · intro h hne
      simpa using h _ (List.getLast?_eq_getLast_of_ne_nil hne)
  rw [← hhead, ← hlast]
  constructor
  · intro h
    have hdrop : s.toList.dropWhile isSpace = s.toList := by
      refine (List.dropWhile_suffix _).eq_of_length_le ?_
      exact (congrArg List.length h).symm.trans_le (List.rdropWhile_prefix _ _).length_le
    rw [hdrop] at h
    exact ⟨hdrop, h⟩
  · rintro ⟨hdrop, hrdrop⟩
    rw [hdrop, hrdrop]

/-- A first character that is no white space stays. -/
theorem head?_trimSpace (h : s.toList.head? = some c) (hc : isSpace c = false) :
    (trimSpace s).toList.head? = some c := by
  obtain ⟨l, hl⟩ := List.head?_eq_some_iff.1 h
  rw [toList_trimSpace, hl, List.dropWhile_cons_of_neg (by simp [hc])]
  obtain ⟨t, ht⟩ := List.rdropWhile_prefix isSpace (c :: l)
  cases hr : (c :: l).rdropWhile isSpace with
  | nil =>
    have := List.rdropWhile_eq_nil_iff.1 hr c List.mem_cons_self
    rw [hc] at this
    cases this
  | cons c' l' =>
    rw [hr] at ht
    rw [(List.cons.inj ht).1]
    rfl

/-- `strings.ToLower` on ASCII letters; every other character is kept. The
    model only compares the result with ASCII words none of whose letters is
    the lower case of a character outside ASCII. -/
def toLower (s : String) : String := String.ofList (s.toList.map Char.toLower)

/-- `unicode.ToLower` on the characters whose lower case is an ASCII letter, the
    dotted I and the Kelvin sign among them; every other character is kept. -/
def lowerRune (c : Char) : Char :=
  if c.toNat = 0x130 then 'i' else if c.toNat = 0x212a then 'k' else c.toLower

/-- `strings.ToLower` where the result may be compared with any ASCII word. -/
def toLowerASCII (s : String) : String := String.ofList (s.toList.map lowerRune)

@[simp] theorem toList_toLowerASCII (s : String) :
    (toLowerASCII s).toList = s.toList.map lowerRune := by
  rw [toLowerASCII, String.toList_ofList]

/-- `strings.ToUpper` on the characters whose upper case is an ASCII letter, the
    dotless i and the long s among them; every other character is kept. The
    model only compares the result with ASCII words. -/
def toUpper (s : String) : String :=
  String.ofList <| s.toList.map fun c =>
    if c.toNat = 0x131 then 'I' else if c.toNat = 0x17f then 'S' else c.toUpper

/-- `strings.ContainsRune`. -/
def containsRune (s : String) (c : Char) : Bool := s.toList.contains c

/-- `strconv.ParseBool`. -/
def parseBool (s : String) : Option Bool :=
  if s ∈ ["1", "t", "T", "true", "TRUE", "True"] then some true
  else if s ∈ ["0", "f", "F", "false", "FALSE", "False"] then some false
  else none

/-! ## Splitting and joining -/

/-- `strings.Split` at a separator of one character. -/
def split (s : String) (sep : Char) : List String :=
  (s.toList.splitOn sep).map String.ofList

/-- What is before and after the first `sep`, if there is one. -/
def cutList {α : Type} [DecidableEq α] (sep : α) : List α → Option (List α × List α)
  | [] => none
  | c :: l => if c = sep then some ([], l) else (cutList sep l).map fun (a, b) => (c :: a, b)

theorem cutList_append {α : Type} [DecidableEq α] {sep : α} {a : List α} (h : sep ∉ a)
    (b : List α) : cutList sep (a ++ sep :: b) = some (a, b) := by
  induction a with
  | nil => exact if_pos rfl
  | cons c a ih =>
    rw [List.mem_cons, not_or] at h
    rw [List.cons_append, cutList, if_neg (Ne.symm h.1), ih h.2]
    rfl

theorem cutList_of_notMem {α : Type} [DecidableEq α] {sep : α} {l : List α} (h : sep ∉ l) :
    cutList sep l = none := by
  induction l with
  | nil => rfl
  | cons c l ih =>
    rw [List.mem_cons, not_or] at h
    rw [cutList, if_neg (Ne.symm h.1), ih h.2]
    rfl

/-- `strings.SplitN` at a separator of one character: at most `n` parts, the
    last one uncut. -/
def splitN (s : String) (sep : Char) : Nat → List String
  | 0 => []
  | 1 => [s]
  | n + 2 => match cutList sep s.toList with
    | none => [s]
    | some (a, b) => String.ofList a :: splitN (String.ofList b) sep (n + 1)

theorem splitN_two_append {a : String} {sep : Char} (h : sep ∉ a.toList) (b : String) :
    splitN (a ++ String.singleton sep ++ b) sep 2 = [a, b] := by
  have hlist : (a ++ String.singleton sep ++ b).toList = a.toList ++ sep :: b.toList := by
    rw [String.toList_append, String.toList_append, String.toList_singleton, List.append_assoc]
    rfl
  rw [splitN, hlist, cutList_append h]
  simp only [splitN, String.ofList_toList]

theorem splitN_two_of_notMem {sep : Char} (h : sep ∉ s.toList) :
    splitN s sep 2 = [s] := by
  rw [splitN, cutList_of_notMem h]

/-- The first part begins as the whole does, if that is not with the separator. -/
theorem head?_splitN_two (sep : Char) (h : s.toList.head? = some c) (hc : c ≠ sep) :
    ∃ t ts, splitN s sep 2 = t :: ts ∧ t.toList.head? = some c := by
  obtain ⟨l, hl⟩ := List.head?_eq_some_iff.1 h
  rw [splitN]
  cases hcut : cutList sep s.toList with
  | none => exact ⟨s, [], rfl, h⟩
  | some cut =>
    rw [hl, cutList, if_neg hc] at hcut
    obtain ⟨cut', -, rfl⟩ := Option.map_eq_some_iff.1 hcut
    exact ⟨_, _, rfl, by simp⟩

theorem head?_split (sep : Char) (h : s.toList.head? = some c) (hc : c ≠ sep) :
    ∃ t ts, split s sep = t :: ts ∧ t.toList.head? = some c := by
  obtain ⟨l, hl⟩ := List.head?_eq_some_iff.1 h
  obtain ⟨m, ms, hms⟩ := List.exists_cons_of_ne_nil (List.splitOn_ne_nil sep l)
  rw [split, hl, List.splitOn_cons_eq_if_modifyHead, if_neg (by simpa using hc), hms]
  exact ⟨_, _, rfl, by simp⟩

/-- `strings.Join`. -/
def join : List String → String → String
  | [], _ => ""
  | [s], _ => s
  | s :: l, sep => s ++ sep ++ join l sep

theorem toList_join (l : List String) (sep : String) :
    (join l sep).toList = sep.toList.intercalate (l.map String.toList) := by
  induction l with
  | nil => rfl
  | cons s l ih =>
    cases l with
    | nil => simp [join]
    | cons t l =>
      rw [join, String.toList_append, String.toList_append, ih]
      · simp
      · exact fun h => absurd h (List.cons_ne_nil _ _)

theorem join_concat {l : List String} (hl : l ≠ []) (s sep : String) :
    join (l ++ [s]) sep = join l sep ++ sep ++ s := by
  induction l with
  | nil => exact absurd rfl hl
  | cons t l ih =>
    cases l with
    | nil => rfl
    | cons u l =>
      have := ih (List.cons_ne_nil u l)
      simp only [List.cons_append] at this
      simp [join, this, String.append_assoc]

/-- One more part that is not empty changes what is joined. -/
theorem join_concat_ne (l : List String) (hs : s ≠ "") (sep : String) :
    join (l ++ [s]) sep ≠ join l sep := by
  cases l with
  | nil => exact hs
  | cons t l =>
    rw [join_concat (List.cons_ne_nil t l), String.append_assoc]
    intro h
    have hlen := congrArg (fun s => s.toList.length) h
    simp [hs] at hlen

theorem join_split (s : String) (sep : Char) :
    join (split s sep) (String.singleton sep) = s := by
  rw [← String.toList_inj, toList_join, split, List.map_map]
  have h : (String.toList ∘ String.ofList) = id := funext fun _ => String.toList_ofList
  rw [h, List.map_id, String.toList_singleton, List.intercalate_splitOn]

/-- No part has the separator. -/
theorem notMem_of_mem_splitOn {sep : Char} {cs l : List Char} (h : l ∈ cs.splitOn sep) :
    sep ∉ l := by
  induction cs generalizing l with
  | nil =>
    rw [List.splitOn_nil, List.mem_singleton] at h
    simp [h]
  | cons c cs ih =>
    rw [List.splitOn_cons_eq_if_modifyHead] at h
    obtain ⟨m, ms, hms⟩ := List.exists_cons_of_ne_nil (List.splitOn_ne_nil sep cs)
    rw [hms] at h ih
    split_ifs at h with hc
    · rcases List.mem_cons.1 h with rfl | h
      · exact List.not_mem_nil
      · exact ih h
    · rcases List.mem_cons.1 h with rfl | h
      · have hm := ih (List.mem_cons_self (a := m))
        rw [List.mem_cons, not_or]
        exact ⟨fun hsep => hc (beq_iff_eq.2 hsep.symm), hm⟩
      · exact ih (List.mem_cons_of_mem _ h)

/-- The separator is in none of the parts. -/
theorem notMem_of_mem_split {s t : String} {sep : Char} (h : t ∈ split s sep) : sep ∉ t.toList := by
  obtain ⟨l, hl, rfl⟩ := List.mem_map.1 h
  rw [String.toList_ofList]
  exact notMem_of_mem_splitOn hl

theorem split_join {l : List String} (hl : l ≠ []) {sep : Char} (h : ∀ s ∈ l, sep ∉ s.toList) :
    split (join l (String.singleton sep)) sep = l := by
  rw [split, toList_join, String.toList_singleton, List.splitOn_intercalate]
  · rw [List.map_map, Function.comp_def]
    simp only [String.ofList_toList, List.map_id']
  · intro s hs
    obtain ⟨t, ht, rfl⟩ := List.mem_map.1 hs
    exact h t ht
  · exact fun h => hl (List.map_eq_nil_iff.1 h)

theorem head?_toList_join (l : List String) (hs : s ≠ "") (sep : String) :
    (join (s :: l) sep).toList.head? = s.toList.head? := by
  have hs' : s.toList ≠ [] := fun h => hs (String.toList_eq_nil_iff.1 h)
  cases l with
  | nil => rfl
  | cons t l =>
    rw [join, String.append_assoc, String.toList_append, List.head?_append_of_ne_nil _ hs']
    exact fun h => absurd h (List.cons_ne_nil _ _)

theorem getLast?_toList_join (l : List String) (hs : s ≠ "") (sep : String) :
    (join (l ++ [s]) sep).toList.getLast? = s.toList.getLast? := by
  have hs' : s.toList ≠ [] := fun h => hs (String.toList_eq_nil_iff.1 h)
  cases l with
  | nil => rfl
  | cons t l =>
    rw [join_concat (List.cons_ne_nil t l), String.toList_append,
      List.getLast?_append_of_ne_nil _ hs']

/-- What is joined of trimmed parts is trimmed. -/
theorem trimSpace_join {l : List String} (hl : l ≠ []) (h : ∀ s ∈ l, s ≠ "" ∧ trimSpace s = s)
    (sep : String) : trimSpace (join l sep) = join l sep := by
  rw [trimSpace_eq_self_iff]
  constructor
  · obtain ⟨s, l', rfl⟩ := List.exists_cons_of_ne_nil hl
    obtain ⟨hne, htrim⟩ := h s List.mem_cons_self
    rw [head?_toList_join l' hne]
    exact (trimSpace_eq_self_iff.1 htrim).1
  · obtain ⟨l', s, rfl⟩ := (List.eq_nil_or_concat' l).resolve_left hl
    obtain ⟨hne, htrim⟩ := h s (by simp)
    rw [getLast?_toList_join l' hne]
    exact (trimSpace_eq_self_iff.1 htrim).2

end Go
