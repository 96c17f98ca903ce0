import Apiserver.Go.Strings

/-!
# Hosts and ports

`net.SplitHostPort` takes the port off an address `host:port`, where a host with colons
stands in brackets, and `net.JoinHostPort` puts the two together.

* `splitHostPort_eq_some`: an address that is split is of one of the two forms.
-/

namespace Go

/-- What is before and after the last `sep`, if there is one. -/
def cutLast {α : Type} [DecidableEq α] (sep : α) (l : List α) : Option (List α × List α) :=
  (cutList sep l.reverse).map fun cut => (cut.2.reverse, cut.1.reverse)

theorem cutList_eq_some {α : Type} [DecidableEq α] {sep : α} {l a b : List α}
    (h : cutList sep l = some (a, b)) : l = a ++ sep :: b := by
  induction l generalizing a with
  | nil => cases h
  | cons c l ih =>
    rw [cutList] at h
    split_ifs at h with hc
    · cases h
      rw [hc]
      rfl
    · obtain ⟨cut, hcut, hpair⟩ := Option.map_eq_some_iff.1 h
      cases hpair
      rw [ih hcut]
      rfl

theorem cutLast_eq_some {α : Type} [DecidableEq α] {sep : α} {l a b : List α}
    (h : cutLast sep l = some (a, b)) : l = a ++ sep :: b := by
  obtain ⟨cut, hcut, hpair⟩ := Option.map_eq_some_iff.1 h
  cases hpair
  rw [← List.reverse_inj, cutList_eq_some hcut]
  simp

/-- `net.SplitHostPort`; `none` stands for its errors. -/
def splitHostPort (hostport : String) : Option (String × String) :=
  let s := hostport.toList
  match cutLast ':' s with
  | none => none
  | some (before, port) =>
    if s.head? = some '[' then
      match cutList ']' s with
      | none => none
      | some (front, _) =>
        -- The first closing bracket is to be just before the last colon.
        if front.length + 1 ≠ before.length then none
        else if '[' ∈ s.drop 1 ∨ ']' ∈ s.drop (front.length + 1) then none
        else some (String.ofList (front.drop 1), String.ofList port)
    else if ':' ∈ before then none
    else if '[' ∈ s ∨ ']' ∈ s then none
    else some (String.ofList before, String.ofList port)

/-- `net.JoinHostPort`. -/
def joinHostPort (host port : String) : String :=
  if ':' ∈ host.toList then "[" ++ host ++ "]:" ++ port else host ++ ":" ++ port

/-- What is in brackets, if they are closed just before the last colon. -/
theorem eq_brackets {s before after front rest : List Char} (hs : s = before ++ ':' :: after)
    (hfront : s = front ++ ']' :: rest) (hbracket : s.head? = some '[')
    (hlength : front.length + 1 = before.length) :
    s = '[' :: (front.drop 1 ++ ']' :: ':' :: after) := by
  have heq : before ++ ':' :: after = (front ++ [']']) ++ rest := by
    rw [← hs, hfront, List.append_assoc]
    rfl
  have hbefore : before = front ++ [']'] :=
    (List.append_inj heq (by rw [List.length_append, List.length_singleton, hlength])).1
  cases front with
  | nil =>
    rw [hfront] at hbracket
    cases hbracket
  | cons c tail =>
    rw [hfront] at hbracket
    cases hbracket
    rw [hs, hbefore]
    simp

/-- An address is a host and a port, or a host in brackets and a port. -/
theorem splitHostPort_eq_some {hostport host port : String}
    (h : splitHostPort hostport = some (host, port)) :
    hostport = host ++ ":" ++ port ∨ hostport = "[" ++ host ++ "]:" ++ port := by
  rw [splitHostPort] at h
  cases hlast : cutLast ':' hostport.toList with
  | none =>
    rw [hlast] at h
    cases h
  | some cut =>
    obtain ⟨before, after⟩ := cut
    have hs := cutLast_eq_some hlast
    simp only [hlast] at h
    split_ifs at h with hbracket hcolon hother
    · right
      cases hfirst : cutList ']' hostport.toList with
      | none =>
        rw [hfirst] at h
        cases h
      | some cut =>
        simp only [hfirst] at h
        split_ifs at h with hlength hinner
        cases h
        rw [← String.toList_inj, eq_brackets hs (cutList_eq_some hfirst) hbracket
          (not_not.1 hlength)]
        simp
    · left
      cases h
      rw [← String.toList_inj, hs]
      simp

end Go
