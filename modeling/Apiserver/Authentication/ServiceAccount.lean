import Apiserver.Go.Strings

/-!
# Service accounts

The user and group names of service accounts (`pkg/authentication/serviceaccount`).
A service account is a namespace and a name, written as one user name
`system:serviceaccount:<namespace>:<name>`.

* `matchesUsername_iff`: the comparison without building the user name
  (`matchesUsername`) agrees with building it (`makeUsername`);
* `splitUsername_eq_some`: a user name that splits is the one made from its parts;
* `username_iff`: for parts that the validators accept, the three agree.
-/

namespace Apiserver.ServiceAccount

open Go

def usernamePrefix : String := "system:serviceaccount:"
def usernameSeparator : String := ":"
def groupPrefix : String := "system:serviceaccounts:"
def allServiceAccountsGroup : String := "system:serviceaccounts"

/-- `MakeUsername`. -/
def makeUsername (ns name : String) : String :=
  usernamePrefix ++ ns ++ usernameSeparator ++ name

/-- `MatchesUsername`: the user name is cut from the left, part by part. -/
def matchesUsername (ns name username : String) : Bool :=
  if !hasPrefix username usernamePrefix then false
  else
    let username := trimPrefix username usernamePrefix
    if !hasPrefix username ns then false
    else
      let username := trimPrefix username ns
      if !hasPrefix username usernameSeparator then false
      else trimPrefix username usernameSeparator == name

/-- It compares with the name that would be made. -/
theorem matchesUsername_iff {ns name username : String} :
    matchesUsername ns name username = true ↔ username = makeUsername ns name := by
  constructor
  · intro h
    rw [matchesUsername] at h
    dsimp only at h
    split_ifs at h with h₁ h₂ h₃
    simp only [Bool.not_eq_true', Bool.not_eq_false, beq_iff_eq] at h₁ h₂ h₃ h
    obtain ⟨t₁, rfl⟩ := hasPrefix_iff.1 h₁
    rw [trimPrefix_append] at h₂ h₃ h
    obtain ⟨t₂, rfl⟩ := hasPrefix_iff.1 h₂
    rw [trimPrefix_append] at h₃ h
    obtain ⟨t₃, rfl⟩ := hasPrefix_iff.1 h₃
    rw [trimPrefix_append] at h
    rw [h, makeUsername, String.append_assoc, String.append_assoc]
  · rintro rfl
    rw [makeUsername, String.append_assoc, String.append_assoc]
    simp [matchesUsername]

/-- The name checks of golib (`util/validation`): the complaints about a name,
    none for a valid one. -/
structure NameValidation where
  isDNS1123Label : String → List String
  isDNS1123Subdomain : String → List String

/-- `SplitUsername`; `none` stands for its error. -/
def splitUsername (v : NameValidation) (username : String) : Option (String × String) :=
  if !hasPrefix username usernamePrefix then none
  else
    match split (trimPrefix username usernamePrefix) ':' with
    | [ns, name] =>
      if v.isDNS1123Label ns ≠ [] then none
      else if v.isDNS1123Subdomain name ≠ [] then none
      else some (ns, name)
    | _ => none

/-- A user name that splits is made from its parts. -/
theorem splitUsername_eq_some {v : NameValidation} {username ns name : String}
    (h : splitUsername v username = some (ns, name)) : username = makeUsername ns name := by
  rw [splitUsername] at h
  split_ifs at h with hp
  obtain ⟨t, rfl⟩ := hasPrefix_iff.1 (by simpa using hp)
  rw [trimPrefix_append] at h
  split at h
  case h_2 => cases h
  case h_1 ns' name' hs =>
    split_ifs at h
    cases h
    have := join_split t ':'
    rw [hs] at this
    rw [← this, makeUsername, String.append_assoc, String.append_assoc, join, join,
      String.append_assoc]
    · rfl
    · exact List.cons_ne_nil _ _

/-- The validators accept no name with a colon. -/
structure NameValidation.ForbidsColon (v : NameValidation) : Prop where
  label : ∀ s, v.isDNS1123Label s = [] → ':' ∉ s.toList
  subdomain : ∀ s, v.isDNS1123Subdomain s = [] → ':' ∉ s.toList

/-- A namespace and a name, as the validators accept them. -/
structure NameValidation.Valid (v : NameValidation) (ns name : String) : Prop where
  ns : v.isDNS1123Label ns = []
  name : v.isDNS1123Subdomain name = []

/-- The user name of valid parts splits into them: the parts have no colon to
    be cut at. -/
theorem splitUsername_makeUsername {v : NameValidation} (hv : v.ForbidsColon)
    {ns name : String} (h : v.Valid ns name) :
    splitUsername v (makeUsername ns name) = some (ns, name) := by
  have hcolon : ∀ s ∈ [ns, name], ':' ∉ s.toList := by
    simp only [List.forall_mem_cons, List.not_mem_nil, IsEmpty.forall_iff, implies_true, and_true]
    exact ⟨hv.label ns h.ns, hv.subdomain name h.name⟩
  have hsplit : split (ns ++ (usernameSeparator ++ name)) ':' = [ns, name] := by
    have := split_join (List.cons_ne_nil ns [name]) hcolon
    rwa [join, join, String.append_assoc] at this
    exact List.cons_ne_nil _ _
  rw [makeUsername, String.append_assoc, String.append_assoc, splitUsername, hasPrefix_append,
    trimPrefix_append, hsplit]
  simp [h.ns, h.name]

/-- Matching, making and splitting agree on the user names of valid parts, so that
    the user name determines the parts. -/
theorem username_iff {v : NameValidation} (hv : v.ForbidsColon) {ns name : String}
    (h : v.Valid ns name) :
    (∀ u, (matchesUsername ns name u = true ↔ u = makeUsername ns name) ∧
      (u = makeUsername ns name ↔ splitUsername v u = some (ns, name))) ∧
    ∀ ns' name', v.Valid ns' name' → makeUsername ns' name' = makeUsername ns name →
      (ns', name') = (ns, name) := by
  have hsplit := splitUsername_makeUsername hv h
  refine ⟨fun u => ⟨matchesUsername_iff, ?_, splitUsername_eq_some⟩, ?_⟩
  · rintro rfl
    exact hsplit
  · intro ns' name' h' heq
    have hsplit' := splitUsername_makeUsername hv h'
    rw [heq, hsplit] at hsplit'
    exact (Option.some.inj hsplit').symm

/-- Validators that only look for colons. -/
def colonOnly : NameValidation where
  isDNS1123Label s := if ':' ∈ s.toList then ["colon"] else []
  isDNS1123Subdomain s := if ':' ∈ s.toList then ["colon"] else []

theorem colonOnly_forbidsColon : colonOnly.ForbidsColon where
  label s h := by
    intro hmem
    simp [colonOnly, hmem] at h
  subdomain s h := by
    intro hmem
    simp [colonOnly, hmem] at h

theorem username_iff_kubeSystem :
    colonOnly.ForbidsColon ∧ colonOnly.Valid "kube-system" "default" ∧
      (∀ u, (matchesUsername "kube-system" "default" u = true ↔
          u = makeUsername "kube-system" "default") ∧
        (u = makeUsername "kube-system" "default" ↔
          splitUsername colonOnly u = some ("kube-system", "default"))) :=
  have hvalid : colonOnly.Valid "kube-system" "default" := ⟨by decide, by decide⟩
  ⟨colonOnly_forbidsColon, hvalid, (username_iff colonOnly_forbidsColon hvalid).1⟩

/-- `MakeGroupNames`: the fixed groups of the service accounts of a namespace. -/
def makeGroupNames (ns : String) : List String :=
  [allServiceAccountsGroup, groupPrefix ++ ns]

end Apiserver.ServiceAccount
