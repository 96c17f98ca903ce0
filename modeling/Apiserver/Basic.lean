import Mathlib.Data.List.AList

/-!
# Users, attributes and decisions

The data the authenticators, the authorizers and the filters pass to each
other: the user of a request (`pkg/authentication/user`), the attributes of a
request and the decision on them (`pkg/authorization/authorizer`).

Errors are represented by their texts, a nil error by `none`. What the code
takes from outside the repository and the standard library is a parameter
(`Deps`), with the facts about it the code relies on.
-/

namespace Apiserver

/-- The text of an error. -/
abbrev Error := String

/-- Inversion of a mapped result. -/
theorem map_eq_ok {ε α β : Type} {x : Except ε α} {f : α → β} {b : β} (h : x.map f = .ok b) :
    ∃ a, x = .ok a ∧ f a = b := by
  cases x with
  | error err => cases h
  | ok a =>
    cases h
    exact ⟨a, rfl, rfl⟩

theorem bind_eq_ok {ε α β : Type} {x : Except ε α} {f : α → Except ε β} {b : β}
    (h : (x >>= f) = .ok b) : ∃ a, x = .ok a ∧ f a = .ok b := by
  cases x with
  | error err => cases h
  | ok a => exact ⟨a, rfl, h⟩

/-- Only errors are mapped. -/
theorem mapError_eq_ok {ε ε' α : Type} {x : Except ε α} {f : ε → ε'} {a : α} :
    x.mapError f = .ok a ↔ x = .ok a := by
  cases x with
  | error err => simp [Except.mapError]
  | ok a' => simp [Except.mapError]

/-- A Go `map[string][]string`, its entries listed in the order a `for range`
    visits them. -/
abbrev Values := AList fun _ : String => List String

/-- What the model takes from outside: the errors of golib, and the `%q` verb of
    `fmt`, whose table of printable characters is not embedded. -/
structure Deps where
  /-- `NewAggregate`: one error for a list of errors, nil for the empty list. -/
  newAggregate : List Error → Option Error
  newAggregate_nil : newAggregate [] = none
  newAggregate_cons : ∀ e l, newAggregate (e :: l) ≠ none
  /-- `NewNotFound`: the error that there is no object of a kind. -/
  newNotFound : String → Error
  /-- The `%q` verb. -/
  quote : String → String

/-- An aggregate is nil exactly when there is nothing to aggregate. -/
@[simp] theorem Deps.newAggregate_eq_none (d : Deps) {l : List Error} :
    d.newAggregate l = none ↔ l = [] := by
  cases l with
  | nil => simp [d.newAggregate_nil]
  | cons e l => simp [d.newAggregate_cons e l]

/-- Dependencies to run the model with: errors separated by commas, and plain
    quotes. -/
def Deps.plain : Deps where
  newAggregate
    | [] => none
    | e :: l => some (l.foldl (fun s e => s ++ ", " ++ e) e)
  newAggregate_nil := rfl
  newAggregate_cons _ _ := nofun
  newNotFound kind := kind ++ " not found"
  quote s := "\"" ++ s ++ "\""

/-! ## Users -/

/-- `user.Info`, a user that has been authenticated. -/
structure UserInfo where
  name : String
  uid : String := ""
  groups : List String := []
  extra : Values := ∅
  deriving DecidableEq

def anonymous : String := "system:anonymous"
def allAuthenticated : String := "system:authenticated"
def allUnauthenticated : String := "system:unauthenticated"

/-! ## Authorizers -/

/-- `authorizer.AttributesRecord`, what a request asks for. A nil user is
    `none`; `ns` is the namespace. -/
structure Attributes where
  user : Option UserInfo := none
  verb : String := ""
  ns : String := ""
  apiGroup : String := ""
  apiVersion : String := ""
  resource : String := ""
  subresource : String := ""
  name : String := ""
  resourceRequest : Bool := false
  path : String := ""
  deriving DecidableEq

/-- `IsReadOnly`. -/
def Attributes.isReadOnly (a : Attributes) : Bool :=
  a.verb == "get" || a.verb == "list" || a.verb == "watch"

/-- `authorizer.Decision`. -/
inductive Decision
  | deny
  | allow
  | noOpinion
  deriving DecidableEq, Repr

/-- What `Authorize` returns: the decision, its reason, and an error. -/
structure Answer where
  decision : Decision
  reason : String := ""
  err : Option Error := none
  deriving DecidableEq, Repr

/-- `authorizer.Authorizer`. -/
abbrev Authorizer := Attributes → Answer

end Apiserver
