import Apiserver.Rest.FieldKeys

/-!
# The shapes of handles

A route handle is made of a function `func(http.ResponseWriter, *http.Request, *P,
*B)`, where `P` is a struct with `param` tags and `B` a struct without, a slice or a
map. To tell which is which, `NewRouteHandle` asks the parameter codec for the fields
of each (`isParam`). The codec analyses structs only: asked for anything else, it
panics, and so it does on a struct whose tags it cannot make sense of.

Here `NewRouteHandle` is modelled with the panics; when there is none, it is that of
`Apiserver.Rest.RouteHandle` (`newRouteHandle_of_ok`).

* `initHandleIn_eq_ok_iff`, `initHandleIn_eq_error_iff`: which arguments are taken,
  and which are rejected with an error;
* `conforms_iff`: a function of a documented shape is taken for what it is, and any
  other one rejected with an error, exactly if the codec tells its types apart.
-/

namespace Apiserver.Rest

open Go

variable {V : Type}

/-! ## Building a handle -/

namespace Types

variable (R : Types)

/-- `isParam`. -/
def isParam (t : GoType) : Except Panic Bool :=
  match R.validateParamType t with
  | .ok _ => .ok true
  | .error (.error _) => .ok false
  | .error (.panic msg) => .error msg

/-- The loop of `initHandleIO`, over the arguments after the request. -/
def initHandleIn (e : Env V) : List GoType → RouteHandle V → Except Failure (RouteHandle V)
  | [], p => .ok p
  | .ptr _ t :: l, p =>
    match R.isParam t with
    | .error msg => .error (.panic msg)
    | .ok true =>
      match Rest.validateParamType t with
      | some err => .error (.error (e.wrap err "request param type invlid"))
      | none =>
        if p.param.isSome then .error (.error "duplicate request param field")
        else initHandleIn e l { p with param := some t, ins := p.ins ++ [.param] }
    | .ok false =>
      match validateBodyType t with
      | some err => .error (.error (e.wrap err "get request body type"))
      | none =>
        if p.body.isSome then .error (.error "duplicate request body field")
        else initHandleIn e l { p with body := some t, ins := p.ins ++ [.body] }
  | _ :: _, _ => .error (.error "payload must be a ptr")

/-- `NewRouteHandle`. -/
def newRouteHandle (e : Env V) (handle : Handle V) : Except Failure (RouteHandle V) :=
  match handle.type with
  | .func string ins outs =>
    match validateHandle handle.name ins outs with
    | some err =>
      .error (.error (e.wrap err ("validate handle function " ++ handle.funcName ++ " " ++ string)))
    | none => match R.initHandleIn e (ins.drop 2) { handle } with
      | .error (.error err) => .error (.error (e.wrap err "init handleIO"))
      | .error (.panic msg) => .error (.panic msg)
      | .ok p => .ok p
  | _ => .error (.error (handle.name ++ " expected func"))

/-- The environment with the codec of the types, for which a panic is an error like
    any other. -/
def env (e : Env V) : Env V :=
  { e with
    validateParamType := fun t => match R.validateParamType t with
      | .ok _ => none
      | .error (.error err) => some err
      | .error (.panic msg) => some msg }

variable {R} {e : Env V}

variable {t : GoType}

theorem isParam_of_takenAsParam (h : R.TakenAsParam t) : R.isParam t = .ok true := by
  rcases R.validateParamType_cases t with ⟨-, hv⟩ | ⟨hb, -⟩ | ⟨hp, -⟩
  · rw [isParam, hv]
  · exact absurd hb h.not_takenAsBody
  · exact absurd h hp

theorem isParam_of_takenAsBody (h : R.TakenAsBody t) : R.isParam t = .ok false := by
  rcases R.validateParamType_cases t with ⟨hp, -⟩ | ⟨-, err, hv⟩ | ⟨-, hb, -⟩
  · exact absurd h hp.not_takenAsBody
  · rw [isParam, hv]
  · exact absurd h hb

theorem isParam_cases (t : GoType) :
    (R.TakenAsParam t ∧ R.isParam t = .ok true) ∨ (R.TakenAsBody t ∧ R.isParam t = .ok false) ∨
      (¬ R.TakenAsParam t ∧ ¬ R.TakenAsBody t ∧ ∃ msg, R.isParam t = .error msg) := by
  rcases R.validateParamType_cases t with ⟨hp, -⟩ | ⟨hb, -⟩ | ⟨hp, hb, msg, hv⟩
  · exact .inl ⟨hp, isParam_of_takenAsParam hp⟩
  · exact .inr (.inl ⟨hb, isParam_of_takenAsBody hb⟩)
  · exact .inr (.inr ⟨hp, hb, msg, by rw [isParam, hv]⟩)

/-- What the codec takes as a param is a struct. -/
theorem TakenAsParam.validate (h : R.TakenAsParam t) :
    Rest.validateParamType t = none := by
  obtain ⟨-, s, rfl, -⟩ := h
  rfl

theorem isParam_env : Rest.isParam (R.env e) t = true ↔ R.TakenAsParam t := by
  rcases R.validateParamType_cases t with ⟨hp, hv⟩ | ⟨hb, err, hv⟩ | ⟨hp, -, msg, hv⟩
  · simp [Rest.isParam, env, hv, hp]
  · have hp : ¬ R.TakenAsParam t := fun hp => hp.not_takenAsBody hb
    simp [Rest.isParam, env, hv, hp]
  · simp [Rest.isParam, env, hv, hp]

/-! ## The loop over the arguments -/

/-- The loop takes an argument, as a param or as a body. -/
inductive Takes (R : Types) (p : RouteHandle V) : GoType → RouteHandle V → Prop
  | param {s : String} {t : GoType} (ht : R.TakenAsParam t) (hp : p.param = none) :
      Takes R p (.ptr s t) { p with param := some t, ins := p.ins ++ [.param] }
  | body {s : String} {t : GoType} (ht : R.TakenAsBody t) (hkind : validateBodyType t = none)
      (hb : p.body = none) :
      Takes R p (.ptr s t) { p with body := some t, ins := p.ins ++ [.body] }

inductive TakesAll (R : Types) : RouteHandle V → List GoType → RouteHandle V → Prop
  | nil {p : RouteHandle V} : TakesAll R p [] p
  | cons {p q r : RouteHandle V} {a : GoType} {l : List GoType} (ha : R.Takes p a q)
      (hl : TakesAll R q l r) : TakesAll R p (a :: l) r

/-- The loop returns an error on an argument: it is no pointer, there has been one
    like it, or it cannot be a body. -/
inductive Faulty (R : Types) (p : RouteHandle V) : GoType → Prop
  | payload {a : GoType} (ha : ∀ s t, a ≠ .ptr s t) : Faulty R p a
  | twoParams {s : String} {t : GoType} (ht : R.TakenAsParam t) (hp : p.param ≠ none) :
      Faulty R p (.ptr s t)
  | twoBodies {s : String} {t : GoType} (ht : R.TakenAsBody t) (hb : p.body ≠ none) :
      Faulty R p (.ptr s t)
  | kind {s : String} {t : GoType} (ht : R.TakenAsBody t) (hkind : validateBodyType t ≠ none) :
      Faulty R p (.ptr s t)

/-- An argument is faulty, and the ones before it are taken. -/
def Rejects (R : Types) (p : RouteHandle V) (l : List GoType) : Prop :=
  ∃ l₁ a l₂ q, l = l₁ ++ a :: l₂ ∧ R.TakesAll p l₁ q ∧ R.Faulty q a

variable {p q r : RouteHandle V} {a : GoType} {l : List GoType}

/-- What the loop does on an argument. -/
theorem initHandleIn_cons (a : GoType) (l : List GoType) (p : RouteHandle V) :
    (∃ q, R.Takes p a q ∧ R.initHandleIn e (a :: l) p = R.initHandleIn e l q) ∨
      (R.Faulty p a ∧ ∃ err, R.initHandleIn e (a :: l) p = .error (.error err)) ∨
      ∃ s t msg, a = .ptr s t ∧ ¬ R.TakenAsParam t ∧ ¬ R.TakenAsBody t ∧
        R.initHandleIn e (a :: l) p = .error (.panic msg) := by
  cases a with
  | ptr s t =>
    rcases R.isParam_cases t with ⟨ht, hv⟩ | ⟨ht, hv⟩ | ⟨hp, hb, msg, hv⟩
    · rw [initHandleIn, hv]
      simp only [ht.validate]
      cases hp : p.param with
      | none => exact .inl ⟨_, .param ht hp, by simp⟩
      | some u => exact .inr (.inl ⟨.twoParams ht (by simp [hp]), _, rfl⟩)
    · rw [initHandleIn, hv]
      cases hkind : validateBodyType t with
      | some err => exact .inr (.inl ⟨.kind ht (by simp [hkind]), _, rfl⟩)
      | none =>
        cases hb : p.body with
        | none => exact .inl ⟨_, .body ht hkind hb, by simp⟩
        | some u => exact .inr (.inl ⟨.twoBodies ht (by simp [hb]), _, rfl⟩)
    · exact .inr (.inr ⟨s, t, msg, rfl, hp, hb, by rw [initHandleIn, hv]⟩)
  | _ => exact .inr (.inl ⟨.payload (by simp), _, rfl⟩)

/-- A type that is taken is not at fault. -/
theorem Takes.not_faulty (h : R.Takes p a q) : ¬ R.Faulty p a := by
  intro hf
  cases h with
  | param ht hp =>
    cases hf with
    | payload ha => exact ha _ _ rfl
    | twoParams _ hp' => exact hp' hp
    | twoBodies ht' _ => exact ht.not_takenAsBody ht'
    | kind ht' _ => exact ht.not_takenAsBody ht'
  | body ht hkind hb =>
    cases hf with
    | payload ha => exact ha _ _ rfl
    | twoParams ht' _ => exact ht'.not_takenAsBody ht
    | twoBodies _ hb' => exact hb' hb
    | kind _ hkind' => exact hkind' hkind

theorem Takes.unique (h : R.Takes p a q) (h' : R.Takes p a r) : q = r := by
  cases h with
  | param ht _ =>
    cases h' with
    | param _ _ => rfl
    | body ht' _ _ => exact absurd ht' ht.not_takenAsBody
  | body ht _ _ =>
    cases h' with
    | param ht' _ => exact absurd ht ht'.not_takenAsBody
    | body _ _ _ => rfl

theorem Takes.exists_ptr (h : R.Takes p a q) :
    ∃ s t, a = .ptr s t ∧ (R.TakenAsParam t ∨ R.TakenAsBody t) := by
  cases h with
  | param ht _ => exact ⟨_, _, rfl, .inl ht⟩
  | body ht _ _ => exact ⟨_, _, rfl, .inr ht⟩

theorem Faulty.not_unknown (h : R.Faulty p a) {s : String} (ha : a = .ptr s t) :
    R.TakenAsParam t ∨ R.TakenAsBody t := by
  subst ha
  cases h with
  | payload ha => exact absurd rfl (ha _ _)
  | twoParams ht _ => exact .inl ht
  | twoBodies ht _ => exact .inr ht
  | kind ht _ => exact .inr ht

theorem initHandleIn_of_takes (h : R.Takes p a q) (l : List GoType) :
    R.initHandleIn e (a :: l) p = R.initHandleIn e l q := by
  rcases R.initHandleIn_cons (e := e) a l p with ⟨q', hq', heq⟩ | ⟨hf, -⟩ | ⟨s, t, -, ha, hp, hb, -⟩
  · rw [heq, hq'.unique h]
  · exact absurd hf h.not_faulty
  · obtain ⟨s', t', ha', ht'⟩ := h.exists_ptr
    rw [ha] at ha'
    cases ha'
    exact absurd ht' (not_or.2 ⟨hp, hb⟩)

theorem initHandleIn_of_takesAll (h : R.TakesAll p l q) (l' : List GoType) :
    R.initHandleIn e (l ++ l') p = R.initHandleIn e l' q := by
  induction h with
  | nil => rfl
  | cons ha _ ih => rw [List.cons_append, initHandleIn_of_takes ha, ih]

/-- The arguments that are taken. -/
theorem initHandleIn_eq_ok_iff : R.initHandleIn e l p = .ok q ↔ R.TakesAll p l q := by
  constructor
  · intro h
    induction l generalizing p with
    | nil =>
      cases h
      exact .nil
    | cons a l ih =>
      rcases R.initHandleIn_cons (e := e) a l p with
        ⟨p', ha, heq⟩ | ⟨-, err, heq⟩ | ⟨s, t, msg, -, -, -, heq⟩
      · rw [heq] at h
        exact .cons ha (ih h)
      · simp [heq] at h
      · simp [heq] at h
  · intro h
    have hend := initHandleIn_of_takesAll (e := e) h []
    rwa [List.append_nil] at hend

/-- The arguments that are rejected with an error. -/
theorem initHandleIn_eq_error_iff :
    (∃ err, R.initHandleIn e l p = .error (.error err)) ↔ R.Rejects p l := by
  constructor
  · rintro ⟨err, h⟩
    induction l generalizing p with
    | nil => cases h
    | cons a l ih =>
      rcases R.initHandleIn_cons (e := e) a l p with
        ⟨p', ha, heq⟩ | ⟨hf, -⟩ | ⟨s, t, msg, -, -, -, heq⟩
      · rw [heq] at h
        obtain ⟨l₁, b, l₂, q, rfl, hl₁, hf⟩ := ih h
        exact ⟨a :: l₁, b, l₂, q, rfl, .cons ha hl₁, hf⟩
      · exact ⟨[], a, l, p, rfl, .nil, hf⟩
      · simp [heq] at h
  · rintro ⟨l₁, a, l₂, q, rfl, hl₁, hf⟩
    rw [initHandleIn_of_takesAll hl₁]
    rcases R.initHandleIn_cons (e := e) a l₂ q with
      ⟨p', ha, -⟩ | ⟨-, herr⟩ | ⟨s, t, msg, ha, hp, hb, -⟩
    · exact absurd hf ha.not_faulty
    · exact herr
    · exact absurd (hf.not_unknown ha) (not_or.2 ⟨hp, hb⟩)

/-- When there is no panic, the handle is the one built without. -/
theorem initHandleIn_of_ok (h : R.initHandleIn e l p = .ok q) :
    Rest.initHandleIn (R.env e) l p = .ok q := by
  rw [initHandleIn_eq_ok_iff] at h
  induction h with
  | nil => rfl
  | cons ha _ ih =>
    cases ha with
    | param ht hp =>
      rw [Rest.initHandleIn, if_pos (isParam_env.2 ht)]
      simpa [ht.validate, hp] using ih
    | body ht hkind hb =>
      rw [Rest.initHandleIn, if_neg fun h => (isParam_env.1 h).not_takenAsBody ht]
      simpa [hkind, hb] using ih

/-- What is accepted by its shape is accepted. -/
theorem newRouteHandle_of_ok {handle : Handle V} (h : R.newRouteHandle e handle = .ok p) :
    Rest.newRouteHandle (R.env e) handle = .ok p := by
  unfold newRouteHandle at h
  unfold Rest.newRouteHandle
  cases htype : handle.type with
  | func string ins outs =>
    simp only [htype] at h ⊢
    cases hvalid : validateHandle handle.name ins outs with
    | some err => simp [hvalid] at h
    | none =>
      simp only [hvalid] at h ⊢
      cases hin : R.initHandleIn e (ins.drop 2) { handle } with
      | error err => cases err <;> simp [hin] at h
      | ok q =>
        simp only [hin] at h
        cases h
        simp only [initHandleIn_of_ok hin]
  | _ => simp [htype] at h

end Types

/-! ## Documented shapes -/

namespace Types

variable (R : Types)

/-- A struct has a `param` tag, on a field of its own or of a struct it embeds. -/
def HasParamTag (s : String) : Prop := ∃ u, R.Explored s u ∧ ∃ sf ∈ R.fields u, ¬ sf.Untagged

/-- A struct with a `param` tag. -/
inductive ParamShape : GoType → Prop
  | struct {s : String} (h : R.HasParamTag s) : ParamShape (.struct s)

/-- A struct without one, a slice or a map. -/
inductive BodyShape : GoType → Prop
  | struct {s : String} (h : ¬ R.HasParamTag s) : BodyShape (.struct s)
  | slice {s : String} : BodyShape (.slice s)
  | map {s : String} : BodyShape (.map s)

/-- The arguments after the request, with the param and the body among them. -/
inductive Payloads : List GoType → Option GoType → Option GoType → List RequestType → Prop
  | none : Payloads [] .none .none []
  | param {s : String} {t : GoType} (ht : R.ParamShape t) :
      Payloads [.ptr s t] (some t) .none [.param]
  | body {s : String} {t : GoType} (ht : R.BodyShape t) :
      Payloads [.ptr s t] .none (some t) [.body]
  | paramBody {s s' : String} {t u : GoType} (ht : R.ParamShape t) (hu : R.BodyShape u) :
      Payloads [.ptr s t, .ptr s' u] (some t) (some u) [.param, .body]
  | bodyParam {s s' : String} {t u : GoType} (ht : R.ParamShape t) (hu : R.BodyShape u) :
      Payloads [.ptr s' u, .ptr s t] (some t) (some u) [.body, .param]

end Types

/-- The results of a function: none, an error, or a value and an error. -/
inductive Results : List GoType → Prop
  | none : Results []
  | error {o : GoType} (ho : o.string = "error") : Results [o]
  | value {t o : GoType} (ho : o.string = "error") : Results [t, o]

/-- The type of a function of a documented shape. -/
structure Documented (R : Types) (type : GoType) (param body : Option GoType)
    (ins : List RequestType) : Prop where
  shape : ∃ string w r args outs, type = .func string (w :: r :: args) outs ∧
    w.string = "http.ResponseWriter" ∧ r.string = "*http.Request" ∧ Results outs ∧
    R.Payloads args param body ins

/-- The type of a function with a wrong number of arguments, one that is no pointer, two
    params or two bodies. -/
inductive Malformed (R : Types) : GoType → Prop
  | arity {string : String} {ins outs : List GoType} (h : ins.length < 2 ∨ ins.length > 4) :
      Malformed R (.func string ins outs)
  | payload {string : String} {ins outs : List GoType} {a : GoType} (ha : a ∈ ins.drop 2)
      (h : ∀ s t, a ≠ .ptr s t) : Malformed R (.func string ins outs)
  | twoParams {string s s' : String} {ins outs : List GoType} {t u : GoType}
      (h : [.ptr s t, .ptr s' u].Sublist (ins.drop 2)) (ht : R.ParamShape t)
      (hu : R.ParamShape u) : Malformed R (.func string ins outs)
  | twoBodies {string s s' : String} {ins outs : List GoType} {t u : GoType}
      (h : [.ptr s t, .ptr s' u].Sublist (ins.drop 2)) (ht : R.BodyShape t)
      (hu : R.BodyShape u) : Malformed R (.func string ins outs)

section Conforms

variable (e : Env V)

/-- What the request holds for the param and the body is read without an error. -/
structure ReadsAll (req : RestfulRequest) (param body : Option GoType) : Prop where
  paramDecodes : ∀ t ∈ param, (decodeParam e req (e.new t)).2 = none
  paramValid : ∀ t ∈ param, (validate e (filledParam e req t)).2 = none
  bodyDecodes : ∀ t ∈ body, (decodeBody e req (e.new t)).2 = none
  bodyValid : ∀ t ∈ body, (validate e (filledBody e req t)).2 = none

/-- The param and the body that a request is decoded to. -/
def entity (req : RestfulRequest) (param body : Option GoType) : Option V × Option V :=
  (param.map fun t => (validate e (filledParam e req t)).1,
    body.map fun t => (validate e (filledBody e req t)).1)

/-- A function is taken for what it is: the handle has its param and its body, and
    calls it with what they are decoded to, at the places it declares. -/
structure Classified (handle : Handle V) (param body : Option GoType) (ins : List RequestType)
    (p : RouteHandle V) : Prop where
  param_eq : p.param = param
  body_eq : p.body = body
  ins_eq : p.ins = ins
  calls : ∀ req, ReadsAll e req param body →
    p.handler e req =
      .logRequestObject (entity e req param body).2 ::
        .call (ins.map (RequestType.select (entity e req param body))) ::
        respond e (handle.call req (ins.map (RequestType.select (entity e req param body))))

/-- Every function of a documented shape is taken for what it is, and a malformed one
    gives an error. -/
structure Conforms (R : Types) (handle : Handle V) : Prop where
  documented : ∀ param body ins, Documented R handle.type param body ins →
    ∃ p, R.newRouteHandle e handle = .ok p ∧ Classified e handle param body ins p
  malformed : Malformed R handle.type → ∃ err, R.newRouteHandle e handle = .error (.error err)

end Conforms

/-- The codec tells the types of a function apart: it takes the param and the body of a
    documented one for what they are, and comes to the fault of a malformed one. -/
structure ToldApart (R : Types) (handle : Handle V) : Prop where
  documented : ∀ param body ins, Documented R handle.type param body ins →
    (∀ t ∈ param, R.TakenAsParam t) ∧ ∀ t ∈ body, R.TakenAsBody t
  malformed : ∀ string ins outs, handle.type = .func string ins outs →
    Malformed R handle.type → validateHandle handle.name ins outs = none →
    R.Rejects { handle } (ins.drop 2)

/-! ## When the shapes are told apart -/

section Iff

variable {R : Types} {e : Env V} {handle : Handle V}

/-- The signatures that pass the check. -/
theorem validateHandle_eq_none {w r : GoType} {args outs : List GoType} (name : String)
    (hw : w.string = "http.ResponseWriter") (hr : r.string = "*http.Request")
    (hargs : args.length ≤ 2) (houts : Results outs) :
    validateHandle name (w :: r :: args) outs = none := by
  have hlen : ¬ ((w :: r :: args).length < 2 ∨ (w :: r :: args).length > 4) := by
    simp only [List.length_cons]
    omega
  unfold validateHandle
  rw [if_neg hlen, if_neg (by simp [hw]), if_neg (by simp [hr])]
  cases houts with
  | none => rfl
  | error ho => simp [ho]
  | value ho => simp [ho]

variable {args : List GoType} {param body : Option GoType} {ins : List RequestType}

theorem Types.Payloads.length_le (h : R.Payloads args param body ins) : args.length ≤ 2 := by
  cases h <;> simp

theorem Types.BodyShape.validate {t : GoType} (h : R.BodyShape t) : validateBodyType t = none := by
  cases h <;> rfl

/-- What an argument was taken as. -/
def Types.TakenAs (R : Types) (a : GoType) : RequestType → Prop
  | .param => ∃ s t, a = .ptr s t ∧ R.TakenAsParam t
  | .body => ∃ s t, a = .ptr s t ∧ R.TakenAsBody t

/-- The handle records what each argument was taken as. -/
theorem Types.TakesAll.ins_eq {p q : RouteHandle V} {l : List GoType} (h : R.TakesAll p l q) :
    ∃ ins, q.ins = p.ins ++ ins ∧ List.Forall₂ R.TakenAs l ins := by
  induction h with
  | nil => exact ⟨[], by simp, .nil⟩
  | cons ha _ ih =>
    obtain ⟨ins, hins, hl⟩ := ih
    cases ha with
    | param ht _ => exact ⟨.param :: ins, by simp [hins], .cons ⟨_, _, rfl, ht⟩ hl⟩
    | body ht _ _ => exact ⟨.body :: ins, by simp [hins], .cons ⟨_, _, rfl, ht⟩ hl⟩

theorem Types.Payloads.taken (h : R.Payloads args param body ins)
    (htaken : List.Forall₂ R.TakenAs args ins) :
    (∀ t ∈ param, R.TakenAsParam t) ∧ ∀ t ∈ body, R.TakenAsBody t := by
  cases h with
  | none => simp
  | bodyParam _ _ => exact And.symm (by simpa [Types.TakenAs] using htaken)
  | _ => simpa [Types.TakenAs] using htaken

/-- The handle of a function whose param and body are taken for what they are. -/
theorem Types.Payloads.takesAll (h : R.Payloads args param body ins) (handle : Handle V)
    (hparam : ∀ t ∈ param, R.TakenAsParam t) (hbody : ∀ t ∈ body, R.TakenAsBody t) :
    R.TakesAll { handle } args { handle, ins, param, body } := by
  cases h with
  | none => exact .nil
  | param _ => exact .cons (.param (hparam _ rfl) rfl) .nil
  | body ht => exact .cons (.body (hbody _ rfl) ht.validate rfl) .nil
  | paramBody _ hu =>
    exact .cons (.param (hparam _ rfl) rfl) (.cons (.body (hbody _ rfl) hu.validate rfl) .nil)
  | bodyParam _ hu =>
    exact .cons (.body (hbody _ rfl) hu.validate rfl) (.cons (.param (hparam _ rfl) rfl) .nil)

/-- A handle that is built calls its function with what it reads. -/
theorem handler_of_readsAll {p : RouteHandle V} (h : R.newRouteHandle e handle = .ok p)
    {req : RestfulRequest} (hreads : ReadsAll e req p.param p.body) :
    p.handler e req =
      .logRequestObject (entity e req p.param p.body).2 ::
        .call (p.ins.map (RequestType.select (entity e req p.param p.body))) ::
        respond e (handle.call req (p.ins.map (RequestType.select
          (entity e req p.param p.body)))) := by
  obtain ⟨rfl, hs⟩ := newRouteHandle_spec (R.env e) (Types.newRouteHandle_of_ok h)
  have haccepted : Accepted (R.env e) p.handle req :=
    { paramDecodes := fun t ht => hreads.paramDecodes t ((hs.param t).2 ht)
      paramValid := fun t ht => hreads.paramValid t ((hs.param t).2 ht)
      bodyDecodes := fun t ht => hreads.bodyDecodes t ((hs.body t).2 ht)
      bodyValid := fun t ht => hreads.bodyValid t ((hs.body t).2 ht) }
  have hread : readEntity e req (p.param.map e.new) (p.body.map e.new) =
      (entity e req p.param p.body, none) :=
    readEntity_of_accepted (e := R.env e) hs haccepted
  rw [RouteHandle.handler, hread]

theorem newRouteHandle_func {string : String} {ins outs : List GoType}
    (htype : handle.type = .func string ins outs)
    (hvalid : validateHandle handle.name ins outs = none) :
    R.newRouteHandle e handle = match R.initHandleIn e (ins.drop 2) { handle } with
      | .error (.error err) => .error (.error (e.wrap err "init handleIO"))
      | .error (.panic msg) => .error (.panic msg)
      | .ok p => .ok p := by
  rw [Types.newRouteHandle, htype]
  simp only [hvalid]

theorem Malformed.exists_func {type : GoType} (h : Malformed R type) :
    ∃ string ins outs, type = .func string ins outs := by
  cases h <;> exact ⟨_, _, _, rfl⟩

/-- The conditions are necessary, -/
theorem Conforms.toldApart (h : Conforms e R handle) : ToldApart R handle where
  documented param body ins hdoc := by
    obtain ⟨p, hp, hclass⟩ := h.documented param body ins hdoc
    obtain ⟨string, w, r, args, outs, htype, hw, hr, houts, hpay⟩ := hdoc.shape
    rw [newRouteHandle_func htype (validateHandle_eq_none _ hw hr hpay.length_le houts)] at hp
    split at hp
    · cases hp
    · cases hp
    case h_3 q hq =>
      cases hp
      obtain ⟨ins', hins, htaken⟩ := (Types.initHandleIn_eq_ok_iff.1 hq).ins_eq
      rw [hclass.ins_eq, List.nil_append] at hins
      exact hpay.taken (hins ▸ htaken)
  malformed string ins outs htype hmal hvalid := by
    obtain ⟨err, herr⟩ := h.malformed hmal
    rw [newRouteHandle_func htype hvalid] at herr
    split at herr
    case h_1 err' hin => exact Types.initHandleIn_eq_error_iff.1 ⟨err', hin⟩
    · cases herr
    · cases herr

/-- and sufficient. -/
theorem ToldApart.conforms (e : Env V) (h : ToldApart R handle) : Conforms e R handle where
  documented param body ins hdoc := by
    obtain ⟨hparam, hbody⟩ := h.documented param body ins hdoc
    obtain ⟨string, w, r, args, outs, htype, hw, hr, houts, hpay⟩ := hdoc.shape
    have hnew : R.newRouteHandle e handle = .ok { handle, ins, param, body } := by
      rw [newRouteHandle_func htype (validateHandle_eq_none _ hw hr hpay.length_le houts),
        List.drop_succ_cons, List.drop_succ_cons, List.drop_zero,
        Types.initHandleIn_eq_ok_iff.2 (hpay.takesAll handle hparam hbody)]
    exact ⟨_, hnew, rfl, rfl, rfl, fun req hreads => handler_of_readsAll hnew hreads⟩
  malformed hmal := by
    obtain ⟨string, ins, outs, htype⟩ := hmal.exists_func
    cases hvalid : validateHandle handle.name ins outs with
    | some err =>
      rw [Types.newRouteHandle, htype]
      simp only [hvalid]
      exact ⟨_, rfl⟩
    | none =>
      have hrejects := h.malformed string ins outs htype hmal hvalid
      obtain ⟨err, hin⟩ := (Types.initHandleIn_eq_error_iff (e := e)).2 hrejects
      exact ⟨_, by rw [newRouteHandle_func htype hvalid, hin]⟩

/-- A function of a documented shape is taken for what it is, and a malformed one
    rejected with an error, exactly if the codec tells its types apart. -/
theorem conforms_iff (R : Types) (e : Env V) (handle : Handle V) :
    Conforms e R handle ↔ ToldApart R handle :=
  ⟨Conforms.toldApart, ToldApart.conforms e⟩

end Iff

/-! ## A handle with a slice for a body -/

/-- A program without struct types of its own. -/
def exampleTypes : Types where
  structs := ∅
  parseFloat _ := none
  toLower := id
  toUpper := id
  lowerCamelCasedName := id
  describe := GoType.string

/-- `func(http.ResponseWriter, *http.Request, *[]string) error`. -/
def exampleSliceHandle : Handle String where
  name := "create"
  type := .func "func(http.ResponseWriter, *http.Request, *[]string) error"
    [.other "http.ResponseWriter", .ptr "*http.Request" (.struct "http.Request"),
      .ptr "*[]string" (.slice "[]string")] [.other "error"]
  call _ _ := [""]

/-- The codec is asked for the fields of the slice, and panics. -/
theorem exampleSliceHandle_not_conforms :
    Documented exampleTypes exampleSliceHandle.type none (some (.slice "[]string")) [.body] ∧
      exampleTypes.newRouteHandle exampleEnv exampleSliceHandle =
        .error (.panic "reflect: NumField of non-struct type []string") ∧
      ¬ Conforms exampleEnv exampleTypes exampleSliceHandle := by
  have hdoc : Documented exampleTypes exampleSliceHandle.type none (some (.slice "[]string"))
      [.body] := ⟨_, _, _, _, _, rfl, rfl, rfl, .error rfl, .body .slice⟩
  have hpanic : exampleTypes.newRouteHandle exampleEnv exampleSliceHandle =
      .error (.panic "reflect: NumField of non-struct type []string") := rfl
  refine ⟨hdoc, hpanic, fun h => ?_⟩
  obtain ⟨p, hp, -⟩ := h.documented _ _ _ hdoc
  rw [hpanic] at hp
  cases hp

end Apiserver.Rest
