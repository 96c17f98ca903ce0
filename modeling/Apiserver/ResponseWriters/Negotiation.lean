import Apiserver.Basic
import Apiserver.Go.Http
import Apiserver.Go.Strings

/-!
# Content negotiation

The media type and the encoder of a response (`pkg/handlers/negotiation`). The header of a
request has a list of clauses, the preferred ones first, and the server has a list of media
types. The first clause that takes one of them wins, and of those it takes the first one.

* `firstTaken_of_negotiateClauses`: what the two loops find;
* `negotiateClauses_eq_none_iff`: they find nothing only if no clause takes any of the media
  types.
-/

namespace Apiserver.ResponseWriters

open Go

/-- `runtime.SerializerInfo`, with encoders of the type `E`. -/
structure SerializerInfo (E : Type) where
  mediaType : String
  mediaTypeType : String
  mediaTypeSubType : String
  encodesAsText : Bool := false
  serializer : E
  prettySerializer : Option E := none
  streamSerializer : Option E := none

/-- `goautoneg.Accept`, short of the quality by which the clauses are sorted. -/
structure Clause where
  type : String
  subType : String
  /-- The parameters in the order a `for range` visits them. -/
  params : List (String × String) := []
  deriving DecidableEq

/-- `MediaTypeOptions`. -/
structure MediaTypeOptions (E : Type) where
  pretty : Bool := false
  stream : String := ""
  useServerVersion : String := ""
  exported : Bool := false
  unrecognized : List String := []
  accepted : SerializerInfo E

variable {E : Type}

/-- The loop of `acceptMediaTypeOptions`. -/
def acceptParams : List (String × String) → MediaTypeOptions E → Option (MediaTypeOptions E)
  | [], options => some options
  | (k, v) :: params, options =>
    if k = "stream" then
      if v ≠ "" ∧ options.accepted.streamSerializer.isNone = true then none
      else acceptParams params { options with stream := v }
    else if k = "sv" then acceptParams params { options with useServerVersion := v }
    else if k = "export" then acceptParams params { options with exported := v = "1" }
    else if k = "pretty" then acceptParams params { options with pretty := v = "1" }
    else acceptParams params { options with unrecognized := options.unrecognized ++ [k] }

/-- `acceptMediaTypeOptions`. -/
def acceptMediaTypeOptions (params : List (String × String)) (accepts : SerializerInfo E) :
    Option (MediaTypeOptions E) :=
  acceptParams params { accepted := accepts }

/-- The cases of the switch. -/
def Clause.matchesType (clause : Clause) (accepts : SerializerInfo E) : Bool :=
  (clause.type == accepts.mediaTypeType && clause.subType == accepts.mediaTypeSubType) ||
    (clause.type == accepts.mediaTypeType && clause.subType == "*") ||
    (clause.type == "*" && clause.subType == "*")

/-- The inner loop of `NegotiateMediaTypeOptions`. -/
def negotiateClause (clause : Clause) : List (SerializerInfo E) → Option (MediaTypeOptions E)
  | [] => none
  | accepts :: accepted =>
    if clause.matchesType accepts then
      match acceptMediaTypeOptions clause.params accepts with
      | some retVal => some retVal
      | none => negotiateClause clause accepted
    else negotiateClause clause accepted

/-- The outer loop. -/
def negotiateClauses (accepted : List (SerializerInfo E)) :
    List Clause → Option (MediaTypeOptions E)
  | [] => none
  | clause :: clauses =>
    match negotiateClause clause accepted with
    | some retVal => some retVal
    | none => negotiateClauses accepted clauses

variable (parseAccept : String → List Clause)

/-- `NegotiateMediaTypeOptions`, with `ParseAccept` of `goautoneg`. -/
def negotiateMediaTypeOptions (header : String) (accepted : List (SerializerInfo E)) :
    Option (MediaTypeOptions E) :=
  match header.isEmpty, accepted with
  | true, accepts :: _ => some { accepted := accepts }
  | _, accepted => negotiateClauses accepted (parseAccept header)

/-- A request, with the query of its URL as it was sent. -/
structure Request extends Go.Request where
  rawQuery : String := ""

/-- `strings.Contains`. -/
def contains (s substr : String) : Bool := s.toList.tails.any substr.toList.isPrefixOf

/-- `isPrettyPrint`. -/
def isPrettyPrint (req : Request) : Bool :=
  let pp := req.query.index "pretty" |>.headD ""
  if contains req.rawQuery "pretty" = true ∧ pp ≠ "" then (parseBool pp).getD false
  else
    let userAgent := req.header.get "User-Agent"
    hasPrefix userAgent "curl" || hasPrefix userAgent "Wget" || hasPrefix userAgent "Mozilla/5.0"

/-- `errNotAcceptable`: its message. -/
def notAcceptableMessage (accepted : List String) : String :=
  "only the following media types are accepted: " ++ join accepted ", "

/-- `MediaTypesForSerializer`: the media types, and those of the encoders for streams. -/
def mediaTypesForSerializer (supported : List (SerializerInfo E)) : List String × List String :=
  (supported.map SerializerInfo.mediaType,
    (supported.filter fun info => info.streamSerializer.isSome).map fun info =>
      info.mediaType ++ ";stream=watch")

/-- `NegotiateOutputMediaType`: the media type and the encoder, or the media types that are
    accepted. -/
def negotiateOutputMediaType (req : Request) (supported : List (SerializerInfo E)) :
    Except (List String) (SerializerInfo E) :=
  match negotiateMediaTypeOptions parseAccept (req.header.get "Accept") supported with
  | none => .error (mediaTypesForSerializer supported).1
  | some mediaType =>
    let info := mediaType.accepted
    if mediaType.pretty || isPrettyPrint req then
      .ok { info with serializer := info.prettySerializer.getD info.serializer }
    else .ok info

/-- `NegotiateOutputMediaTypeStream`: the media type and its encoder for streams. -/
def negotiateOutputMediaTypeStream (req : Request) (supported : List (SerializerInfo E)) :
    Except (List String) (SerializerInfo E × E) :=
  match negotiateMediaTypeOptions parseAccept (req.header.get "Accept") supported with
  | none => .error (mediaTypesForSerializer supported).2
  | some mediaType =>
    match mediaType.accepted.streamSerializer with
    | none => .error (mediaTypesForSerializer supported).2
    | some streamSerializer => .ok (mediaType.accepted, streamSerializer)

/-! ## What is negotiated -/

/-- A clause takes a media type: it names it, and asks for a stream only if there is one. -/
structure Clause.Takes (clause : Clause) (accepts : SerializerInfo E) : Prop where
  names : clause.matchesType accepts = true
  streams : ∀ v, ("stream", v) ∈ clause.params → v ≠ "" → accepts.streamSerializer ≠ none

variable {parseAccept} {clause : Clause} {clauses : List Clause} {accepts : SerializerInfo E}
  {accepted : List (SerializerInfo E)} {options : MediaTypeOptions E}

/-- The parameters only fail on a stream, and keep the media type. -/
theorem acceptParams_spec (params : List (String × String)) (options : MediaTypeOptions E) :
    (acceptParams params options = none ↔
      ∃ v, ("stream", v) ∈ params ∧ v ≠ "" ∧ options.accepted.streamSerializer = none) ∧
    ∀ options', acceptParams params options = some options' →
      options'.accepted = options.accepted := by
  induction params generalizing options with
  | nil => simp [acceptParams]
  | cons param params ih =>
    obtain ⟨k, v⟩ := param
    rw [acceptParams]
    by_cases hstream : k = "stream"
    · rw [if_pos hstream]
      subst hstream
      split_ifs with hnone
      · refine ⟨?_, fun _ h => by cases h⟩
        simp only [true_iff]
        exact ⟨v, List.mem_cons_self, hnone.1, by simpa using hnone.2⟩
      · refine ⟨(ih _).1.trans (exists_congr fun v' => ?_), (ih _).2⟩
        have hv : v' = v → ¬ (v' ≠ "" ∧ options.accepted.streamSerializer = none) := by
          rintro rfl
          simpa using hnone
        rw [List.mem_cons, Prod.mk.injEq]
        tauto
    · have hmem : ∀ v', ("stream", v') ∈ (k, v) :: params ↔ ("stream", v') ∈ params := by
        simp [Ne.symm hstream]
      simp only [if_neg hstream, hmem]
      split_ifs <;> exact ih _

/-- What a clause gives for a media type. -/
def Clause.take (clause : Clause) (accepts : SerializerInfo E) : Option (MediaTypeOptions E) :=
  if clause.matchesType accepts then acceptMediaTypeOptions clause.params accepts else none

theorem take_eq_none_iff : clause.take accepts = none ↔ ¬ clause.Takes accepts := by
  unfold Clause.take
  split_ifs with hmatches
  · rw [acceptMediaTypeOptions, (acceptParams_spec _ _).1]
    constructor
    · rintro ⟨v, hmem, hv, hnone⟩ htakes
      exact htakes.streams v hmem hv hnone
    · intro hnot
      by_contra hnone
      push Not at hnone
      exact hnot ⟨hmatches, hnone⟩
  · simp only [true_iff]
    exact fun htakes => hmatches htakes.names

theorem accepted_of_take (h : clause.take accepts = some options) :
    options.accepted = accepts := by
  unfold Clause.take at h
  split_ifs at h
  exact (acceptParams_spec _ _).2 _ h

theorem negotiateClause_eq : negotiateClause clause accepted = accepted.findSome? clause.take := by
  induction accepted with
  | nil => rfl
  | cons accepts accepted ih =>
    rw [negotiateClause, List.findSome?_cons, Clause.take, ← ih]
    split_ifs
    · cases acceptMediaTypeOptions clause.params accepts <;> rfl
    · rfl

theorem negotiateClauses_eq :
    negotiateClauses accepted clauses = clauses.findSome? (negotiateClause · accepted) := by
  induction clauses with
  | nil => rfl
  | cons clause clauses ih =>
    rw [negotiateClauses, List.findSome?_cons, ih]
    cases negotiateClause clause accepted <;> rfl

theorem negotiateClause_eq_none_iff :
    negotiateClause clause accepted = none ↔ ∀ accepts ∈ accepted, ¬ clause.Takes accepts := by
  rw [negotiateClause_eq, List.findSome?_eq_none_iff]
  exact forall₂_congr fun _ _ => take_eq_none_iff

/-- A media type is the first one that the first clause takes that takes any. -/
structure FirstTaken (clauses : List Clause) (accepted : List (SerializerInfo E))
    (accepts : SerializerInfo E) : Prop where
  exists_split : ∃ clausesBefore clause clausesAfter before rest,
    clauses = clausesBefore ++ clause :: clausesAfter ∧
    (∀ c ∈ clausesBefore, ∀ a ∈ accepted, ¬ c.Takes a) ∧
    accepted = before ++ accepts :: rest ∧ (∀ a ∈ before, ¬ clause.Takes a) ∧
    clause.Takes accepts

/-- and else the first one. -/
theorem firstTaken_of_negotiateClauses (h : negotiateClauses accepted clauses = some options) :
    FirstTaken clauses accepted options.accepted := by
  rw [negotiateClauses_eq, List.findSome?_eq_some_iff] at h
  obtain ⟨clausesBefore, clause, clausesAfter, hclauses, hclause, hbefore⟩ := h
  rw [negotiateClause_eq, List.findSome?_eq_some_iff] at hclause
  obtain ⟨before, accepts, rest, haccepted, htake, hnone⟩ := hclause
  rw [accepted_of_take htake]
  have htakes : clause.Takes accepts := by
    by_contra hnot
    rw [take_eq_none_iff.2 hnot] at htake
    cases htake
  exact ⟨clausesBefore, clause, clausesAfter, before, rest, hclauses,
    fun c hc => negotiateClause_eq_none_iff.1 (hbefore c hc), haccepted,
    fun a ha => take_eq_none_iff.1 (hnone a ha), htakes⟩

/-- The media type that is chosen for a request. -/
def Chosen (parseAccept : String → List Clause) (req : Request)
    (supported : List (SerializerInfo E)) (accepts : SerializerInfo E) : Prop :=
  (req.header.get "Accept" = "" ∧ supported.head? = some accepts) ∨
    FirstTaken (parseAccept (req.header.get "Accept")) supported accepts

variable {req : Request} {supported : List (SerializerInfo E)}

theorem Chosen.mem (h : Chosen parseAccept req supported accepts) : accepts ∈ supported := by
  rcases h with ⟨-, hhead⟩ | ⟨_, _, _, before, rest, -, -, rfl, -, -⟩
  · exact List.mem_of_head? hhead
  · simp

theorem chosen_of_negotiateMediaTypeOptions
    (h : negotiateMediaTypeOptions parseAccept (req.header.get "Accept") supported = some options) :
    Chosen parseAccept req supported options.accepted := by
  unfold negotiateMediaTypeOptions at h
  split at h
  · rename_i hempty
    cases h
    exact .inl ⟨by simpa using hempty, rfl⟩
  · exact .inr (firstTaken_of_negotiateClauses h)

/-- A media type is chosen, and one of its encoders, -/
theorem chosen_of_negotiateOutputMediaType {info : SerializerInfo E}
    (h : negotiateOutputMediaType parseAccept req supported = .ok info) :
    ∃ accepts, Chosen parseAccept req supported accepts ∧ info.mediaType = accepts.mediaType ∧
      (info.serializer = accepts.serializer ∨
        accepts.prettySerializer = some info.serializer) := by
  rw [negotiateOutputMediaType] at h
  cases hoptions : negotiateMediaTypeOptions parseAccept (req.header.get "Accept") supported with
  | none =>
    rw [hoptions] at h
    cases h
  | some options =>
    rw [hoptions] at h
    refine ⟨options.accepted, chosen_of_negotiateMediaTypeOptions hoptions, ?_⟩
    dsimp only at h
    split_ifs at h
    · cases h
      refine ⟨rfl, ?_⟩
      cases options.accepted.prettySerializer with
      | none => exact .inl rfl
      | some pretty => exact .inr rfl
    · cases h
      exact ⟨rfl, .inl rfl⟩

/-- A stream is encoded by the encoder for streams of the media type that is chosen. -/
theorem chosen_of_negotiateOutputMediaTypeStream {info : SerializerInfo E} {streamSerializer : E}
    (h : negotiateOutputMediaTypeStream parseAccept req supported = .ok (info, streamSerializer)) :
    Chosen parseAccept req supported info ∧ info.streamSerializer = some streamSerializer := by
  unfold negotiateOutputMediaTypeStream at h
  split at h
  · cases h
  · rename_i options hoptions
    split at h
    · cases h
    · rename_i hstream
      cases h
      exact ⟨chosen_of_negotiateMediaTypeOptions hoptions, hstream⟩

end Apiserver.ResponseWriters
