import Apiserver.Authentication.Request

/-!
# Tokens in websocket protocols

A browser cannot set the header of a websocket request, but for the protocols it
offers. So a token may be given as one of them, behind a prefix and in base 64
(`pkg/authentication/request/websocket`). There has to be another protocol as
well, for the server to choose: the one with the token is taken out of the header
when the token is accepted.

* `protocolLoop_eq_ok_iff`: the loop over the protocols succeeds when at most one
  of them carries a token, and that can be decoded;
* `consult_eq_ask_iff`: when the token authenticator is asked, and what;
* `protocols_set`: the header that is left, split again, has the other protocols;
* `protocolAuthenticator_spec`: so tokens are handled as they should be. A token
  that is empty counts as none, also where no other protocol is offered.
-/

namespace Apiserver.Authentication

open Go

variable (e : AuthnEnv)

/-- The protocol is one that carries a token. -/
def isBearer (protocol : String) : Bool := hasPrefix protocol bearerProtocolPrefix

/-- The protocols that carry a token. -/
def bearers (l : List String) : List String := l.filter isBearer

/-- The other protocols. -/
def others (l : List String) : List String := l.filter (! isBearer ·)

/-- The token a protocol carries, if it can be decoded. -/
def payload (protocol : String) : Option String :=
  (rawURLEncoding.decodeString (trimPrefix protocol bearerProtocolPrefix)).bind ofUTF8

/-- An authenticator has an answer, or asks about a token first. -/
inductive Consultation
  | answer (r : AuthnResult)
  | ask (token : String) (next : TokenResult → AuthnResult)

/-- The answer, given a token authenticator. -/
def Consultation.run (auth : String → TokenResult) : Consultation → AuthnResult
  | answer r => r
  | ask token next => next (auth token)

/-- `AuthenticateRequest` up to the call of the token authenticator. -/
def consult (req : HttpRequest) : Consultation :=
  if !e.isWebSocketRequest req then .answer (absent req)
  else match protocolToken req.header with
    | .error err => .answer (failure req err)
    | .ok none => .answer (absent req)
    | .ok (some (token, filteredProtocols)) => .ask token fun r =>
      tokenAnswer req r (req.header.set protocolHeader (join filteredProtocols ","))

theorem protocolAuthenticator_eq (auth : TokenAuthenticator) (req : HttpRequest) :
    protocolAuthenticator e auth req = (consult e req).run (auth req.ctx) := by
  rw [protocolAuthenticator, consult]
  split_ifs
  · rfl
  · rcases protocolToken req.header with err | _ | ⟨token, filteredProtocols⟩ <;> rfl

/-! ## The loop -/

@[simp] theorem bearers_cons (p : String) (l : List String) :
    bearers (p :: l) = if isBearer p then p :: bearers l else bearers l := List.filter_cons

@[simp] theorem others_cons (p : String) (l : List String) :
    others (p :: l) = if isBearer p then others l else p :: others l := by
  rw [others, List.filter_cons]
  cases isBearer p <;> rfl

/-- The first bearer protocol has to decode. -/
theorem protocolLoop_cons_bearer {p : String} (hp : isBearer p = true) (l : List String)
    (filteredProtocols : List String) (r : Option String × List String) :
    protocolLoop (p :: l) none filteredProtocols = .ok r ↔
      ∃ token, payload p = some token ∧ protocolLoop l (some token) filteredProtocols = .ok r := by
  rw [protocolLoop, payload, isBearer] at *
  simp only [hp]
  cases rawURLEncoding.decodeString (trimPrefix p bearerProtocolPrefix) with
  | none => simp
  | some b => cases hb : ofUTF8 b <;> simp [hb]

/-- The loop keeps the other protocols in order, and finds at most one token. -/
theorem protocolLoop_eq_ok_iff {l : List String} {token token' : Option String}
    {acc acc' : List String} :
    protocolLoop l token acc = .ok (token', acc') ↔ acc' = acc ++ others l ∧
      ((bearers l = [] ∧ token' = token) ∨
        (token = none ∧ ∃ p t, bearers l = [p] ∧ payload p = some t ∧ token' = some t)) := by
  induction l generalizing token acc with
  | nil =>
    rw [protocolLoop]
    simp [others, bearers, eq_comm, and_comm]
  | cons p l ih =>
    cases hp : isBearer p with
    | false =>
      rw [protocolLoop, if_pos (by simpa [isBearer] using hp), ih]
      simp [hp]
    | true =>
      cases token with
      | some t =>
        rw [protocolLoop, if_neg (by simpa [isBearer] using hp)]
        simp [hp]
      | none =>
        rw [protocolLoop_cons_bearer hp]
        simp only [ih, bearers_cons, others_cons, hp, ↓reduceIte]
        constructor
        · rintro ⟨t, ht, hacc, ⟨hnil, rfl⟩ | ⟨hsome, -⟩⟩
          · exact ⟨hacc, .inr ⟨trivial, p, t, by rw [hnil], ht, rfl⟩⟩
          · cases hsome
        · rintro ⟨hacc, ⟨hnil, -⟩ | ⟨-, q, t, hcons, ht, rfl⟩⟩
          · cases hnil
          · obtain ⟨rfl, hnil⟩ := List.cons_eq_cons.1 hcons
            exact ⟨t, ht, hacc, .inl ⟨hnil, rfl⟩⟩

variable {header : Header}

/-- A token was found, and there are other protocols. -/
theorem protocolToken_eq_some_iff {token : String} {l : List String} :
    protocolToken header = .ok (some (token, l)) ↔
      (∃ p, bearers (protocols header) = [p] ∧ payload p = some token) ∧ token ≠ "" ∧
        others (protocols header) ≠ [] ∧ l = others (protocols header) := by
  constructor
  · intro h
    rw [protocolToken] at h
    split at h
    · cases h
    · rename_i found filteredProtocols hloop
      obtain ⟨hacc, hfound⟩ := protocolLoop_eq_ok_iff.1 hloop
      dsimp only at h
      split_ifs at h with hlone hempty
      · cases h
      · simp only [Except.ok.injEq, Option.some.injEq, Prod.mk.injEq] at h
        obtain ⟨rfl, rfl⟩ := h
        rcases hfound with ⟨-, rfl⟩ | ⟨-, p, t, hp, ht, rfl⟩
        · exact absurd rfl hempty
        · exact ⟨⟨p, hp, ht⟩, hempty, fun hnil => hlone ⟨hempty, hacc.trans hnil⟩, hacc⟩
  · rintro ⟨⟨p, hp, ht⟩, hne, hothers, rfl⟩
    have hloop : protocolLoop (protocols header) none [] =
        .ok (some token, others (protocols header)) :=
      protocolLoop_eq_ok_iff.2 ⟨rfl, .inr ⟨rfl, p, token, hp, ht, rfl⟩⟩
    rw [protocolToken, hloop]
    simp [hne, hothers]

/-! ## The header that is left -/

/-- The protocols of a header are trimmed, and have no comma. -/
theorem trimmed_of_mem_protocols {p : String} (h : p ∈ protocols header) :
    trimSpace p = p ∧ ',' ∉ p.toList := by
  obtain ⟨v, -, hp⟩ := List.mem_flatMap.1 h
  obtain ⟨q, hq, rfl⟩ := List.mem_map.1 hp
  exact ⟨trimSpace_trimSpace q, fun hmem => notMem_of_mem_split hq (mem_of_mem_trimSpace hmem)⟩

/-- Protocols of a header joined with commas are those of the header they are set in. -/
theorem protocols_set {l : List String} (hl : l ≠ []) (h : ∀ p ∈ l, p ∈ protocols header) :
    protocols (header.set protocolHeader (join l ",")) = l := by
  have hindex : (header.set protocolHeader (join l ",")).index protocolHeader = [join l ","] := by
    have hkey : canonicalMIMEHeaderKey protocolHeader = protocolHeader := by decide
    rw [Header.set, Header.index, hkey, AList.lookup_insert]
    rfl
  have hsplit : split (join l ",") ',' = l :=
    split_join hl fun p hp => (trimmed_of_mem_protocols (h p hp)).2
  rw [protocols, hindex, List.flatMap_singleton, hsplit]
  exact (List.map_congr_left fun p hp => (trimmed_of_mem_protocols (h p hp)).1).trans l.map_id

/-! ## The authenticator -/

variable {e} {req : HttpRequest}

/-- The token authenticator is asked about the token of the only protocol that
    carries one, if that is not empty and there is another protocol. -/
theorem consult_eq_ask_iff (hws : e.isWebSocketRequest req = true) {token : String} :
    (∃ next, consult e req = .ask token next) ↔
      (∃ p, bearers (protocols req.header) = [p] ∧ payload p = some token) ∧ token ≠ "" ∧
        others (protocols req.header) ≠ [] := by
  have hiff : (∃ next, consult e req = .ask token next) ↔
      ∃ l, protocolToken req.header = .ok (some (token, l)) := by
    rw [consult, hws]
    rcases protocolToken req.header with err | _ | ⟨t, l⟩ <;> simp
  rw [hiff]
  simp only [protocolToken_eq_some_iff, exists_and_left, exists_eq, and_true]

/-- A request is accepted only when the token authenticator was asked and
    accepted, and then the header is changed. -/
theorem header_protocolAuthenticator (e : AuthnEnv) (auth : TokenAuthenticator)
    (req : HttpRequest) :
    ((protocolAuthenticator e auth req).ok = true ∧
      ∃ token l, protocolToken req.header = .ok (some (token, l)) ∧
        (protocolAuthenticator e auth req).header =
          req.header.set protocolHeader (join l ",")) ∨
    ((protocolAuthenticator e auth req).ok = false ∧
      (protocolAuthenticator e auth req).header = req.header) := by
  rw [protocolAuthenticator]
  split_ifs
  · exact .inr ⟨rfl, rfl⟩
  · rcases protocolToken req.header with err | _ | ⟨token, l⟩
    · exact .inr ⟨rfl, rfl⟩
    · exact .inr ⟨rfl, rfl⟩
    · cases hok : (auth req.ctx token).ok with
      | true => exact .inl ⟨hok, token, l, rfl, by simp [tokenAnswer, hok]⟩
      | false => exact .inr ⟨hok, by simp [tokenAnswer, hok]⟩

/-- A header with a token that may not be used: there are two of them, or it cannot
    be decoded, or it is not empty and no other protocol is offered. -/
def Misused (l : List String) : Prop :=
  2 ≤ (bearers l).length ∨ (∃ p ∈ bearers l, payload p = none) ∨
    (others l = [] ∧ ∃ p token, bearers l = [p] ∧ payload p = some token ∧ token ≠ "")

/-- Misuse is always an error. -/
theorem protocolToken_of_misused (h : Misused (protocols header)) :
    ∃ err, protocolToken header = .error err := by
  rw [protocolToken]
  split
  · exact ⟨_, rfl⟩
  · rename_i found filteredProtocols hloop
    obtain ⟨hacc, hfound⟩ := protocolLoop_eq_ok_iff.1 hloop
    -- Where the loop succeeds there is at most one token, and it was decoded.
    rcases h with htwo | ⟨q, hq, hnone⟩ | ⟨hothers, q, token, hq, htoken, hne⟩
    · rcases hfound with ⟨hnil, -⟩ | ⟨-, p, t, hp, -, -⟩
      · simp [hnil] at htwo
      · simp [hp] at htwo
    · rcases hfound with ⟨hnil, -⟩ | ⟨-, p, t, hp, ht, -⟩
      · simp [hnil] at hq
      · obtain rfl : q = p := by simpa [hp] using hq
        rw [hnone] at ht
        cases ht
    · rcases hfound with ⟨hnil, -⟩ | ⟨-, p, t, hp, ht, rfl⟩
      · simp [hnil] at hq
      · obtain rfl : q = p := by simpa [hp] using hq.symm
        obtain rfl : token = t := by simpa [htoken] using ht
        exact ⟨_, if_pos ⟨hne, hacc.trans hothers⟩⟩

/-- The protocol that carries a token is alone, and the token is empty. -/
def LoneEmpty (l : List String) : Prop :=
  others l = [] ∧ ∃ p, bearers l = [p] ∧ payload p = some ""

/-- An empty token is taken for none, before it is asked for other protocols. -/
theorem protocolToken_of_loneEmpty (h : LoneEmpty (protocols header)) :
    protocolToken header = .ok none := by
  obtain ⟨hothers, p, hp, hpayload⟩ := h
  have hloop : protocolLoop (protocols header) none [] = .ok (some "", []) :=
    protocolLoop_eq_ok_iff.2 ⟨by rw [hothers]; rfl, .inr ⟨rfl, p, "", hp, hpayload, rfl⟩⟩
  rw [protocolToken, hloop]
  rfl

/-- Websocket requests with a token: the token authenticator is asked exactly
    about a token that is alone, can be decoded, is not empty and comes with
    another protocol; when it accepts, the header is left with the other protocols
    in order, and otherwise as it was; a token that may not be used is an error;
    and a lone protocol whose token is empty is answered without one. -/
theorem protocolAuthenticator_spec (e : AuthnEnv) (req : HttpRequest)
    (hws : e.isWebSocketRequest req = true) :
    let l := protocols req.header
    (∀ auth : TokenAuthenticator,
      protocolAuthenticator e auth req = (consult e req).run (auth req.ctx)) ∧
    (∀ token, (∃ next, consult e req = .ask token next) ↔
      (∃ p, bearers l = [p] ∧ payload p = some token) ∧ token ≠ "" ∧ others l ≠ []) ∧
    (∀ auth, (protocolAuthenticator e auth req).ok = true →
      protocols (protocolAuthenticator e auth req).header = others l ∧
        bearers (protocols (protocolAuthenticator e auth req).header) = []) ∧
    (∀ auth, (protocolAuthenticator e auth req).ok = false →
      (protocolAuthenticator e auth req).header = req.header) ∧
    (Misused l → ∀ auth, (protocolAuthenticator e auth req).ok = false ∧
      (protocolAuthenticator e auth req).err ≠ none) ∧
    (LoneEmpty l → ∀ auth, (protocolAuthenticator e auth req).ok = false ∧
      (protocolAuthenticator e auth req).err = none) := by
  intro l
  refine ⟨fun auth => protocolAuthenticator_eq e auth req, fun token => consult_eq_ask_iff hws,
    fun auth hok => ?_, fun auth hok => ?_, fun hmisused auth => ?_, fun hlone auth => ?_⟩
  · rcases header_protocolAuthenticator e auth req with
      ⟨-, token, l', htoken, hheader⟩ | ⟨hfalse, -⟩
    · obtain ⟨-, -, hothers, rfl⟩ := protocolToken_eq_some_iff.1 htoken
      have hset : protocols (protocolAuthenticator e auth req).header = others l := by
        rw [hheader]
        exact protocols_set hothers fun p hp => (List.mem_filter.1 hp).1
      refine ⟨hset, ?_⟩
      rw [hset, bearers, others, List.filter_filter]
      simp
    · rw [hok] at hfalse
      cases hfalse
  · rcases header_protocolAuthenticator e auth req with ⟨htrue, -⟩ | ⟨-, hheader⟩
    · rw [hok] at htrue
      cases htrue
    · exact hheader
  · obtain ⟨err, herr⟩ := protocolToken_of_misused hmisused
    rw [protocolAuthenticator, hws, herr]
    exact ⟨rfl, Option.some_ne_none err⟩
  · rw [protocolAuthenticator, hws, protocolToken_of_loneEmpty hlone]
    exact ⟨rfl, rfl⟩

/-- An environment in which all requests are for websockets. -/
def websocketEnv : AuthnEnv where
  deps := Deps.plain
  isWebSocketRequest _ := true
  corruptInput _ := "illegal base64 data"
  escapeError _ := "invalid URL escape"
  newTokenCache auth _ _ := auth

/-- A websocket request that offers the given protocols. -/
def offering (value : String) : HttpRequest :=
  { method := "GET", path := "/", header := AList.singleton protocolHeader [value] }

/-- The token `a`, between two other protocols. -/
theorem offering_token :
    websocketEnv.isWebSocketRequest
      (offering "v4.chat, base64url.bearer.authorization.k8s.io.YQ, v5.chat") = true ∧
    ∃ next, consult websocketEnv
      (offering "v4.chat, base64url.bearer.authorization.k8s.io.YQ, v5.chat") = .ask "a" next := by
  have hspec := protocolAuthenticator_spec websocketEnv
    (offering "v4.chat, base64url.bearer.authorization.k8s.io.YQ, v5.chat") rfl
  refine ⟨rfl, (hspec.2.1 "a").2 ⟨⟨_, rfl, by decide⟩, by decide, by decide⟩⟩

/-- A protocol that carries an empty token, and no other: there is no error. -/
theorem offering_empty_token :
    let req := offering "base64url.bearer.authorization.k8s.io."
    bearers (protocols req.header) = ["base64url.bearer.authorization.k8s.io."] ∧
      others (protocols req.header) = [] ∧
      ∀ auth, (protocolAuthenticator websocketEnv auth req).err = none := by
  refine ⟨by decide, by decide, fun auth => ?_⟩
  rfl

end Apiserver.Authentication
