import Apiserver.Webhook.Retry

/-!
# The webhook authorizer

The webhook authorizer (`plugin/authorizer/webhook/webhook.go`) asks a remote
service about a request, by a review of its attributes, and keeps the status it
is answered in a cache, under the serialized spec of the review. How long it is
kept depends on the status.

The remote service is an arbitrary function of the serialized spec and the time.
Time passes between the calls of the authorizer, and while it waits for the
remote service; what the authorizer does itself takes no time. The cache may
lose any entry at any moment, so that nothing is assumed about its size.

* `review_eq_ok`: a review that succeeds returns what the remote service
  answered;
* `Backed.authorize`: what is in the cache has been answered to an earlier call,
  and expires when it was answered plus its time to live;
* `exchanges_sound`: so every decision is made from an answer to the same spec
  that is not older than its time to live.
-/

namespace Apiserver.Authorization

open Go Webhook

/-! ## Reviews -/

/-- `authorization.ResourceAttributes`. -/
structure ResourceAttributes where
  ns : String
  verb : String
  group : String
  version : String
  resource : String
  subresource : String
  name : String

/-- `authorization.NonResourceAttributes`. -/
structure NonResourceAttributes where
  path : String
  verb : String

/-- `authorization.SubjectAccessReviewSpec`. -/
structure SubjectAccessReviewSpec where
  resourceAttributes : Option ResourceAttributes := none
  nonResourceAttributes : Option NonResourceAttributes := none
  user : String := ""
  uid : String := ""
  groups : List String := []
  extra : Values := ∅

/-- `authorization.SubjectAccessReviewStatus`, short of the evaluation error. -/
structure SubjectAccessReviewStatus where
  allowed : Bool := false
  denied : Bool := false
  reason : String := ""
  deriving DecidableEq

/-- The spec of the review of a request. -/
def reviewSpec (attr : Attributes) : SubjectAccessReviewSpec :=
  let spec : SubjectAccessReviewSpec := match attr.user with
    | some user =>
      { user := user.name, uid := user.uid, groups := user.groups, extra := user.extra }
    | none => {}
  if attr.resourceRequest then
    { spec with resourceAttributes := some {
        ns := attr.ns
        verb := attr.verb
        group := attr.apiGroup
        version := attr.apiVersion
        resource := attr.resource
        subresource := attr.subresource
        name := attr.name } }
  else
    { spec with nonResourceAttributes := some { path := attr.path, verb := attr.verb } }

/-- The decision on a status. -/
def SubjectAccessReviewStatus.answer (status : SubjectAccessReviewStatus) : Answer :=
  if status.denied && status.allowed then
    { decision := .deny, reason := status.reason
      err := some "webhook subject access review returned both allow and deny response" }
  else if status.denied then { decision := .deny, reason := status.reason }
  else if status.allowed then { decision := .allow, reason := status.reason }
  else { decision := .noOpinion, reason := status.reason }

/-- What the authorizer takes from outside. -/
structure ReviewEnv where
  /-- `json.Marshal` of a spec. -/
  marshal : SubjectAccessReviewSpec → Except Error String
  /-- What the remote service answers to a serialized spec at a time. -/
  remote : String → ℤ → Except Error SubjectAccessReviewStatus
  errorTests : ErrorTests := {}

/-! ## The cache -/

/-- An entry of the cache: a status, and the time it expires. -/
structure CacheEntry where
  status : SubjectAccessReviewStatus
  expireTime : ℤ

/-- `LRUExpireCache`. -/
abbrev ResponseCache := AList fun _ : String => CacheEntry

/-- `Get`, at a time. -/
def ResponseCache.get (cache : ResponseCache) (now : ℤ) (key : String) :
    Option SubjectAccessReviewStatus :=
  match cache.lookup key with
  | some entry => if entry.expireTime < now then none else some entry.status
  | none => none

/-- `Add`, at a time. -/
def ResponseCache.add (cache : ResponseCache) (now : ℤ) (key : String)
    (status : SubjectAccessReviewStatus) (ttl : ℤ) : ResponseCache :=
  cache.insert key { status, expireTime := now + ttl }

/-! ## The authorizer -/

/-- `WebhookAuthorizer`, short of its client and its cache. -/
structure WebhookAuthorizer where
  authorizedTTL : ℤ
  unauthorizedTTL : ℤ
  retryBackoff : Backoff
  decisionOnError : Decision

/-- `newWithBackoff`. -/
def newWithBackoff (authorizedTTL unauthorizedTTL : ℤ) (retryBackoff : Backoff) :
    WebhookAuthorizer where
  authorizedTTL
  unauthorizedTTL
  retryBackoff
  decisionOnError := .noOpinion

/-- A call of `Authorize`: its arguments, the time it looks into the cache, and
    the time the remote service answers when it is asked for the `n`th time. -/
structure AuthorizeCall where
  ctx : Go.Context := .background
  attr : Attributes
  now : ℤ
  answered : ℕ → ℤ

/-- The bytes of the attributes the requester controls. -/
def controlledAttrSize (attr : Attributes) : ℕ :=
  attr.ns.utf8ByteSize + attr.verb.utf8ByteSize + attr.apiGroup.utf8ByteSize +
    attr.apiVersion.utf8ByteSize + attr.resource.utf8ByteSize + attr.subresource.utf8ByteSize +
    attr.name.utf8ByteSize + attr.path.utf8ByteSize

def maxControlledAttrCacheSize : ℕ := 10000

/-- `shouldCache`. -/
def shouldCache (attr : Attributes) : Bool := controlledAttrSize attr < maxControlledAttrCacheSize

/-- What the closure that creates a review captures: how often it has been
    called, and the last status with the time it was answered. -/
structure Reviewed where
  calls : ℕ := 0
  status : SubjectAccessReviewStatus := {}
  time : ℤ := 0

namespace WebhookAuthorizer

variable (w : WebhookAuthorizer) (env : ReviewEnv)

/-- The closure that creates a review. -/
def create (call : AuthorizeCall) (key : String) (s : Reviewed) : Reviewed × Option Error :=
  match env.remote key (call.answered s.calls) with
  | .ok status => ({ calls := s.calls + 1, status, time := call.answered s.calls }, none)
  | .error err => ({ s with calls := s.calls + 1 }, some err)

/-- Creating a review, with retries: the status, and the time it was answered. -/
def review (call : AuthorizeCall) (key : String) :
    Except Error (SubjectAccessReviewStatus × ℤ) :=
  match withExponentialBackoff call.ctx w.retryBackoff (create env call key)
      (defaultShouldRetry env.errorTests) {} with
  | (_, some err) => .error err
  | (s, none) => .ok (s.status, s.time)

/-- How long a status is kept. -/
def ttl (status : SubjectAccessReviewStatus) : ℤ :=
  if status.allowed then w.authorizedTTL else w.unauthorizedTTL

/-- `Authorize`: the answer, and the cache after it. -/
def authorize (cache : ResponseCache) (call : AuthorizeCall) : Answer × ResponseCache :=
  match env.marshal (reviewSpec call.attr) with
  | .error err => ({ decision := w.decisionOnError, err := some err }, cache)
  | .ok key => match cache.get call.now key with
    | some status => (status.answer, cache)
    | none => match w.review env call key with
      | .error err => ({ decision := w.decisionOnError, err := some err }, cache)
      | .ok (status, time) =>
        (status.answer,
          if shouldCache call.attr then cache.add time key status (w.ttl status) else cache)

/-! ## Sequences of requests -/

/-- What happens to an authorizer. -/
inductive Event
  | authorize (call : AuthorizeCall)
  /-- The cache loses an entry. -/
  | evict (key : String)

/-- A call that has been made: the cache before and after it, and the answer. -/
structure Exchange where
  call : AuthorizeCall
  before : ResponseCache
  answer : Answer
  after : ResponseCache

/-- A call, on a cache. -/
def exchange (cache : ResponseCache) (call : AuthorizeCall) : Exchange where
  call
  before := cache
  answer := (w.authorize env cache call).1
  after := (w.authorize env cache call).2

/-- The calls of a sequence of events. -/
def exchanges : ResponseCache → List Event → List Exchange
  | _, [] => []
  | cache, .evict key :: events => exchanges (cache.erase key) events
  | cache, .authorize call :: events =>
    w.exchange env cache call :: exchanges (w.exchange env cache call).after events

end WebhookAuthorizer

/-! ## Answers -/

/-- A status with both bits is never allowed. -/
theorem SubjectAccessReviewStatus.allowed_of_answer {status : SubjectAccessReviewStatus}
    (h : status.answer.decision = .allow) : status.allowed = true ∧ status.denied = false := by
  rw [answer] at h
  cases hd : status.denied <;> cases ha : status.allowed <;> simp_all

namespace WebhookAuthorizer

variable {w : WebhookAuthorizer} {env : ReviewEnv} {call : AuthorizeCall} {key : String}
  {status : SubjectAccessReviewStatus} {time now : ℤ}

theorem captured_calls (n : ℕ) : (captured (create env call key) {} n).calls = n := by
  induction n with
  | zero => rfl
  | succ n ih =>
    rw [captured_succ, create]
    split <;> simp [ih]

/-- A review that succeeds returns what the remote service answered. -/
theorem review_eq_ok (h : w.review env call key = .ok (status, time)) :
    (∃ n, time = call.answered n) ∧ env.remote key time = .ok status := by
  rw [review] at h
  obtain ⟨k, hk⟩ := withExponentialBackoff_spec (create env call key)
    (defaultShouldRetry env.errorTests) call.ctx w.retryBackoff {}
  split at h
  case h_1 => cases h
  case h_2 s hout =>
    cases h
    rw [hout] at hk
    obtain ⟨n, rfl, hok, -⟩ := hk.err.1 rfl
    have hstate : s = captured (create env call key) {} (n + 1) := hk.state
    rw [captured_succ, create, captured_calls] at hstate
    rw [callErr, create, captured_calls] at hok
    split at hok
    case h_1 status hremote =>
      rw [hremote] at hstate
      subst hstate
      exact ⟨⟨n, rfl⟩, hremote⟩
    case h_2 => cases hok

theorem get_eq_some {cache : ResponseCache} (h : cache.get now key = some status) :
    ∃ entry, cache.lookup key = some entry ∧ entry.status = status ∧ now ≤ entry.expireTime := by
  rw [ResponseCache.get] at h
  split at h
  case h_1 entry hentry =>
    split_ifs at h with hexp
    exact ⟨entry, hentry, Option.some.inj h, not_lt.1 hexp⟩
  case h_2 => cases h

variable (w env) in
/-- How a call of `Authorize` ends. -/
inductive Authorized (cache : ResponseCache) (call : AuthorizeCall) :
    Answer × ResponseCache → Prop
  | unserialized {err : Error} (hkey : env.marshal (reviewSpec call.attr) = .error err) :
      Authorized cache call ({ decision := w.decisionOnError, err := some err }, cache)
  | hit {key : String} {status : SubjectAccessReviewStatus}
      (hkey : env.marshal (reviewSpec call.attr) = .ok key)
      (hget : cache.get call.now key = some status) :
      Authorized cache call (status.answer, cache)
  | failed {key : String} {err : Error} (hkey : env.marshal (reviewSpec call.attr) = .ok key)
      (hget : cache.get call.now key = none) (hreview : w.review env call key = .error err) :
      Authorized cache call ({ decision := w.decisionOnError, err := some err }, cache)
  | answered {key : String} {status : SubjectAccessReviewStatus} {time : ℤ}
      (hkey : env.marshal (reviewSpec call.attr) = .ok key)
      (hget : cache.get call.now key = none)
      (hreview : w.review env call key = .ok (status, time)) :
      Authorized cache call (status.answer,
        if shouldCache call.attr then cache.add time key status (w.ttl status) else cache)

theorem authorized_authorize (w : WebhookAuthorizer) (env : ReviewEnv) (cache : ResponseCache)
    (call : AuthorizeCall) : Authorized w env cache call (w.authorize env cache call) := by
  rw [authorize]
  split
  case h_1 err hkey => exact .unserialized hkey
  case h_2 key hkey =>
    split
    case h_1 status hget => exact .hit hkey hget
    case h_2 hget =>
      split
      case h_1 err hreview => exact .failed hkey hget hreview
      case h_2 status time hreview => exact .answered hkey hget hreview

/-! ## What is in the cache -/

variable (w env) in
/-- The remote service was asked about a spec in a call, and answered with a
    status at a time. -/
structure Exchange.Asked (x : Exchange) (key : String) (status : SubjectAccessReviewStatus)
    (time : ℤ) : Prop where
  marshal : env.marshal (reviewSpec x.call.attr) = .ok key
  miss : x.before.get x.call.now key = none
  review : w.review env x.call key = .ok (status, time)

variable (w env) in
/-- What is in the cache has been answered to an earlier call, and expires when
    it was answered plus its time to live. -/
def Backed (past : List Exchange) (cache : ResponseCache) : Prop :=
  ∀ key entry, cache.lookup key = some entry →
    ∃ x ∈ past, ∃ time, x.Asked w env key entry.status time ∧
      entry.expireTime = time + w.ttl entry.status

section

variable {past : List Exchange} {cache : ResponseCache}

theorem Backed.empty : Backed w env [] ∅ := by
  intro key entry h
  rw [AList.lookup_empty] at h
  cases h

theorem Backed.evict (h : Backed w env past cache) (key : String) :
    Backed w env past (cache.erase key) := by
  intro key' entry hentry
  by_cases hkey : key' = key
  · rw [hkey, AList.lookup_erase] at hentry
    cases hentry
  · rw [AList.lookup_erase_ne hkey] at hentry
    exact h key' entry hentry

theorem Backed.append (h : Backed w env past cache) (x : Exchange) :
    Backed w env (past ++ [x]) cache := by
  intro key entry hentry
  obtain ⟨y, hy, hasked⟩ := h key entry hentry
  exact ⟨y, List.mem_append_left _ hy, hasked⟩

theorem Backed.add (h : Backed w env past cache) {x : Exchange} (hx : x ∈ past)
    (hasked : x.Asked w env key status time) :
    Backed w env past (cache.add time key status (w.ttl status)) := by
  intro key' entry hentry
  by_cases hkey : key' = key
  · subst hkey
    rw [ResponseCache.add, AList.lookup_insert] at hentry
    cases hentry
    exact ⟨x, hx, time, hasked, rfl⟩
  · rw [ResponseCache.add, AList.lookup_insert_ne hkey] at hentry
    exact h key' entry hentry

/-- What a call adds to the cache has been answered to it. -/
theorem Backed.authorize (h : Backed w env past cache) (call : AuthorizeCall) :
    Backed w env (past ++ [w.exchange env cache call]) (w.exchange env cache call).after := by
  have hout := authorized_authorize w env cache call
  rw [exchange]
  cases hauth : w.authorize env cache call with
  | mk answer after =>
    rw [hauth] at hout
    cases hout with
    | unserialized => exact h.append _
    | hit => exact h.append _
    | failed => exact h.append _
    | answered hkey hget hreview =>
      dsimp only
      split_ifs
      · exact (h.append _).add (List.mem_append_right _ (List.mem_singleton_self _))
          ⟨hkey, hget, hreview⟩
      · exact h.append _

end

/-! ## Decisions -/

variable (w env) in
/-- The review of a call failed: its spec cannot be serialized, or the remote
    service was asked and gave no answer. -/
inductive Exchange.Failed (x : Exchange) (err : Error) : Prop
  | marshal (h : env.marshal (reviewSpec x.call.attr) = .error err)
  | review {key : String} (hkey : env.marshal (reviewSpec x.call.attr) = .ok key)
      (hmiss : x.before.get x.call.now key = none)
      (hreview : w.review env x.call key = .error err)

variable (w env) in
/-- What is promised of a call, after the calls in the past. -/
structure Exchange.Sound (past : List Exchange) (x : Exchange) : Prop where
  /-- The decision is made from an answer to the same spec, to this call or to one
      in the past that is not older than the time to live of the answer. A status
      with both bits does not allow. -/
  transparent : (∀ err, ¬ x.Failed w env err) →
    ∃ key status time, env.marshal (reviewSpec x.call.attr) = .ok key ∧
      env.remote key time = .ok status ∧ x.answer = status.answer ∧
      (status.allowed = true → status.denied = true → x.answer.decision ≠ .allow) ∧
      (x.Asked w env key status time ∨
        ∃ y ∈ past, y.Asked w env key status time ∧
          x.call.now ≤ time + if status.allowed then w.authorizedTTL else w.unauthorizedTTL)
  /-- A review that fails is not cached; there is no opinion, but an error. -/
  failed : ∀ err, x.Failed w env err →
    x.answer = { decision := .noOpinion, err := some err } ∧ x.after = x.before
  /-- Large attributes are not cached. -/
  large : 10000 ≤ controlledAttrSize x.call.attr → x.after = x.before

section

variable {past : List Exchange} {cache : ResponseCache}

/-- A call that failed is answered by the decision on errors. -/
theorem exchange_failed (hw : w.decisionOnError = .noOpinion) {err : Error}
    (h : (w.exchange env cache call).Failed w env err) :
    (w.exchange env cache call).answer = { decision := .noOpinion, err := some err } ∧
      (w.exchange env cache call).after = cache := by
  cases h with
  | marshal hkey =>
    have hkey : env.marshal (reviewSpec call.attr) = .error err := hkey
    simp [exchange, WebhookAuthorizer.authorize, hkey, hw]
  | review hkey hmiss hreview =>
    have hkey : env.marshal (reviewSpec call.attr) = .ok _ := hkey
    have hmiss : cache.get call.now _ = none := hmiss
    have hreview : w.review env call _ = .error err := hreview
    simp [exchange, WebhookAuthorizer.authorize, hkey, hmiss, hreview, hw]

/-- Large requests are not cached. -/
theorem exchange_large (h : 10000 ≤ controlledAttrSize call.attr) :
    (w.exchange env cache call).after = cache := by
  have hcache : shouldCache call.attr = false := by
    rw [shouldCache, decide_eq_false_iff_not, maxControlledAttrCacheSize]
    omega
  have hout := authorized_authorize w env cache call
  rw [exchange]
  cases hauth : w.authorize env cache call with
  | mk answer after =>
    rw [hauth] at hout
    cases hout with
    | unserialized => rfl
    | hit => rfl
    | failed => rfl
    | answered => simp [hcache]

/-- With a cache that is backed by calls, an exchange is sound. -/
theorem Backed.sound (h : Backed w env past cache) (hw : w.decisionOnError = .noOpinion)
    (call : AuthorizeCall) : (w.exchange env cache call).Sound w env past := by
  refine ⟨fun hfailed => ?_, fun err => exchange_failed hw, exchange_large⟩
  have hallow (status : SubjectAccessReviewStatus) : status.allowed = true →
      status.denied = true → status.answer.decision ≠ .allow := by
    intro _ hdenied hallow
    rw [(SubjectAccessReviewStatus.allowed_of_answer hallow).2] at hdenied
    cases hdenied
  have hout := authorized_authorize w env cache call
  obtain ⟨⟨answer, after⟩, hauth⟩ : ∃ out, w.authorize env cache call = out := ⟨_, rfl⟩
  have hanswer : (w.exchange env cache call).answer = answer := by rw [exchange, hauth]
  rw [hanswer]
  rw [hauth] at hout
  cases hout with
  | unserialized hkey => exact absurd (.marshal hkey) (hfailed _)
  | hit hkey hget =>
    obtain ⟨entry, hentry, rfl, hexp⟩ := get_eq_some hget
    obtain ⟨y, hy, time, hasked, htime⟩ := h _ entry hentry
    refine ⟨_, entry.status, time, hkey, (review_eq_ok hasked.review).2, rfl, hallow _,
      .inr ⟨y, hy, hasked, ?_⟩⟩
    exact htime ▸ hexp
  | failed hkey hget hreview => exact absurd (.review hkey hget hreview) (hfailed _)
  | answered hkey hget hreview =>
    exact ⟨_, _, _, hkey, (review_eq_ok hreview).2, rfl, hallow _, .inl ⟨hkey, hget, hreview⟩⟩

/-- What is promised holds of every call of a run, whatever the cache is backed by. -/
theorem Backed.sound_of_exchanges (h : Backed w env past cache)
    (hw : w.decisionOnError = .noOpinion) (events : List Event) {before after : List Exchange}
    {x : Exchange} (hx : w.exchanges env cache events = before ++ x :: after) :
    x.Sound w env (past ++ before) := by
  induction events generalizing past cache before with
  | nil => simp [exchanges] at hx
  | cons event events ih =>
    cases event with
    | evict key => exact ih (h.evict key) hx
    | authorize call =>
      rw [exchanges] at hx
      cases before with
      | nil =>
        cases hx
        rw [List.append_nil]
        exact h.sound hw call
      | cons y before =>
        rw [List.cons_append, List.cons.injEq] at hx
        obtain ⟨rfl, hx⟩ := hx
        rw [List.append_cons]
        exact ih (h.authorize call) hx

end

/-- Whatever is asked of an authorizer, and whatever its cache loses, every
    decision is made from an answer to the same spec that is not older than its
    time to live. -/
theorem exchanges_sound (authorizedTTL unauthorizedTTL : ℤ) (retryBackoff : Backoff)
    (env : ReviewEnv) (events : List Event) :
    let w := newWithBackoff authorizedTTL unauthorizedTTL retryBackoff
    let l := w.exchanges env ∅ events
    ∀ i : Fin l.length, (l.get i).Sound w env (l.take i) := by
  intro w l i
  have hsplit : l = l.take i ++ l.get i :: l.drop (i + 1) := by
    rw [List.get_eq_getElem, List.getElem_cons_drop, List.take_append_drop]
  exact Backed.empty.sound_of_exchanges rfl events hsplit

end WebhookAuthorizer

end Apiserver.Authorization
