import Apiserver.Basic
import Apiserver.Go.Encoding
import Apiserver.Go.LinkedList
import Mathlib.Data.Finset.Dedup
import Mathlib.Data.Finset.Order
import Mathlib.Data.List.OfFn
import Mathlib.Logic.Function.Basic

/-!
# The request cache

A streaming request (exec, attach or port-forward) is put into a cache, and the
client gets a URL with a token to fetch it with (`pkg/streaming/request_cache.go`).
The token can be used once, within a minute. The cache keeps its entries in a map by
the token and in a list by their age: `Insert` first removes the expired ones, from
the back of the list to the first that is not.

The calls hold a lock, so that a run is a sequence of them. A call is given with
what it reads from outside: the clock, and the random bytes.

* `Inv`, `inv_after`: the map and the list hold the same entries, not more than
  `maxInFlight`, by their expiry;
* `elements_gc`: as the list is in that order, the loop that stops at the first live
  entry removes the expired entries, and no others;
* `held_step`: what a call does to the requests that are *held*, each by its token
  until it expires. The map and the list together implement this partial function;
* `result_consume_iff`: what `Consume` returns, in terms of the calls so far;
* `requestCache_singleUse`: all of this for every sequence of calls.
-/

namespace Apiserver.Streaming

open Go

/-- `cacheTTL`, in nanoseconds. -/
def cacheTTL : ℤ := 60 * 1000000000

/-- `maxInFlight`. -/
def maxInFlight : ℕ := 1000

/-- `tokenLen`. -/
def tokenLen : ℕ := 8

/-- The number of bytes that are `tokenLen` characters in base 64. -/
def tokenSize : ℕ := (tokenLen * 6 + 7) / 8

def maxTries : ℕ := 10

/-- The text of `NewErrorTooManyInFlight`. -/
def errorTooManyInFlight : Error := "maximum number of in-flight requests exceeded"

/-- What `rand.Read` fills the buffer with. -/
abbrev RawToken := Fin tokenSize → UInt8

variable {R : Type}

/-- `cacheEntry`. -/
structure CacheEntry (R : Type) where
  token : String
  req : R
  expireTime : ℤ

/-- `requestCache`. -/
structure RequestCache (R : Type) where
  tokens : AList fun _ : String => Element (CacheEntry R)
  ll : LinkedList (CacheEntry R)

/-- `newRequestCache`. -/
def newRequestCache : RequestCache R where
  tokens := ∅
  ll := LinkedList.empty

namespace RequestCache

variable (c : RequestCache R)

/-- The loop of `gc`, which takes an element off the list in each iteration. -/
def gcLoop (now : ℤ) : ℕ → RequestCache R → RequestCache R
  | 0, c => c
  | n + 1, c =>
    match c.ll.back with
    | none => c
    | some oldest =>
      if now ≤ oldest.value.expireTime then c
      else gcLoop now n { tokens := c.tokens.erase oldest.value.token, ll := c.ll.remove oldest }

/-- `gc`. -/
def gc (now : ℤ) : RequestCache R := gcLoop now c.ll.len c

/-- The string for random bytes that is looked for in the map. -/
def encoded (raw : RawToken) : String := rawURLEncoding.encodeToString (List.ofFn raw)

/-- The string for random bytes that is handed out. -/
def tokenOf (raw : RawToken) : String := String.ofList ((encoded raw).toList.take tokenLen)

/-- The loop of `uniqueToken`, with `n` tries left. -/
def uniqueTokenLoop (rand : ℕ → Except Error RawToken) : ℕ → ℕ → Except Error String
  | 0, _ => .error "failed to generate unique token"
  | n + 1, i =>
    match rand i with
    | .error err => .error err
    | .ok raw =>
      if encoded raw ∈ c.tokens then uniqueTokenLoop rand n (i + 1) else .ok (tokenOf raw)

/-- `uniqueToken`. -/
def uniqueToken (rand : ℕ → Except Error RawToken) : Except Error String :=
  c.uniqueTokenLoop rand maxTries 0

/-- `Insert`; the clock is read for the garbage collection, and for the new entry. -/
def insert (req : R) (gcNow now : ℤ) (rand : ℕ → Except Error RawToken) :
    Except Error String × RequestCache R :=
  let c := c.gc gcNow
  if c.ll.len = maxInFlight then (.error errorTooManyInFlight, c)
  else
    match c.uniqueToken rand with
    | .error err => (.error err, c)
    | .ok token =>
      let (ele, ll) := c.ll.pushFront { token, req, expireTime := now + cacheTTL }
      (.ok token, { tokens := c.tokens.insert token ele, ll })

/-- `Consume`. -/
def consume (token : String) (now : ℤ) : Option R × RequestCache R :=
  match c.tokens.lookup token with
  | none => (none, c)
  | some ele =>
    let c := { tokens := c.tokens.erase token, ll := c.ll.remove ele }
    if ele.value.expireTime < now then (none, c) else (some ele.value.req, c)

end RequestCache

/-- A call, with what it reads. -/
inductive Call (R : Type)
  | insert (req : R) (gcNow now : ℤ) (rand : ℕ → Except Error RawToken)
  | consume (token : String) (now : ℤ)

/-- What a call returns. -/
inductive Result (R : Type)
  | token (t : Except Error String)
  | request (req : Option R)

/-- The times a call reads. -/
def Call.reads : Call R → List ℤ
  | .insert _ gcNow now _ => [gcNow, now]
  | .consume _ now => [now]

/-- The clock does not go back. -/
def ClockMonotone (calls : List (Call R)) : Prop := (calls.flatMap Call.reads).Pairwise (· ≤ ·)

def RequestCache.step (c : RequestCache R) : Call R → Result R × RequestCache R
  | .insert req gcNow now rand =>
    let (t, c) := c.insert req gcNow now rand
    (.token t, c)
  | .consume token now =>
    let (req, c) := c.consume token now
    (.request req, c)

/-- The cache after some calls. -/
def after (calls : List (Call R)) : RequestCache R :=
  calls.foldl (fun c call => (c.step call).2) newRequestCache

/-- What the call with an index returns. -/
def resultAt (calls : List (Call R)) (i : ℕ) : Option (Result R) :=
  calls[i]?.map fun call => ((after (calls.take i)).step call).1

/-! ## The map and the list -/

/-- What holds of the cache when `now` was the last time to be read. -/
structure Inv (c : RequestCache R) (now : ℤ) : Prop where
  /-- The map has the elements of the list, each by its token. -/
  same : ∀ t e, c.tokens.lookup t = some e ↔ e ∈ c.ll.elements ∧ e.value.token = t
  /-- The list is in the order of expiry, the last to expire at the front. -/
  sorted : c.ll.elements.Pairwise fun e e' => e'.value.expireTime ≤ e.value.expireTime
  len_le : c.ll.len ≤ maxInFlight
  /-- No entry was made after the last time read. -/
  expire_le : ∀ e ∈ c.ll.elements, e.value.expireTime ≤ now + cacheTTL

namespace Inv

variable {c : RequestCache R} {t now : ℤ} {e : Element (CacheEntry R)}

theorem new (now : ℤ) : Inv (newRequestCache : RequestCache R) now where
  same t e := by simp [newRequestCache, LinkedList.empty]
  sorted := List.Pairwise.nil
  len_le := Nat.zero_le _
  expire_le e he := absurd he List.not_mem_nil

theorem mono (h : Inv c t) (ht : t ≤ now) : Inv c now where
  same := h.same
  sorted := h.sorted
  len_le := h.len_le
  expire_le e he := (h.expire_le e he).trans (by omega)

/-- The entries have different tokens. -/
theorem eq_of_token_eq (h : Inv c t) {e' : Element (CacheEntry R)} (he : e ∈ c.ll.elements)
    (he' : e' ∈ c.ll.elements) (htoken : e.value.token = e'.value.token) : e = e' := by
  have hlookup := (h.same e'.value.token e).2 ⟨he, htoken⟩
  have hlookup' := (h.same e'.value.token e').2 ⟨he', rfl⟩
  exact Option.some.inj (hlookup.symm.trans hlookup')

/-- An element is removed from the map and from the list. -/
theorem remove (h : Inv c t) (he : e ∈ c.ll.elements) :
    Inv { tokens := c.tokens.erase e.value.token, ll := c.ll.remove e } t where
  same token e' := by
    rw [LinkedList.mem_remove he]
    by_cases htoken : token = e.value.token
    · subst htoken
      rw [AList.lookup_erase]
      refine ⟨fun hnone => absurd hnone (Option.some_ne_none _).symm, ?_⟩
      rintro ⟨⟨he', hne⟩, htoken'⟩
      exact absurd (h.eq_of_token_eq he' he htoken') hne
    · rw [AList.lookup_erase_ne htoken, h.same]
      refine ⟨fun ⟨he', htoken'⟩ => ⟨⟨he', ?_⟩, htoken'⟩, fun ⟨⟨he', _⟩, htoken'⟩ => ⟨he', htoken'⟩⟩
      rintro rfl
      exact htoken htoken'.symm
  sorted := h.sorted.filter _
  len_le := LinkedList.len_remove_le.trans h.len_le
  expire_le e' he' := h.expire_le e' ((LinkedList.mem_remove he).1 he').1

/-- The loop of `gc` removes the expired entries, and no others: those before an
    entry that has not expired have not expired either. -/
theorem gcLoop {n : ℕ} (h : Inv c t) (hn : c.ll.len ≤ n) :
    Inv (RequestCache.gcLoop now n c) t ∧ (RequestCache.gcLoop now n c).ll.elements =
      c.ll.elements.filter fun e => now ≤ e.value.expireTime := by
  induction n generalizing c with
  | zero =>
    have hnil : c.ll.elements = [] := List.eq_nil_of_length_eq_zero (Nat.le_zero.1 hn)
    refine ⟨h, ?_⟩
    rw [RequestCache.gcLoop, hnil, List.filter_nil]
  | succ n ih =>
    rw [RequestCache.gcLoop]
    cases hback : c.ll.back with
    | none =>
      refine ⟨h, ?_⟩
      rw [List.getLast?_eq_none_iff.1 hback, List.filter_nil]
    | some oldest =>
      obtain ⟨es, hes⟩ := List.getLast?_eq_some_iff.1 hback
      have hmem : oldest ∈ c.ll.elements := by simp [hes]
      have hsorted := h.sorted
      rw [hes, List.pairwise_append] at hsorted
      -- The entries are sorted, the oldest last: if it is alive then all are.
      by_cases hlive : now ≤ oldest.value.expireTime
      · simp only [if_pos hlive]
        refine ⟨h, (List.filter_eq_self.2 fun e he => decide_eq_true ?_).symm⟩
        rw [hes, List.mem_append, List.mem_singleton] at he
        rcases he with he | rfl
        · exact hlive.trans (hsorted.2.2 e he oldest (List.mem_singleton_self _))
        · exact hlive
      · simp only [if_neg hlive]
        have hrest : (c.ll.remove oldest).elements = es := by
          rw [LinkedList.elements_remove_back hback, hes, List.dropLast_concat]
        have hlen : (c.ll.remove oldest).len ≤ n := by
          have : c.ll.len = es.length + 1 := by simp [LinkedList.len, hes]
          rw [LinkedList.len, hrest]
          omega
        obtain ⟨hinv, helements⟩ := ih (h.remove hmem) hlen
        refine ⟨hinv, ?_⟩
        rw [helements, hrest, hes, List.filter_append]
        simp [hlive]

theorem gc (h : Inv c t) : Inv (c.gc now) t := (h.gcLoop le_rfl).1

theorem elements_gc (h : Inv c t) :
    (c.gc now).ll.elements = c.ll.elements.filter fun e => now ≤ e.value.expireTime :=
  (h.gcLoop le_rfl).2

end Inv

namespace RequestCache

variable {c : RequestCache R}

/-- Pushing an entry to the front of the list, and into the map. -/
def add (c : RequestCache R) (entry : CacheEntry R) : RequestCache R where
  tokens := c.tokens.insert entry.token (c.ll.pushFront entry).1
  ll := (c.ll.pushFront entry).2

/-- What is looked for in the map is what is handed out, as six bytes are encoded by
    eight characters. -/
theorem tokenOf_eq (raw : RawToken) : tokenOf raw = encoded raw := by
  have hlength : (encoded raw).toList.length = tokenLen := by
    have hraw : (List.ofFn raw).length = 3 * 2 := by rw [List.length_ofFn]; rfl
    rw [encoded, Encoding.encodeToString, String.toList_ofList,
      rawURLEncoding.length_encodeQuanta hraw]
    rfl
  rw [tokenOf, List.take_of_length_le hlength.le, String.ofList_toList]

/-- A token that is returned is not in use. -/
theorem uniqueTokenLoop_notMem {rand : ℕ → Except Error RawToken} {n i : ℕ} {token : String}
    (h : c.uniqueTokenLoop rand n i = .ok token) : token ∉ c.tokens := by
  induction n generalizing i with
  | zero => cases h
  | succ n ih =>
    rw [uniqueTokenLoop] at h
    cases hrand : rand i with
    | error err =>
      rw [hrand] at h
      cases h
    | ok raw =>
      simp only [hrand] at h
      split_ifs at h with hmem
      · exact ih h
      · obtain rfl := Except.ok.inj h
        rwa [tokenOf_eq]

/-- What `Insert` does. -/
theorem insert_eq (c : RequestCache R) (req : R) (gcNow now : ℤ)
    (rand : ℕ → Except Error RawToken) :
    (∃ err, c.insert req gcNow now rand = (.error err, c.gc gcNow)) ∨
    ∃ token, token ∉ (c.gc gcNow).tokens ∧ (c.gc gcNow).ll.len ≠ maxInFlight ∧
      c.insert req gcNow now rand =
        (.ok token, (c.gc gcNow).add { token, req, expireTime := now + cacheTTL }) := by
  by_cases hfull : (c.gc gcNow).ll.len = maxInFlight
  · exact .inl ⟨errorTooManyInFlight, by rw [insert, if_pos hfull]⟩
  · rw [insert, if_neg hfull]
    cases htoken : (c.gc gcNow).uniqueToken rand with
    | error err => exact .inl ⟨err, rfl⟩
    | ok token => exact .inr ⟨token, uniqueTokenLoop_notMem htoken, hfull, rfl⟩

end RequestCache

namespace Inv

variable {c : RequestCache R} {t now : ℤ}

/-- A new entry expires last. -/
theorem add (h : Inv c t) (ht : t ≤ now) {token : String} {req : R} (htoken : token ∉ c.tokens)
    (hlen : c.ll.len ≠ maxInFlight) :
    Inv (c.add { token, req, expireTime := now + cacheTTL }) now where
  same token' e := by
    simp only [RequestCache.add, LinkedList.pushFront, List.mem_cons]
    by_cases heq : token' = token
    · subst heq
      rw [AList.lookup_insert, Option.some.injEq]
      refine ⟨?_, ?_⟩
      · rintro rfl
        exact ⟨.inl rfl, rfl⟩
      · rintro ⟨rfl | he, htoken'⟩
        · rfl
        · have hlookup := (h.same token' e).2 ⟨he, htoken'⟩
          rw [AList.lookup_eq_none.2 htoken] at hlookup
          cases hlookup
    · rw [AList.lookup_insert_ne heq, h.same]
      refine ⟨fun hmem => ⟨.inr hmem.1, hmem.2⟩, ?_⟩
      rintro ⟨rfl | he, htoken'⟩
      · exact absurd htoken'.symm heq
      · exact ⟨he, htoken'⟩
  sorted := by
    refine List.pairwise_cons.2 ⟨fun e he => ?_, h.sorted⟩
    exact (h.mono ht).expire_le e he
  len_le := by
    have := h.len_le
    simp only [RequestCache.add, LinkedList.pushFront, LinkedList.len, List.length_cons] at hlen ⊢
    rw [LinkedList.len] at this
    omega
  expire_le e he := by
    rcases List.mem_cons.1 he with rfl | he
    · exact le_rfl
    · exact (h.mono ht).expire_le e he

end Inv

/-! ## The requests that are held

What the cache is for: a request is held by its token until it is consumed or, at
some time after it expired, dropped. -/

/-- Requests by their tokens, with the times they expire. -/
abbrev Held (R : Type) := String → Option (R × ℤ)

namespace Held

variable (h : Held R)

/-- The requests that have not expired. -/
def live (now : ℤ) : Held R := fun token => (h token).filter fun r => now ≤ r.2

theorem live_eq_some {now x : ℤ} {token : String} {req : R} :
    h.live now token = some (req, x) ↔ h token = some (req, x) ∧ now ≤ x := by
  simp [live, Option.filter_eq_some_iff]

/-- What a call may return, and which requests are held after it. -/
inductive Step : Held R → Call R → Result R → Held R → Prop
  | rejected (h : Held R) (req : R) (gcNow now : ℤ) (rand) (err : Error) :
      Step h (.insert req gcNow now rand) (.token (.error err)) (h.live gcNow)
  | accepted (h : Held R) (req : R) (gcNow now : ℤ) (rand) (token : String)
      (hnew : h.live gcNow token = none) :
      Step h (.insert req gcNow now rand) (.token (.ok token))
        (Function.update (h.live gcNow) token (some (req, now + cacheTTL)))
  | consumed (h : Held R) (token : String) (now : ℤ) :
      Step h (.consume token now) (.request ((h.live now token).map Prod.fst))
        (Function.update h token none)

/-- The call inserted a request under a token, to expire at a time. -/
def InsertedBy (call : Call R) (result : Result R) (token : String) (req : R) (x : ℤ) : Prop :=
  ∃ gcNow now rand, call = .insert req gcNow now rand ∧ result = .token (.ok token) ∧
    x = now + cacheTTL

section Step

variable {h h' : Held R} {call : Call R} {result : Result R} {token : String} {req : R} {x : ℤ}

/-- A request that is held was held before, or is inserted by the call. -/
theorem Step.held_or_insertedBy (hstep : Step h call result h') (hheld : h' token = some (req, x)) :
    h token = some (req, x) ∧ (∀ now, call ≠ .consume token now) ∨
      InsertedBy call result token req x := by
  cases hstep with
  | rejected =>
    exact .inl ⟨((h.live_eq_some).1 hheld).1, fun _ heq => by cases heq⟩
  | accepted req' gcNow now rand token' =>
    by_cases htoken : token = token'
    · subst htoken
      rw [Function.update_self] at hheld
      cases hheld
      exact .inr ⟨gcNow, now, rand, rfl, rfl, rfl⟩
    · rw [Function.update_of_ne htoken] at hheld
      exact .inl ⟨((h.live_eq_some).1 hheld).1, fun _ heq => by cases heq⟩
  | consumed token' now =>
    by_cases htoken : token = token'
    · subst htoken
      rw [Function.update_self] at hheld
      cases hheld
    · rw [Function.update_of_ne htoken] at hheld
      refine .inl ⟨hheld, fun now' heq => ?_⟩
      cases heq
      exact htoken rfl

theorem Step.held_of_insertedBy (hstep : Step h call result h')
    (hby : InsertedBy call result token req x) : h' token = some (req, x) := by
  obtain ⟨gcNow, now, rand, rfl, rfl, rfl⟩ := hby
  cases hstep with
  | accepted => rw [Function.update_self]

/-- A request that has not expired is held until its token is consumed. -/
theorem Step.held_of_live (hstep : Step h call result h') (hheld : h token = some (req, x))
    (hcall : ∀ now, call ≠ .consume token now) (hlive : ∀ r ∈ call.reads, r ≤ x) :
    h' token = some (req, x) := by
  cases hstep with
  | rejected _ gcNow =>
    exact h.live_eq_some.2 ⟨hheld, hlive gcNow (by simp [Call.reads])⟩
  | accepted req' gcNow now rand token' hnew =>
    have hgc : h.live gcNow token = some (req, x) :=
      h.live_eq_some.2 ⟨hheld, hlive gcNow (by simp [Call.reads])⟩
    -- The token that is handed out is not that of a request still held.
    have htoken : token ≠ token' := by
      rintro rfl
      rw [hgc] at hnew
      cases hnew
    rwa [Function.update_of_ne htoken]
  | consumed token' now =>
    have htoken : token ≠ token' := by
      rintro rfl
      exact hcall now rfl
    rwa [Function.update_of_ne htoken]

end Step

end Held

namespace RequestCache

variable (c : RequestCache R)

def held : Held R := fun token =>
  (c.tokens.lookup token).map fun e => (e.value.req, e.value.expireTime)

theorem held_add (entry : CacheEntry R) :
    (c.add entry).held =
      Function.update c.held entry.token (some (entry.req, entry.expireTime)) := by
  funext token
  by_cases htoken : token = entry.token
  · subst htoken
    simp [held, add, LinkedList.pushFront]
  · simp [held, add, htoken]

theorem held_erase (token : String) (ll : LinkedList (CacheEntry R)) :
    (RequestCache.mk (c.tokens.erase token) ll).held = Function.update c.held token none := by
  funext token'
  by_cases htoken : token' = token
  · subst htoken
    simp [held]
  · simp [held, htoken]

/-- What `Consume` returns and leaves. -/
theorem consume_held (token : String) (now : ℤ) :
    (c.consume token now).1 = (c.held.live now token).map Prod.fst ∧
      (c.consume token now).2.held = Function.update c.held token none := by
  rw [consume]
  cases hlookup : c.tokens.lookup token with
  | none =>
    have hnone : c.held token = none := by rw [held, hlookup, Option.map_none]
    refine ⟨by simp [Held.live, hnone], ?_⟩
    rw [← hnone, Function.update_eq_self]
  | some ele =>
    have hsome : c.held token = some (ele.value.req, ele.value.expireTime) := by
      rw [held, hlookup, Option.map_some]
    by_cases hexpired : ele.value.expireTime < now
    · simp only [if_pos hexpired]
      exact ⟨by simp [Held.live, hsome, hexpired], c.held_erase token _⟩
    · simp only [if_neg hexpired]
      exact ⟨by simp [Held.live, hsome, not_lt.1 hexpired], c.held_erase token _⟩

end RequestCache

namespace Inv

variable {c : RequestCache R} {t now : ℤ}

theorem held_eq_some (h : Inv c t) {token : String} {req : R} {x : ℤ} :
    c.held token = some (req, x) ↔ ∃ e ∈ c.ll.elements, e.value = ⟨token, req, x⟩ := by
  simp only [RequestCache.held, Option.map_eq_some_iff, h.same, Prod.mk.injEq]
  refine exists_congr fun e => ?_
  rcases e with ⟨id, token', req', x'⟩
  simp [and_assoc]

theorem held_gc (h : Inv c t) : (c.gc now).held = c.held.live now := by
  funext token
  ext ⟨req, x⟩
  rw [Held.live_eq_some, h.gc.held_eq_some, h.held_eq_some, h.elements_gc]
  simp only [List.mem_filter, decide_eq_true_eq]
  refine ⟨?_, ?_⟩
  · rintro ⟨e, ⟨he, hlive⟩, hvalue⟩
    exact ⟨⟨e, he, hvalue⟩, by rwa [hvalue] at hlive⟩
  · rintro ⟨⟨e, he, hvalue⟩, hlive⟩
    exact ⟨e, ⟨he, by rwa [hvalue]⟩, hvalue⟩

/-- A call of the cache is a call on the requests that are held. -/
theorem held_step (h : Inv c t) (call : Call R) :
    Held.Step c.held call (c.step call).1 (c.step call).2.held := by
  cases call with
  | insert req gcNow now rand =>
    simp only [RequestCache.step]
    rcases c.insert_eq req gcNow now rand with ⟨err, heq⟩ | ⟨token, htoken, _, heq⟩
    · rw [heq, h.held_gc]
      exact .rejected ..
    · rw [heq, RequestCache.held_add, h.held_gc]
      refine .accepted _ _ _ _ _ _ ?_
      rw [← h.held_gc, RequestCache.held, AList.lookup_eq_none.2 htoken, Option.map_none]
  | consume token now =>
    simp only [RequestCache.step]
    obtain ⟨hresult, hheld⟩ := c.consume_held token now
    rw [hresult, hheld]
    exact .consumed ..

end Inv

/-! ## Sequences of calls -/

namespace Call

/-- The first and the last time a call reads. -/
def first : Call R → ℤ
  | .insert _ gcNow _ _ => gcNow
  | .consume _ now => now

def last : Call R → ℤ
  | .insert _ _ now _ => now
  | .consume _ now => now

theorem first_mem_reads (call : Call R) : call.first ∈ call.reads := by
  cases call <;> simp [first, reads]

theorem last_mem_reads (call : Call R) : call.last ∈ call.reads := by
  cases call <;> simp [last, reads]

end Call

/-- Calls keep the invariant, as long as the clock goes on. -/
theorem Inv.step {c : RequestCache R} {call : Call R} (h : Inv c call.first)
    (hreads : call.reads.Pairwise (· ≤ ·)) : Inv (c.step call).2 call.last := by
  cases call with
  | insert req gcNow now rand =>
    have hle : gcNow ≤ now := by simpa [Call.reads] using hreads
    simp only [RequestCache.step]
    rcases c.insert_eq req gcNow now rand with ⟨err, heq⟩ | ⟨token, htoken, hlen, heq⟩
    · rw [heq]
      exact h.gc.mono hle
    · rw [heq]
      exact h.gc.add hle htoken hlen
  | consume token now =>
    simp only [RequestCache.step, RequestCache.consume]
    cases hlookup : c.tokens.lookup token with
    | none => exact h
    | some ele =>
      obtain ⟨hmem, rfl⟩ := (h.same token ele).1 hlookup
      by_cases hexpired : ele.value.expireTime < now
      · simp only [if_pos hexpired]
        exact h.remove hmem
      · simp only [if_neg hexpired]
        exact h.remove hmem

theorem after_concat (calls : List (Call R)) (call : Call R) :
    after (calls ++ [call]) = ((after calls).step call).2 := by
  rw [after, List.foldl_concat]
  rfl

variable {calls : List (Call R)}

theorem clockMonotone_concat {call : Call R} :
    ClockMonotone (calls ++ [call]) ↔ ClockMonotone calls ∧ call.reads.Pairwise (· ≤ ·) ∧
      ∀ r ∈ calls.flatMap Call.reads, ∀ r' ∈ call.reads, r ≤ r' := by
  simp [ClockMonotone, List.pairwise_append]

/-- The invariant holds after every sequence of calls. -/
theorem inv_after (hclock : ClockMonotone calls) {t : ℤ}
    (ht : ∀ r ∈ calls.flatMap Call.reads, r ≤ t) : Inv (after calls) t := by
  induction calls using List.reverseRecOn generalizing t with
  | nil => exact Inv.new t
  | append_singleton calls call ih =>
    obtain ⟨hcalls, hreads, hle⟩ := clockMonotone_concat.1 hclock
    rw [after_concat]
    have hbefore : Inv (after calls) call.first :=
      ih hcalls fun r hr => hle r hr _ call.first_mem_reads
    refine (hbefore.step hreads).mono (ht _ ?_)
    simp [call.last_mem_reads]

theorem ClockMonotone.take (h : ClockMonotone calls) (n : ℕ) :
    ClockMonotone (calls.take n) := by
  rw [ClockMonotone, ← List.take_append_drop n calls, List.flatMap_append] at h
  exact (List.pairwise_append.1 h).1

/-- The call with an index inserted a request under a token, to expire at a time. -/
def Inserted (calls : List (Call R)) (i : ℕ) (token : String) (req : R) (expire : ℤ) : Prop :=
  ∃ gcNow now rand, calls[i]? = some (.insert req gcNow now rand) ∧
    resultAt calls i = some (.token (.ok token)) ∧ expire = now + cacheTTL

/-- The call with an index consumes a token. -/
def Consumes (calls : List (Call R)) (i : ℕ) (token : String) : Prop :=
  ∃ now, calls[i]? = some (.consume token now)

/-- A request was inserted under a token, which was not consumed since. -/
def Outstanding (calls : List (Call R)) (token : String) (req : R) (expire : ℤ) : Prop :=
  ∃ i, Inserted calls i token req expire ∧ ∀ k, i < k → ¬ Consumes calls k token

section History

variable {calls : List (Call R)} {call : Call R} {token : String} {req : R} {x : ℤ} {i n : ℕ}

theorem resultAt_take (hi : i < n) : resultAt (calls.take n) i = resultAt calls i := by
  rw [resultAt, resultAt, List.getElem?_take_of_lt hi, List.take_take, Nat.min_eq_left hi.le]

theorem inserted_take :
    Inserted (calls.take n) i token req x ↔ i < n ∧ Inserted calls i token req x := by
  by_cases hi : i < n
  · simp only [Inserted, resultAt_take hi, List.getElem?_take_of_lt hi, hi, true_and]
  · simp [Inserted, hi]

theorem consumes_take : Consumes (calls.take n) i token ↔ i < n ∧ Consumes calls i token := by
  by_cases hi : i < n
  · simp only [Consumes, List.getElem?_take_of_lt hi, hi, true_and]
  · simp [Consumes, hi]

theorem Inserted.lt_length (h : Inserted calls i token req x) : i < calls.length := by
  obtain ⟨_, _, _, hcall, _⟩ := h
  exact (List.getElem?_eq_some_iff.1 hcall).1

/-- What was inserted, after one more call. -/
theorem inserted_concat : Inserted (calls ++ [call]) i token req x ↔
    Inserted calls i token req x ∨
      i = calls.length ∧ Held.InsertedBy call ((after calls).step call).1 token req x := by
  have htake : (calls ++ [call]).take calls.length = calls := List.take_left
  have hbefore : Inserted calls i token req x ↔
      i < calls.length ∧ Inserted (calls ++ [call]) i token req x := by
    rw [← inserted_take, htake]
  rw [hbefore]
  rcases lt_trichotomy i calls.length with hi | rfl | hi
  · simp [hi, hi.ne]
  · simp [Inserted, Held.InsertedBy, resultAt]
  · have hnone : (calls ++ [call])[i]? = none := by
      rw [List.getElem?_eq_none_iff, List.length_append, List.length_singleton]
      omega
    simp [Inserted, hnone, hi.not_gt, hi.ne']

theorem consumes_concat : Consumes (calls ++ [call]) i token ↔
    Consumes calls i token ∨ i = calls.length ∧ ∃ now, call = .consume token now := by
  rcases lt_trichotomy i calls.length with hi | rfl | hi
  · simp [Consumes, List.getElem?_append_left hi, hi.ne]
  · simp [Consumes]
  · have hnone : (calls ++ [call])[i]? = none := by
      rw [List.getElem?_eq_none_iff, List.length_append, List.length_singleton]
      omega
    simp [Consumes, hnone, hi.ne', List.getElem?_eq_none_iff.2 hi.le]

/-- What is outstanding, after one more call. -/
theorem outstanding_concat : Outstanding (calls ++ [call]) token req x ↔
    Outstanding calls token req x ∧ (∀ now, call ≠ .consume token now) ∨
      Held.InsertedBy call ((after calls).step call).1 token req x := by
  refine ⟨?_, ?_⟩
  · rintro ⟨i, hins, hcons⟩
    rcases inserted_concat.1 hins with hbefore | ⟨rfl, hby⟩
    · refine .inl ⟨⟨i, hbefore, fun k hk h => hcons k hk (consumes_concat.2 (.inl h))⟩, ?_⟩
      rintro now rfl
      exact hcons calls.length hbefore.lt_length (consumes_concat.2 (.inr ⟨rfl, now, rfl⟩))
    · exact .inr hby
  · rintro (⟨⟨i, hins, hcons⟩, hcall⟩ | hby)
    · refine ⟨i, inserted_concat.2 (.inl hins), fun k hk h => ?_⟩
      rcases consumes_concat.1 h with h | ⟨rfl, now, rfl⟩
      · exact hcons k hk h
      · exact hcall now rfl
    · refine ⟨calls.length, inserted_concat.2 (.inr ⟨rfl, hby⟩), fun k hk h => ?_⟩
      obtain ⟨now, hk'⟩ := h
      have := (List.getElem?_eq_some_iff.1 hk').1
      rw [List.length_append, List.length_singleton] at this
      omega

/-- What is held was inserted, and not consumed since. -/
theorem outstanding_of_held (hclock : ClockMonotone calls)
    (hheld : (after calls).held token = some (req, x)) : Outstanding calls token req x := by
  induction calls using List.reverseRecOn with
  | nil => simp [after, newRequestCache, RequestCache.held] at hheld
  | append_singleton calls call ih =>
    obtain ⟨hcalls, _, hle⟩ := clockMonotone_concat.1 hclock
    have hinv : Inv (after calls) call.first :=
      inv_after hcalls fun r hr => hle r hr _ call.first_mem_reads
    rw [after_concat] at hheld
    rw [outstanding_concat]
    rcases (hinv.held_step call).held_or_insertedBy hheld with ⟨hheld, hcall⟩ | hby
    · exact .inl ⟨ih hcalls hheld, hcall⟩
    · exact .inr hby

/-- What was inserted and not consumed since is held as long as it has not expired. -/
theorem held_of_outstanding (hclock : ClockMonotone calls) (h : Outstanding calls token req x)
    (hlive : ∀ r ∈ calls.flatMap Call.reads, r ≤ x) :
    (after calls).held token = some (req, x) := by
  induction calls using List.reverseRecOn with
  | nil =>
    obtain ⟨i, hins, _⟩ := h
    exact absurd hins.lt_length (Nat.not_lt_zero i)
  | append_singleton calls call ih =>
    obtain ⟨hcalls, _, hle⟩ := clockMonotone_concat.1 hclock
    have hinv : Inv (after calls) call.first :=
      inv_after hcalls fun r hr => hle r hr _ call.first_mem_reads
    rw [List.flatMap_append, List.flatMap_singleton, List.forall_mem_append] at hlive
    rw [after_concat]
    rcases outstanding_concat.1 h with ⟨h, hcall⟩ | hby
    · exact (hinv.held_step call).held_of_live (ih hcalls h hlive.1) hcall hlive.2
    · exact (hinv.held_step call).held_of_insertedBy hby

/-- What `Consume` returns: the request that was inserted under the token, if it was
    not consumed since and has not expired. -/
theorem result_consume_iff (hclock : ClockMonotone calls) {now : ℤ} {j : ℕ}
    (hj : calls[j]? = some (.consume token now)) :
    resultAt calls j = some (.request (some req)) ↔
      ∃ i expire, i < j ∧ Inserted calls i token req expire ∧
        (∀ k, i < k → k < j → ¬ Consumes calls k token) ∧ now ≤ expire := by
  have hresult : resultAt calls j = some (.request (some req)) ↔
      ∃ x, (after (calls.take j)).held token = some (req, x) ∧ now ≤ x := by
    rw [resultAt, hj]
    simp [RequestCache.step, ((after (calls.take j)).consume_held token now).1,
      Held.live_eq_some]
  have hnow : ∀ r ∈ (calls.take j).flatMap Call.reads, r ≤ now := by
    have hnext : calls.take (j + 1) = calls.take j ++ [.consume token now] := by
      rw [List.take_add_one, hj, Option.toList_some]
    have hclock' := hclock.take (j + 1)
    rw [hnext] at hclock'
    exact fun r hr => (clockMonotone_concat.1 hclock').2.2 r hr now (List.mem_singleton_self _)
  have houtstanding : ∀ x, Outstanding (calls.take j) token req x ↔
      ∃ i, i < j ∧ Inserted calls i token req x ∧
        ∀ k, i < k → k < j → ¬ Consumes calls k token := by
    intro x
    simp only [Outstanding, inserted_take, consumes_take, not_and, and_assoc]
  rw [hresult, exists_comm]
  refine exists_congr fun x => ?_
  constructor
  · rintro ⟨hheld, hle⟩
    obtain ⟨i, hi, hins, hcons⟩ := (houtstanding x).1 (outstanding_of_held (hclock.take j) hheld)
    exact ⟨i, hi, hins, hcons, hle⟩
  · rintro ⟨i, hi, hins, hcons, hle⟩
    refine ⟨held_of_outstanding (hclock.take j) ?_ fun r hr => (hnow r hr).trans hle, hle⟩
    exact (houtstanding x).2 ⟨i, hi, hins, hcons⟩

/-- The token under which a call inserted a request is told by its index. -/
theorem Inserted.token_eq {token' : String} {req' : R} {x' : ℤ}
    (h : Inserted calls i token req x) (h' : Inserted calls i token' req' x') : token = token' := by
  obtain ⟨_, _, _, _, hresult, _⟩ := h
  obtain ⟨_, _, _, _, hresult', _⟩ := h'
  rw [hresult] at hresult'
  cases hresult'
  rfl

end History

/-! ## Single use -/

/-- The call with an index consumes a token and returns a request. -/
def Returns (calls : List (Call R)) (j : ℕ) (token : String) (req : R) : Prop :=
  ∃ now, calls[j]? = some (.consume token now) ∧
    resultAt calls j = some (.request (some req))

/-- A request that is returned can be traced to an `Insert`, and no other to the same. -/
theorem exists_source (hclock : ClockMonotone calls) :
    ∃ source : ℕ → ℕ,
      (∀ j token req, Returns calls j token req →
        source j < j ∧ ∃ expire, Inserted calls (source j) token req expire) ∧
      Set.InjOn source {j | ∃ token req, Returns calls j token req} := by
  have hsource : ∀ j, ∃ i, ∀ token req, Returns calls j token req →
      i < j ∧ (∃ expire, Inserted calls i token req expire) ∧
        ∀ k, i < k → k < j → ¬ Consumes calls k token := by
    intro j
    by_cases hj : ∃ token req, Returns calls j token req
    · obtain ⟨token, req, now, hcall, hresult⟩ := hj
      obtain ⟨i, x, hi, hins, hcons, _⟩ := (result_consume_iff hclock hcall).1 hresult
      refine ⟨i, fun token' req' ⟨now', hcall', hresult'⟩ => ?_⟩
      rw [hcall] at hcall'
      rw [hresult] at hresult'
      cases hcall'
      cases hresult'
      exact ⟨hi, ⟨x, hins⟩, hcons⟩
    · exact ⟨0, fun token req h => absurd ⟨token, req, h⟩ hj⟩
  choose source hsource using hsource
  refine ⟨source, fun j token req h => ⟨(hsource j token req h).1, (hsource j token req h).2.1⟩, ?_⟩
  -- Of two calls with one source, the second finds that the first consumed the token.
  have hne : ∀ j j', j < j' → (∃ token req, Returns calls j token req) →
      (∃ token req, Returns calls j' token req) → source j ≠ source j' := by
    rintro j j' hlt ⟨token, req, h⟩ ⟨token', req', h'⟩ heq
    obtain ⟨hj, ⟨x, hins⟩, _⟩ := hsource j token req h
    obtain ⟨_, ⟨x', hins'⟩, hcons⟩ := hsource j' token' req' h'
    rw [← heq] at hins' hcons
    obtain rfl := hins.token_eq hins'
    obtain ⟨now, hcall, _⟩ := h
    exact hcons j hj hlt ⟨now, hcall⟩
  intro j hj j' hj' heq
  rcases lt_trichotomy j j' with hlt | rfl | hlt
  · exact absurd heq (hne j j' hlt hj hj')
  · rfl
  · exact absurd heq.symm (hne j' j hlt hj' hj)

/-- What is to hold of the cache for a sequence of calls. -/
structure SingleUse (calls : List (Call R)) : Prop where
  /-- The map and the list hold the same entries. -/
  same_entries : ∀ t e, (after calls).tokens.lookup t = some e ↔
    e ∈ (after calls).ll.elements ∧ e.value.token = t
  /-- The list is ordered by expiry. -/
  by_expiry : (after calls).ll.elements.Pairwise fun e e' =>
    e'.value.expireTime ≤ e.value.expireTime
  len_le : (after calls).ll.len ≤ maxInFlight
  /-- A token that is handed out is not one that is still held. -/
  fresh : ∀ req gcNow now rand token, ((after calls).insert req gcNow now rand).1 = .ok token →
    ∀ e ∈ ((after calls).gc gcNow).ll.elements, e.value.token ≠ token
  /-- Garbage collection removes what has expired, and nothing else. -/
  gc_expired : ∀ now, ∀ e ∈ (after calls).ll.elements,
    e ∉ ((after calls).gc now).ll.elements ↔ e.value.expireTime < now
  /-- `Consume` returns what was inserted under the token, if it was not consumed
      since and has not expired. -/
  consume_iff : ∀ j token now, calls[j]? = some (.consume token now) → ∀ req,
    resultAt calls j = some (.request (some req)) ↔
      ∃ i expire, i < j ∧ Inserted calls i token req expire ∧
        (∀ k, i < k → k < j → ¬ Consumes calls k token) ∧ now ≤ expire
  /-- A request is returned at most once per `Insert`. -/
  once : ∃ source : ℕ → ℕ,
    (∀ j token req, Returns calls j token req →
      source j < j ∧ ∃ expire, Inserted calls (source j) token req expire) ∧
    Set.InjOn source {j | ∃ token req, Returns calls j token req}

/-- The cache hands out tokens that can be used once, for every sequence of calls. -/
theorem requestCache_singleUse (calls : List (Call R)) (hclock : ClockMonotone calls) :
    SingleUse calls := by
  obtain ⟨t, ht⟩ : ∃ t, ∀ r ∈ calls.flatMap Call.reads, r ≤ t := by
    obtain ⟨t, ht⟩ := (calls.flatMap Call.reads).toFinset.exists_le
    exact ⟨t, fun r hr => ht r (List.mem_toFinset.2 hr)⟩
  have hinv : Inv (after calls) t := inv_after hclock ht
  exact {
    same_entries := hinv.same
    by_expiry := hinv.sorted
    len_le := hinv.len_le
    fresh := by
      intro req gcNow now rand token htoken e he heq
      rcases (after calls).insert_eq req gcNow now rand with ⟨err, h⟩ | ⟨token', hnew, _, h⟩
      · rw [h] at htoken
        cases htoken
      · rw [h] at htoken
        cases htoken
        have hlookup := (hinv.gc.same token e).2 ⟨he, heq⟩
        rw [AList.lookup_eq_none.2 hnew] at hlookup
        cases hlookup
    gc_expired := by
      intro now e he
      rw [hinv.elements_gc, List.mem_filter, decide_eq_true_eq]
      simp [he]
    consume_iff := fun j token now hj req => result_consume_iff hclock hj
    once := exists_source hclock }

/-- A request is inserted, and fetched twice. -/
def exampleCalls : List (Call ℕ) :=
  [.insert 7 0 0 fun _ => .ok fun _ => 0, .consume "AAAAAAAA" 5, .consume "AAAAAAAA" 6]

theorem exampleCalls_singleUse : SingleUse exampleCalls ∧
    resultAt exampleCalls 1 = some (.request (some 7)) ∧
    resultAt exampleCalls 2 = some (.request none) :=
  ⟨requestCache_singleUse exampleCalls (by simp [ClockMonotone, exampleCalls, Call.reads]),
    rfl, rfl⟩

end Apiserver.Streaming
