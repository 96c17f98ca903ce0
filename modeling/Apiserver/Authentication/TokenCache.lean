import Apiserver.Basic
import Apiserver.Go.Binary
import Apiserver.Transition.System
import Apiserver.Transition.Table
import Mathlib.Logic.Function.Basic

/-!
# The token cache

The cached authenticator (`pkg/authentication/token/cache`) answers a token from a
cache if it can. If not, it asks the authenticator behind, its delegate, in a
*flight* that callers with the same key share: one that finds a flight for its
key joins it. The key is a hash of the token and the audiences of the caller. A
flight looks into the cache once more, calls the delegate, stores the record in
the cache if it is to be kept, and ends by giving the record to those that joined.

The state of the authenticator is that of the callers and of the flights, the
cache, the group of the flights that can be joined, and the time. A step is one of
any caller or flight, or the time going on, so that the runs are all the
interleavings. A record carries the flight it was fetched in, and a caller keeps
how it got its answer; the code has neither, and no step depends on them.

* `keyInput_eq_iff`: what is hashed determines the token and the audiences;
* `key_injective`: callers with the same key ask for the same token and audiences;
* `Inv`, `inv_invariant`: where the records in the cache, in the flights and with
  the callers are from;
* `answers_own`: an answer is from a call of the delegate for what the caller
  asked, in a flight that had not ended when the caller came, or it was found in
  the cache, not longer after it was stored there than it may be used;
* `stale_reachable`: a record can be older than that when the caller comes, if its
  flight has not ended yet.
-/

namespace Apiserver.Authentication.TokenCache

open Go Transition

/-- What a caller asks for: a token, and the audiences in its context, if any. -/
structure Query where
  token : Bytes
  auds : List Bytes := []
  length_token : token.length < 2 ^ 32
  length_auds : auds.length < 2 ^ 32
  length_aud : ∀ aud ∈ auds, aud.length < 2 ^ 32

/-- What `keyFunc` writes to the hash. -/
def Query.serialize (q : Query) : Bytes := lengthPrefixed q.token ++ lengthPrefixedList q.auds

theorem Query.serialize_injective : Function.Injective Query.serialize := by
  rintro ⟨token, auds, htoken, hauds, haud⟩ ⟨token', auds', htoken', hauds', haud'⟩ h
  obtain ⟨rfl, hrest⟩ := lengthPrefixed_append_inj htoken htoken' h
  obtain rfl := lengthPrefixedList_inj hauds haud hauds' haud' hrest
  rfl

/-! ## What is hashed -/

/-- `writeLength`, to a hash that has been given `written`. -/
def writeLength (written : Bytes) (length : ℕ) : Bytes := written ++ putUint32 length

/-- `writeLengthPrefixedString`. -/
def writeLengthPrefixedString (written s : Bytes) : Bytes := writeLength written s.length ++ s

/-- What `keyFunc` gives to the hash, which it resets first. -/
def keyInput (auds : List Bytes) (token : Bytes) : Bytes :=
  auds.foldl writeLengthPrefixedString
    (writeLength (writeLengthPrefixedString [] token) auds.length)

theorem foldl_writeLengthPrefixedString (auds : List Bytes) (written : Bytes) :
    auds.foldl writeLengthPrefixedString written = written ++ auds.flatMap lengthPrefixed := by
  induction auds generalizing written with
  | nil => simp
  | cons aud auds ih =>
    rw [List.foldl_cons, ih, List.flatMap_cons, writeLengthPrefixedString, writeLength,
      lengthPrefixed, List.append_assoc, List.append_assoc, List.append_assoc]

/-- The loop writes what `Query.serialize` puts together. -/
theorem keyInput_eq_serialize (q : Query) : keyInput q.auds q.token = q.serialize := by
  rw [keyInput, foldl_writeLengthPrefixedString, writeLength, writeLengthPrefixedString,
    writeLength, List.nil_append, List.append_assoc]
  rfl

/-- The hash is given the same bytes only for the same token and the same audiences. -/
theorem keyInput_eq_iff (q q' : Query) :
    keyInput q.auds q.token = keyInput q'.auds q'.token ↔
      q.token = q'.token ∧ q.auds = q'.auds := by
  constructor
  · intro h
    rw [keyInput_eq_serialize, keyInput_eq_serialize] at h
    obtain rfl := Query.serialize_injective h
    exact ⟨rfl, rfl⟩
  · rintro ⟨htoken, hauds⟩
    rw [htoken, hauds]

variable {K P : Type}

/-- `cacheRecord`, with the flight it was fetched in. -/
structure Record (P : Type) where
  resp : Option P := none
  ok : Bool := false
  err : Option Error := none
  annotations : List (String × String) := []
  source : ℕ

/-- How a call of the delegate ends; the value of a panic may be nil. -/
inductive Outcome (P : Type)
  | returned (resp : Option P) (ok : Bool) (err : Option Error)
      (annotations : List (String × String))
  | panicked (isNil : Bool)

/-- The message of `errAuthnCrash`. -/
def errAuthnCrash : Error := "authentication failed unexpectedly"

/-- The record of a call of the delegate in a flight. A panic with nil, which the
    deferred function does not see, leaves none. -/
def Outcome.record (f : ℕ) : Outcome P → Option (Record P)
  | .returned resp ok err annotations => some { resp, ok, err, annotations, source := f }
  | .panicked false => some { err := some errAuthnCrash, source := f }
  | .panicked true => none

def Outcome.isReturned : Outcome P → Bool
  | .returned .. => true
  | .panicked _ => false

/-- `cachedTokenAuthenticator`: what does not change. -/
structure Authenticator (K : Type) where
  cacheErrs : Bool := false
  successTTL : ℤ
  failureTTL : ℤ
  /-- The HMAC with the key of the authenticator. -/
  hmac : Bytes → K
  hmac_injective : Function.Injective hmac
  /-- `fnvHashFunc`. -/
  hashFunc : K → ℕ
  stripeCount : ℕ := 32

/-! ## The cache -/

/-- An entry of a cache, with the time it was set. -/
structure Entry (P : Type) where
  record : Record P
  stored : ℤ
  expiry : ℤ

/-- `simpleCache`. -/
abbrev SimpleCache (K P : Type) := AList fun _ : K => Entry P

/-- The caches of a `stripedCache`, by their index. -/
abbrev StripedCache (K P : Type) := ℕ → SimpleCache K P

namespace Authenticator

variable (a : Authenticator K)

/-- `keyFunc`. -/
def key (q : Query) : K := a.hmac q.serialize

theorem key_injective : Function.Injective a.key :=
  a.hmac_injective.comp Query.serialize_injective

/-- The index of the cache for a key. -/
def stripe (key : K) : ℕ := a.hashFunc key % a.stripeCount

section Cache

variable [DecidableEq K]

/-- The entry for a key, whether it has expired or not. -/
def entry (c : StripedCache K P) (key : K) : Option (Entry P) := (c (a.stripe key)).lookup key

/-- `get` of `stripedCache`. -/
def get (c : StripedCache K P) (now : ℤ) (key : K) : Option (Record P) :=
  match a.entry c key with
  | some e => if now < e.expiry then some e.record else none
  | none => none

/-- `set` of `stripedCache`. -/
def set (c : StripedCache K P) (now : ℤ) (key : K) (record : Record P) (ttl : ℤ) :
    StripedCache K P :=
  Function.update c (a.stripe key)
    ((c (a.stripe key)).insert key { record, stored := now, expiry := now + ttl })

theorem get_eq_some {c : StripedCache K P} {now : ℤ} {key : K} {r : Record P}
    (h : a.get c now key = some r) :
    ∃ e, a.entry c key = some e ∧ now < e.expiry ∧ e.record = r := by
  rw [get] at h
  split at h
  · split_ifs at h with hlt
    exact ⟨_, by assumption, hlt, Option.some.inj h⟩
  · cases h

/-- A key is set, and no other. -/
theorem entry_set {c : StripedCache K P} {now : ℤ} {key key' : K} {record : Record P} {ttl : ℤ} :
    a.entry (a.set c now key record ttl) key' =
      if key' = key then some { record, stored := now, expiry := now + ttl }
      else a.entry c key' := by
  rw [entry, set]
  split_ifs with hkey
  · rw [hkey, Function.update_self, AList.lookup_insert]
  · by_cases hstripe : a.stripe key' = a.stripe key
    · rw [hstripe, Function.update_self, AList.lookup_insert_ne hkey, entry, hstripe]
    · rw [Function.update_of_ne hstripe]
      rfl

end Cache

/-- How long a record may be used. -/
def ttl (r : Record P) : ℤ := if r.ok then a.successTTL else a.failureTTL

/-- Whether a record is put in the cache. -/
def caches (r : Record P) : Bool := (a.cacheErrs || r.err.isNone) && 0 < a.ttl r

end Authenticator

/-! ## Callers and flights -/

/-- Whether a record is that of the call a flight has made, or was found in the
    cache, and when. -/
inductive Origin
  | fetched
  | cached (time : ℤ)

/-- Where the function of a flight is. -/
inductive FlightPhase (P : Type)
  | entered
  | calling
  /-- The delegate has returned. -/
  | returned (r : Record P)
  /-- The function has returned, and the flight can still be joined. -/
  | finished (val : Option (Record P × Origin))
  | ended (val : Option (Record P × Origin)) (time : ℤ)

/-- A flight: what its first caller asks for, when and how its call of the delegate
    has ended, and where it is. -/
structure Flight (P : Type) where
  query : Query
  completed : Option (ℤ × Outcome P) := none
  phase : FlightPhase P := .entered

/-- What a caller gets: a record, on its own or from a flight it has joined, the
    error of its context, or a panic. -/
inductive Answer (P : Type)
  | record (r : Record P) (o : Origin) (via : Option ℕ)
  | context (err : Error)
  | panicked

/-- What `AuthenticateToken` returns, if it does. -/
def Answer.result : Answer P → Option (Option P × Bool × Option Error)
  | .record r _ _ => some <|
    if !r.ok || r.err.isSome then (none, false, r.err) else (r.resp, true, none)
  | .context err => some (none, false, some err)
  | .panicked => none

/-- Where a caller is. -/
inductive CallerPhase (P : Type)
  | arrived
  | missed
  | waiting (f : ℕ)
  | answered (x : Answer P)

/-- A caller: what it asks for, when it came, and where it is. -/
structure Caller (P : Type) where
  query : Query
  arrived : ℤ
  phase : CallerPhase P := .arrived

structure State (K P : Type) where
  now : ℤ := 0
  cache : StripedCache K P := fun _ => ∅
  /-- The flights that can be joined, by their keys. -/
  group : AList fun _ : K => ℕ := ∅
  flights : List (Flight P) := []
  callers : List (Caller P) := []

/-- A caller is in another place. -/
def State.setCaller (s : State K P) (k : ℕ) (c : Caller P) (phase : CallerPhase P) : State K P :=
  { s with callers := s.callers.set k { c with phase } }

/-- A flight is in another place. -/
def State.setFlight (s : State K P) (f : ℕ) (fl : Flight P) (phase : FlightPhase P) : State K P :=
  { s with flights := s.flights.set f { fl with phase } }

/-- The value a flight gives, or will give, to those that joined it. -/
def FlightPhase.val : FlightPhase P → Option (Record P × Origin)
  | .finished val => val
  | .ended val _ => val
  | _ => none

/-- What a flight does after the delegate. -/
def Outcome.phase (f : ℕ) : Outcome P → FlightPhase P
  | .returned resp ok err annotations => .returned { resp, ok, err, annotations, source := f }
  | .panicked isNil => .finished ((Outcome.record f (.panicked isNil)).map (·, .fetched))

variable {r : Record P} {out : Outcome P}

theorem Outcome.source_of_record {f : ℕ} (h : out.record f = some r) : r.source = f := by
  rcases out with _ | _ | _ <;> cases h <;> rfl

theorem Outcome.of_phase_eq_returned {f : ℕ} (h : out.phase f = .returned r) :
    out.record f = some r ∧ out.isReturned = true := by
  cases out with
  | returned => cases h; exact ⟨rfl, rfl⟩
  | panicked => cases h

theorem Outcome.of_val_phase {f : ℕ} {o : Origin} (h : (out.phase f).val = some (r, o)) :
    out.record f = some r ∧ o = .fetched := by
  rcases out with _ | _ | _ <;> cases h
  exact ⟨rfl, rfl⟩

/-! ## Later states -/

/-- A flight later on. -/
structure FlightLater (s : State K P) (fl fl' : Flight P) : Prop where
  query : fl'.query = fl.query
  completed : ∀ x, fl.completed = some x → fl'.completed = some x
  ended : ∀ val time, fl.phase = .ended val time → fl'.phase = .ended val time
  ends : ∀ val time, fl'.phase = .ended val time → fl.phase = .ended val time ∨ s.now ≤ time

/-- A state later on: time does not go back, and what has been done remains. -/
structure Later (s t : State K P) : Prop where
  now : s.now ≤ t.now
  flights : ∀ (f : ℕ) (fl : Flight P), s.flights[f]? = some fl →
    ∃ fl', t.flights[f]? = some fl' ∧ FlightLater s fl fl'

variable {s t : State K P}

theorem FlightLater.refl (s : State K P) (fl : Flight P) : FlightLater s fl fl :=
  ⟨rfl, fun _ h => h, fun _ _ h => h, fun _ _ h => .inl h⟩

theorem FlightLater.of_phase {fl : Flight P} {phase : FlightPhase P}
    (hne : ∀ val time, fl.phase ≠ .ended val time)
    (hends : ∀ val time, phase = .ended val time → s.now ≤ time) :
    FlightLater s fl { fl with phase } :=
  ⟨rfl, fun _ h => h, fun val time h => absurd h (hne val time),
    fun val time h => .inr (hends val time h)⟩

theorem Later.of_eq (hnow : s.now ≤ t.now) (hflights : t.flights = s.flights) : Later s t :=
  ⟨hnow, fun _ fl h => ⟨fl, by rw [hflights, h], .refl s fl⟩⟩

theorem Later.of_set {f : ℕ} {fl fl' : Flight P} (hnow : s.now ≤ t.now)
    (hflights : t.flights = s.flights.set f fl') (hf : s.flights[f]? = some fl)
    (hlater : FlightLater s fl fl') : Later s t := by
  refine ⟨hnow, fun g fl₀ hg => ?_⟩
  rw [hflights]
  by_cases heq : g = f
  · subst heq
    obtain rfl : fl = fl₀ := Option.some.inj (hf.symm.trans hg)
    exact ⟨fl', getElem?_set_of_some hf, hlater⟩
  · exact ⟨fl₀, (List.getElem?_set_ne (Ne.symm heq)).trans hg, .refl s fl₀⟩

/-- A record is that of a call of the delegate for a query, which ended at a time. -/
def Produced (s : State K P) (q : Query) (r : Record P) (time : ℤ) (out : Outcome P) : Prop :=
  ∃ call : Flight P, s.flights[r.source]? = some call ∧ call.query = q ∧
    call.completed = some (time, out) ∧ out.record r.source = some r

theorem Later.produced (hl : Later s t) {q : Query} {time : ℤ} (h : Produced s q r time out) :
    Produced t q r time out := by
  obtain ⟨call, hcall, hquery, hcompleted, hrecord⟩ := h
  obtain ⟨call', hcall', hlater⟩ := hl.flights _ _ hcall
  exact ⟨call', hcall', hlater.query.trans hquery, hlater.completed _ hcompleted, hrecord⟩

/-- The flight a caller has joined, for the same query; it did not end before the
    caller came. -/
def Joined (s : State K P) (c : Caller P) (f : ℕ) (fl : Flight P) : Prop :=
  s.flights[f]? = some fl ∧ fl.query = c.query ∧
    ∀ val time, fl.phase = .ended val time → c.arrived ≤ time

/-- A flight that ends later ends after all callers that are there. -/
theorem Later.joined (hl : Later s t) {c : Caller P} {f : ℕ} {fl : Flight P}
    (harrived : c.arrived ≤ s.now) (h : Joined s c f fl) :
    ∃ fl', Joined t c f fl' ∧ FlightLater s fl fl' := by
  obtain ⟨hf, hquery, hended⟩ := h
  obtain ⟨fl', hf', hlater⟩ := hl.flights _ _ hf
  refine ⟨fl', ⟨hf', hlater.query.trans hquery, fun val time hphase => ?_⟩, hlater⟩
  rcases hlater.ends val time hphase with hphase | hle
  · exact hended val time hphase
  · exact harrived.trans hle

namespace Authenticator

variable (a : Authenticator K)

section Steps

variable [DecidableEq K]

/-- A step of a caller. -/
inductive CallerStep : State K P → State K P → Prop
  | arrive {s : State K P} (q : Query) :
      CallerStep s { s with callers := s.callers ++ [{ query := q, arrived := s.now }] }
  | hit {s : State K P} {k : ℕ} {c : Caller P} {r : Record P} (hk : s.callers[k]? = some c)
      (hphase : c.phase = .arrived) (hget : a.get s.cache s.now (a.key c.query) = some r) :
      CallerStep s (s.setCaller k c (.answered (.record r (.cached s.now) none)))
  | miss {s : State K P} {k : ℕ} {c : Caller P} (hk : s.callers[k]? = some c)
      (hphase : c.phase = .arrived) (hget : a.get s.cache s.now (a.key c.query) = none) :
      CallerStep s (s.setCaller k c .missed)
  | join {s : State K P} {k f : ℕ} {c : Caller P} (hk : s.callers[k]? = some c)
      (hphase : c.phase = .missed) (hgroup : s.group.lookup (a.key c.query) = some f) :
      CallerStep s (s.setCaller k c (.waiting f))
  | lead {s : State K P} {k : ℕ} {c : Caller P} (hk : s.callers[k]? = some c)
      (hphase : c.phase = .missed) (hgroup : s.group.lookup (a.key c.query) = none) :
      CallerStep s { s.setCaller k c (.waiting s.flights.length) with
        flights := s.flights ++ [{ query := c.query }]
        group := s.group.insert (a.key c.query) s.flights.length }
  | receive {s : State K P} {k f : ℕ} {c : Caller P} {fl : Flight P} {r : Record P} {o : Origin}
      {time : ℤ} (hk : s.callers[k]? = some c) (hphase : c.phase = .waiting f)
      (hf : s.flights[f]? = some fl) (hended : fl.phase = .ended (some (r, o)) time) :
      CallerStep s (s.setCaller k c (.answered (.record r o (some f))))
  /-- The type assertion on a value that is nil panics. -/
  | crash {s : State K P} {k f : ℕ} {c : Caller P} {fl : Flight P} {time : ℤ}
      (hk : s.callers[k]? = some c) (hphase : c.phase = .waiting f)
      (hf : s.flights[f]? = some fl) (hended : fl.phase = .ended none time) :
      CallerStep s (s.setCaller k c (.answered .panicked))
  | cancel {s : State K P} {k f : ℕ} {c : Caller P} (err : Error) (hk : s.callers[k]? = some c)
      (hphase : c.phase = .waiting f) :
      CallerStep s (s.setCaller k c (.answered (.context err)))

/-- A step of a flight. -/
inductive FlightStep : State K P → State K P → Prop
  | found {s : State K P} {f : ℕ} {fl : Flight P} {r : Record P} (hf : s.flights[f]? = some fl)
      (hphase : fl.phase = .entered) (hget : a.get s.cache s.now (a.key fl.query) = some r) :
      FlightStep s (s.setFlight f fl (.finished (some (r, .cached s.now))))
  | call {s : State K P} {f : ℕ} {fl : Flight P} (hf : s.flights[f]? = some fl)
      (hphase : fl.phase = .entered) (hget : a.get s.cache s.now (a.key fl.query) = none) :
      FlightStep s (s.setFlight f fl .calling)
  | complete {s : State K P} {f : ℕ} {fl : Flight P} (out : Outcome P)
      (hf : s.flights[f]? = some fl) (hphase : fl.phase = .calling) :
      FlightStep s (s.setFlight f { fl with completed := some (s.now, out) } (out.phase f))
  | settle {s : State K P} {f : ℕ} {fl : Flight P} {r : Record P} (hf : s.flights[f]? = some fl)
      (hphase : fl.phase = .returned r) :
      FlightStep s { s.setFlight f fl (.finished (some (r, .fetched))) with
        cache := if a.caches r then a.set s.cache s.now (a.key fl.query) r (a.ttl r)
          else s.cache }
  | finish {s : State K P} {f : ℕ} {fl : Flight P} {val : Option (Record P × Origin)}
      (hf : s.flights[f]? = some fl) (hphase : fl.phase = .finished val) :
      FlightStep s { s.setFlight f fl (.ended val s.now) with
        group := s.group.erase (a.key fl.query) }

/-- The authenticator. -/
def system (P : Type) : System (State K P) where
  init s := s = {}
  step s t := a.CallerStep s t ∨ a.FlightStep s t ∨ ∃ n : ℕ, t = { s with now := s.now + n }

end Steps

/-! ## Where the records are from -/

/-- A record of a call of the delegate may be found in the cache at a time: it was
    stored there not too long before. -/
def Reusable (r : Record P) (completed : ℤ) (out : Outcome P) (time : ℤ) : Prop :=
  ∃ stored, completed ≤ stored ∧ stored ≤ time ∧ time < stored + a.ttl r ∧
    a.caches r = true ∧ out.isReturned = true

/-- A record is one for a query. -/
def Valid (s : State K P) (q : Query) (r : Record P) (o : Origin) : Prop :=
  ∃ completed out, Produced s q r completed out ∧
    ∀ time, o = .cached time → a.Reusable r completed out time

/-- What holds of the entry for a key. -/
def EntryOk (s : State K P) (key : K) (e : Entry P) : Prop :=
  ∃ q completed out, a.key q = key ∧ Produced s q e.record completed out ∧
    out.isReturned = true ∧ a.caches e.record = true ∧ completed ≤ e.stored ∧
    e.stored ≤ s.now ∧ e.expiry = e.stored + a.ttl e.record

/-- What holds of a flight. -/
structure FlightOk (s : State K P) (f : ℕ) (fl : Flight P) : Prop where
  pending : fl.phase = .entered ∨ fl.phase = .calling → fl.completed = none
  returned : ∀ r, fl.phase = .returned r → r.source = f ∧ ∃ completed out,
    fl.completed = some (completed, out) ∧ out.record f = some r ∧ out.isReturned = true ∧
      completed ≤ s.now
  value : ∀ r o, fl.phase.val = some (r, o) →
    a.Valid s fl.query r o ∧ (o = .fetched → r.source = f)

/-- What holds of a caller. -/
structure CallerOk (s : State K P) (c : Caller P) : Prop where
  arrived : c.arrived ≤ s.now
  waiting : ∀ f, c.phase = .waiting f → ∃ fl, Joined s c f fl
  answered : ∀ r o via, c.phase = .answered (.record r o via) → a.Valid s c.query r o ∧
    (via = none → ∃ time, o = .cached time ∧ c.arrived ≤ time) ∧
    ∀ f, via = some f → (o = .fetched → r.source = f) ∧
      ∃ fl time, Joined s c f fl ∧ fl.phase = .ended (some (r, o)) time

variable {a} {s t : State K P}

variable {r : Record P}

theorem Valid.later {q : Query} {o : Origin} (h : a.Valid s q r o) (hl : Later s t) :
    a.Valid t q r o := by
  obtain ⟨completed, out, hproduced, hreusable⟩ := h
  exact ⟨completed, out, hl.produced hproduced, hreusable⟩

theorem EntryOk.later {key : K} {e : Entry P} (h : a.EntryOk s key e) (hl : Later s t) :
    a.EntryOk t key e := by
  obtain ⟨q, completed, out, hkey, hproduced, hreturned, hcaches, hcompleted, hstored, hexpiry⟩ := h
  exact ⟨q, completed, out, hkey, hl.produced hproduced, hreturned, hcaches, hcompleted,
    hstored.trans hl.now, hexpiry⟩

theorem FlightOk.later {f : ℕ} {fl : Flight P} (h : a.FlightOk s f fl) (hl : Later s t) :
    a.FlightOk t f fl := by
  refine ⟨h.pending, fun r hr => ?_, fun r o hval => ?_⟩
  · obtain ⟨hsource, completed, out, hcompleted, hrecord, hreturned, hle⟩ := h.returned r hr
    exact ⟨hsource, completed, out, hcompleted, hrecord, hreturned, hle.trans hl.now⟩
  · obtain ⟨hvalid, hsource⟩ := h.value r o hval
    exact ⟨hvalid.later hl, hsource⟩

/-- What holds of a caller goes on to hold. -/
theorem CallerOk.later {c : Caller P} (h : a.CallerOk s c) (hl : Later s t) :
    a.CallerOk t c := by
  refine ⟨h.arrived.trans hl.now, fun f hf => ?_, fun r o via hanswered => ?_⟩
  · obtain ⟨fl, hjoined⟩ := h.waiting f hf
    obtain ⟨fl', hjoined', -⟩ := hl.joined h.arrived hjoined
    exact ⟨fl', hjoined'⟩
  · obtain ⟨hvalid, hown, hvia⟩ := h.answered r o via hanswered
    refine ⟨hvalid.later hl, hown, fun f hf => ?_⟩
    obtain ⟨hsource, fl, time, hjoined, hphase⟩ := hvia f hf
    obtain ⟨fl', hjoined', hlater⟩ := hl.joined h.arrived hjoined
    exact ⟨hsource, fl', time, hjoined', hlater.ended _ _ hphase⟩

/-! ## What a step keeps -/

variable [DecidableEq K]

variable (a) in
/-- What holds of every reachable state. -/
structure Inv (s : State K P) : Prop where
  group : ∀ key f, s.group.lookup key = some f → ∃ fl : Flight P, s.flights[f]? = some fl ∧
    a.key fl.query = key ∧ ∀ val time, fl.phase ≠ .ended val time
  cache : ∀ key e, a.entry s.cache key = some e → a.EntryOk s key e
  flights : ∀ (f : ℕ) (fl : Flight P), s.flights[f]? = some fl → a.FlightOk s f fl
  callers : ∀ (k : ℕ) (c : Caller P), s.callers[k]? = some c → a.CallerOk s c

/-- What has not changed, a step keeps. -/
theorem Inv.of_later (h : a.Inv s) (hl : Later s t)
    (hgroup : ∀ key f, t.group.lookup key = some f → ∃ fl : Flight P, t.flights[f]? = some fl ∧
      a.key fl.query = key ∧ ∀ val time, fl.phase ≠ .ended val time)
    (hcache : ∀ key e, a.entry t.cache key = some e →
      a.entry s.cache key = some e ∨ a.EntryOk t key e)
    (hflights : ∀ (f : ℕ) (fl : Flight P), t.flights[f]? = some fl →
      s.flights[f]? = some fl ∨ a.FlightOk t f fl)
    (hcallers : ∀ (k : ℕ) (c : Caller P), t.callers[k]? = some c →
      s.callers[k]? = some c ∨ a.CallerOk t c) :
    a.Inv t where
  group := hgroup
  cache key e he := (hcache key e he).elim (fun he => (h.cache key e he).later hl) id
  flights f fl hf := (hflights f fl hf).elim (fun hf => (h.flights f fl hf).later hl) id
  callers k c hk := (hcallers k c hk).elim (fun hk => (h.callers k c hk).later hl) id

/-- A record that is found in the cache is one for the query with its key. -/
theorem Inv.valid_of_get (h : a.Inv s) {q : Query} (hget : a.get s.cache s.now (a.key q) = some r) :
    a.Valid s q r (.cached s.now) := by
  obtain ⟨e, he, hlt, rfl⟩ := a.get_eq_some hget
  obtain ⟨q', completed, out, hkey, hproduced, hreturned, hcaches, hcompleted, hstored, hexpiry⟩ :=
    h.cache _ _ he
  obtain rfl := a.key_injective hkey
  refine ⟨completed, out, hproduced, fun time htime => ?_⟩
  cases htime
  exact ⟨e.stored, hcompleted, hstored, hexpiry ▸ hlt, hcaches, hreturned⟩

/-- A caller is in another place, and nothing else has changed. -/
theorem Inv.setCaller (h : a.Inv s) {k : ℕ} {c : Caller P} {phase : CallerPhase P}
    (hok : a.CallerOk (s.setCaller k c phase) { c with phase }) :
    a.Inv (s.setCaller k c phase) := by
  have hl : Later s (s.setCaller k c phase) := .of_eq le_rfl rfl
  refine h.of_later hl h.group (fun _ _ he => .inl he) (fun _ _ hf => .inl hf) fun k' c' hk' => ?_
  rcases eq_or_of_getElem?_set hk' with ⟨-, rfl⟩ | ⟨-, hk'⟩
  · exact .inr hok
  · exact .inl hk'

/-- A flight has gone on, and may have left the group and stored its record. -/
theorem Inv.of_setFlight (h : a.Inv s) {f : ℕ} {fl fl' : Flight P}
    (hf : s.flights[f]? = some fl) (hlater : FlightLater s fl fl') (hnow : t.now = s.now)
    (hflights : t.flights = s.flights.set f fl') (hcallers : t.callers = s.callers)
    (hgroup : ∀ key g, t.group.lookup key = some g → s.group.lookup key = some g ∧
      (g = f → ∀ val time, fl'.phase ≠ .ended val time))
    (hcache : ∀ key e, a.entry t.cache key = some e →
      a.entry s.cache key = some e ∨ a.EntryOk t key e)
    (hok : a.FlightOk t f fl') : a.Inv t := by
  have hl : Later s t := .of_set hnow.ge hflights hf hlater
  refine h.of_later hl (fun key g hg => ?_) hcache (fun g fl₀ hg => ?_) fun k c hk => ?_
  · obtain ⟨hg, hne⟩ := hgroup key g hg
    obtain ⟨fl₀, hfl₀, hkey, hne₀⟩ := h.group key g hg
    rw [hflights]
    by_cases heq : g = f
    · subst heq
      obtain rfl : fl = fl₀ := Option.some.inj (hf.symm.trans hfl₀)
      exact ⟨fl', getElem?_set_of_some hf, by rw [hlater.query, hkey], hne rfl⟩
    · exact ⟨fl₀, (List.getElem?_set_ne (Ne.symm heq)).trans hfl₀, hkey, hne₀⟩
  · rw [hflights] at hg
    rcases eq_or_of_getElem?_set hg with ⟨rfl, rfl⟩ | ⟨-, hg⟩
    · exact .inr hok
    · exact .inl hg
  · exact .inl (by rwa [hcallers] at hk)

/-- A flight is in another place, from which it can still be joined, and nothing else has
    changed. -/
theorem Inv.setFlight (h : a.Inv s) {f : ℕ} {fl : Flight P} {phase : FlightPhase P}
    (hf : s.flights[f]? = some fl) (hrunning : ∀ val time, fl.phase ≠ .ended val time)
    (hne : ∀ val time, phase ≠ .ended val time)
    (hok : Later s (s.setFlight f fl phase) →
      a.FlightOk (s.setFlight f fl phase) f { fl with phase }) :
    a.Inv (s.setFlight f fl phase) := by
  have hlater : FlightLater s fl { fl with phase } :=
    .of_phase hrunning fun val time hended => absurd hended (hne val time)
  exact h.of_setFlight hf hlater rfl rfl rfl (fun _ _ hg => ⟨hg, fun _ => hne⟩)
    (fun _ _ he => .inl he) (hok (.of_set le_rfl rfl hf hlater))

/-- A caller that leads a flight is the first to wait for it. -/
theorem Inv.lead (h : a.Inv s) {k : ℕ} {c : Caller P} (hk : s.callers[k]? = some c) :
    a.Inv { s.setCaller k c (.waiting s.flights.length) with
      flights := s.flights ++ [{ query := c.query }]
      group := s.group.insert (a.key c.query) s.flights.length } := by
  have hl : Later s { s.setCaller k c (.waiting s.flights.length) with
      flights := s.flights ++ [{ query := c.query }]
      group := s.group.insert (a.key c.query) s.flights.length } :=
    ⟨le_rfl, fun f fl hf => ⟨fl, getElem?_concat_of_some hf, .refl s fl⟩⟩
  refine h.of_later hl (fun key f hf => ?_) (fun _ _ he => .inl he) (fun f fl hf => ?_)
    fun k' c' hk' => ?_
  · by_cases heq : key = a.key c.query
    · subst heq
      rw [AList.lookup_insert] at hf
      cases hf
      exact ⟨_, List.getElem?_concat_length, rfl, nofun⟩
    · rw [AList.lookup_insert_ne heq] at hf
      obtain ⟨fl, hfl, hkey, hne⟩ := h.group key f hf
      exact ⟨fl, getElem?_concat_of_some hfl, hkey, hne⟩
  · rcases eq_or_of_getElem?_concat hf with hf | ⟨-, rfl⟩
    · exact .inl hf
    · exact .inr ⟨fun _ => rfl, nofun, nofun⟩
  · rcases eq_or_of_getElem?_set hk' with ⟨-, rfl⟩ | ⟨-, hk'⟩
    · refine .inr ⟨(h.callers k c hk).arrived, fun f hf => ?_, nofun⟩
      cases hf
      exact ⟨_, List.getElem?_concat_length, rfl, nofun⟩
    · exact .inl hk'

/-- Callers keep the invariant. -/
theorem Inv.callerStep (h : a.Inv s) (hst : a.CallerStep s t) : a.Inv t := by
  cases hst with
  | arrive q =>
    refine h.of_later (.of_eq le_rfl rfl) h.group (fun _ _ he => .inl he) (fun _ _ hf => .inl hf)
      fun k c hk => ?_
    rcases eq_or_of_getElem?_concat hk with hk | ⟨-, rfl⟩
    · exact .inl hk
    · exact .inr ⟨le_rfl, nofun, nofun⟩
  | @hit k c r hk hphase hget =>
    have harrived := (h.callers k c hk).arrived
    refine h.setCaller ⟨harrived, nofun, fun r' o via hanswered => ?_⟩
    cases hanswered
    exact ⟨(h.valid_of_get hget).later (.of_eq le_rfl rfl), fun _ => ⟨s.now, rfl, harrived⟩, nofun⟩
  | miss hk => exact h.setCaller ⟨(h.callers _ _ hk).arrived, nofun, nofun⟩
  | @join k f c hk hphase hgroup =>
    -- The flight is in the group under the key of the caller, so it is for the same query.
    obtain ⟨fl, hf, hkey, hne⟩ := h.group _ _ hgroup
    refine h.setCaller ⟨(h.callers k c hk).arrived, fun f' hf' => ?_, nofun⟩
    cases hf'
    exact ⟨fl, hf, a.key_injective hkey, fun val time hended => absurd hended (hne val time)⟩
  | lead hk => exact h.lead hk
  | @receive k f c fl r o time hk hphase hf hended =>
    -- The caller gets what its flight has, which is for the query they share.
    obtain ⟨fl', hjoined⟩ := (h.callers k c hk).waiting f hphase
    obtain rfl : fl = fl' := Option.some.inj (hf.symm.trans hjoined.1)
    obtain ⟨hvalid, hsource⟩ := (h.flights f fl hf).value r o (by rw [hended]; rfl)
    rw [hjoined.2.1] at hvalid
    refine h.setCaller ⟨(h.callers k c hk).arrived, nofun, fun r' o' via hanswered => ?_⟩
    cases hanswered
    refine ⟨hvalid.later (.of_eq le_rfl rfl), nofun, fun f' hf' => ?_⟩
    cases hf'
    exact ⟨hsource, fl, time, hjoined, hended⟩
  | crash hk => exact h.setCaller ⟨(h.callers _ _ hk).arrived, nofun, nofun⟩
  | cancel err hk => exact h.setCaller ⟨(h.callers _ _ hk).arrived, nofun, nofun⟩

/-- A flight calls the delegate once, so that no earlier outcome is lost. -/
theorem Inv.complete (h : a.Inv s) {f : ℕ} {fl : Flight P} (out : Outcome P)
    (hf : s.flights[f]? = some fl) (hphase : fl.phase = .calling) :
    a.Inv (s.setFlight f { fl with completed := some (s.now, out) } (out.phase f)) := by
  have hnone := (h.flights f fl hf).pending (.inr hphase)
  have hlater : FlightLater s fl
      { fl with completed := some (s.now, out), phase := out.phase f } := by
    refine ⟨rfl, fun x hx => ?_, fun val time hended => ?_, fun val time hended => ?_⟩
    · rw [hnone] at hx
      cases hx
    · rw [hphase] at hended
      cases hended
    · cases out <;> cases hended
  refine h.of_setFlight hf hlater rfl rfl rfl (fun _ _ hg => ⟨hg, fun _ => ?_⟩)
    (fun _ _ he => .inl he) ⟨fun hpending => ?_, fun r hr => ?_, fun r o hval => ?_⟩
  · cases out <;> nofun
  · rcases hpending with hpending | hpending <;> cases out <;> cases hpending
  · obtain ⟨hrecord, hreturned⟩ := Outcome.of_phase_eq_returned hr
    exact ⟨Outcome.source_of_record hrecord, s.now, out, rfl, hrecord, hreturned, le_rfl⟩
  · obtain ⟨hrecord, rfl⟩ := Outcome.of_val_phase hval
    obtain rfl := Outcome.source_of_record hrecord
    exact ⟨⟨s.now, out, ⟨_, getElem?_set_of_some hf, rfl, rfl, hrecord⟩, nofun⟩, fun _ => rfl⟩

/-- The only step that changes the cache: its record was completed before now. -/
theorem Inv.settle (h : a.Inv s) {f : ℕ} {fl : Flight P} (hf : s.flights[f]? = some fl)
    (hphase : fl.phase = .returned r) :
    a.Inv { s.setFlight f fl (.finished (some (r, .fetched))) with
      cache := if a.caches r then a.set s.cache s.now (a.key fl.query) r (a.ttl r)
        else s.cache } := by
  obtain ⟨rfl, completed, out, hcompleted, hrecord, hreturned, hle⟩ :=
    (h.flights f fl hf).returned r hphase
  have hlater : FlightLater s fl { fl with phase := .finished (some (r, .fetched)) } :=
    .of_phase (by simp [hphase]) nofun
  refine h.of_setFlight hf hlater rfl rfl rfl (fun _ _ hg => ⟨hg, fun _ => nofun⟩)
    (fun key e he => ?_) ⟨nofun, nofun, fun r' o hval => ?_⟩
  · dsimp only at he
    split_ifs at he with hcaches
    · rw [entry_set] at he
      split_ifs at he with hkey
      · cases he
        exact .inr ⟨fl.query, completed, out, hkey.symm,
          ⟨_, getElem?_set_of_some hf, rfl, hcompleted, hrecord⟩, hreturned, hcaches, hle, le_rfl,
          rfl⟩
      · exact .inl he
    · exact .inl he
  · cases hval
    exact ⟨⟨completed, out, ⟨_, getElem?_set_of_some hf, rfl, hcompleted, hrecord⟩, nofun⟩,
      fun _ => rfl⟩

/-- A flight that ends leaves the group. -/
theorem Inv.finish (h : a.Inv s) {f : ℕ} {fl : Flight P} {val : Option (Record P × Origin)}
    (hf : s.flights[f]? = some fl) (hphase : fl.phase = .finished val) :
    a.Inv { s.setFlight f fl (.ended val s.now) with
      group := s.group.erase (a.key fl.query) } := by
  have hlater : FlightLater s fl { fl with phase := .ended val s.now } :=
    .of_phase (by simp [hphase]) fun _ _ hended => by cases hended; exact le_rfl
  refine h.of_setFlight hf hlater rfl rfl rfl (fun key g hg => ?_) (fun _ _ he => .inl he)
    ⟨nofun, nofun, fun r o hval => ?_⟩
  · have hne : key ≠ a.key fl.query := by
      rintro rfl
      rw [AList.lookup_erase] at hg
      cases hg
    rw [AList.lookup_erase_ne hne] at hg
    refine ⟨hg, ?_⟩
    -- A flight is in the group under its own key only.
    rintro rfl
    obtain ⟨fl₀, hfl₀, hkey, -⟩ := h.group key g hg
    obtain rfl : fl = fl₀ := Option.some.inj (hf.symm.trans hfl₀)
    exact absurd hkey.symm hne
  · obtain ⟨hvalid, hsource⟩ := (h.flights f fl hf).value r o (by rw [hphase]; exact hval)
    exact ⟨hvalid.later (.of_set le_rfl rfl hf hlater), hsource⟩

/-- Flights keep the invariant. -/
theorem Inv.flightStep (h : a.Inv s) (hst : a.FlightStep s t) : a.Inv t := by
  cases hst with
  | @found f fl r hf hphase hget =>
    refine h.setFlight hf (by simp [hphase]) nofun fun hl => ⟨nofun, nofun, fun r' o hval => ?_⟩
    cases hval
    exact ⟨(h.valid_of_get hget).later hl, nofun⟩
  | @call f fl hf hphase hget =>
    have hnone := (h.flights f fl hf).pending (.inl hphase)
    exact h.setFlight hf (by simp [hphase]) nofun fun _ => ⟨fun _ => hnone, nofun, nofun⟩
  | complete out hf hphase => exact h.complete out hf hphase
  | settle hf hphase => exact h.settle hf hphase
  | finish hf hphase => exact h.finish hf hphase

variable (a) in
theorem inv_invariant : (a.system P).Invariant a.Inv where
  init := by
    rintro s rfl
    exact ⟨by simp, by simp [entry], by simp, by simp⟩
  step s t h hst := by
    rcases hst with hst | hst | ⟨n, rfl⟩
    · exact h.callerStep hst
    · exact h.flightStep hst
    · have hle : s.now ≤ s.now + n := Int.le_add_of_nonneg_right (Int.natCast_nonneg n)
      exact h.of_later (.of_eq hle rfl) h.group (fun _ _ he => .inl he) (fun _ _ hf => .inl hf)
        fun _ _ hk => .inl hk

/-! ## What a caller gets -/

/-- A flight for what the caller asks for has given it the record, and had not ended
    when the caller came. -/
def GivenBy (s : State K P) (c : Caller P) (r : Record P) (o : Origin) (f : ℕ) : Prop :=
  ∃ fl time, s.flights[f]? = some fl ∧ fl.query = c.query ∧
    fl.phase = .ended (some (r, o)) time ∧ c.arrived ≤ time

variable (a) in
/-- The record is from a call of the delegate for what the caller asks for. Either it
    was given to the caller by the flight that made the call, or it was found in the
    cache, by the caller or by the flight it joined, where it may be used then. In
    the cache are no errors, unless they are to be, and none from a panic. -/
def Own (s : State K P) (c : Caller P) (r : Record P) (o : Origin) : Prop :=
  ∃ completed out, Produced s c.query r completed out ∧
    (o = .fetched → GivenBy s c r o r.source) ∧
    (∀ time, o = .cached time →
      (∃ stored, completed ≤ stored ∧ stored ≤ time ∧ time < stored + a.ttl r) ∧
      (c.arrived ≤ time ∨ ∃ f, GivenBy s c r o f) ∧
      0 < a.ttl r ∧ (r.err ≠ none → a.cacheErrs = true)) ∧
    (out.isReturned = false → o = .fetched ∧
      (Answer.record r o none).result = some (none, false, some errAuthnCrash))

omit [DecidableEq K] in
theorem caches_iff :
    a.caches r = true ↔ (r.err ≠ none → a.cacheErrs = true) ∧ 0 < a.ttl r := by
  rw [caches]
  cases a.cacheErrs <;> cases r.err <;> simp

/-- Every answer but the error of its own context is the caller's own. -/
theorem answers_own (h : (a.system P).Reachable s) {c : Caller P} {r : Record P} {o : Origin}
    {via : Option ℕ} (hc : c ∈ s.callers) (hanswered : c.phase = .answered (.record r o via)) :
    a.Own s c r o := by
  obtain ⟨k, hk⟩ := List.mem_iff_getElem?.1 hc
  have hinv : a.Inv s := (inv_invariant a).reachable h
  have hok := hinv.callers k c hk
  obtain ⟨⟨completed, out, hproduced, hreusable⟩, hown, hvia⟩ := hok.answered r o via hanswered
  have hgiven {f : ℕ} (hf : via = some f) : GivenBy s c r o f := by
    obtain ⟨-, fl, time, ⟨hfl, hquery, harrived⟩, hended⟩ := hvia f hf
    exact ⟨fl, time, hfl, hquery, hended, harrived _ _ hended⟩
  refine ⟨completed, out, hproduced, fun ho => ?_, fun time ho => ?_, fun hpanicked => ?_⟩
  · cases via with
    | none =>
      -- Without a flight, all a caller can have is from the cache.
      obtain ⟨time, hcached, -⟩ := hown rfl
      rw [ho] at hcached
      cases hcached
    | some f =>
      rw [(hvia f rfl).1 ho]
      exact hgiven rfl
  · obtain ⟨stored, hcompleted, hstored, hlt, hcaches, -⟩ := hreusable time ho
    obtain ⟨herr, hpos⟩ := caches_iff.1 hcaches
    refine ⟨⟨stored, hcompleted, hstored, hlt⟩, ?_, hpos, herr⟩
    cases via with
    | none =>
      obtain ⟨time', hcached, harrived⟩ := hown rfl
      obtain rfl : time = time' := Origin.cached.inj (ho.symm.trans hcached)
      exact .inl harrived
    | some f => exact .inr ⟨f, hgiven rfl⟩
  · obtain ⟨call, -, -, -, hrecord⟩ := hproduced
    cases o with
    | fetched =>
      refine ⟨rfl, ?_⟩
      rcases out with _ | _ | _
      · cases hpanicked
      · rw [← Option.some.inj hrecord]
        rfl
      · cases hrecord
    | cached time =>
      -- What is in the cache was returned by the delegate.
      obtain ⟨-, -, -, -, -, hreturned⟩ := hreusable time rfl
      rw [hpanicked] at hreturned
      cases hreturned

/-! ## A flight that takes its time -/

variable (a) in
/-- What callers get is from a call of the delegate that had not ended when they came,
    or not longer before than the record may be used. -/
def FreshOnArrival (s : State K P) : Prop :=
  ∀ c ∈ s.callers, ∀ r o via, c.phase = .answered (.record r o via) →
    ∀ completed out, Produced s c.query r completed out →
      c.arrived ≤ completed ∨ c.arrived ≤ completed + a.ttl r

/-- An authenticator that does not use its cache. -/
def exampleAuthenticator : Authenticator Bytes where
  successTTL := 0
  failureTTL := 0
  hmac := id
  hmac_injective := Function.injective_id
  hashFunc := List.length

def exampleQuery : Query where
  token := [97, 98, 99]
  length_token := by decide
  length_auds := by decide
  length_aud := by simp

/-- The record of the flight with the first caller. -/
def exampleRecord : Record String := { resp := some "alice", ok := true, source := 0 }

/-- A hundred seconds after the delegate has returned to the flight of a caller. -/
def returnedState : State Bytes String where
  now := 100
  group := AList.insert (exampleAuthenticator.key exampleQuery) 0 ∅
  flights :=
    [{ query := exampleQuery
       completed := some (0, .returned (some "alice") true none [])
       phase := .returned exampleRecord }]
  callers := [{ query := exampleQuery, arrived := 0, phase := .waiting 0 }]

/-- A caller that comes then, -/
def secondCaller : Caller String where
  query := exampleQuery
  arrived := 100
  phase := .answered (.record exampleRecord .fetched (some 0))

/-- and has joined the flight. -/
def exampleState : State Bytes String where
  now := 100
  group := returnedState.group.erase (exampleAuthenticator.key exampleQuery)
  flights :=
    [{ query := exampleQuery
       completed := some (0, .returned (some "alice") true none [])
       phase := .ended (some (exampleRecord, .fetched)) 100 }]
  callers := [{ query := exampleQuery, arrived := 0, phase := .waiting 0 }, secondCaller]

theorem returnedState_reachable :
    (exampleAuthenticator.system String).Reachable returnedState := by
  have h₀ : (exampleAuthenticator.system String).Reachable {} := .of_init rfl
  have h₁ := h₀.step (.inl (.arrive exampleQuery))
  have h₂ := h₁.step (.inl (.miss (k := 0) rfl rfl rfl))
  have h₃ := h₂.step (.inl (.lead (k := 0) rfl rfl rfl))
  have h₄ := h₃.step (.inr (.inl (.call (f := 0) rfl rfl rfl)))
  have h₅ := h₄.step (.inr (.inl (.complete (f := 0) (.returned (some "alice") true none [])
    rfl rfl)))
  exact h₅.step (.inr (.inr ⟨100, rfl⟩))

theorem exampleState_reachable :
    (exampleAuthenticator.system String).Reachable exampleState := by
  have h₁ := returnedState_reachable.step (.inl (.arrive exampleQuery))
  have h₂ := h₁.step (.inl (.miss (k := 1) rfl rfl rfl))
  have h₃ := h₂.step (.inl (.join (k := 1) (f := 0) rfl rfl rfl))
  have h₄ := h₃.step (.inr (.inl (.settle (f := 0) rfl rfl)))
  have h₅ := h₄.step (.inr (.inl (.finish (f := 0) rfl rfl)))
  have h₆ := h₅.step (.inl (.receive (k := 1) (f := 0) rfl rfl rfl rfl))
  exact h₆

theorem secondCaller_own :
    (exampleAuthenticator.system String).Reachable exampleState ∧
      exampleAuthenticator.Own exampleState secondCaller exampleRecord .fetched :=
  ⟨exampleState_reachable, answers_own exampleState_reachable (List.mem_cons_of_mem _
    List.mem_cons_self) rfl⟩

/-- Although no record is ever to be used again, the second caller gets one that is
    a hundred seconds old. -/
theorem stale_reachable :
    (exampleAuthenticator.system String).Reachable exampleState ∧
      ¬ exampleAuthenticator.FreshOnArrival exampleState := by
  refine ⟨exampleState_reachable, fun hfresh => ?_⟩
  have hproduced : Produced exampleState exampleQuery exampleRecord 0
      (.returned (some "alice") true none []) := ⟨_, rfl, rfl, rfl, rfl⟩
  have hold := hfresh secondCaller (List.mem_cons_of_mem _ List.mem_cons_self) _ _ _ rfl _ _
    hproduced
  exact absurd hold (by decide)

end Authenticator

end Apiserver.Authentication.TokenCache
