import Apiserver.Sessions.Orm

/-!
# The session of a request

A handler finds a session in the context of its request (`pkg/sessions`). It is loaded when
it is first used, is changed in memory, and is saved if something was changed since it was
saved last. Whether a save inserts a row or updates it depends on whether the session is
new, which is decided when it is loaded: a new session is still new once it is saved.

* `State.step`, `State.run`: the calls of a handler, with the table and the cookies that
  are set;
* `writes`: the ids and the values that are written;
* `Inv.run`: the row of the last write has its values, the last cookie is that of a write,
  and no other row is touched;
* `oneRow_iff`: the session has one row exactly if it is not new before any write but the
  first.
-/

namespace Apiserver.Sessions

variable {κ α : Type}

/-- A call on a session. -/
inductive Op (κ α : Type)
  | set (key : κ) (val : α)
  | delete (key : κ)
  | clear
  /-- `AddFlash` and `Flashes`, which are those of gorilla. -/
  | flash (f : SessionValues κ α → SessionValues κ α)
  | options (options : Options)
  /-- `Save`, with the random id for a new session. -/
  | save (newID : String)

/-- `session`, with its request and its response, and the table. -/
structure State (κ α : Type) where
  name : String
  /-- The value of the cookie in the request. -/
  cookie : Option String := none
  session : Option (GSession κ α) := none
  written : Bool := false
  /-- The cookies that are set in the response. -/
  cookies : List Cookie := []
  table : Table

namespace State

variable (st : Store κ α) (now : ℤ)

/-- `Session`. -/
def gsession (σ : State κ α) : GSession κ α :=
  σ.session.getD (st.new σ.table now σ.cookie σ.name).1

/-- A change to the session, which has to be saved. -/
def modify (f : GSession κ α → GSession κ α) (σ : State κ α) : State κ α :=
  { σ with session := some (f (σ.gsession st now)), written := true }

variable [DecidableEq κ]

/-- `Set`. -/
def set (key : κ) (val : α) : State κ α → State κ α :=
  modify st now fun g => { g with values := g.values.insert key val }

/-- `Delete`. -/
def delete (key : κ) : State κ α → State κ α :=
  modify st now fun g => { g with values := g.values.erase key }

/-- `Clear`. -/
def clear (σ : State κ α) : State κ α :=
  let g := σ.gsession st now
  g.values.keys.foldl (fun σ key => σ.delete st now key) { σ with session := some g }

/-- `Save`. -/
def save (newID : String) (σ : State κ α) : Option Error × State κ α :=
  if σ.written then
    let saved := st.save σ.table now newID (σ.gsession st now)
    (saved.err, { σ with
      session := some saved.session
      written := saved.err.isSome
      cookies := σ.cookies ++ saved.cookie.toList
      table := saved.table })
  else (none, σ)

/-- A call. -/
def step (σ : State κ α) : Op κ α → State κ α
  | .set key val => σ.set st now key val
  | .delete key => σ.delete st now key
  | .clear => σ.clear st now
  | .flash f => σ.modify st now fun g => { g with values := f g.values }
  | .options options => σ.modify st now fun g => { g with options }
  | .save newID => (σ.save st now newID).2

/-- Some calls, at their times. -/
def run (σ : State κ α) (calls : List (ℤ × Op κ α)) : State κ α :=
  calls.foldl (fun σ call => σ.step st call.1 call.2) σ

/-- The calls of `WithUser`. -/
def withUser (key : κ) (u : α) (newID : String) : List (ℤ × Op κ α) :=
  [(now, .set key u), (now, .save newID)]

end State

/-! ## What is written -/

section Writes

variable [DecidableEq κ]

/-- What a call writes. -/
def wrote (st : Store κ α) (now : ℤ) (σ : State κ α) : Op κ α → List (String × SessionValues κ α)
  | .save newID =>
    if σ.written then (st.wrote σ.table now newID (σ.gsession st now)).toList else []
  | _ => []

/-- What some calls write. -/
def writes (st : Store κ α) : State κ α → List (ℤ × Op κ α) → List (String × SessionValues κ α)
  | _, [] => []
  | σ, (now, op) :: calls => wrote st now σ op ++ writes st (σ.step st now op) calls

/-- The call with an index, at a time, writes a row, as can be told from the state before it. -/
def WritesAt (st : Store κ α) (σ : State κ α) (calls : List (ℤ × Op κ α)) (i : ℕ) (now : ℤ) :
    Prop :=
  ∃ op, calls[i]? = some (now, op) ∧ wrote st now (σ.run st (calls.take i)) op ≠ []

/-- Whether a session is saved with a `MaxAge` that is not negative. -/
def AgeNonneg (st : Store κ α) (now : ℤ) (σ : State κ α) : Op κ α → Prop
  | .save _ => 0 ≤ (σ.gsession st now).options.maxAge.toInt
  | _ => True

/-- Whether it always is. -/
def AgesNonneg (st : Store κ α) : State κ α → List (ℤ × Op κ α) → Prop
  | _, [] => True
  | σ, (now, op) :: calls => AgeNonneg st now σ op ∧ AgesNonneg st (σ.step st now op) calls

/-- A session has one row once the calls were made: every write is to its id, no other row
    is touched, the row has the last values, and the last cookie is that of the row. -/
structure OneRow (st : Store κ α) (σ : State κ α) (calls : List (ℤ × Op κ α)) (id : String) :
    Prop where
  same : ∀ w ∈ writes st σ calls, w.1 = id
  frame : ∀ id', id' ≠ id → (σ.run st calls).table.lookup id' = σ.table.lookup id'
  last : ∀ w ∈ (writes st σ calls).getLast?, ∃ row, (σ.run st calls).table.lookup id = some row ∧
    st.codecs.decodeValues σ.name row.data = .ok w.2
  cookie : ∀ c ∈ (σ.run st calls).cookies.getLast?, st.codecs.decodeID σ.name c.value = .ok id

end Writes

/-! ## One call -/

/-- The session is of the request, and it has a row if it is not new. -/
structure Valid (name : String) (table : Table) (g : GSession κ α) : Prop where
  name : g.name = name
  row : g.isNew = false → g.id ∈ table

section Step

variable {st : Store κ α} {now : ℤ} {σ : State κ α}

/-- A session that is loaded has a row. -/
theorem valid_new (table : Table) (cookie : Option String) (name : String) :
    Valid name table (st.new table now cookie name).1 := by
  have hnew : ∀ {g : GSession κ α}, g.name = name → g.isNew = true → Valid name table g :=
    fun hname hnew => ⟨hname, fun h => absurd (hnew.symm.trans h) (by simp)⟩
  cases cookie with
  | none => exact hnew rfl rfl
  | some value =>
    simp only [Store.new]
    cases st.codecs.decodeID name value with
    | error err => exact hnew rfl rfl
    | ok id =>
      dsimp only
      cases hload : st.load table now { name, id, options := st.options, isNew := true } with
      | error err => exact hnew rfl rfl
      | ok g =>
        obtain ⟨row, values, hrow, _, _, rfl⟩ := Store.load_eq_ok_iff.1 hload
        exact ⟨rfl, fun _ => AList.lookup_isSome.1 (by rw [hrow]; rfl)⟩

/-- The session of the request is valid, whether it is loaded now or was before. -/
theorem valid_gsession (h : ∀ g ∈ σ.session, Valid σ.name σ.table g) :
    Valid σ.name σ.table (σ.gsession st now) := by
  rw [State.gsession]
  cases hs : σ.session with
  | none => exact valid_new σ.table σ.cookie σ.name
  | some g => exact h g hs

/-- Two sessions of gorilla are saved to the same row. -/
structure SameRow (g g' : GSession κ α) : Prop where
  name : g'.name = g.name
  isNew : g'.isNew = g.isNew
  id : g.isNew = false → g'.id = g.id

/-- A call that writes nothing: it changes the session in memory. -/
structure Quiet (st : Store κ α) (now : ℤ) (σ σ' : State κ α) : Prop where
  name : σ'.name = σ.name
  table : σ'.table = σ.table
  cookies : σ'.cookies = σ.cookies
  session : ∃ g', σ'.session = some g' ∧ SameRow (σ.gsession st now) g'

/-- A call that writes the row of the session `g`. The cookie may fail. -/
structure Saves (st : Store κ α) (now : ℤ) (newID : String) (g : GSession κ α)
    (σ σ' : State κ α) : Prop where
  name : σ'.name = σ.name
  session : σ'.session = some { g with id := Store.savedID newID g }
  row : ∃ data, st.codecs.encodeValues g.name g.values = .ok data ∧
    Store.Writes σ.table now newID g data σ'.table
  cookies : σ'.cookies = σ.cookies ∨ ∃ c, σ'.cookies = σ.cookies ++ [c] ∧
    st.codecs.encodeID g.name (Store.savedID newID g) = .ok c.value

/-- Changing the values writes no row. -/
theorem Quiet.modify {σ' : State κ α} (h : Quiet st now σ σ') {f : GSession κ α → GSession κ α}
    (hf : ∀ g, SameRow g (f g)) : Quiet st now σ (σ'.modify st now f) := by
  obtain ⟨g', hs, hsame⟩ := h.session
  have hg : σ'.gsession st now = g' := by rw [State.gsession, hs]; rfl
  have hf' := hf g'
  refine ⟨h.name, h.table, h.cookies, f g', by rw [State.modify, hg], ?_⟩
  exact ⟨hf'.name.trans hsame.name, hf'.isNew.trans hsame.isNew,
    fun hnew => (hf'.id (hsame.isNew.trans hnew)).trans (hsame.id hnew)⟩

variable [DecidableEq κ]

theorem quiet_clear : Quiet st now σ (σ.clear st now) := by
  have hfold : ∀ (keys : List κ) {σ' : State κ α}, Quiet st now σ σ' →
      Quiet st now σ (keys.foldl (fun σ key => σ.delete st now key) σ') := by
    intro keys
    induction keys with
    | nil => exact fun h => h
    | cons key keys ih => exact fun h => ih (h.modify fun g => ⟨rfl, rfl, fun _ => rfl⟩)
  exact hfold _ ⟨rfl, rfl, rfl, _, rfl, rfl, rfl, fun _ => rfl⟩

/-- What a call does: nothing, a change in memory, or a write. -/
theorem step_cases {op : Op κ α} (hvalid : Valid σ.name σ.table (σ.gsession st now))
    (hage : AgeNonneg st now σ op) :
    wrote st now σ op = [] ∧ (σ.step st now op = σ ∨ Quiet st now σ (σ.step st now op)) ∨
      ∃ newID, wrote st now σ op =
          [(Store.savedID newID (σ.gsession st now), (σ.gsession st now).values)] ∧
        Saves st now newID (σ.gsession st now) σ (σ.step st now op) := by
  cases op with
  | set key val => exact .inl ⟨rfl, .inr ⟨rfl, rfl, rfl, _, rfl, rfl, rfl, fun _ => rfl⟩⟩
  | delete key => exact .inl ⟨rfl, .inr ⟨rfl, rfl, rfl, _, rfl, rfl, rfl, fun _ => rfl⟩⟩
  | clear => exact .inl ⟨rfl, .inr quiet_clear⟩
  | flash f => exact .inl ⟨rfl, .inr ⟨rfl, rfl, rfl, _, rfl, rfl, rfl, fun _ => rfl⟩⟩
  | options options => exact .inl ⟨rfl, .inr ⟨rfl, rfl, rfl, _, rfl, rfl, rfl, fun _ => rfl⟩⟩
  | save newID =>
    simp only [wrote, State.step, State.save]
    by_cases hw : σ.written = true
    · simp only [if_pos hw]
      rcases st.save_cases σ.table now newID hage with ⟨hnone, err, id, hid, hsave⟩ |
        ⟨data, table', hdata, hsome, hrow | ⟨rfl, hold, hmissing⟩, hcookie⟩
      · refine .inl ⟨by rw [hnone]; rfl, .inr ?_⟩
        rw [hsave]
        exact ⟨rfl, rfl, List.append_nil _, _, rfl, rfl, rfl, hid⟩
      · refine .inr ⟨newID, by rw [hsome]; rfl, ?_⟩
        rcases hcookie with ⟨err, hsave⟩ | ⟨value, hvalue, hsave⟩
        · rw [hsave]
          exact ⟨rfl, rfl, ⟨data, hdata, hrow⟩, .inl (List.append_nil _)⟩
        · rw [hsave]
          exact ⟨rfl, rfl, ⟨data, hdata, hrow⟩, .inr ⟨_, rfl, hvalue⟩⟩
      · -- A session that is not new has a row.
        exact absurd (hvalid.row hold) hmissing
    · simp only [if_neg hw]
      exact .inl ⟨trivial, .inl trivial⟩

end Step

/-! ## All calls -/

/-- What holds of a session after some calls, which wrote `ws`. -/
structure Inv (st : Store κ α) (start : State κ α) (ws : List (String × SessionValues κ α))
    (σ : State κ α) : Prop where
  name : σ.name = start.name
  valid : ∀ g ∈ σ.session, Valid σ.name σ.table g
  opened : σ.session = none → ws = []
  /-- A new session gets an id with every write. -/
  new : ∀ g ∈ σ.session, g.isNew = true → (ws.map Prod.fst).Nodup
  old : ∀ g ∈ σ.session, g.isNew = false → ∀ w ∈ ws, w.1 = g.id
  /-- No row is deleted, -/
  mem : ∀ w ∈ ws, w.1 ∈ σ.table
  /-- the last one has the last values, -/
  last : ∀ w ∈ ws.getLast?, ∃ row, σ.table.lookup w.1 = some row ∧
    st.codecs.decodeValues σ.name row.data = .ok w.2
  cookie : ∀ c ∈ σ.cookies.getLast?, ∃ w ∈ ws, st.codecs.decodeID σ.name c.value = .ok w.1
  /-- and the rows of others are as they were. -/
  frame : ∀ id, (∀ w ∈ ws, w.1 ≠ id) → σ.table.lookup id = start.table.lookup id

namespace Inv

variable {st : Store κ α} {start σ σ' : State κ α} {ws : List (String × SessionValues κ α)}
  {now : ℤ}

theorem new_gsession (h : Inv st start ws σ) (hnew : (σ.gsession st now).isNew = true) :
    (ws.map Prod.fst).Nodup := by
  cases hs : σ.session with
  | none =>
    rw [h.opened hs]
    exact List.nodup_nil
  | some g =>
    rw [State.gsession, hs] at hnew
    exact h.new g hs hnew

theorem old_gsession (h : Inv st start ws σ) (hold : (σ.gsession st now).isNew = false) :
    ∀ w ∈ ws, w.1 = (σ.gsession st now).id := by
  cases hs : σ.session with
  | none =>
    rw [h.opened hs]
    exact fun w hw => absurd hw List.not_mem_nil
  | some g =>
    rw [State.gsession, hs] at hold ⊢
    exact h.old g hs hold

variable {g : GSession κ α}

/-- What holds of the session that is there. -/
theorem forall_session (h : σ.session = some g) {P : GSession κ α → Prop} (hP : P g) :
    ∀ g' ∈ σ.session, P g' := by
  intro g' hg'
  rw [h] at hg'
  cases hg'
  exact hP

/-- Calls that write no row keep the invariant. -/
theorem quiet (h : Inv st start ws σ) (hq : Quiet st now σ σ') : Inv st start ws σ' := by
  obtain ⟨g', hs, hsame⟩ := hq.session
  have hvalid : Valid σ.name σ.table (σ.gsession st now) := valid_gsession h.valid
  refine ⟨hq.name.trans h.name, forall_session hs ?_, fun hnone => ?_, forall_session hs ?_,
    forall_session hs ?_, ?_, ?_, ?_, ?_⟩
  · rw [hq.name, hq.table]
    refine ⟨hsame.name.trans hvalid.name, fun hold => ?_⟩
    have hold' := hsame.isNew.symm.trans hold
    rw [hsame.id hold']
    exact hvalid.row hold'
  · rw [hs] at hnone
    cases hnone
  · exact fun hnew => h.new_gsession (hsame.isNew.symm.trans hnew)
  · intro hold
    have hold' := hsame.isNew.symm.trans hold
    rw [hsame.id hold']
    exact h.old_gsession hold'
  · rw [hq.table]
    exact h.mem
  · rw [hq.table, hq.name]
    exact h.last
  · rw [hq.cookies, hq.name]
    exact h.cookie
  · rw [hq.table]
    exact h.frame

/-- The id that a new session is saved under has no row, and the ids before it have. -/
theorem nodup_saved (h : Inv st start ws σ) {newID : String} (hg : σ.gsession st now = g)
    (hs : Saves st now newID g σ σ') (hnew : g.isNew = true) :
    ((ws ++ [(Store.savedID newID g, g.values)]).map Prod.fst).Nodup := by
  obtain ⟨-, -, ⟨data, -, hrow, -⟩, -⟩ := hs
  have hid : Store.savedID newID g = newID := if_pos hnew
  have hfresh : newID ∉ σ.table := by
    rcases hrow with ⟨_, hfresh⟩ | ⟨hold, _⟩
    · exact hfresh
    · exact absurd (hnew.symm.trans hold) (by simp)
  have hnodup : (ws.map Prod.fst).Nodup := h.new_gsession (hg ▸ hnew)
  rw [List.map_append]
  refine hnodup.append (List.nodup_singleton _) fun id hmem hmem' => ?_
  obtain ⟨w, hw, rfl⟩ := List.mem_map.1 hmem
  rw [List.map_singleton, List.mem_singleton, hid] at hmem'
  have hmem'' := h.mem w hw
  rw [hmem'] at hmem''
  exact hfresh hmem''

/-- The last cookie is for a row that was written, be it the last one or not. -/
theorem cookie_saved (h : Inv st start ws σ) {newID : String} (hname : g.name = σ.name)
    (hs : Saves st now newID g σ σ') :
    ∀ c ∈ σ'.cookies.getLast?, ∃ w ∈ ws ++ [(Store.savedID newID g, g.values)],
      st.codecs.decodeID σ.name c.value = .ok w.1 := by
  rcases hs.cookies with hcookies | ⟨c, hcookies, hvalue⟩
  · rw [hcookies]
    intro c hc
    obtain ⟨w, hw, hdecode⟩ := h.cookie c hc
    exact ⟨w, List.mem_append_left _ hw, hdecode⟩
  · rw [hcookies, List.getLast?_concat]
    rintro c' ⟨⟩
    refine ⟨_, List.mem_append_right _ (List.mem_singleton_self _), ?_⟩
    rw [← hname]
    exact st.codecs.decodeID_encodeID _ _ _ hvalue

/-- A save that writes a row adds its write. -/
theorem saves (h : Inv st start ws σ) {newID : String} (hg : σ.gsession st now = g)
    (hs : Saves st now newID g σ σ') :
    Inv st start (ws ++ [(Store.savedID newID g, g.values)]) σ' := by
  have hvalid : Valid σ.name σ.table g := hg ▸ valid_gsession h.valid
  have hnodup := h.nodup_saved hg hs
  have hcookie := h.cookie_saved hvalid.name hs
  obtain ⟨hname, hsession, ⟨data, hdata, -, row, htable, rfl, _⟩, -⟩ := hs
  have hws : ∀ {P : String → Prop}, (∀ w ∈ ws, P w.1) → P (Store.savedID newID g) →
      ∀ w ∈ ws ++ [(Store.savedID newID g, g.values)], P w.1 := by
    intro P hws hP w hw
    rcases List.mem_append.1 hw with hw | hw
    · exact hws w hw
    · rw [List.mem_singleton.1 hw]
      exact hP
  refine ⟨hname.trans h.name, forall_session hsession ?_, ?_, forall_session hsession hnodup,
    forall_session hsession ?_, hws ?_ ?_, ?_, by rwa [hname], ?_⟩
  · rw [hname, htable]
    exact ⟨hvalid.name, fun _ => (AList.mem_insert _).2 (.inl rfl)⟩
  · rw [hsession]
    intro hnone
    cases hnone
  · intro hold
    -- A session that is not new keeps its ID, the one of every write before.
    have hid : Store.savedID newID g = g.id := if_neg (by rw [hold]; simp)
    have hids : ∀ w ∈ ws, w.1 = g.id := hg ▸ h.old_gsession (hg ▸ hold)
    rw [← hid] at hids
    exact hws (P := fun id => id = Store.savedID newID g) hids rfl
  · intro w hw
    rw [htable]
    exact (AList.mem_insert _).2 (.inr (h.mem w hw))
  · rw [htable]
    exact (AList.mem_insert _).2 (.inl rfl)
  · rw [List.getLast?_concat, hname, htable]
    rintro w ⟨⟩
    refine ⟨row, AList.lookup_insert _, ?_⟩
    rw [← hvalid.name]
    exact st.codecs.decodeValues_encodeValues _ _ _ hdata
  · intro id hne
    have hlast := hne _ (List.mem_append_right _ (List.mem_singleton_self _))
    rw [htable, AList.lookup_insert_ne hlast.symm]
    exact h.frame id fun w hw => hne w (List.mem_append_left _ hw)

theorem step [DecidableEq κ] (h : Inv st start ws σ) {op : Op κ α} (hage : AgeNonneg st now σ op) :
    Inv st start (ws ++ wrote st now σ op) (σ.step st now op) := by
  rcases step_cases (valid_gsession h.valid) hage with
    ⟨hwrote, heq | hquiet⟩ | ⟨newID, hwrote, hsaves⟩
  · rwa [hwrote, List.append_nil, heq]
  · rw [hwrote, List.append_nil]
    exact h.quiet hquiet
  · rw [hwrote]
    exact h.saves rfl hsaves

theorem run [DecidableEq κ] {calls : List (ℤ × Op κ α)} (h : Inv st start ws σ)
    (hages : AgesNonneg st σ calls) : Inv st start (ws ++ writes st σ calls) (σ.run st calls) := by
  induction calls generalizing ws σ with
  | nil => rwa [writes, List.append_nil]
  | cons call calls ih =>
    rw [writes, ← List.append_assoc]
    exact ih (h.step hages.1) hages.2

/-- It holds before the first call. -/
theorem init (hvalid : ∀ g ∈ start.session, Valid start.name start.table g)
    (hcookies : start.cookies = []) : Inv st start [] start where
  name := rfl
  valid := hvalid
  opened _ := rfl
  new _ _ _ := List.nodup_nil
  old _ _ _ _ hw := absurd hw List.not_mem_nil
  mem _ hw := absurd hw List.not_mem_nil
  last _ hw := absurd hw (by simp)
  cookie c hc := absurd hc (by simp [hcookies])
  frame _ _ := rfl

end Inv

/-! ## One row -/

section OneRow

variable [DecidableEq κ] {st : Store κ α} {σ : State κ α} {calls : List (ℤ × Op κ α)} {i j : ℕ}

theorem writes_append (calls calls' : List (ℤ × Op κ α)) :
    writes st σ (calls ++ calls') = writes st σ calls ++ writes st (σ.run st calls) calls' := by
  induction calls generalizing σ with
  | nil => rfl
  | cons call calls ih =>
    rw [List.cons_append, writes, ih, writes, List.append_assoc]
    rfl

theorem agesNonneg_append {calls calls' : List (ℤ × Op κ α)} :
    AgesNonneg st σ (calls ++ calls') ↔
      AgesNonneg st σ calls ∧ AgesNonneg st (σ.run st calls) calls' := by
  induction calls generalizing σ with
  | nil => exact (iff_of_eq (true_and _)).symm
  | cons call calls ih => exact (and_congr_right fun _ => ih).trans and_assoc.symm

/-- What is written is written by a call. -/
theorem mem_writes_iff {w : String × SessionValues κ α} :
    w ∈ writes st σ calls ↔ ∃ i now op, calls[i]? = some (now, op) ∧
      w ∈ wrote st now (σ.run st (calls.take i)) op := by
  induction calls generalizing σ with
  | nil => simp [writes]
  | cons call calls ih =>
    rw [writes, List.mem_append, ih]
    constructor
    · rintro (hw | ⟨i, now, op, hi, hw⟩)
      · exact ⟨0, call.1, call.2, rfl, hw⟩
      · exact ⟨i + 1, now, op, hi, hw⟩
    · rintro ⟨_ | i, now, op, hi, hw⟩
      · cases hi
        exact .inl hw
      · exact .inr ⟨i, now, op, hi, hw⟩

theorem WritesAt.lt_length {now : ℤ} (h : WritesAt st σ calls i now) : i < calls.length := by
  obtain ⟨op, hi, -⟩ := h
  exact (List.getElem?_eq_some_iff.1 hi).1

/-- Whether a call writes does not depend on the calls after it. -/
theorem writesAt_append {now : ℤ} {calls' : List (ℤ × Op κ α)} (hi : i < calls.length) :
    WritesAt st σ (calls ++ calls') i now ↔ WritesAt st σ calls i now := by
  rw [WritesAt, List.getElem?_append_left hi, List.take_append_of_le_length hi.le, WritesAt]

/-- A second write is to the same id only if the session is not new before it: a new session
    gets another id with each. -/
theorem Inv.isNew_of_same {ws : List (String × SessionValues κ α)} {start : State κ α} {now : ℤ}
    {op : Op κ α} {id : String} (h : Inv st start ws σ) (hage : AgeNonneg st now σ op)
    (hws : ∃ w ∈ ws, w.1 = id) (hwrote : ∃ w ∈ wrote st now σ op, w.1 = id) :
    (σ.gsession st now).isNew = false := by
  obtain ⟨w, hw, hid⟩ := hws
  obtain ⟨w', hw', hid'⟩ := hwrote
  rcases step_cases (valid_gsession h.valid) hage with ⟨hnone, -⟩ | ⟨newID, hsome, hsaves⟩
  · rw [hnone] at hw'
    cases hw'
  · rw [hsome, List.mem_singleton] at hw'
    subst hw'
    refine Bool.eq_false_iff.2 fun hnew => ?_
    have hnodup := h.nodup_saved rfl hsaves hnew
    rw [List.map_append] at hnodup
    exact List.disjoint_of_nodup_append hnodup (List.mem_map.2 ⟨w, hw, hid⟩)
      (List.mem_singleton.2 hid'.symm)

/-- All writes are to the same id exactly if the session is not new before any but the first. -/
theorem exists_same_iff (hvalid : ∀ g ∈ σ.session, Valid σ.name σ.table g)
    (hcookies : σ.cookies = []) (hages : AgesNonneg st σ calls) :
    (∃ id, ∀ w ∈ writes st σ calls, w.1 = id) ↔
      ∀ i j now now', i < j → WritesAt st σ calls i now → WritesAt st σ calls j now' →
        ((σ.run st (calls.take j)).gsession st now').isNew = false := by
  have hinv {calls : List (ℤ × Op κ α)} (hages : AgesNonneg st σ calls) :
      Inv st σ (writes st σ calls) (σ.run st calls) := (Inv.init hvalid hcookies).run hages
  constructor
  · rintro ⟨id, hsame⟩ i j now now' hij ⟨op, hi, hwrote⟩ ⟨op', hj, hwrote'⟩
    obtain ⟨w, hw⟩ := List.exists_mem_of_ne_nil _ hwrote
    obtain ⟨w', hw'⟩ := List.exists_mem_of_ne_nil _ hwrote'
    have hsplit : calls = calls.take j ++ (now', op') :: calls.drop (j + 1) := by
      obtain ⟨hlt, heq⟩ := List.getElem?_eq_some_iff.1 hj
      rw [← heq, List.getElem_cons_drop, List.take_append_drop]
    rw [hsplit, agesNonneg_append] at hages
    -- The first of the two writes is among those before the second.
    have hmem : w ∈ writes st σ (calls.take j) := mem_writes_iff.2
      ⟨i, now, op, by rwa [List.getElem?_take_of_lt hij], by
        rwa [List.take_take, Nat.min_eq_left hij.le]⟩
    exact (hinv hages.1).isNew_of_same hages.2.1
      ⟨w, hmem, hsame w (mem_writes_iff.2 ⟨i, now, op, hi, hw⟩)⟩
      ⟨w', hw', hsame w' (mem_writes_iff.2 ⟨j, now', op', hj, hw'⟩)⟩
  · intro h
    induction calls using List.reverseRecOn with
    | nil => exact ⟨"", fun w hw => absurd hw List.not_mem_nil⟩
    | append_singleton calls call ih =>
      rw [agesNonneg_append] at hages
      obtain ⟨id, hsame⟩ := ih hages.1 fun i j now now' hij hi hj => by
        have hold := h i j now now' hij ((writesAt_append hi.lt_length).2 hi)
          ((writesAt_append hj.lt_length).2 hj)
        rwa [List.take_append_of_le_length hj.lt_length.le] at hold
      have hwrites : writes st σ (calls ++ [call]) =
          writes st σ calls ++ wrote st call.1 (σ.run st calls) call.2 := by
        rw [writes_append, writes, writes, List.append_nil]
      rw [hwrites]
      have hbefore := hinv hages.1
      rcases step_cases (valid_gsession hbefore.valid) hages.2.1 with
        ⟨hnone, -⟩ | ⟨newID, hsome, -⟩
      · rw [hnone, List.append_nil]
        exact ⟨id, hsame⟩
      · rw [hsome]
        cases hws : writes st σ calls with
        | nil => exact ⟨_, fun w hw => by rw [List.mem_singleton.1 hw]⟩
        | cons w ws =>
          -- There was a write before, so the session is not new.
          obtain ⟨i, now, op, hi, hw⟩ := mem_writes_iff.1 (hws ▸ List.mem_cons_self)
          have hfirst : WritesAt st σ calls i now := ⟨op, hi, List.ne_nil_of_mem hw⟩
          have hold := h i calls.length now call.1 hfirst.lt_length
            ((writesAt_append hfirst.lt_length).2 hfirst)
            ⟨call.2, List.getElem?_concat_length, by
              rw [List.take_left, hsome]
              exact List.cons_ne_nil _ _⟩
          rw [List.take_left] at hold
          refine ⟨((σ.run st calls).gsession st call.1).id, fun w' hw' => ?_⟩
          rw [← hws] at hw'
          rcases List.mem_append.1 hw' with hw' | hw'
          · exact hbefore.old_gsession hold w' hw'
          · rw [List.mem_singleton.1 hw']
            exact if_neg (by rw [hold]; simp)

/-- The session has one row exactly if every write is to the same id. -/
theorem exists_oneRow_iff (h : Inv st σ (writes st σ calls) (σ.run st calls)) :
    (∃ id, OneRow st σ calls id) ↔ ∃ id, ∀ w ∈ writes st σ calls, w.1 = id := by
  refine ⟨fun ⟨id, hone⟩ => ⟨id, hone.same⟩, fun ⟨id, hsame⟩ => ⟨id, hsame, ?_, ?_, ?_⟩⟩
  · intro id' hne
    exact h.frame id' fun w hw hw' => hne (hw'.symm.trans (hsame w hw))
  · intro w hw
    have hlast := h.last w hw
    rwa [hsame w (List.mem_of_getLast? hw), h.name] at hlast
  · intro c hc
    obtain ⟨w, hw, hdecode⟩ := h.cookie c hc
    rwa [hsame w hw, h.name] at hdecode

end OneRow

/-- Whatever is called on a session and however often it is saved, it has one row exactly if
    it is not new any more before a call that writes and is not the first to. -/
theorem oneRow_iff [DecidableEq κ] (st : Store κ α) (σ : State κ α) (calls : List (ℤ × Op κ α))
    (hvalid : ∀ g ∈ σ.session, Valid σ.name σ.table g) (hcookies : σ.cookies = [])
    (hages : AgesNonneg st σ calls) :
    (∃ id, OneRow st σ calls id) ↔
      ∀ i j now now', i < j → WritesAt st σ calls i now → WritesAt st σ calls j now' →
        ((σ.run st (calls.take j)).gsession st now').isNew = false := by
  rw [exists_oneRow_iff ((Inv.init hvalid hcookies).run hages),
    exists_same_iff hvalid hcookies hages]

/-- A store to run the model with. -/
def exampleStore : Store Unit String := { codecs := .plain, options := { maxAge := 60 } }

/-- A request without a cookie. -/
def exampleState : State Unit String := { name := "default", table := ∅ }

/-- A user that logs in has one row. -/
theorem oneRow_login : ∃ id, OneRow exampleStore exampleState (State.withUser 0 () "tom" "A") id :=
  have hage : (0 : ℤ) ≤ exampleStore.options.maxAge.toInt := by decide
  (oneRow_iff exampleStore exampleState (State.withUser 0 () "tom" "A")
    (fun _ h => absurd h (by simp [exampleState])) rfl ⟨trivial, hage, trivial⟩).2
    fun i j now now' hij hi hj => by
      -- Of the two calls, only the save writes.
      have hlt : j < 2 := hj.lt_length
      obtain rfl : i = 0 := by omega
      obtain ⟨op, hop, hwrote⟩ := hi
      cases hop
      exact absurd rfl hwrote

/-- A new session that is saved twice has two rows, and the cookie of the first is still good. -/
theorem two_rows :
    let calls := State.withUser 0 () "tom" "A" ++ State.withUser 0 () "tim" "B"
    let σ' := exampleState.run exampleStore calls
    (writes exampleStore exampleState calls).map Prod.fst = ["A", "B"] ∧
      σ'.table.keys = ["B", "A"] ∧ σ'.cookies.map Cookie.value = ["default=A", "default=B"] ∧
      (exampleStore.new σ'.table 0 (some "default=A") "default").1.isNew = false ∧
      ¬ ∃ id, OneRow exampleStore exampleState calls id := by
  refine ⟨rfl, rfl, rfl, rfl, ?_⟩
  rintro ⟨id, hone⟩
  have hA := hone.same _ (List.mem_cons_self)
  have hB := hone.same _ (List.mem_cons_of_mem _ List.mem_cons_self)
  exact absurd (hA.trans hB.symm) (by decide)

end Apiserver.Sessions
