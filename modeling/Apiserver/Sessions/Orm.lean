import Apiserver.Basic
import Apiserver.Go.Strings
import Mathlib.Algebra.Group.Int.Defs

/-!
# The session store

A session keeps values between the requests of a client, which has a cookie with the id
of the session. The store (`pkg/sessions/orm`) has a row for each session in a table of a
database, with its values and the time it expires.

The time a session is to be kept, its `MaxAge` in seconds, is made a duration when it is
saved. A row is read if it expires after the time of the request, and a cleanup deletes
the rows that expired before.

* `save_cases`: what saving a session writes;
* `load_eq_ok_iff`, `lookup_cleanups`: a row is read back until it expires, whatever is
  cleaned up;
* `readsBack_iff`: a session that was saved can be read back for the time of its `MaxAge`
  exactly if that is not zero, is not too long for a duration, and there was a row to be
  written.
-/

namespace Apiserver.Sessions

/-- `Options`. -/
structure Options where
  path : String := ""
  domain : String := ""
  /-- In seconds. -/
  maxAge : Int64 := 0
  secure : Bool := false
  httpOnly : Bool := false
  sameSite : ℤ := 0

/-- The values of a session. -/
abbrev SessionValues (κ α : Type) := AList fun _ : κ => α

/-- A session of gorilla. -/
structure GSession (κ α : Type) where
  name : String
  id : String := ""
  values : SessionValues κ α := ∅
  options : Options := {}
  isNew : Bool := false

/-- A cookie, as `NewCookie` makes it. -/
structure Cookie where
  name : String
  value : String
  options : Options

/-- `OrmSession`, but for its id. -/
structure Row where
  data : String
  createdAt : ℤ
  updatedAt : ℤ
  expiresAt : ℤ

/-- The table, by the ids of the rows, which are unique. -/
abbrev Table := AList fun _ : String => Row

/-- `delete from .. where`. -/
def Table.deleteWhere (p : Row → Bool) (t : Table) : Table where
  entries := t.entries.filter fun e => !p e.2
  nodupKeys := t.nodupKeys.sublist List.filter_sublist

theorem Table.lookup_deleteWhere {p : Row → Bool} {t : Table} {id : String} {row : Row} :
    (t.deleteWhere p).lookup id = some row ↔ t.lookup id = some row ∧ p row = false := by
  rw [← Option.mem_def, ← Option.mem_def, AList.mem_lookup_iff, AList.mem_lookup_iff]
  simp [deleteWhere]

/-- The codecs of a store. What is encoded can be decoded. -/
structure Codecs (κ α : Type) where
  encodeID : String → String → Except Error String
  decodeID : String → String → Except Error String
  encodeValues : String → SessionValues κ α → Except Error String
  decodeValues : String → String → Except Error (SessionValues κ α)
  decodeID_encodeID : ∀ name id s, encodeID name id = .ok s → decodeID name s = .ok id
  decodeValues_encodeValues : ∀ name values s, encodeValues name values = .ok s →
    decodeValues name s = .ok values

/-- `store`, and what the database answers. -/
structure Store (κ α : Type) where
  codecs : Codecs κ α
  options : Options := {}
  /-- The error of a query or a deletion without a row, -/
  notFound : Error := "not found"
  /-- of an insertion of a row that is there, -/
  duplicate : Error := "duplicate"
  /-- and of an update without a row, if there is one. -/
  updateMissing : Option Error := none

variable {κ α : Type}

namespace Store

variable (st : Store κ α)

/-- `time.Second * time.Duration(maxAge)`, in nanoseconds. -/
def duration (maxAge : Int64) : ℤ := (1000000000 * maxAge).toInt

/-- `load`. -/
def load (table : Table) (now : ℤ) (s : GSession κ α) : Except Error (GSession κ α) :=
  match table.lookup s.id with
  | none => .error st.notFound
  | some row =>
    if now < row.expiresAt then
      match st.codecs.decodeValues s.name row.data with
      | .ok values => .ok { s with values }
      | .error err => .error err
    else .error st.notFound

/-- `New`, with the value of the cookie in the request. -/
def new (table : Table) (now : ℤ) (cookie : Option String) (name : String) :
    GSession κ α × Option Error :=
  let s : GSession κ α := { name, options := st.options, isNew := true }
  match cookie with
  | none => (s, none)
  | some value =>
    match st.codecs.decodeID name value with
    | .error err => (s, some err)
    | .ok id =>
      let s := { s with id }
      match st.load table now s with
      | .error err => (s, some err)
      | .ok s => ({ s with isNew := false }, none)

/-- `save`, to the row of the session, where `newID` is the random id that is
    generated for a new session. -/
def saveRow (table : Table) (now : ℤ) (newID : String) (s : GSession κ α) :
    Option Error × GSession κ α × Table :=
  match st.codecs.encodeValues s.name s.values with
  | .error err => (some err, s, table)
  | .ok data =>
    let expire := now + duration s.options.maxAge
    if s.isNew then
      let s := { s with id := newID }
      if s.id ∈ table then (some st.duplicate, s, table)
      else
        (none, s, table.insert s.id
          { data, createdAt := now, updatedAt := now, expiresAt := expire })
    else
      match table.lookup s.id with
      | none => (st.updateMissing, s, table)
      | some row =>
        (none, s, table.insert s.id { row with data, updatedAt := now, expiresAt := expire })

/-- What `Save` leaves: its error, the cookie it sets, the session and the table. -/
structure Saved (κ α : Type) where
  err : Option Error := none
  cookie : Option Cookie := none
  session : GSession κ α
  table : Table

/-- `Save`. -/
def save (table : Table) (now : ℤ) (newID : String) (s : GSession κ α) : Saved κ α :=
  if s.options.maxAge.toInt < 0 then
    if s.id ∈ table then
      { cookie := some { name := s.name, value := "", options := s.options }
        session := s, table := table.erase s.id }
    else { err := some st.notFound, session := s, table }
  else
    match st.saveRow table now newID s with
    | (some err, s, table) => { err := some err, session := s, table }
    | (none, s, table) =>
      match st.codecs.encodeID s.name s.id with
      | .error err => { err := some err, session := s, table }
      | .ok value =>
        { cookie := some { name := s.name, value, options := s.options }, session := s, table }

/-- The id and the values that `Save` writes, if it comes to that. -/
def wrote (table : Table) (now : ℤ) (newID : String) (s : GSession κ α) :
    Option (String × SessionValues κ α) :=
  if s.options.maxAge.toInt < 0 then none
  else
    match st.saveRow table now newID s with
    | (some _, _, _) => none
    | (none, s, _) => some (s.id, s.values)

/-- `Cleanup`. -/
def cleanup (now : ℤ) (table : Table) : Table := table.deleteWhere fun row => row.expiresAt < now

/-- Some cleanups, at their times. -/
def cleanups (table : Table) (times : List ℤ) : Table :=
  times.foldl (fun table now => cleanup now table) table

end Store

/-! ## Reading a row back -/

/-- `New` gives a session that was stored, with an id and values. -/
structure Loads (r : GSession κ α × Option Error) (id : String) (values : SessionValues κ α) :
    Prop where
  err : r.2 = none
  isNew : r.1.isNew = false
  id : r.1.id = id
  values : r.1.values = values

namespace Store

variable {st : Store κ α} {table : Table} {now : ℤ}

/-- A session is loaded from its row, if that has not expired. -/
theorem load_eq_ok_iff {s s' : GSession κ α} :
    st.load table now s = .ok s' ↔
      ∃ row values, table.lookup s.id = some row ∧ now < row.expiresAt ∧
        st.codecs.decodeValues s.name row.data = .ok values ∧ s' = { s with values } := by
  rw [load]
  constructor
  · intro h
    cases hrow : table.lookup s.id with
    | none =>
      rw [hrow] at h
      cases h
    | some row =>
      simp only [hrow] at h
      split_ifs at h with hlive
      cases hdata : st.codecs.decodeValues s.name row.data with
      | error err =>
        rw [hdata] at h
        cases h
      | ok values =>
        rw [hdata] at h
        cases h
        exact ⟨row, values, rfl, hlive, hdata, rfl⟩
  · rintro ⟨row, values, hrow, hlive, hdata, rfl⟩
    simp only [hrow, if_pos hlive, hdata]

/-- `New` finds the session of a row that has not expired. -/
theorem loads_new_iff {name value id : String} {values : SessionValues κ α}
    (hid : st.codecs.decodeID name value = .ok id) :
    Loads (st.new table now (some value) name) id values ↔
      ∃ row, table.lookup id = some row ∧ now < row.expiresAt ∧
        st.codecs.decodeValues name row.data = .ok values := by
  simp only [new, hid]
  cases hload : st.load table now { name, id, options := st.options, isNew := true } with
  | error err =>
    refine ⟨fun h => absurd h.err (Option.some_ne_none err), ?_⟩
    rintro ⟨row, hrow, hlive, hdata⟩
    rw [load_eq_ok_iff.2 ⟨row, values, hrow, hlive, hdata, rfl⟩] at hload
    cases hload
  | ok s =>
    obtain ⟨row, values', hrow, hlive, hdata, rfl⟩ := load_eq_ok_iff.1 hload
    constructor
    · intro h
      exact ⟨row, hrow, hlive, hdata.trans (congrArg Except.ok h.values)⟩
    · rintro ⟨row', hrow', _, hdata'⟩
      rw [hrow] at hrow'
      cases hrow'
      rw [hdata] at hdata'
      cases hdata'
      exact ⟨rfl, rfl, rfl, rfl⟩

/-- A cleanup leaves the rows that expire later. -/
theorem lookup_cleanups {times : List ℤ} {id : String} {row : Row} :
    (cleanups table times).lookup id = some row ↔
      table.lookup id = some row ∧ ∀ t ∈ times, t ≤ row.expiresAt := by
  induction times generalizing table with
  | nil => simp [cleanups]
  | cons t times ih =>
    have hcons : cleanups table (t :: times) = cleanups (cleanup t table) times := rfl
    rw [hcons, ih, cleanup, Table.lookup_deleteWhere, List.forall_mem_cons]
    simp [and_assoc]

/-! ## Saving a session -/

/-- The id of a session once it is saved. -/
def savedID (newID : String) (s : GSession κ α) : String := if s.isNew then newID else s.id

/-- The table is left with a row for the session: a new one, or the one that was there. -/
def Writes (table : Table) (now : ℤ) (newID : String) (s : GSession κ α) (data : String)
    (table' : Table) : Prop :=
  (s.isNew = true ∧ newID ∉ table ∨ s.isNew = false ∧ s.id ∈ table) ∧
    ∃ row, table' = table.insert (savedID newID s) row ∧ row.data = data ∧
      row.expiresAt = now + duration s.options.maxAge

/-- What `save` does with the row: it fails, writes it, or finds none to be updated. -/
theorem saveRow_cases (st : Store κ α) (table : Table) (now : ℤ) (newID : String)
    (s : GSession κ α) :
    (∃ err id, (s.isNew = false → id = s.id) ∧
        st.saveRow table now newID s = (some err, { s with id }, table)) ∨
      ∃ data table', st.codecs.encodeValues s.name s.values = .ok data ∧
        st.saveRow table now newID s = (none, { s with id := savedID newID s }, table') ∧
        (Writes table now newID s data table' ∨
          table' = table ∧ s.isNew = false ∧ s.id ∉ table) := by
  rw [saveRow]
  cases hdata : st.codecs.encodeValues s.name s.values with
  | error err => exact .inl ⟨err, s.id, fun _ => rfl, rfl⟩
  | ok data =>
    by_cases hnew : s.isNew = true
    · have hid : savedID newID s = newID := if_pos hnew
      simp only [if_pos hnew, hid]
      by_cases hmem : newID ∈ table
      · have hid' : s.isNew = false → newID = s.id := fun h => absurd (hnew.symm.trans h) (by simp)
        exact .inl ⟨st.duplicate, newID, hid', if_pos hmem⟩
      · refine .inr ⟨data, _, rfl, if_neg hmem, .inl ⟨.inl ⟨hnew, hmem⟩, ?_⟩⟩
        exact ⟨_, by rw [hid], rfl, rfl⟩
    · have hid : savedID newID s = s.id := if_neg hnew
      simp only [if_neg hnew, hid]
      cases hrow : table.lookup s.id with
      | none =>
        cases st.updateMissing with
        | some err => exact .inl ⟨err, s.id, fun _ => rfl, rfl⟩
        | none =>
          exact .inr ⟨data, table, rfl, rfl,
            .inr ⟨rfl, Bool.eq_false_iff.2 hnew, AList.lookup_eq_none.1 hrow⟩⟩
      | some row =>
        have hmem : s.id ∈ table := AList.lookup_isSome.1 (by rw [hrow]; rfl)
        refine .inr ⟨data, _, rfl, rfl, .inl ⟨.inr ⟨Bool.eq_false_iff.2 hnew, hmem⟩, ?_⟩⟩
        exact ⟨_, by rw [hid], rfl, rfl⟩

/-- What `Save` does: it fails before there is a row, or goes on to the cookie. -/
theorem save_cases (st : Store κ α) (table : Table) (now : ℤ) (newID : String)
    {s : GSession κ α} (hage : 0 ≤ s.options.maxAge.toInt) :
    (st.wrote table now newID s = none ∧ ∃ err id, (s.isNew = false → id = s.id) ∧
        st.save table now newID s = { err := some err, session := { s with id }, table }) ∨
      ∃ data table', st.codecs.encodeValues s.name s.values = .ok data ∧
        st.wrote table now newID s = some (savedID newID s, s.values) ∧
        (Writes table now newID s data table' ∨ table' = table ∧ s.isNew = false ∧ s.id ∉ table) ∧
        ((∃ err, st.save table now newID s =
            { err := some err, session := { s with id := savedID newID s }, table := table' }) ∨
          ∃ value, st.codecs.encodeID s.name (savedID newID s) = .ok value ∧
            st.save table now newID s =
              { cookie := some { name := s.name, value, options := s.options }
                session := { s with id := savedID newID s }, table := table' }) := by
  rw [save, wrote, if_neg (Int.not_lt.2 hage), if_neg (Int.not_lt.2 hage)]
  rcases st.saveRow_cases table now newID s with
    ⟨err, id, hid, hrow⟩ | ⟨data, table', hdata, hrow, hw⟩
  · rw [hrow]
    exact .inl ⟨rfl, err, id, hid, rfl⟩
  · rw [hrow]
    refine .inr ⟨data, table', hdata, rfl, hw, ?_⟩
    cases hvalue : st.codecs.encodeID s.name (savedID newID s) with
    | error err => exact .inl ⟨err, by simp [hvalue]⟩
    | ok value => exact .inr ⟨value, rfl, by simp [hvalue]⟩

end Store

/-! ## Reading a session back -/

/-- The times at which a session that was saved at `t` should be read back. -/
def InWindow (maxAge : Int64) (t now : ℤ) : Prop :=
  t ≤ now ∧ now < t + maxAge.toInt * 1000000000 ∨ maxAge = 0 ∧ now = t

/-- A session that was saved at `t` is read back with its cookie, whatever is cleaned up in
    between. -/
def ReadsBack (st : Store κ α) (table : Table) (t : ℤ) (newID : String) (s : GSession κ α) :
    Prop :=
  let saved := st.save table t newID s
  ∀ now times cookie, InWindow s.options.maxAge t now → (∀ c ∈ times, t ≤ c ∧ c ≤ now) →
    saved.cookie = some cookie →
    Loads (st.new (Store.cleanups saved.table times) now (some cookie.value) cookie.name)
      saved.session.id s.values

/-- A duration that is too long wraps around, and is shorter. -/
theorem duration_eq_or_lt {maxAge : Int64} (hage : 0 ≤ maxAge.toInt) :
    maxAge.toInt * 1000000000 < 9223372036854775808 ∧
        Store.duration maxAge = maxAge.toInt * 1000000000 ∨
      9223372036854775808 ≤ maxAge.toInt * 1000000000 ∧
        Store.duration maxAge < maxAge.toInt * 1000000000 := by
  have hmul : Store.duration maxAge =
      (1000000000 * maxAge.toInt).bmod 18446744073709551616 := by
    rw [Store.duration, Int64.toInt_mul]
    rfl
  rw [hmul, Int.bmod]
  omega

/-- The start of the window is in it. -/
theorem inWindow_self {maxAge : Int64} (hage : 0 ≤ maxAge.toInt) (t : ℤ) : InWindow maxAge t t := by
  rcases Int.le_iff_eq_or_lt.1 hage with hzero | hpos
  · refine .inr ⟨?_, rfl⟩
    rw [← Int64.toInt_inj, ← hzero]
    rfl
  · exact .inl ⟨Int.le_refl t, by omega⟩

/-- The window is that of the duration exactly if the duration is neither zero nor too long. -/
theorem forall_inWindow_iff {maxAge : Int64} (hage : 0 ≤ maxAge.toInt) (t : ℤ) :
    (∀ now, InWindow maxAge t now → now < t + Store.duration maxAge) ↔
      0 < maxAge.toInt ∧ maxAge.toInt * 1000000000 < 9223372036854775808 := by
  constructor
  · intro h
    have hself := h t (inWindow_self hage t)
    rcases duration_eq_or_lt hage with ⟨hfits, heq⟩ | ⟨_, hlt⟩
    · exact ⟨by omega, hfits⟩
    · -- At the time the duration is over, the session should still be there.
      have hend := h (t + Store.duration maxAge) (.inl ⟨by omega, by omega⟩)
      omega
  · rintro ⟨hpos, hfits⟩ now hnow
    rcases duration_eq_or_lt hage with ⟨_, heq⟩ | ⟨hlong, _⟩
    · rcases hnow with ⟨_, hlt⟩ | ⟨rfl, _⟩
      · rwa [heq]
      · exact absurd hpos (by decide)
    · omega

/-- With its cookie, a session is loaded from its row, if that is neither cleaned up nor
    expired. -/
theorem loads_cleanups_iff {st : Store κ α} {s : GSession κ α} {id value : String}
    (hvalue : st.codecs.encodeID s.name id = .ok value) (table : Table) (now : ℤ)
    (times : List ℤ) :
    Loads (st.new (Store.cleanups table times) now (some value) s.name) id s.values ↔
      ∃ row, (table.lookup id = some row ∧ ∀ c ∈ times, c ≤ row.expiresAt) ∧
        now < row.expiresAt ∧ st.codecs.decodeValues s.name row.data = .ok s.values := by
  rw [Store.loads_new_iff (st.codecs.decodeID_encodeID _ _ _ hvalue)]
  simp only [Store.lookup_cleanups]

/-- A row that was written is there until it expires, and is not cleaned up before. -/
theorem forall_loads_insert_iff {st : Store κ α} {s : GSession κ α} {id value : String}
    (hvalue : st.codecs.encodeID s.name id = .ok value) (table : Table) {row : Row}
    (hrow : st.codecs.decodeValues s.name row.data = .ok s.values) (maxAge : Int64) (t : ℤ) :
    (∀ now times, InWindow maxAge t now → (∀ c ∈ times, t ≤ c ∧ c ≤ now) →
      Loads (st.new (Store.cleanups (table.insert id row) times) now (some value) s.name) id
        s.values) ↔
      ∀ now, InWindow maxAge t now → now < row.expiresAt := by
  have hlookup := AList.lookup_insert (s := table) (a := id) (b := row)
  constructor
  · intro h now hnow
    obtain ⟨row', ⟨hrow', _⟩, hlive, _⟩ := (loads_cleanups_iff hvalue _ now []).1
      (h now [] hnow fun c hc => absurd hc List.not_mem_nil)
    rw [hlookup] at hrow'
    cases hrow'
    exact hlive
  · intro h now times hnow htimes
    have hlive := h now hnow
    exact (loads_cleanups_iff hvalue _ now times).2
      ⟨row, ⟨hlookup, fun c hc => Int.le_trans (htimes c hc).2 (Int.le_of_lt hlive)⟩, hlive, hrow⟩

/-- A session that was saved can be read back for the time of its `MaxAge` exactly if that is
    not zero and not too long for a duration, and there was a row to be written. -/
theorem readsBack_iff (st : Store κ α) (table : Table) (t : ℤ) (newID : String)
    (s : GSession κ α) (hage : 0 ≤ s.options.maxAge.toInt)
    (hok : (st.save table t newID s).err = none) :
    ReadsBack st table t newID s ↔
      (0 < s.options.maxAge.toInt ∧ s.options.maxAge.toInt * 1000000000 < 9223372036854775808) ∧
        (s.isNew = true ∨ s.id ∈ table) := by
  rcases st.save_cases table t newID hage with ⟨_, err, id, _, hsave⟩ |
    ⟨data, table', hdata, _, hrow, ⟨err, hsave⟩ | ⟨value, hvalue, hsave⟩⟩
  · rw [hsave] at hok
    cases hok
  · rw [hsave] at hok
    cases hok
  have hreads : ReadsBack st table t newID s ↔ ∀ now times, InWindow s.options.maxAge t now →
      (∀ c ∈ times, t ≤ c ∧ c ≤ now) →
      Loads (st.new (Store.cleanups table' times) now (some value) s.name)
        (Store.savedID newID s) s.values := by
    simp only [ReadsBack, hsave]
    refine ⟨fun h now times hnow htimes => h now times _ hnow htimes rfl, ?_⟩
    rintro h now times cookie hnow htimes ⟨⟩
    exact h now times hnow htimes
  rw [hreads, ← forall_inWindow_iff hage t]
  rcases hrow with ⟨hold, row, rfl, hrowdata, hexpires⟩ | ⟨rfl, hnew, hmissing⟩
  · have hdecode := st.codecs.decodeValues_encodeValues _ _ _ hdata
    rw [← hrowdata] at hdecode
    rw [forall_loads_insert_iff hvalue table hdecode, hexpires]
    exact (and_iff_left (hold.imp And.left And.right)).symm
  -- The update found no row to write, which is no error, and then there is none to read.
  · constructor
    · intro h
      have hid : Store.savedID newID s = s.id := by rw [Store.savedID, hnew]; rfl
      obtain ⟨row, ⟨hrow, _⟩, _⟩ := (loads_cleanups_iff hvalue _ t []).1
        (h t [] (inWindow_self hage t) fun c hc => absurd hc List.not_mem_nil)
      rw [hid, AList.lookup_eq_none.2 hmissing] at hrow
      cases hrow
    · rintro ⟨_, hnew' | hmem⟩
      · rw [hnew] at hnew'
        cases hnew'
      · exact absurd hmem hmissing

/-- Codecs to run the model with, for sessions with one value at most. -/
def Codecs.plain : Codecs Unit String where
  encodeID name id := .ok (name ++ "=" ++ id)
  decodeID name s := .ok (Go.trimPrefix s (name ++ "="))
  encodeValues _ values :=
    match values.entries with
    | [] => .ok ""
    | [⟨_, v⟩] => .ok ("+" ++ v)
    | _ => .error "too many values"
  decodeValues _ s :=
    if Go.hasPrefix s "+" then .ok (AList.singleton () (Go.trimPrefix s "+")) else .ok ∅
  decodeID_encodeID name id s h := by
    cases h
    rw [Go.trimPrefix_append]
  decodeValues_encodeValues name values s h := by
    obtain ⟨entries, hnodup⟩ := values
    rcases entries with _ | ⟨⟨⟨⟩, v⟩, _ | _⟩
    · cases h
      rfl
    · cases h
      rw [if_pos (Go.hasPrefix_append "+" v), Go.trimPrefix_append]
      rfl
    · cases h

/-- A new session, to be kept for some seconds. -/
def exampleSession (maxAge : Int64) : GSession Unit String where
  name := "default"
  values := AList.singleton () "tom"
  options := { maxAge }
  isNew := true

/-- A session to be kept for a minute is read back. -/
theorem readsBack_minute :
    ReadsBack { codecs := .plain } ∅ 0 "A" (exampleSession 60) :=
  (readsBack_iff { codecs := .plain } ∅ 0 "A" (exampleSession 60) (by decide) rfl).2
    ⟨⟨by decide, by decide⟩, .inl rfl⟩

/-- A session without a `Max-Age` is not read back, not even at once. -/
theorem not_readsBack_zero :
    let st : Store Unit String := { codecs := .plain }
    let saved := st.save ∅ 0 "A" (exampleSession 0)
    saved.err = none ∧ saved.cookie.map Cookie.value = some "default=A" ∧
      (st.new saved.table 0 (some "default=A") "default").2 = some "not found" ∧
      (st.new saved.table 0 (some "default=A") "default").1.isNew = true ∧
      ¬ ReadsBack st ∅ 0 "A" (exampleSession 0) := by
  refine ⟨rfl, rfl, rfl, rfl, fun h => ?_⟩
  have hloads := h 0 [] _ (.inr ⟨rfl, rfl⟩) (fun c hc => absurd hc List.not_mem_nil) rfl
  cases hloads.err

end Apiserver.Sessions
