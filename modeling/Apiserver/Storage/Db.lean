import Apiserver.Basic
import Apiserver.Go.Strings

/-!
# The database store

An object is stored under a key, `table/name` or `table/namespace/name`. The store of a
database (`pkg/storage/db`) makes a selector of a key, in the text that the database parses:
requirements separated by commas. That of a name is `name=`, followed by it, and that of a
namespace is `namespace`, followed by it: there is no `=`.

The database is golib's `orm`, which is a parameter (`Orm`). What is known of it is what
`Get` and `Delete` do with a selector of requirements `key=value`, and that a key alone that is
no column of the table is an error.

* `selector_none`, `selector_some`: the selector of a key;
* `serves_iff`: the rows a key is for are those that are read and deleted exactly if it has
  no namespace;
* `keys_iff`: so it is for any two keys, and then they share no row.
-/

namespace Apiserver.Storage

/-- The columns of a row that have a value. -/
abbrev Row := AList fun _ : String => String

/-- A table of the database. -/
structure Table where
  columns : List String
  rows : List Row
  /-- The values of a row are in the columns of the table. -/
  wf : ∀ row ∈ rows, row.keys ⊆ columns

/-- The tables, by their names. -/
abbrev Database := String → Table

/-- A table without the rows that meet a condition. -/
def Table.remove (t : Table) (cond : Row → Bool) : Table where
  columns := t.columns
  rows := t.rows.filter fun row => !cond row
  wf row hrow := t.wf row (List.mem_of_mem_filter hrow)

/-! ## Selectors -/

/-- A text that is not empty and has nothing of the syntax of selectors. -/
structure Word (reserved : Char → Bool) where
  text : String
  ne_empty : text ≠ ""
  plain : ∀ c ∈ text.toList, reserved c = false

/-- The requirement that a column has a value. -/
structure Requirement (reserved : Char → Bool) where
  key : Word reserved
  value : Word reserved

namespace Requirement

variable {reserved : Char → Bool}

def text (q : Requirement reserved) : String := q.key.text ++ "=" ++ q.value.text

/-- Whether a row meets all of some requirements. -/
def meets (reqs : List (Requirement reserved)) (row : Row) : Bool :=
  reqs.all fun q => row.lookup q.key.text = some q.value.text

end Requirement

/-- One of some rows is found, if there is one. -/
structure Finds (notFound : Error) (rows : List Row) (ignoreNotFound : Bool)
    (r : Option Error × Option Row) : Prop where
  found : rows ≠ [] → r.1 = none ∧ ∃ row ∈ rows, r.2 = some row
  missing : rows = [] → r = (if ignoreNotFound then none else some notFound, none)

/-- The rows of a table that meet a condition are deleted, and no others. -/
structure Deletes (db : Database) (table : String) (cond : Row → Bool)
    (r : Option Error × Database) : Prop where
  after : r.2 = Function.update db table ((db table).remove cond)
  err : (db table).rows.filter cond ≠ [] → r.1 = none

/-- The `orm.Interface` of golib, as far as the store uses it. Objects of `ω` are inserted and
    updated. -/
structure Orm (ω : Type) where
  /-- The characters that mean something in a selector. -/
  reserved : Char → Bool
  letters : ∀ c : Char, c.isAlpha = true → reserved c = false
  insert : ω → Table → Except Error Table
  update : ω → Table → Except Error Table
  /-- `Get` of a table with a selector: the error, and the row in `out`. -/
  get : Database → String → String → Bool → Option Error × Option Row
  delete : Database → String → String → Option Error × Database
  notFound : Error
  /-- Neither of the two changes the columns of a table. -/
  insert_columns : ∀ obj t t', insert obj t = .ok t' → t'.columns = t.columns
  update_columns : ∀ obj t t', update obj t = .ok t' → t'.columns = t.columns
  /-- A selector of requirements on columns is for the rows that meet them. -/
  get_equals : ∀ (db : Database) (table : String) (reqs : List (Requirement reserved)),
    reqs ≠ [] → (∀ q ∈ reqs, q.key.text ∈ (db table).columns) → ∀ ignoreNotFound,
    Finds notFound ((db table).rows.filter (Requirement.meets reqs)) ignoreNotFound
      (get db table (Go.join (reqs.map Requirement.text) ",") ignoreNotFound)
  delete_equals : ∀ (db : Database) (table : String) (reqs : List (Requirement reserved)),
    reqs ≠ [] → (∀ q ∈ reqs, q.key.text ∈ (db table).columns) →
    Deletes db table (Requirement.meets reqs)
      (delete db table (Go.join (reqs.map Requirement.text) ","))
  /-- A key alone that is no column is an error of the database, not that there is no row. -/
  get_bare : ∀ (db : Database) (table : String) (reqs : List (Requirement reserved))
    (key : Word reserved), key.text ∉ (db table).columns → ∀ ignoreNotFound,
    ∃ err, get db table (Go.join (reqs.map Requirement.text ++ [key.text]) ",") ignoreNotFound =
      (some err, none)
  delete_bare : ∀ (db : Database) (table : String) (reqs : List (Requirement reserved))
    (key : Word reserved), key.text ∉ (db table).columns →
    ∃ err, delete db table (Go.join (reqs.map Requirement.text ++ [key.text]) ",") =
      (some err, db)

variable {ω : Type}

/-- A text of letters. -/
def Orm.word (p : Orm ω) (s : String) (hne : s ≠ "") (h : s.toList.all Char.isAlpha = true) :
    Word p.reserved where
  text := s
  ne_empty := hne
  plain c hc := p.letters c (List.all_eq_true.1 h c hc)

/-! ## The store -/

/-- `parseKey`. -/
def parseKey (key : String) : String × String × String :=
  match Go.split key '/' with
  | table :: ns :: name :: _ => (table, ns, name)
  | [table, name] => (table, "", name)
  | [table] => (table, "", "")
  | [] => ("", "", "")

/-- `parseKeyWithSelector`. -/
def parseKeyWithSelector (key selector : String) : Except Error (String × String) :=
  let (table, ns, name) := parseKey key
  if selector ≠ "" then .ok (table, selector)
  else if name = "" then .error "key.name is empty"
  else
    let q := "name=" ++ name
    let q := if ns ≠ "" then q ++ (",namespace" ++ ns) else q
    .ok (table, q)

/-- The error, `out` and the database after a call. -/
structure Result where
  err : Option Error := none
  out : Option Row := none
  db : Database

namespace Store

variable (p : Orm ω) (db : Database) (key : String)

/-- `Get`. -/
def get (ignoreNotFound : Bool) : Option Error × Option Row :=
  match parseKeyWithSelector key "" with
  | .error err => (some err, none)
  | .ok (table, selector) => p.get db table selector ignoreNotFound

/-- `Delete`, where `out` may be nil. -/
def delete (hasOut : Bool) : Result :=
  match parseKeyWithSelector key "" with
  | .error err => { err := some err, db }
  | .ok (table, selector) =>
    if hasOut then
      match p.get db table selector false with
      | (some err, out) => { err := some err, out, db }
      | (none, out) =>
        let (err, db) := p.delete db table selector
        { err, out, db }
    else
      let (err, db) := p.delete db table selector
      { err, db }

/-- `Create` and `Update`, which write to the table and get the row of the key. -/
def write (f : Table → Except Error Table) (hasOut : Bool) : Result :=
  match parseKeyWithSelector key "" with
  | .error err => { err := some err, db }
  | .ok (table, selector) =>
    match f (db table) with
    | .error err => { err := some err, db }
    | .ok t =>
      let db := Function.update db table t
      if hasOut then
        let (err, out) := p.get db table selector false
        { err, out, db }
      else { db }

/-- `Create`. -/
def create (obj : ω) (hasOut : Bool) : Result := write p db key (p.insert obj) hasOut

/-- `Update`. -/
def update (obj : ω) (hasOut : Bool) : Result := write p db key (p.update obj) hasOut

end Store

/-! ## Keys -/

/-- A segment of a key: not empty, and without slashes and the syntax of selectors. -/
structure Segment (reserved : Char → Bool) extends Word reserved where
  slash : '/' ∉ text.toList

/-- A key, `table/name` or `table/namespace/name`. -/
structure Key (reserved : Char → Bool) where
  table : Segment reserved
  ns : Option (Segment reserved) := none
  name : Segment reserved

namespace Key

section Rows

variable {reserved : Char → Bool} (k : Key reserved)

/-- The segments of a key. -/
def segments : List String := k.table.text :: (k.ns.toList.map (·.text) ++ [k.name.text])

/-- The text of a key. -/
def text : String := Go.join k.segments "/"

/-- The rows a key is for: those with its name and, if it has one, its namespace. -/
def addresses (row : Row) : Bool :=
  row.lookup "name" = some k.name.text ∧ ∀ ns ∈ k.ns, row.lookup "namespace" = some ns.text

/-- The rows of the database that a key is for. -/
def rows (db : Database) : List Row := (db k.table.text).rows.filter k.addresses

/-- The table of a key has the columns that it is about. -/
structure Fits (db : Database) : Prop where
  name : "name" ∈ (db k.table.text).columns
  ns : k.ns ≠ none → "namespace" ∈ (db k.table.text).columns

/-- A row with the name of a key and a namespace. -/
def rowIn (ns : Segment reserved) : Row :=
  (AList.singleton "name" k.name.text).insert "namespace" ns.text

/-- A database whose tables have this row. -/
def only (ns : Segment reserved) : Database := fun _ =>
  { columns := ["name", "namespace"]
    rows := [k.rowIn ns]
    wf := fun row hrow c hc => by
      obtain rfl := List.mem_singleton.1 hrow
      rw [rowIn, ← AList.mem_keys, AList.mem_insert, AList.mem_keys, AList.keys_singleton] at hc
      simpa [or_comm] using hc }

theorem addresses_rowIn {ns : Segment reserved} (h : ∀ ns' ∈ k.ns, ns' = ns) :
    k.addresses (k.rowIn ns) = true := by
  simp only [addresses, decide_eq_true_eq]
  refine ⟨?_, fun ns' hns' => ?_⟩
  · rw [rowIn, AList.lookup_insert_ne (by decide)]
    rfl
  · rw [h ns' hns']
    exact AList.lookup_insert _

/-- Its columns do not have the namespace in their names. -/
theorem notMem_columns_only (ns : Segment reserved) :
    "namespace" ++ ns.text ∉ (k.only ns k.table.text).columns := by
  have hlen : 0 < ns.text.toList.length := by
    rw [List.length_pos_iff]
    exact fun hnil => ns.ne_empty (String.toList_eq_nil_iff.1 hnil)
  have hne : ∀ s : String, s.toList.length ≤ 9 → "namespace" ++ ns.text ≠ s := by
    rintro s hs rfl
    rw [String.toList_append, List.length_append] at hs
    have h9 : "namespace".toList.length = 9 := rfl
    omega
  intro hmem
  simp only [only, List.mem_cons, List.not_mem_nil, or_false] at hmem
  rcases hmem with h | h
  · exact hne _ (by decide) h
  · exact hne _ (by decide) h

/-- A key is parsed as it is meant. -/
theorem parseKey_text :
    parseKey k.text = (k.table.text, (k.ns.map (·.text)).getD "", k.name.text) := by
  have hsplit : Go.split k.text '/' = k.segments := by
    refine Go.split_join (List.cons_ne_nil _ _) fun s hs => ?_
    rcases List.mem_cons.1 hs with rfl | hs
    · exact k.table.slash
    rcases List.mem_append.1 hs with hs | hs
    · obtain ⟨ns, _, rfl⟩ := List.mem_map.1 hs
      exact ns.slash
    · rw [List.mem_singleton.1 hs]
      exact k.name.slash
  rw [parseKey, hsplit, segments]
  cases k.ns with
  | none => rfl
  | some ns => rfl

/-- The selector of a key. -/
def selector : String :=
  match k.ns with
  | none => "name=" ++ k.name.text
  | some ns => "name=" ++ k.name.text ++ (",namespace" ++ ns.text)

theorem parseKeyWithSelector_text :
    parseKeyWithSelector k.text "" = .ok (k.table.text, k.selector) := by
  rw [parseKeyWithSelector, parseKey_text, selector]
  simp only [ne_eq, not_true, if_false, if_neg k.name.ne_empty]
  cases k.ns with
  | none => rfl
  | some ns => exact congrArg (fun q => Except.ok (k.table.text, q)) (if_pos ns.ne_empty)

end Rows

variable {p : Orm ω} (k : Key p.reserved)

/-- The requirement that the column `name` has the name of a key. -/
def nameRequirement : Requirement p.reserved where
  key := p.word "name" (by decide) rfl
  value := k.name.toWord

/-- What follows the comma in the selector of a key with a namespace. -/
def namespaceWord (ns : Segment p.reserved) : Word p.reserved where
  text := "namespace" ++ ns.text
  ne_empty h := absurd (String.append_eq_empty_iff.1 h).1 (by decide)
  plain c hc := by
    rw [String.toList_append] at hc
    rcases List.mem_append.1 hc with hc | hc
    · exact (p.word "namespace" (by decide) rfl).plain c hc
    · exact ns.plain c hc

/-- Without a namespace, the selector is the requirement of the name, -/
theorem selector_none (hns : k.ns = none) :
    k.selector = Go.join ([k.nameRequirement].map Requirement.text) "," := by
  rw [selector, hns]
  rfl

/-- and with one, it has a key alone. -/
theorem selector_some {ns : Segment p.reserved} (hns : k.ns = some ns) :
    k.selector = Go.join ([k.nameRequirement].map Requirement.text ++ [(namespaceWord ns).text])
      "," := by
  have hcomma : ",namespace" = "," ++ "namespace" := rfl
  rw [selector, hns, hcomma]
  simp only [List.map_cons, List.map_nil, List.cons_append, List.nil_append, Go.join,
    String.append_assoc]
  rfl

/-- The rows that meet the requirement are those of the key, if it has no namespace. -/
theorem meets_nameRequirement (hns : k.ns = none) :
    Requirement.meets [k.nameRequirement] = k.addresses := by
  funext row
  simp only [Requirement.meets, addresses, hns, List.all_cons, List.all_nil, Bool.and_true,
    Option.not_mem_none, false_imp_iff, implies_true, and_true]
  rfl

end Key

/-! ## What a key is served with -/

/-- A write to a table, and the row of the key that is found then. -/
structure Written (p : Orm ω) (k : Key p.reserved) (db : Database)
    (f : Table → Except Error Table) (hasOut : Bool) (r : Result) : Prop where
  failed : ∀ err, f (db k.table.text) = .error err → r = { err := some err, db }
  written : ∀ t, f (db k.table.text) = .ok t → r.db = Function.update db k.table.text t ∧
    (hasOut = true → Finds p.notFound (k.rows r.db) false (r.err, r.out))

/-- The rows of a key are deleted, and no others. -/
structure Deleted (p : Orm ω) (k : Key p.reserved) (db : Database) (hasOut : Bool) (r : Result) :
    Prop where
  after : r.db = Function.update db k.table.text ((db k.table.text).remove k.addresses)
  err : k.rows db ≠ [] → r.err = none
  out : hasOut = true → Finds p.notFound (k.rows db) false (r.err, r.out)

/-- The store serves a key with the rows it is for, in every database whose table for it has
    the columns. -/
structure Serves (p : Orm ω) (k : Key p.reserved) : Prop where
  get : ∀ db, k.Fits db → ∀ ignoreNotFound,
    Finds p.notFound (k.rows db) ignoreNotFound (Store.get p db k.text ignoreNotFound)
  delete : ∀ db, k.Fits db → ∀ hasOut, Deleted p k db hasOut (Store.delete p db k.text hasOut)
  create : ∀ db, k.Fits db → ∀ obj hasOut,
    Written p k db (p.insert obj) hasOut (Store.create p db k.text obj hasOut)
  update : ∀ db, k.Fits db → ∀ obj hasOut,
    Written p k db (p.update obj) hasOut (Store.update p db k.text obj hasOut)

section Serves

variable {p : Orm ω} {k : Key p.reserved} {db : Database}

theorem finds_get (hns : k.ns = none) (hfits : k.Fits db) (ignoreNotFound : Bool) :
    Finds p.notFound (k.rows db) ignoreNotFound
      (p.get db k.table.text k.selector ignoreNotFound) := by
  have hget := p.get_equals db k.table.text [k.nameRequirement] (List.cons_ne_nil _ _)
    (fun q hq => List.mem_singleton.1 hq ▸ hfits.name) ignoreNotFound
  rwa [← k.selector_none hns, k.meets_nameRequirement hns] at hget

theorem deletes_delete (hns : k.ns = none) (hfits : k.Fits db) :
    Deletes db k.table.text k.addresses (p.delete db k.table.text k.selector) := by
  have hdelete := p.delete_equals db k.table.text [k.nameRequirement] (List.cons_ne_nil _ _)
    fun q hq => List.mem_singleton.1 hq ▸ hfits.name
  rwa [← k.selector_none hns, k.meets_nameRequirement hns] at hdelete

/-- If there is no row to be deleted, nothing is. -/
theorem remove_of_rows (h : k.rows db = []) :
    Function.update db k.table.text ((db k.table.text).remove k.addresses) = db := by
  have hall : ((db k.table.text).rows.filter fun row => !k.addresses row) =
      (db k.table.text).rows := by
    rw [List.filter_eq_self]
    intro row hrow
    rw [Key.rows, List.filter_eq_nil_iff] at h
    simp [h row hrow]
  have htable : (db k.table.text).remove k.addresses = db k.table.text := by
    rw [Table.remove]
    simp only [hall]
  rw [htable, Function.update_eq_self]

/-- Without a namespace, `Delete` does what it should, -/
theorem deleted_delete (hns : k.ns = none) (hfits : k.Fits db) (hasOut : Bool) :
    Deleted p k db hasOut (Store.delete p db k.text hasOut) := by
  obtain ⟨hafter, herr⟩ := deletes_delete hns hfits
  simp only [Store.delete, k.parseKeyWithSelector_text]
  cases hasOut with
  | false => exact ⟨hafter, herr, fun h => absurd h (by decide)⟩
  | true =>
    have hget := finds_get hns hfits false
    generalize p.get db k.table.text k.selector false = r at hget
    obtain ⟨err, out⟩ := r
    by_cases hrows : k.rows db = []
    · -- There is no row to be returned, and `Delete` ends with that.
      obtain ⟨rfl, rfl⟩ := Prod.mk.inj (hget.missing hrows)
      exact ⟨(remove_of_rows hrows).symm, fun h => absurd hrows h, fun _ => hget⟩
    · obtain ⟨rfl, hout⟩ := hget.found hrows
      refine ⟨hafter, herr, fun _ => ?_⟩
      simp only [if_true, herr hrows]
      exact hget

/-- and so do `Create` and `Update`. -/
theorem written_write (hns : k.ns = none) (hfits : k.Fits db) {f : Table → Except Error Table}
    (hf : ∀ t t', f t = .ok t' → t'.columns = t.columns) (hasOut : Bool) :
    Written p k db f hasOut (Store.write p db k.text f hasOut) := by
  refine ⟨fun err herr => ?_, fun t ht => ?_⟩
  · simp only [Store.write, k.parseKeyWithSelector_text, herr]
  · simp only [Store.write, k.parseKeyWithSelector_text, ht]
    cases hasOut with
    | false => exact ⟨rfl, fun h => absurd h (by decide)⟩
    | true =>
      have hfits' : k.Fits (Function.update db k.table.text t) := by
        refine ⟨?_, fun h => absurd hns h⟩
        rw [Function.update_self, hf _ _ ht]
        exact hfits.name
      exact ⟨rfl, fun _ => finds_get hns hfits' false⟩

/-- With a namespace, `Get` fails where the table has no column of that name, whether or not it
    is to be found, -/
theorem get_some {ns : Segment p.reserved} (hns : k.ns = some ns)
    (hcolumn : "namespace" ++ ns.text ∉ (db k.table.text).columns) (ignoreNotFound : Bool) :
    ∃ err, Store.get p db k.text ignoreNotFound = (some err, none) := by
  simp only [Store.get, k.parseKeyWithSelector_text, k.selector_some hns]
  exact p.get_bare db k.table.text [k.nameRequirement] (Key.namespaceWord ns) hcolumn ignoreNotFound

/-- and `Delete` fails as well, and deletes nothing. -/
theorem delete_some {ns : Segment p.reserved} (hns : k.ns = some ns)
    (hcolumn : "namespace" ++ ns.text ∉ (db k.table.text).columns) (hasOut : Bool) :
    (Store.delete p db k.text hasOut).err ≠ none ∧ (Store.delete p db k.text hasOut).db = db := by
  obtain ⟨err, herr⟩ := p.get_bare db k.table.text [k.nameRequirement] (Key.namespaceWord ns)
    hcolumn false
  obtain ⟨err', herr'⟩ := p.delete_bare db k.table.text [k.nameRequirement]
    (Key.namespaceWord ns) hcolumn
  simp only [Store.delete, k.parseKeyWithSelector_text, k.selector_some hns, herr, herr']
  cases hasOut with
  | false => exact ⟨Option.some_ne_none _, rfl⟩
  | true => exact ⟨Option.some_ne_none _, rfl⟩

/-- So the row with the name and the namespace of a key is not found. -/
theorem not_serves {ns : Segment p.reserved} (hns : k.ns = some ns) : ¬ Serves p k := by
  intro h
  have hrows : k.rows (k.only ns) = [k.rowIn ns] :=
    List.filter_cons_of_pos (k.addresses_rowIn (by simp [hns]))
  have hfits : k.Fits (k.only ns) :=
    ⟨List.mem_cons_self, fun _ => List.mem_cons_of_mem _ List.mem_cons_self⟩
  have hfound := ((h.get _ hfits false).found (hrows ▸ List.cons_ne_nil _ _)).1
  obtain ⟨err, herr⟩ := get_some hns (k.notMem_columns_only ns) false
  rw [herr] at hfound
  cases hfound

/-- A key is served with the rows it is for exactly if it has no namespace. -/
theorem serves_iff (p : Orm ω) (k : Key p.reserved) : Serves p k ↔ k.ns = none := by
  constructor
  · intro h
    cases hns : k.ns with
    | none => rfl
    | some ns => exact absurd h (not_serves hns)
  · intro hns
    refine ⟨fun db hfits ignoreNotFound => ?_, fun db hfits => deleted_delete hns hfits,
      fun db hfits obj => written_write hns hfits (p.insert_columns obj),
      fun db hfits obj => written_write hns hfits (p.update_columns obj)⟩
    simp only [Store.get, k.parseKeyWithSelector_text]
    exact finds_get hns hfits ignoreNotFound

end Serves

/-- Some row of a table is for two keys. -/
def Shared {reserved : Char → Bool} (k k' : Key reserved) : Prop :=
  k.table.text = k'.table.text ∧ ∃ row, k.addresses row = true ∧ k'.addresses row = true

/-- Two keys without a namespace share no row. -/
theorem not_shared {reserved : Char → Bool} {k k' : Key reserved} (hne : k.text ≠ k'.text)
    (hns : k.ns = none) (hns' : k'.ns = none) : ¬ Shared k k' := by
  rintro ⟨htable, row, hrow, hrow'⟩
  simp only [Key.addresses, decide_eq_true_eq] at hrow hrow'
  have hname : k.name.text = k'.name.text := Option.some.inj (hrow.1.symm.trans hrow'.1)
  refine hne ?_
  rw [Key.text, Key.text, Key.segments, Key.segments, hns, hns', htable, hname]

/-- Two keys are served with the rows they are for, and share none, exactly if they have no
    namespace. -/
theorem keys_iff (p : Orm ω) (k k' : Key p.reserved) (hne : k.text ≠ k'.text) :
    Serves p k ∧ Serves p k' ∧ ¬ Shared k k' ↔ k.ns = none ∧ k'.ns = none := by
  rw [serves_iff, serves_iff]
  exact ⟨fun h => ⟨h.1, h.2.1⟩, fun h => ⟨h.1, h.2, not_shared hne h.1 h.2⟩⟩

/-! ## A database -/

namespace Simple

/-- The characters of selectors that are commas and `=` signs. -/
def reserved (c : Char) : Bool := c == ',' || c == '='

/-- A requirement of a selector, with a value or without. -/
def requirement (s : String) : String × Option String :=
  match Go.cutList '=' s.toList with
  | some (key, value) => (String.ofList key, some (String.ofList value))
  | none => (s, none)

def parse (selector : String) : List (String × Option String) :=
  (Go.split selector ',').map requirement

/-- Whether a row meets what was parsed. -/
def meets (row : Row) (q : String × Option String) : Bool :=
  match q.2 with
  | some value => row.lookup q.1 = some value
  | none => (row.lookup q.1).isSome

/-- The error that a requirement is on no column of the table. -/
def columnError (t : Table) (reqs : List (String × Option String)) : Option Error :=
  (reqs.find? fun q => q.1 ∉ t.columns).map fun q => "no such column: " ++ q.1

def get (db : Database) (table selector : String) (ignoreNotFound : Bool) :
    Option Error × Option Row :=
  match columnError (db table) (parse selector) with
  | some err => (some err, none)
  | none =>
    match (db table).rows.filter fun row => (parse selector).all (meets row) with
    | [] => (if ignoreNotFound then none else some "not found", none)
    | row :: _ => (none, some row)

def delete (db : Database) (table selector : String) : Option Error × Database :=
  match columnError (db table) (parse selector) with
  | some err => (some err, db)
  | none => (none,
      Function.update db table ((db table).remove fun row => (parse selector).all (meets row)))

theorem notMem_of_plain {c : Char} (hc : reserved c = true) (w : Word reserved) :
    c ∉ w.text.toList := fun hmem => absurd (hc.symm.trans (w.plain c hmem)) (by decide)

theorem requirement_text (q : Requirement reserved) :
    requirement q.text = (q.key.text, some q.value.text) := by
  have hcut : Go.cutList '=' q.text.toList = some (q.key.text.toList, q.value.text.toList) := by
    rw [Requirement.text, String.toList_append, String.toList_append, List.append_assoc]
    exact Go.cutList_append (notMem_of_plain rfl q.key) q.value.text.toList
  simp only [requirement, hcut, String.ofList_toList]

/-- A selector is parsed into its requirements and the keys alone. -/
theorem parse_join (reqs : List (Requirement reserved)) (keys : List (Word reserved))
    (hne : reqs.map Requirement.text ++ keys.map Word.text ≠ []) :
    parse (Go.join (reqs.map Requirement.text ++ keys.map Word.text) ",") =
      (reqs.map fun q => (q.key.text, some q.value.text)) ++ keys.map fun w => (w.text, none) := by
  have hsplit : Go.split (Go.join (reqs.map Requirement.text ++ keys.map Word.text) ",") ',' =
      reqs.map Requirement.text ++ keys.map Word.text := by
    refine Go.split_join hne fun s hs => ?_
    rcases List.mem_append.1 hs with hs | hs
    · obtain ⟨q, -, rfl⟩ := List.mem_map.1 hs
      rw [Requirement.text, String.toList_append, String.toList_append, List.mem_append,
        List.mem_append, not_or, not_or]
      exact ⟨⟨notMem_of_plain rfl q.key, by decide⟩, notMem_of_plain rfl q.value⟩
    · obtain ⟨w, -, rfl⟩ := List.mem_map.1 hs
      exact notMem_of_plain rfl w
  rw [parse, hsplit, List.map_append, List.map_map, List.map_map]
  congr 1
  · exact List.map_congr_left fun q _ => requirement_text q
  · refine List.map_congr_left fun w _ => ?_
    have hcut := Go.cutList_of_notMem (notMem_of_plain (c := '=') rfl w)
    simp only [Function.comp_apply, requirement, hcut]

theorem parse_equals {reqs : List (Requirement reserved)} (hne : reqs ≠ []) :
    parse (Go.join (reqs.map Requirement.text) ",") =
      reqs.map fun q => (q.key.text, some q.value.text) := by
  have h := parse_join reqs [] (by simpa using hne)
  simpa using h

theorem columnError_equals {t : Table} {reqs : List (Requirement reserved)}
    (h : ∀ q ∈ reqs, q.key.text ∈ t.columns) :
    columnError t (reqs.map fun q => (q.key.text, some q.value.text)) = none := by
  rw [columnError, Option.map_eq_none_iff, List.find?_eq_none]
  intro q hq
  obtain ⟨q', hq', rfl⟩ := List.mem_map.1 hq
  simpa using h q' hq'

theorem meets_equals (reqs : List (Requirement reserved)) :
    (fun row => (reqs.map fun q => (q.key.text, some q.value.text)).all (meets row)) =
      Requirement.meets reqs := by
  funext row
  rw [List.all_map]
  rfl

theorem exists_columnError {t : Table} (reqs : List (Requirement reserved)) {key : Word reserved}
    (h : key.text ∉ t.columns) :
    ∃ err, columnError t (parse (Go.join (reqs.map Requirement.text ++ [key.text]) ",")) =
      some err := by
  have hparse := parse_join reqs [key] (by simp)
  rw [List.map_singleton] at hparse
  rw [hparse, ← Option.isSome_iff_exists, columnError, Option.isSome_map, List.find?_isSome]
  exact ⟨(key.text, none), by simp, by simpa using h⟩

end Simple

/-- A database that appends what is inserted, and knows the columns of its tables. -/
def exampleOrm : Orm Row where
  reserved := Simple.reserved
  letters c hc := by
    rw [Simple.reserved, Bool.or_eq_false_iff, beq_eq_false_iff_ne, beq_eq_false_iff_ne]
    constructor <;> rintro rfl <;> exact absurd hc (by decide)
  insert row t := if h : row.keys ⊆ t.columns then
      .ok { t with
        rows := t.rows ++ [row]
        wf := fun r hr => (List.mem_append.1 hr).elim (t.wf r)
          fun hr => List.mem_singleton.1 hr ▸ h }
    else .error "no such column"
  update _ t := .ok t
  get := Simple.get
  delete := Simple.delete
  notFound := "not found"
  insert_columns row t t' h := by
    split_ifs at h
    cases h
    rfl
  update_columns _ _ _ h := by
    cases h
    rfl
  get_equals db table reqs hne hcolumns ignoreNotFound := by
    rw [Simple.get, Simple.parse_equals hne, Simple.columnError_equals hcolumns,
      Simple.meets_equals]
    cases (db table).rows.filter (Requirement.meets reqs) with
    | nil => exact ⟨fun h => absurd rfl h, fun _ => rfl⟩
    | cons row rows =>
      exact ⟨fun _ => ⟨rfl, row, List.mem_cons_self, rfl⟩, fun h => absurd h (List.cons_ne_nil _ _)⟩
  delete_equals db table reqs hne hcolumns := by
    rw [Simple.delete, Simple.parse_equals hne, Simple.columnError_equals hcolumns,
      Simple.meets_equals]
    exact ⟨rfl, fun _ => rfl⟩
  get_bare db table reqs key h ignoreNotFound := by
    obtain ⟨err, herr⟩ := Simple.exists_columnError reqs h
    exact ⟨err, by rw [Simple.get, herr]⟩
  delete_bare db table reqs key h := by
    obtain ⟨err, herr⟩ := Simple.exists_columnError reqs h
    exact ⟨err, by rw [Simple.delete, herr]⟩

/-- A segment of letters. -/
def Orm.segment (p : Orm ω) (s : String) (hne : s ≠ "") (h : s.toList.all Char.isAlpha = true) :
    Segment p.reserved where
  toWord := p.word s hne h
  slash hc := absurd (List.all_eq_true.1 h _ hc) (by decide)

/-- The key of a user, in a namespace or in none. -/
def userKey (p : Orm ω) (ns : Option (Segment p.reserved)) (name : Segment p.reserved) :
    Key p.reserved where
  table := p.segment "users" (by decide) rfl
  ns
  name

/-- Two users are served with their rows. -/
theorem keys_users :
    let tom := userKey exampleOrm none (exampleOrm.segment "tom" (by decide) rfl)
    let tim := userKey exampleOrm none (exampleOrm.segment "tim" (by decide) rfl)
    tom.text ≠ tim.text ∧ Serves exampleOrm tom ∧ Serves exampleOrm tim ∧ ¬ Shared tom tim :=
  ⟨by decide, (keys_iff exampleOrm _ _ (by decide)).2 ⟨rfl, rfl⟩⟩

/-- The row of a user in a namespace is neither found nor deleted. -/
theorem namespace_lost :
    let acme := exampleOrm.segment "acme" (by decide) rfl
    let tom := userKey exampleOrm (some acme) (exampleOrm.segment "tom" (by decide) rfl)
    tom.text = "users/acme/tom" ∧
      parseKeyWithSelector "users/acme/tom" "" = .ok ("users", "name=tom,namespaceacme") ∧
      tom.rows (tom.only acme) = (tom.only acme "users").rows ∧
      (∀ ignoreNotFound, Store.get exampleOrm (tom.only acme) "users/acme/tom" ignoreNotFound =
        (some "no such column: namespaceacme", none)) ∧
      (∀ hasOut,
        (Store.delete exampleOrm (tom.only acme) "users/acme/tom" hasOut).db = tom.only acme) ∧
      ¬ Serves exampleOrm tom := by
  intro acme tom
  have hcolumn := tom.notMem_columns_only acme
  exact ⟨rfl, rfl, List.filter_cons_of_pos (tom.addresses_rowIn (by simp [tom, userKey])),
    fun _ => rfl, fun hasOut => (@delete_some _ _ tom _ acme rfl hcolumn hasOut).2,
    @not_serves _ _ tom acme rfl⟩

end Apiserver.Storage
