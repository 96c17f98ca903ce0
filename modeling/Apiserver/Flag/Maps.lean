import Apiserver.Basic
import Apiserver.Go.Merge
import Apiserver.Go.Sort
import Apiserver.Go.Strings

/-!
# Flags that hold maps

Four flags of `components/cli/flag` fill a map from pairs such as `a=foo,b=bar`, which may also be
given one by one: `MapStringString`, `MapStringBool`, `LangleSeparatedMapStringString` (with `<`
between a key and its value) and `ColonSeparatedMultimapStringString`, whose keys may be given
several values. The first call of `Set` clears the defaults that are in the map. `String` writes
the pairs of the map in order.

The flags differ in the text of a pair and in what becomes of the value that a key already has
(`Kind`).

* `setPairs_eq`: setting a flag puts pairs into its map, which do not depend on the map;
* `setPairs_text`: the pairs that the text of some pairs gives are these pairs;
* `roundTrips_of_lists`, `accumulates_of_runs`: what follows for a flag of a kind;
* `mapFlags_spec`: the text of a map gives it back, and several calls accumulate.
-/

namespace Apiserver.Flag

open Go

/-! ## Setting a map -/

/-- A map with keys that are texts. -/
abbrev Map (α : Type) := AList fun _ : String => α

/-- What the flags have in common. Both the pointer and the map it points to may be nil. -/
structure MapFlag (α : Type) where
  map : Option (Option (Map α)) := none
  /-- Set to true after the first call of `Set`. -/
  initialized : Bool := false

/-- The map that a flag points to. -/
def MapFlag.held {α : Type} (f : MapFlag α) : Option (Map α) := f.map.join

/-- What tells the flags apart. -/
structure Kind (α : Type) where
  /-- What is between a key and its value. -/
  sep : Char
  sep_ne : sep ≠ ','
  /-- The error if there is no map to set. -/
  noTarget : Error
  malformed : Error
  /-- The value of a key, from its text. -/
  parse : String → String → Except Error α
  /-- What becomes of the value of a key when it is set to another. -/
  merge : α → α → α
  assoc : Std.Associative merge

namespace Kind

variable {α : Type} (K : Kind α)

/-- An iteration of the loop of `Set`: a pair is put into the map. -/
def setPair (m : Map α) (s : String) : Except Error (Map α) :=
  match splitN s K.sep 2 with
  | [k, v] => (K.parse (trimSpace k) (trimSpace v)).map (put K.merge m (trimSpace k))
  | _ => .error K.malformed

/-- The loop of `Set`. What was put into the map before an error stays. -/
def setPairs : List String → Map α → Option Error × Map α
  | [], m => (none, m)
  | s :: l, m =>
    if s = "" then setPairs l m
    else match K.setPair m s with
      | .error err => (some err, m)
      | .ok m => setPairs l m

/-- `Set`, by what it does to the map. The defaults are cleared, or a map is made, first. -/
def setWith (run : Map α → Option Error × Map α) (f : MapFlag α) : Option Error × MapFlag α :=
  match f.map with
  | none => (some K.noTarget, f)
  | some m =>
    -- `!m.initialized || *m.Map == nil` makes an empty map.
    let r := run (if f.initialized then m.getD ∅ else ∅)
    (r.1, { map := some (some r.2), initialized := true })

/-- `Set` of the flags that split what they are set to at commas. -/
def set (f : MapFlag α) (value : String) : Option Error × MapFlag α :=
  K.setWith (K.setPairs (split value ',')) f

end Kind

/-! ## The text of a map -/

/-- A pair, as it is written. -/
def render (sep : Char) (k v : String) : String := k ++ String.singleton sep ++ v

/-- `String` of a map: its pairs, written and sorted. -/
def pairsText {α : Type} (sep : Char) (text : α → String) (m : Map α) : String :=
  join (sliceStable id ((pairs m).map fun p => render sep p.1 (text p.2))) ","

/-- `String` of a multimap: its pairs, sorted by their keys and written. -/
def multimapText (sep : Char) (m : Map (List String)) : String :=
  let kvs := (pairs m).flatMap fun p => p.2.map (Prod.mk p.1)
  join ((sliceStable Prod.fst kvs).map fun p => render sep p.1 p.2) ","

/-! ## The flags -/

/-- `MapStringString`. -/
structure MapStringString extends MapFlag String where
  noSplit : Bool := false

namespace MapStringString

def kind : Kind String where
  sep := '='
  sep_ne := by decide
  noTarget := "no target (nil pointer to map[string]string)"
  malformed := "malformed pair, expect string=string"
  parse _ v := .ok v
  merge _ v := v
  assoc := ⟨fun _ _ _ => rfl⟩

/-- `NewMapStringString`. -/
def newMapStringString (m : Option (Option (Map String))) : MapStringString := { map := m }

/-- `NewMapStringStringNoSplit`. -/
def newMapStringStringNoSplit (m : Option (Option (Map String))) : MapStringString :=
  { map := m, noSplit := true }

/-- What `Set` does to the map: with `noSplit`, it takes a single pair. -/
def run (noSplit : Bool) (value : String) (m : Map String) : Option Error × Map String :=
  if !noSplit then kind.setPairs (split value ',') m
  else match kind.setPair m value with
    | .error err => (some err, m)
    | .ok m => (none, m)

/-- `Set`. -/
def set (f : MapStringString) (value : String) : Option Error × MapStringString :=
  let r := kind.setWith (run f.noSplit value) f.toMapFlag
  (r.1, { r.2 with noSplit := f.noSplit })

/-- `String`. -/
def string (f : MapStringString) : String :=
  match f.map with
  | none => ""
  | some m => pairsText '=' id (m.getD ∅)

end MapStringString

/-- `MapStringBool`. -/
abbrev MapStringBool := MapFlag Bool

namespace MapStringBool

def kind (d : Deps) : Kind Bool where
  sep := '='
  sep_ne := by decide
  noTarget := "no target (nil pointer to map[string]bool)"
  malformed := "malformed pair, expect string=bool"
  parse k v := match parseBool v with
    | some boolValue => .ok boolValue
    | none => .error ("invalid value of " ++ k ++ ": " ++ v
        ++ ", err: strconv.ParseBool: parsing " ++ d.quote v ++ ": invalid syntax")
  merge _ v := v
  assoc := ⟨fun _ _ _ => rfl⟩

/-- `NewMapStringBool`. -/
def newMapStringBool (m : Option (Option (Map Bool))) : MapStringBool := { map := m }

/-- `Set`. -/
def set (d : Deps) : MapStringBool → String → Option Error × MapStringBool := (kind d).set

/-- `String`. -/
def string (f : MapStringBool) : String :=
  match f.map with
  | none => ""
  | some m => pairsText '=' toString (m.getD ∅)

end MapStringBool

/-- `LangleSeparatedMapStringString`. -/
abbrev LangleSeparatedMapStringString := MapFlag String

namespace LangleSeparatedMapStringString

def kind : Kind String where
  sep := '<'
  sep_ne := by decide
  noTarget := "no target (nil pointer to map[string]string)"
  malformed := "malformed pair, expect string<string"
  parse _ v := .ok v
  merge _ v := v
  assoc := ⟨fun _ _ _ => rfl⟩

/-- `NewLangleSeparatedMapStringString`. -/
def newLangleSeparatedMapStringString (m : Option (Option (Map String))) :
    LangleSeparatedMapStringString := { map := m }

/-- `Set`. -/
def set : LangleSeparatedMapStringString → String →
    Option Error × LangleSeparatedMapStringString := kind.set

/-- `String`, or `none` for a panic, if the pointer is nil. -/
def string (f : LangleSeparatedMapStringString) : Option String :=
  f.map.map fun m => pairsText '<' id (m.getD ∅)

end LangleSeparatedMapStringString

/-- `ColonSeparatedMultimapStringString`. -/
abbrev ColonSeparatedMultimapStringString := MapFlag (List String)

namespace ColonSeparatedMultimapStringString

def kind : Kind (List String) where
  sep := ':'
  sep_ne := by decide
  noTarget := "no target (nil pointer to map[string][]string)"
  malformed := "malformed pair, expect string:string"
  parse _ v := .ok [v]
  merge vs vs' := vs ++ vs'
  assoc := ⟨List.append_assoc⟩

/-- `NewColonSeparatedMultimapStringString`. -/
def newColonSeparatedMultimapStringString (m : Option (Option (Map (List String)))) :
    ColonSeparatedMultimapStringString := { map := m }

/-- `Set`. -/
def set : ColonSeparatedMultimapStringString → String →
    Option Error × ColonSeparatedMultimapStringString := kind.set

/-- `String`, or `none` for a panic, if the pointer is nil. -/
def string (f : ColonSeparatedMultimapStringString) : Option String :=
  f.map.map fun m => multimapText ':' (m.getD ∅)

end ColonSeparatedMultimapStringString

/-! ## What the flags are for -/

/-- A flag that holds a map: how one is made for a map, which may be nil, and what can be done
    with it. A text is `none` for a panic. -/
structure Interface (F α : Type) where
  new : Option (Map α) → F
  held : F → Option (Map α)
  set : F → String → Option Error × F
  string : F → Option String

namespace Interface

variable {F α : Type} (I : Interface F α)

/-- Setting a fresh flag to the text of a map gives the map, whatever the defaults are. -/
def RoundTrips (Good : Map α → Prop) : Prop :=
  ∀ m defaults, Good m → ∃ text m', I.string (I.new (some m)) = some text ∧
    (I.set (I.new defaults) text).1 = none ∧ I.held (I.set (I.new defaults) text).2 = some m' ∧
    ∀ k, m'.lookup k = m.lookup k

/-- The flag after it has been set to some values. -/
def setAll (f : F) (values : List String) : F := values.foldl (fun f value => (I.set f value).2) f

/-- What a value by itself sets a key to. -/
def only (value k : String) : Option α := (I.held (I.set (I.new none) value).2).bind (·.lookup k)

/-- Setting a flag several times merges what the values set by themselves. Nothing is left of
    the defaults. -/
def Accumulates (merge : α → α → α) : Prop :=
  ∀ defaults values, values ≠ [] → ∃ m, I.held (I.setAll (I.new defaults) values) = some m ∧
    ∀ k, m.lookup k = values.foldl (fun o value => Option.merge merge o (I.only value k)) none

end Interface

def mapStringString : Interface MapStringString String where
  new m := .newMapStringString (some m)
  held f := f.held
  set := MapStringString.set
  string f := some f.string

def mapStringStringNoSplit : Interface MapStringString String where
  new m := .newMapStringStringNoSplit (some m)
  held f := f.held
  set := MapStringString.set
  string f := some f.string

def mapStringBool (d : Deps) : Interface MapStringBool Bool where
  new m := MapStringBool.newMapStringBool (some m)
  held := MapFlag.held
  set := MapStringBool.set d
  string f := some (MapStringBool.string f)

def langleSeparatedMapStringString : Interface LangleSeparatedMapStringString String where
  new m := LangleSeparatedMapStringString.newLangleSeparatedMapStringString (some m)
  held := MapFlag.held
  set := LangleSeparatedMapStringString.set
  string := LangleSeparatedMapStringString.string

def colonSeparatedMultimapStringString :
    Interface ColonSeparatedMultimapStringString (List String) where
  new m := ColonSeparatedMultimapStringString.newColonSeparatedMultimapStringString (some m)
  held := MapFlag.held
  set := ColonSeparatedMultimapStringString.set
  string := ColonSeparatedMultimapStringString.string

/-- A text that is not empty, without surrounding white space and without what separates keys,
    values and pairs. -/
structure Word (sep : Char) (s : String) : Prop where
  ne_empty : s ≠ ""
  trimmed : trimSpace s = s
  noComma : ',' ∉ s.toList
  noSep : sep ∉ s.toList

/-! ## Pairs -/

namespace Kind

variable {α γ : Type} {K : Kind α}

theorem setPair_cases (K : Kind α) (s : String) :
    (∃ err, ∀ m, K.setPair m s = .error err) ∨
      ∃ k a, ∀ m, K.setPair m s = .ok (put K.merge m k a) := by
  unfold setPair
  split
  case h_1 k v _ =>
    cases K.parse (trimSpace k) (trimSpace v) with
    | error err => exact .inl ⟨err, fun _ => rfl⟩
    | ok a => exact .inr ⟨trimSpace k, a, fun _ => rfl⟩
  case h_2 => exact .inl ⟨K.malformed, fun _ => rfl⟩

/-- What is done to a map is to put pairs into it, whatever the map is. -/
def Runs (K : Kind α) (run : Map α → Option Error × Map α) : Prop :=
  ∃ err l, ∀ m, run m = (err, putAll K.merge m l)

/-- A list of texts does the same to every map: it puts pairs into it. -/
theorem setPairs_eq (K : Kind α) (l : List String) : K.Runs (K.setPairs l) := by
  induction l with
  | nil => exact ⟨none, [], fun _ => rfl⟩
  | cons s l ih =>
    obtain ⟨err, ps, hps⟩ := ih
    by_cases hs : s = ""
    · refine ⟨err, ps, fun m => ?_⟩
      rw [setPairs, if_pos hs, hps]
    · rcases K.setPair_cases s with ⟨err', hpair⟩ | ⟨k, a, hpair⟩
      · -- The loop ends at an error: what the rest gives is not put in.
        refine ⟨some err', [], fun m => ?_⟩
        rw [setPairs, if_neg hs, hpair]
        rfl
      · refine ⟨err, (k, a) :: ps, fun m => ?_⟩
        rw [setPairs, if_neg hs, hpair]
        exact hps _

theorem setPair_render {k v : String} (hk : Word K.sep k) (hv : Word K.sep v) (m : Map α) :
    K.setPair m (render K.sep k v) = (K.parse k v).map (put K.merge m k) := by
  rw [setPair, render, splitN_two_append hk.noSep]
  dsimp only
  rw [hk.trimmed, hv.trimmed]

theorem render_ne_empty (sep : Char) (k v : String) : render sep k v ≠ "" := by
  intro h
  have hlist := congrArg String.toList h
  simp [render] at hlist

theorem notMem_render {k v : String} (hk : Word K.sep k) (hv : Word K.sep v) :
    ',' ∉ (render K.sep k v).toList := by
  simp [render, hk.noComma, hv.noComma, Ne.symm K.sep_ne]

/-- Setting a flag to the text of some pairs puts these pairs into the map. -/
theorem setPairs_text {text : γ → String} {val : γ → α} {l : List (String × γ)}
    (hword : ∀ p ∈ l, Word K.sep p.1 ∧ Word K.sep (text p.2))
    (hparse : ∀ p ∈ l, K.parse p.1 (text p.2) = .ok (val p.2)) (m : Map α) :
    K.setPairs (split (join (l.map fun p => render K.sep p.1 (text p.2)) ",") ',') m =
      (none, putAll K.merge m (l.map fun p => (p.1, val p.2))) := by
  have hpairs : ∀ m, K.setPairs (l.map fun p => render K.sep p.1 (text p.2)) m =
      (none, putAll K.merge m (l.map fun p => (p.1, val p.2))) := by
    clear m
    induction l with
    | nil => exact fun _ => rfl
    | cons p l ih =>
      intro m
      obtain ⟨hk, hv⟩ := hword p List.mem_cons_self
      rw [List.map_cons, setPairs, if_neg (render_ne_empty _ _ _), setPair_render hk hv,
        hparse p List.mem_cons_self]
      exact ih (fun q hq => hword q (List.mem_cons_of_mem _ hq))
        (fun q hq => hparse q (List.mem_cons_of_mem _ hq)) _
  by_cases hnil : l = []
  · -- The empty text is split into one part, which is skipped.
    subst hnil
    rfl
  · have hsplit : split (join (l.map fun p => render K.sep p.1 (text p.2)) ",") ',' =
        l.map fun p => render K.sep p.1 (text p.2) := by
      refine split_join (by simpa using hnil) fun s hs => ?_
      obtain ⟨p, hp, rfl⟩ := List.mem_map.1 hs
      exact notMem_render (hword p hp).1 (hword p hp).2
    rw [hsplit, hpairs]

/-- Setting a fresh flag to the text of a list of a map gives the map. -/
theorem setPairs_lists (K : Kind α) (text : γ → String) (val : γ → α) {items : α → List γ}
    {m : Map α} {l : List (String × γ)} (hl : Lists items m l)
    (hword : ∀ k a, m.lookup k = some a → Word K.sep k ∧ ∀ c ∈ items a, Word K.sep (text c))
    (hparse : ∀ k c, K.parse k (text c) = .ok (val c))
    (hval : ∀ k a, m.lookup k = some a →
      (items a).foldl (fun o c => Option.merge K.merge o (some (val c))) none = some a) :
    ∃ m', K.setPairs (split (join (l.map fun p => render K.sep p.1 (text p.2)) ",") ',') ∅ =
      (none, m') ∧ ∀ k, m'.lookup k = m.lookup k := by
  refine ⟨_, setPairs_text (fun p hp => ?_) (fun p _ => hparse p.1 p.2) ∅,
    lookup_putAll_of_lists hl hval⟩
  obtain ⟨a, ha, hc⟩ := mem_of_lists hl hp
  obtain ⟨hk, hitems⟩ := hword p.1 a ha
  exact ⟨hk, hitems p.2 hc⟩

/-- The text of a map is that of its pairs, in some order. -/
theorem exists_perm_pairsText (sep : Char) (text : α → String) (m : Map α) :
    ∃ l : List (String × α), l.Perm (pairs m) ∧
      pairsText sep text m = join (l.map fun p => render sep p.1 (text p.2)) "," := by
  refine ⟨sliceStable (fun p => render sep p.1 (text p.2)) (pairs m),
    (sliceStable_isSortOf _ _).perm, ?_⟩
  rw [pairsText, sliceStable, sliceStable]
  refine congrArg (join · ",") (List.map_insertionSort _ _ _ _ fun a _ b _ => ?_).symm
  rfl

/-- The text of a map is read back pair by pair. -/
theorem setPairs_pairsText {text : α → String} {m : Map α}
    (hword : ∀ k a, m.lookup k = some a → Word K.sep k ∧ Word K.sep (text a))
    (hparse : ∀ k a, K.parse k (text a) = .ok a) :
    ∃ m', K.setPairs (split (pairsText K.sep text m) ',') ∅ = (none, m') ∧
      ∀ k, m'.lookup k = m.lookup k := by
  obtain ⟨l, hperm, htext⟩ := exists_perm_pairsText K.sep text m
  rw [htext]
  refine K.setPairs_lists text id (lists_of_perm hperm) (fun k a ha => ?_) hparse
    fun k a _ => rfl
  obtain ⟨hk, htext⟩ := hword k a ha
  exact ⟨hk, fun c hc => by rwa [List.mem_singleton.1 hc]⟩

/-- The values of a key in a multimap stay in their order when all pairs are sorted. -/
theorem lists_sliceStable (m : Map (List String)) :
    Lists id m (sliceStable Prod.fst ((pairs m).flatMap fun p => p.2.map (Prod.mk p.1))) := by
  intro k
  rw [(sliceStable_isStableSortOf Prod.fst _).stable k]
  exact lists_flatMap id m k

/-- A fresh flag is set to what the pairs of a text make of an empty map. -/
theorem set_fresh {text : String} {m : Map α} (defaults : Option (Map α))
    (h : K.setPairs (split text ',') ∅ = (none, m)) :
    K.set { map := some defaults } text =
      (none, { map := some (some m), initialized := true }) := by
  rw [set, setWith]
  simp only [Bool.false_eq_true, if_false, h]

end Kind

/-- Values that are appended one by one. -/
theorem foldl_merge_append (vs acc : List String) :
    vs.foldl (fun o v => Option.merge (· ++ ·) o (some [v])) (some acc) = some (acc ++ vs) := by
  induction vs generalizing acc with
  | nil => simp
  | cons v vs ih =>
    rw [List.foldl_cons, Option.merge, ih, List.append_assoc]
    rfl

/-! ## Several calls -/

section Accumulates

variable {α : Type} {K : Kind α} {run : String → Map α → Option Error × Map α}

/-- Calls on a flag that has been set merge what they set with what it holds. -/
theorem held_foldl_setWith (hrun : ∀ value, K.Runs (run value)) (values : List String)
    (m : Map α) :
    ∃ m', (values.foldl (fun f value => (K.setWith (run value) f).2)
        { map := some (some m), initialized := true }).held = some m' ∧
      ∀ k, m'.lookup k = values.foldl
        (fun o value => Option.merge K.merge o ((run value ∅).2.lookup k)) (m.lookup k) := by
  induction values generalizing m with
  | nil => exact ⟨m, rfl, fun _ => rfl⟩
  | cons value values ih =>
    obtain ⟨err, l, hl⟩ := hrun value
    obtain ⟨m', hm', hlookup⟩ := ih (run value m).2
    refine ⟨m', hm', fun k => ?_⟩
    have := K.assoc
    rw [hlookup, List.foldl_cons, hl, hl, lookup_putAll_merge]

/-- The first call clears the defaults, and the others add to what it set. -/
theorem accumulates_of_runs (hrun : ∀ value, K.Runs (run value)) (defaults : Option (Map α))
    {values : List String} (hvalues : values ≠ []) :
    ∃ m', (values.foldl (fun f value => (K.setWith (run value) f).2)
        { map := some defaults }).held = some m' ∧
      ∀ k, m'.lookup k = values.foldl
        (fun o value => Option.merge K.merge o ((run value ∅).2.lookup k)) none := by
  obtain ⟨value, values, rfl⟩ := List.exists_cons_of_ne_nil hvalues
  -- The flag is not initialized, so the first call puts its pairs into an empty map.
  obtain ⟨m', hm', hlookup⟩ := held_foldl_setWith hrun values (run value ∅).2
  refine ⟨m', hm', fun k => ?_⟩
  rw [hlookup, List.foldl_cons]
  cases (run value ∅).2.lookup k <;> rfl

end Accumulates

theorem MapStringString.toMapFlag_setAll (f : MapStringString) (values : List String) :
    (values.foldl (fun f value => (f.set value).2) f).toMapFlag =
      values.foldl (fun g value => (kind.setWith (run f.noSplit value) g).2) f.toMapFlag := by
  induction values generalizing f with
  | nil => rfl
  | cons value values ih =>
    rw [List.foldl_cons, ih]
    rfl

theorem MapStringString.runs (noSplit : Bool) (value : String) :
    kind.Runs (run noSplit value) := by
  cases noSplit with
  | false => exact kind.setPairs_eq _
  | true =>
    rcases kind.setPair_cases value with ⟨err, hpair⟩ | ⟨k, a, hpair⟩
    · refine ⟨some err, [], fun m => ?_⟩
      simp only [run, hpair]
      rfl
    · refine ⟨none, [(k, a)], fun m => ?_⟩
      simp only [run, hpair]
      rfl

/-! ## The flags do what they are for -/

/-- A flag that is set as one of a kind holds the map of a text that gives the map. -/
theorem Interface.roundTrips_of_kind {F α : Type} {I : Interface F α} {K : Kind α}
    {Good : Map α → Prop}
    (hset : ∀ defaults text,
      (I.set (I.new defaults) text).1 = (K.set { map := some defaults } text).1 ∧
      I.held (I.set (I.new defaults) text).2 = (K.set { map := some defaults } text).2.held)
    (htext : ∀ m, Good m → ∃ text, I.string (I.new (some m)) = some text ∧
      ∃ m', K.setPairs (split text ',') ∅ = (none, m') ∧ ∀ k, m'.lookup k = m.lookup k) :
    I.RoundTrips Good := by
  intro m defaults hm
  obtain ⟨text, hstring, m', hpairs, hlookup⟩ := htext m hm
  obtain ⟨herr, hheld⟩ := hset defaults text
  rw [K.set_fresh defaults hpairs] at herr hheld
  exact ⟨text, m', hstring, herr, hheld, hlookup⟩

theorem mapStringString_roundTrips : mapStringString.RoundTrips fun m =>
    ∀ k v, m.lookup k = some v → Word '=' k ∧ Word '=' v :=
  Interface.roundTrips_of_kind (K := MapStringString.kind) (fun _ _ => ⟨rfl, rfl⟩)
    fun _ hword => ⟨_, rfl, MapStringString.kind.setPairs_pairsText hword fun _ _ => rfl⟩

theorem langleSeparatedMapStringString_roundTrips :
    langleSeparatedMapStringString.RoundTrips fun m =>
      ∀ k v, m.lookup k = some v → Word '<' k ∧ Word '<' v :=
  Interface.roundTrips_of_kind (K := LangleSeparatedMapStringString.kind) (fun _ _ => ⟨rfl, rfl⟩)
    fun _ hword =>
      ⟨_, rfl, LangleSeparatedMapStringString.kind.setPairs_pairsText hword fun _ _ => rfl⟩

/-- Maps of booleans are read back, -/
theorem mapStringBool_roundTrips (d : Deps) : (mapStringBool d).RoundTrips fun m =>
    ∀ k b, m.lookup k = some b → Word '=' k := by
  have htext (b : Bool) : Word '=' (toString b) := by
    cases b <;> exact ⟨by decide, by decide, by decide, by decide⟩
  have hparse (k : String) (b : Bool) : (MapStringBool.kind d).parse k (toString b) = .ok b := by
    cases b <;> rfl
  exact Interface.roundTrips_of_kind (K := MapStringBool.kind d) (fun _ _ => ⟨rfl, rfl⟩)
    fun _ hword => ⟨_, rfl, (MapStringBool.kind d).setPairs_pairsText
      (fun k b hb => ⟨hword k b hb, htext b⟩) hparse⟩

/-- and so are multimaps. -/
theorem colonSeparatedMultimapStringString_roundTrips :
    colonSeparatedMultimapStringString.RoundTrips fun m =>
      ∀ k vs, m.lookup k = some vs → Word ':' k ∧ vs ≠ [] ∧ ∀ v ∈ vs, Word ':' v := by
  refine Interface.roundTrips_of_kind (K := ColonSeparatedMultimapStringString.kind)
    (fun _ _ => ⟨rfl, rfl⟩) fun m hword => ⟨_, rfl, ?_⟩
  refine ColonSeparatedMultimapStringString.kind.setPairs_lists id (fun v => [v])
    (Kind.lists_sliceStable m) (fun k vs hvs => ?_) (fun _ _ => rfl) fun k vs hvs => ?_
  · obtain ⟨hk, -, hvs⟩ := hword k vs hvs
    exact ⟨hk, hvs⟩
  · obtain ⟨v, vs, rfl⟩ := List.exists_cons_of_ne_nil (hword k vs hvs).2.1
    exact foldl_merge_append vs [v]

/-- The first value replaces the defaults, and the others are merged in. -/
theorem accumulates_mapStringString (noSplit : Bool) (defaults : Option (Map String))
    {values : List String} (hvalues : values ≠ []) :
    ∃ m, (values.foldl (fun f value => (f.set value).2)
        { map := some defaults, noSplit : MapStringString }).held = some m ∧
      ∀ k, m.lookup k = values.foldl (fun o value => Option.merge (fun _ v => v) o
        ((MapStringString.run noSplit value ∅).2.lookup k)) none := by
  rw [MapStringString.toMapFlag_setAll]
  exact accumulates_of_runs (MapStringString.runs noSplit) defaults hvalues

/-- The text of a map gives it back, and setting a flag several times accumulates. -/
theorem mapFlags_spec (d : Deps) :
    ((mapStringString.RoundTrips fun m =>
        ∀ k v, m.lookup k = some v → Word '=' k ∧ Word '=' v) ∧
      mapStringString.Accumulates (fun _ v => v) ∧
      mapStringStringNoSplit.Accumulates (fun _ v => v)) ∧
    (((mapStringBool d).RoundTrips fun m => ∀ k b, m.lookup k = some b → Word '=' k) ∧
      (mapStringBool d).Accumulates (fun _ b => b)) ∧
    ((langleSeparatedMapStringString.RoundTrips fun m =>
        ∀ k v, m.lookup k = some v → Word '<' k ∧ Word '<' v) ∧
      langleSeparatedMapStringString.Accumulates (fun _ v => v)) ∧
    ((colonSeparatedMultimapStringString.RoundTrips fun m =>
        ∀ k vs, m.lookup k = some vs → Word ':' k ∧ vs ≠ [] ∧ ∀ v ∈ vs, Word ':' v) ∧
      colonSeparatedMultimapStringString.Accumulates (· ++ ·)) := by
  refine ⟨⟨mapStringString_roundTrips, ?_, ?_⟩, ⟨mapStringBool_roundTrips d, ?_⟩,
    ⟨langleSeparatedMapStringString_roundTrips, ?_⟩,
    colonSeparatedMultimapStringString_roundTrips, ?_⟩
  · exact fun defaults values hvalues => accumulates_mapStringString false defaults hvalues
  · exact fun defaults values hvalues => accumulates_mapStringString true defaults hvalues
  · exact fun defaults values hvalues => accumulates_of_runs
      (fun _ => (MapStringBool.kind d).setPairs_eq _) defaults hvalues
  · exact fun defaults values hvalues => accumulates_of_runs
      (fun _ => LangleSeparatedMapStringString.kind.setPairs_eq _) defaults hvalues
  · exact fun defaults values hvalues => accumulates_of_runs
      (fun _ => ColonSeparatedMultimapStringString.kind.setPairs_eq _) defaults hvalues

/-- A multimap with two values for a key. -/
def greetings : Map (List String) :=
  (AList.singleton "b" ["again", "beautiful"]).insert "a" ["hello"]

example : multimapText ':' greetings = "a:hello,b:again,b:beautiful" := by decide

theorem pairs_greetings :
    pairs greetings = [("a", ["hello"]), ("b", ["again", "beautiful"])] := rfl

theorem word_greetings : ∀ s ∈ ["a", "b", "hello", "again", "beautiful"], Word ':' s := by
  intro s hs
  simp only [List.mem_cons, List.not_mem_nil, or_false] at hs
  rcases hs with rfl | rfl | rfl | rfl | rfl <;>
    exact ⟨by decide, by decide, by decide, by decide⟩

theorem mapFlags_greetings :
    ∃ text m', colonSeparatedMultimapStringString.string
        (colonSeparatedMultimapStringString.new (some greetings)) = some text ∧
      (colonSeparatedMultimapStringString.set
        (colonSeparatedMultimapStringString.new none) text).1 = none ∧
      colonSeparatedMultimapStringString.held (colonSeparatedMultimapStringString.set
        (colonSeparatedMultimapStringString.new none) text).2 = some m' ∧
      ∀ k, m'.lookup k = greetings.lookup k := by
  refine (mapFlags_spec .plain).2.2.2.1 greetings none fun k vs h => ?_
  have hmem : (k, vs) ∈ pairs greetings := mem_pairs.2 h
  simp only [pairs_greetings, List.mem_cons, Prod.mk.injEq, List.not_mem_nil, or_false] at hmem
  rcases hmem with ⟨rfl, rfl⟩ | ⟨rfl, rfl⟩
  · exact ⟨word_greetings _ (by simp), by simp, fun v hv => word_greetings v (by simp_all)⟩
  · refine ⟨word_greetings _ (by simp), by simp, fun v hv => word_greetings v ?_⟩
    simp only [List.mem_cons] at hv ⊢
    tauto

end Apiserver.Flag
