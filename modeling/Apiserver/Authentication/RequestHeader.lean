import Apiserver.Authentication.Request

/-!
# Identities in request headers

A proxy in front of the server authenticates users itself and passes on who they
are in the headers of the request (`pkg/authentication/request/headerrequest`):
one with the name, some with groups, and some with a prefix for anything else,
the key of which is the rest of the header's name, escaped. The headers are
deleted when they have been used. A header with a prefix is deleted under the
name made of the prefix and its key, so once it has been unescaped.

* `mem_newExtra_iff`: the keys that are collected, over all prefixes and headers;
* `mem_clear_iff`: the headers that are left;
* `canonical_extraKey`: prefix and key are the name of the header again, if there
  is nothing in it to unescape;
* `forwarded_clean_iff`: the identity is gone from the request exactly when the
  headers with something to unescape are deleted under the key of another, or as
  one with a name or a group. `proxied_escaped_not_clean` has a header that is left.
-/

namespace Apiserver.Authentication

open Go

/-- The name is one `net/http` has in the header of a request. -/
structure Canonical (k : String) : Prop where
  token : k.toList.all isTokenChar = true
  canonical : canonicalMIMEHeaderKey k = k

instance (k : String) : Decidable (Canonical k) :=
  decidable_of_iff (k.toList.all isTokenChar = true ∧ canonicalMIMEHeaderKey k = k)
    ⟨fun h => ⟨h.1, h.2⟩, fun h => ⟨h.1, h.2⟩⟩

/-- `requestHeaderAuthRequestHandler`, with the values its providers have. -/
structure RequestHeader where
  nameHeaders : List String
  groupHeaders : List String
  extraHeaderPrefixes : List String

namespace RequestHeader

/-- `trimHeaders`. -/
def trimHeaders (d : Deps) (headerNames : List String) : Except Error (List String) :=
  headerNames.mapM fun headerName =>
    if trimSpace headerName = "" then .error ("empty header " ++ d.quote headerName)
    else .ok (trimSpace headerName)

/-- `New`. -/
def new (d : Deps) (nameHeaders groupHeaders extraHeaderPrefixes : List String) :
    Except Error RequestHeader := do
  return {
    nameHeaders := ← trimHeaders d nameHeaders
    groupHeaders := ← trimHeaders d groupHeaders
    extraHeaderPrefixes := ← trimHeaders d extraHeaderPrefixes }

/-! ## Reading the headers -/

/-- `headerValue`. -/
def headerValue (h : Header) : List String → String
  | [] => ""
  | headerName :: l => if h.get headerName ≠ "" then h.get headerName else headerValue h l

/-- `allHeaderValues`. -/
def allHeaderValues (h : Header) (headerNames : List String) : List String :=
  headerNames.flatMap fun headerName => (h.values headerName).filter (· ≠ "")

/-- `unescapeExtraKey`. -/
def unescapeExtraKey (encodedKey : String) : String :=
  match pathUnescape encodedKey.toList with
  | some key => String.ofList key
  | none => encodedKey

/-- The header has the prefix, in any case. -/
def hasExtraPrefix (headerPrefix headerName : String) : Bool :=
  hasPrefix (toLowerASCII headerName) (toLowerASCII headerPrefix)

/-- The name of a header from the length of the prefix on. The length is one in
    bytes, and the characters of a header are bytes. -/
def rest (headerPrefix headerName : String) : List Char :=
  headerName.toList.drop headerPrefix.utf8ByteSize

/-- The key of a header with the prefix. -/
def extraKey (headerPrefix headerName : String) : String :=
  unescapeExtraKey (toLowerASCII (String.ofList (rest headerPrefix headerName)))

/-- The name of the header is shorter than the prefix, so that cutting it off
    panics. This takes a prefix with a character that is shorter in lower case. -/
def tooShort (headerPrefix headerName : String) : Bool :=
  headerName.toList.length < headerPrefix.utf8ByteSize

/-- The body of the loops in `newExtra`; `none` if it panics. -/
def addExtra (headerPrefix : String) (ret : Header) (e : Sigma fun _ : String => List String) :
    Option Header :=
  if !hasExtraPrefix headerPrefix e.1 then some ret
  else if tooShort headerPrefix e.1 then none
  else
    let key := extraKey headerPrefix e.1
    some (ret.insert key (ret.index key ++ e.2))

/-- `newExtra`. -/
def newExtra (h : Header) (headerPrefixes : List String) : Option Header :=
  headerPrefixes.foldlM (fun ret headerPrefix => h.entries.foldlM (addExtra headerPrefix) ret) ∅

variable (a : RequestHeader)

/-- The headers used for authentication are cleared. -/
def clear (h : Header) (extra : Header) : Header :=
  let h := a.nameHeaders.foldl Header.del h
  let h := a.groupHeaders.foldl Header.del h
  extra.keys.foldl (fun h k => a.extraHeaderPrefixes.foldl (fun h p => h.del (p ++ k)) h) h

/-- `AuthenticateRequest`. -/
def authenticateRequest : Authenticator := fun req =>
  let name := headerValue req.header a.nameHeaders
  if name = "" then absent req
  else match newExtra req.header a.extraHeaderPrefixes with
    | none => { panicked := true, header := req.header }
    | some extra =>
      { response := some
          { user := some
              { name, groups := allHeaderValues req.header a.groupHeaders, extra } }
        ok := true
        header := a.clear req.header extra }

/-! ## The keys that are collected -/

section Collect

variable {α : Type} {f : Header → α → Option Header} {P : α → String → Prop}

/-- What each step of a loop adds to a map, the loop adds. -/
theorem mem_foldlM_iff
    (hf : ∀ ret x ret', f ret x = some ret' → ∀ key, key ∈ ret' ↔ key ∈ ret ∨ P x key)
    {l : List α} {ret ret' : Header} (h : l.foldlM f ret = some ret') (key : String) :
    key ∈ ret' ↔ key ∈ ret ∨ ∃ x ∈ l, P x key := by
  induction l generalizing ret with
  | nil =>
    cases h
    simp
  | cons x l ih =>
    rw [List.foldlM_cons, Option.bind_eq_bind, Option.bind_eq_some_iff] at h
    obtain ⟨ret₁, hx, hl⟩ := h
    rw [ih hl, hf _ _ _ hx, or_assoc]
    simp only [List.mem_cons, exists_eq_or_imp]

/-- A loop fails if one of its steps does, whatever it is given. -/
theorem foldlM_ne_none_iff {Q : α → Prop} (hf : ∀ ret x, f ret x ≠ none ↔ Q x) {l : List α}
    {ret : Header} : l.foldlM f ret ≠ none ↔ ∀ x ∈ l, Q x := by
  induction l generalizing ret with
  | nil => simp
  | cons x l ih =>
    rw [List.foldlM_cons, Option.bind_eq_bind, List.forall_mem_cons, ← hf ret x]
    cases f ret x with
    | none => simp
    | some ret₁ => simpa using ih

end Collect

/-- A header of the request with extra values, under the prefix. -/
structure ExtraAt (h : Header) (p k : String) : Prop where
  configured : p ∈ a.extraHeaderPrefixes
  mem : k ∈ h
  hasPrefix : hasExtraPrefix p k = true

theorem mem_addExtra_iff (p : String) (ret : Header) (e : Sigma fun _ : String => List String)
    (ret' : Header) (h : addExtra p ret e = some ret') (key : String) :
    key ∈ ret' ↔ key ∈ ret ∨ (hasExtraPrefix p e.1 = true ∧ extraKey p e.1 = key) := by
  rw [addExtra] at h
  split_ifs at h with hp hshort
  · cases h
    simp_all
  · cases h
    rw [AList.mem_insert, or_comm, eq_comm]
    simp_all

theorem addExtra_ne_none_iff (p : String) (ret : Header) (e : Sigma fun _ : String => List String) :
    addExtra p ret e ≠ none ↔ (hasExtraPrefix p e.1 = true → tooShort p e.1 = false) := by
  rw [addExtra]
  split_ifs <;> simp_all

theorem exists_mem_entries_iff {h : Header} {P : String → Prop} :
    (∃ e ∈ h.entries, P e.1) ↔ ∃ k ∈ h, P k := by
  simp only [AList.mem_keys, AList.keys, List.keys, List.mem_map]
  constructor
  · rintro ⟨e, he, hp⟩
    exact ⟨e.1, ⟨e, he, rfl⟩, hp⟩
  · rintro ⟨_, ⟨e, he, rfl⟩, hp⟩
    exact ⟨e, he, hp⟩

variable {a}

/-- The keys of the extra values. -/
theorem mem_newExtra_iff {h extra : Header} (hextra : newExtra h a.extraHeaderPrefixes = some extra)
    (key : String) : key ∈ extra ↔ ∃ p k, a.ExtraAt h p k ∧ extraKey p k = key := by
  have hstep (ret : Header) (p : String) (ret' : Header)
      (hp : h.entries.foldlM (addExtra p) ret = some ret') (key : String) :
      key ∈ ret' ↔ key ∈ ret ∨ ∃ k ∈ h, hasExtraPrefix p k = true ∧ extraKey p k = key := by
    rw [mem_foldlM_iff (mem_addExtra_iff p) hp,
      exists_mem_entries_iff (P := fun k => hasExtraPrefix p k = true ∧ extraKey p k = key)]
  rw [newExtra] at hextra
  rw [mem_foldlM_iff hstep hextra]
  constructor
  · rintro (hk | ⟨p, hp, k, hk, hpk, hkey⟩)
    · exact absurd hk (AList.notMem_empty _)
    · exact ⟨p, k, ⟨hp, hk, hpk⟩, hkey⟩
  · rintro ⟨p, k, ⟨hp, hk, hpk⟩, hkey⟩
    exact .inr ⟨p, hp, k, hk, hpk, hkey⟩

/-- Slicing a key panics if it is shorter than its prefix. -/
theorem newExtra_ne_none_iff {h : Header} :
    newExtra h a.extraHeaderPrefixes ≠ none ↔ ∀ p k, a.ExtraAt h p k → tooShort p k = false := by
  have hstep (ret : Header) (p : String) : h.entries.foldlM (addExtra p) ret ≠ none ↔
      ∀ e ∈ h.entries, hasExtraPrefix p e.1 = true → tooShort p e.1 = false :=
    foldlM_ne_none_iff (addExtra_ne_none_iff p)
  rw [newExtra, foldlM_ne_none_iff hstep]
  constructor
  · intro hall p k hk
    obtain ⟨e, he, rfl⟩ := (exists_mem_entries_iff (P := (· = k))).2 ⟨k, hk.mem, rfl⟩
    exact hall p hk.configured e he hk.hasPrefix
  · intro hall p hp e he hpe
    obtain ⟨k, hk, rfl⟩ := (exists_mem_entries_iff (P := (e.1 = ·))).1 ⟨e, he, rfl⟩
    exact hall p e.1 ⟨hp, hk, hpe⟩

/-! ## The headers that are left -/

variable (a) in
/-- The name is that of a header with a user name or a group. -/
def Named (k : String) : Prop :=
  ∃ n ∈ a.nameHeaders ++ a.groupHeaders, k = canonicalMIMEHeaderKey n

/-- The headers that are left. -/
theorem mem_clear_iff {h extra : Header} {k : String} :
    k ∈ a.clear h extra ↔ k ∈ h ∧ ¬ a.Named k ∧
      ∀ key ∈ extra, ∀ p ∈ a.extraHeaderPrefixes, k ≠ canonicalMIMEHeaderKey (p ++ key) := by
  have hextra (h' : Header) :
      extra.keys.foldl (fun h k => a.extraHeaderPrefixes.foldl (fun h p => h.del (p ++ k)) h) h' =
        (extra.keys.flatMap fun k => a.extraHeaderPrefixes.map (· ++ k)).foldl Header.del h' := by
    simp only [List.foldl_flatMap, List.foldl_map]
  rw [clear, hextra, Header.mem_foldl_del, ← List.foldl_append, Header.mem_foldl_del, and_assoc,
    Named]
  simp only [List.forall_mem_flatMap, List.forall_mem_map, AList.mem_keys, not_exists, not_and,
    ne_eq]

theorem notMem_clear {h extra : Header} {n : String} (hn : n ∈ a.nameHeaders ++ a.groupHeaders) :
    canonicalMIMEHeaderKey n ∉ a.clear h extra := fun hmem =>
  (mem_clear_iff.1 hmem).2.1 ⟨n, hn, rfl⟩

/-- A successful request has a name and its extra values can be read. -/
theorem authenticateRequest_ok_iff {req : HttpRequest} :
    (a.authenticateRequest req).ok = true ↔ headerValue req.header a.nameHeaders ≠ "" ∧
      ∃ extra, newExtra req.header a.extraHeaderPrefixes = some extra ∧
        (a.authenticateRequest req).header = a.clear req.header extra := by
  rw [authenticateRequest]
  split_ifs with hname
  · simp [absent, hname]
  · cases newExtra req.header a.extraHeaderPrefixes with
    | none => simp
    | some extra => simp [hname]

/-! ## The name of a header from its key -/

/-- What lower case does to the characters of a name. -/
theorem lower_of_isTokenChar {c : Char} (h : isTokenChar c = true) :
    lowerRune c = c.toLower ∧ c.toLower.toLower = c.toLower ∧ (c.toLower = '%' → c = '%') ∧
      c.utf8Size = 1 := by
  obtain ⟨n, rfl⟩ := exists_of_isTokenChar h
  clear h
  revert n
  decide

variable {l : List Char}

theorem map_lowerRune (h : l.all isTokenChar = true) :
    l.map lowerRune = l.map Char.toLower :=
  List.map_congr_left fun c hc => (lower_of_isTokenChar (List.all_eq_true.1 h c hc)).1

theorem map_toLower_toLower (h : l.all isTokenChar = true) :
    (l.map Char.toLower).map Char.toLower = l.map Char.toLower := by
  rw [List.map_map]
  exact List.map_congr_left fun c hc => (lower_of_isTokenChar (List.all_eq_true.1 h c hc)).2.1

theorem all_isTokenChar_map_toLower (h : l.all isTokenChar = true) :
    (l.map Char.toLower).all isTokenChar = true := by
  rw [List.all_map, List.all_eq_true]
  exact fun c hc => isTokenChar_toLower (List.all_eq_true.1 h c hc)

theorem utf8Len_of_token (h : l.all isTokenChar = true) :
    String.utf8Len l = l.length := by
  induction l with
  | nil => rfl
  | cons c l ih =>
    rw [List.all_cons, Bool.and_eq_true] at h
    rw [String.utf8Len_cons, ih h.2, (lower_of_isTokenChar h.1).2.2.2, List.length_cons]

theorem utf8ByteSize_of_token {s : String} (h : s.toList.all isTokenChar = true) :
    s.utf8ByteSize = s.toList.length := by
  rw [← utf8Len_of_token h, ← String.utf8ByteSize_ofList, String.ofList_toList]

/-- The key of a header is the rest of its name in lower case, if there is nothing
    to unescape. -/
theorem toList_extraKey {p k : String} (hk : k.toList.all isTokenChar = true)
    (hrest : '%' ∉ rest p k) : (extraKey p k).toList = (rest p k).map Char.toLower := by
  have htoken : (rest p k).all isTokenChar = true := by
    rw [List.all_eq_true] at hk ⊢
    exact fun c hc => hk c (List.mem_of_mem_drop hc)
  have hlower : '%' ∉ (rest p k).map Char.toLower := by
    intro hmem
    obtain ⟨c, hc, hlow⟩ := List.mem_map.1 hmem
    obtain rfl := (lower_of_isTokenChar (List.all_eq_true.1 htoken c hc)).2.2.1 hlow
    exact hrest hc
  rw [extraKey, unescapeExtraKey, toList_toLowerASCII, String.toList_ofList, map_lowerRune htoken,
    pathUnescape_of_notMem hlower]
  exact String.toList_ofList

/-- A header without anything to unescape has the name made of prefix and key. -/
theorem canonical_extraKey {p k : String} (hk : Canonical k) (hp : p.toList.all isTokenChar = true)
    (hpk : hasExtraPrefix p k = true) (hrest : '%' ∉ rest p k) :
    canonicalMIMEHeaderKey (p ++ extraKey p k) = k := by
  rw [hasExtraPrefix, hasPrefix_iff] at hpk
  obtain ⟨t, ht⟩ := hpk
  rw [← String.toList_inj, String.toList_append, toList_toLowerASCII, toList_toLowerASCII,
    map_lowerRune hk.token, map_lowerRune hp] at ht
  -- The name is a part as long as the prefix, and the rest.
  obtain ⟨l, r, hlr, hl, -⟩ := List.map_eq_append_iff.1 ht
  have hlen : l.length = p.toList.length := by simpa using congrArg List.length hl
  have hr : rest p k = r := by rw [rest, utf8ByteSize_of_token hp, hlr, ← hlen, List.drop_left]
  have hrtoken : r.all isTokenChar = true := by
    have htoken := hk.token
    rw [hlr, List.all_append, Bool.and_eq_true] at htoken
    exact htoken.2
  have hkey := toList_extraKey hk.token hrest
  rw [hr] at hkey
  calc canonicalMIMEHeaderKey (p ++ extraKey p k)
      = canonicalMIMEHeaderKey k := by
        apply canonicalMIMEHeaderKey_congr
        · rw [String.toList_append, hkey, List.all_append, hp, all_isTokenChar_map_toLower hrtoken]
          rfl
        · exact hk.token
        · rw [String.toList_append, hkey, List.map_append, map_toLower_toLower hrtoken, ← hl, hlr,
            List.map_append]
    _ = k := hk.canonical

/-! ## The identity is gone -/

variable (a)

/-- There is no header with an identity. -/
structure Clean (h : Header) : Prop where
  name : ∀ n ∈ a.nameHeaders, canonicalMIMEHeaderKey n ∉ h
  group : ∀ n ∈ a.groupHeaders, canonicalMIMEHeaderKey n ∉ h
  extra : ∀ p k, ¬ a.ExtraAt h p k

/-- A header whose name may not be made of the prefix and its key: it has something
    to unescape, or the prefix has a character that no header has, and is the
    beginning of the name in lower case only. -/
structure EscapedAt (h : Header) (p k : String) : Prop extends a.ExtraAt h p k where
  escaped : '%' ∈ rest p k ∨ p.toList.all isTokenChar = false

/-- The name is made of a prefix and the key of a header with a prefix. -/
def Rebuilt (h : Header) (k : String) : Prop :=
  ∃ p k', a.ExtraAt h p k' ∧ ∃ p' ∈ a.extraHeaderPrefixes,
    k = canonicalMIMEHeaderKey (p' ++ extraKey p k')

variable {a}

/-- They are those that are not read and not built again. -/
theorem mem_clear_newExtra_iff {h extra : Header}
    (hextra : newExtra h a.extraHeaderPrefixes = some extra) {k : String} :
    k ∈ a.clear h extra ↔ k ∈ h ∧ ¬ a.Named k ∧ ¬ a.Rebuilt h k := by
  rw [mem_clear_iff]
  refine and_congr_right fun _ => and_congr_right fun _ => ?_
  constructor
  · rintro hk ⟨p, k', hk', p', hp', rfl⟩
    exact hk _ ((mem_newExtra_iff hextra _).2 ⟨p, k', hk', rfl⟩) p' hp' rfl
  · rintro hk key hkey p' hp' rfl
    obtain ⟨p, k', hk', rfl⟩ := (mem_newExtra_iff hextra key).1 hkey
    exact hk ⟨p, k', hk', p', hp', rfl⟩

/-- Only headers with something to unescape may be left. -/
theorem clean_clear_iff {h extra : Header} (hcanon : ∀ k ∈ h, Canonical k)
    (hextra : newExtra h a.extraHeaderPrefixes = some extra) :
    a.Clean (a.clear h extra) ↔ ∀ p k, a.EscapedAt h p k → a.Named k ∨ a.Rebuilt h k := by
  constructor
  · intro hclean p k hk
    by_contra hleft
    rw [not_or] at hleft
    exact hclean.extra p k
      ⟨hk.configured, (mem_clear_newExtra_iff hextra).2 ⟨hk.mem, hleft⟩, hk.hasPrefix⟩
  · intro hescaped
    refine ⟨fun n hn => ?_, fun n hn => ?_, fun p k hk => ?_⟩
    · exact notMem_clear (List.mem_append_left _ hn)
    · exact notMem_clear (List.mem_append_right _ hn)
    · obtain ⟨hmem, hnamed, hrebuilt⟩ := (mem_clear_newExtra_iff hextra).1 hk.mem
      have hat : a.ExtraAt h p k := ⟨hk.configured, hmem, hk.hasPrefix⟩
      by_cases hplain : '%' ∈ rest p k ∨ p.toList.all isTokenChar = false
      · exact (hescaped p k ⟨hat, hplain⟩).elim hnamed hrebuilt
      · rw [not_or, Bool.not_eq_false] at hplain
        have hname := canonical_extraKey (hcanon k hmem) hplain.2 hk.hasPrefix hplain.1
        exact hrebuilt ⟨p, k, hat, p, hk.configured, hname.symm⟩

theorem eq_empty_of_forall_notMem {h : Header} (hh : ∀ k, k ∉ h) : h = ∅ := by
  apply AList.ext
  rw [AList.empty_entries, List.eq_nil_iff_forall_not_mem]
  exact fun e he => hh e.1 (AList.mem_keys.2 (List.mem_map_of_mem he))

theorem headerValue_eq_empty {h : Header} {names : List String}
    (hnames : ∀ n ∈ names, canonicalMIMEHeaderKey n ∉ h) : headerValue h names = "" := by
  induction names with
  | nil => rfl
  | cons n names ih =>
    rw [List.forall_mem_cons] at hnames
    have hget : h.get n = "" := by
      rw [Header.get, Header.values, Header.index, AList.lookup_eq_none.2 hnames.1]
      rfl
    rw [headerValue, if_neg (not_not.2 hget), ih hnames.2]

/-- There is no identity where none is found, once the headers have been read and
    cleared. -/
theorem clean_clear_iff_absent {h extra : Header} (req : HttpRequest) :
    a.Clean (a.clear h extra) ↔
      a.authenticateRequest { req with header := a.clear h extra } =
          absent { req with header := a.clear h extra } ∧
        newExtra (a.clear h extra) a.extraHeaderPrefixes = some ∅ := by
  have hname : ∀ n ∈ a.nameHeaders, canonicalMIMEHeaderKey n ∉ a.clear h extra := fun n hn =>
    notMem_clear (List.mem_append_left _ hn)
  have hgroup : ∀ n ∈ a.groupHeaders, canonicalMIMEHeaderKey n ∉ a.clear h extra := fun n hn =>
    notMem_clear (List.mem_append_right _ hn)
  have habsent : a.authenticateRequest { req with header := a.clear h extra } =
      absent { req with header := a.clear h extra } := by
    rw [authenticateRequest]
    exact if_pos (headerValue_eq_empty hname)
  constructor
  · intro hclean
    refine ⟨habsent, ?_⟩
    have hsome : newExtra (a.clear h extra) a.extraHeaderPrefixes ≠ none :=
      newExtra_ne_none_iff.2 fun p k hk => absurd hk (hclean.extra p k)
    obtain ⟨extra', hextra'⟩ := Option.ne_none_iff_exists'.1 hsome
    have hempty : extra' = ∅ := by
      apply eq_empty_of_forall_notMem
      intro key hkey
      obtain ⟨p, k, hk, -⟩ := (mem_newExtra_iff hextra' key).1 hkey
      exact hclean.extra p k hk
    rw [hextra', hempty]
  · rintro ⟨-, hempty⟩
    refine ⟨hname, hgroup, fun p k hk => ?_⟩
    exact AList.notMem_empty _ ((mem_newExtra_iff hempty _).2 ⟨p, k, hk, rfl⟩)

/-- Nothing of the identity is passed on exactly when each header with something
    to unescape has the name of one with a user name or a group, or one made of a
    prefix and the key of some header. -/
theorem forwarded_clean_iff {req : HttpRequest} (hcanon : ∀ k ∈ req.header, Canonical k)
    (hok : (a.authenticateRequest req).ok = true) :
    let forwarded := { req with header := (a.authenticateRequest req).header }
    (a.Clean forwarded.header ↔
        ∀ p k, a.EscapedAt req.header p k → a.Named k ∨ a.Rebuilt req.header k) ∧
      (a.Clean forwarded.header ↔ a.authenticateRequest forwarded = absent forwarded ∧
        newExtra forwarded.header a.extraHeaderPrefixes = some ∅) := by
  obtain ⟨-, extra, hextra, hheader⟩ := authenticateRequest_ok_iff.1 hok
  intro forwarded
  have hforwarded : forwarded = { req with header := a.clear req.header extra } := by
    rw [← hheader]
  rw [hforwarded]
  exact ⟨clean_clear_iff hcanon hextra, clean_clear_iff_absent req⟩

/-- The headers Kubernetes proxies use. -/
def frontProxy : RequestHeader where
  nameHeaders := ["X-Remote-User"]
  groupHeaders := ["X-Remote-Group"]
  extraHeaderPrefixes := ["X-Remote-Extra-"]

/-- A request from the proxy, with a user and an extra value. -/
def proxied (k : String) : HttpRequest where
  header := (AList.insert k ["read"] ∅).insert "X-Remote-User" ["alice"]

theorem proxied_scopes_clean :
    frontProxy.Clean (frontProxy.authenticateRequest (proxied "X-Remote-Extra-Scopes")).header := by
  have hcanon : ∀ k ∈ (proxied "X-Remote-Extra-Scopes").header, Canonical k := by
    simp only [AList.mem_keys]
    decide
  refine (forwarded_clean_iff hcanon (by decide)).1.2 fun p k hk => ?_
  obtain rfl := List.mem_singleton.1 hk.configured
  have hnone : ∀ k ∈ (proxied "X-Remote-Extra-Scopes").header.keys,
      '%' ∉ rest "X-Remote-Extra-" k := by decide
  exact (hk.escaped.elim (hnone k (AList.mem_keys.1 hk.mem)) (by decide)).elim

/-- A header with a slash in its key, escaped, is passed on: its key would be that
    of a header which cannot be. -/
theorem proxied_escaped_not_clean :
    (∀ k ∈ (proxied "X-Remote-Extra-Foo%2fbar").header, Canonical k) ∧
      (frontProxy.authenticateRequest (proxied "X-Remote-Extra-Foo%2fbar")).ok = true ∧
      (frontProxy.authenticateRequest (proxied "X-Remote-Extra-Foo%2fbar")).header =
        AList.insert "X-Remote-Extra-Foo%2fbar" ["read"] ∅ ∧
      ¬ frontProxy.Clean
        (frontProxy.authenticateRequest (proxied "X-Remote-Extra-Foo%2fbar")).header := by
  have hheader : (frontProxy.authenticateRequest (proxied "X-Remote-Extra-Foo%2fbar")).header =
      AList.insert "X-Remote-Extra-Foo%2fbar" ["read"] ∅ := rfl
  refine ⟨?_, by decide, hheader, fun hclean => ?_⟩
  · simp only [AList.mem_keys]
    decide
  · rw [hheader] at hclean
    have hmem : "X-Remote-Extra-Foo%2fbar" ∈
        (AList.insert "X-Remote-Extra-Foo%2fbar" ["read"] ∅ : Header) := by
      rw [AList.mem_keys]
      decide
    exact hclean.extra "X-Remote-Extra-" _ ⟨List.mem_singleton_self _, hmem, by decide⟩

end RequestHeader

end Apiserver.Authentication
