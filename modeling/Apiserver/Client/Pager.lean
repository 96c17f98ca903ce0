import Apiserver.Basic

/-!
# The pager of the client

A list that the server returns in pages is shown page by page, as keys are pressed, or dumped
as a whole (`pkg/client/pager.go`). Pages are numbered from 1. The number of pages is not known
before the first answer; it is 0 until then, and a page is clamped to it.

* `inRange_clamp_iff`: so a page that is asked for is there exactly if some page is known;
* `requests_press`, `requests_keyLoop`: whatever keys are pressed, only clamped pages are asked
  for;
* `requests_run`: the first is always page 0;
* `dump_eq`: a dump asks for the pages from 0 on, and not for the last;
* `run_visits_iff` puts these together.
-/

namespace Apiserver.Client

variable {ι : Type}

/-- A page that is asked for, and how many are known then. -/
structure PageRequest where
  page : ℤ
  known : ℤ
  deriving DecidableEq

/-- The output of a request. -/
structure Answer (ι : Type) where
  total : ℤ
  list : List ι

/-- What the pager depends on. -/
structure Env (ι : Type) where
  /-- The answer to each request, by its number and the page it is for. -/
  serve : ℕ → ℤ → Except Error (Answer ι)
  /-- The number of pages, by the total and the size of a page. It is computed in floating point. -/
  pages : ℤ → ℤ → ℤ
  /-- `util.Atoi`. -/
  atoi : String → ℤ

/-- `Pager`, with the requests it has sent and the items it has printed. -/
structure Pager (ι : Type) where
  current : ℤ
  pageSize : ℤ
  total : ℤ := 0
  pageTotal : ℤ := 0
  buff : List Char := []
  requests : List PageRequest := []
  printed : List ι := []

/-- `NewPager`, with the page and the size of a page that the request has. -/
def newPager (current pageSize : ℤ) : Pager ι := { current, pageSize }

/-- The clamping of `Render`. -/
def clamp (pageTotal page : ℤ) : ℤ :=
  let page := if page ≤ 0 then 1 else page
  if page ≥ pageTotal then pageTotal else page

/-- The codes of the keys that are not characters. -/
inductive KeyCode
  | up | down | left | right | other
  deriving DecidableEq

/-- What `Getch` returns. -/
structure Key where
  ascii : Char
  keyCode : KeyCode := .other

/-- The keys that end the pager. -/
def Key.quits (key : Key) : Bool := key.ascii ∈ ['q', Char.ofNat 3, Char.ofNat 27]

namespace Pager

variable (env : Env ι)

/-- A page is set and the request is sent. -/
def send (page known : ℤ) (p : Pager ι) : Except Error (Answer ι) × Pager ι :=
  (env.serve p.requests.length page,
    { p with current := page, requests := p.requests ++ [{ page, known }] })

/-- `Render`. -/
def render (page : ℤ) (p : Pager ι) : Option Error × Pager ι :=
  let page := clamp p.pageTotal page
  match p.send env page p.pageTotal with
  | (.error err, p) => (some err, p)
  | (.ok answer, p) =>
    (none, { p with
      total := answer.total
      pageTotal := env.pages answer.total p.pageSize
      buff := (toString page).toList
      printed := p.printed ++ answer.list })

/-- A key that does not end the pager. The errors of `Render` are dropped. -/
def press (key : Key) (p : Pager ι) : Pager ι :=
  if key.ascii ∈ ['n', 'f', ' '] then (p.render env (p.current + 1)).2
  else if key.ascii ∈ ['p', 'b'] then (p.render env (p.current - 1)).2
  else if key.ascii = '0' ∧ p.buff.length = 0 then p
  else if key.ascii.isDigit then { p with buff := p.buff ++ [key.ascii] }
  else if key.ascii ∈ [Char.ofNat 8, Char.ofNat 127] then { p with buff := p.buff.dropLast }
  else if key.ascii = Char.ofNat 13 then
    (p.render env (env.atoi (String.ofList p.buff))).2
  else
    match key.keyCode with
    | .down | .right => (p.render env (p.current + 1)).2
    | .up | .left => (p.render env (p.current - 1)).2
    | .other => p

/-- The loop of `Do`, until a key ends it or there are no more. -/
def keyLoop : List Key → Pager ι → Pager ι
  | [], p => p
  | key :: keys, p => if key.quits then p else keyLoop keys (p.press env key)

/-- The loop of `Dump`, with the number of pages it knows; `none` if it is not done within its
    fuel. -/
def dumpLoop : ℕ → ℤ → ℤ → Pager ι → Option (Option Error × Pager ι)
  | 0, _, _, _ => none
  | fuel + 1, i, pageTotal, p =>
    if i < pageTotal then
      match p.send env i pageTotal with
      | (.error err, p) => some (some err, p)
      | (.ok answer, p) =>
        dumpLoop fuel (i + 1) (env.pages answer.total p.pageSize)
          { p with printed := p.printed ++ answer.list }
    else some (none, p)

/-- `Dump`. -/
def dump (fuel : ℕ) (p : Pager ι) : Option (Option Error × Pager ι) :=
  dumpLoop env fuel 0 1 { p with pageSize := 100 }

/-- `Do`. -/
def run (fuel : ℕ) (keys : List Key) (p : Pager ι) : Option (Option Error × Pager ι) :=
  if p.pageSize = 0 then p.dump env fuel
  else
    match p.render env p.current with
    | (some err, p) => some (some err, p)
    | (none, p) => some (none, p.keyLoop env keys)

end Pager

/-! ## Pages by keys -/

/-- A page is one of those that are known, or the first. -/
def PageRequest.InRange (req : PageRequest) : Prop := 1 ≤ req.page ∧ req.page ≤ max 1 req.known

instance (req : PageRequest) : Decidable req.InRange := inferInstanceAs (Decidable (_ ∧ _))

/-- The page is one that was clamped. -/
def PageRequest.Clamped (req : PageRequest) : Prop := ∃ page, req.page = clamp req.known page

/-- Clamping works as soon as a page is known. -/
theorem inRange_clamp_iff {req : PageRequest} (h : req.Clamped) : req.InRange ↔ 0 < req.known := by
  obtain ⟨page, hpage⟩ := h
  rw [PageRequest.InRange, hpage]
  simp only [clamp]
  split_ifs <;> omega

namespace Pager

variable {env : Env ι}

theorem requests_render (env : Env ι) (page : ℤ) (p : Pager ι) :
    (p.render env page).2.requests =
      p.requests ++ [{ page := clamp p.pageTotal page, known := p.pageTotal }] := by
  rw [render]
  dsimp only [send]
  cases env.serve p.requests.length (clamp p.pageTotal page) <;> rfl

/-- The requests of `p'` are those of `p` and then some for clamped pages. -/
def Continues (p p' : Pager ι) : Prop :=
  ∃ new, p'.requests = p.requests ++ new ∧ ∀ req ∈ new, req.Clamped

theorem Continues.refl {p p' : Pager ι} (h : p'.requests = p.requests) : Continues p p' :=
  ⟨[], by rw [h, List.append_nil], fun _ hmem => absurd hmem List.not_mem_nil⟩

theorem Continues.trans {p p' p'' : Pager ι} (h : Continues p p') (h' : Continues p' p'') :
    Continues p p'' := by
  obtain ⟨new, hnew, hclamped⟩ := h
  obtain ⟨new', hnew', hclamped'⟩ := h'
  refine ⟨new ++ new', by rw [hnew', hnew, List.append_assoc], fun req hmem => ?_⟩
  rcases List.mem_append.1 hmem with hmem | hmem
  · exact hclamped req hmem
  · exact hclamped' req hmem

theorem continues_render (env : Env ι) (page : ℤ) (p : Pager ι) :
    Continues p (p.render env page).2 := by
  refine ⟨_, requests_render env page p, fun req hmem => ?_⟩
  rw [List.mem_singleton.1 hmem]
  exact ⟨page, rfl⟩

/-- A key asks for a clamped page, or for none. -/
theorem requests_press (env : Env ι) (key : Key) (p : Pager ι) :
    Continues p (p.press env key) := by
  rw [press]
  split_ifs
  · exact continues_render env _ p
  · exact continues_render env _ p
  · exact .refl rfl
  · exact .refl rfl
  · exact .refl rfl
  · exact continues_render env _ p
  · cases key.keyCode with
    | up => exact continues_render env _ p
    | down => exact continues_render env _ p
    | left => exact continues_render env _ p
    | right => exact continues_render env _ p
    | other => exact .refl rfl

/-- So do any keys. -/
theorem requests_keyLoop (env : Env ι) (keys : List Key) (p : Pager ι) :
    Continues p (p.keyLoop env keys) := by
  induction keys generalizing p with
  | nil => exact .refl rfl
  | cons key keys ih =>
    rw [keyLoop]
    split_ifs
    · exact .refl rfl
    · exact (requests_press env key p).trans (ih _)

/-- No page is known at first, so that page 0 is asked for. -/
theorem requests_render_newPager (env : Env ι) (start size page : ℤ) :
    ((newPager start size : Pager ι).render env page).2.requests =
      [{ page := 0, known := 0 }] := by
  have hclamp : clamp 0 page = 0 := by
    simp only [clamp]
    split_ifs <;> omega
  have hzero : (newPager start size : Pager ι).pageTotal = 0 := rfl
  rw [requests_render, hzero, hclamp]
  rfl

/-- Page by page, the first page is shown, and then the keys are followed. -/
theorem run_of_pos (env : Env ι) {p : Pager ι} (hsize : 0 < p.pageSize) (fuel : ℕ)
    (keys : List Key) :
    p.run env fuel keys = some ((p.render env p.current).1,
      if (p.render env p.current).1.isSome then (p.render env p.current).2
      else (p.render env p.current).2.keyLoop env keys) := by
  rw [run, if_neg (Int.ne_of_gt hsize)]
  cases p.render env p.current with
  | mk err p => cases err <;> rfl

/-- The pager asks for page 0 first, and for clamped pages then. -/
theorem requests_run (env : Env ι) (start : ℤ) {size : ℤ} (hsize : 0 < size) (fuel : ℕ)
    (keys : List Key) :
    ∃ err p new, (newPager start size).run env fuel keys = some (err, p) ∧
      p.requests = { page := 0, known := 0 } :: new ∧ ∀ req ∈ p.requests, req.Clamped := by
  have hfirst := requests_render_newPager env start size start
  have hclamped : PageRequest.Clamped { page := 0, known := 0 } := ⟨0, rfl⟩
  have hcurrent : (newPager start size : Pager ι).current = start := rfl
  rw [run_of_pos env (show 0 < (newPager start size : Pager ι).pageSize from hsize), hcurrent]
  split_ifs with herr
  · refine ⟨_, _, [], rfl, hfirst, fun req hmem => ?_⟩
    rw [hfirst, List.mem_singleton] at hmem
    rwa [hmem]
  · obtain ⟨new, hnew, hall⟩ :=
      requests_keyLoop env keys ((newPager start size : Pager ι).render env start).2
    rw [hfirst, List.singleton_append] at hnew
    refine ⟨_, _, new, rfl, hnew, fun req hmem => ?_⟩
    rw [hnew] at hmem
    rcases List.mem_cons.1 hmem with rfl | hmem
    · exact hclamped
    · exact hall req hmem

/-! ## Dumping -/

/-- The numbers from `i` on, `n` of them. -/
def pagesFrom (i : ℤ) : ℕ → List ℤ
  | 0 => []
  | n + 1 => i :: pagesFrom (i + 1) n

theorem mem_pagesFrom {i page : ℤ} {n : ℕ} : page ∈ pagesFrom i n ↔ i ≤ page ∧ page < i + n := by
  induction n generalizing i with
  | zero =>
    simp only [pagesFrom, List.not_mem_nil, false_iff]
    omega
  | succ n ih =>
    rw [pagesFrom, List.mem_cons, ih]
    omega

/-- If the total does not change, the loop asks for the pages that are left, one by one, and
    prints them. -/
theorem dumpLoop_eq {total : ℤ} {items : ℤ → List ι}
    (hserve : ∀ j page, env.serve j page = .ok ⟨total, items page⟩) {n : ℕ} {i : ℤ} {fuel : ℕ}
    (hfuel : n < fuel) {p : Pager ι} (hn : (env.pages total p.pageSize - i).toNat = n) :
    ∃ p', dumpLoop env fuel i (env.pages total p.pageSize) p = some (none, p') ∧
      p'.requests.map PageRequest.page = p.requests.map PageRequest.page ++ pagesFrom i n ∧
      p'.printed = p.printed ++ (pagesFrom i n).flatMap items := by
  induction n generalizing i fuel p with
  | zero =>
    obtain ⟨fuel, rfl⟩ := Nat.exists_eq_add_one_of_ne_zero (by omega : fuel ≠ 0)
    have hdone : ¬i < env.pages total p.pageSize := by omega
    exact ⟨p, by rw [dumpLoop, if_neg hdone], by simp [pagesFrom], by simp [pagesFrom]⟩
  | succ n ih =>
    obtain ⟨fuel, rfl⟩ := Nat.exists_eq_add_one_of_ne_zero (by omega : fuel ≠ 0)
    have hmore : i < env.pages total p.pageSize := by omega
    rw [dumpLoop, if_pos hmore]
    dsimp only [send]
    rw [hserve]
    dsimp only
    set q : Pager ι := { p with
      current := i
      requests := p.requests ++ [{ page := i, known := env.pages total p.pageSize }]
      printed := p.printed ++ items i }
    have hq : (env.pages total q.pageSize - (i + 1)).toNat = n := by
      change (env.pages total p.pageSize - (i + 1)).toNat = n
      omega
    obtain ⟨p', hp', hrequests, hprinted⟩ := ih (Nat.lt_of_succ_lt_succ hfuel) hq
    refine ⟨p', hp', ?_, ?_⟩
    · rw [hrequests, pagesFrom]
      simp [q]
    · rw [hprinted, pagesFrom]
      simp [q]

/-- A dump asks for page 0, and then for those before the last. -/
theorem dump_eq {total : ℤ} {items : ℤ → List ι}
    (hserve : ∀ j page, env.serve j page = .ok ⟨total, items page⟩) (start : ℤ) {fuel : ℕ}
    (hfuel : max 1 (env.pages total 100) < fuel) :
    ∃ p, (newPager start 0).dump env fuel = some (none, p) ∧
      p.requests.map PageRequest.page = pagesFrom 0 (max 1 (env.pages total 100)).toNat ∧
      p.printed = (pagesFrom 0 (max 1 (env.pages total 100)).toNat).flatMap items := by
  obtain ⟨fuel, rfl⟩ := Nat.exists_eq_add_one_of_ne_zero (by omega : fuel ≠ 0)
  have hcount : (max 1 (env.pages total 100)).toNat = (env.pages total 100 - 1).toNat + 1 := by
    omega
  -- The first page is asked for in any case, and tells how many there are.
  let q : Pager ι :=
    { current := 0, pageSize := 100, requests := [{ page := 0, known := 1 }], printed := items 0 }
  have hdump : (newPager start 0).dump env (fuel + 1) =
      dumpLoop env fuel (0 + 1) (env.pages total q.pageSize) q := by
    rw [dump, dumpLoop, if_pos (by decide)]
    dsimp only [send]
    rw [hserve]
    rfl
  have hleft : (env.pages total q.pageSize - (0 + 1)).toNat = (env.pages total 100 - 1).toNat := rfl
  have hfuel' : (env.pages total 100 - 1).toNat < fuel := by omega
  obtain ⟨p, hp, hrequests, hprinted⟩ := dumpLoop_eq hserve hfuel' hleft
  refine ⟨p, hdump.trans hp, ?_, ?_⟩
  · rw [hrequests, hcount]
    rfl
  · rw [hprinted, hcount]
    rfl

/-! ## Real pages -/

/-- All requests are for pages that are known, or the first page, and the first request is for
    the page that the pager was started with. -/
structure VisitsRealPages (start : ℤ) (requests : List PageRequest) : Prop where
  inRange : ∀ req ∈ requests, req.InRange
  first : requests.head?.map PageRequest.page = some start

/-- Shown page by page, a list is asked for a page that is there exactly when some page is known,
    which is not so at first, and for the page to begin with only if that is 0. A dump, of a
    list that does not change, asks for the pages from 0 on, and not for the last. -/
theorem run_visits_iff (env : Env ι) (start : ℤ) {size : ℤ} (hsize : 0 < size) (fuel : ℕ)
    (keys : List Key) :
    (∃ err p, (newPager start size).run env fuel keys = some (err, p) ∧
      (∀ req ∈ p.requests, req.InRange ↔ 0 < req.known) ∧
      (p.requests.head?.map PageRequest.page = some start ↔ start = 0) ∧
      ¬VisitsRealPages start p.requests) ∧
    ∀ total items, (∀ j page, env.serve j page = .ok ⟨total, items page⟩) →
      max 1 (env.pages total 100) < fuel →
      ∃ p, (newPager start 0).run env fuel keys = some (none, p) ∧
        p.requests.map PageRequest.page = pagesFrom 0 (max 1 (env.pages total 100)).toNat ∧
        p.printed = (pagesFrom 0 (max 1 (env.pages total 100)).toNat).flatMap items ∧
        p.requests.map PageRequest.page ≠ pagesFrom 1 (env.pages total 100).toNat ∧
        (0 < env.pages total 100 →
          env.pages total 100 ∉ p.requests.map PageRequest.page) := by
  constructor
  · obtain ⟨err, p, new, hrun, hrequests, hclamped⟩ := requests_run env start hsize fuel keys
    have hiff : ∀ req ∈ p.requests, req.InRange ↔ 0 < req.known :=
      fun req hmem => inRange_clamp_iff (hclamped req hmem)
    have hhead : p.requests.head?.map PageRequest.page = some 0 := by
      rw [hrequests]
      rfl
    refine ⟨err, p, hrun, hiff, ?_, fun h => ?_⟩
    · rw [hhead, Option.some.injEq, eq_comm]
    · have hmem : { page := 0, known := 0 } ∈ p.requests := by
        rw [hrequests]
        exact List.mem_cons_self
      exact absurd ((hiff _ hmem).1 (h.inRange _ hmem)) (by decide)
  · intro total items hserve hfuel
    obtain ⟨p, hp, hrequests, hprinted⟩ := dump_eq hserve start hfuel
    have hrun : (newPager start 0).run env fuel keys = some (none, p) := by
      rw [run, if_pos (show (newPager start 0 : Pager ι).pageSize = 0 from rfl), hp]
    refine ⟨p, hrun, hrequests, hprinted, fun heq => ?_, fun hpos hmem => ?_⟩
    · -- Page 0 is not one of the pages.
      have hzero : (0 : ℤ) ∈ pagesFrom 1 (env.pages total 100).toNat := by
        rw [← heq, hrequests, mem_pagesFrom]
        omega
      rw [mem_pagesFrom] at hzero
      omega
    · rw [hrequests, mem_pagesFrom] at hmem
      omega

/-- A server with 250 items on pages of 100, from page 1 on, of which it returns the first. -/
def items250 : Env ℕ where
  serve _ page := .ok ⟨250, if page = 1 then [0] else if page = 2 then [100] else
    if page = 3 then [200] else []⟩
  pages total size := -((-total) / size)
  atoi _ := 0

theorem run_visits_iff_items250 :
    ∃ err p, (newPager 1 10).run items250 4 [] = some (err, p) ∧
      (∀ req ∈ p.requests, req.InRange ↔ 0 < req.known) := by
  obtain ⟨err, p, hrun, hiff, -⟩ :=
    (run_visits_iff items250 1 (show (0 : ℤ) < 10 by decide) 4 []).1
  exact ⟨err, p, hrun, hiff⟩

theorem not_visits_items250 :
    ∃ p p', (newPager 1 10).run items250 4 [] = some (none, p) ∧
      ¬VisitsRealPages 1 p.requests ∧
      (newPager 1 0).run items250 4 [] = some (none, p') ∧
      p'.requests.map PageRequest.page ≠ [1, 2, 3] ∧ 200 ∉ p'.printed := by
  refine ⟨_, _, rfl, fun h => ?_, rfl, by decide, by decide⟩
  exact absurd h.first (by decide)

end Pager

end Apiserver.Client
