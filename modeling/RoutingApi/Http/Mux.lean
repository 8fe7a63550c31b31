import RoutingApi.Text.Url

/-! A muxer of URL patterns, in which the first pattern that was registered for the method and
matches the path gets the request, and the router that is built on it from a list of routes. -/
namespace RoutingApi.Http
open Text Text.Url

section Patterns

def colon : UInt8 := 58

/-- What the name of a capture is made of. -/
def isName (c : UInt8) : Bool := isAlnum c || c == 95

def matchPart (nextc c : UInt8) : Bool := c != nextc && c != slash

/-- The captures of a pattern in their order. -/
abbrev Params := List (Bytes × Bytes)

/-- The rounds of `try`, with what is left of the pattern and of the path. -/
def tryFrom (pat : Bytes) : ℕ → Bytes → Bytes → Option Params
  | _, rest, [] => if rest = [] then some [] else none
  | _, [], _ :: _ => if pat ≠ [slash] ∧ pat.getLast? = some slash then some [] else none
  | 0, _ :: _, _ :: _ => none
  | n + 1, p :: rest, c :: path =>
    if p = colon then
      let rest' := rest.dropWhile isName
      let nextc := rest'.headD 0
      match unescape .queryComponent ((c :: path).takeWhile (matchPart nextc)) with
      | none => none
      | some val =>
        (tryFrom pat n rest' ((c :: path).dropWhile (matchPart nextc))).map
          ((colon :: rest.takeWhile isName, val) :: ·)
    else if c = p then tryFrom pat n rest path
    else none

/-- Each round takes something off the pattern, so that its length is enough. -/
def tryPath (pat path : Bytes) : Option Params := tryFrom pat pat.length pat path

/-- The captures as a query: by key, and for each key in their order. -/
def Params.encode (p : Params) : Bytes :=
  Values.encode ((p.mergeSort fun a b => decide (a.1 ≤ b.1)).map fun kv => (kv.1, [kv.2]))

/-- Literals are matched one by one. -/
theorem tryFrom_literal {pat lit : Bytes} (hlit : colon ∉ lit) {n : ℕ} {rest path : Bytes}
    {params : Params} : tryFrom pat (lit.length + n) (lit ++ rest) path = some params ↔
      ∃ path', path = lit ++ path' ∧ tryFrom pat n rest path' = some params := by
  induction lit generalizing path with
  | nil => simp
  | cons c lit ih =>
    have hc : c ≠ colon := fun h => hlit (h ▸ List.mem_cons_self)
    have hfuel : (c :: lit).length + n = lit.length + n + 1 := by
      rw [List.length_cons]
      omega
    rw [hfuel, List.cons_append]
    cases path with
    | nil => simp [tryFrom]
    | cons d path =>
      rw [tryFrom, if_neg hc]
      split
      next hd =>
        subst hd
        simpa using ih fun h => hlit (List.mem_cons_of_mem d h)
      next hd => simp [hd]

theorem tryPath_append {lit : Bytes} (hlit : colon ∉ lit) (rest path : Bytes) (params : Params) :
    tryPath (lit ++ rest) path = some params ↔
      ∃ path', path = lit ++ path' ∧ tryFrom (lit ++ rest) rest.length rest path' = some params := by
  rw [tryPath, List.length_append]
  exact tryFrom_literal hlit

/-- Once the pattern is used up, so must be the path. -/
theorem tryFrom_nil {pat path : Bytes} {n : ℕ} {params : Params}
    (hlast : pat.getLast? ≠ some slash) :
    tryFrom pat n [] path = some params ↔ path = [] ∧ params = [] := by
  cases path with
  | nil => simp [tryFrom, eq_comm]
  | cons c path => simp [tryFrom, hlast]

/-- What a pattern without captures matches. -/
theorem tryPath_literal {pat path : Bytes} {params : Params} (hlit : colon ∉ pat)
    (hlast : pat.getLast? ≠ some slash) :
    tryPath pat path = some params ↔ path = pat ∧ params = [] := by
  have htry := tryPath_append hlit [] path params
  rw [List.append_nil] at htry
  rw [htry]
  simp [tryFrom_nil hlast]

/-- The value of a capture at the end of a pattern. -/
theorem tryFrom_capture {pat name path : Bytes} {params : Params}
    (hlast : pat.getLast? ≠ some slash) (hname : ∀ c ∈ name, isName c = true) :
    tryFrom pat (name.length + 1) (colon :: name) path = some params ↔
      path ≠ [] ∧ (∀ c ∈ path, matchPart 0 c = true) ∧
        ∃ v, unescape .queryComponent path = some v ∧ params = [(colon :: name, v)] := by
  have hdrop : name.dropWhile isName = [] := List.dropWhile_eq_nil_iff.mpr hname
  have htake : name.takeWhile isName = name := List.takeWhile_eq_self_iff.mpr hname
  cases path with
  | nil => simp [tryFrom]
  | cons c path =>
    rw [tryFrom, if_pos rfl]
    simp only [hdrop, htake, List.headD_nil]
    constructor
    · intro h
      cases hval : unescape .queryComponent ((c :: path).takeWhile (matchPart 0)) with
      | none =>
        rw [hval] at h
        cases h
      | some v =>
        rw [hval] at h
        obtain ⟨params', hrest, rfl⟩ := Option.map_eq_some_iff.mp h
        obtain ⟨hall, rfl⟩ := (tryFrom_nil hlast).mp hrest
        have hall := List.dropWhile_eq_nil_iff.mp hall
        rw [List.takeWhile_eq_self_iff.mpr hall] at hval
        exact ⟨List.cons_ne_nil c path, hall, v, hval, rfl⟩
    · rintro ⟨-, hall, v, hval, rfl⟩
      have hend : tryFrom pat name.length [] [] = some [] := (tryFrom_nil hlast).mpr ⟨rfl, rfl⟩
      rw [List.takeWhile_eq_self_iff.mpr hall, hval, List.dropWhile_eq_nil_iff.mpr hall]
      simp only [hend, Option.map_some]

theorem forall_matchPart {val : Bytes} :
    (∀ c ∈ val, matchPart 0 c = true) ↔ slash ∉ val ∧ 0 ∉ val := by
  simp only [matchPart, Bool.and_eq_true, bne_iff_ne, ne_eq]
  constructor
  · intro h
    exact ⟨fun hs => (h _ hs).2 rfl, fun hz => (h _ hz).1 rfl⟩
  · rintro ⟨hslash, hzero⟩ c hc
    exact ⟨fun h => hzero (h ▸ hc), fun h => hslash (h ▸ hc)⟩

theorem getLast?_capture {name : Bytes} (lit : Bytes) (hname : ∀ c ∈ name, isName c = true) :
    (lit ++ colon :: name).getLast? ≠ some slash := by
  rw [List.getLast?_append, List.getLast?_cons]
  cases hend : name.getLast? with
  | none => simp [colon, slash]
  | some c =>
    have hc := hname c (List.mem_of_getLast? hend)
    rintro ⟨⟩
    cases hc

/-- What a pattern with a capture at its end matches. -/
theorem tryPath_capture {lit name path : Bytes} {params : Params} (hlit : colon ∉ lit)
    (hname : ∀ c ∈ name, isName c = true) :
    tryPath (lit ++ colon :: name) path = some params ↔
      ∃ val v, path = lit ++ val ∧ val ≠ [] ∧ (slash ∉ val ∧ 0 ∉ val) ∧
        unescape .queryComponent val = some v ∧ params = [(colon :: name, v)] := by
  rw [tryPath_append hlit]
  simp only [List.length_cons, tryFrom_capture (getLast?_capture lit hname) hname,
    forall_matchPart]
  constructor
  · rintro ⟨val, hpath, hne, hplain, v, hval, hparams⟩
    exact ⟨val, v, hpath, hne, hplain, hval, hparams⟩
  · rintro ⟨val, v, hpath, hne, hplain, hval, hparams⟩
    exact ⟨val, hpath, hne, hplain, v, hval, hparams⟩

end Patterns

section Muxer
variable {H : Type}

/-- A pattern that ends with a slash also registers a redirect without it. -/
inductive Target (H : Type) where
  | handler (h : H)
  | addSlashRedirect
  deriving DecidableEq, Repr

structure PatHandler (H : Type) where
  pat : Bytes
  target : Target H
  deriving DecidableEq, Repr

/-- The handlers of all methods, in the order in which they were registered. -/
abbrev PatternServeMux (H : Type) := List (String × PatHandler H)

def PatternServeMux.handlers (p : PatternServeMux H) (meth : String) : List (PatHandler H) :=
  (p.filter (·.1 = meth)).map (·.2)

/-- `add`, with as much fuel as the pattern could have slashes at its end. -/
def PatternServeMux.addFrom : ℕ → PatternServeMux H → String → Bytes → Target H →
    PatternServeMux H
  | 0, p, _, _, _ => p
  | n + 1, p, meth, pat, target =>
    if (p.handlers meth).any (·.pat = pat) then p
    else
      let p := p ++ [(meth, ⟨pat, target⟩)]
      if pat.getLast? = some slash then addFrom n p meth pat.dropLast .addSlashRedirect else p

def PatternServeMux.add (p : PatternServeMux H) (meth : String) (pat : Bytes) (h : H) :
    PatternServeMux H :=
  p.addFrom (pat.length + 1) meth pat (.handler h)

/-- How a request is answered. The methods of a 405 come in the order of a map. -/
inductive Outcome (H : Type) where
  | served (h : H) (rawQuery : Bytes)
  | redirected
  | notFound
  | methodNotAllowed (allowed : List String)
  deriving DecidableEq, Repr

/-- The first handler whose pattern matches. -/
def firstMatch (phs : List (PatHandler H)) (path : Bytes) : Option (Target H × Params) :=
  phs.findSome? fun ph => (tryPath ph.pat path).map (ph.target, ·)

def PatternServeMux.allowed (p : PatternServeMux H) (method : String) (path : Bytes) :
    List String :=
  (p.filter fun e => e.1 ≠ method ∧ (tryPath e.2.pat path).isSome = true).map (·.1)

/-- The query that a handler gets, with the captures in front of it. -/
def withParams (params : Params) (rawQuery : Bytes) : Bytes :=
  if params = [] then rawQuery else params.encode ++ ampersand :: rawQuery

def PatternServeMux.serveHTTP (p : PatternServeMux H) (method : String) (path rawQuery : Bytes) :
    Outcome H :=
  match firstMatch (p.handlers method) path with
  | some (.handler h, params) => .served h (withParams params rawQuery)
  | some (.addSlashRedirect, _) => .redirected
  | none =>
    match p.allowed method path with
    | [] => .notFound
    | allowed => .methodNotAllowed allowed

/-- A new pattern without a slash at its end. -/
theorem add_eq {p : PatternServeMux H} {meth : String} {pat : Bytes} (h : H)
    (hlast : pat.getLast? ≠ some slash) (hnew : ∀ e ∈ p, ¬(e.1 = meth ∧ e.2.pat = pat)) :
    p.add meth pat h = p ++ [(meth, ⟨pat, .handler h⟩)] := by
  have hany : (p.handlers meth).any (·.pat = pat) = false := by
    simp only [PatternServeMux.handlers, List.any_eq_false, List.mem_map, List.mem_filter]
    rintro ph ⟨e, ⟨he, hmeth⟩, rfl⟩
    simpa using fun hpat => hnew e he ⟨of_decide_eq_true hmeth, hpat⟩
  rw [PatternServeMux.add, PatternServeMux.addFrom, hany]
  simp [hlast]

end Muxer

section Router
variable {N H : Type}

structure Route (N : Type) where
  name : N
  method : String
  path : Bytes
  deriving DecidableEq, Repr

inductive RouterError (N : Type) where
  | missingHandler (name : N)
  | invalidVerb (method : String)
  deriving DecidableEq, Repr

def verbs : List String :=
  ["GET", "HEAD", "POST", "PUT", "PATCH", "DELETE", "CONNECT", "OPTIONS", "TRACE"]

def addRoute (handlers : N → Option H) (p : PatternServeMux H) (route : Route N) :
    Except (RouterError N) (PatternServeMux H) :=
  match handlers route.name with
  | none => .error (.missingHandler route.name)
  | some handler =>
    if route.method.toUpper ∈ verbs then .ok (p.add route.method.toUpper route.path handler)
    else .error (.invalidVerb route.method)

def newRouter (routes : List (Route N)) (handlers : N → Option H) :
    Except (RouterError N) (PatternServeMux H) :=
  routes.foldlM (addRoute handlers) []

/-- A route with a handler, a verb in upper case and a pattern without a slash at its end. -/
structure Route.Plain (handlers : N → Option H) (r : Route N) : Prop where
  handler : ∃ h, handlers r.name = some h
  upper : r.method.toUpper = r.method
  verb : r.method ∈ verbs
  last : r.path.getLast? ≠ some slash

/-- The entry of a route in the muxer. -/
def Route.entry (handlers : N → Option H) (r : Route N) : Option (String × PatHandler H) :=
  (handlers r.name).map fun h => (r.method, ⟨r.path, .handler h⟩)

/-- Plain routes that differ in method or path are registered as they come. -/
theorem foldlM_addRoute {handlers : N → Option H} {routes : List (Route N)}
    (hplain : ∀ r ∈ routes, r.Plain handlers)
    (hdistinct : (routes.map fun r => (r.method, r.path)).Nodup) (p : PatternServeMux H)
    (hnew : ∀ r ∈ routes, ∀ e ∈ p, ¬(e.1 = r.method ∧ e.2.pat = r.path)) :
    routes.foldlM (addRoute handlers) p =
      .ok (p ++ routes.filterMap (Route.entry handlers)) := by
  induction routes generalizing p with
  | nil => simp [pure, Except.pure]
  | cons r routes ih =>
    obtain ⟨⟨h, hh⟩, hupper, hverb, hlast⟩ := hplain r List.mem_cons_self
    obtain ⟨hfresh, hrest⟩ := List.nodup_cons.mp hdistinct
    have hentry : r.entry handlers = some (r.method, ⟨r.path, .handler h⟩) := by
      simp [Route.entry, hh]
    have hadd : addRoute handlers p r = .ok (p ++ [(r.method, ⟨r.path, .handler h⟩)]) := by
      simp only [addRoute, hh, hupper, hverb, if_true]
      rw [add_eq h hlast (hnew r List.mem_cons_self)]
    rw [List.foldlM_cons, hadd]
    show routes.foldlM (addRoute handlers) (p ++ [(r.method, ⟨r.path, .handler h⟩)]) = _
    rw [ih (fun r' hr' => hplain r' (List.mem_cons_of_mem r hr')) hrest]
    · rw [List.filterMap_cons_some hentry, List.append_assoc]
      rfl
    · intro r' hr' e he
      rcases List.mem_append.mp he with he | he
      · exact hnew r' (List.mem_cons_of_mem r hr') e he
      · rw [List.mem_singleton.mp he]
        rintro ⟨hmethod, hpath⟩
        exact hfresh (List.mem_map.mpr ⟨r', hr', by rw [← hmethod, ← hpath]⟩)

theorem newRouter_ok {handlers : N → Option H} {routes : List (Route N)}
    (hplain : ∀ r ∈ routes, r.Plain handlers)
    (hdistinct : (routes.map fun r => (r.method, r.path)).Nodup) :
    newRouter routes handlers = .ok (routes.filterMap (Route.entry handlers)) :=
  foldlM_addRoute hplain hdistinct [] (by simp)

end Router

section Dispatch
variable {N H : Type} {handlers : N → Option H} {routes routes' : List (Route N)}
variable {method : String} {path rawQuery : Bytes}

/-- The muxer with these routes. -/
def entries (handlers : N → Option H) (routes : List (Route N)) : PatternServeMux H :=
  routes.filterMap (Route.entry handlers)

/-- No request is matched by two of the routes. -/
def Exclusive (routes : List (Route N)) : Prop :=
  ∀ r ∈ routes, ∀ r' ∈ routes, r.method = r'.method → ∀ path,
    (tryPath r.path path).isSome = true → (tryPath r'.path path).isSome = true → r = r'

theorem mem_entries {e : String × PatHandler H} : e ∈ entries handlers routes ↔
    ∃ r ∈ routes, ∃ h, handlers r.name = some h ∧ e = (r.method, ⟨r.path, .handler h⟩) := by
  simp only [entries, List.mem_filterMap, Route.entry, Option.map_eq_some_iff]
  constructor
  · rintro ⟨r, hr, h, hh, rfl⟩
    exact ⟨r, hr, h, hh, rfl⟩
  · rintro ⟨r, hr, h, hh, rfl⟩
    exact ⟨r, hr, h, hh, rfl⟩

theorem mem_handlers {ph : PatHandler H} : ph ∈ (entries handlers routes).handlers method ↔
    ∃ r ∈ routes, ∃ h, handlers r.name = some h ∧ r.method = method ∧
      ph = ⟨r.path, .handler h⟩ := by
  simp only [PatternServeMux.handlers, List.mem_map, List.mem_filter, mem_entries]
  constructor
  · rintro ⟨e, ⟨⟨r, hr, h, hh, rfl⟩, hmethod⟩, rfl⟩
    exact ⟨r, hr, h, hh, of_decide_eq_true hmethod, rfl⟩
  · rintro ⟨r, hr, h, hh, rfl, rfl⟩
    exact ⟨_, ⟨⟨r, hr, h, hh, rfl⟩, decide_eq_true rfl⟩, rfl⟩

/-- Where at most one pattern matches, the order does not matter. -/
theorem firstMatch_eq_some (hexcl : Exclusive routes) {t : Target H} {params : Params} :
    firstMatch ((entries handlers routes).handlers method) path = some (t, params) ↔
      ∃ r ∈ routes, ∃ h, handlers r.name = some h ∧ r.method = method ∧ t = .handler h ∧
        tryPath r.path path = some params := by
  have hfound {y : Target H × Params}
      (hy : firstMatch ((entries handlers routes).handlers method) path = some y) :
      ∃ r ∈ routes, ∃ h, handlers r.name = some h ∧ r.method = method ∧ y.1 = .handler h ∧
        tryPath r.path path = some y.2 := by
    obtain ⟨ph, hph, hmatch⟩ := List.exists_of_findSome?_eq_some hy
    obtain ⟨r, hr, h, hh, hmethod, rfl⟩ := mem_handlers.mp hph
    obtain ⟨params, hparams, rfl⟩ := Option.map_eq_some_iff.mp hmatch
    exact ⟨r, hr, h, hh, hmethod, rfl, hparams⟩
  constructor
  · exact hfound
  · rintro ⟨r, hr, h, hh, hmethod, rfl, hparams⟩
    cases hfirst : firstMatch ((entries handlers routes).handlers method) path with
    | none =>
      have hnone := List.findSome?_eq_none_iff.mp hfirst _
        (mem_handlers.mpr ⟨r, hr, h, hh, hmethod, rfl⟩)
      simp [hparams] at hnone
    | some y =>
      obtain ⟨r', hr', h', hh', hmethod', htarget, hparams'⟩ := hfound hfirst
      have hsame : r' = r := hexcl r' hr' r hr (hmethod'.trans hmethod.symm) path
        (by simp [hparams']) (by simp [hparams])
      subst hsame
      rw [hh'] at hh
      cases hh
      rw [hparams'] at hparams
      exact congrArg some (Prod.ext htarget (Option.some.inj hparams))

theorem serveHTTP_served_iff (hexcl : Exclusive routes) {h : H} {query : Bytes} :
    (entries handlers routes).serveHTTP method path rawQuery = .served h query ↔
      ∃ r ∈ routes, handlers r.name = some h ∧ r.method = method ∧
        ∃ params, tryPath r.path path = some params ∧ query = withParams params rawQuery := by
  constructor
  · intro hserved
    unfold PatternServeMux.serveHTTP at hserved
    cases hfirst : firstMatch ((entries handlers routes).handlers method) path with
    | none =>
      simp only [hfirst] at hserved
      split at hserved <;> cases hserved
    | some y =>
      obtain ⟨t, params⟩ := y
      obtain ⟨r, hr, h', hh, hmethod, rfl, hparams⟩ := (firstMatch_eq_some hexcl).mp hfirst
      rw [hfirst] at hserved
      cases hserved
      exact ⟨r, hr, hh, hmethod, params, hparams, rfl⟩
  · rintro ⟨r, hr, hh, hmethod, params, hparams, rfl⟩
    have hfirst : firstMatch ((entries handlers routes).handlers method) path =
        some (.handler h, params) :=
      (firstMatch_eq_some hexcl).mpr ⟨r, hr, h, hh, hmethod, rfl, hparams⟩
    rw [PatternServeMux.serveHTTP, hfirst]

/-- Nothing is redirected where no pattern ends with a slash. -/
theorem serveHTTP_ne_redirected (hexcl : Exclusive routes) :
    (entries handlers routes).serveHTTP method path rawQuery ≠ .redirected := by
  intro hredirected
  unfold PatternServeMux.serveHTTP at hredirected
  split at hredirected
  next => cases hredirected
  next hfirst =>
    obtain ⟨_, _, _, _, _, htarget, _⟩ := (firstMatch_eq_some hexcl).mp hfirst
    cases htarget
  next => split at hredirected <;> cases hredirected

/-- The same answer, but for the order of the methods that are allowed. -/
def Outcome.Same : Outcome H → Outcome H → Prop
  | .methodNotAllowed allowed, .methodNotAllowed allowed' => allowed.Perm allowed'
  | o, o' => o = o'

theorem Exclusive.perm (hexcl : Exclusive routes) (hperm : routes.Perm routes') :
    Exclusive routes' := by
  intro r hr r' hr'
  exact hexcl r (hperm.mem_iff.mpr hr) r' (hperm.mem_iff.mpr hr')

/-- The order in which exclusive routes are registered makes no difference. -/
theorem serveHTTP_perm (hexcl : Exclusive routes) (hperm : routes.Perm routes') (method : String)
    (path rawQuery : Bytes) :
    ((entries handlers routes).serveHTTP method path rawQuery).Same
      ((entries handlers routes').serveHTTP method path rawQuery) := by
  have hfirst : firstMatch ((entries handlers routes).handlers method) path =
      firstMatch ((entries handlers routes').handlers method) path := by
    ext ⟨t, params⟩
    rw [firstMatch_eq_some hexcl, firstMatch_eq_some (hexcl.perm hperm)]
    simp only [hperm.mem_iff]
  have hallowed : ((entries handlers routes).allowed method path).Perm
      ((entries handlers routes').allowed method path) :=
    ((hperm.filterMap _).filter _).map _
  unfold PatternServeMux.serveHTTP
  rw [hfirst]
  split
  next => rfl
  next => rfl
  next =>
    cases hleft : (entries handlers routes).allowed method path with
    | nil =>
      rw [hleft] at hallowed
      rw [hallowed.nil_eq.symm]
      rfl
    | cons m ms =>
      rw [hleft] at hallowed
      cases hright : (entries handlers routes').allowed method path with
      | nil =>
        rw [hright] at hallowed
        exact absurd hallowed.length_eq (by simp)
      | cons m' ms' =>
        rw [hright] at hallowed
        exact hallowed

end Dispatch
end RoutingApi.Http
