import RoutingApi.Text.Lines

/-! Paths and queries of URLs as bytes: percent-encoding in the two modes that paths and query
components need, the parsing of a reference that starts with a slash, and the values of a query. -/
namespace RoutingApi.Text.Url

section Escaping

inductive Mode where
  | path
  | queryComponent
  deriving DecidableEq, Repr

def percent : UInt8 := 37
def plus : UInt8 := 43
def space : UInt8 := 32
def slash : UInt8 := 47
def question : UInt8 := 63
def hash : UInt8 := 35
def ampersand : UInt8 := 38
def equals : UInt8 := 61
def semicolon : UInt8 := 59

def isAlnum (c : UInt8) : Bool :=
  (97 ≤ c && c ≤ 122) || (65 ≤ c && c ≤ 90) || (48 ≤ c && c ≤ 57)

/-- The marks `-_.~`. -/
def isMark (c : UInt8) : Bool := c == 45 || c == 95 || c == 46 || c == 126

/-- The reserved characters `$&+,/:;=?@`. -/
def isReserved (c : UInt8) : Bool :=
  c == 36 || c == 38 || c == 43 || c == 44 || c == 47 || c == 58 || c == 59 || c == 61 ||
    c == 63 || c == 64

def shouldEscape (m : Mode) (c : UInt8) : Bool :=
  if isAlnum c || isMark c then false
  else if isReserved c then
    match m with
    | .path => c == question
    | .queryComponent => true
  else true

def upperhex (n : UInt8) : UInt8 := if n < 10 then 48 + n else 55 + n

def ishex (c : UInt8) : Bool :=
  (48 ≤ c && c ≤ 57) || (97 ≤ c && c ≤ 102) || (65 ≤ c && c ≤ 70)

def unhex (c : UInt8) : UInt8 :=
  if 48 ≤ c && c ≤ 57 then c - 48
  else if 97 ≤ c && c ≤ 102 then c - 97 + 10
  else if 65 ≤ c && c ≤ 70 then c - 65 + 10
  else 0

def escapeByte (m : Mode) (c : UInt8) : Bytes :=
  if shouldEscape m c then
    if c = space ∧ m = .queryComponent then [plus]
    else [percent, upperhex (c >>> 4), upperhex (c &&& 15)]
  else [c]

def escape (m : Mode) (s : Bytes) : Bytes := s.flatMap (escapeByte m)

/-- What an unescaped byte stands for. -/
def literal (m : Mode) (c : UInt8) : UInt8 := if c = plus ∧ m = .queryComponent then space else c

def unescape (m : Mode) : Bytes → Option Bytes
  | [] => some []
  | c :: rest =>
    if c = percent then
      match rest with
      | a :: b :: rest =>
        if ishex a && ishex b then (unescape m rest).map ((unhex a <<< 4 ||| unhex b) :: ·)
        else none
      | _ => none
    else (unescape m rest).map (literal m c :: ·)

theorem unescape_cons {m : Mode} {c : UInt8} (hc : c ≠ percent) (s : Bytes) :
    unescape m (c :: s) = (unescape m s).map (literal m c :: ·) := by
  rw [unescape.eq_def m (c :: s)]
  simp only [if_neg hc]

theorem unescape_percent {m : Mode} {a b : UInt8} (h : (ishex a && ishex b) = true) (s : Bytes) :
    unescape m (percent :: a :: b :: s) =
      (unescape m s).map ((unhex a <<< 4 ||| unhex b) :: ·) := by
  rw [unescape, if_pos rfl]
  simp only [h, if_true]

/-- A byte has one of 256 values. -/
theorem forall_byte {p : UInt8 → Prop} (h : ∀ n : Fin 256, p (UInt8.ofFin n)) : ∀ c, p c :=
  fun c => h c.toFin

/-- The two digits of an escaped byte. -/
theorem hex_byte (c : UInt8) :
    (ishex (upperhex (c >>> 4)) && ishex (upperhex (c &&& 15))) = true ∧
      unhex (upperhex (c >>> 4)) <<< 4 ||| unhex (upperhex (c &&& 15)) = c := by
  revert c
  apply forall_byte
  decide +kernel

/-- A byte that is left as it is stands for itself. -/
theorem literal_of_shouldEscape (m : Mode) (c : UInt8) (h : shouldEscape m c = false) :
    c ≠ percent ∧ literal m c = c := by
  revert c
  apply forall_byte
  cases m <;> decide +kernel

theorem unescape_escapeByte (m : Mode) (c : UInt8) (s : Bytes) :
    unescape m (escapeByte m c ++ s) = (unescape m s).map (c :: ·) := by
  unfold escapeByte
  split
  next =>
    split
    next hspace =>
      obtain ⟨rfl, rfl⟩ := hspace
      exact unescape_cons (by decide) s
    next =>
      obtain ⟨hhex, hbyte⟩ := hex_byte c
      refine (unescape_percent hhex s).trans ?_
      rw [hbyte]
  next hplain =>
    obtain ⟨hne, hliteral⟩ := literal_of_shouldEscape m c (by simpa using hplain)
    refine (unescape_cons hne s).trans ?_
    rw [hliteral]

/-- What is escaped is read back, whatever follows it. -/
theorem unescape_escape_append (m : Mode) (s t : Bytes) :
    unescape m (escape m s ++ t) = (unescape m t).map (s ++ ·) := by
  induction s with
  | nil => simp [escape]
  | cons c s ih =>
    rw [escape, List.flatMap_cons, List.append_assoc, unescape_escapeByte]
    show (unescape m (escape m s ++ t)).map _ = _
    rw [ih, Option.map_map]
    rfl

theorem unescape_escape (m : Mode) (s : Bytes) : unescape m (escape m s) = some s := by
  have h := unescape_escape_append m s []
  simpa [unescape] using h

/-- What holds of the bytes that each byte is escaped to holds of an escaped text. The bytes are
tested by `all`, since a quantifier over them could be decided by all 256 values instead. -/
theorem mem_escape {m : Mode} (p : UInt8 → UInt8 → Bool)
    (h : ∀ n : Fin 256, (escapeByte m (UInt8.ofFin n)).all (p (UInt8.ofFin n)) = true)
    {s : Bytes} {b : UInt8} (hb : b ∈ escape m s) : ∃ c ∈ s, p c b = true := by
  obtain ⟨c, hc, hbc⟩ := List.mem_flatMap.mp hb
  have hall : ∀ c, (escapeByte m c).all (p c) = true := forall_byte h
  exact ⟨c, hc, List.all_eq_true.mp (hall c) b hbc⟩

end Escaping

section Queries

/-- `strings.Cut`, without whether the separator was found. -/
def cut (sep : UInt8) (s : Bytes) : Bytes × Bytes :=
  (s.takeWhile (· != sep), (s.dropWhile (· != sep)).drop 1)

/-- The keys of a query in their order, each with its values. -/
abbrev Values := List (Bytes × List Bytes)

def Values.pairs (v : Values) : List (Bytes × Bytes) := v.flatMap fun kv => kv.2.map (kv.1, ·)

def encodePair (kv : Bytes × Bytes) : Bytes :=
  escape .queryComponent kv.1 ++ equals :: escape .queryComponent kv.2

/-- `Values.Encode`. -/
def Values.encode (v : Values) : Bytes := [ampersand].intercalate (v.pairs.map encodePair)

/-- A part that is empty, has a semicolon or is badly escaped is left out. -/
def parsePair (part : Bytes) : Option (Bytes × Bytes) :=
  if semicolon ∈ part ∨ part = [] then none
  else do
    let key ← unescape .queryComponent (cut equals part).1
    let value ← unescape .queryComponent (cut equals part).2
    pure (key, value)

def parseQuery (query : Bytes) : List (Bytes × Bytes) :=
  (query.splitOn ampersand).filterMap parsePair

/-- The values of a key in a query, in their order. -/
def valuesOf (query key : Bytes) : List Bytes :=
  ((parseQuery query).filter (·.1 = key)).map (·.2)

/-- `Values.Get`. -/
def get (query key : Bytes) : Bytes := (valuesOf query key).headD []

theorem cut_append {sep : UInt8} {s : Bytes} (hs : sep ∉ s) (t : Bytes) :
    cut sep (s ++ sep :: t) = (s, t) := by
  have hall : ∀ c ∈ s, (c != sep) = true := by
    intro c hc
    exact bne_iff_ne.mpr fun h => hs (h ▸ hc)
  rw [cut, List.takeWhile_append_of_pos hall, List.dropWhile_append_of_pos hall]
  simp

/-- No separator of a query occurs in an escaped component. -/
theorem not_mem_escape_query {sep : UInt8} (hsep : sep = ampersand ∨ sep = equals ∨ sep = semicolon)
    (s : Bytes) : sep ∉ escape .queryComponent s := by
  intro hmem
  obtain ⟨c, -, hc⟩ := mem_escape (fun _ b => b != ampersand && b != equals && b != semicolon)
    (by decide +kernel) hmem
  rcases hsep with rfl | rfl | rfl <;> cases hc

theorem not_mem_encodePair {sep : UInt8} (hsep : sep = ampersand ∨ sep = semicolon)
    (kv : Bytes × Bytes) : sep ∉ encodePair kv := by
  have hne : sep ≠ equals := by
    rcases hsep with rfl | rfl <;> decide
  have hany : sep = ampersand ∨ sep = equals ∨ sep = semicolon := by tauto
  simp [encodePair, hne, not_mem_escape_query hany]

theorem parsePair_encodePair (kv : Bytes × Bytes) : parsePair (encodePair kv) = some kv := by
  have hplain : ¬(semicolon ∈ encodePair kv ∨ encodePair kv = []) := by
    refine not_or.mpr ⟨not_mem_encodePair (.inr rfl) kv, ?_⟩
    simp [encodePair]
  have hcut : cut equals (encodePair kv) =
      (escape .queryComponent kv.1, escape .queryComponent kv.2) :=
    cut_append (not_mem_escape_query (.inr (.inl rfl)) kv.1) _
  rw [parsePair, if_neg hplain, hcut]
  simp [unescape_escape]

/-- A part of a query, whatever follows it. -/
theorem parseQuery_cons {part : Bytes} (h : ampersand ∉ part) (rest : Bytes) :
    parseQuery (part ++ ampersand :: rest) = (parsePair part).toList ++ parseQuery rest := by
  have hsplit : (part ++ ampersand :: rest).splitOn ampersand = part :: rest.splitOn ampersand := by
    apply List.splitOnP_append_cons_of_forall_mem
    · intro c hc
      exact beq_eq_false_iff_ne.mpr fun heq => h (heq ▸ hc)
    · exact beq_self_eq_true ampersand
  rw [parseQuery, hsplit, List.filterMap_cons]
  cases parsePair part <;> rfl

/-- What is encoded is read back, whatever query follows it. -/
theorem parseQuery_encode_append (v : Values) (hv : v.pairs ≠ []) (rest : Bytes) :
    parseQuery (v.encode ++ ampersand :: rest) = v.pairs ++ parseQuery rest := by
  have hpair (kv : Bytes × Bytes) := not_mem_encodePair (.inl rfl) kv
  unfold Values.encode
  generalize v.pairs = pairs at hv ⊢
  induction pairs with
  | nil => exact absurd rfl hv
  | cons kv pairs ih =>
    cases pairs with
    | nil =>
      simp only [List.map_cons, List.map_nil, List.intercalate_singleton]
      rw [parseQuery_cons (hpair kv), parsePair_encodePair]
      rfl
    | cons kv' pairs =>
      have hrest := ih (List.cons_ne_nil _ _)
      simp only [List.map_cons] at hrest ⊢
      rw [List.intercalate_cons_cons, List.append_assoc, List.append_assoc]
      rw [show [ampersand] ++ ([ampersand].intercalate (encodePair kv' :: pairs.map encodePair) ++
        ampersand :: rest) = ampersand :: ([ampersand].intercalate
          (encodePair kv' :: pairs.map encodePair) ++ ampersand :: rest) from rfl]
      rw [parseQuery_cons (hpair kv), parsePair_encodePair, hrest]
      rfl

theorem parseQuery_encode (v : Values) : parseQuery v.encode = v.pairs := by
  unfold Values.encode
  cases hpairs : v.pairs with
  | nil => rfl
  | cons kv pairs =>
    have hplain : ∀ part ∈ (kv :: pairs).map encodePair, ampersand ∉ part := by
      intro part hpart
      obtain ⟨kv', -, rfl⟩ := List.mem_map.mp hpart
      exact not_mem_encodePair (.inl rfl) kv'
    rw [parseQuery, List.splitOn_intercalate ampersand hplain (by simp), List.filterMap_map]
    have hread : parsePair ∘ encodePair = some := funext parsePair_encodePair
    rw [hread, List.filterMap_some]

end Queries

section Paths

/-- What is used of a URL; a fragment is never sent. -/
structure Reference where
  path : Bytes
  rawPath : Bytes
  rawQuery : Bytes
  forceQuery : Bool
  deriving DecidableEq, Repr

/-- The marks that an encoded path may have although they would be escaped by default, and the
percent sign: `!$&'()*+,;=:@[]%`. -/
def isLenient (c : UInt8) : Bool :=
  c == 33 || c == 36 || c == 38 || c == 39 || c == 40 || c == 41 || c == 42 || c == 43 ||
    c == 44 || c == 59 || c == 61 || c == 58 || c == 64 || c == 91 || c == 93 || c == 37

def validEncoded (s : Bytes) : Bool := s.all fun c => isLenient c || !shouldEscape .path c

/-- The path, and the text of it where that is not the default encoding. -/
def setPath (p : Bytes) : Option (Bytes × Bytes) :=
  (unescape .path p).map fun path => (path, if p = escape .path path then [] else p)

def Reference.escapedPath (u : Reference) : Bytes :=
  if u.rawPath ≠ [] ∧ validEncoded u.rawPath = true ∧ unescape .path u.rawPath = some u.path then
    u.rawPath
  else if u.path = [42] then [42]
  else escape .path u.path

def isControl (c : UInt8) : Bool := c < space || c == 127

/-- The reference up to the query, the query, and whether there is an empty one. -/
def cutQuery (s : Bytes) : Bytes × Bytes × Bool :=
  if s.getLast? = some question ∧ s.count question = 1 then (s.dropLast, [], true)
  else ((cut question s).1, (cut question s).2, false)

/-- A reference that begins with a single slash and has no fragment. -/
def parseRequestURI (s : Bytes) : Option Reference :=
  if s.any isControl then none
  else
    let (rest, rawQuery, forceQuery) := cutQuery s
    (setPath rest).map fun p => ⟨p.1, p.2, rawQuery, forceQuery⟩

/-- The same with a fragment, which has to be well escaped. -/
def parse (s : Bytes) : Option Reference := do
  let _ ← unescape .path (cut hash s).2
  parseRequestURI (cut hash s).1

/-- The text of a URL from its path on, without the fragment. -/
def Reference.requestURI (u : Reference) : Bytes :=
  u.escapedPath ++ if u.forceQuery || u.rawQuery != [] then question :: u.rawQuery else []

theorem escape_append (m : Mode) (s t : Bytes) : escape m (s ++ t) = escape m s ++ escape m t :=
  List.flatMap_append

theorem validEncoded_escape (s : Bytes) : validEncoded (escape .path s) = true := by
  rw [validEncoded, List.all_eq_true]
  intro b hb
  obtain ⟨c, -, hc⟩ := mem_escape (fun _ b => isLenient b || !shouldEscape .path b)
    (by decide +kernel) hb
  exact hc

/-- How a path is written: as it was given, if that is an encoding. -/
def normalPath (p path : Bytes) : Bytes := if validEncoded p then p else escape .path path

theorem validEncoded_normalPath (p path : Bytes) : validEncoded (normalPath p path) = true := by
  unfold normalPath
  split
  next h => exact h
  next => exact validEncoded_escape path

theorem unescape_normalPath {p path : Bytes} (h : unescape .path p = some path) :
    unescape .path (normalPath p path) = some path := by
  unfold normalPath
  split
  next => exact h
  next => exact unescape_escape .path path

theorem escapedPath_eq {p path : Bytes} (h : unescape .path p = some path) (hstar : path ≠ [42])
    (rawQuery : Bytes) (forceQuery : Bool) :
    Reference.escapedPath
      ⟨path, if p = escape .path path then [] else p, rawQuery, forceQuery⟩ = normalPath p path := by
  by_cases hp : p = escape .path path
  · have hvalid : validEncoded p = true := hp ▸ validEncoded_escape path
    simp [Reference.escapedPath, normalPath, hvalid, hstar, ← hp]
  · have hne : p ≠ [] := by
      rintro rfl
      cases h
      exact hp rfl
    by_cases hvalid : validEncoded p = true
    · simp [Reference.escapedPath, normalPath, hp, hvalid, hne, h]
    · simp [Reference.escapedPath, normalPath, hp, hvalid, hstar]

/-- What an encoded path has none of. -/
theorem validEncoded_mem {s : Bytes} (h : validEncoded s = true) {c : UInt8} (hc : c ∈ s) :
    c ≠ question ∧ c ≠ hash ∧ isControl c = false := by
  have hbyte : ∀ c : UInt8, (isLenient c || !shouldEscape .path c) = true →
      c ≠ question ∧ c ≠ hash ∧ isControl c = false := by
    apply forall_byte
    decide +kernel
  exact hbyte c (List.all_eq_true.mp h c hc)

theorem cut_of_not_mem {sep : UInt8} {s : Bytes} (hs : sep ∉ s) : cut sep s = (s, []) := by
  have hall : ∀ c ∈ s, (c != sep) = true := by
    intro c hc
    exact bne_iff_ne.mpr fun h => hs (h ▸ hc)
  rw [cut, List.takeWhile_eq_self_iff.mpr hall, List.dropWhile_eq_nil_iff.mpr hall]
  rfl

theorem cutQuery_of_not_mem {s : Bytes} (hs : question ∉ s) : cutQuery s = (s, [], false) := by
  rw [cutQuery, List.count_eq_zero_of_not_mem hs, cut_of_not_mem hs]
  simp

theorem cutQuery_append {s query : Bytes} (hs : question ∉ s) (hquery : question ∉ query)
    (hne : query ≠ []) : cutQuery (s ++ question :: query) = (s, query, false) := by
  have hlast : (s ++ question :: query).getLast? ≠ some question := by
    rw [List.getLast?_append, List.getLast?_cons]
    obtain ⟨c, hc⟩ := Option.isSome_iff_exists.mp (List.getLast?_isSome.mpr hne)
    have hmem := List.mem_of_getLast? hc
    rw [hc]
    rintro ⟨⟩
    exact hquery hmem
  rw [cutQuery, if_neg (fun h => hlast h.1), cut_append hs]

/-- A reference that is only a path, without controls and query. -/
theorem parseRequestURI_path {s path : Bytes} (hquestion : question ∉ s)
    (hcontrol : ∀ c ∈ s, isControl c = false) (hpath : unescape .path s = some path) :
    parseRequestURI s = some ⟨path, if s = escape .path path then [] else s, [], false⟩ := by
  have hany : s.any isControl = false := by
    rw [List.any_eq_false]
    exact fun c hc => by simp [hcontrol c hc]
  simp [parseRequestURI, hany, cutQuery_of_not_mem hquestion, setPath, hpath]

/-- An encoded path is parsed as it stands. -/
theorem parse_validEncoded {p path : Bytes} (hvalid : validEncoded p = true)
    (hpath : unescape .path p = some path) :
    parse p = some ⟨path, if p = escape .path path then [] else p, [], false⟩ := by
  have hhash : hash ∉ p := fun h => (validEncoded_mem hvalid h).2.1 rfl
  have hquestion : question ∉ p := fun h => (validEncoded_mem hvalid h).1 rfl
  rw [parse, cut_of_not_mem hhash]
  exact parseRequestURI_path hquestion (fun c hc => (validEncoded_mem hvalid hc).2.2) hpath

/-- What an encoded query has none of. -/
theorem mem_encode {v : Values} {c : UInt8} (hc : c ∈ v.encode) :
    c ≠ question ∧ isControl c = false := by
  have hescape {s : Bytes} {b : UInt8} (hb : b ∈ escape .queryComponent s) :
      b ≠ question ∧ isControl b = false := by
    obtain ⟨a, -, ha⟩ := mem_escape (fun _ b => b != question && !isControl b)
      (by decide +kernel) hb
    simpa using ha
  have hpair {kv : Bytes × Bytes} {b : UInt8} (hb : b ∈ encodePair kv) :
      b ≠ question ∧ isControl b = false := by
    rcases List.mem_append.mp hb with hb | hb
    · exact hescape hb
    · rcases List.mem_cons.mp hb with rfl | hb
      · decide
      · exact hescape hb
  unfold Values.encode at hc
  generalize v.pairs = pairs at hc
  induction pairs with
  | nil => cases hc
  | cons kv pairs ih =>
    cases pairs with
    | nil => exact hpair (by simpa using hc)
    | cons kv' pairs =>
      simp only [List.map_cons, List.intercalate_cons_cons, List.mem_append,
        List.mem_singleton] at hc
      rcases hc with (hc | rfl) | hc
      · exact hpair hc
      · decide
      · exact ih hc

/-- A request with an encoded path and query is parsed into the same path and query. -/
theorem parseRequestURI_sent {p path : Bytes} (hvalid : validEncoded p = true)
    (hpath : unescape .path p = some path) (hstar : path ≠ [42]) (v : Values) :
    ∃ u, parseRequestURI (Reference.requestURI
        ⟨path, if p = escape .path path then [] else p, v.encode, false⟩) = some u ∧
      u.escapedPath = p ∧ u.rawQuery = v.encode := by
  have hquestion : question ∉ p := fun h => (validEncoded_mem hvalid h).1 rfl
  have hnormal : normalPath p path = p := if_pos hvalid
  have hescaped (rawQuery : Bytes) : Reference.escapedPath
      ⟨path, if p = escape .path path then [] else p, rawQuery, false⟩ = p := by
    rw [escapedPath_eq hpath hstar, hnormal]
  unfold Reference.requestURI
  rw [hescaped]
  cases hquery : v.encode with
  | nil =>
    refine ⟨_, ?_, hescaped [], rfl⟩
    rw [show p ++ (if (false || ([] : Bytes) != []) = true then _ else []) = p by simp]
    exact parseRequestURI_path hquestion (fun c hc => (validEncoded_mem hvalid hc).2.2) hpath
  | cons c query =>
    rw [← hquery]
    have hne : v.encode ≠ [] := by simp [hquery]
    have hsent : (p ++ question :: v.encode).any isControl = false := by
      simp only [List.any_append, List.any_cons, Bool.or_eq_false_iff, List.any_eq_false]
      refine ⟨fun b hb => by simp [(validEncoded_mem hvalid hb).2.2], rfl, fun b hb => ?_⟩
      simp [(mem_encode hb).2]
    refine ⟨⟨path, if p = escape .path path then [] else p, v.encode, false⟩, ?_, hescaped _, rfl⟩
    simp [hne, parseRequestURI, hsent, setPath, hpath,
      cutQuery_append hquestion (fun h => (mem_encode h).1 rfl) hne]

end Paths

section Components

theorem unescape_plain {m : Mode} {s : Bytes} (hpercent : percent ∉ s) (hplus : plus ∉ s) :
    unescape m s = some s := by
  induction s with
  | nil => rfl
  | cons c s ih =>
    have hc : c ≠ percent := fun h => hpercent (h ▸ List.mem_cons_self)
    have hne : c ≠ plus := fun h => hplus (h ▸ List.mem_cons_self)
    have hliteral : literal m c = c := if_neg fun h => hne h.1
    rw [unescape_cons hc, hliteral, ih (fun h => hpercent (List.mem_cons_of_mem c h))
      fun h => hplus (List.mem_cons_of_mem c h)]
    rfl

/-- Escaped for a path and read as a query component: only a plus sign is misread. -/
theorem unescape_query_escape_path {s : Bytes} (hplus : plus ∉ s) :
    unescape .queryComponent (escape .path s) = some s := by
  induction s with
  | nil => rfl
  | cons c s ih =>
    have hc : c ≠ plus := fun h => hplus (h ▸ List.mem_cons_self)
    have hrest := ih fun h => hplus (List.mem_cons_of_mem c h)
    rw [escape, List.flatMap_cons]
    show unescape .queryComponent (escapeByte .path c ++ escape .path s) = _
    unfold escapeByte
    split
    next =>
      obtain ⟨hhex, hbyte⟩ := hex_byte c
      rw [if_neg (by simp)]
      refine (unescape_percent hhex (escape .path s)).trans ?_
      rw [hbyte, hrest]
      rfl
    next hplain =>
      obtain ⟨hne, -⟩ := literal_of_shouldEscape .path c (by simpa using hplain)
      have hliteral : literal .queryComponent c = c := if_neg fun h => hc h.1
      refine (unescape_cons hne (escape .path s)).trans ?_
      rw [hliteral, hrest]
      rfl

theorem mem_escape_path {s : Bytes} {b : UInt8} (hb : b ∈ escape .path s)
    (h : b = slash ∨ b = 0) : b ∈ s := by
  obtain ⟨c, hc, hbc⟩ := mem_escape (fun c b => b != slash && b != 0 || b == c)
    (by decide +kernel) hb
  have heq : b = c := by
    rcases h with rfl | rfl <;> simpa using hbc
  exact heq ▸ hc

end Components
end RoutingApi.Text.Url
