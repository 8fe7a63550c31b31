import RoutingApi.Text.Decimal

/-! JSON texts: how values are printed, and a parser that accepts the grammar and reads back what
was printed. -/
namespace RoutingApi.Text

/-- A value; of a number the literal is kept. -/
inductive Json where
  | null
  | bool (b : Bool)
  | num (literal : List Char)
  | str (s : List Char)
  | arr (items : List Json)
  | obj (members : List (List Char × Json))

namespace Json

section Printing

def hex4 (n : ℕ) : List Char :=
  [Nat.digitChar (n / 4096), Nat.digitChar (n / 256 % 16), Nat.digitChar (n / 16 % 16),
    Nat.digitChar (n % 16)]

/-- Characters that are written as they are neither in JSON nor in HTML are escaped. -/
def escapeChar (c : Char) : List Char :=
  if c = '"' ∨ c = '\\' then ['\\', c]
  else if c = '\x08' then ['\\', 'b']
  else if c = '\x0c' then ['\\', 'f']
  else if c = '\n' then ['\\', 'n']
  else if c = '\r' then ['\\', 'r']
  else if c = '\t' then ['\\', 't']
  else if c.toNat < 32 ∨ c = '<' ∨ c = '>' ∨ c = '&' ∨ c.toNat = 0x2028 ∨ c.toNat = 0x2029 then
    '\\' :: 'u' :: hex4 c.toNat
  else [c]

def quote (s : List Char) : List Char := '"' :: (s.flatMap escapeChar ++ ['"'])

mutual
def print : Json → List Char
  | .null => "null".toList
  | .bool true => "true".toList
  | .bool false => "false".toList
  | .num literal => literal
  | .str s => quote s
  | .arr [] => ['[', ']']
  | .arr (v :: vs) => '[' :: (print v ++ printItems vs)
  | .obj [] => ['\x7b', '\x7d']
  | .obj ((k, v) :: ms) => '\x7b' :: (quote k ++ ':' :: (print v ++ printMembers ms))

/-- The items behind the first, up to the closing bracket. -/
def printItems : List Json → List Char
  | [] => [']']
  | v :: vs => ',' :: (print v ++ printItems vs)

def printMembers : List (List Char × Json) → List Char
  | [] => ['\x7d']
  | (k, v) :: ms => ',' :: (quote k ++ ':' :: (print v ++ printMembers ms))
end

end Printing

section Parsing

def isSpace (c : Char) : Bool := c = ' ' || c = '\t' || c = '\r' || c = '\n'

def skip (s : List Char) : List Char := s.dropWhile isSpace

def hexValue (c : Char) : Option ℕ :=
  if c.isDigit then some (c.toNat - '0'.toNat)
  else if 'a' ≤ c ∧ c ≤ 'f' then some (c.toNat - 'a'.toNat + 10)
  else if 'A' ≤ c ∧ c ≤ 'F' then some (c.toNat - 'A'.toNat + 10)
  else none

def hexValue4 (a b c d : Char) : Option ℕ := do
  let a ← hexValue a
  let b ← hexValue b
  let c ← hexValue c
  let d ← hexValue d
  some (((a * 16 + b) * 16 + c) * 16 + d)

/-- The character that a short escape stands for. -/
def unescape (c : Char) : Option Char :=
  if c = '"' ∨ c = '\\' ∨ c = '/' then some c
  else if c = 'b' then some '\x08'
  else if c = 'f' then some '\x0c'
  else if c = 'n' then some '\n'
  else if c = 'r' then some '\r'
  else if c = 't' then some '\t'
  else none

/-- What a string literal is made of: characters, and code units by their number. -/
inductive Unit16 where
  | char (c : Char)
  | code (n : ℕ)
  deriving DecidableEq, Repr

/-- The units of a string up to the closing quote, and what is left behind it. -/
def units : List Char → Option (List Unit16 × List Char)
  | [] => none
  | c :: r =>
    if c = '"' then some ([], r)
    else if c = '\\' then
      match r with
      | [] => none
      | e :: r =>
        if e = 'u' then
          match r with
          | a :: b :: c :: d :: r =>
            match hexValue4 a b c d, units r with
            | some n, some (us, rest) => some (.code n :: us, rest)
            | _, _ => none
          | _ => none
        else
          match unescape e, units r with
          | some c, some (us, rest) => some (.char c :: us, rest)
          | _, _ => none
    else if c.toNat < 32 then none
    else
      match units r with
      | some (us, rest) => some (.char c :: us, rest)
      | none => none

def isSurrogate (n : ℕ) : Bool := 0xd800 ≤ n && n < 0xe000

/-- `utf16.DecodeRune`, if the two units are a pair. -/
def decodePair (n m : ℕ) : Option Char :=
  if 0xd800 ≤ n ∧ n < 0xdc00 ∧ 0xdc00 ≤ m ∧ m < 0xe000 then
    some (Char.ofNat ((n - 0xd800) * 1024 + (m - 0xdc00) + 0x10000))
  else none

/-- What stands for a surrogate without its other half. -/
def lone : Option ℕ → List Char
  | none => []
  | some _ => [Char.ofNat 0xfffd]

/-- The characters of the units behind a surrogate or none: pairs are put together. -/
def assemble : Option ℕ → List Unit16 → List Char
  | pending, [] => lone pending
  | pending, .char c :: us => lone pending ++ c :: assemble none us
  | pending, .code n :: us =>
    match pending.bind (decodePair · n) with
    | some c => c :: assemble none us
    | none =>
      lone pending ++
        if isSurrogate n then assemble (some n) us else Char.ofNat n :: assemble none us

def stringBody (s : List Char) : Option (List Char × List Char) :=
  (units s).map fun p => (assemble none p.1, p.2)

/-- The digits before a point: no zero stands before others. -/
def integerPart (s : List Char) : Option (List Char × List Char) :=
  match s with
  | [] => none
  | c :: r =>
    if c = '0' then some (['0'], r)
    else if c.isDigit then some (s.takeWhile Char.isDigit, s.dropWhile Char.isDigit)
    else none

/-- Digits behind a lead such as a point, if it stands there. -/
def digitsAfter (lead s : List Char) : Option (List Char × List Char) :=
  let ds := s.takeWhile Char.isDigit
  if ds = [] then none else some (lead ++ ds, s.dropWhile Char.isDigit)

def fractionPart (s : List Char) : Option (List Char × List Char) :=
  match s with
  | [] => some ([], [])
  | c :: r => if c = '.' then digitsAfter ['.'] r else some ([], s)

def exponentPart (s : List Char) : Option (List Char × List Char) :=
  match s with
  | [] => some ([], [])
  | c :: r =>
    if c = 'e' ∨ c = 'E' then
      match r with
      | [] => none
      | sign :: r' =>
        if sign = '+' ∨ sign = '-' then digitsAfter [c, sign] r' else digitsAfter [c] r
    else some ([], s)

def sign (s : List Char) : List Char × List Char :=
  match s with
  | [] => ([], [])
  | c :: r => if c = '-' then (['-'], r) else ([], s)

/-- The literal of a number. -/
def number (s : List Char) : Option (List Char × List Char) := do
  let (minus, s) := sign s
  let (i, s) ← integerPart s
  let (f, s) ← fractionPart s
  let (e, s) ← exponentPart s
  some (minus ++ i ++ f ++ e, s)

def word (w : List Char) (v : Json) (s : List Char) : Option (Json × List Char) :=
  if w.isPrefixOf s then some (v, s.drop w.length) else none

mutual
/-- A value at the front of a text, and what is left behind it. The fuel is more than enough if it
is the length of the text. -/
def value : ℕ → List Char → Option (Json × List Char)
  | 0, _ => none
  | fuel + 1, s =>
    match skip s with
    | [] => none
    | c :: r =>
      if c = '"' then (stringBody r).map fun p => (.str p.1, p.2)
      else if c = '[' then
        match skip r with
        | [] => none
        | d :: r' =>
          if d = ']' then some (.arr [], r')
          else (items fuel (d :: r')).map fun p => (.arr p.1, p.2)
      else if c = '\x7b' then
        match skip r with
        | [] => none
        | d :: r' =>
          if d = '\x7d' then some (.obj [], r')
          else (members fuel (d :: r')).map fun p => (.obj p.1, p.2)
      else if c = 'n' then word "null".toList .null (c :: r)
      else if c = 't' then word "true".toList (.bool true) (c :: r)
      else if c = 'f' then word "false".toList (.bool false) (c :: r)
      else (number (c :: r)).map fun p => (.num p.1, p.2)

/-- Items separated by commas, up to the closing bracket. -/
def items : ℕ → List Char → Option (List Json × List Char)
  | 0, _ => none
  | fuel + 1, s =>
    match value fuel s with
    | none => none
    | some (v, r) =>
      match skip r with
      | [] => none
      | c :: r =>
        if c = ']' then some ([v], r)
        else if c = ',' then (items fuel r).map fun p => (v :: p.1, p.2)
        else none

def members : ℕ → List Char → Option (List (List Char × Json) × List Char)
  | 0, _ => none
  | fuel + 1, s =>
    match skip s with
    | [] => none
    | q :: r =>
      if q = '"' then
        match stringBody r with
        | none => none
        | some (k, r) =>
          match skip r with
          | [] => none
          | colon :: r =>
            if colon = ':' then
              match value fuel r with
              | none => none
              | some (v, r) =>
                match skip r with
                | [] => none
                | c :: r =>
                  if c = '\x7d' then some ([(k, v)], r)
                  else if c = ',' then (members fuel r).map fun p => ((k, v) :: p.1, p.2)
                  else none
            else none
      else none
end

/-- The value that a text consists of. -/
def parse (s : List Char) : Option Json :=
  match value s.length s with
  | some (v, r) => if skip r = [] then some v else none
  | none => none

end Parsing

section Strings

theorem hexValue_digitChar {k : ℕ} (h : k < 16) : hexValue (Nat.digitChar k) = some k := by
  interval_cases k <;> decide

theorem hexValue4_hex4 {n : ℕ} (h : n < 65536) :
    hexValue4 (Nat.digitChar (n / 4096)) (Nat.digitChar (n / 256 % 16))
      (Nat.digitChar (n / 16 % 16)) (Nat.digitChar (n % 16)) = some n := by
  simp only [hexValue4, hexValue_digitChar (show n / 4096 < 16 by omega),
    hexValue_digitChar (show n / 256 % 16 < 16 by omega),
    hexValue_digitChar (show n / 16 % 16 < 16 by omega),
    hexValue_digitChar (show n % 16 < 16 by omega), bind, Option.bind]
  congr 1
  omega

/-- A short escape is read as the character it stands for. -/
theorem units_short {e c : Char} (he : e ≠ 'u') (h : unescape e = some c) (t : List Char) :
    units ('\\' :: e :: t) = (units t).map fun p => (.char c :: p.1, p.2) := by
  rw [units.eq_def]
  simp only [if_neg (show '\\' ≠ '"' by decide), if_true, if_neg he, h]
  cases units t <;> rfl

theorem units_code {n : ℕ} (h : n < 65536) (t : List Char) :
    units ('\\' :: 'u' :: (hex4 n ++ t)) = (units t).map fun p => (.code n :: p.1, p.2) := by
  rw [units.eq_def]
  simp only [if_neg (show '\\' ≠ '"' by decide), if_true, hex4, List.cons_append, List.nil_append,
    hexValue4_hex4 h]
  cases units t <;> rfl

theorem units_char {c : Char} (hquote : c ≠ '"') (hback : c ≠ '\\') (hcontrol : ¬c.toNat < 32)
    (t : List Char) : units (c :: t) = (units t).map fun p => (.char c :: p.1, p.2) := by
  rw [units.eq_def]
  simp only [if_neg hquote, if_neg hback, if_neg hcontrol]
  cases units t <;> rfl

theorem assemble_char (c : Char) (us : List Unit16) :
    assemble none (.char c :: us) = c :: assemble none us := rfl

/-- A unit outside the surrogates is a character. -/
theorem assemble_code {c : Char} (h : isSurrogate c.toNat = false) (us : List Unit16) :
    assemble none (.code c.toNat :: us) = c :: assemble none us := by
  simp [assemble, h, lone]

/-- The three ways in which a character is written. -/
theorem escapeChar_cases (c : Char) :
    (∃ e, escapeChar c = ['\\', e] ∧ e ≠ 'u' ∧ 32 ≤ e.toNat ∧ unescape e = some c) ∨
      (escapeChar c = '\\' :: 'u' :: hex4 c.toNat ∧ c.toNat < 65536 ∧
        isSurrogate c.toNat = false) ∨
      (escapeChar c = [c] ∧ c ≠ '"' ∧ c ≠ '\\' ∧ ¬c.toNat < 32) := by
  unfold escapeChar
  split
  next h => rcases h with rfl | rfl <;> exact .inl ⟨_, rfl, by decide⟩
  next hquote =>
    split
    next h => exact .inl ⟨_, rfl, by rw [h]; decide⟩
    next =>
      split
      next h => exact .inl ⟨_, rfl, by rw [h]; decide⟩
      next =>
        split
        next h => exact .inl ⟨_, rfl, by rw [h]; decide⟩
        next =>
          split
          next h => exact .inl ⟨_, rfl, by rw [h]; decide⟩
          next =>
            split
            next h => exact .inl ⟨_, rfl, by rw [h]; decide⟩
            next =>
              split
              next h =>
                refine .inr (.inl ⟨rfl, ?_⟩)
                rcases h with h | rfl | rfl | rfl | h | h
                · constructor
                  · omega
                  · simp [isSurrogate]
                    omega
                · decide
                · decide
                · decide
                · rw [h]; decide
                · rw [h]; decide
              next h =>
                obtain ⟨hq, hb⟩ := not_or.mp hquote
                exact .inr (.inr ⟨rfl, hq, hb, fun hlt => h (.inl hlt)⟩)

/-- What is written for a character is read as one unit, which stands for it. -/
theorem units_escapeChar (c : Char) (t : List Char) :
    ∃ u, units (escapeChar c ++ t) = (units t).map (fun p => (u :: p.1, p.2)) ∧
      ∀ us, assemble none (u :: us) = c :: assemble none us := by
  rcases escapeChar_cases c with ⟨e, hc, hu, -, he⟩ | ⟨hc, hsmall, hsurrogate⟩ | ⟨hc, hq, hb, hlt⟩
  · rw [hc]
    exact ⟨.char c, units_short hu he t, assemble_char c⟩
  · rw [hc]
    exact ⟨.code c.toNat, units_code hsmall t, assemble_code hsurrogate⟩
  · rw [hc]
    exact ⟨.char c, units_char hq hb hlt t, assemble_char c⟩

/-- A quoted string is read back. -/
theorem stringBody_quote (s rest : List Char) :
    stringBody (s.flatMap escapeChar ++ '"' :: rest) = some (s, rest) := by
  have hunits : ∃ us, units (s.flatMap escapeChar ++ '"' :: rest) = some (us, rest) ∧
      assemble none us = s := by
    induction s with
    | nil => exact ⟨[], by rw [List.flatMap_nil, List.nil_append, units.eq_def]; rfl, rfl⟩
    | cons c s ih =>
      obtain ⟨us, hus, hs⟩ := ih
      obtain ⟨u, hu, hc⟩ := units_escapeChar c (s.flatMap escapeChar ++ '"' :: rest)
      refine ⟨u :: us, ?_, by rw [hc, hs]⟩
      rw [List.flatMap_cons, List.append_assoc, hu, hus]
      rfl
  obtain ⟨us, hus, hs⟩ := hunits
  rw [stringBody, hus, Option.map_some, hs]

end Strings

section Numbers

/-- What can stand behind an integer without becoming a part of it. -/
def Delimits (rest : List Char) : Prop :=
  ∀ c ∈ rest.head?, c.isDigit = false ∧ c ≠ '.' ∧ c ≠ 'e' ∧ c ≠ 'E'

theorem takeWhile_digits {ds rest : List Char} (hds : ∀ c ∈ ds, c.isDigit = true)
    (h : Delimits rest) : (ds ++ rest).takeWhile Char.isDigit = ds ∧
      (ds ++ rest).dropWhile Char.isDigit = rest := by
  rw [List.takeWhile_append_of_pos hds, List.dropWhile_append_of_pos hds]
  cases rest with
  | nil => simp
  | cons c rest => simp [(h c rfl).1]

theorem integerPart_digits {n : ℕ} {rest : List Char} (h : Delimits rest) :
    integerPart (Nat.toDigits 10 n ++ rest) = some (Nat.toDigits 10 n, rest) := by
  rcases Nat.eq_zero_or_pos n with rfl | hpos
  · rfl
  · have hdigit (c : Char) (hc : c ∈ Nat.toDigits 10 n) : c.isDigit = true :=
      Nat.isDigit_of_mem_toDigits (by decide) (by decide) hc
    have hsplit := takeWhile_digits hdigit h
    have hhead := head_toDigits_ne hpos
    cases hds : Nat.toDigits 10 n with
    | nil => exact absurd hds Nat.toDigits_ne_nil
    | cons c ds =>
      rw [hds] at hdigit hsplit hhead
      have hzero : c ≠ '0' := by simpa using hhead
      rw [List.cons_append] at hsplit ⊢
      simp only [integerPart, if_neg hzero, hdigit c List.mem_cons_self, if_true, hsplit.1, hsplit.2]

theorem fractionPart_none {rest : List Char} (h : Delimits rest) :
    fractionPart rest = some ([], rest) := by
  cases rest with
  | nil => rfl
  | cons c rest => exact if_neg (h c rfl).2.1

theorem exponentPart_none {rest : List Char} (h : Delimits rest) :
    exponentPart rest = some ([], rest) := by
  cases rest with
  | nil => rfl
  | cons c rest => exact if_neg (not_or.mpr (h c rfl).2.2)

/-- An integer is read back. -/
theorem number_decimal (x : ℤ) {rest : List Char} (h : Delimits rest) :
    number (decimal x ++ rest) = some (decimal x, rest) := by
  cases x with
  | ofNat n =>
    have hsign : sign (Nat.toDigits 10 n ++ rest) = ([], Nat.toDigits 10 n ++ rest) := by
      cases hds : Nat.toDigits 10 n with
      | nil => exact absurd hds Nat.toDigits_ne_nil
      | cons c ds =>
        have hdigit : c.isDigit = true :=
          Nat.isDigit_of_mem_toDigits (b := 10) (n := n) (by decide) (by decide)
            (hds ▸ List.mem_cons_self)
        have hminus : c ≠ '-' := by
          rintro rfl
          exact absurd hdigit (by decide)
        exact if_neg hminus
    simp [number, decimal, hsign, integerPart_digits h, fractionPart_none h, exponentPart_none h]
  | negSucc n =>
    have hsign : sign ('-' :: (Nat.toDigits 10 (n + 1) ++ rest)) =
        (['-'], Nat.toDigits 10 (n + 1) ++ rest) := rfl
    simp [number, decimal, hsign, integerPart_digits h, fractionPart_none h, exponentPart_none h]

end Numbers

section Values
variable {fuel : ℕ} {rest : List Char} {v : Json} {vs : List Json}

/-- A number that is an integer. -/
def int (x : ℤ) : Json := .num (decimal x)

/-- Values all of whose numbers are integers. -/
inductive Plain : Json → Prop
  | null : Plain .null
  | bool (b : Bool) : Plain (.bool b)
  | int (x : ℤ) : Plain (int x)
  | str (s : List Char) : Plain (.str s)
  | arr (vs : List Json) (h : ∀ v ∈ vs, Plain v) : Plain (.arr vs)
  | obj (ms : List (List Char × Json)) (h : ∀ m ∈ ms, Plain m.2) : Plain (.obj ms)

/-- The value is read back from what is printed for it. -/
def Reads (v : Json) : Prop :=
  ∀ fuel rest, (print v).length ≤ fuel → Delimits rest →
    value fuel (print v ++ rest) = some (v, rest)

theorem Reads.length_pos (h : Reads v) : 0 < (print v).length := by
  by_contra hlen
  have hnone := h 0 [] (by omega) (fun c hc => by cases hc)
  rw [value] at hnone
  cases hnone

theorem skip_cons {c : Char} (h : isSpace c = false) (t : List Char) : skip (c :: t) = c :: t := by
  simp [skip, h]

theorem delimits_cons {c : Char} (h : c.isDigit = false ∧ c ≠ '.' ∧ c ≠ 'e' ∧ c ≠ 'E')
    (t : List Char) : Delimits (c :: t) := by
  intro d hd
  cases hd
  exact h

theorem items_print (hv : Reads v) (hvs : ∀ w ∈ vs, Reads w)
    (hfuel : (print v ++ printItems vs).length ≤ fuel) :
    items fuel (print v ++ (printItems vs ++ rest)) = some (v :: vs, rest) := by
  have hpos := hv.length_pos
  rw [List.length_append] at hfuel
  induction vs generalizing v fuel with
  | nil =>
    rw [printItems, List.length_singleton] at hfuel
    obtain ⟨fuel, rfl⟩ : ∃ n, fuel = n + 1 := ⟨fuel - 1, by omega⟩
    have hvalue := hv fuel (']' :: rest) (by omega) (delimits_cons (by decide) _)
    rw [items, printItems, List.singleton_append, hvalue]
    simp only [skip_cons (show isSpace ']' = false by decide), if_true]
  | cons w vs ih =>
    obtain ⟨hw, hvs⟩ := List.forall_mem_cons.mp hvs
    rw [printItems, List.length_cons, List.length_append] at hfuel
    obtain ⟨fuel, rfl⟩ : ∃ n, fuel = n + 1 := ⟨fuel - 1, by omega⟩
    have hvalue := hv fuel (',' :: (print w ++ (printItems vs ++ rest))) (by omega)
      (delimits_cons (by decide) _)
    have hrest : items fuel (print w ++ (printItems vs ++ rest)) = some (w :: vs, rest) :=
      ih hw hvs (by omega) hw.length_pos
    rw [items, printItems, List.cons_append, List.append_assoc, hvalue]
    simp only [skip_cons (show isSpace ',' = false by decide),
      if_neg (show ',' ≠ ']' by decide), if_true, hrest, Option.map_some]

theorem members_print {k : List Char} {ms : List (List Char × Json)} (hv : Reads v)
    (hms : ∀ m ∈ ms, Reads m.2)
    (hfuel : (quote k ++ ':' :: (print v ++ printMembers ms)).length ≤ fuel) :
    members fuel (quote k ++ ':' :: (print v ++ (printMembers ms ++ rest))) =
      some ((k, v) :: ms, rest) := by
  have hpos := hv.length_pos
  have hquote (k t : List Char) : skip (quote k ++ t) = '"' :: (k.flatMap escapeChar ++ '"' :: t) := by
    rw [quote, List.cons_append, skip_cons (by decide), List.append_assoc, List.singleton_append]
  simp only [List.length_append, List.length_cons] at hfuel
  induction ms generalizing k v fuel with
  | nil =>
    rw [printMembers, List.length_singleton] at hfuel
    obtain ⟨fuel, rfl⟩ : ∃ n, fuel = n + 1 := ⟨fuel - 1, by omega⟩
    have hvalue := hv fuel ('\x7d' :: rest) (by omega) (delimits_cons (by decide) _)
    rw [members, hquote]
    simp only [if_true, stringBody_quote, skip_cons (show isSpace ':' = false by decide),
      printMembers, List.singleton_append, hvalue, skip_cons (show isSpace '\x7d' = false by decide)]
  | cons m ms ih =>
    obtain ⟨l, w⟩ := m
    obtain ⟨hw, hms⟩ : Reads w ∧ ∀ m ∈ ms, Reads m.2 := List.forall_mem_cons.mp hms
    simp only [printMembers, List.length_cons, List.length_append] at hfuel
    obtain ⟨fuel, rfl⟩ : ∃ n, fuel = n + 1 := ⟨fuel - 1, by omega⟩
    have hvalue := hv fuel (',' :: (quote l ++ ':' :: (print w ++ (printMembers ms ++ rest))))
      (by omega) (delimits_cons (by decide) _)
    have hrest : members fuel (quote l ++ ':' :: (print w ++ (printMembers ms ++ rest))) =
        some ((l, w) :: ms, rest) := ih hw hms hw.length_pos (by omega)
    rw [members, hquote]
    simp only [if_true, stringBody_quote, skip_cons (show isSpace ':' = false by decide),
      printMembers, List.cons_append, List.append_assoc, hvalue,
      skip_cons (show isSpace ',' = false by decide), if_neg (show ',' ≠ '\x7d' by decide),
      hrest, Option.map_some]

theorem decimal_head (x : ℤ) : ∃ c t, decimal x = c :: t ∧ (c = '-' ∨ c.isDigit = true) := by
  cases hdecimal : decimal x with
  | nil =>
    cases x with
    | ofNat n => exact absurd hdecimal Nat.toDigits_ne_nil
    | negSucc n => cases hdecimal
  | cons c t => exact ⟨c, t, rfl, of_mem_decimal (hdecimal ▸ List.mem_cons_self)⟩

theorem ne_of_numeral {c d : Char} (hc : c = '-' ∨ c.isDigit = true)
    (hd : d ≠ '-' ∧ d.isDigit = false) : c ≠ d := by
  rintro rfl
  rcases hc with rfl | hc
  · exact hd.1 rfl
  · exact absurd (hc.symm.trans hd.2) (by decide)

theorem not_space_of_numeral {c : Char} (hc : c = '-' ∨ c.isDigit = true) : isSpace c = false := by
  simp [isSpace, ne_of_numeral hc (show ' ' ≠ '-' ∧ _ by decide),
    ne_of_numeral hc (show '\t' ≠ '-' ∧ _ by decide),
    ne_of_numeral hc (show '\r' ≠ '-' ∧ _ by decide),
    ne_of_numeral hc (show '\n' ≠ '-' ∧ _ by decide)]

/-- What is printed for a value begins with a character that ends no list. -/
theorem print_head (h : Plain v) : ∃ c t, print v = c :: t ∧ isSpace c = false ∧ c ≠ ']' := by
  cases h with
  | null => exact ⟨'n', _, rfl, by decide⟩
  | bool b => cases b <;> exact ⟨_, _, rfl, by decide⟩
  | int x =>
    obtain ⟨c, t, hdecimal, hc⟩ := decimal_head x
    exact ⟨c, t, hdecimal, not_space_of_numeral hc, ne_of_numeral hc (by decide)⟩
  | str s => exact ⟨'"', _, rfl, by decide⟩
  | arr vs h => cases vs <;> exact ⟨'[', _, rfl, by decide⟩
  | obj ms h =>
    cases ms with
    | nil => exact ⟨'\x7b', _, rfl, by decide⟩
    | cons m ms => exact ⟨'\x7b', _, rfl, by decide⟩

/-- A value that begins with none of the characters that lead another way is a number. -/
theorem value_number {c : Char} {t literal : List Char} (hc : c = '-' ∨ c.isDigit = true)
    (hnumber : number (c :: t) = some (literal, rest)) :
    value (fuel + 1) (c :: t) = some (.num literal, rest) := by
  have hne (d : Char) (hd : d ≠ '-' ∧ d.isDigit = false) : c ≠ d := ne_of_numeral hc hd
  rw [value, skip_cons (not_space_of_numeral hc)]
  simp only [if_neg (hne '"' (by decide)), if_neg (hne '[' (by decide)),
    if_neg (hne '\x7b' (by decide)), if_neg (hne 'n' (by decide)), if_neg (hne 't' (by decide)),
    if_neg (hne 'f' (by decide)), hnumber, Option.map_some]

/-- What is printed is read back. -/
theorem reads_of_plain (h : Plain v) : Reads v := by
  induction h with
  | null =>
    intro fuel rest hfuel _
    obtain ⟨fuel, rfl⟩ : ∃ n, fuel = n + 1 := ⟨fuel - 1, by simp [print] at hfuel; omega⟩
    rw [value]
    rfl
  | bool b =>
    intro fuel rest hfuel _
    obtain ⟨fuel, rfl⟩ : ∃ n, fuel = n + 1 := ⟨fuel - 1, by cases b <;> simp [print] at hfuel <;> omega⟩
    rw [value]
    cases b <;> rfl
  | int x =>
    intro fuel rest hfuel hrest
    obtain ⟨c, t, hdecimal, hc⟩ := decimal_head x
    have hnumber := number_decimal x hrest
    have hprint : print (Json.int x) = c :: t := hdecimal
    rw [hprint] at hfuel ⊢
    obtain ⟨fuel, rfl⟩ : ∃ n, fuel = n + 1 := ⟨fuel - 1, by simp at hfuel; omega⟩
    rw [hdecimal, List.cons_append] at hnumber
    rw [Json.int, hdecimal]
    exact value_number hc hnumber
  | str s =>
    intro fuel rest hfuel _
    obtain ⟨fuel, rfl⟩ : ∃ n, fuel = n + 1 := ⟨fuel - 1, by simp [print, quote] at hfuel; omega⟩
    rw [value, print, quote, List.cons_append, skip_cons (by decide), List.append_assoc,
      List.singleton_append]
    simp only [if_true, stringBody_quote, Option.map_some]
  | arr vs h ih =>
    intro fuel rest hfuel _
    cases vs with
    | nil =>
      obtain ⟨fuel, rfl⟩ : ∃ n, fuel = n + 1 := ⟨fuel - 1, by simp [print] at hfuel; omega⟩
      rw [value]
      rfl
    | cons v vs =>
      obtain ⟨hv, hvs⟩ := List.forall_mem_cons.mp ih
      rw [print, List.length_cons] at hfuel
      obtain ⟨fuel, rfl⟩ : ∃ n, fuel = n + 1 := ⟨fuel - 1, by omega⟩
      have hitems : items fuel (print v ++ (printItems vs ++ rest)) = some (v :: vs, rest) :=
        items_print hv hvs (Nat.le_of_succ_le_succ hfuel)
      obtain ⟨c, t, hprint, hspace, hclose⟩ := print_head (h v List.mem_cons_self)
      rw [hprint, List.cons_append] at hitems
      rw [value, print, List.cons_append, skip_cons (by decide)]
      simp only [if_neg (show '[' ≠ '"' by decide), if_true, List.append_assoc, hprint,
        List.cons_append, skip_cons hspace, if_neg hclose, hitems, Option.map_some]
  | obj ms h ih =>
    intro fuel rest hfuel _
    cases ms with
    | nil =>
      obtain ⟨fuel, rfl⟩ : ∃ n, fuel = n + 1 := ⟨fuel - 1, by simp [print] at hfuel; omega⟩
      rw [value]
      rfl
    | cons m ms =>
      obtain ⟨k, v⟩ := m
      obtain ⟨hv, hms⟩ : Reads v ∧ ∀ m ∈ ms, Reads m.2 := List.forall_mem_cons.mp ih
      rw [print, List.length_cons] at hfuel
      obtain ⟨fuel, rfl⟩ : ∃ n, fuel = n + 1 := ⟨fuel - 1, by omega⟩
      have hmembers : members fuel (quote k ++ ':' :: (print v ++ (printMembers ms ++ rest))) =
          some ((k, v) :: ms, rest) := members_print hv hms (Nat.le_of_succ_le_succ hfuel)
      rw [quote, List.cons_append] at hmembers
      rw [value, print, List.cons_append, skip_cons (by decide)]
      simp only [if_neg (show '\x7b' ≠ '"' by decide), if_neg (show '\x7b' ≠ '[' by decide), if_true,
        quote, List.append_assoc, List.cons_append, skip_cons (show isSpace '"' = false by decide),
        if_neg (show '"' ≠ '\x7d' by decide)]
      simp only [List.append_assoc, List.cons_append] at hmembers
      rw [hmembers, Option.map_some]

theorem parse_print (h : Plain v) : parse (print v) = some v := by
  have hread := reads_of_plain h (print v).length [] le_rfl (fun c hc => by cases hc)
  rw [List.append_nil] at hread
  rw [parse, hread]
  rfl

theorem printable_escapeChar {c : Char} : ∀ d ∈ escapeChar c, 32 ≤ d.toNat := by
  have hhex (k : ℕ) (hk : k < 16) : 32 ≤ (Nat.digitChar k).toNat := by
    interval_cases k <;> decide
  rcases escapeChar_cases c with ⟨e, hc, -, he, -⟩ | ⟨hc, hsmall, -⟩ | ⟨hc, -, -, hlt⟩
  · rw [hc]
    simp [he]
  · rw [hc, hex4]
    simp only [List.forall_mem_cons, List.not_mem_nil, false_implies, implies_true, and_true]
    exact ⟨by decide, by decide, hhex _ (by omega), hhex _ (by omega), hhex _ (by omega),
      hhex _ (by omega)⟩
  · rw [hc]
    simpa using hlt

theorem printable_quote (s : List Char) : ∀ d ∈ quote s, 32 ≤ d.toNat := by
  have hbody : ∀ d ∈ s.flatMap escapeChar, 32 ≤ d.toNat := by
    intro d hd
    obtain ⟨c, -, hc⟩ := List.mem_flatMap.mp hd
    exact printable_escapeChar d hc
  simp only [quote, List.forall_mem_cons, List.forall_mem_append, List.not_mem_nil, false_implies,
    implies_true, and_true]
  exact ⟨by decide, hbody, by decide⟩

theorem printable_items (h : ∀ v ∈ vs, ∀ c ∈ print v, 32 ≤ c.toNat) :
    ∀ c ∈ printItems vs, 32 ≤ c.toNat := by
  induction vs with
  | nil => simp [printItems]
  | cons v vs ih =>
    obtain ⟨hv, hvs⟩ := List.forall_mem_cons.mp h
    simp only [printItems, List.forall_mem_cons, List.forall_mem_append]
    exact ⟨by decide, hv, ih hvs⟩

theorem printable_members {ms : List (List Char × Json)}
    (h : ∀ m ∈ ms, ∀ c ∈ print m.2, 32 ≤ c.toNat) : ∀ c ∈ printMembers ms, 32 ≤ c.toNat := by
  induction ms with
  | nil => simp [printMembers]
  | cons m ms ih =>
    obtain ⟨k, v⟩ := m
    obtain ⟨hv, hms⟩ : (∀ c ∈ print v, 32 ≤ c.toNat) ∧ _ := List.forall_mem_cons.mp h
    simp only [printMembers, List.forall_mem_cons, List.forall_mem_append]
    exact ⟨by decide, printable_quote k, by decide, hv, ih hms⟩

/-- No control character is printed. -/
theorem printable_print (h : Plain v) : ∀ c ∈ print v, 32 ≤ c.toNat := by
  induction h with
  | null => simp [print]
  | bool b => cases b <;> simp [print]
  | int x =>
    intro c hc
    rcases of_mem_decimal (show c ∈ decimal x from hc) with rfl | hdigit
    · decide
    · simp only [Char.isDigit, Bool.and_eq_true, decide_eq_true_eq] at hdigit
      have hle : 48 ≤ c.toNat := UInt32.le_iff_toNat_le.mp hdigit.1
      omega
  | str s => exact printable_quote s
  | arr vs h ih =>
    cases vs with
    | nil => simp [print]
    | cons v vs =>
      obtain ⟨hv, hvs⟩ := List.forall_mem_cons.mp ih
      simp only [print, List.forall_mem_cons, List.forall_mem_append]
      exact ⟨by decide, hv, printable_items hvs⟩
  | obj ms h ih =>
    cases ms with
    | nil => simp [print]
    | cons m ms =>
      obtain ⟨k, v⟩ := m
      obtain ⟨hv, hms⟩ : (∀ c ∈ print v, 32 ≤ c.toNat) ∧ _ := List.forall_mem_cons.mp ih
      simp only [print, List.forall_mem_cons, List.forall_mem_append]
      exact ⟨by decide, printable_quote k, by decide, hv, printable_members hms⟩

end Values

section Structs
variable {σ τ : Type}

/-- A field of a struct: the name of its key, and how it takes a value; a value of the wrong type
is an error. -/
structure StructField (σ : Type) where
  name : List Char
  set : Json → σ → Option σ

/-- Letters are compared without their case. Two characters outside ASCII fold to letters. -/
def foldChar (c : Char) : Char :=
  if 'a' ≤ c ∧ c ≤ 'z' then Char.ofNat (c.toNat - 32)
  else if c.toNat = 0x17f then 'S'
  else if c.toNat = 0x212a then 'K'
  else c

/-- The field for a key: that of its very name, or else one that differs only in case. -/
def lookup (fields : List (StructField σ)) (key : List Char) : Option (StructField σ) :=
  (fields.find? fun f => f.name = key).or
    (fields.find? fun f => f.name.map foldChar = key.map foldChar)

/-- The members of an object are stored one after the other; unknown keys are skipped. -/
def decodeMembers (fields : List (StructField σ)) : List (List Char × Json) → σ → Option σ
  | [], x => some x
  | (k, v) :: ms, x =>
    match lookup fields k with
    | none => decodeMembers fields ms x
    | some f =>
      match f.set v x with
      | none => none
      | some x => decodeMembers fields ms x

def decodeStruct (fields : List (StructField σ)) (v : Json) (x : σ) : Option σ :=
  match v with
  | .null => some x
  | .obj ms => decodeMembers fields ms x
  | _ => none

/-- How a value is read into a variable that has one already: `null` leaves it. -/
def decodeInto (decode : Json → Option τ) (old : τ) : Json → Option τ
  | .null => some old
  | v => decode v

/-- How a value is read into a pointer. -/
def decodePointer (decode : Json → Option τ) : Json → Option (Option τ)
  | .null => some none
  | v => (decode v).map some

def decodeString : Json → Option String
  | .str s => some (String.ofList s)
  | _ => none

def decodeBool : Json → Option Bool
  | .bool b => some b
  | _ => none

def decodeInt : Json → Option ℤ
  | .num literal => parseInt 64 literal
  | _ => none

def decodeUint (bits : ℕ) : Json → Option ℕ
  | .num literal => parseUnsigned bits literal
  | _ => none

def text (s : String) : Json := .str s.toList

def pointer (encode : τ → Json) : Option τ → Json
  | none => .null
  | some x => encode x

@[simp] theorem decodeString_text (s : String) : decodeString (text s) = some s := by
  simp [decodeString, text]

theorem decodeInt_int {x : ℤ} (h : -2 ^ 63 ≤ x ∧ x < 2 ^ 63) : decodeInt (int x) = some x :=
  parseInt_decimal 64 h

theorem decodeUint_int {bits n : ℕ} (h : n < 2 ^ bits) : decodeUint bits (int n) = some n :=
  parseUnsigned_toDigits h

/-- A pointer is read back if its value is, and is not printed as `null`. -/
theorem decodePointer_pointer {encode : τ → Json} {decode : Json → Option τ} {p : Option τ}
    (h : ∀ x ∈ p, decode (encode x) = some x ∧ encode x ≠ .null) :
    decodePointer decode (pointer encode p) = some p := by
  cases p with
  | none => rfl
  | some x =>
    obtain ⟨hdecode, hnull⟩ := h x rfl
    unfold pointer decodePointer
    split
    next heq => exact absurd heq hnull
    next => rw [hdecode]; rfl

theorem decodeMembers_cons {fields : List (StructField σ)} {f : StructField σ} {k : List Char} {v : Json}
    {ms : List (List Char × Json)} {x y : σ} (hf : lookup fields k = some f)
    (hset : f.set v x = some y) :
    decodeMembers fields ((k, v) :: ms) x = decodeMembers fields ms y := by
  rw [decodeMembers, hf]
  simp only [hset]

end Structs
end Json
end RoutingApi.Text
