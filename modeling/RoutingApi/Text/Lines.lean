import Mathlib.Data.List.TakeWhile
import Mathlib.Tactic

/-! Texts as bytes, and lines that are read from them through a buffer of fixed size. A reader of
lines does not depend on the size. -/
namespace RoutingApi.Text

abbrev Bytes := List UInt8

def newline : UInt8 := 10

def carriageReturn : UInt8 := 13

/-- The parts of a text between separators have none. -/
theorem not_mem_of_mem_splitOn {α : Type} [DecidableEq α] {sep : α} {text part : List α}
    (h : part ∈ text.splitOn sep) : sep ∉ part := by
  induction hn : text.length using Nat.strong_induction_on generalizing text with
  | _ n ih =>
    by_cases hsep : sep ∈ text
    · obtain ⟨u, v, rfl, hu⟩ := List.eq_append_cons_of_mem hsep
      rw [List.splitOn_append_cons_self, List.splitOn_eq_singleton hu, List.mem_append,
        List.mem_singleton] at h
      rcases h with rfl | h
      · exact hu
      · exact ih v.length (by simp at hn; omega) h rfl
    · rw [List.splitOn_eq_singleton hsep, List.mem_singleton] at h
      exact h ▸ hsep

section Encoding

/-- The bytes of a string. -/
def utf8 (s : String) : Bytes := s.toList.flatMap String.utf8EncodeChar

/-- The string with these bytes, if they are those of one. -/
def ofUtf8 (b : Bytes) : Option String := String.fromUTF8? b.toByteArray

@[simp] theorem ofUtf8_utf8 (s : String) : ofUtf8 (utf8 s) = some s := by
  have hbytes : (utf8 s).toByteArray = s.toByteArray := by
    have hlist : (utf8 s).toByteArray = s.toList.utf8Encode := rfl
    rw [hlist, ← String.toByteArray_ofList, String.ofList_toList]
  rw [ofUtf8, hbytes, String.fromUTF8?, dif_pos s.isValidUTF8]
  rfl

/-- A byte of a longer code is at least 128. -/
theorem ne_ofNat_of_lt {b : UInt8} {n : ℕ} (hb : b.toNat < 128) (hlow : 128 ≤ n) (hhigh : n < 256) :
    b ≠ UInt8.ofNat n := by
  rintro rfl
  rw [UInt8.toNat_ofNat', Nat.mod_eq_of_lt hhigh] at hb
  omega

/-- A byte below 128 stands for the character with its number, and for nothing else. -/
theorem mem_utf8EncodeChar {c : Char} {b : UInt8} (hb : b.toNat < 128) :
    b ∈ String.utf8EncodeChar c ↔ c.toNat = b.toNat := by
  have hc : c.toNat = c.val.toNat := rfl
  unfold String.utf8EncodeChar
  simp only
  split
  next hsmall =>
    rw [List.mem_singleton, hc, ← UInt8.toNat_inj, UInt8.toNat_ofNat', Nat.mod_eq_of_lt (by omega)]
    exact eq_comm
  next hlarge =>
    have hne : c.toNat ≠ b.toNat := by omega
    have hcont (n : ℕ) : b ≠ UInt8.ofNat (n % 64 + 128) := ne_ofNat_of_lt hb (by omega) (by omega)
    have htwo (n : ℕ) : b ≠ UInt8.ofNat (n % 32 + 192) := ne_ofNat_of_lt hb (by omega) (by omega)
    have hthree (n : ℕ) : b ≠ UInt8.ofNat (n % 16 + 224) := ne_ofNat_of_lt hb (by omega) (by omega)
    have hfour (n : ℕ) : b ≠ UInt8.ofNat (n % 8 + 240) := ne_ofNat_of_lt hb (by omega) (by omega)
    split
    next => simp only [List.mem_cons, htwo, hcont, List.not_mem_nil, hne, or_self]
    next =>
      split
      next => simp only [List.mem_cons, hthree, hcont, List.not_mem_nil, hne, or_self]
      next => simp only [List.mem_cons, hfour, hcont, List.not_mem_nil, hne, or_self]

theorem mem_utf8 {s : String} {c : Char} {b : UInt8} (hb : b.toNat < 128)
    (hc : c.toNat = b.toNat) : b ∈ utf8 s ↔ c ∈ s.toList := by
  rw [utf8, List.mem_flatMap]
  constructor
  · rintro ⟨d, hd, hmem⟩
    have hdc : d = c := by
      rw [← Char.toNat_inj, (mem_utf8EncodeChar hb).mp hmem, hc]
    exact hdc ▸ hd
  · intro hmem
    exact ⟨c, hmem, (mem_utf8EncodeChar hb).mpr hc⟩

/-- A text of characters below 128 has one byte for each of them. -/
theorem utf8_of_ascii {cs : List Char} (h : ∀ c ∈ cs, c.toNat < 128) :
    utf8 (String.ofList cs) = cs.map fun c => UInt8.ofNat c.toNat := by
  rw [utf8, String.toList_ofList]
  induction cs with
  | nil => rfl
  | cons c cs ih =>
    obtain ⟨hc, hcs⟩ := List.forall_mem_cons.mp h
    have hcode : String.utf8EncodeChar c = [UInt8.ofNat c.toNat] :=
      if_pos (show c.val.toNat ≤ 127 from Nat.le_of_lt_succ hc)
    rw [List.flatMap_cons, ih hcs, hcode]
    rfl

end Encoding

section Reading

/-- The line without a carriage return at its end. -/
def chomp (line : Bytes) : Bytes :=
  if line.getLast? = some carriageReturn then line.dropLast else line

/-- `bufio.Reader.ReadLine`: a line or, if the buffer does not hold one, a part of it, whether it is
only a part, and what is left of the input. At the end of the input there is nothing to read. -/
def readLine (size : ℕ) (input : Bytes) : Option (Bytes × Bool × Bytes) :=
  let window := input.take size
  let line := window.takeWhile (· ≠ newline)
  if line.length < window.length then some (chomp line, false, input.drop (line.length + 1))
  else if size ≤ input.length then
    -- a carriage return may be followed by the newline, so it is put back
    if window.getLast? = some carriageReturn then
      some (window.dropLast, true, input.drop (size - 1))
    else some (window, true, input.drop size)
  else if input = [] then none
  else some (input, false, [])

variable {σ ρ : Type}

/-- A loop that puts the parts of a line together and hands the line to `accept`, until this has a
result. The fuel bounds the number of reads. -/
def readLoop (accept : σ → Bytes → σ ⊕ ρ) (size : ℕ) :
    ℕ → σ → Bytes → Bytes → Option ρ × Bytes
  | 0, _, _, input => (none, input)
  | fuel + 1, s, part, input =>
    match readLine size input with
    | none => (none, [])
    | some (line, true, rest) => readLoop accept size fuel s (part ++ line) rest
    | some (line, false, rest) =>
      match accept s (part ++ line) with
      | .inl s' => readLoop accept size fuel s' [] rest
      | .inr r => (some r, rest)

/-- The same without a buffer: `part` is what has been read of the line. -/
def scan (accept : σ → Bytes → σ ⊕ ρ) : σ → Bytes → Bytes → Option ρ × Bytes
  | _, _, [] => (none, [])
  | s, part, b :: input =>
    if b = newline then
      match accept s (chomp part) with
      | .inl s' => scan accept s' [] input
      | .inr r => (some r, input)
    else scan accept s (part ++ [b]) input

variable {accept : σ → Bytes → σ ⊕ ρ} {s : σ} {part line input rest : Bytes} {size : ℕ}

theorem scan_part (h : newline ∉ line) :
    scan accept s part (line ++ rest) = scan accept s (part ++ line) rest := by
  induction line generalizing part with
  | nil => simp
  | cons b line ih =>
    obtain ⟨hb, hline⟩ := not_or.mp (mt List.mem_cons.mpr h)
    rw [List.cons_append, scan, if_neg (Ne.symm hb), ih hline]
    simp

theorem scan_line (h : newline ∉ line) :
    scan accept s part (line ++ newline :: rest) =
      match accept s (chomp (part ++ line)) with
      | .inl s' => scan accept s' [] rest
      | .inr r => (some r, rest) := by
  rw [scan_part h, scan, if_pos rfl]

theorem chomp_append (h : line ≠ [] ∨ part.getLast? ≠ some carriageReturn) :
    chomp (part ++ line) = part ++ chomp line := by
  rcases List.eq_nil_or_concat line with rfl | ⟨init, b, rfl⟩
  · have hpart := h.resolve_left (· rfl)
    simp [chomp, hpart]
  · rw [List.concat_eq_append]
    simp only [chomp, ← List.append_assoc, List.getLast?_concat, List.dropLast_concat]
    split <;> simp

/-- The part of a text before its first newline. -/
theorem takeWhile_of_mem (h : newline ∈ input) : ∃ line rest, input = line ++ newline :: rest ∧
    newline ∉ line ∧ input.takeWhile (· ≠ newline) = line := by
  obtain ⟨line, rest, hinput, hline⟩ := List.eq_append_cons_of_mem h
  refine ⟨line, rest, hinput, hline, ?_⟩
  have hpos (b : UInt8) (hb : b ∈ line) : decide (b ≠ newline) = true :=
    decide_eq_true fun heq => hline (heq ▸ hb)
  rw [hinput, List.takeWhile_append_of_pos hpos]
  simp

theorem takeWhile_of_not_mem (h : newline ∉ input) : input.takeWhile (· ≠ newline) = input :=
  List.takeWhile_eq_self_iff.mpr fun _ hb => decide_eq_true fun heq => h (heq ▸ hb)

/-- The three things that a read can bring: a line, a part of one, or the last of the input. -/
theorem readLine_cases (hsize : 2 ≤ size) (input : Bytes) :
    (∃ line rest, input = line ++ newline :: rest ∧ newline ∉ line ∧
        readLine size input = some (chomp line, false, rest)) ∨
      (∃ piece rest, input = piece ++ rest ∧ piece ≠ [] ∧ newline ∉ piece ∧
        (piece.getLast? = some carriageReturn → rest.head? = some carriageReturn) ∧
        readLine size input = some (piece, true, rest)) ∨
      (newline ∉ input ∧
        readLine size input = if input = [] then none else some (input, false, [])) := by
  have hsplit : input = input.take size ++ input.drop size := (List.take_append_drop _ _).symm
  by_cases hmem : newline ∈ input.take size
  · obtain ⟨line, rest, hwindow, hline, htake⟩ := takeWhile_of_mem hmem
    refine .inl ⟨line, rest ++ input.drop size, ?_, hline, ?_⟩
    · rw [hwindow] at hsplit
      simpa using hsplit
    · have hlen : line.length < (input.take size).length := by
        rw [hwindow]
        simp
      have hdrop : input.drop (line.length + 1) = rest ++ input.drop size := by
        conv_lhs => rw [hsplit, hwindow]
        simp [List.drop_append]
      simp only [readLine, htake, hdrop, if_pos hlen]
  · have htake := takeWhile_of_not_mem hmem
    have hlen : ¬(input.take size).length < (input.take size).length := lt_irrefl _
    by_cases hfull : size ≤ input.length
    · right
      left
      have hne : input.take size ≠ [] := by
        intro hnil
        have hlength := congrArg List.length hnil
        rw [List.length_take, Nat.min_eq_left hfull, List.length_nil] at hlength
        omega
      by_cases hcr : (input.take size).getLast? = some carriageReturn
      · obtain ⟨init, hinit⟩ : ∃ init, input.take size = init ++ [carriageReturn] :=
          ⟨_, (List.dropLast_append_getLast? _ hcr).symm⟩
        have hlength : init.length = size - 1 := by
          have hlength := congrArg List.length hinit
          rw [List.length_take, Nat.min_eq_left hfull, List.length_append] at hlength
          simp at hlength
          omega
        have hinput : input = init ++ carriageReturn :: input.drop size := by
          conv_lhs => rw [hsplit, hinit]
          simp
        have hdrop : input.drop (size - 1) = carriageReturn :: input.drop size := by
          conv_lhs => rw [hinput, ← hlength]
          rw [List.drop_left]
        refine ⟨init, carriageReturn :: input.drop size, hinput, ?_, ?_, fun _ => rfl, ?_⟩
        · rintro rfl
          simp at hlength
          omega
        · intro hmem'
          exact hmem (hinit ▸ List.mem_append_left _ hmem')
        · simp only [readLine, htake, if_neg hlen, if_pos hfull, if_pos hcr, hdrop]
          rw [hinit, List.dropLast_concat]
      · refine ⟨input.take size, input.drop size, hsplit, hne, hmem, fun h => absurd h hcr, ?_⟩
        simp only [readLine, htake, if_neg hlen, if_pos hfull, if_neg hcr]
    · right
      right
      have hall : input.take size = input := List.take_of_length_le (by omega)
      rw [hall] at hmem htake hlen
      refine ⟨hmem, ?_⟩
      simp only [readLine, hall, htake, if_neg hlen, if_neg hfull]

/-- Where only an empty line has a result, the loop reads as if there were no buffer. -/
theorem readLoop_eq_scan (hsize : 2 ≤ size)
    (haccept : ∀ s line r, accept s line = .inr r → line = []) {fuel : ℕ}
    (hfuel : input.length < fuel)
    (hpart : part.getLast? = some carriageReturn → input.head? ≠ some newline) :
    readLoop accept size fuel s part input = scan accept s part input := by
  induction fuel generalizing s part input with
  | zero => omega
  | succ fuel ih =>
    rcases readLine_cases hsize input with ⟨line, rest, rfl, hline, hread⟩ |
      ⟨piece, rest, rfl, hne, hpiece, hcr, hread⟩ | ⟨hmem, hread⟩
    · -- the parts of a line do not end in a carriage return that belongs to its end
      have hchomp : chomp (part ++ line) = part ++ chomp line := by
        apply chomp_append
        by_cases hnil : line = []
        · subst hnil
          exact .inr fun hlast => hpart hlast rfl
        · exact .inl hnil
      have hrest : rest.length < fuel := by
        simp only [List.length_append, List.length_cons] at hfuel
        omega
      rw [scan_line hline, hchomp]
      simp only [readLoop, hread]
      cases haccepted : accept s (part ++ chomp line) with
      | inl s' => exact ih hrest fun hlast => by cases hlast
      | inr r => rfl
    · have hrest : rest.length < fuel := by
        have := List.length_pos_of_ne_nil hne
        simp only [List.length_append] at hfuel
        omega
      rw [scan_part hpiece]
      simp only [readLoop, hread]
      refine ih hrest fun hlast => ?_
      have hlast' : piece.getLast? = some carriageReturn := by
        rw [List.getLast?_append, List.getLast?_eq_some_getLast hne] at hlast
        rwa [List.getLast?_eq_some_getLast hne]
      rw [hcr hlast']
      decide
    · have hscan : scan accept s part input = (none, []) := by
        have hnil : scan accept s part (input ++ []) = scan accept s (part ++ input) [] :=
          scan_part hmem
        rwa [List.append_nil, scan] at hnil
      rw [hscan]
      by_cases hnil : input = []
      · simp only [readLoop, hread, if_pos hnil]
      · -- the last line has no end, so it is not empty and there is nothing behind it
        simp only [readLoop, hread, if_neg hnil]
        cases haccepted : accept s (part ++ input) with
        | inl s' =>
          obtain ⟨fuel, rfl⟩ : ∃ n, fuel = n + 1 := by
            have := List.length_pos_of_ne_nil hnil
            exact ⟨fuel - 1, by omega⟩
          simp [readLoop, readLine, show size ≠ 0 by omega]
        | inr r =>
          have hempty := haccept s _ r haccepted
          exact absurd (List.append_eq_nil_iff.mp hempty).2 hnil

end Reading
end RoutingApi.Text
