import RoutingApi.Text.Lines
import RoutingApi.Text.Decimal

/-! Server-sent events: how they are written to a connection and read from it again. -/
namespace RoutingApi.Sse
open Text

section Model

/-- The retry interval is in nanoseconds. -/
structure Event where
  id : Bytes
  name : Bytes
  data : Bytes
  retry : ℤ
  deriving DecidableEq, Repr

def colon : UInt8 := 58

def space : UInt8 := 32

/-- A line of data; an empty one has no value. -/
def dataLine (line : Bytes) : Bytes := if line = [] then utf8 "data" else utf8 "data: " ++ line

/-- The line for a retry interval, in milliseconds. -/
def retryLine (retry : ℤ) : List Bytes :=
  if retry ≠ 0 then [utf8 "retry: " ++ utf8 (String.ofList (decimal ((retry.tdiv 1000).tdiv 1000)))]
  else []

/-- What `Write` writes, line by line, before the empty line that ends the event. -/
def Event.lines (e : Event) : List Bytes :=
  [utf8 "id: " ++ e.id, utf8 "event: " ++ e.name] ++ retryLine e.retry ++
    (e.data.splitOn newline).map dataLine

/-- `Encode`, which is also what `Write` writes if no write fails. -/
def Event.encode (e : Event) : Bytes := e.lines.flatMap (· ++ [newline]) ++ [newline]

/-- An event in the making: `lastID` is that of the reader, and `idPresent` is set by a line that
gives an id. -/
structure Draft where
  lastID : Bytes
  event : Event
  idPresent : Bool
  deriving DecidableEq, Repr

def Draft.new (lastID : Bytes) : Draft := ⟨lastID, ⟨lastID, [], [], 0⟩, false⟩

/-- The name of a field and its value, without one leading space. -/
def field (line : Bytes) : Bytes × Bytes :=
  let name := line.takeWhile (· ≠ colon)
  let value := line.drop (name.length + 1)
  (name, if value.head? = some space then value.tail else value)

def Draft.set (d : Draft) (name value : Bytes) : Draft :=
  if name = utf8 "id" then { d with event := { d.event with id := value }, idPresent := true }
  else if name = utf8 "event" then { d with event := { d.event with name := value } }
  else if name = utf8 "data" then
    { d with event := { d.event with data := d.event.data ++ (value ++ [newline]) } }
  else if name = utf8 "retry" then
    match parseInt 64 (value.map fun b => Char.ofNat b.toNat) with
    | some ms => { d with event := { d.event with retry := (ms * 1000000).bmod (2 ^ 64) } }
    | none => d
  else d

/-- One line for an event: an empty one dispatches it, with the last id of the reader from now on,
unless it has no data; one that begins with a colon is a comment. -/
def Draft.accept (d : Draft) (line : Bytes) : Draft ⊕ (Event × Bytes) :=
  match line with
  | [] =>
    if d.event.data = [] then .inl d
    else .inr ({ d.event with data := d.event.data.dropLast },
      if d.idPresent then d.event.id else d.lastID)
  | b :: _ => if b = colon then .inl d else .inl (d.set (field line).1 (field line).2)

/-- `ReadCloser.Next`, on what is left of the input: the next event and the last id after it, and
what is left then. There is none if the input ends before. -/
def next (size : ℕ) (lastID input : Bytes) : Option (Event × Bytes) × Bytes :=
  readLoop Draft.accept size (input.length + 1) (Draft.new lastID) [] input

end Model

section Reading
variable {size : ℕ} {lastID input rest : Bytes} {d : Draft} {line value name : Bytes}

theorem accept_inr {r : Event × Bytes} (h : d.accept line = .inr r) : line = [] := by
  cases line with
  | nil => rfl
  | cons b line =>
    simp only [Draft.accept] at h
    split at h <;> cases h

/-- Events are read as if there were no buffer. -/
theorem next_eq_scan (hsize : 2 ≤ size) :
    next size lastID input = scan Draft.accept (Draft.new lastID) [] input := by
  apply readLoop_eq_scan hsize (fun _ _ _ => accept_inr) (Nat.lt_succ_self _)
  intro h
  cases h

/-- A line of a field, as far as the end of lines is concerned. -/
def Clean (b : Bytes) : Prop := newline ∉ b ∧ b.getLast? ≠ some carriageReturn

instance (b : Bytes) : Decidable (Clean b) :=
  inferInstanceAs (Decidable (newline ∉ b ∧ b.getLast? ≠ some carriageReturn))

theorem chomp_of_clean (h : Clean line) : chomp line = line := if_neg h.2

theorem Clean.append (hname : Clean name) (h : Clean value) : Clean (name ++ value) := by
  refine ⟨fun hmem => ?_, ?_⟩
  · rcases List.mem_append.mp hmem with hmem | hmem
    · exact hname.1 hmem
    · exact h.1 hmem
  · rw [List.getLast?_append]
    cases hlast : value.getLast? with
    | none => simpa using hname.2
    | some b => simpa [hlast] using h.2

/-- The fields of a line that is neither empty nor a comment. -/
def Draft.take (d : Draft) (line : Bytes) : Draft := d.set (field line).1 (field line).2

/-- A line of a field goes into the event. -/
def IsField (line : Bytes) : Prop := Clean line ∧ line ≠ [] ∧ line.head? ≠ some colon

instance (line : Bytes) : Decidable (IsField line) :=
  inferInstanceAs (Decidable (Clean line ∧ line ≠ [] ∧ line.head? ≠ some colon))

theorem accept_field (h : IsField line) : d.accept line = .inl (d.take line) := by
  obtain ⟨-, hne, hcolon⟩ := h
  cases line with
  | nil => exact absurd rfl hne
  | cons b line =>
    have hb : b ≠ colon := by simpa using hcolon
    simp only [Draft.accept, if_neg hb, Draft.take]

/-- Lines of fields are taken one after the other. -/
theorem scan_fields {lines : List Bytes} (h : ∀ line ∈ lines, IsField line) :
    scan Draft.accept d [] (lines.flatMap (· ++ [newline]) ++ rest) =
      scan Draft.accept (lines.foldl Draft.take d) [] rest := by
  induction lines generalizing d with
  | nil => rfl
  | cons line lines ih =>
    obtain ⟨hline, hlines⟩ := List.forall_mem_cons.mp h
    have hfirst : (line :: lines).flatMap (· ++ [newline]) ++ rest =
        line ++ newline :: (lines.flatMap (· ++ [newline]) ++ rest) := by simp
    rw [hfirst, scan_line hline.1.1, List.nil_append, chomp_of_clean hline.1, accept_field hline]
    exact ih hlines

/-- An input that ends among the lines of fields holds no event. -/
theorem scan_cut {lines : List Bytes} (h : ∀ line ∈ lines, IsField line)
    (hcut : input <+: lines.flatMap (· ++ [newline])) :
    scan Draft.accept d [] input = (none, []) := by
  induction lines generalizing d input with
  | nil =>
    rw [List.prefix_nil.mp hcut]
    rfl
  | cons line lines ih =>
    obtain ⟨hline, hlines⟩ := List.forall_mem_cons.mp h
    have hfirst : (line :: lines).flatMap (· ++ [newline]) =
        (line ++ [newline]) ++ lines.flatMap (· ++ [newline]) := by simp
    rw [hfirst] at hcut
    have hwhole {more : Bytes} (hmore : more <+: lines.flatMap (· ++ [newline])) :
        scan Draft.accept d [] ((line ++ [newline]) ++ more) = (none, []) := by
      rw [List.append_assoc, List.singleton_append, scan_line hline.1.1, List.nil_append,
        chomp_of_clean hline.1, accept_field hline]
      exact ih hlines hmore
    rcases List.prefix_or_prefix_of_prefix hcut (List.prefix_append _ _) with hshort | ⟨more, rfl⟩
    · rcases List.prefix_concat_iff.mp hshort with rfl | hpart
      · simpa using hwhole List.nil_prefix
      · have hmem : newline ∉ input := fun hmem => hline.1.1 (hpart.subset hmem)
        have hscan : scan Draft.accept d [] (input ++ []) = scan Draft.accept d ([] ++ input) [] :=
          scan_part hmem
        rwa [List.append_nil, scan] at hscan
    · exact hwhole ((List.prefix_append_right_inj _).mp hcut)

/-- A line that gives a value to a name. -/
theorem field_pair (hname : colon ∉ name) :
    field (name ++ colon :: space :: value) = (name, value) := by
  have htake : (name ++ colon :: space :: value).takeWhile (· ≠ colon) = name := by
    have hpos (b : UInt8) (hb : b ∈ name) : decide (b ≠ colon) = true :=
      decide_eq_true fun heq => hname (heq ▸ hb)
    rw [List.takeWhile_append_of_pos hpos]
    simp
  have hdrop : (name ++ colon :: space :: value).drop (name.length + 1) = space :: value := by
    rw [List.append_cons]
    exact List.drop_left' (by simp)
  simp only [field, htake, hdrop, List.head?_cons, if_true, List.tail_cons]

theorem field_name (hname : colon ∉ name) : field name = (name, []) := by
  have htake : name.takeWhile (· ≠ colon) = name :=
    List.takeWhile_eq_self_iff.mpr fun _ hb => decide_eq_true fun heq => hname (heq ▸ hb)
  have hdrop : name.drop (name.length + 1) = [] := List.drop_eq_nil_of_le (Nat.le_succ _)
  simp only [field, htake, hdrop]
  rfl

end Reading

section RoundTrip
variable {size : ℕ} {lastID rest : Bytes} {d : Draft} {line value : Bytes} {e : Event}

theorem take_id : d.take (utf8 "id: " ++ value) =
    { d with event := { d.event with id := value }, idPresent := true } := by
  have hline : utf8 "id: " ++ value = utf8 "id" ++ colon :: space :: value := rfl
  rw [Draft.take, hline, field_pair (by decide)]
  rfl

theorem take_event : d.take (utf8 "event: " ++ value) =
    { d with event := { d.event with name := value } } := by
  have hline : utf8 "event: " ++ value = utf8 "event" ++ colon :: space :: value := rfl
  rw [Draft.take, hline, field_pair (by decide)]
  rfl

theorem take_data : d.take (dataLine line) =
    { d with event := { d.event with data := d.event.data ++ (line ++ [newline]) } } := by
  unfold dataLine
  split
  next hnil =>
    rw [Draft.take, field_name (by decide), hnil]
    rfl
  next =>
    have hline : utf8 "data: " ++ line = utf8 "data" ++ colon :: space :: line := rfl
    rw [Draft.take, hline, field_pair (by decide)]
    rfl

theorem take_dataLines (lines : List Bytes) : (lines.map dataLine).foldl Draft.take d =
    { d with event := { d.event with data := d.event.data ++ lines.flatMap (· ++ [newline]) } } := by
  induction lines generalizing d with
  | nil => simp
  | cons line lines ih =>
    rw [List.map_cons, List.foldl_cons, take_data, ih]
    simp

theorem ascii_of_mem_decimal {x : ℤ} {c : Char} (h : c ∈ decimal x) : c.toNat < 128 := by
  rcases of_mem_decimal h with rfl | hdigit
  · decide
  · have hle : c.val ≤ 57 := by
      simp only [Char.isDigit, Bool.and_eq_true, decide_eq_true_eq] at hdigit
      exact hdigit.2
    have hnat : c.toNat ≤ 57 := UInt32.le_iff_toNat_le.mp hle
    omega

/-- The bytes of an integer are its characters. -/
theorem chars_decimal (x : ℤ) :
    (utf8 (String.ofList (decimal x))).map (fun b => Char.ofNat b.toNat) = decimal x := by
  rw [utf8_of_ascii fun c => ascii_of_mem_decimal, List.map_map]
  conv_rhs => rw [← List.map_id (decimal x)]
  apply List.map_congr_left
  intro c hc
  have hbyte : (UInt8.ofNat c.toNat).toNat = c.toNat := by
    rw [UInt8.toNat_ofNat', Nat.mod_eq_of_lt (Nat.lt_trans (ascii_of_mem_decimal hc) (by decide))]
  simp [hbyte]

/-- An interval in milliseconds is printed and read exactly. -/
theorem take_retry {retry ms : ℤ} (hms : retry = ms * 1000000)
    (hfits : -2 ^ 63 ≤ retry ∧ retry < 2 ^ 63) (h0 : d.event.retry = 0) :
    (retryLine retry).foldl Draft.take d = { d with event := { d.event with retry := retry } } := by
  unfold retryLine
  split
  next =>
    have hdiv : (retry.tdiv 1000).tdiv 1000 = ms := by
      have hsplit : retry = ms * 1000 * 1000 := by rw [hms]; ring
      rw [hsplit, Int.mul_tdiv_cancel _ (by decide), Int.mul_tdiv_cancel _ (by decide)]
    have hline (value : Bytes) : utf8 "retry: " ++ value = utf8 "retry" ++ colon :: space :: value :=
      rfl
    have hmod : (ms * 1000000).bmod (2 ^ 64) = retry := by
      rw [← hms]
      exact Int.bmod_eq_of_le (by omega) (by omega)
    rw [hdiv, List.foldl_cons, List.foldl_nil, Draft.take, hline, field_pair (by decide)]
    simp only [Draft.set, if_neg (show utf8 "retry" ≠ utf8 "id" by decide),
      if_neg (show utf8 "retry" ≠ utf8 "event" by decide),
      if_neg (show utf8 "retry" ≠ utf8 "data" by decide), if_true, chars_decimal,
      parseInt_decimal 64 (x := ms) (by omega), hmod]
  next hzero =>
    have hretry : retry = 0 := by simpa using hzero
    rw [List.foldl_nil, hretry, ← h0]

/-- An event that is read as it was written: no line of it contains a newline or ends in a
carriage return, and its retry interval is in milliseconds. -/
structure Event.Plain (e : Event) : Prop where
  id : Clean e.id
  name : Clean e.name
  data : ∀ line ∈ e.data.splitOn newline, Clean line
  retry : ∃ ms : ℤ, e.retry = ms * 1000000 ∧ -2 ^ 63 ≤ e.retry ∧ e.retry < 2 ^ 63

theorem flatMap_concat {x : UInt8} {lines : List Bytes} (h : lines ≠ []) :
    lines.flatMap (· ++ [x]) = [x].intercalate lines ++ [x] := by
  induction lines with
  | nil => exact absurd rfl h
  | cons line lines ih =>
    cases lines with
    | nil => simp [List.intercalate]
    | cons line' lines =>
      rw [List.flatMap_cons, ih (by simp)]
      simp [List.intercalate]

theorem clean_utf8 {s : String} (hnewline : '\n' ∉ s.toList) (hreturn : '\r' ∉ s.toList) :
    Clean (utf8 s) := by
  refine ⟨fun hmem => hnewline ?_, fun hlast => hreturn ?_⟩
  · exact (mem_utf8 (b := newline) (by decide) rfl).mp hmem
  · exact (mem_utf8 (b := carriageReturn) (by decide) rfl).mp (List.mem_of_getLast? hlast)

theorem isField_append {name value : Bytes} (hname : IsField name) (h : Clean value) :
    IsField (name ++ value) := by
  refine ⟨hname.1.append h, by simp [hname.2.1], ?_⟩
  rw [List.head?_append_of_ne_nil _ hname.2.1]
  exact hname.2.2

theorem Event.Plain.lines (h : e.Plain) : ∀ line ∈ e.lines, IsField line := by
  intro line hline
  simp only [Event.lines, List.mem_append, List.mem_cons, List.not_mem_nil, or_false,
    List.mem_map] at hline
  rcases hline with ((rfl | rfl) | hretry) | ⟨data, hdata, rfl⟩
  · exact isField_append (by decide) h.id
  · exact isField_append (by decide) h.name
  · unfold retryLine at hretry
    split at hretry
    next =>
      rw [List.mem_singleton] at hretry
      subst hretry
      apply isField_append (by decide)
      apply clean_utf8
      · rw [String.toList_ofList]
        intro hmem
        rcases of_mem_decimal hmem with hc | hc <;> revert hc <;> decide
      · rw [String.toList_ofList]
        intro hmem
        rcases of_mem_decimal hmem with hc | hc <;> revert hc <;> decide
    next => cases hretry
  · unfold dataLine
    split
    next => decide
    next => exact isField_append (by decide) (h.data data hdata)

/-- The lines of an event give it back, but for the newline at the end of its data. -/
theorem take_lines (h : e.Plain) : e.lines.foldl Draft.take (Draft.new lastID) =
    ⟨lastID, { e with data := e.data ++ [newline] }, true⟩ := by
  obtain ⟨ms, hms, hfits⟩ := h.retry
  have hdata : (e.data.splitOn newline).flatMap (· ++ [newline]) = e.data ++ [newline] := by
    rw [flatMap_concat (List.splitOn_ne_nil _ _), List.intercalate_splitOn]
  rw [Event.lines, List.foldl_append, List.foldl_append, List.foldl_cons, List.foldl_cons,
    List.foldl_nil, take_id, take_event, take_retry hms hfits rfl, take_dataLines, hdata]
  simp [Draft.new]

/-- An event is read as it was written. -/
theorem next_encode (hsize : 2 ≤ size) (h : e.Plain) :
    next size lastID (e.encode ++ rest) = (some (e, e.id), rest) := by
  rw [next_eq_scan hsize, Event.encode, List.append_assoc, scan_fields h.lines, take_lines h]
  simp [scan, chomp, Draft.accept]

/-- An event that the input does not hold to its end is not read. -/
theorem next_cut {input : Bytes} (hsize : 2 ≤ size) (h : e.Plain) (hcut : input <+: e.encode)
    (hne : input ≠ e.encode) : next size lastID input = (none, []) := by
  rw [next_eq_scan hsize]
  apply scan_cut h.lines
  exact (List.prefix_concat_iff.mp hcut).resolve_left hne

/-- Of events that were written one after the other the reader gets the next one as soon as the
input holds it to its end, and not before. -/
theorem next_of_prefix {input : Bytes} (lastID : Bytes) (hsize : 2 ≤ size) {es : List Event}
    (h : ∀ e ∈ es, e.Plain) (hcut : input <+: es.flatMap Event.encode) :
    (∃ e ∈ es.head?, ∃ rest, input = e.encode ++ rest ∧
        next size lastID input = (some (e, e.id), rest)) ∨
      (next size lastID input = (none, []) ∧ ∀ e ∈ es.head?, ¬e.encode <+: input) := by
  cases es with
  | nil =>
    obtain rfl := List.prefix_nil.mp hcut
    exact .inr ⟨by rw [next_eq_scan hsize]; rfl, by simp⟩
  | cons e es =>
    obtain ⟨he, hes⟩ := List.forall_mem_cons.mp h
    rw [List.flatMap_cons] at hcut
    by_cases hwhole : e.encode <+: input
    · obtain ⟨rest, rfl⟩ := hwhole
      exact .inl ⟨e, rfl, rest, rfl, next_encode hsize he⟩
    · have hpart : input <+: e.encode :=
        (List.prefix_or_prefix_of_prefix hcut (List.prefix_append _ _)).resolve_right hwhole
      have hne : input ≠ e.encode := fun heq => hwhole (heq ▸ List.prefix_refl _)
      refine .inr ⟨next_cut hsize he hpart hne, ?_⟩
      rintro e' ⟨⟩
      exact hwhole

/-- An event without a retry interval whose data is one line. -/
theorem plain_of_oneLine (hid : Clean e.id) (hname : Clean e.name) (hdata : Clean e.data)
    (hretry : e.retry = 0) : e.Plain := by
  refine ⟨hid, hname, fun line hline => ?_, 0, by simp [hretry]⟩
  have hsplit : e.data.splitOn newline = [e.data] := List.splitOn_eq_singleton hdata.1
  rw [hsplit, List.mem_singleton] at hline
  rwa [hline]

end RoundTrip
end RoutingApi.Sse
