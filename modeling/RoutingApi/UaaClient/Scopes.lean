import RoutingApi.UaaClient.TokenValidator

/-! When `ValidateToken` panics. The rounds end with the token that passes, and the scope claim of
that token is read through unchecked type assertions. -/
namespace RoutingApi.UaaClient
open Process Program Jwt

variable {Block Key : Type} {c : Codec Block Key} {issuer header key : String}
variable {desired : List String} {jwt : List Char} {w w' : World} {token : Token}

/-- The token is verified with the key that UAA serves. -/
def Served (c : Codec Block Key) (issuer : String) (jwt : List Char) (w : World) (token : Token) :
    Prop :=
  ∃ key, w.serving = .ok key ∧ checkPublicKey c key = .ok () ∧
    parseVerified c (keyFunc c issuer key) jwt = .ok token

/-- The token passes parsing and signature verification: with the cached key, or with the key of
UAA when none is cached or the cached one does not fit the signature. -/
inductive Passed (c : Codec Block Key) (issuer : String) (jwt : List Char) (w : World)
    (token : Token) : Prop
  | cached : w.uaaPublicKey ≠ "" →
      parseVerified c (keyFunc c issuer w.uaaPublicKey) jwt = .ok token →
      Passed c issuer jwt w token
  | fetched : (w.uaaPublicKey ≠ "" → ∃ err,
        parseVerified c (keyFunc c issuer w.uaaPublicKey) jwt = .error err ∧
          err.errors = validationErrorSignatureInvalid) →
      Served c issuer jwt w token → Passed c issuer jwt w token

theorem Passed.parsed (h : Passed c issuer jwt w token) : parseUnverified c jwt = .ok token := by
  rcases h with ⟨_, hparse⟩ | ⟨_, _, _, _, hparse⟩
  · exact (parseVerified_ok hparse).1
  · exact (parseVerified_ok hparse).1

theorem run_getUaaTokenKey_cached (h : w.uaaPublicKey ≠ "") :
    (getUaaTokenKey c false).run handler w = (.ok w.uaaPublicKey, w) := by
  simp only [getUaaTokenKey, perform_bind, run_call, handler, h, Bool.false_eq_true, or_self,
    if_false]
  rfl

/-- A fetched key is the one that UAA serves, and it has been checked. -/
theorem run_getUaaTokenKey_fetched {force : Bool} (h : w.uaaPublicKey = "" ∨ force = true) :
    (∃ message, (getUaaTokenKey c force).run handler w = (.error (.returned message), w) ∧
      ∀ key, w.serving = .ok key → checkPublicKey c key ≠ .ok ()) ∨
    ∃ key w', w.serving = .ok key ∧ checkPublicKey c key = .ok () ∧
      (getUaaTokenKey c force).run handler w = (.ok key, w') ∧ w'.serving = w.serving ∧
      w'.now = w.now := by
  unfold getUaaTokenKey
  rw [perform_bind, run_call]
  simp only [handler, h, if_true, perform_bind, run_call]
  cases hserving : w.serving with
  | error message =>
    refine .inl ⟨message, rfl, fun key hkey => ?_⟩
    cases hkey
  | ok key =>
    simp only [Except.mapError, ofExcept_ok, ret_bind]
    cases hcheck : checkPublicKey c key with
    | error message =>
      refine .inl ⟨message, rfl, fun key' hkey' => ?_⟩
      cases hkey'
      rw [hcheck]
      intro hok
      cases hok
    | ok u => exact .inr ⟨key, _, rfl, hcheck, rfl, hserving, rfl⟩

section Rounds
variable {n : ℕ} {force : Bool} {last : Option Token × Option ValidationError}
variable (hkey : (getUaaTokenKey c force).run handler w = (.ok key, w'))
include hkey

/-- A round in which the token is verified is the last one. -/
theorem run_rounds_verified (h : parseVerified c (keyFunc c issuer key) jwt = .ok token) :
    ∃ err, (rounds c issuer jwt (n + 1) force last).run handler w = (.ok (some token, err), w') ∧
      (err = none ↔ Tolerated token.claims w'.now) := by
  obtain ⟨err, hleave, htolerated⟩ := leaveLoop_verified token w'.now
  refine ⟨err, ?_, htolerated⟩
  have hparse : (parse c issuer key jwt).run handler w' =
      (.ok (some token, token.claims.valid w'.now), w') := by
    rw [parse, h]
    rfl
  rw [rounds, run_bind_ok hkey, run_bind_ok hparse, hleave]
  rfl

theorem run_rounds_failed {err : ValidationError}
    (h : parseVerified c (keyFunc c issuer key) jwt = .error err) :
    (rounds c issuer jwt (n + 1) force last).run handler w =
      if err.errors = validationErrorSignatureInvalid then
        (rounds c issuer jwt n true (none, some err)).run handler w'
      else (.ok (none, some err), w') := by
  have hparse : (parse c issuer key jwt).run handler w' = (.ok (none, some err), w') := by
    rw [parse, h]
    rfl
  rw [rounds, run_bind_ok hkey, run_bind_ok hparse]
  rcases parseVerified_error h with hfatal | hsignature
  · have hne : err.errors ≠ validationErrorSignatureInvalid := by
      rcases hfatal with hfatal | hfatal <;> rw [hfatal] <;> decide
    rw [leaveLoop_fatal hfatal, if_neg hne]
    rfl
  · rw [leaveLoop_signature hsignature, if_pos hsignature]

end Rounds

/-- The loop has not ended with a token. -/
def Tokenless (r : Except Fault (Option Token × Option ValidationError)) : Prop :=
  (∃ message, r = .error (.returned message)) ∨ ∃ t err, r = .ok (t, some err)

/-- With a key that does not verify the token, fetching it again changes nothing. -/
theorem tokenless_of_not_served {n : ℕ} {force : Bool}
    {last : Option Token × Option ValidationError} (h : w.uaaPublicKey = "" ∨ force = true)
    (hlast : n = 0 → last.2 ≠ none) (hfails : ∀ token, ¬Served c issuer jwt w token) :
    Tokenless ((rounds c issuer jwt n force last).run handler w).1 := by
  induction n generalizing force last w with
  | zero =>
    obtain ⟨t, err⟩ := last
    obtain ⟨err, rfl⟩ := Option.ne_none_iff_exists'.mp (hlast rfl)
    exact .inr ⟨t, err, rfl⟩
  | succ n ih =>
    rcases run_getUaaTokenKey_fetched (c := c) h with
      ⟨message, hrun, -⟩ | ⟨key, w', hserving, hcheck, hrun, hserving', -⟩
    · rw [rounds, run_bind_error hrun]
      exact .inl ⟨message, rfl⟩
    · cases hparse : parseVerified c (keyFunc c issuer key) jwt with
      | ok token => exact absurd ⟨key, hserving, hcheck, hparse⟩ (hfails token)
      | error err =>
        rw [run_rounds_failed hrun hparse]
        split
        next =>
          refine ih (.inr rfl) (fun _ => Option.some_ne_none err) ?_
          unfold Served
          rw [hserving']
          exact hfails
        next => exact .inr ⟨none, err, rfl⟩

/-- How the rounds end that begin with fetching a key. -/
theorem run_rounds_fetched {n : ℕ} {force : Bool} {last : Option Token × Option ValidationError}
    (h : w.uaaPublicKey = "" ∨ force = true) :
    let r := (rounds c issuer jwt (n + 1) force last).run handler w
    (∃ token err, Served c issuer jwt w token ∧ r.1 = .ok (some token, err) ∧
      (err = none ↔ Tolerated token.claims w.now)) ∨
    ((∀ token, ¬Served c issuer jwt w token) ∧ Tokenless r.1) := by
  intro r
  by_cases hserved : ∃ token, Served c issuer jwt w token
  · obtain ⟨token, key, hkey, hcheck, hparse⟩ := hserved
    rcases run_getUaaTokenKey_fetched (c := c) h with
      ⟨_, _, hnone⟩ | ⟨key', w', hkey', -, hrun, -, hnow⟩
    · exact absurd hcheck (hnone key hkey)
    · cases hkey.symm.trans hkey'
      obtain ⟨err, hr, htolerated⟩ := run_rounds_verified hrun hparse
      rw [hnow] at htolerated
      exact .inl ⟨token, err, ⟨key, hkey, hcheck, hparse⟩, congrArg Prod.fst hr, htolerated⟩
  · have hfails : ∀ token, ¬Served c issuer jwt w token := fun token ht => hserved ⟨token, ht⟩
    exact .inr ⟨hfails, tokenless_of_not_served h nofun hfails⟩

/-- The rounds end with the token that passes, and its dates decide about an error, or without a
token. -/
theorem run_rounds_spec (c : Codec Block Key) (issuer : String) (jwt : List Char) (w : World) :
    let r := (rounds c issuer jwt 2 false (none, none)).run handler w
    (∃ token err, Passed c issuer jwt w token ∧ r.1 = .ok (some token, err) ∧
      (err = none ↔ Tolerated token.claims w.now)) ∨
    ((∀ token, ¬Passed c issuer jwt w token) ∧ Tokenless r.1) := by
  intro r
  by_cases hempty : w.uaaPublicKey = ""
  · have hpassed : ∀ token, Passed c issuer jwt w token ↔ Served c issuer jwt w token := by
      intro token
      constructor
      · rintro (⟨hne, -⟩ | ⟨-, hserved⟩)
        · exact absurd hempty hne
        · exact hserved
      · exact .fetched fun hne => absurd hempty hne
    simp only [hpassed]
    exact run_rounds_fetched (.inl hempty)
  · have hkey := run_getUaaTokenKey_cached (c := c) hempty
    cases hparse : parseVerified c (keyFunc c issuer w.uaaPublicKey) jwt with
    | ok token =>
      obtain ⟨err, hr, htolerated⟩ := run_rounds_verified hkey hparse
      exact .inl ⟨token, err, .cached hempty hparse, congrArg Prod.fst hr, htolerated⟩
    | error err =>
      have hr : r = if err.errors = validationErrorSignatureInvalid then
          (rounds c issuer jwt 1 true (none, some err)).run handler w
        else (.ok (none, some err), w) := run_rounds_failed hkey hparse
      have hpassed : ∀ token, Passed c issuer jwt w token ↔
          err.errors = validationErrorSignatureInvalid ∧ Served c issuer jwt w token := by
        intro token
        constructor
        · rintro (⟨-, hverified⟩ | ⟨hsignature, hserved⟩)
          · cases hparse.symm.trans hverified
          · obtain ⟨err', herr', hsignature⟩ := hsignature hempty
            cases hparse.symm.trans herr'
            exact ⟨hsignature, hserved⟩
        · rintro ⟨hsignature, hserved⟩
          exact .fetched (fun _ => ⟨err, hparse, hsignature⟩) hserved
      simp only [hpassed, hr]
      split
      next hsignature =>
        simp only [hsignature, true_and]
        exact run_rounds_fetched (.inr rfl)
      next hfatal => exact .inr ⟨fun _ h => hfatal h.1, .inr ⟨none, err, rfl⟩⟩

/-- The scope claim is an array of texts. -/
def TextScope (m : MapClaims) : Prop :=
  ∃ permissions : List String, m "scope" = some (.arr (permissions.map .str))

/-- After the rounds only the scope claim can make the validator panic. -/
theorem extractPermissionsFromToken_panics (h : ¬TextScope token.claims) :
    ∃ message, extractPermissionsFromToken token = .error (.panicked message) := by
  cases hextract : extractPermissionsFromToken token with
  | ok permissions => exact absurd ⟨permissions, extractPermissionsFromToken_ok.mp hextract⟩ h
  | error fault =>
    unfold extractPermissionsFromToken at hextract
    split at hextract
    next =>
      obtain ⟨scope, -, hscope⟩ := mapM_error hextract
      rw [assertString_error hscope]
      exact ⟨_, rfl⟩
    next =>
      cases hextract
      exact ⟨_, rfl⟩

/-- A result or a returned error, and no panic. -/
def Returns (r : Except Fault Unit) : Prop := r = .ok () ∨ ∃ message, r = .error (.returned message)

instance : (r : Except Fault Unit) → Decidable (Returns r)
  | .ok () => isTrue (.inl rfl)
  | .error (.returned message) => isTrue (.inr ⟨message, rfl⟩)
  | .error (.panicked message) => isFalse (by rintro (h | ⟨_, h⟩) <;> cases h)

/-- What follows the rounds panics only over the scope claim. -/
theorem returns_of_rounds {last : Option Token × Option ValidationError}
    (hbearer : checkTokenFormat header = .ok jwt)
    (hr : ((rounds c issuer jwt 2 false (none, none)).run handler w).1 = .ok last)
    (hlast : last ≠ (none, none)) :
    Returns ((validateToken c issuer header desired).run handler w).1 ↔
      ∀ token, last = (some token, none) → TextScope token.claims := by
  have hrun : (rounds c issuer jwt 2 false (none, none)).run handler w =
      (.ok last, ((rounds c issuer jwt 2 false (none, none)).run handler w).2) := Prod.ext hr rfl
  rw [validateToken, hbearer]
  simp only [Except.mapError, ofExcept_ok, ret_bind]
  rw [run_bind_ok hrun]
  match last with
  | (none, none) => exact absurd rfl hlast
  | (t, some err) => exact iff_of_true (.inr ⟨_, rfl⟩) nofun
  | (some token, none) =>
    simp only
    by_cases hscope : TextScope token.claims
    · obtain ⟨permissions, hpermissions⟩ := hscope
      rw [extractPermissionsFromToken_ok.mpr hpermissions]
      refine iff_of_true ?_ fun token' h => ?_
      · simp only [ofExcept_ok, ret_bind]
        split
        next => exact .inl rfl
        next => exact .inr ⟨_, rfl⟩
      · cases h
        exact ⟨permissions, hpermissions⟩
    · obtain ⟨message, hpanic⟩ := extractPermissionsFromToken_panics hscope
      rw [hpanic]
      refine iff_of_false ?_ fun h => hscope (h token rfl)
      rintro (h | ⟨_, h⟩) <;> cases h

/-- The validator returns, with or without an error, exactly if the scope claim of every token
that passes parsing and verification and whose dates are tolerated is an array of texts. -/
theorem validateToken_returns_iff (c : Codec Block Key) (issuer header : String)
    (desired : List String) (w : World) :
    Returns ((validateToken c issuer header desired).run handler w).1 ↔
      ∀ jwt token, Bearer header jwt → Passed c issuer jwt w token →
        Tolerated token.claims w.now → TextScope token.claims := by
  cases hformat : checkTokenFormat header with
  | error message =>
    refine iff_of_true (.inr ⟨message, ?_⟩) fun jwt token hbearer => ?_
    · simp [validateToken, hformat, Except.mapError]
    · rw [checkTokenFormat_ok.mpr hbearer] at hformat
      cases hformat
  | ok jwt =>
    have hjwt : ∀ jwt', Bearer header jwt' → jwt' = jwt := fun jwt' h => by
      rw [checkTokenFormat_ok.mpr h] at hformat
      exact Except.ok.inj hformat
    have hbearer : Bearer header jwt := checkTokenFormat_ok.mp hformat
    rcases run_rounds_spec c issuer jwt w with ⟨token, err, hpassed, hr, htolerated⟩ | ⟨hnone, hr⟩
    · rw [returns_of_rounds hformat hr (by simp)]
      constructor
      · intro h jwt' token' hbearer' hpassed' htolerated'
        obtain rfl := hjwt jwt' hbearer'
        cases hpassed.parsed.symm.trans hpassed'.parsed
        exact h token (by rw [htolerated.mpr htolerated'])
      · intro h token' hlast
        cases hlast
        exact h jwt token hbearer hpassed (htolerated.mp rfl)
    · have hvacuous : ∀ jwt' token, Bearer header jwt' → Passed c issuer jwt' w token →
          Tolerated token.claims w.now → TextScope token.claims := by
        intro jwt' token hbearer' hpassed
        obtain rfl := hjwt jwt' hbearer'
        exact absurd hpassed (hnone token)
      refine iff_of_true ?_ hvacuous
      rcases hr with ⟨message, hr⟩ | ⟨t, err, hr⟩
      · rw [validateToken, hformat]
        simp only [Except.mapError, ofExcept_ok, ret_bind]
        rw [run_bind_error (Prod.ext hr rfl)]
        exact .inr ⟨message, rfl⟩
      · rw [returns_of_rounds hformat hr (by simp)]
        nofun

/-- The codec of a UAA whose tokens have this scope claim. -/
def scopedCodec (scope : Option Json) : Codec String String :=
  { sampleCodec [] with
    decodeClaims := fun _ => .ok fun
      | "iss" => some (.str "uaa")
      | "scope" => scope
      | _ => none }

/-- Signed tokens whose scope claim is absent, null, a text, a number, an object or an array with
a number in it. -/
theorem validateToken_panics_on_scope :
    [none, some .null, some (.str "routing.routes.read"), some (.num 1), some (.obj []),
      some (.arr [.str "routing.routes.read", .num 1])].Forall fun scope =>
        ¬Returns ((validateToken (scopedCodec scope) "uaa" "bearer h.c.k1"
          ["routing.routes.read"]).run handler ⟨"k1", .ok "k1", 1000⟩).1 := by
  decide +kernel

end RoutingApi.UaaClient
