import RoutingApi.Process.Loops
import RoutingApi.Process.Wp
import RoutingApi.Text.Lines
import RoutingApi.UaaClient.Jwt

/-! `tokenValidator`: which tokens `ValidateToken` accepts, with a public key that is cached and
fetched again when a signature does not verify. -/
namespace RoutingApi.UaaClient
open Process Program Jwt

section Model

/-- What the validator does beyond computing: the cached key, the key endpoint of UAA and the
clock, which gives Unix seconds. -/
inductive Call where
  | uaaPublicKey
  | setUaaPublicKey (key : String)
  | tokenKey
  | timeNow
  deriving DecidableEq, Repr

abbrev Call.Resp : Call → Type
  | .uaaPublicKey => String
  | .setUaaPublicKey _ => Unit
  | .tokenKey => Except String String
  | .timeNow => ℤ

inductive Fault where
  | returned (message : String)
  | panicked (message : String)
  deriving DecidableEq, Repr

abbrev ValidatorM (α : Type) := Program Call Call.Resp Fault α

variable {Block Key : Type} (c : Codec Block Key) (issuer : String)

def checkPublicKey (key : String) : Except String Unit :=
  match c.pemDecode key with
  | none => .error "public uaa token must be PEM encoded"
  | some _ => .ok ()

/-- `strings.EqualFold` for a second text whose letters fold to ASCII letters only. -/
def equalFold (s t : List Char) : Bool := s.map Char.toLower = t.map Char.toLower

def checkTokenFormat (token : String) : Except String (List Char) :=
  match token.toList.splitOn ' ' with
  | [tokenType, userToken] =>
    if equalFold tokenType "bearer".toList then .ok userToken
    else .error ("Invalid token type: " ++ String.ofList tokenType)
  | _ => .error "invalid token format"

def matchesError (err : ValidationError) (errorType : UInt32) : Bool :=
  err.errors &&& errorType = errorType

def isValidSigningMethod (token : Token) : Bool :=
  match token.method with
  | .rs256 | .rs384 | .rs512 => true
  | _ => false

def isValidIssuer (token : Token) : Bool := token.claims.verifyIssuer issuer true

def keyFunc (uaaKey : String) (token : Token) : Except String Key :=
  if !isValidSigningMethod token then .error "invalid signing method"
  else if !isValidIssuer issuer token then .error "invalid issuer"
  else parseRSAPublicKeyFromPEM c uaaKey

/-- The cached key is read once more when it is not fetched. -/
def getUaaTokenKey (forceFetch : Bool) : ValidatorM String := do
  let cached ← perform Call.uaaPublicKey
  if cached = "" ∨ forceFetch = true then
    let key ← ofExcept ((← perform Call.tokenKey).mapError .returned)
    ofExcept ((checkPublicKey c key).mapError .returned)
    perform (Call.setUaaPublicKey key)
    pure key
  else perform Call.uaaPublicKey

/-- `jwt.Parse`. The token that comes with an error is used only when its claims were checked. -/
def parse (uaaKey : String) (jwtToken : List Char) :
    ValidatorM (Option Token × Option ValidationError) :=
  match parseVerified c (keyFunc c issuer uaaKey) jwtToken with
  | .error err => pure (none, some err)
  | .ok token => do
    let now ← perform Call.timeNow
    pure (some token, token.claims.valid now)

/-- What the loop is left with after a round; with nothing it goes on to the next one. -/
def leaveLoop : Option Token × Option ValidationError →
    Option (Option Token × Option ValidationError)
  | (token, none) => some (token, none)
  | (token, some err) =>
    if matchesError err validationErrorSignatureInvalid then none
    else if matchesError err validationErrorIssuedAt then some (token, none)
    else some (token, some err)

/-- The remaining rounds of the loop, with the token and the error of the last one. -/
def rounds (jwtToken : List Char) : ℕ → Bool → Option Token × Option ValidationError →
    ValidatorM (Option Token × Option ValidationError)
  | 0, _, last => pure last
  | n + 1, forceUaaKeyFetch, _ => do
    let uaaKey ← getUaaTokenKey c forceUaaKeyFetch
    let last ← parse c issuer uaaKey jwtToken
    match leaveLoop last with
    | some last => pure last
    | none => rounds jwtToken n true last

def typeName : Option Json → String
  | none => "nil"
  | some .null => "nil"
  | some (.bool _) => "bool"
  | some (.num _) => "float64"
  | some (.str _) => "string"
  | some (.arr _) => "[]interface {}"
  | some (.obj _) => "map[string]interface {}"

/-- The failure of a type assertion. -/
def assertionPanic (v : Option Json) (type : String) : Fault :=
  .panicked ("interface conversion: interface {} is " ++ typeName v ++ ", not " ++ type)

def assertString : Json → Except Fault String
  | .str s => .ok s
  | v => .error (assertionPanic (some v) "string")

/-- The texts in the scope claim, by unchecked type assertions. -/
def extractPermissionsFromToken (token : Token) : Except Fault (List String) :=
  match token.claims "scope" with
  | some (.arr scopes) => scopes.mapM assertString
  | v => .error (assertionPanic v "[]interface {}")

def validateToken (uaaToken : String) (desiredPermissions : List String) : ValidatorM Unit := do
  let jwtToken ← ofExcept ((checkTokenFormat uaaToken).mapError .returned)
  match ← rounds c issuer jwtToken 2 false (none, none) with
  | (_, some err) => .fail (.returned err.message)
  | (none, none) =>
    .fail (.panicked "runtime error: invalid memory address or nil pointer dereference")
  | (some token, none) => do
    let permissions ← ofExcept (extractPermissionsFromToken token)
    if permissions.any fun permission => desiredPermissions.contains permission then pure ()
    else .fail (.returned
      ("Token does not have '" ++ "', '".intercalate desiredPermissions ++ "' scope"))

/-- The two validators; the first one is for development and accepts everything. -/
inductive TokenValidator where
  | noOp
  | validator (issuer uaaPublicKey : String)
  deriving DecidableEq, Repr

/-- What UAA says for the issuer and the key is used once the client has been made. -/
def newTokenValidator (devMode : Bool) (api : Except String Unit)
    (issuer tokenKey : Except String String) : Except String TokenValidator :=
  if devMode then .ok .noOp
  else do
    api
    let issuer ← issuer
    let jwk ← tokenKey
    checkPublicKey c jwk
    .ok (.validator issuer jwk)

/-- The cached key, what UAA answers for its key, and the clock. -/
structure World where
  uaaPublicKey : String
  serving : Except String String
  now : ℤ

def handler : Handler Call Call.Resp World
  | .uaaPublicKey, w => (w.uaaPublicKey, w)
  | .setUaaPublicKey key, w => ((), { w with uaaPublicKey := key })
  | .tokenKey, w => (w.serving, w)
  | .timeNow, w => (w.now, w)

end Model

section Specifications
variable {Block Key : Type} {c : Codec Block Key} {issuer : String} {w w' w'' : World}

/-- The key is cached, or it is the one that UAA serves. -/
def World.Knows (w : World) (key : String) : Prop := key = w.uaaPublicKey ∨ w.serving = .ok key

/-- What a call of the validator leaves alone when nobody else acts. -/
structure World.Kept (w w' : World) : Prop where
  now : w'.now = w.now
  knows : ∀ key, w'.Knows key → w.Knows key

theorem World.Kept.refl (w : World) : w.Kept w := ⟨rfl, fun _ h => h⟩

theorem World.Kept.trans (h : w.Kept w') (h' : w'.Kept w'') : w.Kept w'' :=
  ⟨h'.now.trans h.now, fun key hkey => h.knows key (h'.knows key hkey)⟩

/-- The header is the word bearer in any case, one space and the token. -/
def Bearer (header : String) (jwt : List Char) : Prop :=
  ∃ tokenType, header.toList = tokenType ++ ' ' :: jwt ∧ ' ' ∉ tokenType ∧ ' ' ∉ jwt ∧
    tokenType.map Char.toLower = "bearer".toList

theorem checkTokenFormat_ok {header : String} {jwt : List Char} :
    checkTokenFormat header = .ok jwt ↔ Bearer header jwt := by
  constructor
  · intro h
    unfold checkTokenFormat at h
    split at h
    next tokenType userToken hsplit =>
      split at h
      next hbearer =>
        cases h
        have htext : [' '].intercalate (header.toList.splitOn ' ') = header.toList :=
          List.intercalate_splitOn ' '
        rw [hsplit] at htext
        refine ⟨tokenType, by simpa [List.intercalate] using htext.symm, ?_, ?_, ?_⟩
        · exact Text.not_mem_of_mem_splitOn (hsplit ▸ List.mem_cons_self)
        · exact Text.not_mem_of_mem_splitOn (hsplit ▸ List.mem_cons_of_mem _ List.mem_cons_self)
        · exact of_decide_eq_true hbearer
      next => cases h
    next => cases h
  · rintro ⟨tokenType, hheader, htype, hjwt, hbearer⟩
    have hsplit : header.toList.splitOn ' ' = [tokenType, jwt] := by
      have htext : header.toList = [' '].intercalate [tokenType, jwt] := by
        simp [hheader, List.intercalate]
      rw [htext, List.splitOn_intercalate ' ' (by simp [htype, hjwt]) (by simp)]
    have hfold : equalFold tokenType "bearer".toList = true := decide_eq_true hbearer
    simp only [checkTokenFormat, hsplit, hfold, if_true]

theorem isValidSigningMethod_iff {token : Token} :
    isValidSigningMethod token = true ↔ token.method ∈ [.rs256, .rs384, .rs512] := by
  unfold isValidSigningMethod
  cases token.method <;> decide

theorem keyFunc_ok {uaaKey : String} {token : Token} {pub : Key}
    (h : keyFunc c issuer uaaKey token = .ok pub) :
    isValidSigningMethod token = true ∧ isValidIssuer issuer token = true ∧
      parseRSAPublicKeyFromPEM c uaaKey = .ok pub := by
  unfold keyFunc at h
  split at h
  next => cases h
  next hmethod =>
    split at h
    next => cases h
    next hissuer => exact ⟨by simpa using hmethod, by simpa using hissuer, h⟩

theorem wp_getUaaTokenKey (c : Codec Block Key) (force : Bool) (w : World) :
    wp handler (getUaaTokenKey c force) w fun r w' =>
      w.Kept w' ∧ ∀ key, r = .ok key → w.Knows key := by
  unfold getUaaTokenKey
  rw [perform_bind, wp_call]
  apply wp_ite
  · intro _
    rw [perform_bind, wp_call]
    simp only [handler]
    cases hserving : w.serving with
    | error err => exact ⟨.refl w, nofun⟩
    | ok key =>
      simp only [Except.mapError, ofExcept_ok, ret_bind]
      cases checkPublicKey c key with
      | error err => exact ⟨.refl w, nofun⟩
      | ok u =>
        refine ⟨⟨rfl, ?_⟩, fun key' h => .inr (hserving.trans (congrArg _ (Except.ok.inj h)))⟩
        rintro key' (rfl | hkey)
        · exact .inr hserving
        · exact .inr hkey
  · intro _
    exact ⟨.refl w, fun key h => .inl (Except.ok.inj h).symm⟩

/-- The dates of the claims pass, or the claims were issued in the future. -/
def Tolerated (m : MapClaims) (now : ℤ) : Prop :=
  m.verifyIssuedAt now false = false ∨
    m.verifyExpiresAt now false = true ∧ m.verifyNotBefore now false = true

theorem wp_parse (c : Codec Block Key) (issuer key : String) (jwt : List Char) (w : World) :
    wp handler (parse c issuer key jwt) w fun r w' => w' = w ∧
      match parseVerified c (keyFunc c issuer key) jwt with
      | .error err => r = .ok (none, some err)
      | .ok token => r = .ok (some token, token.claims.valid w.now) := by
  unfold parse
  cases parseVerified c (keyFunc c issuer key) jwt with
  | error err => exact ⟨rfl, rfl⟩
  | ok token => exact ⟨rfl, rfl⟩

theorem matchesError_iff {err : ValidationError} {errorType : UInt32} :
    matchesError err errorType = true ↔ err.errors &&& errorType = errorType := decide_eq_true_iff

theorem leaveLoop_signature {token : Option Token} {err : ValidationError}
    (h : err.errors = validationErrorSignatureInvalid) : leaveLoop (token, some err) = none := by
  simp only [leaveLoop, matchesError_iff]
  rw [h]
  rfl

/-- The other errors before the claims are checked end the loop. -/
theorem leaveLoop_fatal {token : Option Token} {err : ValidationError}
    (h : err.errors = validationErrorMalformed ∨ err.errors = validationErrorUnverifiable) :
    leaveLoop (token, some err) = some (token, some err) := by
  simp only [leaveLoop, matchesError_iff]
  rcases h with h | h <;> rw [h] <;> rfl

/-- The loop ends with a verified token, and without an error exactly when its dates are
tolerated. -/
theorem leaveLoop_verified (token : Token) (now : ℤ) :
    ∃ err, leaveLoop (some token, token.claims.valid now) = some (some token, err) ∧
      (err = none ↔ Tolerated token.claims now) := by
  unfold Tolerated MapClaims.valid
  cases token.claims.verifyExpiresAt now false <;> cases token.claims.verifyIssuedAt now false <;>
    cases token.claims.verifyNotBefore now false <;> exact ⟨_, rfl, by decide⟩

/-- The token was verified with a known key, and its dates are tolerated. -/
def Verified (c : Codec Block Key) (issuer : String) (jwt : List Char) (w : World)
    (t : Option Token) : Prop :=
  ∃ token key, t = some token ∧ w.Knows key ∧
    parseVerified c (keyFunc c issuer key) jwt = .ok token ∧ Tolerated token.claims w.now

/-- A token without an error at the end of the loop was verified with a known key. -/
theorem wp_rounds (c : Codec Block Key) (issuer : String) (jwt : List Char) (n : ℕ) (force : Bool)
    {last : Option Token × Option ValidationError} (hlast : n = 0 → last.2 ≠ none) (w : World) :
    wp handler (rounds c issuer jwt n force last) w fun r w' =>
      w.Kept w' ∧ ∀ t, r = .ok (t, none) → Verified c issuer jwt w t := by
  induction n generalizing force last w with
  | zero =>
    refine ⟨.refl w, fun t ht => absurd ?_ (hlast rfl)⟩
    rw [Except.ok.inj ht]
  | succ n ih =>
    unfold rounds
    apply wp_bind
    apply wp_mono (wp_getUaaTokenKey c force w)
    rintro r w₁ ⟨hkept, hknows⟩
    cases r with
    | error e => exact ⟨hkept, nofun⟩
    | ok key =>
      have hkey := hknows key rfl
      apply wp_bind
      apply wp_mono (wp_parse c issuer key jwt w₁)
      rintro r w₂ ⟨rfl, hparse⟩
      cases hverified : parseVerified c (keyFunc c issuer key) jwt with
      | error err =>
        rw [hverified] at hparse
        subst hparse
        rcases parseVerified_error hverified with hfatal | hsignature
        · simp only [leaveLoop_fatal hfatal]
          exact ⟨hkept, nofun⟩
        · simp only [leaveLoop_signature hsignature]
          apply wp_mono (ih true (fun _ => Option.some_ne_none err) w₂)
          rintro r w₃ ⟨hkept', hfound⟩
          refine ⟨hkept.trans hkept', fun t ht => ?_⟩
          obtain ⟨token, key', htoken, hkey', hrest⟩ := hfound t ht
          rw [hkept.now] at hrest
          exact ⟨token, key', htoken, hkept.knows key' hkey', hrest⟩
      | ok token =>
        rw [hverified] at hparse
        subst hparse
        obtain ⟨err, hleave, htolerated⟩ := leaveLoop_verified token w₂.now
        simp only [hleave]
        refine ⟨hkept, fun t ht => ?_⟩
        cases ht
        exact ⟨token, key, rfl, hkey, hverified, hkept.now ▸ htolerated.mp rfl⟩

theorem assertString_ok {v : Json} {s : String} : assertString v = .ok s ↔ v = .str s := by
  cases v <;> simp [assertString]

theorem assertString_error {v : Json} {fault : Fault} (h : assertString v = .error fault) :
    fault = assertionPanic (some v) "string" := by
  cases v with
  | str s => cases h
  | _ =>
    cases h
    rfl

theorem extractPermissionsFromToken_ok {token : Token} {permissions : List String} :
    extractPermissionsFromToken token = .ok permissions ↔
      token.claims "scope" = some (.arr (permissions.map .str)) := by
  unfold extractPermissionsFromToken
  split
  next scopes hscopes =>
    rw [hscopes, Option.some.injEq, Json.arr.injEq, mapM_ok, ← List.forall₂_eq_eq_eq,
      List.forall₂_map_right_iff]
    simp only [assertString_ok]
  next v hv =>
    constructor
    · nofun
    · exact fun h => absurd h (hv _)

end Specifications

section Acceptance
variable {Block Key : Type} {c : Codec Block Key} {issuer header : String}
variable {desired : List String} {w : World} {token : Token}

/-- What an accepted header must be, apart from the dates: a bearer token of the issuer, signed
with a known key by an allowed algorithm, that grants a desired permission. -/
structure Genuine (c : Codec Block Key) (issuer header : String) (desired : List String)
    (w : World) (token : Token) : Prop where
  bearer : ∃ jwt, Bearer header jwt ∧ parseUnverified c jwt = .ok token
  algorithm : token.method ∈ [.rs256, .rs384, .rs512]
  issued : token.claims "iss" = some (.str issuer)
  signed : ∃ key pub, w.Knows key ∧ parseRSAPublicKeyFromPEM c key = .ok pub ∧
    c.verify token.method token.signingString token.signature pub = .ok ()
  granted : ∃ scopes, token.claims "scope" = some (.arr scopes) ∧ ∃ d ∈ desired, .str d ∈ scopes

/-- The token has not expired, and it is already valid. -/
def Timely (m : MapClaims) (now : ℤ) : Prop :=
  m.Dated "exp" ((now : ℚ) < ·) ∧ m.Dated "nbf" (· ≤ (now : ℚ))

/-- A date that should reject the token is not held against it: the token was also issued in the
future, and that error is cleared with all the others, or the library takes the number for no
date or for another one. -/
def Overlooked (m : MapClaims) (now : ℤ) : Prop :=
  m.verifyIssuedAt now false = false ∧
      (¬m.Dated "exp" ((now : ℚ) < ·) ∨ ¬m.Dated "nbf" (· ≤ (now : ℚ))) ∨
    (∃ f : ℚ, m "exp" = some (.num f) ∧ f ≤ now ∧
      (f = 0 ∨ unix now < newNumericDateFromSeconds f)) ∨
    ∃ f : ℚ, m "nbf" = some (.num f) ∧ now < f ∧
      (f = 0 ∨ newNumericDateFromSeconds f ≤ unix now)

/-- A date that passes the check of the library is right, or it was misread. -/
theorem dated_or_misread {m : MapClaims} {claim : String} {P Q : ℚ → Prop} (h : m.Dated claim P) :
    m.Dated claim Q ∨ ∃ f, m claim = some (.num f) ∧ ¬Q f ∧ P f := by
  by_cases hdated : m.Dated claim Q
  · exact .inl hdated
  · simp only [MapClaims.Dated, not_forall] at hdated
    obtain ⟨v, hv, hnot⟩ := hdated
    obtain ⟨f, rfl, hf⟩ := h v hv
    exact .inr ⟨f, hv, fun hQ => hnot ⟨f, rfl, hQ⟩, hf⟩

theorem timely_iff_of_tolerated {m : MapClaims} {now : ℤ} (h : Tolerated m now) :
    Timely m now ↔ ¬Overlooked m now := by
  constructor
  · rintro ⟨hexp, hnbf⟩ (⟨-, hlate | hearly⟩ | ⟨f, hf, hlate, -⟩ | ⟨f, hf, hearly, -⟩)
    · exact hlate hexp
    · exact hearly hnbf
    · exact hlate.not_gt ((MapClaims.dated_num hf).mp hexp)
    · exact hearly.not_ge ((MapClaims.dated_num hf).mp hnbf)
  · intro hover
    rcases h with hissued | ⟨hexp, hnbf⟩
    · by_contra htimely
      exact hover (.inl ⟨hissued, not_and_or.mp htimely⟩)
    · rw [MapClaims.verifyExpiresAt_iff] at hexp
      rw [MapClaims.verifyNotBefore_iff] at hnbf
      constructor
      · rcases dated_or_misread hexp with hexp | ⟨f, hf, hlate, hread⟩
        · exact hexp
        · exact absurd (.inr (.inl ⟨f, hf, not_lt.mp hlate, hread⟩)) hover
      · rcases dated_or_misread hnbf with hnbf | ⟨f, hf, hearly, hread⟩
        · exact hnbf
        · exact absurd (.inr (.inr ⟨f, hf, not_le.mp hearly, hread⟩)) hover

section Clock
variable {m : MapClaims} {now : ℤ}

/-- What the library makes of the dates at a clock between 1970 and the last second of a
`time.Time`: it does not see that a date lies within the running second, nor that it is too large,
and zero is no date. -/
theorem tolerated_iff (hmin : 0 ≤ now) (hmax : now < lastSecond) : Tolerated m now ↔
    m.verifyIssuedAt now false = false ∨
      m.Dated "exp" (fun f => f = 0 ∨ now + 1 ≤ f ∧ f < lastSecond) ∧
        m.Dated "nbf" fun f => f < now + 1 ∨ lastSecond ≤ f := by
  have hexp (f : ℚ) : f = 0 ∨ unix now < newNumericDateFromSeconds f ↔
      f = 0 ∨ now + 1 ≤ f ∧ f < lastSecond := by
    rw [lt_newNumericDateFromSeconds_iff hmin hmax]
  have hnbf (f : ℚ) : f = 0 ∨ newNumericDateFromSeconds f ≤ unix now ↔
      f < now + 1 ∨ lastSecond ≤ f := by
    rw [← not_lt, lt_newNumericDateFromSeconds_iff hmin hmax, not_and_or, not_le, not_lt]
    refine or_iff_right_of_imp ?_
    rintro rfl
    exact .inl (by exact_mod_cast Int.lt_add_one_of_le hmin)
  rw [Tolerated, MapClaims.verifyExpiresAt_iff, MapClaims.verifyNotBefore_iff,
    MapClaims.dated_congr hexp, MapClaims.dated_congr hnbf]

/-- The dates that are overlooked at such a clock. -/
theorem overlooked_iff (hmin : 0 ≤ now) (hmax : now < lastSecond) : Overlooked m now ↔
    m.verifyIssuedAt now false = false ∧
        (¬m.Dated "exp" ((now : ℚ) < ·) ∨ ¬m.Dated "nbf" (· ≤ (now : ℚ))) ∨
      m "exp" = some (.num 0) ∨
      ∃ f : ℚ, m "nbf" = some (.num f) ∧ (now < f ∧ f < now + 1 ∨ lastSecond ≤ f) := by
  have hexp (f : ℚ) : f ≤ now ∧ (f = 0 ∨ unix now < newNumericDateFromSeconds f) ↔ f = 0 := by
    rw [lt_newNumericDateFromSeconds_iff hmin hmax]
    constructor
    · rintro ⟨hlate, hzero | ⟨hfuture, -⟩⟩
      · exact hzero
      · linarith
    · rintro rfl
      exact ⟨by exact_mod_cast hmin, .inl rfl⟩
  have hnbf (f : ℚ) : now < f ∧ (f = 0 ∨ newNumericDateFromSeconds f ≤ unix now) ↔
      now < f ∧ f < now + 1 ∨ lastSecond ≤ f := by
    have hzero : (0 : ℚ) ≤ now := by exact_mod_cast hmin
    have hlast : (now : ℚ) < lastSecond := by exact_mod_cast hmax
    rw [← not_lt, lt_newNumericDateFromSeconds_iff hmin hmax, not_and_or, not_le, not_lt]
    constructor
    · rintro ⟨hearly, rfl | hrunning | hlarge⟩
      · linarith
      · exact .inl ⟨hearly, hrunning⟩
      · exact .inr hlarge
    · rintro (⟨hearly, hrunning⟩ | hlarge)
      · exact ⟨hearly, .inr (.inl hrunning)⟩
      · exact ⟨by linarith, .inr (.inr hlarge)⟩
  simp only [Overlooked, hexp, hnbf, exists_eq_right]

end Clock

/-- What the validator has seen of a token that it accepts. -/
theorem wp_validateToken (c : Codec Block Key) (issuer header : String) (desired : List String)
    (w : World) :
    wp handler (validateToken c issuer header desired) w fun r _ => r = .ok () →
      ∃ token, Genuine c issuer header desired w token ∧ Tolerated token.claims w.now := by
  unfold validateToken
  cases hformat : checkTokenFormat header with
  | error err => nofun
  | ok jwt =>
    simp only [Except.mapError, ofExcept_ok, ret_bind]
    apply wp_bind
    apply wp_mono (wp_rounds c issuer jwt 2 false nofun w)
    rintro r w' ⟨-, hverified⟩
    match r with
    | .error e => nofun
    | .ok (_, some err) => nofun
    | .ok (none, none) => nofun
    | .ok (some token, none) =>
      obtain ⟨_, key, htoken, hknows, hparse, htolerated⟩ := hverified _ rfl
      cases htoken
      simp only
      cases hpermissions : extractPermissionsFromToken token with
      | error e => nofun
      | ok permissions =>
        apply wp_ite
        · intro hany _
          obtain ⟨hunverified, pub, hpub, hsignature⟩ := parseVerified_ok hparse
          obtain ⟨hmethod, hissuer, hkey⟩ := keyFunc_ok hpub
          obtain ⟨d, hd, hdesired⟩ := List.any_eq_true.mp hany
          refine ⟨token, ⟨?_, ?_, ?_, ?_, ?_⟩, htolerated⟩
          · exact ⟨jwt, checkTokenFormat_ok.mp hformat, hunverified⟩
          · exact isValidSigningMethod_iff.mp hmethod
          · exact (MapClaims.verifyIssuer_required.mp hissuer).2
          · exact ⟨key, pub, hknows, hkey, hsignature⟩
          · refine ⟨_, extractPermissionsFromToken_ok.mp hpermissions, d, ?_, ?_⟩
            · exact List.contains_iff_mem.mp hdesired
            · exact List.mem_map_of_mem hd
        · nofun

/-- An accepted token is what it should be, and its dates hold exactly when none of them was
overlooked. -/
theorem validateToken_timely_iff (c : Codec Block Key) (issuer header : String)
    (desired : List String) (w : World)
    (haccepted : ((validateToken c issuer header desired).run handler w).1 = .ok ()) :
    ∃ token, Genuine c issuer header desired w token ∧
      (Timely token.claims w.now ↔ ¬Overlooked token.claims w.now) := by
  obtain ⟨token, hgenuine, htolerated⟩ :=
    wp_validateToken c issuer header desired w haccepted
  exact ⟨token, hgenuine, timely_iff_of_tolerated htolerated⟩

/-- The claims of a token with these dates. -/
def sampleClaims (dates : List (String × ℚ)) : MapClaims
  | "iss" => some (.str "uaa")
  | "scope" => some (.arr [.str "routing.routes.read"])
  | claim => (dates.lookup claim).map .num

/-- A codec in which a text is its own PEM block and, apart from `ec`, an RSA key, and a signature
is the text of its key. -/
def sampleCodec (dates : List (String × ℚ)) : Codec String String where
  decodeHeader _ := .ok fun
    | "alg" => some (.str "RS256")
    | _ => none
  decodeClaims _ := .ok (sampleClaims dates)
  pemDecode key := if key = "" then none else some key
  parseRSAPublicKey block :=
    if block = "ec" then .error "key is not a valid RSA public key"
    else .ok block
  verify _ _ signature key :=
    if signature = key.toList then .ok () else .error "crypto/rsa: verification error"
  pemDecode_empty := rfl

theorem validateToken_timely_sample :
    let c := sampleCodec [("exp", 2000), ("iat", 500), ("nbf", 500)]
    let w : World := ⟨"k1", .ok "k2", 1000⟩
    ((validateToken c "uaa" "Bearer h.c.k2" ["routing.routes.read"]).run handler w).1 = .ok () ∧
      ∃ token, Genuine c "uaa" "Bearer h.c.k2" ["routing.routes.read"] w token ∧
        (Timely token.claims w.now ↔ ¬Overlooked token.claims w.now) := by
  intro c w
  have haccepted : ((validateToken c "uaa" "Bearer h.c.k2" ["routing.routes.read"]).run
      handler w).1 = .ok () := by decide +kernel
  exact ⟨haccepted, validateToken_timely_iff _ _ _ _ _ haccepted⟩

/-- A token that expired long ago is accepted once it is also issued in the future. -/
theorem validateToken_accepts_expired :
    let c := sampleCodec [("exp", 500), ("iat", 2000)]
    let w : World := ⟨"k1", .ok "k1", 1000⟩
    ((validateToken c "uaa" "bearer h.c.k1" ["routing.routes.read"]).run handler w).1 = .ok () ∧
      ¬∃ token, Genuine c "uaa" "bearer h.c.k1" ["routing.routes.read"] w token ∧
        Timely token.claims w.now := by
  intro c w
  refine ⟨by decide +kernel, ?_⟩
  rintro ⟨token, hgenuine, hexp, -⟩
  obtain ⟨jwt, -, hparse⟩ := hgenuine.bearer
  have hspec := parseUnverified_spec c jwt
  rw [hparse] at hspec
  obtain ⟨_, hdecoded⟩ := hspec
  have hclaims : token.claims "exp" = some (.num 500) := by
    rw [← Except.ok.inj hdecoded]
    rfl
  rw [MapClaims.dated_num hclaims] at hexp
  norm_num [w] at hexp

end Acceptance
end RoutingApi.UaaClient
