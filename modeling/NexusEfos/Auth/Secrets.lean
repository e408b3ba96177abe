/-
Secrets at rest: `encryptSecret` and `decryptSecret` of `lib/security.ts`, and the check of the
settings in `lib/startupSecrets.ts` that comes before the server takes any request.

The key of the encryption is a setting, too, and is read as hexadecimal digits only when it is
used.  A server that has started in production has one of the right length, so that whatever it
encrypts it can read back, with one exception: an empty text is encrypted as one that counts as
malformed.
-/
import NexusEfos.Auth.Login
import NexusEfos.Library.Hex

namespace NexusEfos

/-- `process.env`. -/
abbrev Env := String → Option String

/-! ## What a server asks of its settings -/

/-- The secrets that stand in the source for development. -/
def devFallbacks : List String :=
  ["dev-access-secret", "dev-refresh-secret", "dev-demo-link-secret", "dev-mfa-pending-secret"]

def minSecretLength : ℕ := 32

structure RequiredSecret where
  envVar : String
  purpose : String
  validate : Option (String → Option String) := none

def generateHint : String :=
  "Generate one with: node -e \"console.log(require('crypto').randomBytes(32).toString('hex'))\""

/-- `/^[0-9a-f]{64}$/i.test(value)`. -/
def isHex64 (value : String) : Bool :=
  value.toList.length = 64 && value.toList.all fun c => (hexValue c).isSome

def validateEncryptionKey (value : String) : Option String :=
  if isHex64 value = true then none
  else some ("must be exactly 64 hex characters (32 bytes), got " ++ toString (jsLength value) ++
    " character(s). " ++ generateHint)

def requiredSecrets : List RequiredSecret :=
  [{ envVar := "JWT_ACCESS_SECRET", purpose := "access token signing" },
   { envVar := "JWT_REFRESH_SECRET", purpose := "refresh token signing" },
   { envVar := "MFA_PENDING_SECRET", purpose := "MFA-pending token signing" },
   { envVar := "MFA_ENCRYPTION_KEY", purpose := "MFA secret encryption",
     validate := some validateEncryptionKey }]

/-- What is wrong with a secret. -/
def RequiredSecret.problem (env : Env) (r : RequiredSecret) : Option String :=
  match truthy (env r.envVar) with
  | none => some (r.envVar ++ " is not set (needed for " ++ r.purpose ++ ").")
  | some value =>
    if value ∈ devFallbacks then
      some (r.envVar ++ " is set to a known development placeholder value — this must never run " ++
        "in production.")
    else
      match r.validate with
      | some validate => (truthy (validate value)).map fun problem => r.envVar ++ " " ++ problem
      | none =>
        if jsLength value < minSecretLength then
          some (r.envVar ++ " is only " ++ toString (jsLength value) ++
            " characters — needs to be at least " ++ toString minSecretLength ++
            " for adequate entropy. " ++ generateHint)
        else none

def validateProductionSecrets (env : Env) : Except Failure Unit :=
  if env "NODE_ENV" ≠ some "production" then .ok ()
  else
    let problems := requiredSecrets.filterMap (RequiredSecret.problem env)
    if problems.length > 0 then
      .error (.thrown ("Refusing to start in production with insecure secrets:\n" ++
        "\n".intercalate (problems.map fun p => "  - " ++ p)))
    else .ok ()

/-! ## Encryption -/

/-- The key of AES-256. -/
abbrev AesKey := { key : List UInt8 // key.length = 32 }

/-- What `encryptSecret` draws at random. -/
abbrev AesIv := { iv : List UInt8 // iv.length = 12 }

/-- AES-256-GCM of the `crypto` module.  A text that was encrypted is decrypted with the key, the
initial vector and the tag that belong to it. -/
structure AesGcm where
  encrypt : AesKey → List UInt8 → List UInt8 → List UInt8 × List UInt8
  decrypt : AesKey → List UInt8 → List UInt8 → List UInt8 → Except Failure (List UInt8)
  /-- `toString("utf8")` of bytes that are no text. -/
  replaceInvalid : List UInt8 → String
  decrypt_encrypt : ∀ key (iv : AesIv) p,
    decrypt key iv.1 (encrypt key iv.1 p).2 (encrypt key iv.1 p).1 = .ok p
  length_data : ∀ key (iv : AesIv) p, (encrypt key iv.1 p).1.length = p.length
  length_authTag : ∀ key (iv : AesIv) p, (encrypt key iv.1 p).2.length = 16

def getKey (env : Env) : Except Failure AesKey :=
  match truthy (env "MFA_ENCRYPTION_KEY") with
  | none => .error (.thrown ("MFA_ENCRYPTION_KEY is not set. " ++ generateHint ++
      " and set it in the environment before any MFA enrollment happens."))
  | some raw =>
    if h : (ofHex raw.toList).length = 32 then .ok ⟨ofHex raw.toList, h⟩
    else .error (.thrown
      "MFA_ENCRYPTION_KEY must be a 32-byte value, hex-encoded (64 hex characters).")

def utf8Bytes (text : String) : List UInt8 := text.toUTF8.data.toList

def AesGcm.toUtf8 (c : AesGcm) (bytes : List UInt8) : String :=
  (String.fromUTF8? ⟨bytes.toArray⟩).getD (c.replaceInvalid bytes)

def encryptSecret (c : AesGcm) (env : Env) (iv : AesIv) (plaintext : String) :
    Except Failure String := do
  let key ← getKey env
  let (encrypted, authTag) := c.encrypt key iv.1 (utf8Bytes plaintext)
  return String.ofList ([':'].intercalate [toHex iv.1, toHex authTag, toHex encrypted])

def malformedSecret : Failure := .thrown "Malformed encrypted secret"

def decryptSecret (c : AesGcm) (env : Env) (stored : String) : Except Failure String :=
  match stored.toList.splitOn ':' with
  | ivHex :: authTagHex :: dataHex :: _ =>
    if ivHex = [] ∨ authTagHex = [] ∨ dataHex = [] then .error malformedSecret
    else do
      let key ← getKey env
      let decrypted ← c.decrypt key (ofHex ivHex) (ofHex authTagHex) (ofHex dataHex)
      return c.toUtf8 decrypted
  | _ => .error malformedSecret

/-! ## The key of a server that has started -/

/-- A server starts in production if nothing is wrong with any of its secrets. -/
theorem validateProductionSecrets_eq_ok_iff {env : Env}
    (hprod : env "NODE_ENV" = some "production") :
    validateProductionSecrets env = .ok () ↔ ∀ r ∈ requiredSecrets, r.problem env = none := by
  unfold validateProductionSecrets
  rw [if_neg (not_not.mpr hprod)]
  dsimp only
  rw [← List.filterMap_eq_nil_iff]
  by_cases hproblems : requiredSecrets.filterMap (RequiredSecret.problem env) = []
  · rw [hproblems]
    exact iff_of_true rfl rfl
  · rw [if_pos (List.length_pos_iff.mpr hproblems)]
    exact iff_of_false (by simp) hproblems

theorem length_of_isHex64 {value : String} (h : isHex64 value = true) :
    (ofHex value.toList).length = 32 := by
  rw [isHex64, Bool.and_eq_true, decide_eq_true_iff, List.all_eq_true] at h
  rw [length_ofHex h.2, h.1]

theorem isHex64_of_validate {value : String} (h : truthy (validateEncryptionKey value) = none) :
    isHex64 value = true := by
  by_contra hnot
  have htext : ∀ rest : String,
      "must be exactly 64 hex characters (32 bytes), got " ++ rest ≠ "" := by
    intro rest hempty
    exact absurd (String.append_eq_empty_iff.mp hempty).1 (by decide +kernel)
  rw [validateEncryptionKey, if_neg hnot, truthy, Option.filter_eq_none_iff] at h
  apply h _ rfl
  rw [decide_eq_true_iff, String.append_assoc, String.append_assoc]
  exact htext _

/-- The key that the check has let pass is the one that the encryption will find. -/
theorem getKey_of_problem_eq_none {env : Env} {purpose : String}
    (h : RequiredSecret.problem env ⟨"MFA_ENCRYPTION_KEY", purpose, some validateEncryptionKey⟩ =
      none) : ∃ key, getKey env = .ok key := by
  unfold RequiredSecret.problem at h
  unfold getKey
  cases hvalue : truthy (env "MFA_ENCRYPTION_KEY") with
  | none =>
    simp only [hvalue] at h
    exact absurd h (Option.some_ne_none _)
  | some value =>
    simp only [hvalue] at h
    by_cases hdev : value ∈ devFallbacks
    · rw [if_pos hdev] at h
      exact absurd h (Option.some_ne_none _)
    · rw [if_neg hdev, Option.map_eq_none_iff] at h
      exact ⟨_, dif_pos (length_of_isHex64 (isHex64_of_validate h))⟩

theorem getKey_of_started {env : Env} (hprod : env "NODE_ENV" = some "production")
    (hstart : validateProductionSecrets env = .ok ()) : ∃ key, getKey env = .ok key := by
  have hsound := (validateProductionSecrets_eq_ok_iff hprod).mp hstart
  have hmem : ⟨"MFA_ENCRYPTION_KEY", "MFA secret encryption", some validateEncryptionKey⟩ ∈
      requiredSecrets := .tail _ (.tail _ (.tail _ (.head _)))
  exact getKey_of_problem_eq_none (hsound _ hmem)

/-! ## Round trip -/

theorem toUtf8_utf8Bytes (c : AesGcm) (text : String) : c.toUtf8 (utf8Bytes text) = text := by
  have hdata : (⟨(utf8Bytes text).toArray⟩ : ByteArray) = text.toUTF8 := by
    rw [utf8Bytes, Array.toArray_toList]
  rw [AesGcm.toUtf8, hdata]
  simp only [String.fromUTF8?, String.toUTF8_eq_toByteArray, dif_pos text.isValidUTF8]
  rfl

theorem utf8Bytes_eq_nil {text : String} : utf8Bytes text = [] ↔ text = "" := by
  rw [utf8Bytes, Array.toList_eq_nil_iff, ← String.toByteArray_inj, ByteArray.ext_iff]
  rfl

theorem colon_notMem_toHex (bytes : List UInt8) : ':' ∉ toHex bytes := by
  intro hcolon
  exact absurd (isSome_hexValue_of_mem hcolon) (by decide)

/-- The three parts of an encrypted secret are found again. -/
theorem splitOn_encrypted (iv authTag data : List UInt8) :
    (String.ofList ([':'].intercalate [toHex iv, toHex authTag, toHex data])).toList.splitOn ':' =
      [toHex iv, toHex authTag, toHex data] := by
  rw [String.toList_ofList]
  apply List.splitOn_intercalate
  · intro part hpart
    simp only [List.mem_cons, List.not_mem_nil, or_false] at hpart
    rcases hpart with rfl | rfl | rfl <;> exact colon_notMem_toHex _
  · exact List.cons_ne_nil _ _

/-- What is encrypted under a key is decrypted under it, unless it is the empty text. -/
theorem decryptSecret_encrypted (c : AesGcm) {env : Env} {key : AesKey}
    (hkey : getKey env = .ok key) (iv : AesIv) (plaintext : String) :
    ∃ stored, encryptSecret c env iv plaintext = .ok stored ∧
      decryptSecret c env stored =
        if plaintext = "" then .error malformedSecret else .ok plaintext := by
  refine ⟨_, by rw [encryptSecret, hkey]; rfl, ?_⟩
  unfold decryptSecret
  rw [splitOn_encrypted]
  dsimp only
  have hiv : toHex iv.1 ≠ [] := by
    intro hnil
    have hlength := iv.2
    rw [toHex_eq_nil.mp hnil] at hlength
    exact absurd hlength (by decide)
  have htag : toHex (c.encrypt key iv.1 (utf8Bytes plaintext)).2 ≠ [] := by
    intro hnil
    have hlength := c.length_authTag key iv (utf8Bytes plaintext)
    rw [toHex_eq_nil.mp hnil] at hlength
    exact absurd hlength (by decide)
  have hdata : toHex (c.encrypt key iv.1 (utf8Bytes plaintext)).1 = [] ↔ plaintext = "" := by
    rw [toHex_eq_nil, ← List.length_eq_zero_iff, c.length_data, List.length_eq_zero_iff,
      utf8Bytes_eq_nil]
  by_cases hempty : plaintext = ""
  · rw [if_pos (.inr (.inr (hdata.mpr hempty))), if_pos hempty]
  · have hparts : ¬ (toHex iv.1 = [] ∨ toHex (c.encrypt key iv.1 (utf8Bytes plaintext)).2 = [] ∨
        toHex (c.encrypt key iv.1 (utf8Bytes plaintext)).1 = []) := by
      simp [hiv, htag, hdata, hempty]
    rw [if_neg hparts, if_neg hempty, hkey, ofHex_toHex, ofHex_toHex, ofHex_toHex]
    show (c.decrypt key iv.1 _ _ >>= fun decrypted => pure (c.toUtf8 decrypted)) = _
    rw [c.decrypt_encrypt]
    show Except.ok (c.toUtf8 (utf8Bytes plaintext)) = _
    rw [toUtf8_utf8Bytes]

/-- A cipher that hides nothing. -/
def clearText : AesGcm where
  encrypt := fun _ _ p => (p, List.replicate 16 0)
  decrypt := fun _ _ _ data => .ok data
  replaceInvalid := fun _ => ""
  decrypt_encrypt := fun _ _ _ => rfl
  length_data := fun _ _ _ => rfl
  length_authTag := fun _ _ _ => rfl

def soundEnv : Env
  | "NODE_ENV" => some "production"
  | "JWT_ACCESS_SECRET" => some "the access tokens are signed with this"
  | "JWT_REFRESH_SECRET" => some "the refresh tokens are signed with this"
  | "MFA_PENDING_SECRET" => some "the pending tokens are signed with this"
  | "MFA_ENCRYPTION_KEY" =>
    some "00112233445566778899AABBCCDDEEFF00112233445566778899aabbccddeeff"
  | _ => none

end NexusEfos
