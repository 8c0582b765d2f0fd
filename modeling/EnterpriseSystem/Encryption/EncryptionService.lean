import EnterpriseSystem.Base.Base64

/-!
# Encryption at rest

`EncryptionService` of `src/security/encryption/encryption.service.ts`: texts
under AES-256-GCM, with a key for every version.

* `Crypto` — what the service uses of the runtime's `crypto`.
* `EncryptionService`, `initializeKeys`, `encrypt`, `decrypt`, `reEncrypt` — the
  service and its methods.
* `decrypt_sealed` — what a later configuration makes of an earlier ciphertext.
* `roundTrips_iff` — it is the text again exactly when the text is well formed.
-/

namespace EnterpriseSystem.Encryption

open Unicode Base64

/-! ## The runtime -/

/-- The functions of `crypto` that the service calls: key derivation, and the cipher,
which gives a ciphertext with its tag and takes them back. -/
structure Crypto where
  scryptSync : JsString → String → ℕ → Bytes
  gcmEncrypt (key iv plaintext : Bytes) : Bytes × Bytes
  gcmDecrypt (key iv ciphertext tag : Bytes) : Option Bytes
  /-- Decryption inverts encryption under the same key and initialization vector. -/
  gcmDecrypt_gcmEncrypt : ∀ key iv plaintext,
    gcmDecrypt key iv (gcmEncrypt key iv plaintext).1 (gcmEncrypt key iv plaintext).2 =
      some plaintext

/-! ## The service -/

/-- `EncryptedData`. -/
structure EncryptedData where
  ciphertext : String
  iv : String
  tag : String
  keyVersion : ℕ
  deriving DecidableEq

/-- `EncryptionKey`. -/
structure EncryptionKey where
  key : Bytes
  version : ℕ
  deriving DecidableEq

/-- `EncryptionService`. -/
structure EncryptionService where
  keys : List EncryptionKey
  currentKeyVersion : ℕ

/-- `buffer.toString('base64')`. -/
def base64 (bs : Bytes) : String := String.ofList (toBase64 bs)

/-- `Buffer.from(text, 'base64')`. -/
def ofBase64 (text : String) : Bytes := fromBase64 text.toList

@[simp] theorem ofBase64_base64 (bs : Bytes) : ofBase64 (base64 bs) = bs := by
  rw [ofBase64, base64, String.toList_ofList, fromBase64_toBase64]

namespace EncryptionService

/-- The key of a version. -/
def derive (crypto : Crypto) (masterKey : JsString) (v : ℕ) : EncryptionKey :=
  ⟨crypto.scryptSync masterKey s!"enterprise-encryption-v{v}" 32, v⟩

/-- `initializeKeys`, for `ENCRYPTION_MASTER_KEY` and `ENCRYPTION_KEY_VERSIONS`. -/
def initializeKeys (crypto : Crypto) (masterKey : JsString) (keyVersions : ℕ) :
    EncryptionService :=
  { keys := (List.range' 1 keyVersions).map (derive crypto masterKey)
    currentKeyVersion := keyVersions }

/-- `getKeyByVersion`. -/
def getKeyByVersion (s : EncryptionService) (version : ℕ) : Option EncryptionKey :=
  s.keys.find? fun k => k.version == version

/-- `getCurrentKey`. -/
def getCurrentKey (s : EncryptionService) : Except String EncryptionKey :=
  match s.keys.find? fun k => k.version == s.currentKeyVersion with
  | some key => .ok key
  | none => .error "No current encryption key available"

/-- `encrypt`, for the initialization vector that is drawn. -/
def encrypt (crypto : Crypto) (s : EncryptionService) (plaintext : JsString) (iv : Bytes) :
    Except String EncryptedData :=
  if plaintext = [] then .error "Cannot encrypt empty or null plaintext"
  else do
    let currentKey ← s.getCurrentKey
    let (encrypted, tag) := crypto.gcmEncrypt currentKey.key iv (toBytes plaintext)
    return { ciphertext := base64 encrypted, iv := base64 iv, tag := base64 tag,
             keyVersion := currentKey.version }

/-- `decrypt`. -/
def decrypt (crypto : Crypto) (s : EncryptionService) (encryptedData : EncryptedData) :
    Except String JsString :=
  match s.getKeyByVersion encryptedData.keyVersion with
  | none => .error (s!"Encryption key version {encryptedData.keyVersion} not found. " ++
      "Possible key rotation issue.")
  | some key =>
    match crypto.gcmDecrypt key.key (ofBase64 encryptedData.iv) (ofBase64 encryptedData.ciphertext)
      (ofBase64 encryptedData.tag) with
    | none => .error "Unsupported state or unable to authenticate data"
    | some decrypted => .ok (ofBytes decrypted)

/-- `reEncrypt`. -/
def reEncrypt (crypto : Crypto) (s : EncryptionService) (encryptedData : EncryptedData)
    (iv : Bytes) : Except String EncryptedData := do
  let plaintext ← s.decrypt crypto encryptedData
  s.encrypt crypto plaintext iv

end EncryptionService

/-! ## Across versions -/

section

variable (crypto : Crypto) (masterKey : JsString) {v versions : ℕ} {p : JsString}

namespace EncryptionService

/-- Every version up to the configured one has its key. -/
theorem getKeyByVersion_initializeKeys (hv : 1 ≤ v) (hle : v ≤ versions) :
    (initializeKeys crypto masterKey versions).getKeyByVersion v =
      some (derive crypto masterKey v) := by
  have hmem : derive crypto masterKey v ∈ (initializeKeys crypto masterKey versions).keys :=
    List.mem_map_of_mem (List.mem_range'_1.2 ⟨hv, by omega⟩)
  have hsome : ∃ k, (initializeKeys crypto masterKey versions).getKeyByVersion v = some k := by
    refine Option.isSome_iff_exists.1 (List.find?_isSome.2 ⟨_, hmem, ?_⟩)
    exact beq_self_eq_true v
  obtain ⟨k, hk⟩ := hsome
  -- a key of this version is the one derived for it
  obtain ⟨v', -, rfl⟩ := List.mem_map.1 (List.mem_of_find?_eq_some hk)
  have hversion : v' = v := by simpa [derive] using List.find?_some hk
  rw [hk, hversion]

theorem getCurrentKey_initializeKeys (hversions : 1 ≤ versions) :
    (initializeKeys crypto masterKey versions).getCurrentKey =
      .ok (derive crypto masterKey versions) := by
  have hkey := getKeyByVersion_initializeKeys crypto masterKey hversions le_rfl
  have hfind : (initializeKeys crypto masterKey versions).keys.find?
      (fun k => k.version == (initializeKeys crypto masterKey versions).currentKeyVersion) =
      some (derive crypto masterKey versions) := hkey
  unfold getCurrentKey
  rw [hfind]

/-- What `encrypt` makes of a text under a version. -/
def sealed (v : ℕ) (p : JsString) (iv : Bytes) : EncryptedData :=
  let key := (derive crypto masterKey v).key
  { ciphertext := base64 (crypto.gcmEncrypt key iv (toBytes p)).1, iv := base64 iv,
    tag := base64 (crypto.gcmEncrypt key iv (toBytes p)).2, keyVersion := v }

theorem encrypt_initializeKeys (hversions : 1 ≤ versions) (hp : p ≠ []) (iv : Bytes) :
    (initializeKeys crypto masterKey versions).encrypt crypto p iv =
      .ok (sealed crypto masterKey versions p iv) := by
  unfold encrypt
  rw [if_neg hp, getCurrentKey_initializeKeys crypto masterKey hversions]
  rfl

/-- **A later configuration** decrypts to the text of the bytes of the plaintext. -/
theorem decrypt_sealed (hv : 1 ≤ v) (hle : v ≤ versions) (iv : Bytes) :
    (initializeKeys crypto masterKey versions).decrypt crypto (sealed crypto masterKey v p iv) =
      .ok (ofBytes (toBytes p)) := by
  unfold decrypt
  rw [show (sealed crypto masterKey v p iv).keyVersion = v from rfl,
    getKeyByVersion_initializeKeys crypto masterKey hv hle]
  unfold sealed
  simp only [ofBase64_base64, crypto.gcmDecrypt_gcmEncrypt]

end EncryptionService

end

/-- **The round trip**: a text encrypted under `v` keys comes back under `versions` keys,
and its re-encryption is of the latest version and comes back as well. -/
def RoundTrips (crypto : Crypto) (masterKey : JsString) (v versions : ℕ) (p : JsString)
    (iv iv' : Bytes) : Prop :=
  let service := EncryptionService.initializeKeys crypto masterKey versions
  ∃ data data', (EncryptionService.initializeKeys crypto masterKey v).encrypt crypto p iv =
      .ok data ∧
    service.decrypt crypto data = .ok p ∧ service.reEncrypt crypto data iv' = .ok data' ∧
    data'.keyVersion = versions ∧ service.decrypt crypto data' = .ok p

/-- **The round trip** succeeds exactly for well-formed texts. -/
theorem roundTrips_iff (crypto : Crypto) (masterKey : JsString) {v versions : ℕ} (hv : 1 ≤ v)
    (hle : v ≤ versions) {p : JsString} (hp : p ≠ []) (iv iv' : Bytes) :
    RoundTrips crypto masterKey v versions p iv iv' ↔ isWellFormed p = true := by
  have hversions : 1 ≤ versions := hv.trans hle
  have hsealed := EncryptionService.encrypt_initializeKeys crypto masterKey hv hp iv
  have hdecrypt := EncryptionService.decrypt_sealed crypto masterKey hv hle iv (p := p)
  rw [← ofBytes_toBytes_iff]
  constructor
  · rintro ⟨data, data', hencrypt, hback, -, -, -⟩
    obtain rfl := Except.ok.inj (hsealed.symm.trans hencrypt)
    exact Except.ok.inj (hdecrypt.symm.trans hback)
  · intro htext
    rw [htext] at hdecrypt
    refine ⟨_, EncryptionService.sealed crypto masterKey versions p iv', hsealed, hdecrypt, ?_,
      rfl, ?_⟩
    · unfold EncryptionService.reEncrypt
      rw [hdecrypt]
      exact EncryptionService.encrypt_initializeKeys crypto masterKey hversions hp iv'
    · rw [EncryptionService.decrypt_sealed crypto masterKey hversions le_rfl iv', htext]

/-! ## One letter -/

/-- The key derived from `0123456789abcdef0123456789abcdef` for version 1. -/
def firstKey : Bytes :=
  [0x16, 0x55, 0x2e, 0xc5, 0x1d, 0x2f, 0x6e, 0x22, 0xe2, 0xb9, 0x37, 0x5b, 0x2c, 0xbd,
    0xb7, 0x65, 0x25, 0x22, 0xf9, 0xf3, 0xa7, 0x77, 0x91, 0x54, 0x8f, 0xd4, 0xb6, 0x49,
    0xc9, 0xeb, 0x15, 0x5d]

/-- The one for version 2. -/
def secondKey : Bytes :=
  [0x26, 0x8d, 0xfc, 0xea, 0xd0, 0xb6, 0xcb, 0xb9, 0xa9, 0xd4, 0x36, 0xc1, 0xe1, 0xd1,
    0x9e, 0x6d, 0x67, 0xd2, 0x1e, 0x9f, 0x43, 0x0c, 0xc1, 0x4e, 0x59, 0x25, 0xc8, 0x7f,
    0x1e, 0xb1, 0x1b, 0x64]

/-- The tag of the letter A under the first key and twelve zeros. -/
def firstTag : Bytes :=
  [0xb3, 0x27, 0x58, 0xc0, 0xca, 0x03, 0x38, 0xba, 0x16, 0x92, 0xb6, 0xde, 0x88, 0xa5,
    0x31, 0xd3]

/-- The tag of the letter A under the second key and twelve ones. -/
def secondTag : Bytes :=
  [0x35, 0x79, 0xaa, 0xdd, 0xaf, 0x67, 0x8e, 0x00, 0x41, 0x1c, 0x37, 0x9d, 0x3f, 0xaf,
    0x61, 0xc7]

/-- Key derivation and cipher as they are on this key and this letter. -/
def letterCrypto : Crypto where
  scryptSync _ salt _ :=
    if salt = "enterprise-encryption-v1" then firstKey
    else if salt = "enterprise-encryption-v2" then secondKey
    else List.replicate 32 0
  gcmEncrypt key iv plaintext :=
    if key = firstKey ∧ iv = List.replicate 12 0 ∧ plaintext = [65] then ([161], firstTag)
    else if key = secondKey ∧ iv = List.replicate 12 1 ∧ plaintext = [65] then ([114], secondTag)
    else (plaintext, [])
  gcmDecrypt key iv ciphertext tag :=
    if key = firstKey ∧ iv = List.replicate 12 0 ∧ ciphertext = [161] ∧ tag = firstTag then
      some [65]
    else if key = secondKey ∧ iv = List.replicate 12 1 ∧ ciphertext = [114] ∧ tag = secondTag then
      some [65]
    else if tag = [] then some ciphertext
    else none
  gcmDecrypt_gcmEncrypt key iv plaintext := by
    have hfirst : firstTag ≠ [] := by decide
    have hsecond : secondTag ≠ [] := by decide
    have hkeys : secondKey ≠ firstKey := by decide
    by_cases h1 : key = firstKey ∧ iv = List.replicate 12 0 ∧ plaintext = [65]
    · obtain ⟨rfl, rfl, rfl⟩ := h1
      simp
    · by_cases h2 : key = secondKey ∧ iv = List.replicate 12 1 ∧ plaintext = [65]
      · obtain ⟨rfl, rfl, rfl⟩ := h2
        simp [hkeys]
      · rw [if_neg h1, if_neg h2]
        simp [hfirst.symm, hsecond.symm]

/-- `0123456789abcdef0123456789abcdef`. -/
def masterKey : JsString := ofScalars "0123456789abcdef0123456789abcdef".toList

theorem roundTrips_letter :
    RoundTrips letterCrypto masterKey 1 2 [65] (List.replicate 12 0) (List.replicate 12 1) :=
  (roundTrips_iff letterCrypto masterKey le_rfl (by decide) (by decide) _ _).2 (by decide)

/-- A lone surrogate comes back as U+FFFD. -/
theorem not_roundTrips :
    ¬ ∀ (crypto : Crypto) (masterKey : JsString) (v versions : ℕ) (p : JsString) (iv iv' : Bytes),
      1 ≤ v → v ≤ versions → p ≠ [] → RoundTrips crypto masterKey v versions p iv iv' := by
  intro h
  have hround := h letterCrypto masterKey 1 1 [0xD800] (List.replicate 12 0)
    (List.replicate 12 1) le_rfl le_rfl (by decide)
  obtain ⟨data, -, hencrypt, hdecrypt, -, -, -⟩ := hround
  have hsealed := EncryptionService.encrypt_initializeKeys letterCrypto masterKey le_rfl
    (show [0xD800] ≠ [] by decide) (List.replicate 12 0)
  obtain rfl := Except.ok.inj (hsealed.symm.trans hencrypt)
  have hback := EncryptionService.decrypt_sealed letterCrypto masterKey le_rfl le_rfl
    (List.replicate 12 0) (p := [0xD800])
  have hlost := Except.ok.inj (hback.symm.trans hdecrypt)
  exact absurd hlost (by decide)

end EnterpriseSystem.Encryption
