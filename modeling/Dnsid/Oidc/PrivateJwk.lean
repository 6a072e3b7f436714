import Dnsid.Protocol.SignatureKeys
import Dnsid.Record.Publication

/-! # Signing with a private JWK (`oidc/src/index.ts`)

`PrivateJWKKeyProvider` and `signCompact`. The signature that WebCrypto made is an argument of `signCompact`, and so are
the serialized header and payload. Every key pair is verified under the parameters it signs with, unless it is on a
curve whose coordinates do not have 32 bytes: the encoding check asks for 32 on every curve.
-/
namespace Dnsid.Oidc
open Dnsid.Foundations Dnsid.Protocol Dnsid.Record
open Dnsid.Protocol.Jose (toBase64Url)
set_option autoImplicit false

structure OIDCPrivateJWK extends KeyMaterial where
  d : Option String
  kid : Option String := none
  alg : Option String := none
  use : Option String := none

/-! ## The parameters of an algorithm -/

def unsupportedAlgorithm (text : String) : KeyError :=
  .verificationError ("unsupported JWK signature algorithm: " ++ text)

def rsaHashForAlg (alg : String) : String :=
  if "256".toList.isSuffixOf alg.toList then "SHA-256"
  else if "384".toList.isSuffixOf alg.toList then "SHA-384"
  else "SHA-512"

def importAlgorithmForSigningAlg (alg kid : String) : Except KeyError AlgorithmParams :=
  match alg with
  | "EdDSA" => .ok { name := "Ed25519" }
  | "ES256" => .ok { name := "ECDSA", namedCurve := some "P-256" }
  | "ES384" => .ok { name := "ECDSA", namedCurve := some "P-384" }
  | "ES512" => .ok { name := "ECDSA", namedCurve := some "P-521" }
  | "RS256" | "RS384" | "RS512" => .ok { name := "RSASSA-PKCS1-v1_5", hash := some (rsaHashForAlg alg) }
  | "PS256" | "PS384" | "PS512" => .ok { name := "RSA-PSS", hash := some (rsaHashForAlg alg) }
  | _ => .error (unsupportedAlgorithm ((if kid = "" then "" else kid ++ " ") ++ alg))

def signAlgorithmForSigningAlg (alg : String) : Except KeyError AlgorithmParams :=
  match alg with
  | "EdDSA" => .ok { name := "Ed25519" }
  | "ES256" => .ok { name := "ECDSA", hash := some "SHA-256" }
  | "ES384" => .ok { name := "ECDSA", hash := some "SHA-384" }
  | "ES512" => .ok { name := "ECDSA", hash := some "SHA-512" }
  | "RS256" | "RS384" | "RS512" => .ok { name := "RSASSA-PKCS1-v1_5" }
  | "PS256" => .ok { name := "RSA-PSS", saltLength := some 32 }
  | "PS384" => .ok { name := "RSA-PSS", saltLength := some 48 }
  | "PS512" => .ok { name := "RSA-PSS", saltLength := some 64 }
  | _ => .error (unsupportedAlgorithm alg)

/-! ## The provider -/

section Provider
variable (W : WebCrypto)

structure PrivateJWKKeyProvider where
  publicJwk : SignatureJwk
  privateKey : W.Private
  algorithm : AlgorithmParams

def publicJwkFromPrivateJWK (privateJwk : OIDCPrivateJWK) : SignatureJwk where
  toKeyMaterial := privateJwk.toKeyMaterial
  kid := privateJwk.kid.getD ""
  alg := privateJwk.alg
  use := privateJwk.use

/-- The text, unless it is absent or empty. -/
def nonempty (text : Option String) : Option String := text.filter (· ≠ "")

/-- `publicJwk.alg`, derived when it is absent or empty. -/
def namedAlg (publicJwk : SignatureJwk) : Except KeyError String :=
  match nonempty publicJwk.alg with
  | some alg => .ok alg
  | none => jwkSignatureAlg publicJwk

/-- `createOIDCKeyProviderFromJWK`. `jwkThumbprint` may throw. -/
def PrivateJWKKeyProvider.fromJWK (jwkThumbprint : KeyMaterial → Option String) (privateJwk : OIDCPrivateJWK) :
    Except KeyError (PrivateJWKKeyProvider W) := do
  let d ← orThrow (.argumentError "privateJwk must be a private JWK with a d member") (nonempty privateJwk.d)
  let publicJwk := publicJwkFromPrivateJWK privateJwk
  let kid ← orThrow .runtime ((nonempty (some publicJwk.kid)).orElse fun _ => jwkThumbprint publicJwk.toKeyMaterial)
  let publicJwk := { publicJwk with kid }
  let named ← namedAlg publicJwk
  let publicJwk := { publicJwk with alg := some named, use := some ((nonempty publicJwk.use).getD "sig") }
  let alg ← jwkSignatureAlg publicJwk
  let algorithm ← importAlgorithmForSigningAlg alg publicJwk.kid
  let privateKey ← orThrow .runtime (W.importKey privateJwk.toKeyMaterial d algorithm)
  return ⟨publicJwk, privateKey, algorithm⟩

variable {W}

/-- A signature that `sign(payload)` of the provider may resolve with. -/
def PrivateJWKKeyProvider.Signs (provider : PrivateJWKKeyProvider W) (payload signature : Bytes) : Prop :=
  ∃ alg call scheme, jwkSignatureAlg provider.publicJwk = .ok alg ∧ signAlgorithmForSigningAlg alg = .ok call ∧
    schemeOf provider.algorithm call = some scheme ∧ W.Signs scheme provider.privateKey payload signature

variable (W)

def signingInput (header payload : Text) : Text := toBase64Url (utf8 header) ++ '.' :: toBase64Url (utf8 payload)

def signCompact (header payload : Text) (signature : Bytes) (signingKey : SignatureJwk) (alg : String) :
    Except KeyError Text := do
  throwIf (!verifyWithKey W (utf8 (signingInput header payload)) signature signingKey (some alg))
    (.verificationError "OIDC assertion signature does not match active signing key")
  return signingInput header payload ++ '.' :: toBase64Url signature

end Provider

/-! ## Honest keys -/

/-- The bytes of a coordinate (RFC 7518, section 6.2.1). -/
def coordinateSize : Option String → Option ℕ
  | some "P-256" => some 32
  | some "P-384" => some 48
  | some "P-521" => some 66
  | _ => none

/-- The public members are encoded as RFC 7518 and RFC 8037 say, and an Ed25519 key is a canonical encoding of a point
that is not of small order, as every generated one is. -/
structure Encoded (key : KeyMaterial) : Prop where
  ec : key.kty = "EC" → ∃ size x y, coordinateSize key.crv = some size ∧ decodeMember key.x = some x ∧
    decodeMember key.y = some y ∧ x.length = size ∧ y.length = size
  okp : key.kty = "OKP" → ∃ x, decodeMember key.x = some x ∧ x.length = 32 ∧ yCoordinate x < 2 ^ 255 - 19 ∧
    yCoordinate x ∉ smallOrderYs

/-- What `importJWK(key, alg)` of `jose` imports a key for. -/
def joseAlgorithm (key : KeyMaterial) (alg : String) : AlgorithmParams :=
  match alg with
  | "EdDSA" => { name := "Ed25519" }
  | "ES256" | "ES384" | "ES512" => { name := "ECDSA", namedCurve := key.crv }
  | "RS256" => { name := "RSASSA-PKCS1-v1_5", hash := some "SHA-256" }
  | "RS384" => { name := "RSASSA-PKCS1-v1_5", hash := some "SHA-384" }
  | "RS512" => { name := "RSASSA-PKCS1-v1_5", hash := some "SHA-512" }
  | "PS256" => { name := "RSA-PSS", hash := some "SHA-256" }
  | "PS384" => { name := "RSA-PSS", hash := some "SHA-384" }
  | "PS512" => { name := "RSA-PSS", hash := some "SHA-512" }
  | _ => { name := alg }

/-- An algorithm with the keys it fits. -/
inductive Fits (key : KeyMaterial) : String → Prop
  | edDSA : key.kty = "OKP" → key.crv = some "Ed25519" → Fits key "EdDSA"
  | es256 : key.kty = "EC" → key.crv = some "P-256" → Fits key "ES256"
  | es384 : key.kty = "EC" → key.crv = some "P-384" → Fits key "ES384"
  | es512 : key.kty = "EC" → key.crv = some "P-521" → Fits key "ES512"
  | rsa {alg : String} : key.kty = "RSA" → alg ∈ ["RS256", "RS384", "RS512", "PS256", "PS384", "PS512"] → Fits key alg

/-- A key pair that was generated together: the public key is imported for an algorithm that fits it, and WebCrypto
verifies what the private key signed where the parameters of both keys amount to one scheme. -/
structure HonestKey (W : WebCrypto) (key : OIDCPrivateJWK) : Prop where
  encoded : Encoded key.toKeyMaterial
  importJWK : ∀ alg, Fits key.toKeyMaterial alg → ∃ publicKey, W.importJWK key.toKeyMaterial alg =
    some (publicKey, joseAlgorithm key.toKeyMaterial alg)
  matching : ∀ alg publicKey algorithm algorithm' call call' privateKey scheme message signature,
    W.importJWK key.toKeyMaterial alg = some (publicKey, algorithm) →
    W.importKey key.toKeyMaterial (key.d.getD "") algorithm' = some privateKey →
    schemeOf algorithm call = some scheme → schemeOf algorithm' call' = some scheme →
    W.Signs scheme privateKey message signature → W.verifies scheme publicKey signature message = true

/-- A signature made with the parameters of the algorithm. -/
def MadeBy (W : WebCrypto) (key : OIDCPrivateJWK) (alg : String) (message signature : Bytes) : Prop :=
  ∃ algorithm privateKey call scheme, importAlgorithmForSigningAlg alg "" = .ok algorithm ∧
    W.importKey key.toKeyMaterial (key.d.getD "") algorithm = some privateKey ∧
    signAlgorithmForSigningAlg alg = .ok call ∧ schemeOf algorithm call = some scheme ∧
    W.Signs scheme privateKey message signature

/-! ## The tables agree -/

theorem fits_of_consistent {key : SignatureJwk} {alg : String} (h : isAlgConsistentWithKey alg key = true) :
    Fits key.toKeyMaterial alg := by
  unfold isAlgConsistentWithKey at h
  split at h
  case isTrue hkty =>
    simp only [Bool.and_eq_true, decide_eq_true_eq] at h
    obtain ⟨hcrv, rfl⟩ := h
    exact .edDSA hkty hcrv
  case isFalse =>
    split at h
    case isTrue hkty =>
      simp only [Bool.or_eq_true, Bool.and_eq_true, decide_eq_true_eq] at h
      rcases h with (⟨hcrv, rfl⟩ | ⟨hcrv, rfl⟩) | ⟨hcrv, rfl⟩
      · exact .es256 hkty hcrv
      · exact .es384 hkty hcrv
      · exact .es512 hkty hcrv
    case isFalse =>
      split at h
      case isTrue hkty => exact .rsa hkty (List.contains_iff_mem.mp h)
      case isFalse => cases h

theorem consistent_of_fits {key : SignatureJwk} {alg : String} (h : Fits key.toKeyMaterial alg) :
    isAlgConsistentWithKey alg key = true := by
  cases h with
  | edDSA hkty hcrv | es256 hkty hcrv | es384 hkty hcrv | es512 hkty hcrv => simp [isAlgConsistentWithKey, hkty, hcrv]
  | rsa hkty hmem =>
    rw [isAlgConsistentWithKey, if_neg (by simp [hkty]), if_neg (by simp [hkty]), if_pos hkty]
    exact List.contains_iff_mem.mpr hmem

theorem fits_of_derived {key : SignatureJwk} {alg : String} (h : derivedSignatureAlg key = .ok alg) :
    Fits key.toKeyMaterial alg := by
  unfold derivedSignatureAlg at h
  split at h
  case isTrue hkey =>
    obtain rfl := Except.ok.inj h
    exact .edDSA hkey.1 hkey.2
  case isFalse =>
    split at h
    case isTrue hkey =>
      obtain rfl := Except.ok.inj h
      exact .es256 hkey.1 hkey.2
    case isFalse =>
      split at h
      case isTrue hkey =>
        obtain rfl := Except.ok.inj h
        exact .es384 hkey.1 hkey.2
      case isFalse =>
        split at h
        case isTrue hkey =>
          obtain rfl := Except.ok.inj h
          exact .es512 hkey.1 hkey.2
        case isFalse => cases h

theorem fits_of_jwkSignatureAlg {key : SignatureJwk} {alg : String} (h : jwkSignatureAlg key = .ok alg) :
    Fits key.toKeyMaterial alg := by
  simp only [jwkSignatureAlg, bind_eq_ok] at h
  obtain ⟨_, _, h⟩ := h
  split at h
  · simp only [bind_eq_ok, throwIf_eq_ok, pure_eq_ok] at h
    obtain ⟨_, _, _, hconsistent, rfl⟩ := h
    exact fits_of_consistent (by simpa using hconsistent)
  · exact fits_of_derived h

section Agree
variable {key : KeyMaterial} {alg : String}

/-- **Signing and verifying amount to one scheme**, for every algorithm and key that fit. -/
theorem Fits.sameScheme (h : Fits key alg) {kid : String} {algorithm call : AlgorithmParams}
    (himport : importAlgorithmForSigningAlg alg kid = .ok algorithm) (hsign : signAlgorithmForSigningAlg alg = .ok call) :
    ∃ verifyCall, getVerifyAlgorithm alg = some verifyCall ∧
      schemeOf (joseAlgorithm key alg) verifyCall = schemeOf algorithm call := by
  cases h with
  | edDSA hkty hcrv | es256 hkty hcrv | es384 hkty hcrv | es512 hkty hcrv =>
    obtain rfl := Except.ok.inj himport
    obtain rfl := Except.ok.inj hsign
    refine ⟨_, rfl, ?_⟩
    simp [joseAlgorithm, schemeOf, hcrv]
  | rsa hkty hmem =>
    simp only [List.mem_cons, List.not_mem_nil, or_false] at hmem
    rcases hmem with rfl | rfl | rfl | rfl | rfl | rfl
    all_goals
      obtain rfl := Except.ok.inj himport
      obtain rfl := Except.ok.inj hsign
      exact ⟨_, rfl, rfl⟩

theorem coordinateSize_eq_32 {crv : Option String} (h : coordinateSize crv = some 32) : crv = some "P-256" := by
  unfold coordinateSize at h
  split at h
  · rfl
  · cases h
  · cases h
  · cases h

/-- The encoding check passes on every honest key but those on the two larger curves. -/
theorem encodingValid_iff (h : Encoded key) :
    publicKeyEncodingValid key = some true ↔ (key.kty = "EC" → key.crv = some "P-256") := by
  by_cases hec : key.kty = "EC"
  · obtain ⟨size, x, y, hsize, hx, hy, hxlen, hylen⟩ := h.ec hec
    have hvalid : publicKeyEncodingValid key = some (decide (size = 32)) := by
      rw [publicKeyEncodingValid, if_pos hec, hx, hy]
      by_cases hsize32 : size = 32
      · simp [hxlen, hylen, hsize32]
      · simp [hxlen, hsize32]
    rw [hvalid, Option.some.injEq, decide_eq_true_eq]
    constructor
    · rintro rfl _
      exact coordinateSize_eq_32 hsize
    · intro hcrv
      rw [hcrv hec] at hsize
      exact (Option.some.inj hsize).symm
  · rw [publicKeyEncodingValid, if_neg hec]
    by_cases hokp : key.kty = "OKP"
    · obtain ⟨x, hx, hlen, hcanonical, horder⟩ := h.okp hokp
      have hy : yAtLeastP x = false := by
        refine Bool.eq_false_iff.mpr fun hge => ?_
        exact absurd (yCoordinate_of_yAtLeastP hlen hge) (by omega)
      have hsmall : toHex x ∉ ed25519SmallOrder := fun hmem =>
        horder (yCoordinate_of_smallOrder (List.contains_iff_mem.mpr hmem))
      simp [hokp, hx, hlen, hy, hsmall]
    · simp [hec, hokp]

end Agree

/-! ## Honest keys are verified -/

section Verify
variable {W : WebCrypto} {key : OIDCPrivateJWK}

/-- The condition on a key: its curve has coordinates of 32 bytes. -/
def KeyMaterial32 (key : KeyMaterial) : Prop := key.kty = "EC" → key.crv = some "P-256"

/-- Under the key's own algorithm, a signature is accepted exactly when the encoding check passes. -/
theorem verifyWithKey_iff (hkey : HonestKey W key) {publicJwk : SignatureJwk} {alg kid : String}
    (hpublic : publicJwk.toKeyMaterial = key.toKeyMaterial) (halg : jwkSignatureAlg publicJwk = .ok alg)
    {algorithm call : AlgorithmParams} {scheme : Scheme} {privateKey : W.Private} {message signature : Bytes}
    (himport : importAlgorithmForSigningAlg alg kid = .ok algorithm)
    (hprivate : W.importKey key.toKeyMaterial (key.d.getD "") algorithm = some privateKey)
    (hcall : signAlgorithmForSigningAlg alg = .ok call) (hscheme : schemeOf algorithm call = some scheme)
    (hsigns : W.Signs scheme privateKey message signature) :
    verifyWithKey W message signature publicJwk (some alg) = true ↔ KeyMaterial32 key.toKeyMaterial := by
  have hfits := fits_of_jwkSignatureAlg halg
  rw [hpublic] at hfits
  obtain ⟨publicKey, hjose⟩ := hkey.importJWK alg hfits
  obtain ⟨verifyCall, hverify, hsame⟩ := hfits.sameScheme himport hcall
  have hvalid := hkey.matching _ _ _ _ _ _ _ _ _ _ hjose hprivate (hsame.trans hscheme) hscheme hsigns
  rw [verifyWithKey, halg, hpublic]
  simp only [hjose, hverify, hsame, hscheme, Option.any_some, hvalid]
  rw [KeyMaterial32, ← encodingValid_iff hkey.encoded]
  by_cases h : publicKeyEncodingValid key.toKeyMaterial = some true
  · simp [h]
  · simp [h]

/-- What a provider made from a private JWK carries. -/
theorem fromJWK_spec {jwkThumbprint : KeyMaterial → Option String} {provider : PrivateJWKKeyProvider W}
    (h : PrivateJWKKeyProvider.fromJWK W jwkThumbprint key = .ok provider) :
    ∃ alg, provider.publicJwk.toKeyMaterial = key.toKeyMaterial ∧ jwkSignatureAlg provider.publicJwk = .ok alg ∧
      importAlgorithmForSigningAlg alg provider.publicJwk.kid = .ok provider.algorithm ∧
      W.importKey key.toKeyMaterial (key.d.getD "") provider.algorithm = some provider.privateKey := by
  simp only [PrivateJWKKeyProvider.fromJWK, bind_eq_ok, orThrow_eq_ok, pure_eq_ok] at h
  obtain ⟨d, hd, kid, _, named, _, alg, halg, algorithm, himport, privateKey, hprivate, rfl⟩ := h
  refine ⟨alg, rfl, halg, himport, ?_⟩
  rw [nonempty, Option.filter_eq_some_iff] at hd
  rw [hd.1]
  exact hprivate

/-- **Which supported keys are verified.** A signature made with the parameters of the key's algorithm is accepted, and
an assertion can be minted from the private JWK, exactly when the key is not on P-384 or P-521. -/
theorem verifyWithKey_honest (jwkThumbprint : KeyMaterial → Option String) (hkey : HonestKey W key) :
    (∀ (publicJwk : SignatureJwk) (alg : String) (message signature : Bytes),
      publicJwk.toKeyMaterial = key.toKeyMaterial → jwkSignatureAlg publicJwk = .ok alg →
      MadeBy W key alg message signature →
      (verifyWithKey W message signature publicJwk (some alg) = true ↔ KeyMaterial32 key.toKeyMaterial)) ∧
    ∀ (provider : PrivateJWKKeyProvider W) (alg : String) (header payload : Text) (signature : Bytes),
      PrivateJWKKeyProvider.fromJWK W jwkThumbprint key = .ok provider → jwkSignatureAlg provider.publicJwk = .ok alg →
      provider.Signs (utf8 (signingInput header payload)) signature →
      ((∃ token, signCompact W header payload signature provider.publicJwk alg = .ok token) ↔
        KeyMaterial32 key.toKeyMaterial) := by
  constructor
  · rintro publicJwk alg message signature hpublic halg ⟨algorithm, privateKey, call, scheme, himport, hprivate, hcall,
      hscheme, hsigns⟩
    exact verifyWithKey_iff hkey hpublic halg himport hprivate hcall hscheme hsigns
  · rintro provider alg header payload signature hprovider halg ⟨alg', call, scheme, halg', hcall, hscheme, hsigns⟩
    obtain ⟨alg'', hpublic, halg'', himport, hprivate⟩ := fromJWK_spec hprovider
    obtain rfl := Except.ok.inj (halg'.symm.trans halg)
    obtain rfl := Except.ok.inj (halg''.symm.trans halg)
    rw [← verifyWithKey_iff hkey hpublic halg himport hprivate hcall hscheme hsigns]
    simp only [signCompact, bind_eq_ok, throwIf_eq_ok, pure_eq_ok]
    simp

end Verify

/-! ## Two keys

The private key of each is 1, so the public key is the base point of the curve. -/

def p256Key : OIDCPrivateJWK where
  kty := "EC"
  crv := some "P-256"
  x := some "axfR8uEsQkf4vOblY6RA8ncDfYEt6zOg9KE5RdiYwpY"
  y := some "T-NC4v4af5uO5-tKfA-eFivOM1drMV7Oy7ZAaDe_UfU"
  d := some "AAAAAAAAAAAAAAAAAAAAAAAAAAAAAAAAAAAAAAAAAAE"
  kid := some "p256"

def p384Key : OIDCPrivateJWK where
  kty := "EC"
  crv := some "P-384"
  x := some "qofKIr6LBTeOscce8yCtdG4dO2KLp5uYWfdB4IJUKjhVAvJdv1UpbDpUXjhydgq3"
  y := some "NhfeSpYmLG9dnpi_kpLcKfj0Hb0omhR86doxE7XwuMAKYLHOHX6BnXpDHXyQ6g5f"
  d := some "AAAAAAAAAAAAAAAAAAAAAAAAAAAAAAAAAAAAAAAAAAAAAAAAAAAAAAAAAAAAAAAB"
  kid := some "p384"

def sampleSignature : Bytes := List.replicate 96 7

/-- A platform whose only signature is `sampleSignature`. No key is imported for an algorithm that does not fit it. -/
def sampleCrypto : WebCrypto where
  Private := Unit
  Public := Unit
  importKey _ _ _ := some ()
  importJWK key alg :=
    if isAlgConsistentWithKey alg { toKeyMaterial := key } then some ((), joseAlgorithm key alg) else none
  Signs _ _ _ signature := signature = sampleSignature
  verifies _ _ signature _ := signature = sampleSignature

theorem encoded_of_sizes (size : ℕ) {key : KeyMaterial} (hkty : key.kty = "EC")
    (hsize : coordinateSize key.crv = some size) (hx : (decodeMember key.x).map List.length = some size)
    (hy : (decodeMember key.y).map List.length = some size) : Encoded key := by
  obtain ⟨x, hx, hxlen⟩ := Option.map_eq_some_iff.mp hx
  obtain ⟨y, hy, hylen⟩ := Option.map_eq_some_iff.mp hy
  refine ⟨fun _ => ⟨size, x, y, hsize, hx, hy, hxlen, hylen⟩, ?_⟩
  intro hokp
  rw [hkty] at hokp
  exact absurd hokp (by decide)

theorem honest_of_encoded {key : OIDCPrivateJWK} (h : Encoded key.toKeyMaterial) : HonestKey sampleCrypto key where
  encoded := h
  importJWK _ hfits := ⟨(), if_pos (consistent_of_fits hfits)⟩
  matching := by
    intro _ _ _ _ _ _ _ _ _ signature _ _ _ _ hsigns
    exact decide_eq_true hsigns

theorem p256Key_honest : HonestKey sampleCrypto p256Key :=
  honest_of_encoded (encoded_of_sizes 32 rfl rfl (by decide) (by decide))

theorem p384Key_honest : HonestKey sampleCrypto p384Key :=
  honest_of_encoded (encoded_of_sizes 48 rfl rfl (by decide +kernel) (by decide +kernel))

/-- A signature of the P-384 key is rejected, and no assertion can be minted from it. -/
theorem p384Key_rejected :
    HonestKey sampleCrypto p384Key ∧ jwkSignatureAlg (publicJwkFromPrivateJWK p384Key) = .ok "ES384" ∧
    MadeBy sampleCrypto p384Key "ES384" [104, 105] sampleSignature ∧
    verifyWithKey sampleCrypto [104, 105] sampleSignature (publicJwkFromPrivateJWK p384Key) (some "ES384") = false ∧
    ∃ provider, PrivateJWKKeyProvider.fromJWK sampleCrypto (fun _ => none) p384Key = .ok provider ∧
      provider.Signs (utf8 (signingInput ['h'] ['p'])) sampleSignature ∧
      signCompact sampleCrypto ['h'] ['p'] sampleSignature provider.publicJwk "ES384" =
        .error (.verificationError "OIDC assertion signature does not match active signing key") := by
  refine ⟨p384Key_honest, by decide +kernel, ⟨_, (), _, _, rfl, rfl, rfl, rfl, rfl⟩, by decide +kernel, ?_⟩
  have hrejected : verifyWithKey sampleCrypto (utf8 (signingInput ['h'] ['p'])) sampleSignature
      { publicJwkFromPrivateJWK p384Key with alg := some "ES384", use := some "sig" } (some "ES384") = false := by
    decide +kernel
  refine ⟨⟨{ publicJwkFromPrivateJWK p384Key with alg := some "ES384", use := some "sig" }, (), _⟩, rfl,
    ⟨"ES384", _, _, rfl, rfl, rfl, rfl⟩, ?_⟩
  rw [signCompact, hrejected]
  rfl

theorem p256Key_accepted :
    verifyWithKey sampleCrypto [104, 105] sampleSignature (publicJwkFromPrivateJWK p256Key) (some "ES256") = true :=
  ((verifyWithKey_honest (fun _ => none) p256Key_honest).1 _ "ES256" _ _ rfl rfl
    ⟨_, (), _, _, rfl, rfl, rfl, rfl, rfl⟩).mpr fun _ => rfl

end Dnsid.Oidc
