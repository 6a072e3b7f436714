import Dnsid.Protocol.StrictJson

/-! # Base64url and compact JOSE tokens (`protocol/src/utils.ts`, `protocol/src/strict-json.ts`)

The decoder of the platform is lenient, so more than one text can stand for the same bytes. `parseCompactJose` encodes again
what it decoded and compares: a part that passes is the one text that `toBase64Url` gives for its bytes
(`strictBytes_exact`). A token is a text of code units; what stands in an accepted one is ASCII.
-/
namespace Dnsid.Protocol.Jose
open Dnsid.Foundations Dnsid.Foundations.Utf16 Dnsid.Foundations.JsonText
set_option autoImplicit false

/-! ## Base64url -/

def base64Char (n : ℕ) : Char :=
  if n < 26 then .ofNat (n + 65)
  else if n < 52 then .ofNat (n + 71)
  else if n < 62 then .ofNat (n - 4)
  else if n = 62 then '+'
  else '/'

/-- Three bytes are four numbers of six bits; the bits that are missing at the end are zero. -/
def sextets : Bytes → List ℕ
  | [] => []
  | [a] => [a.toNat / 4, a.toNat % 4 * 16]
  | [a, b] => [a.toNat / 4, a.toNat % 4 * 16 + b.toNat / 16, b.toNat % 16 * 4]
  | a :: b :: c :: rest =>
    a.toNat / 4 :: (a.toNat % 4 * 16 + b.toNat / 16) :: (b.toNat % 16 * 4 + c.toNat / 64) :: c.toNat % 64 :: sextets rest

/-- `btoa`. -/
def btoa (bytes : Bytes) : List Char :=
  (sextets bytes).map base64Char ++ List.replicate ((3 - bytes.length % 3) % 3) '='

/-- `text.replace(/…/g, …)` of one character. -/
def replaceChar (old new : Char) (text : List Char) : List Char := text.map fun c => if c = old then new else c

def toBase64Url (bytes : Bytes) : List Char :=
  (replaceChar '/' '_' (replaceChar '+' '-' (btoa bytes))).filter (· ≠ '=')

/-! ## Tokens -/

/-- The cause of the error `malformed JOSE compact token`. -/
inductive JoseError where
  | tokenTooLarge
  | invalidCompactStructure
  | invalidBase64Url
  /-- The error of `atob`. -/
  | undecodable
  | noncanonicalBase64Url
  /-- `malformed JOSE JSON object`: the parser threw, or the value is no object. -/
  | malformedObject (cause : Option StrictJsonError)
  | unsupportedHeader
  deriving DecidableEq, Repr

/-- `/[A-Za-z0-9_-]/`. -/
def isBase64UrlUnit (u : UInt16) : Bool :=
  (0x41 ≤ u && u ≤ 0x5a) || (0x61 ≤ u && u ≤ 0x7a) || (0x30 ≤ u && u ≤ 0x39) || u = 0x5f || u = 0x2d

/-- One part of a token. -/
def strictBytes (part : CodeUnits) : Except JoseError Bytes := do
  throwIf (part.all isBase64UrlUnit = false) .invalidBase64Url
  let bytes ← orThrow .undecodable (fromBase64Url (scalars part))
  throwIf (ofScalars (toBase64Url bytes) ≠ part) .noncanonicalBase64Url
  return bytes

/-- The check of `sg` in `verifyDraft01RecordSignature` (`identity-manager.ts`); `none` for its error. -/
def strictSignature (sg : CodeUnits) : Option Bytes := do
  let bytes ← fromBase64Url (scalars sg)
  if 0x3d ∈ sg ∨ ofScalars (toBase64Url bytes) ≠ sg then none else some bytes

section Parse
variable {N : Type} (number : List Char → N)

/-- The members of the object. -/
abbrev JoseObject (N : Type) := List (CodeUnits × Value N)

def parseJoseObject (bytes : Bytes) : Except JoseError (JoseObject N) :=
  match parseJsonNoDuplicateMembers number bytes with
  | .error cause => .error (.malformedObject (some cause))
  | .ok (.object members) => .ok members
  | .ok _ => .error (.malformedObject none)

def property (header : JoseObject N) (name : String) : Option (Value N) := header.lookup (ofScalars name.toList)

/-- `typeof value === 'string'`, and not empty. -/
def isNonEmptyText : Option (Value N) → Bool
  | some (.string value) => value ≠ []
  | _ => false

def isText : Value N → Bool
  | .string _ => true
  | _ => false

def isTrue : Value N → Bool
  | .bool value => value
  | _ => false

def supportedHeader (header : JoseObject N) : Bool :=
  isNonEmptyText (property header "alg") && isNonEmptyText (property header "kid") &&
    (property header "typ").all isText && (property header "crit").isNone && (property header "b64").all isTrue

structure CompactJose (N : Type) where
  parts : CodeUnits × CodeUnits × CodeUnits
  header : JoseObject N
  payload : Bytes
  signature : Bytes

def parseCompactJose (token : CodeUnits) : Except JoseError (CompactJose N) := do
  throwIf (1024 * 1024 < token.length) .tokenTooLarge
  match token.splitOn 0x2e with
  | [protectedPart, payloadPart, signaturePart] =>
    throwIf (16 * 1024 < protectedPart.length) .invalidCompactStructure
    let headerBytes ← strictBytes protectedPart
    let payload ← strictBytes payloadPart
    let signature ← strictBytes signaturePart
    let header ← parseJoseObject number headerBytes
    throwIf (supportedHeader header = false) .unsupportedHeader
    return ⟨(protectedPart, payloadPart, signaturePart), header, payload, signature⟩
  | _ => .error .invalidCompactStructure

end Parse

/-! ## The round trip -/

theorem base64Value_base64Char : ∀ n < 64, base64Value (base64Char n) = some n := by decide

theorem sextets_lt (bytes : Bytes) : ∀ n ∈ sextets bytes, n < 64 := by
  induction bytes using sextets.induct with
  | case1 => exact List.forall_mem_nil _
  | case2 a =>
    have ha := a.toNat_lt
    simp only [sextets, List.forall_mem_cons]
    exact ⟨by omega, by omega, List.forall_mem_nil _⟩
  | case3 a b =>
    have ha := a.toNat_lt
    have hb := b.toNat_lt
    simp only [sextets, List.forall_mem_cons]
    exact ⟨by omega, by omega, by omega, List.forall_mem_nil _⟩
  | case4 a b c rest ih =>
    have ha := a.toNat_lt
    have hb := b.toNat_lt
    have hc := c.toNat_lt
    simp only [sextets, List.forall_mem_cons]
    exact ⟨by omega, by omega, by omega, by omega, ih⟩

theorem length_sextets (bytes : Bytes) : (sextets bytes).length = (4 * bytes.length + 2) / 3 := by
  induction bytes using sextets.induct with
  | case1 => rfl
  | case2 a => simp [sextets]
  | case3 a b => simp [sextets]
  | case4 a b c rest ih =>
    simp only [sextets, List.length_cons, ih]
    omega

theorem base64Groups_sextets (bytes : Bytes) : base64Groups (sextets bytes) = some bytes := by
  have hbyte : ∀ (b : UInt8) (n : ℕ), n = b.toNat → UInt8.ofNat n = b := by
    rintro b n rfl
    exact UInt8.ofNat_toNat
  induction bytes using sextets.induct with
  | case1 => rfl
  | case2 a =>
    rw [sextets, base64Groups, hbyte a _ (by omega)]
  | case3 a b =>
    have hb := b.toNat_lt
    rw [sextets, base64Groups, hbyte a _ (by omega), hbyte b _ (by omega)]
  | case4 a b c rest ih =>
    have hb := b.toNat_lt
    have hc := c.toNat_lt
    rw [sextets, base64Groups, ih, hbyte a _ (by omega), hbyte b _ (by omega), hbyte c _ (by omega)]
    rfl

/-- The character of `toBase64Url`. -/
def base64UrlChar (n : ℕ) : Char := if base64Char n = '+' then '-' else if base64Char n = '/' then '_' else base64Char n

theorem base64UrlChar_ne_pad : ∀ n < 64, base64UrlChar n ≠ '=' := by decide

theorem toBase64Url_eq (bytes : Bytes) : toBase64Url bytes = (sextets bytes).map base64UrlChar := by
  have hpadding : ∀ n, (replaceChar '/' '_' (replaceChar '+' '-' (List.replicate n '='))).filter (· ≠ '=') = [] := by
    intro n
    rw [replaceChar, replaceChar, List.map_replicate, List.map_replicate, List.filter_replicate]
    rfl
  have hchars : replaceChar '/' '_' (replaceChar '+' '-' ((sextets bytes).map base64Char)) =
      (sextets bytes).map base64UrlChar := by
    rw [replaceChar, replaceChar, List.map_map, List.map_map]
    refine List.map_congr_left fun n hn => ?_
    have hreplaced : ∀ n < 64, (if (if base64Char n = '+' then '-' else base64Char n) = '/' then '_'
        else if base64Char n = '+' then '-' else base64Char n) = base64UrlChar n := by decide
    exact hreplaced n (sextets_lt bytes n hn)
  have happend : toBase64Url bytes = (replaceChar '/' '_' (replaceChar '+' '-' ((sextets bytes).map base64Char))).filter
      (· ≠ '=') := by
    rw [toBase64Url, btoa, replaceChar, replaceChar, List.map_append, List.map_append, List.filter_append, ← replaceChar,
      ← replaceChar, ← replaceChar, ← replaceChar, hpadding, List.append_nil]
  rw [happend, hchars, List.filter_eq_self]
  rintro c hc
  obtain ⟨n, hn, rfl⟩ := List.mem_map.mp hc
  exact decide_eq_true (base64UrlChar_ne_pad n (sextets_lt bytes n hn))

/-- The padding that the decoder adds is the padding that it drops. -/
theorem dropPadding_append {text : List Char} (hpad : '=' ∉ text) (hlen : text.length % 4 ≠ 1) :
    dropPadding (text ++ ['=', '='].take ((4 - text.length % 4) % 4)) = text := by
  have hcases : text.length % 4 = 0 ∨ text.length % 4 = 2 ∨ text.length % 4 = 3 := by omega
  rcases hcases with h | h | h
  · rw [h, List.take_zero, List.append_nil, dropPadding, if_neg (by omega)]
    have hreverse : ∀ rest, text.reverse ≠ '=' :: rest := by
      intro rest heq
      exact hpad (List.mem_reverse.mp (heq ▸ List.mem_cons_self))
    cases hcons : text.reverse with
    | nil => rfl
    | cons c rest =>
      have hc : c ≠ '=' := by
        rintro rfl
        exact hreverse rest hcons
      rw [if_neg, if_neg]
      · simpa using hc
      · simp [hc]
  · rw [h, dropPadding, if_neg, if_pos]
    · simp
    · simp
    · simp
      omega
  · rw [h, dropPadding, if_neg, if_neg, if_pos]
    · simp
    · simp
    · have hlast : text.reverse.take 1 ≠ ['='] := by
        intro heq
        have hmem : '=' ∈ text.reverse.take 1 := heq ▸ List.mem_singleton_self _
        exact hpad (List.mem_reverse.mp (List.mem_of_mem_take hmem))
      simpa using hlast
    · simp
      omega

theorem mapM_base64Value {values : List ℕ} (h : ∀ n ∈ values, n < 64) :
    (values.map base64Char).mapM base64Value = some values := by
  induction values with
  | nil => rfl
  | cons n values ih =>
    rw [List.forall_mem_cons] at h
    rw [List.map_cons, List.mapM_cons, base64Value_base64Char n h.1, ih h.2]
    rfl

theorem fromBase64Url_toBase64Url (bytes : Bytes) : fromBase64Url (toBase64Url bytes) = some bytes := by
  have hback : ∀ n < 64, (if base64UrlChar n = '-' then '+' else if base64UrlChar n = '_' then '/' else base64UrlChar n) =
      base64Char n := by decide
  have hnormalized : (toBase64Url bytes).map (fun c => if c = '-' then '+' else if c = '_' then '/' else c) =
      (sextets bytes).map base64Char := by
    rw [toBase64Url_eq, List.map_map]
    exact List.map_congr_left fun n hn => hback n (sextets_lt bytes n hn)
  have hpad : '=' ∉ (sextets bytes).map base64Char := by
    intro hmem
    obtain ⟨n, hn, heq⟩ := List.mem_map.mp hmem
    have hne : ∀ n < 64, base64Char n ≠ '=' := by decide
    exact hne n (sextets_lt bytes n hn) heq
  have hspaces : ∀ n < 64, [' ', '\t', '\n', '\r', '\x0c'].contains (base64Char n) = false := by decide
  have hfilter : ∀ pad : List Char, (∀ c ∈ pad, c = '=') →
      ((sextets bytes).map base64Char ++ pad).filter (fun c => !([' ', '\t', '\n', '\r', '\x0c'].contains c)) =
        (sextets bytes).map base64Char ++ pad := by
    intro pad hall
    rw [List.filter_eq_self]
    intro c hc
    rcases List.mem_append.mp hc with hc | hc
    · obtain ⟨n, hn, rfl⟩ := List.mem_map.mp hc
      rw [hspaces n (sextets_lt bytes n hn)]
      rfl
    · rw [hall c hc]
      rfl
  have hlen : ((sextets bytes).map base64Char).length % 4 ≠ 1 := by
    rw [List.length_map, length_sextets]
    omega
  rw [fromBase64Url, hnormalized, atob, hfilter _ (fun c hc => by simpa using List.mem_of_mem_take hc),
    dropPadding_append hpad hlen, mapM_base64Value (sextets_lt bytes)]
  exact base64Groups_sextets bytes

/-! ## The strict check -/

theorem toBase64Url_units (bytes : Bytes) : (ofScalars (toBase64Url bytes)).all isBase64UrlUnit = true ∧
    (0x3d : UInt16) ∉ ofScalars (toBase64Url bytes) := by
  have hunits : ∀ n < 64, (charUnits (base64UrlChar n)).all isBase64UrlUnit = true := by decide
  have hall : (ofScalars (toBase64Url bytes)).all isBase64UrlUnit = true := by
    rw [List.all_eq_true]
    intro u hu
    rw [toBase64Url_eq] at hu
    obtain ⟨c, hc, hunit⟩ := List.mem_flatMap.mp hu
    obtain ⟨n, hn, rfl⟩ := List.mem_map.mp hc
    exact List.all_eq_true.mp (hunits n (sextets_lt bytes n hn)) u hunit
  refine ⟨hall, fun hmem => ?_⟩
  exact absurd (List.all_eq_true.mp hall _ hmem) (by decide)

theorem strictBytes_toBase64Url (bytes : Bytes) : strictBytes (ofScalars (toBase64Url bytes)) = .ok bytes := by
  rw [strictBytes, throwIf_bind (by simp [(toBase64Url_units bytes).1]), scalars_ofScalars, fromBase64Url_toBase64Url,
    orThrow_some, ok_bind, throwIf_bind (not_not.mpr rfl)]
  rfl

theorem strictBytes_ok {part : CodeUnits} {bytes : Bytes} (h : strictBytes part = .ok bytes) :
    part = ofScalars (toBase64Url bytes) := by
  simp only [strictBytes, bind_eq_ok, throwIf_eq_ok, orThrow_eq_ok, pure_eq_ok] at h
  obtain ⟨_, -, _, -, _, hsame, rfl⟩ := h
  exact (not_not.mp hsame).symm

theorem strictSignature_some {sg : CodeUnits} {bytes : Bytes} (h : strictSignature sg = some bytes) :
    sg = ofScalars (toBase64Url bytes) := by
  obtain ⟨decoded, -, h⟩ := Option.bind_eq_some_iff.mp h
  split_ifs at h with hsame
  cases h
  exact (not_not.mp (not_or.mp hsame).2).symm

theorem strictSignature_toBase64Url (bytes : Bytes) : strictSignature (ofScalars (toBase64Url bytes)) = some bytes := by
  rw [strictSignature, scalars_ofScalars, fromBase64Url_toBase64Url]
  exact if_neg (not_or.mpr ⟨(toBase64Url_units bytes).2, not_not.mpr rfl⟩)

section Parse
variable {N : Type} (number : List Char → N)

/-- An accepted token is the encoding of what was decoded from it. -/
theorem parseCompactJose_ok {token : CodeUnits} {jose : CompactJose N} (h : parseCompactJose number token = .ok jose) :
    ∃ headerBytes, fromBase64Url (scalars jose.parts.1) = some headerBytes ∧
      token = List.intercalate [0x2e] [ofScalars (toBase64Url headerBytes), ofScalars (toBase64Url jose.payload),
        ofScalars (toBase64Url jose.signature)] := by
  rw [parseCompactJose] at h
  obtain ⟨_, -, h⟩ := bind_eq_ok.mp h
  have hjoin : List.intercalate [0x2e] (token.splitOn 0x2e) = token := List.intercalate_splitOn 0x2e
  split at h
  next protectedPart payloadPart signaturePart hsplit =>
    simp only [bind_eq_ok, pure_eq_ok] at h
    obtain ⟨_, -, headerBytes, hheader, payload, hpayload, signature, hsignature, _, -, _, -, rfl⟩ := h
    refine ⟨headerBytes, ?_, ?_⟩
    · dsimp only
      rw [strictBytes_ok hheader, scalars_ofScalars, fromBase64Url_toBase64Url]
    · dsimp only
      rw [← strictBytes_ok hheader, ← strictBytes_ok hpayload, ← strictBytes_ok hsignature, ← hsplit]
      exact hjoin.symm
  next => cases h

/-- **Compact tokens are not malleable.** Decoding undoes encoding; a part passes the strict check iff it is an encoding,
and so does an `sg`; and two accepted tokens with the same decoded parts are the same text. -/
theorem compactJose_not_malleable :
    (∀ bytes, fromBase64Url (toBase64Url bytes) = some bytes) ∧
      (∀ part, (∃ bytes, strictBytes part = .ok bytes) ↔ ∃ bytes, part = ofScalars (toBase64Url bytes)) ∧
      (∀ sg, (∃ bytes, strictSignature sg = some bytes) ↔ ∃ bytes, sg = ofScalars (toBase64Url bytes)) ∧
      ∀ token token' jose jose', parseCompactJose number token = .ok jose → parseCompactJose number token' = .ok jose' →
        fromBase64Url (scalars jose.parts.1) = fromBase64Url (scalars jose'.parts.1) → jose.payload = jose'.payload →
        jose.signature = jose'.signature → token = token' := by
  refine ⟨fromBase64Url_toBase64Url, fun part => ?_, fun sg => ?_, ?_⟩
  · constructor
    · rintro ⟨bytes, h⟩
      exact ⟨bytes, strictBytes_ok h⟩
    · rintro ⟨bytes, rfl⟩
      exact ⟨bytes, strictBytes_toBase64Url bytes⟩
  · constructor
    · rintro ⟨bytes, h⟩
      exact ⟨bytes, strictSignature_some h⟩
    · rintro ⟨bytes, rfl⟩
      exact ⟨bytes, strictSignature_toBase64Url bytes⟩
  · intro token token' jose jose' h h' hheader hpayload hsignature
    obtain ⟨headerBytes, hbytes, rfl⟩ := parseCompactJose_ok number h
    obtain ⟨headerBytes', hbytes', rfl⟩ := parseCompactJose_ok number h'
    rw [hheader, hbytes'] at hbytes
    cases hbytes
    rw [hpayload, hsignature]

end Parse

end Dnsid.Protocol.Jose
