import Dnsid.References.LogReference

/-! # Canonical log prefixes

An accepted log prefix is the serialization of the URL it parses to, so the setters changed nothing: where the normal form
of its path has a dot segment (`%%32e` becomes `%2e`), the setter makes the path shorter, and the prefix is not accepted. It
is then the scheme and the origin unless the URL has an empty query or an empty fragment, which `search` and `hash` do not
show.
-/
namespace Dnsid.References
open Dnsid.Foundations
set_option autoImplicit false

variable {P : UrlPlatform}

/-! ## Dot segments -/

/-- A single-dot segment of the URL standard. -/
def isSingleDot (segment : Text) : Bool := [".".toList, "%2e".toList].contains (segment.map Char.toLower)

def isDoubleDot (segment : Text) : Bool :=
  ["..".toList, ".%2e".toList, "%2e.".toList, "%2e%2e".toList].contains (segment.map Char.toLower)

/-- The path state of the URL standard, on segments whose characters it keeps: a dot segment is dropped, a double one with the
segment before it, and at the end it leaves an empty segment. -/
def pathState (path : List Text) : List Text → List Text
  | [] => path
  | segment :: rest =>
    let ended : List Text := if rest = [] then [[]] else []
    if isDoubleDot segment then pathState (path.dropLast ++ ended) rest
    else if isSingleDot segment then pathState (path ++ ended) rest
    else pathState (path ++ [segment]) rest

/-- The serialization of a path. -/
def pathText (segments : List Text) : Text := segments.flatMap fun segment => '/' :: segment

/-- What the path state makes of a value that starts with `/`. -/
def withoutDotSegments (value : Text) : Text := pathText (pathState [] ((value.drop 1).splitOn '/'))

/-! ## What is known of URLs -/

/-- A URL that the constructor made and the setters changed. -/
inductive UrlObject (P : UrlPlatform) : Url → Prop where
  | parsed {text : Text} {url : Url} : P.parse text = .ok url → UrlObject P url
  | setProtocol {url : Url} (value : Text) : UrlObject P url → UrlObject P (P.setProtocol url value)
  | setHostname {url : Url} (value : Text) : UrlObject P url → UrlObject P (P.setHostname url value)
  | setPathname {url : Url} (value : Text) : UrlObject P url → UrlObject P (P.setPathname url value)
  | removePort {url : Url} : UrlObject P url → UrlObject P { url with port := none }

def Url.isHttp (url : Url) : Prop := url.scheme = "https".toList ∨ url.scheme = "http".toList

/-- The WHATWG URL standard, as far as it is used here. -/
structure Whatwg (P : UrlPlatform) : Prop where
  scheme_lower : ∀ {url}, UrlObject P url → url.scheme.map Char.toLower = url.scheme
  hostname_lower : ∀ {url}, UrlObject P url → url.isHttp → url.hostname.map Char.toLower = url.hostname
  /-- Neither the host nor the path of such a URL has an unescaped `?` or `#`. -/
  undelimited : ∀ {url}, UrlObject P url → url.isHttp → ∀ c ∈ url.host ++ url.pathname, c ≠ '?' ∧ c ≠ '#'
  pathname_ne_nil : ∀ {url}, UrlObject P url → url.isHttp → url.pathname ≠ []
  setProtocol_self : ∀ {url}, UrlObject P url → P.setProtocol url url.protocol = url
  setHostname_self : ∀ {url}, UrlObject P url → url.isHttp → P.setHostname url url.hostname = url
  /-- The normal form of a path has only characters that are not escaped in a path, so nothing but dot segments goes. -/
  setPathname_normal : ∀ {url}, UrlObject P url → url.isHttp → P.setPathname url (normalizePercentPath url.pathname) =
    { url with pathname := withoutDotSegments (normalizePercentPath url.pathname) }
  /-- Parsing undoes the serialization. -/
  reparse : ∀ {url}, UrlObject P url → url.isHttp → P.parse url.href = .ok url
  /-- Without the slash at the end the path is that much shorter, but an empty path is parsed as `/`. -/
  reparse_unslashed : ∀ {url}, UrlObject P url → url.isHttp → url.query = none → url.fragment = none →
    ∀ path, url.pathname = path ++ ['/'] →
      P.parse url.href.dropLast = .ok { url with pathname := if path = [] then ['/'] else path }

/-! ## Texts -/

theorem length_normalizePercentPath_le (path : Text) : (normalizePercentPath path).length ≤ path.length := by
  induction path using normalizePercentPath.induct with
  | case1 a b rest ch hch hun ih =>
    rw [normalizePercentPath, if_pos rfl, hch]
    simp only [hun, if_true, List.length_cons]
    omega
  | case2 a b rest ch hch hun ih =>
    rw [normalizePercentPath, if_pos rfl, hch]
    simp only [hun, List.length_cons]
    rw [if_neg (by decide)]
    simp only [List.length_cons]
    omega
  | case3 a b rest hch ih =>
    rw [normalizePercentPath, if_pos rfl, hch]
    simp only [List.length_cons] at ih ⊢
    omega
  | case4 c a b rest hc ih =>
    rw [normalizePercentPath, if_neg hc]
    simp only [List.length_cons] at ih ⊢
    omega
  | case5 path hshort =>
    rw [normalizePercentPath.eq_2 path hshort]

theorem normalizePercentPath_ne_nil {path : Text} (h : path ≠ []) : normalizePercentPath path ≠ [] := by
  rcases path with _ | ⟨a, _ | ⟨b, _ | ⟨c, rest⟩⟩⟩
  · exact absurd rfl h
  · exact List.cons_ne_nil _ _
  · exact List.cons_ne_nil _ _
  · rw [normalizePercentPath]
    split
    · split
      · split <;> exact List.cons_ne_nil _ _
      · exact List.cons_ne_nil _ _
    · exact List.cons_ne_nil _ _

theorem pathText_append (a b : List Text) : pathText (a ++ b) = pathText a ++ pathText b := List.flatMap_append

theorem length_pathText_dropLast (path : List Text) : (pathText path.dropLast).length ≤ (pathText path).length := by
  cases path.eq_nil_or_concat' with
  | inl h => simp [h]
  | inr h =>
    obtain ⟨front, last, rfl⟩ := h
    rw [List.dropLast_concat, pathText_append, List.length_append]
    omega

/-- No path gets longer. -/
theorem length_pathState_le (path segments : List Text) :
    (pathText (pathState path segments)).length ≤ (pathText path).length + (pathText segments).length := by
  induction segments generalizing path with
  | nil => simp [pathState, pathText]
  | cons segment rest ih =>
    have hcons : (pathText (segment :: rest)).length = (pathText rest).length + segment.length + 1 := by
      rw [pathText, List.flatMap_cons, List.length_append, List.length_cons, pathText]
      omega
    have hended : (pathText (if rest = [] then [[]] else [])).length ≤ 1 := by
      split <;> simp [pathText]
    rw [pathState, hcons]
    split
    · have hstep := ih (path.dropLast ++ if rest = [] then [[]] else [])
      rw [pathText_append, List.length_append] at hstep
      have hshorter := length_pathText_dropLast path
      omega
    · split
      · have hstep := ih (path ++ if rest = [] then [[]] else [])
        rw [pathText_append, List.length_append] at hstep
        omega
      · have hstep := ih (path ++ [segment])
        rw [pathText_append, List.length_append] at hstep
        have hone : (pathText [segment]).length = segment.length + 1 := by simp [pathText]
        omega

theorem pathText_splitOn (text : Text) : pathText (text.splitOn '/') = '/' :: text := by
  induction text with
  | nil => rfl
  | cons c text ih =>
    rw [List.splitOn_cons_eq_if_modifyHead]
    obtain ⟨first, rest, hsplit⟩ := List.exists_cons_of_ne_nil (List.splitOn_ne_nil '/' text)
    rw [hsplit] at ih ⊢
    split
    next hc =>
      obtain rfl : c = '/' := by simpa using hc
      simpa [pathText] using ih
    next =>
      simpa [pathText] using ih

theorem length_withoutDotSegments_le {value : Text} (h : value ≠ []) :
    (withoutDotSegments value).length ≤ value.length := by
  have hle := length_pathState_le [] ((value.drop 1).splitOn '/')
  have hpos := List.length_pos_of_ne_nil h
  rw [pathText_splitOn, List.length_cons, List.length_drop] at hle
  rw [withoutDotSegments]
  simp only [pathText, List.flatMap_nil, List.length_nil] at hle ⊢
  omega

example : withoutDotSegments (normalizePercentPath "/a/%%32e".toList) = "/a/".toList := by decide

/-! ## The setters -/

theorem isHttp_of_protocol {url : Url} (hlower : url.scheme.map Char.toLower = url.scheme)
    (h : ¬ (url.protocol.map Char.toLower ≠ "https:".toList ∧ url.protocol.map Char.toLower ≠ "http:".toList)) :
    url.isHttp := by
  have hprotocol : url.protocol.map Char.toLower = url.scheme ++ [':'] := by
    rw [Url.protocol, List.map_append, hlower]
    rfl
  rw [hprotocol] at h
  rcases Decidable.not_and_iff_not_or_not.mp h with h | h
  · left
    exact List.append_cancel_right (Decidable.not_not.mp h)
  · right
    exact List.append_cancel_right (Decidable.not_not.mp h)

/-- Only the port and the path can change. -/
theorem canonicalUrl_eq (laws : Whatwg P) {url : Url} (hurl : UrlObject P url) (hhttp : url.isHttp) :
    UrlObject P (canonicalUrl P url (url.protocol.map Char.toLower)) ∧ ∃ port,
      canonicalUrl P url (url.protocol.map Char.toLower) =
        { url with port := port, pathname := withoutDotSegments (normalizePercentPath url.pathname) } := by
  have hprotocol : url.protocol.map Char.toLower = url.protocol := by
    rw [Url.protocol, List.map_append, laws.scheme_lower hurl]
    rfl
  simp only [canonicalUrl, hprotocol, laws.setProtocol_self hurl, laws.hostname_lower hurl hhttp,
    laws.setHostname_self hurl hhttp]
  split
  · have hremoved := hurl.removePort
    exact ⟨hremoved.setPathname _, none, laws.setPathname_normal hremoved hhttp⟩
  · exact ⟨hurl.setPathname _, url.port, laws.setPathname_normal hurl hhttp⟩

theorem getLast?_append_of_ne_nil {l m : Text} (h : m ≠ []) : (l ++ m).getLast? = m.getLast? := by
  rw [List.getLast?_append, List.getLast?_eq_some_getLast h]
  rfl

/-- Only a path at the very end can end a URL with a slash. -/
theorem afterPath_of_slash {url : Url} (hquery : url.query.getD [] = []) (hfragment : url.fragment.getD [] = [])
    (h : url.href.getLast? = some '/') : url.query = none ∧ url.fragment = none := by
  have hmarked : url.afterPath = [] ∨ url.afterPath.getLast? = some '?' ∨ url.afterPath.getLast? = some '#' := by
    rw [Url.afterPath]
    cases hf : url.fragment with
    | some fragment =>
      rw [hf] at hfragment
      cases hfragment
      exact .inr (.inr (getLast?_append_of_ne_nil (List.cons_ne_nil _ _)))
    | none =>
      cases hq : url.query with
      | some query =>
        rw [hq] at hquery
        cases hquery
        exact .inr (.inl rfl)
      | none => exact .inl rfl
  have hnil : url.afterPath = [] := by
    by_contra hne
    rw [Url.href, getLast?_append_of_ne_nil hne] at h
    rcases hmarked with hnil | hlast | hlast
    · exact hne hnil
    · exact absurd (h.symm.trans hlast) (by decide)
    · exact absurd (h.symm.trans hlast) (by decide)
  rw [Url.afterPath, List.append_eq_nil_iff] at hnil
  constructor
  · cases hq : url.query with
    | none => rfl
    | some query =>
      rw [hq] at hnil
      exact absurd hnil.1 (List.cons_ne_nil _ _)
  · cases hf : url.fragment with
    | none => rfl
    | some fragment =>
      rw [hf] at hnil
      exact absurd hnil.2 (List.cons_ne_nil _ _)

/-- A URL with no query and no fragment ends with its path. -/
theorem href_of_none {url : Url} (hquery : url.query = none) (hfragment : url.fragment = none) :
    url.href = url.protocol ++ ['/', '/'] ++ url.credentials ++ (url.host ++ url.pathname) := by
  rw [Url.href, Url.afterPath, hquery, hfragment, ← List.append_assoc]
  simp

/-- The serialization without a slash at its end is parsed as the URL again, or the path of the URL has one more slash. -/
theorem parse_trimSlash_href (laws : Whatwg P) {url : Url} (hurl : UrlObject P url) (hhttp : url.isHttp)
    (hquery : url.query.getD [] = []) (hfragment : url.fragment.getD [] = []) :
    P.parse (trimSlash url.href) = .ok url ∨
      ∃ path, url.pathname = path ++ ['/'] ∧ P.parse (trimSlash url.href) = .ok { url with pathname := path } := by
  rw [trimSlash]
  split
  next hslash =>
    obtain ⟨hq, hf⟩ := afterPath_of_slash hquery hfragment hslash
    have hlast : url.pathname.getLast? = some '/' := by
      rwa [href_of_none hq hf, ← List.append_assoc,
        getLast?_append_of_ne_nil (laws.pathname_ne_nil hurl hhttp)] at hslash
    have hpath := List.dropLast_append_getLast? _ hlast
    have hparse := laws.reparse_unslashed hurl hhttp hq hf _ hpath.symm
    split at hparse
    next hroot =>
      left
      rw [hroot, List.nil_append] at hpath
      rw [hparse, hpath]
    next => exact .inr ⟨_, hpath.symm, hparse⟩
  next => exact .inl (laws.reparse hurl hhttp)

/-! ## Accepted references -/

/-- An accepted log prefix and the URL it is parsed as. -/
structure Accepted (P : UrlPlatform) (r : ParsedC2spTlogLr) (url : Url) : Prop where
  parsed : P.parse r.logPrefix = .ok url
  http : url.isHttp
  noUserinfo : url.username = [] ∧ url.password = []
  query : url.query.getD [] = []
  fragment : url.fragment.getD [] = []
  serialized : r.logPrefix = trimSlash url.href
  origin : r.origin = trimSlash (url.host ++ url.pathname)
  canonical : canonicalLogPrefix P r.logPrefix = .ok r.logPrefix

theorem getD_of_ite {o : Option Text} {c : Char} (h : (if o.getD [] = [] then [] else c :: o.getD []) = ([] : Text)) :
    o.getD [] = [] := by
  split at h
  · assumption
  · cases h

theorem accepted_of_parse (laws : Whatwg P) {lr : Text} {r : ParsedC2spTlogLr} (h : parseC2spTlogLr P lr = .ok r) :
    (∃ url, Accepted P r url) ∧ ∃ scope ref, referenceParts lr = .ok (scope, r.logPrefix, ref) := by
  simp only [parseC2spTlogLr, bind_eq_ok, throwIf_eq_ok, pure_eq_ok] at h
  obtain ⟨⟨scope, raw, ref⟩, hparts, logPrefix, hcanonical, -, hsame, -, -, entryIndex, -, origin, horigin, -, -, -, -, rfl⟩ := h
  have hraw : raw = logPrefix := Decidable.not_not.mp hsame
  subst hraw
  refine ⟨?_, scope, ref, hparts⟩
  have hidem := hcanonical
  simp only [canonicalLogPrefix, bind_eq_ok, throwIf_eq_ok, mapError_eq_ok, pure_eq_ok] at hcanonical
  obtain ⟨-, -, -, -, url, hparse, -, huser, -, hsearch, -, -, -, -, -, hscheme, hout⟩ := hcanonical
  have hurl : UrlObject P url := .parsed hparse
  have hhttp := isHttp_of_protocol (laws.scheme_lower hurl) hscheme
  obtain ⟨hobject, port, heq⟩ := canonicalUrl_eq laws hurl hhttp
  have hquery : url.query.getD [] = [] := getD_of_ite (Decidable.not_not.mp (not_or.mp hsearch).1)
  have hfragment : url.fragment.getD [] = [] := getD_of_ite (Decidable.not_not.mp (not_or.mp hsearch).2)
  -- the prefix is what the setters made of the URL, so they made nothing else of it
  rw [heq] at hobject hout
  have hfixed : url = { url with port, pathname := withoutDotSegments (normalizePercentPath url.pathname) } := by
    obtain hagain | ⟨path, hslash, hagain⟩ := parse_trimSlash_href laws hobject hhttp hquery hfragment
    · rw [hout, hparse] at hagain
      exact Except.ok.inj hagain
    · -- no path gets longer in the setter
      rw [hout, hparse] at hagain
      have hpath : url.pathname = path := congrArg Url.pathname (Except.ok.inj hagain)
      have hlonger : (withoutDotSegments (normalizePercentPath url.pathname)).length = url.pathname.length + 1 := by
        refine (congrArg List.length hslash).trans ?_
        rw [hpath, List.length_append, List.length_singleton]
      have hnormal := length_normalizePercentPath_le url.pathname
      have hdots := length_withoutDotSegments_le (normalizePercentPath_ne_nil (laws.pathname_ne_nil hurl hhttp))
      omega
  rw [← hfixed] at hout
  simp only [checkpointOrigin, bind_eq_ok, mapError_eq_ok, pure_eq_ok] at horigin
  obtain ⟨url', hparse', horigin⟩ := horigin
  rw [hparse] at hparse'
  cases hparse'
  exact ⟨url, {
    parsed := hparse
    http := hhttp
    noUserinfo := ⟨Decidable.not_not.mp (not_or.mp huser).1, Decidable.not_not.mp (not_or.mp huser).2⟩
    query := hquery
    fragment := hfragment
    serialized := hout.symm
    origin := horigin.symm
    canonical := hidem }⟩

/-- The log prefix in a reference has neither `?` nor `#`. -/
def PlainPrefix (lr : Text) : Prop := ∀ parts, referenceParts lr = .ok parts → '?' ∉ parts.2.1 ∧ '#' ∉ parts.2.1

/-- The log prefix is the scheme and the origin, without query and fragment. -/
def Determined (P : UrlPlatform) (r : ParsedC2spTlogLr) : Prop :=
  ∃ url, P.parse r.logPrefix = .ok url ∧ url.query = none ∧ url.fragment = none ∧
    r.logPrefix = url.scheme ++ "://".toList ++ r.origin

theorem trimSlash_append {s t : Text} (h : t ≠ []) : trimSlash (s ++ t) = s ++ trimSlash t := by
  rw [trimSlash, trimSlash, getLast?_append_of_ne_nil h]
  split
  · rw [List.dropLast_append_of_ne_nil h]
  · rfl

theorem mem_trimSlash {c : Char} {text : Text} (hc : c ≠ '/') : c ∈ trimSlash text ↔ c ∈ text := by
  rw [trimSlash]
  split
  · next hlast =>
    have htext : text.dropLast ++ ['/'] = text := List.dropLast_append_getLast? _ hlast
    constructor
    · exact fun hmem => List.dropLast_subset _ hmem
    · intro hmem
      rw [← htext] at hmem
      rcases List.mem_append.mp hmem with hmem | hmem
      · exact hmem
      · exact absurd (List.mem_singleton.mp hmem) hc
  · exact Iff.rfl

variable {lr lr' : Text} {r r' : ParsedC2spTlogLr} {url : Url}

/-- Without query and fragment the serialization is the scheme and the origin. -/
theorem Accepted.logPrefix_eq (h : Accepted P r url) (laws : Whatwg P) (hquery : url.query = none)
    (hfragment : url.fragment = none) : r.logPrefix = url.scheme ++ "://".toList ++ r.origin := by
  have hne : url.host ++ url.pathname ≠ [] := by
    rw [Ne, List.append_eq_nil_iff]
    exact fun hnil => laws.pathname_ne_nil (.parsed h.parsed) h.http hnil.2
  rw [h.serialized, href_of_none hquery hfragment, trimSlash_append hne, h.origin, Url.protocol, Url.credentials,
    if_pos h.noUserinfo]
  simp

/-- A prefix with neither mark has neither part. -/
theorem Accepted.none_of_plain (h : Accepted P r url) (hplain : '?' ∉ r.logPrefix ∧ '#' ∉ r.logPrefix) :
    url.query = none ∧ url.fragment = none := by
  rw [h.serialized, mem_trimSlash (by decide), mem_trimSlash (by decide), Url.href, Url.afterPath] at hplain
  constructor
  · cases hq : url.query with
    | none => rfl
    | some query =>
      refine absurd ?_ hplain.1
      rw [hq]
      simp
  · cases hf : url.fragment with
    | none => rfl
    | some fragment =>
      refine absurd ?_ hplain.2
      rw [hf]
      simp

theorem plainPrefix_iff {parts : Text × Text × Text} (h : referenceParts lr = .ok parts) :
    PlainPrefix lr ↔ '?' ∉ parts.2.1 ∧ '#' ∉ parts.2.1 := by
  constructor
  · exact fun hplain => hplain parts h
  · intro hplain parts' h'
    rw [h] at h'
    cases h'
    exact hplain

theorem determined_of_plain (laws : Whatwg P) (h : parseC2spTlogLr P lr = .ok r) (hplain : PlainPrefix lr) :
    Determined P r := by
  obtain ⟨⟨url, haccepted⟩, scope, ref, hparts⟩ := accepted_of_parse laws h
  obtain ⟨hquery, hfragment⟩ := haccepted.none_of_plain ((plainPrefix_iff hparts).mp hplain)
  exact ⟨url, haccepted.parsed, hquery, hfragment, haccepted.logPrefix_eq laws hquery hfragment⟩

/-- The scheme and the origin have neither mark. -/
theorem plain_of_determined (laws : Whatwg P) (h : parseC2spTlogLr P lr = .ok r) (hdet : Determined P r) :
    PlainPrefix lr := by
  obtain ⟨⟨url, haccepted⟩, scope, ref, hparts⟩ := accepted_of_parse laws h
  obtain ⟨url', hparse, -, -, heq⟩ := hdet
  have hsame := haccepted.parsed.symm.trans hparse
  cases hsame
  have habsent : ∀ c, c = '?' ∨ c = '#' → c ∉ r.logPrefix := by
    intro c hc hmem
    rw [heq, haccepted.origin] at hmem
    rcases List.mem_append.mp hmem with hscheme | horigin
    · have hplain : ∀ c ∈ url.scheme ++ "://".toList, c ≠ '?' ∧ c ≠ '#' := by
        rcases haccepted.http with hhttp | hhttp
        · rw [hhttp]
          simp
        · rw [hhttp]
          simp
      rcases hc with rfl | rfl
      · exact (hplain _ hscheme).1 rfl
      · exact (hplain _ hscheme).2 rfl
    · have hplain := laws.undelimited (.parsed hparse) haccepted.http c
      rcases hc with rfl | rfl
      · exact (hplain ((mem_trimSlash (by decide)).mp horigin)).1 rfl
      · exact (hplain ((mem_trimSlash (by decide)).mp horigin)).2 rfl
  exact (plainPrefix_iff hparts).mpr ⟨habsent _ (.inl rfl), habsent _ (.inr rfl)⟩

/-- **A log reference is determined by scheme and origin** exactly when its log prefix has neither `?` nor `#`. Two such
references with one scheme and one origin have one log prefix. -/
theorem logPrefix_determined_iff (laws : Whatwg P) (h : parseC2spTlogLr P lr = .ok r) :
    (Determined P r ∧ canonicalLogPrefix P r.logPrefix = .ok r.logPrefix ↔ PlainPrefix lr) ∧
      (PlainPrefix lr → ∀ lr' r', parseC2spTlogLr P lr' = .ok r' → PlainPrefix lr' →
        (P.parse r.logPrefix).map Url.scheme = (P.parse r'.logPrefix).map Url.scheme → r.origin = r'.origin →
        r.logPrefix = r'.logPrefix) := by
  obtain ⟨⟨url, haccepted⟩, -⟩ := accepted_of_parse laws h
  refine ⟨⟨fun hdet => plain_of_determined laws h hdet.1, fun hplain => ?_⟩, ?_⟩
  · exact ⟨determined_of_plain laws h hplain, haccepted.canonical⟩
  · intro hplain lr' r' h' hplain' hscheme horigin
    obtain ⟨url₁, hparse₁, -, -, heq₁⟩ := determined_of_plain laws h hplain
    obtain ⟨url₂, hparse₂, -, -, heq₂⟩ := determined_of_plain laws h' hplain'
    rw [hparse₁, hparse₂] at hscheme
    have hsame : url₁.scheme = url₂.scheme := Except.ok.inj hscheme
    rw [heq₁, heq₂, hsame, horigin]

/-! ## An empty query -/

def plainUrl : Url where
  scheme := "https".toList
  username := []
  password := []
  hostname := "log.example".toList
  port := none
  pathname := "/p".toList
  query := none
  fragment := none

def emptyQueryUrl : Url := { plainUrl with query := some [] }

/-- The two URLs, whose components are only ever set to what they are. -/
def sampleUrls : UrlPlatform where
  parse := fun text =>
    if text = "https://log.example/p".toList then .ok plainUrl
    else if text = "https://log.example/p?".toList then .ok emptyQueryUrl
    else .error "TypeError: Invalid URL"
  setProtocol := fun url _ => url
  setHostname := fun url _ => url
  setPathname := fun url _ => url

theorem sampleUrls_objects {url : Url} (h : UrlObject sampleUrls url) : url = plainUrl ∨ url = emptyQueryUrl := by
  induction h with
  | @parsed text url h =>
    have hparse : sampleUrls.parse text =
        if text = "https://log.example/p".toList then .ok plainUrl
        else if text = "https://log.example/p?".toList then .ok emptyQueryUrl
        else .error "TypeError: Invalid URL" := rfl
    rw [hparse] at h
    split at h
    · exact .inl (Except.ok.inj h).symm
    · split at h
      · exact .inr (Except.ok.inj h).symm
      · cases h
  | setProtocol value _ ih => exact ih
  | setHostname value _ ih => exact ih
  | setPathname value _ ih => exact ih
  | removePort _ ih =>
    rcases ih with rfl | rfl
    · exact .inl rfl
    · exact .inr rfl

theorem sampleUrls_whatwg : Whatwg sampleUrls where
  scheme_lower h := by rcases sampleUrls_objects h with rfl | rfl <;> decide
  hostname_lower h _ := by rcases sampleUrls_objects h with rfl | rfl <;> decide
  undelimited h _ c hc := by
    have hall : (plainUrl.host ++ plainUrl.pathname).all (fun c => c ≠ '?' && c ≠ '#') = true := by decide
    have hmem : c ∈ plainUrl.host ++ plainUrl.pathname := by
      rcases sampleUrls_objects h with rfl | rfl
      · exact hc
      · exact hc
    simpa using List.all_eq_true.mp hall c hmem
  pathname_ne_nil h _ := by rcases sampleUrls_objects h with rfl | rfl <;> decide
  setProtocol_self _ := rfl
  setHostname_self _ _ := rfl
  setPathname_normal h _ := by rcases sampleUrls_objects h with rfl | rfl <;> decide
  reparse h _ := by rcases sampleUrls_objects h with rfl | rfl <;> decide
  reparse_unslashed h _ _ _ path hpath := by
    have hlast : ('/' : Char) = 'p' := by
      have hends := congrArg List.getLast? hpath
      rw [List.getLast?_concat] at hends
      rcases sampleUrls_objects h with rfl | rfl
      · exact Option.some.inj hends.symm
      · exact Option.some.inj hends.symm
    cases hlast

def plainReference : ParsedC2spTlogLr where
  scope := "public".toList
  logPrefix := "https://log.example/p".toList
  streamId := "s".toList
  origin := "log.example/p".toList
  lr := "c2sp-tlog:public:https://log.example/p#s".toList
  entryIndex := none

def emptyQueryReference : ParsedC2spTlogLr :=
  { plainReference with
    logPrefix := "https://log.example/p?".toList
    lr := "c2sp-tlog:public:https://log.example/p?#s".toList }

theorem plainReference_determined : Determined sampleUrls plainReference := by
  have hparse : parseC2spTlogLr sampleUrls plainReference.lr = .ok plainReference := by decide
  have hplain : PlainPrefix plainReference.lr := by
    have hparts : referenceParts plainReference.lr = .ok ("public".toList, plainReference.logPrefix, "s".toList) := by
      decide
    exact (plainPrefix_iff hparts).mpr (by decide)
  exact ((logPrefix_determined_iff sampleUrls_whatwg hparse).1.mpr hplain).1

/-- Two accepted references with one scheme and one origin have two log prefixes. -/
theorem emptyQuery_undetermined : parseC2spTlogLr sampleUrls plainReference.lr = .ok plainReference ∧
    parseC2spTlogLr sampleUrls emptyQueryReference.lr = .ok emptyQueryReference ∧
    (sampleUrls.parse plainReference.logPrefix).map Url.scheme =
      (sampleUrls.parse emptyQueryReference.logPrefix).map Url.scheme ∧
    plainReference.origin = emptyQueryReference.origin ∧
    plainReference.logPrefix ≠ emptyQueryReference.logPrefix ∧ ¬ Determined sampleUrls emptyQueryReference := by
  refine ⟨by decide, by decide, by decide, rfl, by decide, ?_⟩
  rintro ⟨url, hparse, hquery, -, -⟩
  have hurl : sampleUrls.parse emptyQueryReference.logPrefix = .ok emptyQueryUrl := by decide
  rw [hurl] at hparse
  cases hparse
  cases hquery

end Dnsid.References
