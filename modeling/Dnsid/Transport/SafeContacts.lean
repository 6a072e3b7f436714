import Dnsid.Transport.HttpsFetch
import Dnsid.Transport.UnsafeIps

/-! # Which addresses are contacted

Any number of fetches run beside each other, names resolve to other addresses from one lookup to the next, and sockets
are kept and used again. An unsafe address is only contacted for a host that the options of some fetch allow to be
private.
-/
namespace Dnsid.Transport.Https
open Dnsid.Foundations
set_option autoImplicit false

/-! ## Connections -/

/-- What the agent connects to: the brackets of an IPv6 address are left out. -/
def bareHost (hostname : Text) : Text := if hostname.head? = some '[' then hostname.tail.dropLast else hostname

/-- Sockets are shared by the requests of one agent with the same host, port and certificates. -/
structure SocketKey where
  agent : Agent
  host : Text
  port : Text
  caBundlePath : Option Text
  deriving DecidableEq

def HttpsRequest.key (request : HttpsRequest) : SocketKey :=
  ⟨request.agent, bareHost request.url.hostname, request.url.port, request.caBundlePath⟩

inductive FetchEvent where
  | requested (request : HttpsRequest)
  | connected (request : HttpsRequest) (address : Text)

structure FetchWorld where
  /-- The sockets that were opened; one that was closed is not used again. -/
  sockets : List (SocketKey × Text)
  trace : List FetchEvent

namespace FetchWorld

def request (w : FetchWorld) (request : HttpsRequest) : FetchWorld := ⟨w.sockets, w.trace ++ [.requested request]⟩

def connect (w : FetchWorld) (request : HttpsRequest) (addresses : List Text) : FetchWorld :=
  ⟨w.sockets ++ addresses.map fun address => (request.key, address),
    w.trace ++ addresses.map fun address => .connected request address⟩

end FetchWorld

/-- How a request gets its connection. -/
inductive Connection where
  | pooled (address : Text)
  /-- The host is an IP address and is not looked up. -/
  | direct
  /-- The host is looked up, and some of the addresses are tried. -/
  | looked (answers : DnsAnswers) (family : Option ℕ) (all : Bool) (tried : List Text)

inductive FetchChoice where
  | failed (cause : Errno)
  | timedOut (timeoutMs : ℕ)
  | connected (connection : Connection) (outcome : Except Errno HttpsResponse)

def timeoutError (timeoutMs : ℕ) : FetchError :=
  ⟨"request timed out after ".toList ++ Nat.toDigits 10 timeoutMs ++ "ms".toList, .tlsError, true⟩

section Runs
variable {Data : Type} (P : HttpsPlatform Data)

/-- The addresses that are contacted; `none` for what cannot be. -/
def contacts (request : HttpsRequest) (w : FetchWorld) : Connection → Option (Except Errno (List Text))
  | .pooled address => if (request.key, address) ∈ w.sockets then some (.ok [address]) else none
  | .direct =>
    if isIP (bareHost request.url.hostname) ≠ 0 then some (.ok [bareHost request.url.hostname]) else none
  | .looked answers family all tried =>
    if isIP (bareHost request.url.hostname) ≠ 0 then none
    else
      match ssrfSafeLookup P request.dnsServer request.privateAddressHosts (bareHost request.url.hostname) family all
        answers with
      | .error cause => some (.error cause)
      | .ok addresses => if tried.all addresses.contains then some (.ok tried) else none

def settleFetch : FetchChoice → (e : HttpsEffect) → FetchWorld → Option (Except FetchError e.Answer × FetchWorld)
  | .failed cause, .get request, w => some (.error (httpsTransportError cause), w.request request)
  | .timedOut timeoutMs, .get request, w => some (.error (timeoutError timeoutMs), w.request request)
  | .connected connection outcome, .get request, w =>
    (contacts P request w connection).map fun
      | .error cause => (.error (httpsTransportError cause), w.request request)
      | .ok addresses => (outcome.mapError httpsTransportError, (w.request request).connect request addresses)

inductive FetchCall where
  | fetchJson (opts : HTTPSFetchOptions) (url : Text)
  | ssrfSafeFetch (fetch : SafeFetch) (url : Text)

def fetchProgram : FetchCall → HttpsProg (FetchResult Data ⊕ HttpsResponse)
  | .fetchJson opts url => do
    let result ← fetchJson P opts url
    return .inl result
  | .ssrfSafeFetch fetch url => do
    let response ← ssrfSafeFetch P fetch url
    return .inr response

abbrev FetchPool (Data : Type) := Pool FetchError HttpsEffect.Answer (FetchResult Data ⊕ HttpsResponse) FetchWorld

def fetchStep : PoolAction FetchCall FetchChoice → FetchPool Data → Option (FetchPool Data) :=
  poolStep (fetchProgram P) (settleFetch P)

/-- Nothing was fetched yet. -/
def fetchStart : FetchPool Data := ⟨⟨[], []⟩, []⟩

end Runs

/-! ## Addresses -/

/-- ::1 is a form of 0.0.0.1, which is in 0.0.0.0/8. -/
theorem isUnsafeBytes_one {a : Ipv6Address} (h : a.value = 1) : isUnsafeBytes a.bytes = true := by
  have hsplit := a.value_eq
  have hvalue := a.embedded.value_eq
  have hhigh : a.high = 0 := by omega
  have hfirst : a.embedded.a.toNat = 0 := by omega
  rw [isUnsafeBytes_embedded (.inr hhigh), isUnsafeIpv4, a.embedded.fourBytes_text]
  simp [hfirst]

/-- A private address is unsafe, in whatever spelling. -/
theorem isUnsafe_of_private {address : Text} {a : IpAddress} (h : Denotes address a) (hprivate : a.Private) :
    isUnsafe address = true := by
  refine decide_eq_true ?_
  cases a with
  | v4 q =>
    rw [isUnsafeIp_quad h.normalizesTo]
    exact congrArg Except.ok (unsafe_of_private ((isPrivateIpv4_iff q).mpr hprivate))
  | v6 a =>
    rw [isUnsafeIp_bytes h.normalizesTo]
    rcases hprivate with hone | hprivate
    · exact congrArg Except.ok (isUnsafeBytes_one hone)
    · exact congrArg Except.ok (isUnsafeBytes_private (isPrivateBytes_iff.mpr hprivate))

/-- The check of a host in brackets is the check of the address. -/
theorem isUnsafe_brackets {address : Text} (h : isIP address ≠ 0) :
    isUnsafe ('[' :: (address ++ [']'])) = isUnsafe address := by
  obtain ⟨a, ha⟩ := isIP_iff.mp h
  unfold isUnsafe
  cases a with
  | v4 q => rw [isUnsafeIp_quad ha.normalizesTo.1, isUnsafeIp_quad ha.normalizesTo.2]
  | v6 a => rw [isUnsafeIp_bytes ha.normalizesTo.1, isUnsafeIp_bytes ha.normalizesTo.2]

/-! ## Lookups -/

section Lookups
variable {Data : Type} {P : HttpsPlatform Data} {dnsServer : Option Text} {hosts : List Text} {hostname address : Text}
variable {family : Option ℕ} {all : Bool} {answers : DnsAnswers} {addresses : List Text}

/-- What a lookup answers is safe, or all of it is private and the host may be. -/
theorem ssrfSafeLookup_ok (h : ssrfSafeLookup P dnsServer hosts hostname family all answers = .ok addresses)
    (hmem : address ∈ addresses) :
    isUnsafe address = false ∨ (privateAddressHostMatches P hostname hosts = true ∧ isPrivate address = true) := by
  unfold ssrfSafeLookup at h
  obtain ⟨_, -, h⟩ := bind_eq_ok.mp h
  obtain ⟨resolved, -, h⟩ := bind_eq_ok.mp h
  obtain ⟨_, hchecked, h⟩ := bind_eq_ok.mp h
  have hresolved : address ∈ resolved := by
    obtain rfl := pure_eq_ok.mp h
    split at hmem
    next => exact hmem
    next => exact List.mem_of_mem_take hmem
  unfold assertSafeAddresses at hchecked
  split at hchecked
  next unsafeAddress hfind =>
    obtain ⟨hmatches, hall⟩ := not_not.mp (throwIf_eq_ok.mp hchecked)
    exact .inr ⟨hmatches, List.all_eq_true.mp hall address hresolved⟩
  next hnone => exact .inl (Bool.eq_false_iff.mpr (List.find?_eq_none.mp hnone address hresolved))

end Lookups

/-! ## The invariant -/

section Contained
variable {Data : Type} (P : HttpsPlatform Data)

/-- A request is only made for a URL that was checked. -/
structure Checked (request : HttpsRequest) : Prop where
  safe : isUnsafe request.url.hostname = false
  bracketed : request.url.hostname.head? = some '[' → ∃ address, request.url.hostname = '[' :: (address ++ [']'])

/-- The address is safe, or it is private and a request allowed that for the host. -/
def Allowed (trace : List FetchEvent) (host address : Text) : Prop :=
  isUnsafe address = false ∨ isPrivate address = true ∧ ∃ request, .requested request ∈ trace ∧
    bareHost request.url.hostname = host ∧ privateAddressHostMatches P host request.privateAddressHosts = true

structure Contained (w : FetchWorld) : Prop where
  sockets : ∀ key address, (key, address) ∈ w.sockets → Allowed P w.trace key.host address
  connected : ∀ request address, .connected request address ∈ w.trace →
    .requested request ∈ w.trace ∧ Allowed P w.trace (bareHost request.url.hostname) address

variable {P} {w w' : FetchWorld} {request : HttpsRequest} {address : Text}

theorem Allowed.mono {trace trace' : List FetchEvent} {host : Text} (h : Allowed P trace host address)
    (hsub : ∀ e ∈ trace, e ∈ trace') : Allowed P trace' host address := by
  refine h.imp_right fun hright => ?_
  obtain ⟨hprivate, request, hrequested, hhost, hmatches⟩ := hright
  exact ⟨hprivate, request, hsub _ hrequested, hhost, hmatches⟩

theorem Contained.recorded (h : Contained P w) (request : HttpsRequest) : Contained P (w.request request) := by
  have hsub : ∀ e ∈ w.trace, e ∈ (w.request request).trace := fun e he => List.mem_append_left _ he
  refine ⟨fun key address hmem => (h.sockets key address hmem).mono hsub, fun other address hmem => ?_⟩
  rcases List.mem_append.mp hmem with hmem | hmem
  · obtain ⟨hrequested, hallowed⟩ := h.connected other address hmem
    exact ⟨hsub _ hrequested, hallowed.mono hsub⟩
  · cases List.mem_singleton.mp hmem

/-- Addresses that are allowed may be contacted. -/
theorem Contained.connect (h : Contained P w) (hrequested : .requested request ∈ w.trace) {addresses : List Text}
    (hallowed : ∀ address ∈ addresses, Allowed P w.trace (bareHost request.url.hostname) address) :
    Contained P (w.connect request addresses) := by
  have hsub : ∀ e ∈ w.trace, e ∈ (w.connect request addresses).trace := fun e he => List.mem_append_left _ he
  refine ⟨fun key address hmem => ?_, fun other address hmem => ?_⟩
  · rcases List.mem_append.mp hmem with hmem | hmem
    · exact (h.sockets key address hmem).mono hsub
    · obtain ⟨address', haddress', heq⟩ := List.mem_map.mp hmem
      obtain ⟨rfl, rfl⟩ := Prod.mk.inj heq
      exact (hallowed _ haddress').mono hsub
  · rcases List.mem_append.mp hmem with hmem | hmem
    · obtain ⟨hbefore, hallowed'⟩ := h.connected other address hmem
      exact ⟨hsub _ hbefore, hallowed'.mono hsub⟩
    · obtain ⟨address', haddress', heq⟩ := List.mem_map.mp hmem
      obtain ⟨rfl, rfl⟩ := FetchEvent.connected.inj heq
      exact ⟨hsub _ hrequested, (hallowed _ haddress').mono hsub⟩

/-- The host of a checked request that is an address is a safe one. -/
theorem Checked.direct (h : Checked request) (hip : isIP (bareHost request.url.hostname) ≠ 0) :
    isUnsafe (bareHost request.url.hostname) = false := by
  have hsafe := h.safe
  unfold bareHost at hip ⊢
  split
  next hhead =>
    rw [if_pos hhead] at hip
    obtain ⟨address, haddress⟩ := h.bracketed hhead
    rw [haddress] at hsafe hip ⊢
    simp only [List.tail_cons, List.dropLast_concat] at hip ⊢
    rwa [isUnsafe_brackets hip] at hsafe
  next => exact hsafe

/-- What a checked request contacts is allowed. -/
theorem contacts_allowed (h : Contained P w) (hchecked : Checked request) {connection : Connection}
    {addresses : List Text} (hcontacts : contacts P request w connection = some (.ok addresses)) :
    ∀ address ∈ addresses, Allowed P (w.request request).trace (bareHost request.url.hostname) address := by
  intro address hmem
  cases connection with
  | pooled socket =>
    simp only [contacts] at hcontacts
    split at hcontacts
    next hsocket =>
      obtain rfl := Except.ok.inj (Option.some.inj hcontacts)
      obtain rfl := List.mem_singleton.mp hmem
      exact (h.recorded request).sockets request.key address hsocket
    next => cases hcontacts
  | direct =>
    simp only [contacts] at hcontacts
    split at hcontacts
    next hip =>
      obtain rfl := Except.ok.inj (Option.some.inj hcontacts)
      obtain rfl := List.mem_singleton.mp hmem
      exact .inl (hchecked.direct hip)
    next => cases hcontacts
  | looked answers family all tried =>
    simp only [contacts] at hcontacts
    split at hcontacts
    next => cases hcontacts
    next =>
      split at hcontacts
      next => cases hcontacts
      next resolved hlookup =>
        split at hcontacts
        next htried =>
          obtain rfl := Except.ok.inj (Option.some.inj hcontacts)
          have hresolved := List.contains_iff_mem.mp (List.all_eq_true.mp htried address hmem)
          refine (ssrfSafeLookup_ok hlookup hresolved).imp_right fun hprivate => ⟨hprivate.2, request, ?_, rfl, hprivate.1⟩
          exact List.mem_append_right _ (List.mem_singleton.mpr rfl)
        next => cases hcontacts

theorem settle_contained {c : FetchChoice} {r : Except FetchError HttpsResponse} (hchecked : Checked request)
    (h : Contained P w) (hsettle : settleFetch P c (.get request) w = some (r, w')) : Contained P w' := by
  cases c with
  | failed cause =>
    cases hsettle
    exact h.recorded request
  | timedOut timeoutMs =>
    cases hsettle
    exact h.recorded request
  | connected connection outcome =>
    obtain ⟨found, hcontacts, hworld⟩ := Option.map_eq_some_iff.mp hsettle
    cases found with
    | error cause =>
      obtain rfl := congrArg Prod.snd hworld
      exact h.recorded request
    | ok addresses =>
      obtain rfl := congrArg Prod.snd hworld
      refine (h.recorded request).connect (List.mem_append_right _ (List.mem_singleton.mpr rfl)) ?_
      exact contacts_allowed h hchecked hcontacts

end Contained

/-! ## The programs -/

section Programs
variable {Data : Type} {P : HttpsPlatform Data} {opts : HTTPSFetchOptions} {url : Text} {urlObj : ParsedUrl}

/-- A request of `fetchJson` is one that its options admit. -/
structure Admitted (P : HttpsPlatform Data) (opts : HTTPSFetchOptions) (request : HttpsRequest) : Prop
    extends Checked request where
  https : request.url.protocol = "https:".toList
  host : hostRefused opts request.url.hostname = false
  privateAddressHosts : opts.privateAddressHosts.mapM (normalizePrivateAddressHost P) = .ok request.privateAddressHosts

theorem checkUrl_ok (h : checkUrl P opts url = .ok urlObj) :
    P.parseUrl url = some urlObj ∧ urlObj.protocol = "https:".toList ∧ hostRefused opts urlObj.hostname = false ∧
      isUnsafe urlObj.hostname = false := by
  simp only [checkUrl, bind_eq_ok, throwIf_eq_ok, orThrow_eq_ok, pure_eq_ok, not_not, Bool.not_eq_true] at h
  obtain ⟨parsed, hparsed, _, hprotocol, _, hhost, _, hsafe, rfl⟩ := h
  exact ⟨hparsed, hprotocol, hhost, hsafe⟩

theorem fetchWithRedirects_only (remaining : ℕ) (url : Text) :
    (fetchWithRedirects P opts remaining url).Only fun e => Admitted P opts e.request := by
  induction remaining generalizing url with
  | zero => trivial
  | succ remaining ih =>
    refine Prog.Only.ofExcept_bind fun urlObj hchecked => Prog.Only.ofExcept_bind fun hosts hhosts => ?_
    obtain ⟨hparsed, hprotocol, hhost, hsafe⟩ := checkUrl_ok hchecked
    refine Prog.Only.bind (Prog.Only.perform ⟨⟨hsafe, P.bracketed url urlObj hparsed⟩, hprotocol, hhost, hhosts⟩) ?_
    intro res
    split
    next => exact Prog.Only.ofExcept_bind fun next _ => ih next
    next => exact Prog.Only.ofExcept _

/-- At most five redirects are followed. -/
theorem fetchWithRedirects_performs {remaining : ℕ} {trace : List (Σ e : HttpsEffect, Except FetchError e.Answer)}
    {q : HttpsProg (FetchResult Data)} (h : Prog.Performs (fetchWithRedirects P opts remaining url) trace q) :
    trace.length ≤ remaining := by
  induction remaining generalizing url trace with
  | zero =>
    obtain ⟨rfl, -⟩ := h.of_throw
    exact Nat.le_refl 0
  | succ remaining ih =>
    obtain ⟨urlObj, -, h⟩ | ⟨_, -, rfl, -⟩ := h.of_ofExcept_bind
    swap
    · exact Nat.zero_le _
    obtain ⟨hosts, -, h⟩ | ⟨_, -, rfl, -⟩ := h.of_ofExcept_bind
    swap
    · exact Nat.zero_le _
    obtain ⟨rfl, -⟩ | ⟨r, rest, rfl, hcontinued⟩ := h.of_perform_bind
    · exact Nat.zero_le _
    have hrest : rest.length ≤ remaining := by
      obtain ⟨res, -, hanswered⟩ | ⟨_, -, rfl, -⟩ := hcontinued.of_ofExcept_bind
      swap
      · exact Nat.zero_le _
      split at hanswered
      next =>
        obtain ⟨next, -, hredirected⟩ | ⟨_, -, rfl, -⟩ := hanswered.of_ofExcept_bind
        · exact ih hredirected
        · exact Nat.zero_le _
      next =>
        obtain ⟨rfl, -⟩ := hanswered.of_ofExcept
        exact Nat.zero_le _
    exact Nat.succ_le_succ hrest

theorem fetchProgram_only (call : FetchCall) : (fetchProgram P call).Only fun e => Checked e.request := by
  cases call with
  | fetchJson opts url =>
    refine Prog.Only.bind ?_ fun _ => trivial
    exact (fetchWithRedirects_only 6 url).imp fun _ h => h.toChecked
  | ssrfSafeFetch fetch url =>
    refine Prog.Only.bind (Prog.Only.ofExcept_bind fun urlObj hparsed => ?_) fun _ => trivial
    refine Prog.Only.ofExcept_bind fun _ hsafe => Prog.Only.perform ⟨?_, P.bracketed url urlObj (orThrow_eq_ok.mp hparsed)⟩
    exact Bool.eq_false_iff.mpr (throwIf_eq_ok.mp hsafe)

end Programs

/-! ## Every run -/

section Main
variable {Data : Type} {P : HttpsPlatform Data}

theorem run_contained {acts : List (PoolAction FetchCall FetchChoice)} {pool : FetchPool Data}
    (hrun : run (fetchStep P) acts fetchStart = some pool) : Contained P pool.world := by
  have hstart : PoolKeeps (settleFetch P) (fun _ _ _ => True) (Contained P) (fun _ _ => True)
      (fetchStart : FetchPool Data) := by
    refine ⟨⟨fun _ _ h => ?_, fun _ _ h => ?_⟩, fun _ h => ?_⟩ <;> cases h
  refine (pool_keeps (fun _ _ _ _ _ => trivial) (fun _ => trivial) (fun call w _ => ?_) ?_ hstart hrun).1
  · refine Keeps.of_only_keeps ?_ (fetchProgram_only call)
    rintro c ⟨request⟩ r w w' hchecked hcontained hsettle
    exact ⟨settle_contained hchecked hcontained hsettle, trivial⟩
  · exact runMeets_of_before acts _ fun _ _ _ _ _ _ _ _ _ _ _ _ => trivial

/-- However fetches interleave, whatever names resolve to and wherever redirects lead: an address that is contacted is
a safe one and denotes no private address, or a request of the run allowed its host to be private. And `fetchJson`
makes at most six requests, each to an HTTPS URL with a host that is permitted. -/
theorem https_fetch_contained {acts : List (PoolAction FetchCall FetchChoice)} {pool : FetchPool Data}
    (hrun : run (fetchStep P) acts fetchStart = some pool) :
    (∀ request address, .connected request address ∈ pool.world.trace →
      (isUnsafe address = false ∧ ∀ a, Denotes address a → ¬ a.Private) ∨
        isPrivate address = true ∧ ∃ other, .requested other ∈ pool.world.trace ∧
          bareHost other.url.hostname = bareHost request.url.hostname ∧
          privateAddressHostMatches P (bareHost request.url.hostname) other.privateAddressHosts = true) ∧
      ∀ opts url trace q, Prog.Performs (fetchJson P opts url) trace q →
        trace.length ≤ 6 ∧ ∀ step ∈ trace, Admitted P opts step.1.request := by
  refine ⟨fun request address hmem => ?_, fun opts url trace q h => ⟨fetchWithRedirects_performs h, ?_⟩⟩
  · refine ((run_contained hrun).connected request address hmem).2.imp_left fun hsafe => ⟨hsafe, fun a ha hprivate => ?_⟩
    rw [isUnsafe_of_private ha hprivate] at hsafe
    cases hsafe
  · exact (fetchWithRedirects_only 6 url).performs h

def sampleUrl (host : String) : ParsedUrl :=
  ⟨"https:".toList, [], [], host.toList, [], ['/'], [], [], "https://".toList ++ host.toList ++ ['/']⟩

/-- The URL parser knows one host. -/
def samplePlatform : HttpsPlatform Unit where
  parseUrl text := if text = "https://lr.test".toList then some (sampleUrl "lr.test") else none
  resolveUrl _ _ := none
  toLowerCase := id
  jsonParse _ := some ()
  bracketed text url h hhead := by
    split at h
    · obtain rfl := Option.some.inj h
      cases hhead
    · cases h

def sampleOptions : HTTPSFetchOptions := ⟨none, false, none, none, none, ["lr.test".toList]⟩

def sampleRequest : HttpsRequest := requestOf sampleOptions (sampleUrl "lr.test") ["lr.test".toList]

def sampleAnswers : DnsAnswers := ⟨.ok ["10.0.0.1".toList], .ok [], .ok [], .ok ()⟩

def sampleFetches : List (PoolAction FetchCall FetchChoice) :=
  [.start (.fetchJson sampleOptions "https://lr.test".toList),
    .settle 0 (.connected (.looked sampleAnswers none false ["10.0.0.1".toList]) (.error ⟨[], none⟩))]

/-- The host that is named may resolve to a private address. -/
theorem https_fetch_contained_sample :
    ∃ pool : FetchPool Unit, run (fetchStep samplePlatform) sampleFetches fetchStart = some pool ∧
      pool.world.trace = [.requested sampleRequest, .connected sampleRequest "10.0.0.1".toList] ∧
      isPrivate "10.0.0.1".toList = true ∧ ∃ other, .requested other ∈ pool.world.trace ∧
        privateAddressHostMatches samplePlatform "lr.test".toList other.privateAddressHosts = true := by
  have htrace : (run (fetchStep samplePlatform) sampleFetches fetchStart).map (·.world.trace) =
      some [.requested sampleRequest, .connected sampleRequest "10.0.0.1".toList] := rfl
  obtain ⟨pool, hrun, hpool⟩ := Option.map_eq_some_iff.mp htrace
  have hconnected : .connected sampleRequest "10.0.0.1".toList ∈ pool.world.trace := by
    rw [hpool]
    exact List.mem_cons_of_mem _ List.mem_cons_self
  have hcontained := (https_fetch_contained hrun).1 sampleRequest "10.0.0.1".toList hconnected
  have hunsafe : isUnsafe "10.0.0.1".toList ≠ false := by decide
  obtain ⟨hprivate, other, hother, -, hmatches⟩ := hcontained.resolve_left fun hsafe => hunsafe hsafe.1
  exact ⟨pool, hrun, hpool, hprivate, other, hother, hmatches⟩

end Main

end Dnsid.Transport.Https
