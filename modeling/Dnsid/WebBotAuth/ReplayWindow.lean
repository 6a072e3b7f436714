import Dnsid.Foundations.PoolHistory
import Dnsid.HttpSignatures.BaseInjective
import Dnsid.WebBotAuth.Verify
import Mathlib.Algebra.Order.Field.Rat
import Mathlib.Tactic.FieldSimp
import Mathlib.Tactic.Linarith

/-! # A signed request is accepted once

Calls interleave over one clock that never goes back and one nonce store. The store answers `true` for a nonce it
does not hold, and forgets an entry only after its `retainUntil`. An invalid `Date` never passes.
-/
namespace Dnsid.WebBotAuth
open Dnsid.Foundations Dnsid.Events Dnsid.HttpSignatures
set_option autoImplicit false

/-! ## The world of the calls -/

structure WbaWorld where
  /-- `Date.now()`. -/
  clock : ℤ
  nonces : List NonceEntry
  /-- `refreshCooldowns`. -/
  cooldowns : List (String × ℤ)

/-- What the environment does until an effect is settled, and what it answers. -/
structure WbaChoice where
  elapsed : ℕ
  /-- The past entries that the store still holds. -/
  keeps : NonceEntry → Bool
  answers : (e : WbaEffect) → Except HttpError e.Answer
  /-- The store records an entry that it does not accept. -/
  records : Bool

def isPast (entry : NonceEntry) (clock : ℤ) : Bool := entry.retainUntil.any fun until_ => until_ < clock

def sameNonce (a b : NonceEntry) : Bool := a.signerDomain = b.signerDomain && a.keyid = b.keyid && a.nonce = b.nonce

def passTime (c : WbaChoice) (w : WbaWorld) : WbaWorld :=
  { w with
    clock := w.clock + c.elapsed
    nonces := w.nonces.filter fun entry => !isPast entry (w.clock + c.elapsed) || c.keeps entry }

/-- The cooldown of the domain holds, or there is no room for it; else it is set. -/
def suppressRefresh (domain : String) (now : ℤ) (cooldowns : List (String × ℤ)) : Bool × List (String × ℤ) :=
  let current := cooldowns.filter fun cooldown => now < cooldown.2
  if (current.lookup domain).isSome || 1024 ≤ current.length then (true, current)
  else (false, current ++ [(domain, now + 5000)])

def settleNonce (c : WbaChoice) (entry : NonceEntry) (w : WbaWorld) : Option (Except HttpError Bool × WbaWorld) :=
  match c.answers (.consumeNonce entry) with
  | .ok true =>
    if w.nonces.any (sameNonce entry) then none else some (.ok true, { w with nonces := entry :: w.nonces })
  | answer => some (answer, if c.records then { w with nonces := entry :: w.nonces } else w)

def settle (c : WbaChoice) (e : WbaEffect) (w : WbaWorld) : Option (Except HttpError e.Answer × WbaWorld) :=
  match e with
  | .now => some (.ok (passTime c w).clock, passTime c w)
  | .suppressRefresh domain now =>
    let result := suppressRefresh domain now w.cooldowns
    some (.ok result.1, { passTime c w with cooldowns := result.2 })
  | .consumeNonce entry => settleNonce c entry (passTime c w)
  | e => some (c.answers e, passTime c w)

/-! ## What a settled effect does -/

theorem isPast_mono {entry : NonceEntry} {t t' : ℤ} (h : isPast entry t = true) (ht : t ≤ t') :
    isPast entry t' = true := by
  cases hretain : entry.retainUntil with
  | none => simp [isPast, hretain] at h
  | some instant =>
    simp only [isPast, hretain, Option.any_some, decide_eq_true_eq] at h ⊢
    omega

theorem sameNonce_refl (entry : NonceEntry) : sameNonce entry entry = true := by simp [sameNonce]

/-- Time passes, and an entry is forgotten only when it is past. -/
structure TimePasses (w w' : WbaWorld) : Prop where
  clock_le : w.clock ≤ w'.clock
  kept : ∀ entry ∈ w.nonces, entry ∈ w'.nonces ∨ isPast entry w'.clock = true

theorem passTime_timePasses (c : WbaChoice) (w : WbaWorld) : TimePasses w (passTime c w) where
  clock_le := by
    simp only [passTime]
    omega
  kept entry hentry := by
    by_cases hpast : isPast entry (w.clock + c.elapsed) = true
    · exact .inr hpast
    · exact .inl (List.mem_filter.mpr ⟨hentry, by simp [hpast]⟩)

theorem TimePasses.cons {w w' : WbaWorld} (h : TimePasses w w') (entry : NonceEntry) :
    TimePasses w { w' with nonces := entry :: w'.nonces } where
  clock_le := h.clock_le
  kept entry' hentry' := (h.kept entry' hentry').imp_left (List.mem_cons_of_mem entry)

/-- An accepted entry is held from then on, and the store had no live entry with its nonce. -/
theorem settleNonce_spec {c : WbaChoice} {entry : NonceEntry} {w w₁ w' : WbaWorld} {r : Except HttpError Bool}
    (hw : TimePasses w w₁) (h : settleNonce c entry w₁ = some (r, w')) :
    TimePasses w w' ∧ (r = .ok true → entry ∈ w'.nonces ∧
      ∀ a ∈ w.nonces, sameNonce entry a = true → isPast a w'.clock = true) := by
  unfold settleNonce at h
  split at h
  next =>
    split at h
    next => cases h
    next hfresh =>
      obtain ⟨rfl, rfl⟩ := Prod.mk.inj (Option.some.inj h)
      refine ⟨hw.cons entry, fun _ => ⟨List.mem_cons_self, fun a ha hsame => ?_⟩⟩
      rcases hw.kept a ha with hheld | hpast
      · exact absurd (List.any_eq_true.mpr ⟨a, hheld, hsame⟩) hfresh
      · exact hpast
  next hrefused =>
    obtain ⟨rfl, rfl⟩ := Prod.mk.inj (Option.some.inj h)
    refine ⟨?_, fun hanswer => absurd hanswer hrefused⟩
    split
    · exact hw.cons entry
    · exact hw

abbrev WbaEvent := Σ e : WbaEffect, Except HttpError e.Answer

def nowEvent (t : ℤ) : WbaEvent := ⟨.now, .ok t⟩

def consumedEvent (entry : NonceEntry) : WbaEvent := ⟨.consumeNonce entry, .ok true⟩

theorem settle_spec {c : WbaChoice} {e : WbaEffect} {w w' : WbaWorld} {r : Except HttpError e.Answer}
    (h : settle c e w = some (r, w')) :
    TimePasses w w' ∧ (∀ t, (⟨e, r⟩ : WbaEvent) = nowEvent t → t = w'.clock) ∧
      ∀ entry, (⟨e, r⟩ : WbaEvent) = consumedEvent entry → entry ∈ w'.nonces ∧
        ∀ a ∈ w.nonces, sameNonce entry a = true → isPast a w'.clock = true := by
  have htime := passTime_timePasses c w
  cases e with
  | now =>
    obtain ⟨rfl, rfl⟩ := Prod.mk.inj (Option.some.inj h)
    refine ⟨htime, fun t ht => ?_, fun entry hentry => ?_⟩
    · cases ht
      rfl
    · cases hentry
  | consumeNonce entry =>
    obtain ⟨htime', haccepted⟩ := settleNonce_spec htime h
    refine ⟨htime', fun t ht => ?_, fun entry' hentry' => ?_⟩
    · cases ht
    · cases hentry'
      exact haccepted rfl
  | suppressRefresh domain now =>
    obtain ⟨rfl, rfl⟩ := Prod.mk.inj (Option.some.inj h)
    refine ⟨⟨htime.clock_le, htime.kept⟩, fun t ht => ?_, fun entry hentry => ?_⟩
    · cases ht
    · cases hentry
  | _ =>
    obtain ⟨rfl, rfl⟩ := Prod.mk.inj (Option.some.inj h)
    refine ⟨htime, fun t ht => ?_, fun entry hentry => ?_⟩
    · cases ht
    · cases hentry

/-! ## Histories -/

abbrev WbaSettled := Settled HttpError WbaEffect.Answer WbaWorld

/-- In a history the clock never goes back, and a nonce is accepted again only after its entry is past. -/
structure Chronicle (w : WbaWorld) (history : List WbaSettled) : Prop where
  clock_le : ∀ s ∈ history, s.world.clock ≤ w.clock
  ordered : history.Pairwise fun s t => s.world.clock ≤ t.world.clock
  now_eq : ∀ s ∈ history, ∀ t, s.event = nowEvent t → t = s.world.clock
  held : ∀ s ∈ history, ∀ entry, s.event = consumedEvent entry →
    entry ∈ w.nonces ∨ isPast entry w.clock = true
  consumed_again : history.Pairwise fun s t => ∀ a b, s.event = consumedEvent a → t.event = consumedEvent b →
    sameNonce b a = true → isPast a t.world.clock = true

theorem Chronicle.nil (w : WbaWorld) : Chronicle w [] where
  clock_le s hs := by cases hs
  ordered := .nil
  now_eq s hs := by cases hs
  held s hs := by cases hs
  consumed_again := .nil

theorem Chronicle.settle {w w' : WbaWorld} {history : List WbaSettled} (h : Chronicle w history) (n : ℕ)
    {c : WbaChoice} {e : WbaEffect} {r : Except HttpError e.Answer}
    (hsettle : WebBotAuth.settle c e w = some (r, w')) : Chronicle w' (history ++ [⟨n, e, r, w'⟩]) := by
  obtain ⟨htime, hnow, hconsumed⟩ := settle_spec hsettle
  -- What was accepted before is still held, or past by now.
  have hkept : ∀ s ∈ history, ∀ entry, s.event = consumedEvent entry →
      entry ∈ w'.nonces ∨ isPast entry w'.clock = true := by
    intro s hs entry hentry
    rcases h.held s hs entry hentry with hheld | hpast
    · exact htime.kept entry hheld
    · exact .inr (isPast_mono hpast htime.clock_le)
  have hle : ∀ s ∈ history, s.world.clock ≤ w'.clock := fun s hs => le_trans (h.clock_le s hs) htime.clock_le
  refine ⟨?_, ?_, ?_, ?_, ?_⟩
  · simpa [or_imp, forall_and] using hle
  · simpa [List.pairwise_append] using ⟨h.ordered, hle⟩
  · intro s hs t ht
    rcases List.mem_append.mp hs with hs | hs
    · exact h.now_eq s hs t ht
    · obtain rfl := List.mem_singleton.mp hs
      exact hnow t ht
  · intro s hs entry hentry
    rcases List.mem_append.mp hs with hs | hs
    · exact hkept s hs entry hentry
    · obtain rfl := List.mem_singleton.mp hs
      exact .inl (hconsumed entry hentry).1
  · refine List.pairwise_append.mpr ⟨h.consumed_again, List.pairwise_singleton _ _, ?_⟩
    intro s hs t ht a b ha hb hsame
    obtain rfl := List.mem_singleton.mp ht
    rcases h.held s hs a ha with hheld | hpast
    · exact (hconsumed b hb).2 a hheld hsame
    · exact isPast_mono hpast htime.clock_le

/-! ## What a call performs that returns -/

section Returns
variable {P : WbaPlatform} {skew : ℚ} {trace : List WbaEvent}

theorem invalidIf_returned {c : Prop} [Decidable c] {message : String} {u : Unit}
    (h : Prog.Performs (invalidIf c message) trace (.ret u)) : ¬ c ∧ trace = [] := by
  obtain ⟨htrace, hret⟩ := Prog.Performs.of_ofExcept h
  refine ⟨fun hc => ?_, htrace⟩
  simp [throwIf, hc, Prog.ofExcept] at hret

theorem validity_returned {params : SignatureParams} {directory : Bool} {u : Unit}
    (h : Prog.Performs (validity P params skew directory) trace (.ret u)) :
    ∃ created expires now, lifetime params = some (created, expires) ∧ trace = [nowEvent now] ∧
      ¬ NotCurrentlyValid created expires skew directory now := by
  simp only [validity, Prog.Performs.returns_ofExcept_bind, Prog.Performs.returns_perform_bind, orThrow_eq_ok] at h
  obtain ⟨⟨created, expires⟩, hlifetime, -, -, now, rest, rfl, h⟩ := h
  obtain ⟨hvalid, rfl⟩ := invalidIf_returned h
  exact ⟨created, expires, now, hlifetime, rfl, hvalid⟩

theorem safeInteger_of_lifetime {params : SignatureParams} {created expires : ℤ}
    (h : lifetime params = some (created, expires)) : safeInteger params.expires = some expires := by
  unfold lifetime at h
  split at h
  next hcreated hexpires =>
    split at h
    next =>
      obtain ⟨-, rfl⟩ := Prod.mk.inj (Option.some.inj h)
      exact hexpires
    next => cases h
  next => cases h

/-- The clock is read first, and the request has not expired by it. -/
theorem fresh_returned {request : Selected} {directory : Directory} {verified : VerifiedDomain} {u : Unit}
    (h : Prog.Performs (fresh P skew request directory verified) trace (.ret u)) :
    ∃ expires now rest, safeInteger request.params.expires = some expires ∧ trace = nowEvent now :: rest ∧
      ¬ (expires : ℚ) < (now : ℚ) / 1000 - skew := by
  obtain ⟨_, first, rest, rfl, hvalidity, -⟩ := Prog.Performs.returns_bind.mp h
  obtain ⟨created, expires, now, hlifetime, rfl, hvalid⟩ := validity_returned hvalidity
  exact ⟨expires, now, rest, safeInteger_of_lifetime hlifetime, rfl, fun hlt => hvalid (.inr hlt)⟩

theorem matchingKeys_returned {keyId : Option String} {keys : List Json} {found : List (Json × String)}
    (h : Prog.Performs (matchingKeys P keyId keys) trace (.ret found)) : ∀ k ∈ found, some k.2 = keyId := by
  induction keys generalizing trace found with
  | nil =>
    obtain ⟨-, rfl⟩ := Prog.Performs.returns_pure.mp h
    simp
  | cons key keys ih =>
    simp only [matchingKeys, Prog.Performs.returns_ofExcept_bind, Prog.Performs.returns_perform_bind] at h
    obtain ⟨-, -, kid, rest, rfl, h⟩ := h
    obtain ⟨-, _, rest, rfl, -, h⟩ := Prog.Performs.returns_bind.mp h
    obtain ⟨more, _, rest, rfl, hmore, h⟩ := Prog.Performs.returns_bind.mp h
    obtain ⟨-, rfl⟩ := Prog.Performs.returns_pure.mp h
    split
    next hkid => exact List.forall_mem_cons.mpr ⟨hkid, ih hmore⟩
    next => exact ih hmore

/-- The key of the directory has the `keyid` of the request. -/
theorem discover_returned {call : WbaCall} {request : Selected} {url : ParsedUrl} {directory : Directory}
    (h : Prog.Performs (discover P skew call request url) trace (.ret directory)) :
    some directory.kid = request.params.keyId := by
  unfold discover at h
  obtain ⟨_, _, _, -, -, h⟩ := Prog.Performs.returns_bind.mp h
  obtain ⟨_, _, _, -, -, h⟩ := Prog.Performs.returns_bind.mp h
  obtain ⟨_, _, _, -, -, h⟩ := Prog.Performs.returns_bind.mp h
  obtain ⟨_, _, _, -, -, h⟩ := Prog.Performs.returns_bind.mp h
  obtain ⟨_, _, _, -, -, h⟩ := Prog.Performs.returns_bind.mp h
  obtain ⟨_, _, _, -, -, h⟩ := Prog.Performs.returns_bind.mp h
  obtain ⟨_, _, _, -, -, h⟩ := Prog.Performs.returns_bind.mp h
  obtain ⟨_, _, _, -, -, h⟩ := Prog.Performs.returns_bind.mp h
  obtain ⟨_, _, _, -, -, h⟩ := Prog.Performs.returns_bind.mp h
  obtain ⟨_, _, _, -, -, h⟩ := Prog.Performs.returns_bind.mp h
  obtain ⟨candidates, _, _, -, hcandidates, h⟩ := Prog.Performs.returns_bind.mp h
  split at h
  next key kid =>
    obtain ⟨_, _, _, -, -, h⟩ := Prog.Performs.returns_bind.mp h
    obtain ⟨_, _, _, -, -, h⟩ := Prog.Performs.returns_bind.mp h
    obtain ⟨-, rfl⟩ := Prog.Performs.returns_pure.mp h
    exact matchingKeys_returned hcandidates (key, kid) List.mem_cons_self
  next => cases h

theorem consume_returned {call : WbaCall} {request : Selected} {signer : Signer} {directory : Directory} {u : Unit}
    (hpolicy : call.opts.consumeNonce = true)
    (h : Prog.Performs (consume skew call request signer directory) trace (.ret u)) :
    ∃ nonce, request.params.nonce = some nonce ∧
      trace = [consumedEvent (nonceEntry skew request signer directory nonce)] := by
  simp only [consume, hpolicy, if_true, Prog.Performs.returns_ofExcept_bind, Prog.Performs.returns_perform_bind,
    orThrow_eq_ok, Option.filter_eq_some_iff] at h
  obtain ⟨nonce, ⟨hnonce, -⟩, accepted, rest, rfl, h⟩ := h
  obtain ⟨haccepted, rfl⟩ := invalidIf_returned h
  obtain rfl : accepted = true := by simpa using haccepted
  exact ⟨nonce, hnonce, rfl⟩

/-- Signer domain, `keyid`, `nonce` and `expires` of the selected request signature. -/
def selectedSignature (P : WbaPlatform) (call : WbaCall) :
    Except HttpError (String × Option String × Option String × Option JsNumber) := do
  let request ← selectRequest P call
  let signer ← signerOf P call request.params
  return (signer.domain, request.params.keyId, request.params.nonce, request.params.expires)

/-- A call that returns had its nonce accepted, and then read a clock by which the request has not expired. -/
structure Accepted (P : WbaPlatform) (skew : ℚ) (call : WbaCall) (trace : List WbaEvent) (entry : NonceEntry)
    (expires : ℤ) : Prop where
  selected : ∃ number, selectedSignature P call =
      .ok (entry.signerDomain, some entry.keyid, some entry.nonce, number) ∧ safeInteger number = some expires
  retainUntil : entry.retainUntil = dateOf ((expires + skew) * 1000)
  performed : ∃ first middle last now, trace = first ++ consumedEvent entry :: (middle ++ nowEvent now :: last) ∧
    ¬ (expires : ℚ) < (now : ℚ) / 1000 - skew

theorem accept_returned {call : WbaCall} {request : Selected} {signer : Signer} {verified : VerifiedDomain}
    (hpolicy : call.opts.consumeNonce = true) (hrequest : selectRequest P call = .ok request)
    (hsigner : signerOf P call request.params = .ok signer)
    (h : Prog.Performs (accept P skew call request signer) trace (.ret verified)) :
    ∃ entry expires, Accepted P skew call trace entry expires := by
  obtain ⟨directory, trace₁, _, rfl, hdirectory, h⟩ := Prog.Performs.returns_bind.mp h
  obtain ⟨_, trace₂, _, rfl, -, h⟩ := Prog.Performs.returns_bind.mp h
  obtain ⟨_, trace₃, _, rfl, -, h⟩ := Prog.Performs.returns_bind.mp h
  obtain ⟨_, trace₄, _, rfl, hconsume, h⟩ := Prog.Performs.returns_bind.mp h
  obtain ⟨_, trace₅, trace₆, rfl, hfresh, -⟩ := Prog.Performs.returns_bind.mp h
  obtain ⟨nonce, hnonce, rfl⟩ := consume_returned hpolicy hconsume
  obtain ⟨expires, now, rest, hexpires, rfl, hnow⟩ := fresh_returned hfresh
  refine ⟨nonceEntry skew request signer directory nonce, expires, ⟨request.params.expires, ?_, hexpires⟩, ?_, ?_⟩
  · simp [selectedSignature, hrequest, hsigner, bind_eq_ok, nonceEntry, hnonce,
      ← discover_returned hdirectory]
  · simp [nonceEntry, hexpires]
  · exact ⟨trace₁ ++ trace₂ ++ trace₃, [], rest ++ trace₆, now, by simp, hnow⟩

theorem Accepted.append_left {call : WbaCall} {entry : NonceEntry} {expires : ℤ}
    (h : Accepted P skew call trace entry expires) (before : List WbaEvent) :
    Accepted P skew call (before ++ trace) entry expires := by
  obtain ⟨first, middle, last, now, rfl, hnow⟩ := h.performed
  exact ⟨h.selected, h.retainUntil, before ++ first, middle, last, now, by simp, hnow⟩

theorem verifyWebBotAuthRequest_returned {call : WbaCall} {verified : VerifiedDomain}
    (hpolicy : call.opts.consumeNonce = true)
    (h : Prog.Performs (verifyWebBotAuthRequest P skew call) trace (.ret verified)) :
    ∃ entry expires, Accepted P skew call trace entry expires := by
  simp only [verifyWebBotAuthRequest, Prog.Performs.returns_ofExcept_bind] at h
  obtain ⟨_, -, request, hrequest, h⟩ := h
  obtain ⟨_, trace₁, _, rfl, -, h⟩ := Prog.Performs.returns_bind.mp h
  simp only [Prog.Performs.returns_ofExcept_bind] at h
  obtain ⟨_, -, _, -, h⟩ := h
  obtain ⟨_, trace₂, trace₃, rfl, -, h⟩ := Prog.Performs.returns_bind.mp h
  obtain ⟨signer, hsigner, h⟩ := Prog.Performs.returns_ofExcept_bind.mp h
  obtain ⟨entry, expires, haccepted⟩ := accept_returned hpolicy hrequest hsigner h
  exact ⟨entry, expires, (haccepted.append_left trace₂).append_left trace₁⟩

end Returns

/-! ## The window -/

/-- The last instant at which a request is valid is the last at which its entry must be held. -/
theorem not_isPast_of_valid {entry : NonceEntry} {expires skew now : ℤ}
    (hretain : entry.retainUntil = dateOf (((expires : ℚ) + skew) * 1000))
    (hnow : ¬ (expires : ℚ) < (now : ℚ) / 1000 - skew) : isPast entry now = false := by
  have hinstant : ((expires : ℚ) + skew) * 1000 = (((expires + skew) * 1000 : ℤ) : ℚ) := by
    push_cast
    rfl
  have hle : now ≤ (expires + skew) * 1000 := by
    have hle' : (now : ℚ) ≤ ((expires : ℚ) + skew) * 1000 := by linarith
    rw [hinstant] at hle'
    exact_mod_cast hle'
  rw [isPast, hretain, dateOf, hinstant]
  split
  · simp only [Rat.num_intCast, Rat.den_intCast, Nat.cast_one, Int.tdiv_one, Option.any_some, decide_eq_false_iff_not]
    omega
  · rfl

/-- The second acceptance of an entry comes too late for its call to return. -/
theorem no_second_acceptance {w : WbaWorld} {history : List WbaSettled} (h : Chronicle w history) {entry : NonceEntry}
    {expires skew now : ℤ} {i j k : ℕ} {s t u : WbaSettled} (hij : i < j) (hjk : j < k)
    (hs : history[i]? = some s) (ht : history[j]? = some t) (hu : history[k]? = some u)
    (hsevent : s.event = consumedEvent entry) (htevent : t.event = consumedEvent entry)
    (huevent : u.event = nowEvent now) (hretain : entry.retainUntil = dateOf (((expires : ℚ) + skew) * 1000)) :
    (expires : ℚ) < (now : ℚ) / 1000 - skew := by
  by_contra hvalid
  obtain ⟨hi, rfl⟩ := List.getElem?_eq_some_iff.mp hs
  obtain ⟨hj, rfl⟩ := List.getElem?_eq_some_iff.mp ht
  obtain ⟨hk, rfl⟩ := List.getElem?_eq_some_iff.mp hu
  have hpast := List.pairwise_iff_getElem.mp h.consumed_again i j hi hj hij entry entry hsevent htevent
    (sameNonce_refl entry)
  have hle := List.pairwise_iff_getElem.mp h.ordered j k hj hk hjk
  have hnow := h.now_eq _ (List.getElem_mem hk) now huevent
  have := isPast_mono hpast (hnow ▸ hle)
  simp [not_isPast_of_valid hretain hvalid] at this

/-- Two calls that return, with one signer domain, `keyid`, `nonce` and `expires`, are one call. -/
theorem verifyWebBotAuthRequest_accepts_once {P : WbaPlatform} {skew : ℤ} {acts : List (PoolAction WbaCall WbaChoice)}
    {w : WbaWorld} {p : Pool HttpError WbaEffect.Answer VerifiedDomain WbaWorld}
    (hrun : run (poolStep (verifyWebBotAuthRequest P skew) settle) acts ⟨w, []⟩ = some p)
    (hpolicy : ∀ call ∈ startedInputs acts, call.opts.consumeNonce = true) {m n : ℕ} {a b : WbaCall}
    {verified verified' : VerifiedDomain}
    (ha : (startedInputs acts)[m]? = some a) (hb : (startedInputs acts)[n]? = some b)
    (hm : p.calls[m]? = some (.ret verified)) (hn : p.calls[n]? = some (.ret verified'))
    (hsame : selectedSignature P a = selectedSignature P b) : m = n := by
  obtain ⟨history, hrecorded, hchronicle⟩ := pool_history (fun _ _ n _ _ _ _ h hsettle => h.settle n hsettle) acts
    (.empty (verifyWebBotAuthRequest P skew) w) (Chronicle.nil w) hrun
  rw [List.nil_append] at hrecorded
  obtain ⟨entry, expires, haccepted⟩ := verifyWebBotAuthRequest_returned
    (hpolicy a (List.mem_of_getElem? ha)) (hrecorded.performs m a _ ha hm)
  obtain ⟨entry', expires', haccepted'⟩ := verifyWebBotAuthRequest_returned
    (hpolicy b (List.mem_of_getElem? hb)) (hrecorded.performs n b _ hb hn)
  -- One signature makes one entry.
  obtain ⟨number, hselected, hexpires⟩ := haccepted.selected
  obtain ⟨number', hselected', hexpires'⟩ := haccepted'.selected
  rw [hselected, hselected'] at hsame
  simp only [Except.ok.injEq, Prod.mk.injEq, Option.some.injEq] at hsame
  obtain ⟨hdomain, hkeyid, hnonce, rfl⟩ := hsame
  obtain rfl : expires = expires' := Option.some.inj (hexpires.symm.trans hexpires')
  have hretain := haccepted.retainUntil.trans haccepted'.retainUntil.symm
  obtain rfl : entry = entry' := NonceEntry.ext hdomain hkeyid hnonce hretain
  obtain ⟨_, _, _, now, htrace, hnow⟩ := haccepted.performed
  obtain ⟨_, _, _, now', htrace', hnow'⟩ := haccepted'.performed
  obtain ⟨i, j, s, t, hij, hs, ht, hscall, hsevent, htevent⟩ := exists_positions htrace
  obtain ⟨i', j', s', t', hij', hs', ht', hscall', hsevent', htevent'⟩ := exists_positions htrace'
  rcases lt_trichotomy i i' with hlt | heq | hgt
  · exact absurd (no_second_acceptance hchronicle hlt hij' hs hs' ht' hsevent hsevent' htevent' haccepted.retainUntil)
      hnow'
  · subst heq
    rw [hs] at hs'
    obtain rfl := Option.some.inj hs'
    exact hscall.symm.trans hscall'
  · exact absurd (no_second_acceptance hchronicle hgt hij hs' hs ht hsevent' hsevent htevent haccepted.retainUntil)
      hnow

/-! One request, received twice. -/

def sampleX : String := "11qYAYKxCrfVS_7TyWQHOg7hcvPapiMlrwIaaPcHURo"

def sampleKid : String := "kPrK_qmxVWaYVA9wwBF6Iuo3vVzz7TxHCTwXBygrS4k"

def sampleXBytes : Bytes :=
  [215, 90, 152, 1, 130, 177, 10, 183, 213, 75, 254, 211, 201, 100, 7, 58, 14, 225, 114, 243, 218, 166, 35, 37, 175, 2,
    26, 104, 247, 7, 81, 26]

def sampleKidBytes : Bytes :=
  [144, 250, 202, 254, 169, 177, 85, 102, 152, 84, 15, 112, 192, 17, 122, 34, 234, 55, 189, 92, 243, 237, 60, 71, 9, 60,
    23, 7, 40, 43, 75, 137]

def sampleKey : Json := .obj [("kty", .str "OKP"), ("crv", .str "Ed25519"), ("x", .str sampleX), ("kid", .str sampleKid)]

/-- `{"keys":[...]}` with the sample key. -/
def sampleBody : Bytes :=
  [123, 34, 107, 101, 121, 115, 34, 58, 91, 123, 34, 107, 116, 121, 34, 58, 34, 79, 75, 80, 34, 44, 34, 99, 114, 118,
    34, 58, 34, 69, 100, 50, 53, 53, 49, 57, 34, 44, 34, 120, 34, 58, 34, 49, 49, 113, 89, 65, 89, 75, 120, 67, 114,
    102, 86, 83, 95, 55, 84, 121, 87, 81, 72, 79, 103, 55, 104, 99, 118, 80, 97, 112, 105, 77, 108, 114, 119, 73, 97,
    97, 80, 99, 72, 85, 82, 111, 34, 44, 34, 107, 105, 100, 34, 58, 34, 107, 80, 114, 75, 95, 113, 109, 120, 86, 87,
    97, 89, 86, 65, 57, 119, 119, 66, 70, 54, 73, 117, 111, 51, 118, 86, 122, 122, 55, 84, 120, 72, 67, 84, 119, 88,
    66, 121, 103, 114, 83, 52, 107, 34, 125, 93, 125]

def sampleBodyDigest : Bytes :=
  [225, 49, 5, 208, 234, 176, 154, 2, 78, 23, 232, 8, 0, 191, 98, 110, 100, 83, 93, 93, 243, 11, 125, 136, 184, 229, 178,
    56, 43, 153, 171, 130]

def sampleAgent : String := "sig1=\"https://agent.example\";type=directory"

def agentComponent : ComponentIdentifier :=
  .object "signature-agent" (some ⟨[("key", .str "sig1")], List.nodup_singleton _⟩)

def sampleParams (tag : String) (components : List ComponentIdentifier) (nonce : String) : SignatureParams where
  label := "sig1"
  components := components
  keyId := some sampleKid
  alg := some "ed25519"
  created := some (.finite 1700000000)
  expires := some (.finite 1700000060)
  nonce := some nonce
  tag := some tag
  parameters := none

def requestInput : String :=
  "sig1=(\"@authority\" \"signature-agent\";key=\"sig1\");keyid=\"kPrK_qmxVWaYVA9wwBF6Iuo3vVzz7TxHCTwXBygrS4k\";alg=\"ed25519\";created=1700000000;nonce=\"n1\";expires=1700000060;tag=\"web-bot-auth\""

def directoryInput : String :=
  "sig1=(\"@authority\";req \"content-type\" \"cache-control\" \"content-digest\");keyid=\"kPrK_qmxVWaYVA9wwBF6Iuo3vVzz7TxHCTwXBygrS4k\";alg=\"ed25519\";created=1700000000;nonce=\"n2\";expires=1700000060;tag=\"http-message-signatures-directory\""

def agentMember : Member := .item (.str "https://agent.example", [("type", .token "directory")])

def sampleParsedUrl (pathname : String) : ParsedUrl where
  protocol := "https:"
  hostname := "agent.example"
  port := ""
  pathname := pathname
  search := ""
  href := "https://agent.example" ++ pathname
  origin := "https://agent.example"
  username := ""
  password := ""
  hash := ""

def directoryPath : String := "/.well-known/http-message-signatures-directory"

def directoryType : String := "application/http-message-signatures-directory+json"

/-- The platform on the texts of the sample. -/
def sampleWbaPlatform : WbaPlatform where
  toHttpPlatform := { samplePlatform with
    parseDictionary := fun text => if text = sampleAgent then some [("sig1", agentMember)] else none }
  parseSignatureInput text :=
    if text = requestInput then .ok [sampleParams "web-bot-auth" [.name "@authority", agentComponent] "n1"]
    else if text = directoryInput then
      .ok [sampleParams "http-message-signatures-directory" directoryComponents "n2"]
    else .error (.other "unknown text")
  parseSignature text := if text = "sig1=:AQ==:" then .ok [("sig1", [1])] else .error (.other "unknown text")
  parseDictionaryField text :=
    if text = sampleAgent then .ok [("sig1", agentMember)] else .error (.other "unknown text")
  parseSha256ContentDigest text _ :=
    if text = "sha-256=:4TEF0OqwmgJOF+gIAL9ibmRTXV3zC32IuOWyOCuZq4I=:" then .ok sampleBodyDigest
    else .error (.other "unknown text")
  sha256 bytes := if bytes = sampleBody then sampleBodyDigest else []
  parseUrl text :=
    if text = "https://agent.example" then some (sampleParsedUrl "/")
    else if text = "https://agent.example" ++ directoryPath then some (sampleParsedUrl directoryPath)
    else none
  normalizeFQDN name := .ok name
  normalizedWbaIdentifier uri := .ok uri
  fromBase64Url text :=
    if text = sampleKid then .ok sampleKidBytes
    else if text = sampleX then .ok sampleXBytes
    else .error (.other "unknown text")
  toBase64Url bytes := if bytes = sampleKidBytes then sampleKid else if bytes = sampleXBytes then sampleX else ""
  mediaType headers := headers.lookup "content-type"
  directoryFreshness _ _ _ := .ok none
  parseJsonNoDuplicateMembers bytes := if bytes = sampleBody then some (.obj [("keys", .arr [sampleKey])]) else none
  discoveryFailure := id

def sampleCall : WbaCall where
  req := {
    method := "GET"
    url := ⟨"https:", "api.example", "", "/items", ""⟩
    headers := [("signature-agent", sampleAgent), ("signature-input", requestInput), ("signature", "sig1=:AQ==:")]
    requestUrl := "https://api.example/items"
    hasBody := false }
  opts := ⟨some "agent.example", false, none, [], true⟩

def sampleResponse : DirectoryResponse where
  redirected := false
  response := ⟨200, [("content-type", directoryType), ("cache-control", "no-store"),
    ("content-digest", "sha-256=:4TEF0OqwmgJOF+gIAL9ibmRTXV3zC32IuOWyOCuZq4I=:"), ("signature-input", directoryInput),
    ("signature", "sig1=:AQ==:")]⟩
  hasBody := true

def sampleVerified : VerifiedDomain := ⟨"agent.example", "https://agent.example/jwks.json", some sampleKey⟩

def sampleAnswers (accepts : Bool) : (e : WbaEffect) → Except HttpError e.Answer
  | .now => .ok 0
  | .readRequestBody => .ok []
  | .readDirectoryBody => .ok sampleBody
  | .fetchDirectory _ => .ok sampleResponse
  | .jwkThumbprint _ => .ok sampleKid
  | .verifyWithKey _ _ _ => .ok true
  | .verifyDomain _ | .refreshDomain _ => .ok sampleVerified
  | .assertFresh _ => .ok ()
  | .suppressRefresh _ _ => .ok false
  | .consumeNonce _ => .ok accepts

def sampleChoice (accepts : Bool) : WbaChoice := ⟨10, fun _ => false, sampleAnswers accepts, false⟩

/-- The first call has its nonce accepted, and the second has not. -/
def sampleCalls : List (PoolAction WbaCall WbaChoice) :=
  [.start sampleCall, .start sampleCall] ++ List.replicate 21 (.settle 0 (sampleChoice true)) ++
    List.replicate 18 (.settle 1 (sampleChoice false))

def sampleWorld : WbaWorld := ⟨1700000010000, [], []⟩

def returned : WbaProg VerifiedDomain → Option VerifiedDomain
  | .ret verified => some verified
  | _ => none

theorem returned_eq_some {p : WbaProg VerifiedDomain} {verified : VerifiedDomain} (h : returned p = some verified) :
    p = .ret verified := by
  cases p with
  | ret v => exact congrArg _ (Option.some.inj h)
  | throw x => cases h
  | call e k => cases h

theorem sampleCalls_accepted_once :
    ∃ p, run (poolStep (verifyWebBotAuthRequest sampleWbaPlatform ((5 : ℤ) : ℚ)) settle) sampleCalls ⟨sampleWorld, []⟩ =
        some p ∧ p.calls[0]? = some (.ret sampleVerified) ∧ ∀ verified, p.calls[1]? ≠ some (.ret verified) := by
  have hfirst : ((run (poolStep (verifyWebBotAuthRequest sampleWbaPlatform ((5 : ℤ) : ℚ)) settle) sampleCalls
      ⟨sampleWorld, []⟩).map fun p => p.calls[0]?.bind returned) = some (some sampleVerified) := by decide +kernel
  obtain ⟨p, hp, hreturned⟩ := Option.map_eq_some_iff.mp hfirst
  obtain ⟨q, hq, hret⟩ := Option.bind_eq_some_iff.mp hreturned
  rw [returned_eq_some hret] at hq
  refine ⟨p, hp, hq, fun verified hsecond => ?_⟩
  have hone := verifyWebBotAuthRequest_accepts_once hp (by decide) (m := 0) (n := 1) rfl rfl hq hsecond rfl
  cases hone

end Dnsid.WebBotAuth
