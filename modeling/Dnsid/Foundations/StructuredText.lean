import Dnsid.Foundations.PrefixCode

/-! # Texts of structured fields

A quoted string ends at its closing quote, and a parameter is `;key` or `;key=value`. Where the symbols that may
follow a parameter (`stop`) occur in no value outside quotes, a sequence of parameters has one reading.
-/
namespace Dnsid.Foundations
set_option autoImplicit false

/-! ## Quoted strings -/

def escapeQuoted (c : Char) : List Char := if c = '"' ∨ c = '\\' then ['\\', c] else [c]

def quotedText (text : List Char) : List Char := '"' :: (text.flatMap escapeQuoted ++ ['"'])

theorem escapeQuoted_append_inj {c d : Char} {r s : List Char} (h : escapeQuoted c ++ r = escapeQuoted d ++ s) :
    c = d ∧ r = s := by
  unfold escapeQuoted at h
  split at h
  next =>
    split at h
    next => simpa using h
    next hd => exact absurd (List.cons.inj h).1.symm fun heq => hd (.inr heq)
  next hc =>
    split at h
    next => exact absurd (List.cons.inj h).1 fun heq => hc (.inr heq)
    next => simpa using h

theorem quote_ne_escapeQuoted (c : Char) (r s : List Char) : '"' :: r ≠ escapeQuoted c ++ s := by
  unfold escapeQuoted
  split
  next => simp
  next hplain =>
    intro h
    exact hplain (.inl (List.cons.inj h).1.symm)

theorem quotedText_append_inj {s t x y : List Char} (h : quotedText s ++ x = quotedText t ++ y) : s = t ∧ x = y := by
  simp only [quotedText, List.cons_append, List.append_assoc, List.nil_append, List.cons.injEq, true_and] at h
  obtain ⟨hst, hxy⟩ := flatMap_append_inj escapeQuoted (fun _ => True)
    (fun c _ d r s _ _ => escapeQuoted_append_inj) (fun _ _ => trivial) trivial trivial
    (fun c r => quote_ne_escapeQuoted c x r) (fun c r => quote_ne_escapeQuoted c y r) h
  exact ⟨hst, (List.cons.inj hxy).2⟩

theorem mem_escapeQuoted {a c : Char} (h : a ∈ escapeQuoted c) : a = '\\' ∨ a = c := by
  unfold escapeQuoted at h
  split at h
  · simpa using h
  · exact .inr (by simpa using h)

theorem mem_quotedText {a : Char} {text : List Char} (h : a ∈ quotedText text) : a = '"' ∨ a = '\\' ∨ a ∈ text := by
  simp only [quotedText, List.mem_cons, List.mem_append, List.mem_flatMap, List.not_mem_nil, or_false] at h
  rcases h with h | ⟨c, hc, ha⟩ | h
  · exact .inl h
  · rcases mem_escapeQuoted ha with ha | rfl
    · exact .inr (.inl ha)
    · exact .inr (.inr hc)
  · exact .inl h

/-! ## Parameters -/

def isKeyChar (c : Char) : Bool := c.isLower || c.isDigit || c = '_' || c = '-' || c = '.' || c = '*'

section Parameters
variable (stop : Char → Bool)

inductive ValueText where
  | quoted (text : List Char)
  | plain (text : List Char) (free : ∀ c ∈ text, stop c = false ∧ c ≠ '"')

structure ParameterText where
  key : List Char
  keyChars : ∀ c ∈ key, isKeyChar c = true
  value : Option (ValueText stop)

variable {stop}

def ValueText.text : ValueText stop → List Char
  | .quoted text => quotedText text
  | .plain text _ => text

def valueSuffix : Option (ValueText stop) → List Char
  | none => []
  | some value => '=' :: value.text

def ParameterText.text (parameter : ParameterText stop) : List Char :=
  ';' :: (parameter.key ++ valueSuffix parameter.value)

/-- What may follow a parameter. -/
def Stopped (stop : Char → Bool) (rest : List Char) : Prop := ∀ c ∈ rest.head?, stop c = true

variable (hquote : stop '"' = false) (hequals : stop '=' = false) (hkey : ∀ c, isKeyChar c = true → stop c = false)
include hquote

theorem ValueText.append_inj {v w : ValueText stop} {x y : List Char} (hx : Stopped stop x) (hy : Stopped stop y)
    (h : v.text ++ x = w.text ++ y) : v = w ∧ x = y := by
  -- Text outside quotes starts with no quote, and what follows it neither.
  have hmixed : ∀ {text r s t : List Char}, (∀ c ∈ text, stop c = false ∧ c ≠ '"') → Stopped stop r →
      quotedText t ++ s ≠ text ++ r := by
    intro text r s t hfree hr h
    cases text with
    | nil =>
      have := hr '"' (by rw [← List.nil_append r, ← h]; rfl)
      simp [hquote] at this
    | cons c text => exact (hfree c List.mem_cons_self).2 (List.cons.inj h).1.symm
  cases v with
  | quoted s =>
    cases w with
    | quoted t =>
      obtain ⟨rfl, rfl⟩ := quotedText_append_inj h
      exact ⟨rfl, rfl⟩
    | plain t ht => exact absurd h (hmixed ht hy)
  | plain s hs =>
    cases w with
    | quoted t => exact absurd h.symm (hmixed hs hx)
    | plain t ht =>
      have hst := append_inj_of_stops (p := fun c => !stop c) (fun c hc => by simp [(hs c hc).1])
        (fun c hc => by simp [(ht c hc).1]) (fun c hc => by simp [hx c hc]) (fun c hc => by simp [hy c hc]) h
      obtain ⟨rfl, rfl⟩ := hst
      exact ⟨rfl, rfl⟩

include hequals hkey

theorem ParameterText.append_inj {a b : ParameterText stop} {x y : List Char} (hx : Stopped stop x)
    (hy : Stopped stop y) (h : a.text ++ x = b.text ++ y) : a = b ∧ x = y := by
  simp only [ParameterText.text, List.cons_append, List.append_assoc, List.cons.injEq, true_and] at h
  have hends : ∀ {v : Option (ValueText stop)} {r : List Char}, Stopped stop r →
      ∀ c ∈ (valueSuffix v ++ r).head?, isKeyChar c = false := by
    intro v r hr c hc
    cases v with
    | none =>
      by_contra hkeyChar
      have := hkey c (by simpa using hkeyChar)
      simp [hr c hc] at this
    | some v =>
      obtain rfl : '=' = c := by simpa [valueSuffix] using hc
      decide
  obtain ⟨hkeys, hvalues⟩ := append_inj_of_stops a.keyChars b.keyChars (hends hx) (hends hy) h
  have hstop : ∀ {r s : List Char}, Stopped stop r → r ≠ '=' :: s := by
    rintro r s hr rfl
    have := hr '=' rfl
    simp [hequals] at this
  obtain ⟨key, keyChars, v⟩ := a
  obtain ⟨key', keyChars', w⟩ := b
  obtain rfl : key = key' := hkeys
  cases v with
  | none =>
    cases w with
    | none => exact ⟨rfl, hvalues⟩
    | some w => exact absurd hvalues (hstop hx)
  | some v =>
    cases w with
    | none => exact absurd hvalues.symm (hstop hy)
    | some w =>
      obtain ⟨rfl, rfl⟩ := ValueText.append_inj hquote hx hy (List.cons.inj hvalues).2
      exact ⟨rfl, rfl⟩

/-- A sequence of parameters has one reading before a text that starts with no further one. -/
theorem parameterTexts_append_inj (hsemicolon : stop ';' = true) {as bs : List (ParameterText stop)} {x y : List Char}
    (hx : Stopped stop x) (hy : Stopped stop y) (hx' : x.head? ≠ some ';') (hy' : y.head? ≠ some ';')
    (h : as.flatMap ParameterText.text ++ x = bs.flatMap ParameterText.text ++ y) : as = bs ∧ x = y := by
  have hend : ∀ {r : List Char}, r.head? ≠ some ';' → ∀ (a : ParameterText stop) s, r ≠ a.text ++ s := by
    rintro r hr a s rfl
    exact hr rfl
  refine flatMap_append_inj ParameterText.text (Stopped stop) (fun a _ b r s hr hs heq => ?_) (fun a r c hc => ?_)
    hx hy (hend hx') (hend hy') h
  · exact ParameterText.append_inj hquote hequals hkey hr hs heq
  · obtain rfl : ';' = c := by simpa [ParameterText.text] using hc
    exact hsemicolon

end Parameters

end Dnsid.Foundations
