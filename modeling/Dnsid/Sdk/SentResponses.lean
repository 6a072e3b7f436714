import Dnsid.Sdk.ResponseSigning

/-! # What the response-signing middleware sends

One response goes out at most. It is an empty 500, or it has the body that was signed; its status and header fields are
the signed ones as long as the handler does not change them while the signature is made. Nothing stops the handler from
that (`lateHeader_sent_unsigned`).
-/
namespace Dnsid.Sdk
open Dnsid.Foundations
set_option autoImplicit false

section Sent
variable {Request : Type} (P : NodePlatform Request)

/-! ## What is to hold -/

/-- The bytes that a chunk adds. -/
def Chunk.added (chunk : Chunk) : List Bytes :=
  match chunk.toBytes P with
  | some (.ok content) => [content]
  | _ => []

/-- The chunks written up to `end`. -/
def written : List Action → List Bytes
  | [] => []
  | .write chunk :: acts => chunk.added P ++ written acts
  | .endWith chunk :: _ => chunk.added P
  | _ :: acts => written acts

/-- The body of a response with this status: none for HEAD and where the status has no content. -/
def content (status : ℤ) (chunks : List Bytes) : Option Bytes :=
  if noContent P status then none else some chunks.flatten

/-- The value that the signed response gives the field. -/
def signedValue (signed : Signed) (name : String) : Option (List String) :=
  if name ∈ signedFields then (signed name).map fun value => [value] else none

def Sent.Empty500 (sent : Sent) : Prop := sent.head.status = 500 ∧ sent.head.headers.keys = [] ∧ sent.body = none

/-- Status, header fields and body that were passed, and the fields of the signed response. -/
structure Sent.Carries (sent : Sent) (passed : Passed Request) (signed : Signed) : Prop where
  status : sent.head.status = passed.status
  headers : ∀ name, sent.head.headers.lookup name = (signedValue signed name <|> passed.headers.lookup name)
  body : sent.body = passed.body

/-- The response is the one that was signed, with the chunks written up to `end`. -/
def Sent.IsSigned (sent : Sent) (acts : List Action) (e : Exchange Request) : Prop :=
  ∃ passed signed, e.signing = .settled passed (.ok signed) ∧ sent.Carries passed signed ∧
    passed.body = content P passed.status (written P acts) ∧ (written P acts).flatten.length ≤ maxBufferedBytes

/-- After the run `acts`. -/
structure OnlySigned (acts : List Action) (e : Exchange Request) : Prop where
  once : e.sent.length ≤ 1
  signed : ∀ sent ∈ e.sent, sent.Empty500 ∨ sent.IsSigned P acts e

/-- The call changes the status or the header fields. -/
def Action.rewrites : Action → Bool
  | .setHeader _ _ | .removeHeader _ | .setStatusCode _ | .writeHead _ _ _ => true
  | _ => false

/-- The response has ended and is being signed. -/
def Exchange.awaitsSignature (e : Exchange Request) : Bool :=
  match e.signing with
  | .pending _ => !e.done
  | _ => false

end Sent

/-! ## The chunks -/

section Chunks
variable {Request : Type} {P : NodePlatform Request} {acts : List Action}

def Ended (acts : List Action) : Prop := ∃ chunk, Action.endWith chunk ∈ acts

theorem written_append_of_ended (h : Ended acts) (more : List Action) : written P (acts ++ more) = written P acts := by
  induction acts with
  | nil =>
    obtain ⟨chunk, hmem⟩ := h
    cases hmem
  | cons a acts ih =>
    have hrest : (∀ chunk, a ≠ .endWith chunk) → Ended acts := by
      intro hne
      obtain ⟨chunk, hmem⟩ := h
      rcases List.mem_cons.mp hmem with heq | hmem
      · exact absurd heq.symm (hne chunk)
      · exact ⟨chunk, hmem⟩
    cases a with
    | endWith chunk => rfl
    | write chunk =>
      rw [List.cons_append, written, written, ih (hrest (by rintro chunk ⟨⟩))]
    | setHeader _ _ | removeHeader _ | setStatusCode _ | writeHead _ _ _ | flushHeaders | settle _ =>
      exact ih (hrest (by rintro chunk ⟨⟩))

theorem written_append (h : ¬ Ended acts) (more : List Action) :
    written P (acts ++ more) = written P acts ++ written P more := by
  induction acts with
  | nil => rfl
  | cons a acts ih =>
    have hrest : ¬ Ended acts := by
      rintro ⟨chunk, hmem⟩
      exact h ⟨chunk, List.mem_cons_of_mem _ hmem⟩
    cases a with
    | endWith chunk => exact absurd ⟨chunk, List.mem_cons_self⟩ h
    | write chunk => rw [List.cons_append, written, written, ih hrest, List.append_assoc]
    | setHeader _ _ | removeHeader _ | setStatusCode _ | writeHead _ _ _ | flushHeaders | settle _ => exact ih hrest

theorem Ended.append (h : Ended acts) (more : List Action) : Ended (acts ++ more) := by
  obtain ⟨chunk, hmem⟩ := h
  exact ⟨chunk, List.mem_append_left _ hmem⟩

end Chunks

/-! ## Releasing -/

section Release
variable {Request : Type} {P : NodePlatform Request} {e : Exchange Request}

theorem foldlM_removeHeader (names : List String) (hhead : e.head = none) :
    names.foldlM (fun e name => removeHeader name e) e =
      some { e with headers := names.foldl (fun fields name => fields.erase name) e.headers } := by
  induction names generalizing e with
  | nil => rfl
  | cons name names ih =>
    have hremoved : removeHeader name e = some { e with headers := e.headers.erase name } := by
      rw [removeHeader, if_neg (by simp [hhead])]
    rw [List.foldlM_cons, hremoved]
    exact ih (e := { e with headers := e.headers.erase name }) hhead

theorem not_mem_foldl_erase {name : String} {names : List String} {fields : Fields} (h : name ∈ names ∨ name ∉ fields) :
    name ∉ names.foldl (fun fields name => fields.erase name) fields := by
  induction names generalizing fields with
  | nil =>
    rcases h with h | h
    · cases h
    · exact h
  | cons first names ih =>
    apply ih
    rw [AList.mem_erase]
    rcases h with h | h
    · rcases List.mem_cons.mp h with rfl | h
      · exact .inr fun hmem => hmem.1 rfl
      · exact .inl h
    · exact .inr fun hmem => h hmem.2

/-- No header field is left. -/
theorem keys_removed (fields : Fields) : (fields.keys.foldl (fun fields name => fields.erase name) fields).keys = [] := by
  apply List.eq_nil_iff_forall_not_mem.mpr
  intro name hmem
  refine not_mem_foldl_erase ?_ (AList.mem_keys.mpr hmem)
  by_cases hname : name ∈ fields.keys
  · exact .inl hname
  · exact .inr hname

/-- A response that is sent has a valid status, and the status and header fields of the moment. -/
theorem send_sent (body : Option Bytes) (hhead : e.head = none) :
    (send P body e).done = true ∧ (send P body e).signing = e.signing ∧
      ((send P body e).sent = e.sent ∨ (100 ≤ e.statusCode ∧ e.statusCode ≤ 999 ∧ ∃ head : Head,
        head.status = e.statusCode ∧ head.headers = e.headers ∧
          (send P body e).sent = e.sent ++ [⟨head, transmitted P head body⟩])) := by
  unfold send endResponse writeHead
  simp only [hhead, Option.isSome_none, Bool.false_eq_true, false_or, if_false]
  split_ifs with hstatus
  · exact ⟨rfl, rfl, .inl rfl⟩
  · obtain ⟨hlow, hhigh⟩ := not_or.mp hstatus
    exact ⟨rfl, rfl, .inr ⟨by omega, by omega, _, rfl, rfl, rfl⟩⟩

/-- An empty 500 is sent. -/
theorem fail_sent (hdone : e.done = false) (hhead : e.head = none) (hsent : e.sent = []) :
    (fail P e).done = true ∧ (fail P e).sent.length ≤ 1 ∧ ∀ sent ∈ (fail P e).sent, sent.Empty500 := by
  unfold fail
  rw [if_neg (by simp [hdone]), foldlM_removeHeader _ hhead]
  simp only
  obtain ⟨hdone', -, hcases⟩ := send_sent (P := P) (e := { e with
    headers := e.headers.keys.foldl (fun fields name => fields.erase name) e.headers, statusCode := 500 }) none hhead
  refine ⟨hdone', ?_⟩
  obtain heq | ⟨-, -, head, hstatus, hheaders, heq⟩ := hcases
  · rw [heq, hsent]
    exact ⟨Nat.zero_le 1, by rintro sent ⟨⟩⟩
  · rw [heq, hsent]
    refine ⟨le_rfl, fun sent hmem => ?_⟩
    rw [List.mem_singleton.mp hmem]
    refine ⟨hstatus, ?_, ?_⟩
    · rw [hheaders]
      exact keys_removed e.headers
    · unfold transmitted
      split_ifs <;> rfl

theorem fail_of_done (hdone : e.done = true) : fail P e = e := by
  unfold fail
  rw [if_pos hdone]

end Release

/-! ## Setting header fields -/

section Fields
variable {Request : Type} {P : NodePlatform Request} {e e' : Exchange Request}

/-- Nothing but status and header fields differs. -/
structure Redressed (e e' : Exchange Request) : Prop where
  chunks : e'.chunks = e.chunks
  size : e'.size = e.size
  overflow : e'.overflow = e.overflow
  ended : e'.ended = e.ended
  done : e'.done = e.done
  releasing : e'.releasing = e.releasing
  signing : e'.signing = e.signing
  sent : e'.sent = e.sent
  head : e.releasing = false → e'.head = e.head

theorem Redressed.refl (e : Exchange Request) : Redressed e e := ⟨rfl, rfl, rfl, rfl, rfl, rfl, rfl, rfl, fun _ => rfl⟩

theorem Redressed.trans {e'' : Exchange Request} (h : Redressed e e') (h' : Redressed e' e'') : Redressed e e'' := by
  refine ⟨h'.chunks.trans h.chunks, h'.size.trans h.size, h'.overflow.trans h.overflow, h'.ended.trans h.ended,
    h'.done.trans h.done, h'.releasing.trans h.releasing, h'.signing.trans h.signing, h'.sent.trans h.sent, fun hopen => ?_⟩
  rw [h'.head (h.releasing.trans hopen), h.head hopen]

theorem setHeader_eq_some {name : String} {value : List String} (h : setHeader P name value e = some e') :
    e' = { e with headers := e.headers.insert name value } := by
  unfold setHeader at h
  split_ifs at h
  exact (Option.some.inj h).symm

theorem redressed_setHeader (name : String) (value : List String) :
    Redressed e ((setHeader P name value e).getD e) := by
  cases h : setHeader P name value e with
  | none => exact .refl e
  | some e' =>
    rw [setHeader_eq_some h]
    exact ⟨rfl, rfl, rfl, rfl, rfl, rfl, rfl, rfl, fun _ => rfl⟩

theorem redressed_removeHeader (name : String) : Redressed e ((removeHeader name e).getD e) := by
  unfold removeHeader
  split_ifs
  · exact .refl e
  · exact ⟨rfl, rfl, rfl, rfl, rfl, rfl, rfl, rfl, fun _ => rfl⟩

theorem redressed_setEach (items : List (String × List String)) : Redressed e (setEach P items e).1 := by
  induction items generalizing e with
  | nil => exact .refl e
  | cons item items ih =>
    obtain ⟨name, value⟩ := item
    unfold setEach
    split
    next => exact .refl e
    next e₁ h =>
      rw [setHeader_eq_some h]
      refine Redressed.trans ?_ ih
      exact ⟨rfl, rfl, rfl, rfl, rfl, rfl, rfl, rfl, fun _ => rfl⟩

theorem redressed_setHeaders (argument : HeaderArgument) : Redressed e (setHeaders P e argument).1 := by
  cases argument with
  | absent => exact .refl e
  | flat items => exact redressed_setEach _
  | entries entries => exact redressed_setEach _

theorem redressed_writeHead (status : ℤ) (message : Option String) (headers : HeaderArgument) :
    Redressed e (handlerWriteHead P status message headers e) := by
  unfold handlerWriteHead
  split_ifs with hreleasing
  · unfold writeHead
    split_ifs
    · exact .refl e
    · refine ⟨rfl, rfl, rfl, rfl, rfl, rfl, rfl, rfl, fun hopen => ?_⟩
      rw [hopen] at hreleasing
      cases hreleasing
  · refine Redressed.trans ?_ (redressed_setHeaders headers)
    exact ⟨rfl, rfl, rfl, rfl, rfl, rfl, rfl, rfl, fun _ => rfl⟩

/-- The status stays; a field that is set once has its new value, the others stay. -/
theorem setEach_lookup {items : List (String × List String)} (hdistinct : (items.map Prod.fst).Nodup)
    (h : setEach P items e = (e', true)) :
    e'.statusCode = e.statusCode ∧ ∀ name, e'.headers.lookup name = (items.lookup name <|> e.headers.lookup name) := by
  induction items generalizing e with
  | nil =>
    obtain ⟨rfl, -⟩ := Prod.mk.inj h
    exact ⟨rfl, fun _ => rfl⟩
  | cons item items ih =>
    obtain ⟨name, value⟩ := item
    obtain ⟨hnew, hdistinct⟩ := List.nodup_cons.mp hdistinct
    unfold setEach at h
    split at h
    next => cases h
    next e₁ hset =>
      obtain ⟨hstatus, hlookup⟩ := ih hdistinct h
      rw [setHeader_eq_some hset] at hstatus hlookup
      refine ⟨hstatus, fun k => ?_⟩
      rw [hlookup k]
      by_cases hk : k = name
      · subst hk
        have hnone : items.lookup k = none := by
          rw [List.lookup_eq_none_iff]
          intro pair hpair
          have hne : k ≠ pair.1 := fun heq => hnew (List.mem_map.mpr ⟨pair, hpair, heq.symm⟩)
          simpa using hne
        rw [hnone]
        show AList.lookup k (AList.insert k value e.headers) = _
        rw [AList.lookup_insert]
        simp
      · show (items.lookup k <|> AList.lookup k (AList.insert name value e.headers)) = _
        have hkey : (k == name) = false := by simpa using hk
        rw [AList.lookup_insert_ne hk, List.lookup_cons, hkey]

theorem signedValues_distinct (signed : Signed) : ((signedValues signed).map Prod.fst).Nodup := by
  have hsub : ((signedValues signed).map Prod.fst).Sublist signedFields := by
    unfold signedValues
    induction signedFields with
    | nil => exact .slnil
    | cons name names ih =>
      rw [List.filterMap_cons]
      cases signed name with
      | none => exact ih.cons name
      | some value => exact ih.cons_cons name
  exact hsub.nodup (by decide)

theorem lookup_signedValues (signed : Signed) (name : String) :
    (signedValues signed).lookup name = signedValue signed name := by
  unfold signedValues signedValue
  induction signedFields with
  | nil => rfl
  | cons first names ih =>
    rw [List.filterMap_cons]
    by_cases hname : name = first
    · subst hname
      cases hvalue : signed name with
      | none =>
        rw [hvalue] at ih
        simp only [Option.map_none, ih]
        simp
      | some value => simp
    · cases hvalue : signed first with
      | none =>
        simp only [Option.map_none, ih]
        simp [hname]
      | some value =>
        have hkey : (name == first) = false := by simpa using hname
        simp only [Option.map_some, List.lookup_cons, hkey, ih]
        simp [hname]

end Fields

/-! ## Buffering -/

section Buffering
variable {Request : Type} {P : NodePlatform Request} {e e' : Exchange Request} {chunks : List Bytes}

/-- The buffer holds what was written, or it was given up. -/
structure Buffered (chunks : List Bytes) (e : Exchange Request) : Prop where
  exceeds : e.overflow = true → maxBufferedBytes < e.size
  fits : e.overflow = false → e.chunks = chunks ∧ e.size = chunks.flatten.length ∧ e.size ≤ maxBufferedBytes

/-- Nothing but the buffer differs. -/
def Rebuffered (e e' : Exchange Request) : Prop :=
  ∃ size overflow chunks, e' = { e with size, overflow, chunks }

theorem collect_buffered {chunk : Chunk} (h : Buffered chunks e) (hcollect : collect P chunk e = some e') :
    Buffered (chunks ++ chunk.added P) e' ∧ Rebuffered e e' := by
  unfold collect at hcollect
  unfold Chunk.added
  split at hcollect
  next hbytes =>
    obtain rfl := Option.some.inj hcollect
    simp only [hbytes, List.append_nil]
    exact ⟨h, e.size, e.overflow, e.chunks, rfl⟩
  next => cases hcollect
  next bytes hbytes =>
    simp only [hbytes]
    simp only at hcollect
    split_ifs at hcollect with hover
    · obtain rfl := Option.some.inj hcollect
      exact ⟨⟨fun _ => hover, by rintro ⟨⟩⟩, _, _, _, rfl⟩
    · obtain rfl := Option.some.inj hcollect
      refine ⟨⟨fun hoverflow => ?_, fun hfits => ?_⟩, _, _, _, rfl⟩
      · -- Once the bound is passed, the size stays above it.
        have := h.exceeds hoverflow
        show maxBufferedBytes < e.size + bytes.length
        omega
      · obtain ⟨hchunks, hsize, -⟩ := h.fits hfits
        refine ⟨by rw [hchunks], ?_, not_lt.mp hover⟩
        rw [hsize]
        simp

theorem added_of_collect_none {chunk : Chunk} (h : collect P chunk e = none) : chunk.added P = [] := by
  unfold collect at h
  unfold Chunk.added
  split at h
  next => cases h
  next message hbytes => rw [hbytes]
  next =>
    simp only at h
    split_ifs at h

end Buffering

/-! ## Every step -/

section Steps
variable {Request : Type} {P : NodePlatform Request} {e e' : Exchange Request} {acts : List Action}

/-- Nothing has been sent. -/
structure Open (e : Exchange Request) : Prop where
  done : e.done = false
  head : e.head = none
  sent : e.sent = []
  releasing : e.releasing = false

/-- Status and header fields are still those that were passed. -/
structure PassedFrom (P : NodePlatform Request) (acts : List Action) (e : Exchange Request) (passed : Passed Request) :
    Prop where
  ended : Ended acts
  status : passed.status = e.statusCode % 65536
  range : 200 ≤ passed.status ∧ passed.status ≤ 599
  headers : passed.headers = e.headers
  body : passed.body = content P e.statusCode (written P acts)
  bound : (written P acts).flatten.length ≤ maxBufferedBytes

/-- Where the exchange stands after `acts`. -/
inductive Stage (P : NodePlatform Request) (acts : List Action) (e : Exchange Request) : Prop
  | buffering : Open e → e.ended = false → e.signing = .idle → ¬ Ended acts → Buffered (written P acts) e → Stage P acts e
  /-- `end` threw. -/
  | stuck : Open e → e.ended = true → e.signing = .idle → Stage P acts e
  | signing (passed : Passed Request) : Open e → e.ended = true → e.signing = .pending passed →
      PassedFrom P acts e passed → Stage P acts e
  | done : e.done = true → e.sent.length ≤ 1 →
      (∀ sent ∈ e.sent, sent.Empty500 ∨ (Ended acts ∧ sent.IsSigned P acts e)) → Stage P acts e

theorem Open.failed (h : Open e) : Stage P acts (fail P e) := by
  obtain ⟨hdone, honce, hempty⟩ := fail_sent (P := P) h.done h.head h.sent
  exact .done hdone honce fun sent hmem => .inl (hempty sent hmem)

theorem Open.redressed (h : Open e) (hredressed : Redressed e e') : Open e' :=
  ⟨hredressed.done.trans h.done, (hredressed.head h.releasing).trans h.head, hredressed.sent.trans h.sent,
    hredressed.releasing.trans h.releasing⟩

theorem Sent.IsSigned.congr {sent : Sent} (h : sent.IsSigned P acts e) (hended : Ended acts) (hsigning : e'.signing = e.signing)
    (more : List Action) : sent.IsSigned P (acts ++ more) e' := by
  obtain ⟨passed, signed, hsettled, hcarries, hbody, hbound⟩ := h
  refine ⟨passed, signed, hsigning.trans hsettled, hcarries, ?_⟩
  rw [written_append_of_ended hended]
  exact ⟨hbody, hbound⟩

/-- Once all is done, a step that sends nothing leaves it at that. -/
theorem Stage.done_congr (hdone : e'.done = true) (honce : e.sent.length ≤ 1)
    (hsent : ∀ sent ∈ e.sent, sent.Empty500 ∨ (Ended acts ∧ sent.IsSigned P acts e)) (hsame : e'.sent = e.sent)
    (hsigning : e'.signing = e.signing) (a : Action) : Stage P (acts ++ [a]) e' := by
  refine .done hdone (by rw [hsame]; exact honce) fun sent hmem => ?_
  rw [hsame] at hmem
  obtain hempty | ⟨hended, hsigned⟩ := hsent sent hmem
  · exact .inl hempty
  · exact .inr ⟨hended.append [a], hsigned.congr hended hsigning [a]⟩

/-- A call that changes status or header fields comes before `end`, or too late. -/
theorem Stage.redressed (h : Stage P acts e) (hredressed : Redressed e e') {a : Action} (hrewrites : a.rewrites = true)
    (hcalm : e.awaitsSignature = false) : Stage P (acts ++ [a]) e' := by
  have hnothing : ¬ Ended [a] ∧ written P [a] = [] := by
    refine ⟨?_, ?_⟩
    · rintro ⟨chunk, hmem⟩
      rw [← List.mem_singleton.mp hmem] at hrewrites
      cases hrewrites
    · cases a with
      | setHeader _ _ | removeHeader _ | setStatusCode _ | writeHead _ _ _ => rfl
      | write _ | endWith _ | flushHeaders | settle _ => cases hrewrites
  cases h with
  | buffering hopen hended hidle hno hbuffered =>
    refine .buffering (hopen.redressed hredressed) (hredressed.ended.trans hended) (hredressed.signing.trans hidle) ?_ ?_
    · rintro ⟨chunk, hmem⟩
      rcases List.mem_append.mp hmem with hmem | hmem
      · exact hno ⟨chunk, hmem⟩
      · exact hnothing.1 ⟨chunk, hmem⟩
    · rw [written_append hno, hnothing.2, List.append_nil]
      refine ⟨fun hover => ?_, fun hfits => ?_⟩
      · rw [hredressed.size]
        exact hbuffered.exceeds (hredressed.overflow.symm.trans hover)
      · rw [hredressed.chunks, hredressed.size]
        exact hbuffered.fits (hredressed.overflow.symm.trans hfits)
  | stuck hopen hended hidle =>
    exact .stuck (hopen.redressed hredressed) (hredressed.ended.trans hended) (hredressed.signing.trans hidle)
  | signing passed hopen hended hpending hpassed =>
    unfold Exchange.awaitsSignature at hcalm
    rw [hpending, hopen.done] at hcalm
    cases hcalm
  | done hdone honce hsent =>
    exact Stage.done_congr (hredressed.done.trans hdone) honce hsent hredressed.sent hredressed.signing a

theorem PassedFrom.append {passed' : Passed Request} (h : PassedFrom P acts e passed') (more : List Action) :
    PassedFrom P (acts ++ more) e passed' := by
  refine ⟨h.ended.append more, h.status, h.range, h.headers, ?_, ?_⟩
  · rw [written_append_of_ended h.ended]
    exact h.body
  · rw [written_append_of_ended h.ended]
    exact h.bound

/-- A step that does nothing, once the response has ended or was sent. -/
theorem Stage.same (h : Stage P acts e) (hended : (e.ended || e.done) = true) (a : Action) : Stage P (acts ++ [a]) e := by
  cases h with
  | buffering hopen hended' =>
    rw [hended', hopen.done] at hended
    cases hended
  | stuck hopen hended hidle => exact .stuck hopen hended hidle
  | signing passed hopen hended hpending hpassed =>
    exact .signing passed hopen hended hpending (hpassed.append [a])
  | done hdone honce hsent => exact Stage.done_congr hdone honce hsent rfl rfl a

theorem Stage.write (h : Stage P acts e) (chunk : Chunk) : Stage P (acts ++ [.write chunk]) (handlerWrite P chunk e) := by
  unfold handlerWrite
  split_ifs with hended
  · exact h.same hended _
  · have hnot : e.ended = false ∧ e.done = false := by simpa using hended
    cases h with
    | buffering hopen hended hidle hno hbuffered =>
      have hno' : ¬ Ended (acts ++ [.write chunk]) := by
        rintro ⟨chunk', hmem⟩
        rcases List.mem_append.mp hmem with hmem | hmem
        · exact hno ⟨chunk', hmem⟩
        · cases List.mem_singleton.mp hmem
      have hwritten : written P (acts ++ [.write chunk]) = written P acts ++ chunk.added P := by
        rw [written_append hno, written, written, List.append_nil]
      cases hcollect : collect P chunk e with
      | none =>
        refine .buffering hopen hended hidle hno' ?_
        rw [hwritten, added_of_collect_none hcollect, List.append_nil]
        exact hbuffered
      | some e' =>
        obtain ⟨hbuffered', size, overflow, chunks, rfl⟩ := collect_buffered hbuffered hcollect
        refine .buffering ⟨hopen.done, hopen.head, hopen.sent, hopen.releasing⟩ hended hidle hno' ?_
        rw [hwritten]
        exact hbuffered'
    | stuck hopen hended => rw [hended] at hnot; cases hnot.1
    | signing passed hopen hended => rw [hended] at hnot; cases hnot.1
    | done hdone => rw [hdone] at hnot; cases hnot.2

/-- What is passed is the status, the header fields and the buffer of the moment. -/
theorem passed_eq_ok {passed' : Passed Request} (h : passed P e = .ok passed') :
    passed'.status = e.statusCode % 65536 ∧ (200 ≤ passed'.status ∧ passed'.status ≤ 599) ∧
      passed'.headers = e.headers ∧ passed'.body = content P e.statusCode e.chunks := by
  simp only [passed, toHeaders, bind_eq_ok, throwIf_eq_ok, pure_eq_ok] at h
  obtain ⟨request, -, headers, ⟨_, -, rfl⟩, _, hrange, _, -, rfl⟩ := h
  obtain ⟨hlow, hhigh⟩ := not_or.mp hrange
  exact ⟨rfl, ⟨by simpa using hlow, by simpa using hhigh⟩, rfl, rfl⟩

theorem Stage.release (hopen : Open e) (hended : e.ended = true) (hacts : Ended acts)
    (hbuffered : Buffered (written P acts) e) : Stage P acts (release P e) := by
  unfold Sdk.release
  rw [if_neg (by simp [hopen.done])]
  split_ifs with hover
  · exact hopen.failed
  · split
    next => exact hopen.failed
    next passed' hpassed =>
      obtain ⟨hstatus, hrange, hheaders, hbody⟩ := passed_eq_ok hpassed
      obtain ⟨hchunks, hsize, hbound⟩ := hbuffered.fits (by simpa using hover)
      refine .signing passed' ⟨hopen.done, hopen.head, hopen.sent, hopen.releasing⟩ hended rfl
        ⟨hacts, hstatus, hrange, hheaders, ?_, hsize ▸ hbound⟩
      rw [hbody, hchunks]

theorem Stage.endWith (h : Stage P acts e) (chunk : Chunk) : Stage P (acts ++ [.endWith chunk]) (handlerEnd P chunk e) := by
  unfold handlerEnd
  split_ifs with hended
  · exact h.same hended _
  · have hnot : e.ended = false ∧ e.done = false := by simpa using hended
    cases h with
    | buffering hopen hended hidle hno hbuffered =>
      have hopen' : Open { e with ended := true } := ⟨hopen.done, hopen.head, hopen.sent, hopen.releasing⟩
      have hbuffered' : Buffered (written P acts) { e with ended := true } := ⟨hbuffered.exceeds, hbuffered.fits⟩
      split
      next => exact .stuck hopen' rfl hidle
      next e' hcollect =>
        obtain ⟨hcollected, size, overflow, chunks, rfl⟩ := collect_buffered hbuffered' hcollect
        refine Stage.release ⟨hopen.done, hopen.head, hopen.sent, hopen.releasing⟩ rfl
          ⟨chunk, List.mem_append_right _ List.mem_cons_self⟩ ?_
        rw [written_append hno, written]
        exact hcollected
    | stuck hopen hended => rw [hended] at hnot; cases hnot.1
    | signing passed hopen hended => rw [hended] at hnot; cases hnot.1
    | done hdone => rw [hdone] at hnot; cases hnot.2

theorem Stage.flushHeaders (h : Stage P acts e) : Stage P (acts ++ [.flushHeaders]) (fail P e) := by
  cases h with
  | buffering hopen | stuck hopen | signing passed hopen => exact hopen.failed
  | done hdone honce hsent =>
    rw [fail_of_done hdone]
    exact Stage.done_congr hdone honce hsent rfl rfl _

/-- The signed response goes out as it was passed. -/
theorem PassedFrom.sent {passed' : Passed Request} {signed : Signed} (hpassed : PassedFrom P acts e passed')
    (hopen : Open e) (hsigning : e.signing = .settled passed' (.ok signed))
    (hset : setEach P (signedValues signed) e = (e', true)) : Stage P acts (send P passed'.body e') := by
  have hredressed : Redressed e e' := by
    have hredressed := redressed_setEach (P := P) (e := e) (signedValues signed)
    rwa [hset] at hredressed
  have hopen' := hopen.redressed hredressed
  obtain ⟨hstatus, hlookup⟩ := setEach_lookup (signedValues_distinct signed) hset
  obtain ⟨hdone, hkept, hcases⟩ := send_sent (P := P) passed'.body hopen'.head
  obtain heq | ⟨hlow, hhigh, head, hhead, hfields, heq⟩ := hcases
  · refine .done hdone (by rw [heq, hopen'.sent]; exact Nat.zero_le 1) fun sent hmem => ?_
    rw [heq, hopen'.sent] at hmem
    cases hmem
  · refine .done hdone (by rw [heq, hopen'.sent]; exact le_rfl) fun sent hmem => ?_
    rw [heq, hopen'.sent] at hmem
    rw [List.mem_singleton.mp hmem]
    -- The status is between 100 and 999, so it is what `Response` took.
    have hsame : head.status = passed'.status := by
      rw [hhead, hpassed.status]
      omega
    have hcode : e.statusCode = passed'.status := by rw [← hstatus, ← hhead, hsame]
    have hbody := hpassed.body
    rw [hcode] at hbody
    refine .inr ⟨hpassed.ended, passed', signed, ?_, ⟨hsame, fun name => ?_, ?_⟩, hbody, hpassed.bound⟩
    · rw [hkept, hredressed.signing, hsigning]
    · show head.headers.lookup name = _
      rw [hfields, hlookup name, lookup_signedValues, hpassed.headers]
    · show transmitted P head passed'.body = passed'.body
      unfold transmitted
      split_ifs with hnone
      · -- Where Node sends no body, none was passed.
        rw [hbody, content, if_pos]
        unfold noContent
        rcases hnone with hhead' | hlow | h204 | h304
        · simp [hhead']
        · have := hpassed.range.1
          omega
        · simp [← hsame, h204]
        · simp [← hsame, h304]
      · rfl

theorem Stage.settle (h : Stage P acts e) {passed' : Passed Request} (hpending : e.signing = .pending passed')
    (result : Except String Signed) :
    Stage P (acts ++ [.settle result]) (released P passed' { e with signing := .settled passed' result } result) := by
  have hsettled : ∀ hdone : e.done = true, e.sent.length ≤ 1 →
      (∀ sent ∈ e.sent, sent.Empty500 ∨ (Ended acts ∧ sent.IsSigned P acts e)) →
        Stage P (acts ++ [.settle result]) { e with signing := .settled passed' result } := by
    intro hdone honce hsent
    refine .done hdone honce fun sent hmem => ?_
    obtain hempty | ⟨-, passed, signed, hsigning, -⟩ := hsent sent hmem
    · exact .inl hempty
    · rw [hpending] at hsigning
      cases hsigning
  cases h with
  | buffering hopen hended hidle => rw [hidle] at hpending; cases hpending
  | stuck hopen hended hidle => rw [hidle] at hpending; cases hpending
  | done hdone honce hsent =>
    cases result with
    | error message =>
      have hsame := fail_of_done (P := P) (e := { e with signing := Signing.settled passed' (.error message) }) hdone
      rw [released, hsame]
      exact hsettled hdone honce hsent
    | ok signed =>
      rw [released, if_pos hdone]
      exact hsettled hdone honce hsent
  | signing passed hopen hended hpending' hpassed =>
    have heq : Signing.pending passed = .pending passed' := hpending'.symm.trans hpending
    injection heq with heq
    subst heq
    have hopen' : Open { e with signing := Signing.settled passed result } :=
      ⟨hopen.done, hopen.head, hopen.sent, hopen.releasing⟩
    cases result with
    | error message => exact hopen'.failed
    | ok signed =>
      have hpassed' : PassedFrom P (acts ++ [.settle (.ok signed)])
          { e with signing := Signing.settled passed (.ok signed) } passed := by
        obtain ⟨hended', hstatus, hrange, hheaders, hbody, hbound⟩ := hpassed.append [Action.settle (.ok signed)]
        exact ⟨hended', hstatus, hrange, hheaders, hbody, hbound⟩
      rw [released, if_neg (by simp [hopen.done])]
      split
      next e₁ hset => exact hpassed'.sent hopen' rfl hset
      next e₁ hset =>
        have hredressed := redressed_setEach (P := P) (e := { e with signing := Signing.settled passed (.ok signed) })
          (signedValues signed)
        rw [hset] at hredressed
        exact (hopen'.redressed hredressed).failed

/-- Every step that does not change the response while it is signed. -/
theorem Stage.step (h : Stage P acts e) {a : Action} (hcalm : e.awaitsSignature = true → a.rewrites = false)
    (hstep : Sdk.step P a e = some e') : Stage P (acts ++ [a]) e' := by
  have hfree : a.rewrites = true → e.awaitsSignature = false := by
    intro hrewrites
    by_contra hawaits
    rw [hcalm (by simpa using hawaits)] at hrewrites
    cases hrewrites
  cases a with
  | setHeader name value =>
    obtain rfl := Option.some.inj hstep
    exact h.redressed (redressed_setHeader name value) rfl (hfree rfl)
  | removeHeader name =>
    obtain rfl := Option.some.inj hstep
    exact h.redressed (redressed_removeHeader name) rfl (hfree rfl)
  | setStatusCode status =>
    obtain rfl := Option.some.inj hstep
    have hredressed : Redressed e { e with statusCode := status } := ⟨rfl, rfl, rfl, rfl, rfl, rfl, rfl, rfl, fun _ => rfl⟩
    exact h.redressed hredressed rfl (hfree rfl)
  | writeHead status message headers =>
    obtain rfl := Option.some.inj hstep
    exact h.redressed (redressed_writeHead status message headers) rfl (hfree rfl)
  | write chunk =>
    obtain rfl := Option.some.inj hstep
    exact h.write chunk
  | endWith chunk =>
    obtain rfl := Option.some.inj hstep
    exact h.endWith chunk
  | flushHeaders =>
    obtain rfl := Option.some.inj hstep
    exact h.flushHeaders
  | settle result =>
    simp only [Sdk.step] at hstep
    split at hstep
    next passed hpending =>
      obtain rfl := Option.some.inj hstep
      exact h.settle hpending result
    next => cases hstep

theorem Stage.onlySigned (h : Stage P acts e) : OnlySigned P acts e := by
  cases h with
  | buffering hopen | stuck hopen | signing passed hopen =>
    refine ⟨by rw [hopen.sent]; exact Nat.zero_le 1, fun sent hmem => ?_⟩
    rw [hopen.sent] at hmem
    cases hmem
  | done hdone honce hsent =>
    refine ⟨honce, fun sent hmem => ?_⟩
    obtain hempty | ⟨-, hsigned⟩ := hsent sent hmem
    · exact .inl hempty
    · exact .inr hsigned

end Steps

/-! ## Every run -/

section Runs
variable {Request : Type} {P : NodePlatform Request}

/-- As long as the handler leaves status and header fields alone while the response is signed, only the signed response
or an empty 500 is sent. -/
theorem onlySigned_of_calm {statusCode : ℤ} {statusMessage : Option String} {headers : Fields} {acts : List Action}
    {e : Exchange Request}
    (hcalm : RunMeets (step P) (fun a e => e.awaitsSignature = true → a.rewrites = false) acts
      (initial statusCode statusMessage headers))
    (hrun : run (step P) acts (initial statusCode statusMessage headers) = some e) : OnlySigned P acts e := by
  have hstage : Stage P [] (initial statusCode statusMessage headers) := by
    refine .buffering ⟨rfl, rfl, rfl, rfl⟩ rfl rfl ?_ ⟨by rintro ⟨⟩, fun _ => ⟨rfl, rfl, Nat.zero_le _⟩⟩
    rintro ⟨chunk, ⟨⟩⟩
  exact (run_history (fun before a s s' hP h hstep => h.step hP hstep) acts [] _ e hcalm hstage hrun).onlySigned

end Runs

/-! ## A header that is set too late -/

def sampleNode : NodePlatform Unit where
  isHead := false
  toRequest := .ok ()
  bufferFrom _ _ := .ok [120]
  validHeader _ _ := true
  appends _ _ := true

def sampleSigned : Signed := fun name => if name = "signature" then some "sig1=:AA==:" else none

/-- A chunk, and one that comes after `end`; a header that was set before. -/
def calmActions : List Action :=
  [.writeHead 201 (some "Made") (.entries [("x-multi", some ["a", "b"])]), .write (.text "x" none), .endWith (.bytes [1, 2]),
    .write (.bytes [3]), .settle (.ok sampleSigned)]

theorem calmActions_onlySigned :
    ∃ e, run (step sampleNode) calmActions (initial 200 none ∅) = some e ∧
      e.sent.map (fun sent => (sent.head.status, sent.head.headers.lookup "x-multi", sent.body)) =
        [(201, some ["a", "b"], some [120, 1, 2])] ∧ OnlySigned sampleNode calmActions e := by
  have hsent : (run (step sampleNode) calmActions (initial 200 none ∅)).map
      (fun e => e.sent.map fun sent => (sent.head.status, sent.head.headers.lookup "x-multi", sent.body)) =
      some [(201, some ["a", "b"], some [120, 1, 2])] := by decide
  obtain ⟨e, hrun, hsent⟩ := Option.map_eq_some_iff.mp hsent
  have hcheck : runCheck (step sampleNode) (fun a e => !e.awaitsSignature || !a.rewrites) calmActions
      (initial 200 none ∅) = true := by decide
  refine ⟨e, hrun, hsent, onlySigned_of_calm (runMeets_of_check (fun a e h hawaits => ?_) _ _ hcheck) hrun⟩
  simpa [hawaits] using h

def lateActions : List Action :=
  [.endWith (.bytes [1]), .setHeader "x-late" ["1"], .settle (.ok sampleSigned)]

/-- The fields that were passed have this value. -/
def passedValue (name : String) : Signing Unit → Option (List String)
  | .settled passed _ => passed.headers.lookup name
  | _ => none

theorem lateHeader_sent_unsigned :
    ∃ e, run (step sampleNode) lateActions (initial 200 none ∅) = some e ∧ ¬ OnlySigned sampleNode lateActions e := by
  have hsent : (run (step sampleNode) lateActions (initial 200 none ∅)).map
      (fun e => (e.sent.map fun sent => (sent.head.status, sent.head.headers.lookup "x-late"), passedValue "x-late" e.signing)) =
      some ([(200, some ["1"])], none) := by decide
  obtain ⟨e, hrun, hboth⟩ := Option.map_eq_some_iff.mp hsent
  obtain ⟨hsent, hpassed⟩ := Prod.mk.inj hboth
  refine ⟨e, hrun, fun hsigned => ?_⟩
  have hmem : (200, some ["1"]) ∈ e.sent.map fun sent => (sent.head.status, sent.head.headers.lookup "x-late") := by
    rw [hsent]
    exact List.mem_cons_self
  obtain ⟨sent, hmem, hfields⟩ := List.mem_map.mp hmem
  obtain ⟨hstatus, hlate⟩ := Prod.mk.inj hfields
  rcases hsigned.signed sent hmem with hempty | ⟨passed, signed, hsettled, hcarries, -⟩
  · have := hempty.1
    omega
  · have hlookup := hcarries.headers "x-late"
    have hunsigned : signedValue signed "x-late" = none := by
      rw [signedValue, if_neg (by decide)]
    rw [hsettled] at hpassed
    rw [hlate, hunsigned, show passed.headers.lookup "x-late" = none from hpassed] at hlookup
    cases hlookup

end Dnsid.Sdk
