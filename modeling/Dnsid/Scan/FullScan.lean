import Dnsid.Scan.StreamSource

/-! # A full scan reads every entry once

A log served bundle by bundle is read back entry by entry: one turn of the loop appends one bundle's entries under their
indices and asks for one path, and no two turns ask for the same.
-/
namespace Dnsid.Scan
open Dnsid.Foundations Dnsid.Merkle Dnsid.Protocol
open Dnsid.Foundations.Utf16 (textDecode)
open Dnsid.Checkpoint (IndexedEntry)
open Dnsid.Notes (Checkpoint parseCheckpoint)
set_option autoImplicit false

/-! ## Reads that succeed -/

section Reads
variable {α β : Type} {urls urls' : List String}

theorem run_bind_ok {m : Reads α} {a : α} (h : m.run urls = .ok (a, urls')) (f : α → Reads β) :
    (m >>= f).run urls = (f a).run urls' := by
  rw [StateT.run_bind, h]
  rfl

theorem run_liftM_ok {x : Except Thrown α} {a : α} (h : x = .ok a) (urls : List String) :
    (liftM x : Reads α).run urls = .ok (a, urls) := by
  rw [h]
  rfl

theorem run_throwIf {c : Prop} [Decidable c] {e : Thrown} (h : ¬ c) (urls : List String) :
    (liftM (throwIf c e) : Reads Unit).run urls = .ok ((), urls) :=
  run_liftM_ok (throwIf_eq_ok.mpr h) urls

theorem bytes_run {source : ScanStreamSource} {url : String} {maximum : ℕ} {bytes : Bytes}
    (h : source.platform.fetchBounded url maximum = .ok bytes) (hlen : bytes.length ≤ maximum) (urls : List String) :
    (source.bytes url maximum).run urls = .ok (bytes, urls ++ [url]) := by
  have hasked : (modify fun urls => urls ++ [url] : Reads Unit).run urls = .ok ((), urls ++ [url]) := rfl
  rw [ScanStreamSource.bytes, run_bind_ok hasked, run_bind_ok (run_liftM_ok (mapError_eq_ok.mpr h) _),
    run_bind_ok (run_throwIf (by omega) _)]
  rfl

end Reads

/-! ## A log that is served -/

/-- The entries of a bundle. -/
def slice (entries : List Bytes) (bundleIndex : ℕ) : List Bytes :=
  (entries.drop (bundleIndex * entriesPerBundle)).take entriesPerBundle

/-- The fetcher answers for a log of `entries` under `checkpoint`, which the callback accepts. -/
structure Serves (source : ScanStreamSource) (logPrefix : String) (entries : List Bytes) (checkpoint : Checkpoint) : Prop where
  checkpointText : ∃ text, source.platform.fetchBounded (checkpointPath logPrefix) source.maxCheckpointBytes = .ok text ∧
    text.length ≤ source.maxCheckpointBytes ∧
    parseCheckpoint (textDecode source.platform.repaired text) = .ok checkpoint
  authentic : source.authenticateCheckpoint checkpoint = .ok ()
  treeSize : checkpoint.treeSize = entries.length
  bundles : ∀ bundleIndex, bundleIndex * entriesPerBundle < entries.length → ∀ path bundle,
    entryBundlePath logPrefix bundleIndex (bundleWidth (slice entries bundleIndex).length) = .ok path →
    encodeEntryBundle (slice entries bundleIndex) = .ok bundle →
    source.platform.fetchBounded path source.maxEntryBundleBytes = .ok bundle

/-- The configured limits. -/
structure WithinLimits (source : ScanStreamSource) (entries : List Bytes) : Prop where
  treeSize : entries.length ≤ source.maxTreeSize
  bundle : ∀ bundleIndex, bundleSize (slice entries bundleIndex) ≤ source.maxEntryBundleBytes
  total : bundleSize entries ≤ source.maxTotalEntryBytes

theorem slice_length (entries : List Bytes) (bundleIndex : ℕ) :
    (slice entries bundleIndex).length = bundleWant entries.length bundleIndex := by
  rw [slice, List.length_take, List.length_drop, bundleWant]

theorem slice_append (entries : List Bytes) (bundleIndex : ℕ) :
    entries.drop (bundleIndex * entriesPerBundle) =
      slice entries bundleIndex ++ entries.drop ((bundleIndex + 1) * entriesPerBundle) := by
  rw [slice, Nat.add_mul, Nat.one_mul, ← List.drop_drop, List.take_append_drop]

theorem treeSize_le {text : CodeUnits} {checkpoint : Checkpoint} (h : parseCheckpoint text = .ok checkpoint) :
    checkpoint.treeSize ≤ 2 ^ 53 - 1 := by
  simp only [parseCheckpoint, bind_eq_ok, pure_eq_ok] at h
  obtain ⟨body, hbody, _, -, rfl⟩ := h
  rw [Notes.readBody] at hbody
  split at hbody
  · simp only [bind_eq_ok, throwIf_eq_ok, pure_eq_ok] at hbody
    obtain ⟨-, -, -, -, -, hsize, _, -, -, -, rfl⟩ := hbody
    exact Nat.le_of_not_lt hsize
  · cases hbody

variable {source : ScanStreamSource} {logPrefix : String} {entries : List Bytes} {checkpoint : Checkpoint}

/-- A bundle that is served is read as the entries it was made of. -/
theorem Serves.bundle_read (hserves : Serves source logPrefix entries checkpoint) (hlimits : WithinLimits source entries)
    (hsize : ∀ e ∈ entries, e.length ≤ 0xffff) {bundleIndex : ℕ} (h : bundleIndex * entriesPerBundle < entries.length) :
    ∃ path bundle,
      entryBundlePath logPrefix bundleIndex (bundleWidth (bundleWant entries.length bundleIndex)) = .ok path ∧
      (∀ urls, (source.bytes path source.maxEntryBundleBytes).run urls = .ok (bundle, urls ++ [path])) ∧
      bundle.length = bundleSize (slice entries bundleIndex) ∧
      parseEntryBundle bundle = .ok (slice entries bundleIndex) := by
  obtain ⟨text, -, -, hparse⟩ := hserves.checkpointText
  have hsafe : isSafeInteger bundleIndex = true := by
    have hle := treeSize_le hparse
    rw [hserves.treeSize] at hle
    rw [isSafeInteger, decide_eq_true_eq]
    unfold entriesPerBundle at h
    omega
  obtain ⟨path, hpath⟩ := entryBundlePath_ok logPrefix (bundleWidth (bundleWant entries.length bundleIndex)) hsafe
  have hsmall : ∀ e ∈ slice entries bundleIndex, e.length ≤ 0xffff := fun e he =>
    hsize e (List.mem_of_mem_drop (List.mem_of_mem_take he))
  obtain ⟨bundle, hbundle, hlen⟩ := encodeEntryBundle_ok hsmall
  have hfetch := hserves.bundles bundleIndex h path bundle (by rw [slice_length]; exact hpath) hbundle
  have hbound : bundle.length ≤ source.maxEntryBundleBytes := by
    rw [hlen]
    exact hlimits.bundle bundleIndex
  exact ⟨path, bundle, hpath, bytes_run hfetch hbound, hlen, parseEntryBundle_encodeEntryBundle hbundle⟩

/-! ## The loop -/

/-- The entries of the log from a bundle on, under their indices. -/
def indexedFrom (entries : List Bytes) (bundleIndex : ℕ) : List (IndexedEntry Bytes) :=
  (entries.drop (bundleIndex * entriesPerBundle)).mapIdx fun i bytes => ⟨bundleIndex * entriesPerBundle + i, bytes⟩

theorem indexedFrom_end {bundleIndex : ℕ} (h : entries.length ≤ bundleIndex * entriesPerBundle) :
    indexedFrom entries bundleIndex = [] := by
  rw [indexedFrom, List.drop_of_length_le h, List.mapIdx_nil]

theorem indexedFrom_step (bundleIndex : ℕ) :
    indexedFrom entries bundleIndex =
      (slice entries bundleIndex).mapIdx (fun i bytes => ⟨bundleIndex * entriesPerBundle + i, bytes⟩) ++
        indexedFrom entries (bundleIndex + 1) := by
  rcases Nat.lt_or_ge ((bundleIndex + 1) * entriesPerBundle) entries.length with h | h
  · have hfull : (slice entries bundleIndex).length = entriesPerBundle := by
      rw [slice_length, bundleWant]
      unfold entriesPerBundle at *
      omega
    have hindex : (fun i bytes => (⟨bundleIndex * entriesPerBundle + (i + entriesPerBundle), bytes⟩ : IndexedEntry Bytes)) =
        fun i bytes => ⟨(bundleIndex + 1) * entriesPerBundle + i, bytes⟩ := by
      funext i bytes
      rw [Nat.add_mul, Nat.one_mul, Nat.add_comm i, Nat.add_assoc]
    rw [indexedFrom, slice_append, List.mapIdx_append, indexedFrom, hfull, hindex]
  · rw [indexedFrom_end h, List.append_nil, indexedFrom, slice_append, List.drop_of_length_le h, List.append_nil]

/-- One turn of the loop. -/
theorem loadBundles_step (hserves : Serves source logPrefix entries checkpoint) (hlimits : WithinLimits source entries)
    (hsize : ∀ e ∈ entries, e.length ≤ 0xffff) {bundleIndex total : ℕ} (h : bundleIndex * entriesPerBundle < entries.length)
    (htotal : total + bundleSize (slice entries bundleIndex) ≤ source.maxTotalEntryBytes) :
    ∃ path, entryBundlePath logPrefix bundleIndex (bundleWidth (bundleWant entries.length bundleIndex)) = .ok path ∧
      ∀ (found : List (IndexedEntry Bytes)) (urls : List String),
        (source.loadBundles logPrefix entries.length bundleIndex total found).run urls =
          (source.loadBundles logPrefix entries.length (bundleIndex + 1) (total + bundleSize (slice entries bundleIndex))
            (found ++ (slice entries bundleIndex).mapIdx fun i bytes =>
              ⟨bundleIndex * entriesPerBundle + i, bytes⟩)).run (urls ++ [path]) := by
  obtain ⟨path, bundle, hpath, hread, hlen, hparse⟩ := hserves.bundle_read hlimits hsize h
  refine ⟨path, hpath, fun found urls => ?_⟩
  rw [ScanStreamSource.loadBundles, if_pos h, run_bind_ok (run_liftM_ok hpath _), run_bind_ok (hread urls),
    run_bind_ok (run_throwIf (by omega) _), run_bind_ok (run_liftM_ok hparse _),
    run_bind_ok (run_throwIf (by rw [slice_length]; simp) _), hlen]

/-- From any bundle on the loop finds the entries that are left, under paths of its own bundles. -/
theorem loadBundles_run (hserves : Serves source logPrefix entries checkpoint) (hlimits : WithinLimits source entries)
    (hsize : ∀ e ∈ entries, e.length ≤ 0xffff) (bundleIndex total : ℕ) (found : List (IndexedEntry Bytes)) (urls : List String)
    (htotal : total + bundleSize (entries.drop (bundleIndex * entriesPerBundle)) ≤ source.maxTotalEntryBytes) :
    ∃ paths, (source.loadBundles logPrefix entries.length bundleIndex total found).run urls =
        .ok (found ++ indexedFrom entries bundleIndex, urls ++ paths) ∧ paths.Nodup ∧
      ∀ path ∈ paths, ∃ n width, bundleIndex ≤ n ∧ entryBundlePath logPrefix n width = .ok path := by
  generalize hleft : entries.length - bundleIndex * entriesPerBundle = left
  induction left using Nat.strong_induction_on generalizing bundleIndex total found urls with
  | h left ih =>
    rcases Nat.lt_or_ge (bundleIndex * entriesPerBundle) entries.length with h | h
    · rw [slice_append, bundleSize_append] at htotal
      obtain ⟨path, hpath, hstep⟩ := loadBundles_step hserves hlimits hsize h (show total + _ ≤ _ by omega)
      obtain ⟨paths, hrun, hnodup, hown⟩ := ih (entries.length - (bundleIndex + 1) * entriesPerBundle)
        (by unfold entriesPerBundle at *; omega) (bundleIndex + 1) (total + bundleSize (slice entries bundleIndex))
        (found ++ (slice entries bundleIndex).mapIdx fun i bytes => ⟨bundleIndex * entriesPerBundle + i, bytes⟩)
        (urls ++ [path]) (by omega) rfl
      refine ⟨path :: paths, ?_, ?_, ?_⟩
      · rw [hstep, hrun, indexedFrom_step bundleIndex, List.append_assoc, List.append_assoc]
        rfl
      · rw [List.nodup_cons]
        refine ⟨fun hmem => ?_, hnodup⟩
        obtain ⟨n, width, hn, hsame⟩ := hown path hmem
        have heq := entryBundlePath_injective hpath hsame
        omega
      · intro p hp
        rcases List.mem_cons.mp hp with rfl | hp
        · exact ⟨bundleIndex, _, Nat.le_refl _, hpath⟩
        · obtain ⟨n, width, hn, hsame⟩ := hown p hp
          exact ⟨n, width, by omega, hsame⟩
    · refine ⟨[], ?_, List.nodup_nil, fun path hp => absurd hp List.not_mem_nil⟩
      rw [ScanStreamSource.loadBundles, if_neg (by omega), indexedFrom_end h, List.append_nil, List.append_nil]
      rfl

theorem Serves.loadCheckpoint_run (hserves : Serves source logPrefix entries checkpoint) (urls : List String) :
    (source.loadCheckpoint logPrefix).run urls = .ok (checkpoint, urls ++ [checkpointPath logPrefix]) := by
  obtain ⟨text, hfetch, hlen, hparse⟩ := hserves.checkpointText
  rw [ScanStreamSource.loadCheckpoint, run_bind_ok (bytes_run hfetch hlen urls), run_bind_ok (run_liftM_ok hparse _),
    run_bind_ok (run_liftM_ok hserves.authentic _)]
  rfl

theorem Serves.load_run (hserves : Serves source logPrefix entries checkpoint) (hlimits : WithinLimits source entries)
    (hsize : ∀ e ∈ entries, e.length ≤ 0xffff) :
    ∃ urls, (source.load logPrefix).run [] = .ok (⟨checkpoint, entries.mapIdx IndexedEntry.mk, true⟩, urls) ∧ urls.Nodup := by
  obtain ⟨paths, hrun, hnodup, hown⟩ := loadBundles_run hserves hlimits hsize 0 0 [] [checkpointPath logPrefix]
    (by rw [Nat.zero_mul, List.drop_zero, Nat.zero_add]; exact hlimits.total)
  have hall : indexedFrom entries 0 = entries.mapIdx IndexedEntry.mk := by
    simp [indexedFrom]
  have hwithin : ¬ source.maxTreeSize < checkpoint.treeSize := by
    rw [hserves.treeSize]
    exact Nat.not_lt.mpr hlimits.treeSize
  refine ⟨[checkpointPath logPrefix] ++ paths, ?_, ?_⟩
  · rw [ScanStreamSource.load, run_bind_ok (hserves.loadCheckpoint_run []), run_bind_ok (run_throwIf hwithin _),
      hserves.treeSize, List.nil_append, run_bind_ok hrun, hall]
    rfl
  · rw [List.singleton_append, List.nodup_cons]
    refine ⟨fun hmem => ?_, hnodup⟩
    obtain ⟨n, width, -, hpath⟩ := hown _ hmem
    exact entryBundlePath_ne_checkpointPath hpath rfl

theorem Serves.discoverEntry_run (hserves : Serves source logPrefix entries checkpoint) (hlimits : WithinLimits source entries)
    (hsize : ∀ e ∈ entries, e.length ≤ 0xffff) {index : ℕ} (h : index < entries.length) :
    ∃ urls, (source.discoverEntry logPrefix index).run [] = .ok (⟨index, entries[index]⟩, urls) := by
  have hbundle : index / entriesPerBundle * entriesPerBundle < entries.length := by
    unfold entriesPerBundle
    omega
  obtain ⟨path, bundle, hpath, hread, -, hparse⟩ := hserves.bundle_read hlimits hsize hbundle
  obtain ⟨text, -, -, hcheckpoint⟩ := hserves.checkpointText
  have hle := treeSize_le hcheckpoint
  have hinside : ¬ (2 ^ 53 - 1 < (index : ℤ) ∨ (index : ℤ) < 0 ∨ (checkpoint.treeSize : ℤ) ≤ index) := by
    rw [hserves.treeSize] at hle ⊢
    omega
  have hentry : (slice entries (index / entriesPerBundle)).getD (index % entriesPerBundle) [] = entries[index] := by
    have hmod : index % entriesPerBundle < entriesPerBundle := Nat.mod_lt _ (by decide)
    have hindex : index / entriesPerBundle * entriesPerBundle + index % entriesPerBundle = index := Nat.div_add_mod' _ _
    rw [List.getD_eq_getElem?_getD, slice, List.getElem?_take_of_lt hmod, List.getElem?_drop, hindex,
      List.getElem?_eq_getElem h]
    rfl
  refine ⟨[checkpointPath logPrefix] ++ [path], ?_⟩
  rw [ScanStreamSource.discoverEntry, run_bind_ok (hserves.loadCheckpoint_run []), run_bind_ok (run_throwIf hinside _),
    hserves.treeSize, Int.toNat_natCast]
  rw [run_bind_ok (run_liftM_ok hpath _), run_bind_ok (hread _), run_bind_ok (run_liftM_ok hparse _),
    run_bind_ok (run_throwIf (by rw [slice_length]; simp) _), hentry]
  rfl

/-- **A full scan reads every entry once.** -/
theorem scan_reads_every_entry (hserves : Serves source logPrefix entries checkpoint) (hlimits : WithinLimits source entries)
    (hsize : ∀ e ∈ entries, e.length ≤ 0xffff) :
    (∃ urls, (source.load logPrefix).run [] = .ok (⟨checkpoint, entries.mapIdx IndexedEntry.mk, true⟩, urls) ∧ urls.Nodup) ∧
      (∀ index, (h : index < entries.length) →
        ∃ urls, (source.discoverEntry logPrefix index).run [] = .ok (⟨index, entries[index]⟩, urls)) ∧
      (∃ bundle, encodeEntryBundle entries = .ok bundle ∧ parseEntryBundle bundle = .ok entries) ∧
      ∀ bytes parsed, parseEntryBundle bytes = .ok parsed → encodeEntryBundle parsed = .ok bytes := by
  obtain ⟨bundle, hbundle, -⟩ := encodeEntryBundle_ok hsize
  exact ⟨hserves.load_run hlimits hsize, fun index h => hserves.discoverEntry_run hlimits hsize h,
    ⟨bundle, hbundle, parseEntryBundle_encodeEntryBundle hbundle⟩, fun _ _ => encodeEntryBundle_parseEntryBundle⟩

/-! ## A log of two bundles -/

/-- A full bundle and two entries more. -/
def sampleEntries : List Bytes := List.replicate 256 [7] ++ [[1, 2, 3], []]

def sampleBundle : Bytes := (List.replicate 256 [0, 1, 7]).flatten

def sampleCheckpoint : Checkpoint where
  origin := Utf16.ofScalars "log.example".toList
  treeSize := 258
  rootHash := List.replicate 32 0
  signatures := []
  signedText := Utf16.ofScalars "log.example\n258\nAAAAAAAAAAAAAAAAAAAAAAAAAAAAAAAAAAAAAAAAAAA=\n".toList

def sampleSource : ScanStreamSource where
  platform := {
    fetchBounded := fun url _ =>
      if url = "https://log.example/checkpoint" then .ok (Utf16.textEncode sampleCheckpoint.signedText)
      else if url = "https://log.example/tile/entries/000" then .ok sampleBundle
      else if url = "https://log.example/tile/entries/001.p/2" then .ok [0, 3, 1, 2, 3, 0, 0]
      else .error (.other "not found")
    repaired := fun _ => [] }
  authenticateCheckpoint := fun _ => .ok ()
  maxTreeSize := 1000
  maxCheckpointBytes := 1000
  maxEntryBundleBytes := 1000
  maxTotalEntryBytes := 1000

theorem sampleBundles_encoded :
    encodeEntryBundle (slice sampleEntries 0) = .ok sampleBundle ∧
      encodeEntryBundle (slice sampleEntries 1) = .ok [0, 3, 1, 2, 3, 0, 0] := by
  decide +kernel

theorem sampleBundles_paths :
    entryBundlePath "https://log.example" 0 (bundleWidth (slice sampleEntries 0).length) =
        .ok "https://log.example/tile/entries/000" ∧
      entryBundlePath "https://log.example" 1 (bundleWidth (slice sampleEntries 1).length) =
        .ok "https://log.example/tile/entries/001.p/2" := by
  decide +kernel

theorem sampleSource_serves : Serves sampleSource "https://log.example" sampleEntries sampleCheckpoint where
  checkpointText := by
    refine ⟨Utf16.textEncode sampleCheckpoint.signedText, ?_, ?_, ?_⟩ <;> decide
  authentic := rfl
  treeSize := by decide +kernel
  bundles := by
    intro bundleIndex h path bundle hpath hbundle
    have hindex : bundleIndex = 0 ∨ bundleIndex = 1 := by
      have hlen : sampleEntries.length = 258 := by decide +kernel
      unfold entriesPerBundle at h
      omega
    cases hindex with
    | inl hzero =>
      subst hzero
      cases sampleBundles_paths.1.symm.trans hpath
      cases sampleBundles_encoded.1.symm.trans hbundle
      rfl
    | inr hone =>
      subst hone
      cases sampleBundles_paths.2.symm.trans hpath
      cases sampleBundles_encoded.2.symm.trans hbundle
      decide

theorem sampleSource_withinLimits : WithinLimits sampleSource sampleEntries where
  treeSize := by decide +kernel
  bundle := by
    intro bundleIndex
    -- no bundle is larger than the whole log
    have hall : bundleSize sampleEntries ≤ 1000 := by decide +kernel
    have hdrop := bundleSize_append (sampleEntries.take (bundleIndex * entriesPerBundle))
      (sampleEntries.drop (bundleIndex * entriesPerBundle))
    rw [List.take_append_drop, slice_append, bundleSize_append] at hdrop
    show bundleSize (slice sampleEntries bundleIndex) ≤ 1000
    omega
  total := by decide +kernel

/-- Both bundles are read, and the entries of the second follow those of the first. -/
theorem sampleSource_scan :
    (∃ urls, (sampleSource.load "https://log.example").run [] =
      .ok (⟨sampleCheckpoint, sampleEntries.mapIdx IndexedEntry.mk, true⟩, urls) ∧ urls.Nodup) ∧
    (sampleEntries.mapIdx IndexedEntry.mk).drop 255 = [⟨255, [7]⟩, ⟨256, [1, 2, 3]⟩, ⟨257, []⟩] ∧
    ∃ urls, (sampleSource.discoverEntry "https://log.example" 256).run [] = .ok (⟨256, [1, 2, 3]⟩, urls) := by
  have hscan := scan_reads_every_entry sampleSource_serves sampleSource_withinLimits (by decide +kernel)
  have hlast : (sampleEntries.mapIdx IndexedEntry.mk).drop 255 = [⟨255, [7]⟩, ⟨256, [1, 2, 3]⟩, ⟨257, []⟩] := by
    decide +kernel
  exact ⟨hscan.1, hlast, hscan.2.1 256 (by decide +kernel)⟩

end Dnsid.Scan
