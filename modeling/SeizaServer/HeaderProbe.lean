import SeizaServer.HeaderPreparation
import SeizaServer.UploadReaders

/-!
# Options from a probed header

A resumable upload is prepared from the first bytes of its chunks, as many as the
probe asks for, a direct upload from all of its bytes.  Neither the cards of a
FITS header nor the header of an XISF file reach beyond the probe, so both
preparations see the same headers.
-/

namespace SeizaServer.Solver

open Uploads

variable {Value Time : Type} (crates : Crates Value Time)

def imageHeaderProbeBytes (bytes : List UInt8) (filename : String) : ℕ :=
  if looksLikeXisf bytes filename then (xisfHeaderPrefixBytes bytes).getD xisfPreambleBytes
  else fitsHeaderProbeBytes

/-- The options that `finalize_resumable` prepares: it reads once for the probe,
and again if the probe asks for more. -/
def finalizeOptions (kind : StoreKind) (objects : ChunkObjects) (upload : ResumableUpload)
    (filename : String) (options : SolveOptions Time) : Option (SolveOptions Time) := do
  let probed ← upload.readPrefix kind objects fitsHeaderProbeBytes
  let probeBytes := imageHeaderProbeBytes probed filename
  let header ←
    if probed.length < probeBytes then upload.readPrefix kind objects probeBytes else some probed
  return prepareSolveOptionsFromPrefix crates options header filename upload.totalSize

/-! ## The first bytes of a file -/

section Beginning

variable {content : List UInt8} {count : ℕ} (filename : String)

theorem startsWith_take {magic : String} (hcount : (ascii magic).length ≤ count) :
    startsWith (content.take count) magic = startsWith content magic := by
  unfold startsWith
  rw [Bool.eq_iff_iff, List.isPrefixOf_iff_prefix, List.isPrefixOf_iff_prefix]
  constructor
  · intro hmagic
    exact hmagic.trans (List.take_prefix count content)
  · intro hmagic
    rw [List.prefix_take_iff]
    exact ⟨hmagic, hcount⟩

theorem startsWith_simple_take (hcount : 8 ≤ count) :
    startsWith (content.take count) "SIMPLE  " = startsWith content "SIMPLE  " :=
  startsWith_take (hcount.trans' (by decide))

theorem startsWith_xisf_take (hcount : 8 ≤ count) :
    startsWith (content.take count) "XISF0100" = startsWith content "XISF0100" :=
  startsWith_take (hcount.trans' (by decide))

theorem looksLikeFits_take (hcount : 8 ≤ count) :
    looksLikeFits (content.take count) filename = looksLikeFits content filename := by
  unfold looksLikeFits
  rw [startsWith_simple_take hcount]

theorem looksLikeXisf_take (hcount : 8 ≤ count) :
    looksLikeXisf (content.take count) filename = looksLikeXisf content filename := by
  unfold looksLikeXisf
  rw [startsWith_xisf_take hcount]

/-- The length field lies within the preamble. -/
theorem xisfHeaderPrefixBytes_take (hcount : xisfPreambleBytes ≤ count) :
    xisfHeaderPrefixBytes (content.take count) = xisfHeaderPrefixBytes content := by
  have hpreamble : 16 ≤ count := hcount
  have hshort : (content.take count).length < xisfPreambleBytes ↔
      content.length < xisfPreambleBytes := by
    unfold xisfPreambleBytes
    rw [List.length_take]
    omega
  have hfield : ((content.take count).drop 8).take 4 = (content.drop 8).take 4 := by
    rw [List.drop_take, List.take_take]
    congr 1
    omega
  unfold xisfHeaderPrefixBytes
  rw [startsWith_xisf_take (by omega), hfield, decide_eq_decide.mpr hshort]

/-- Whole cards are cut from the bytes that hold them. -/
theorem cardsOf_take (cards : ℕ) (hcount : 80 * cards ≤ count) :
    cardsOf cards (content.take count) = cardsOf cards content := by
  induction cards generalizing content count with
  | zero => rfl
  | succ cards ih =>
      have hfirst : 80 ≤ count := by omega
      have hshort : (content.take count).length < 80 ↔ content.length < 80 := by
        rw [List.length_take]
        omega
      have hrest : cardsOf cards ((content.drop 80).take (count - 80)) =
          cardsOf cards (content.drop 80) := ih (by omega)
      unfold cardsOf
      simp only [hshort]
      rw [List.take_take, Nat.min_eq_left hfirst, List.drop_take, hrest]

/-- What the headers are read from lies in the first bytes, where an XISF header
does. -/
theorem imageHeaders_take (fileSize : ℕ) (hprobe : fitsHeaderProbeBytes ≤ count)
    (hheader : ∀ headerBytes, looksLikeXisf content filename = true →
      xisfHeaderPrefixBytes content = some headerBytes → headerBytes ≤ count) :
    imageHeaders crates (content.take count) filename fileSize =
      imageHeaders crates content filename fileSize := by
  have hcount : 115200 ≤ count := hprobe
  unfold imageHeaders
  rw [looksLikeXisf_take filename (by omega), looksLikeFits_take filename (by omega),
    startsWith_simple_take (by omega), cardsOf_take _ (by simp [fitsHeaderProbeBytes]; omega),
    xisfHeaderPrefixBytes_take (by simp [xisfPreambleBytes]; omega)]
  split_ifs with hxisf
  · cases hfield : xisfHeaderPrefixBytes content with
    | none => rfl
    | some headerBytes =>
        have hwithin := hheader headerBytes hxisf hfield
        have hshort : (content.take count).length < headerBytes ↔ content.length < headerBytes := by
          rw [List.length_take]
          omega
        simp only [Option.bind_eq_bind, Option.bind_some, hshort]
        rw [List.take_take, Nat.min_eq_left hwithin]
  · rfl
  · rfl

/-- The preparation of a marked file reads its first bytes and its length. -/
theorem prepareSolveOptionsFromPrefix_take (options : SolveOptions Time) (fileSize : ℕ)
    (hmarked : (looksLikeFits content filename || looksLikeXisf content filename) = true)
    (hprobe : fitsHeaderProbeBytes ≤ count)
    (hheader : ∀ headerBytes, looksLikeXisf content filename = true →
      xisfHeaderPrefixBytes content = some headerBytes → headerBytes ≤ count) :
    prepareSolveOptionsFromPrefix crates options (content.take count) filename fileSize =
      prepareSolveOptionsFromPrefix crates options content filename fileSize := by
  have hcount : 115200 ≤ count := hprobe
  have hraster : (!looksLikeFits content filename && !looksLikeXisf content filename) = false := by
    rw [← Bool.not_or, hmarked]
    rfl
  unfold prepareSolveOptionsFromPrefix
  rw [looksLikeFits_take filename (by omega), looksLikeXisf_take filename (by omega),
    imageHeaders_take crates filename fileSize hprobe hheader]
  simp only [hraster]
  rfl

end Beginning

/-! ## Both uploads -/

/-- A resumable upload of a FITS or XISF file, in whatever chunks, gets the options
of a direct upload of the same bytes. -/
theorem resumable_options_eq_direct {kind : StoreKind} {objects : ChunkObjects}
    {upload : ResumableUpload} {bodies : List Bytes} (hcarries : Uploads.Carries objects upload bodies)
    (filename : String) (options : SolveOptions Time)
    (hmarked : (looksLikeFits bodies.flatten filename ||
      looksLikeXisf bodies.flatten filename) = true) :
    finalizeOptions crates kind objects upload filename options =
      some (prepareSolveOptions crates options bodies.flatten filename) := by
  have hread := hcarries.readsAs.readPrefix kind
  have htotal := hcarries.total
  unfold finalizeOptions prepareSolveOptions
  rw [hread, Option.bind_eq_bind, Option.bind_some, htotal]
  by_cases hsmall : upload.totalSize ≤ fitsHeaderProbeBytes
  · -- The first read is the whole file, and so is a second one.
    have hwhole : bodies.flatten.take (min fitsHeaderProbeBytes upload.totalSize) =
        bodies.flatten := by
      rw [Nat.min_eq_right hsmall, ← htotal, List.take_length]
    rw [hwhole]
    dsimp only
    split_ifs with hmore
    · rw [hread, Nat.min_eq_right (by omega), ← htotal, List.take_length]
      rfl
    · rfl
  · have hfirst : min fitsHeaderProbeBytes upload.totalSize = fitsHeaderProbeBytes := by omega
    have hlength : (bodies.flatten.take fitsHeaderProbeBytes).length = fitsHeaderProbeBytes := by
      rw [List.length_take, htotal]
      omega
    have hlarge : 16 ≤ fitsHeaderProbeBytes := by decide
    have hprobe : imageHeaderProbeBytes (bodies.flatten.take fitsHeaderProbeBytes) filename =
        imageHeaderProbeBytes bodies.flatten filename := by
      unfold imageHeaderProbeBytes
      rw [looksLikeXisf_take filename (by omega), xisfHeaderPrefixBytes_take hlarge]
    have hasked : ∀ headerBytes, looksLikeXisf bodies.flatten filename = true →
        xisfHeaderPrefixBytes bodies.flatten = some headerBytes →
          imageHeaderProbeBytes bodies.flatten filename = headerBytes := by
      intro headerBytes hxisf hfield
      unfold imageHeaderProbeBytes
      rw [if_pos hxisf, hfield]
      rfl
    rw [hfirst]
    dsimp only
    rw [hlength, hprobe]
    split_ifs with hmore
    · rw [hread, Option.bind_some]
      by_cases hshort : upload.totalSize ≤ imageHeaderProbeBytes bodies.flatten filename
      · rw [Nat.min_eq_right hshort, ← htotal, List.take_length]
        rfl
      · rw [Nat.min_eq_left (by omega)]
        refine congrArg some (prepareSolveOptionsFromPrefix_take crates filename options _ hmarked
          hmore.le ?_)
        intro headerBytes hxisf hfield
        exact (hasked headerBytes hxisf hfield).ge
    · rw [Option.bind_some]
      refine congrArg some (prepareSolveOptionsFromPrefix_take crates filename options _ hmarked
        le_rfl ?_)
      intro headerBytes hxisf hfield
      rw [← hasked headerBytes hxisf hfield]
      omega

/-- Crates that know no header, no EXIF and no time. -/
def blankCrates : Crates Unit ℕ where
  parseHeaderValue := fun _ => ()
  asF64 := fun _ => none
  asStr := fun _ => none
  readXisfHeader := fun _ _ => none
  photoMetadata := fun _ => ⟨none, none, none, none, none⟩
  parseFromRfc3339 := fun _ => none
  parseNaiveDateTime := fun _ _ => none
  parseNaiveDate := fun _ _ => none
  numMicroseconds := fun _ _ => none
  checkedSubMicroseconds := fun _ _ => none

/-- A file in two chunks. -/
theorem resumable_options_eq_direct_twoChunks :
    finalizeOptions blankCrates .s3
        (fun key => if key.offset = 0 then some [83, 73] else some [77])
        ⟨"upload", 3, 3, none, false, [⟨⟨"upload", 0⟩, 2⟩, ⟨⟨"upload", 2⟩, 1⟩]⟩ "m31.FITS"
        SolveOptions.default =
      some (prepareSolveOptions blankCrates SolveOptions.default [83, 73, 77] "m31.FITS") := by
  refine @resumable_options_eq_direct _ _ blankCrates .s3 _ _ [[83, 73], [77]] ?_ "m31.FITS"
    SolveOptions.default (by decide)
  refine ⟨?_, rfl, rfl, by decide⟩
  exact .cons ⟨rfl, rfl⟩ (.cons ⟨rfl, rfl⟩ .nil)

end SeizaServer.Solver
