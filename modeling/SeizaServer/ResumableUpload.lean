import Mathlib.Tactic
import SeizaServer.JobModel

/-!
# Resumable uploads

The manifest of an upload, the chunk objects it lists, and what appending and
composing do with them.  The key of a chunk object is made from the id of its
upload and the offset of the chunk.
-/

namespace SeizaServer.Uploads

abbrev Bytes := List UInt8

structure ChunkKey where
  uploadId : String
  offset : ℕ
  deriving DecidableEq

structure StoredObjectPart where
  key : ChunkKey
  size : ℕ
  deriving DecidableEq

structure ResumableUpload where
  id : String
  totalSize : ℕ
  offset : ℕ
  jobId : Option JobId
  isPartial : Bool
  chunks : List StoredObjectPart
  deriving DecidableEq

abbrev ChunkObjects := ChunkKey → Option Bytes

inductive ResumableUploadError where
  | offsetMismatch (expected actual : ℕ)
  | exceedsLength
  | incomplete (offset total : ℕ)
  | completed
  deriving DecidableEq

namespace ResumableUpload

def new (id : String) (totalSize : ℕ) (isPartial : Bool) : ResumableUpload where
  id := id
  totalSize := totalSize
  offset := 0
  jobId := none
  isPartial := isPartial
  chunks := []

/-- The manifest `append` saves once it has stored the chunk, if the checks pass. -/
def append (upload : ResumableUpload) (offset : ℕ) (data : Bytes) :
    Except ResumableUploadError ResumableUpload :=
  if upload.jobId.isSome ∨ upload.offset = upload.totalSize then .error .completed
  else if offset ≠ upload.offset then .error (.offsetMismatch upload.offset offset)
  else if offset + data.length > upload.totalSize then .error .exceedsLength
  else if data.length = 0 ∧ offset + data.length < upload.totalSize then
    .error (.incomplete (offset + data.length) upload.totalSize)
  else
    .ok { upload with
      chunks := upload.chunks ++ [⟨⟨upload.id, offset⟩, data.length⟩]
      offset := offset + data.length }

end ResumableUpload

/-- The parts one after the other, if each has the length that is listed. -/
def collectParts (objects : ChunkObjects) : List StoredObjectPart → Option Bytes
  | [] => some []
  | part :: parts =>
      match objects part.key with
      | none => none
      | some bytes =>
          if bytes.length = part.size then (collectParts objects parts).map (bytes ++ ·)
          else none

/-! ## Appending -/

/-- What an accepted append has checked. -/
structure Appends (upload : ResumableUpload) (offset : ℕ) (data : Bytes)
    (appended : ResumableUpload) : Prop where
  jobless : upload.jobId = none
  unfinished : upload.offset < upload.totalSize
  atEnd : offset = upload.offset
  nonempty : 0 < data.length
  result : appended = { upload with
    chunks := upload.chunks ++ [⟨⟨upload.id, offset⟩, data.length⟩]
    offset := offset + data.length }
  fits : offset + data.length ≤ upload.totalSize

/-- Keys are the offsets of their chunks, no chunk is empty, and the offset is the
sum of the sizes. -/
inductive Follows (id : String) : ℕ → List StoredObjectPart → ℕ → Prop
  | nil (offset : ℕ) : Follows id offset [] offset
  | cons (offset size last : ℕ) (parts : List StoredObjectPart) (hsize : 0 < size)
      (hparts : Follows id (offset + size) parts last) :
      Follows id offset (⟨⟨id, offset⟩, size⟩ :: parts) last

structure ResumableUpload.WellFormed (upload : ResumableUpload) : Prop where
  chunks : Follows upload.id 0 upload.chunks upload.offset
  bound : upload.offset ≤ upload.totalSize

theorem Follows.le {id : String} {first last : ℕ} {parts : List StoredObjectPart}
    (hfollows : Follows id first parts last) : first ≤ last := by
  induction hfollows with
  | nil => exact le_rfl
  | cons offset size last parts hsize hparts ih => omega

theorem Follows.append {id : String} {first last : ℕ} {parts : List StoredObjectPart}
    (hfollows : Follows id first parts last) {size : ℕ} (hsize : 0 < size) :
    Follows id first (parts ++ [⟨⟨id, last⟩, size⟩]) (last + size) := by
  induction hfollows with
  | nil offset => exact .cons offset size _ [] hsize (.nil _)
  | cons offset size' last parts hsize' hparts ih => exact .cons offset size' _ _ hsize' ih

/-- Every key is below the offset. -/
theorem Follows.key_lt {id : String} {first last : ℕ} {parts : List StoredObjectPart}
    (hfollows : Follows id first parts last) {part : StoredObjectPart} (hmem : part ∈ parts) :
    part.key.offset < last := by
  induction hfollows with
  | nil => cases hmem
  | cons offset size last parts hsize hparts ih =>
      cases hmem with
      | head =>
          have hle := hparts.le
          change offset < last
          omega
      | tail _ hmem => exact ih hmem

theorem Follows.key_id {id : String} {first last : ℕ} {parts : List StoredObjectPart}
    (hfollows : Follows id first parts last) {part : StoredObjectPart}
    (hmem : part ∈ parts) : part.key.uploadId = id := by
  induction hfollows with
  | nil => cases hmem
  | cons offset size last parts hsize hparts ih =>
      cases hmem with
      | head => rfl
      | tail _ hmem => exact ih hmem

theorem appends_of_append {upload appended : ResumableUpload} {offset : ℕ} {data : Bytes}
    (hwell : upload.jobId = none → upload.WellFormed)
    (happend : upload.append offset data = .ok appended) :
    Appends upload offset data appended := by
  unfold ResumableUpload.append at happend
  split_ifs at happend with hclosed hoffset hexceeds hempty
  rw [not_or, Option.not_isSome_iff_eq_none] at hclosed
  rw [not_not] at hoffset
  have hbound := (hwell hclosed.1).bound
  constructor
  · exact hclosed.1
  · omega
  · exact hoffset
  · omega
  · exact (Except.ok.inj happend).symm
  · omega

theorem Appends.wellFormed {upload appended : ResumableUpload} {offset : ℕ} {data : Bytes}
    (hwell : upload.WellFormed) (happends : Appends upload offset data appended) :
    appended.WellFormed := by
  have hfits := happends.fits
  have hresult := happends.result
  have hchunks := hwell.chunks.append happends.nonempty
  rw [← happends.atEnd] at hchunks
  subst hresult
  exact ⟨hchunks, hfits⟩

/-! ## Collecting -/

theorem collectParts_congr {objects objects' : ChunkObjects} {parts : List StoredObjectPart}
    (hsame : ∀ part ∈ parts, objects' part.key = objects part.key) :
    collectParts objects' parts = collectParts objects parts := by
  induction parts with
  | nil => rfl
  | cons part parts ih =>
      have hfirst := hsame part List.mem_cons_self
      have hrest := ih fun other hmem => hsame other (List.mem_cons_of_mem _ hmem)
      unfold collectParts
      rw [hfirst, hrest]

/-- What can be collected is there. -/
theorem collectParts_present {objects : ChunkObjects} {parts : List StoredObjectPart}
    {content : Bytes} (hcollects : collectParts objects parts = some content)
    {part : StoredObjectPart} (hmem : part ∈ parts) : ∃ bytes, objects part.key = some bytes := by
  induction parts generalizing content with
  | nil => cases hmem
  | cons first parts ih =>
      unfold collectParts at hcollects
      split at hcollects
      · cases hcollects
      · rename_i bytes hbytes
        split_ifs at hcollects
        obtain ⟨rest, hrest, -⟩ := Option.map_eq_some_iff.mp hcollects
        cases hmem with
        | head => exact ⟨bytes, hbytes⟩
        | tail _ hmem => exact ih hrest hmem

/-- Deleting chunks does not change what can still be collected. -/
theorem collectParts_of_subset {objects objects' : ChunkObjects}
    (hsub : ∀ key, objects' key = objects key ∨ objects' key = none)
    {parts : List StoredObjectPart} {content : Bytes}
    (hcollects : collectParts objects' parts = some content) :
    collectParts objects parts = some content := by
  have hsame : ∀ part ∈ parts, objects part.key = objects' part.key := by
    intro part hmem
    cases hsub part.key with
    | inl heq => exact heq.symm
    | inr hnone =>
        exfalso
        induction parts generalizing content with
        | nil => cases hmem
        | cons first parts ih =>
            unfold collectParts at hcollects
            cases hmem with
            | head =>
                rw [hnone] at hcollects
                cases hcollects
            | tail _ hmem =>
                split at hcollects
                · cases hcollects
                · split_ifs at hcollects
                  obtain ⟨rest, hrest, -⟩ := Option.map_eq_some_iff.mp hcollects
                  exact ih hrest hmem
  rw [collectParts_congr hsame, hcollects]

theorem collectParts_append {objects : ChunkObjects} {parts : List StoredObjectPart}
    {content bytes : Bytes} {key : ChunkKey}
    (hcollects : collectParts objects parts = some content) (hobject : objects key = some bytes) :
    collectParts objects (parts ++ [⟨key, bytes.length⟩]) = some (content ++ bytes) := by
  induction parts generalizing content with
  | nil =>
      cases hcollects
      simp only [collectParts, List.nil_append, hobject, if_true, Option.map_some,
        List.append_nil]
  | cons part parts ih =>
      rw [List.cons_append]
      unfold collectParts at hcollects ⊢
      split at hcollects
      · cases hcollects
      · rename_i first hfirst
        split_ifs at hcollects with hlength
        obtain ⟨rest, hrest, hcontent⟩ := Option.map_eq_some_iff.mp hcollects
        rw [ih hrest, if_pos hlength, ← hcontent, Option.map_some, List.append_assoc]

theorem collectParts_concat {objects : ChunkObjects} {parts : List StoredObjectPart}
    {part : StoredObjectPart} {content : Bytes}
    (hcollects : collectParts objects (parts ++ [part]) = some content) :
    ∃ front last, collectParts objects parts = some front ∧
      objects part.key = some last ∧ content = front ++ last := by
  induction parts generalizing content with
  | nil =>
      simp only [List.nil_append, collectParts] at hcollects
      split at hcollects
      · cases hcollects
      · rename_i last hlast
        split_ifs at hcollects
        cases hcollects
        exact ⟨[], last, rfl, hlast, List.append_nil last⟩
  | cons first parts ih =>
      rw [List.cons_append] at hcollects
      unfold collectParts at hcollects ⊢
      split at hcollects
      · cases hcollects
      · rename_i bytes hbytes
        split_ifs at hcollects with hlength
        obtain ⟨rest, hrest, hcontent⟩ := Option.map_eq_some_iff.mp hcollects
        obtain ⟨front, last, hfront, hlast, happend⟩ := ih hrest
        refine ⟨bytes ++ front, last, ?_, hlast, ?_⟩
        · rw [if_pos hlength, hfront, Option.map_some]
        · rw [← hcontent, happend, List.append_assoc]

/-- The chunks collect to as many bytes as the offset says. -/
theorem Follows.length_collect {id : String} {objects : ChunkObjects} {first last : ℕ}
    {parts : List StoredObjectPart} (hfollows : Follows id first parts last) {content : Bytes}
    (hcollects : collectParts objects parts = some content) :
    first + content.length = last := by
  induction hfollows generalizing content with
  | nil offset =>
      cases hcollects
      rfl
  | cons offset size last parts hsize hparts ih =>
      unfold collectParts at hcollects
      split at hcollects
      · cases hcollects
      · split_ifs at hcollects with hlength
        obtain ⟨rest, hrest, hcontent⟩ := Option.map_eq_some_iff.mp hcollects
        have hlast := ih hrest
        change _ = size at hlength
        rw [← hcontent, List.length_append, hlength]
        omega

end SeizaServer.Uploads
