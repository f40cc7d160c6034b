import SeizaServer.ResumableUpload

/-!
# Reading an upload back

The readers of a complete upload: assembling in memory, the three ways of
composing, the ranged reads of a prefix, and concatenation of partial uploads.
-/

namespace SeizaServer.Uploads

/-! ## Readers -/

/-- `collect_parts`, which adds the sizes up first. -/
def composeBuffered (objects : ChunkObjects) (parts : List StoredObjectPart) : Option Bytes :=
  if (parts.map (·.size)).sum < 2 ^ 64 then collectParts objects parts else none

/-- The local store copies one part after the other to its output. -/
def composeLocal (objects : ChunkObjects) : List StoredObjectPart → Bytes → Option Bytes
  | [], output => some output
  | part :: parts, output =>
      match objects part.key with
      | none => none
      | some input =>
          if input.length = part.size then composeLocal objects parts (output ++ input) else none

def s3MultipartCopyCompatible (parts : List StoredObjectPart) : Bool :=
  !parts.isEmpty && decide (parts.length ≤ 10000) &&
    parts.zipIdx.all fun part =>
      decide (0 < part.1.size) && decide (part.1.size ≤ 5 * 1024 * 1024 * 1024) &&
        (decide (part.2 + 1 = parts.length) || decide (5 * 1024 * 1024 ≤ part.1.size))

/-- The copied parts with their part numbers. -/
def copyParts (objects : ChunkObjects) (number : ℕ) :
    List StoredObjectPart → Option (List (ℕ × Bytes))
  | [] => some []
  | part :: parts =>
      match objects part.key, copyParts objects (number + 1) parts with
      | some bytes, some copies => some ((number, bytes) :: copies)
      | _, _ => none

/-- The copies are done in some order, sorted by number and joined. -/
def composeS3 (completionOrder : List (ℕ × Bytes) → List (ℕ × Bytes)) (objects : ChunkObjects)
    (parts : List StoredObjectPart) : Option Bytes :=
  if s3MultipartCopyCompatible parts then
    (copyParts objects 1 parts).map fun copies =>
      ((completionOrder copies).mergeSort fun a b => decide (a.1 ≤ b.1)).flatMap (·.2)
  else composeBuffered objects parts

inductive StoreKind where
  | localFiles
  | s3

/-- The first bytes of an object: the local store reads exactly so many, S3 sends
what there is. -/
def StoreKind.getRange (kind : StoreKind) (length : ℕ) (content : Bytes) : Option Bytes :=
  if length = 0 then some []
  else
    match kind with
    | .localFiles => if length ≤ content.length then some (content.take length) else none
    | .s3 => if content.isEmpty then none else some (content.take length)

def readParts (kind : StoreKind) (objects : ChunkObjects) (capacity : ℕ) :
    List StoredObjectPart → Bytes → Option Bytes
  | [], output => some output
  | part :: parts, output =>
      if output.length = capacity then some output
      else
        let requested := min (capacity - output.length) part.size
        match (objects part.key).bind (kind.getRange requested) with
        | none => none
        | some bytes =>
            if bytes.length = requested then readParts kind objects capacity parts (output ++ bytes)
            else none

namespace ResumableUpload

def assemble (objects : ChunkObjects) (upload : ResumableUpload) : Option Bytes :=
  if upload.offset = upload.totalSize then
    (collectParts objects upload.chunks).filter fun output =>
      decide (output.length = upload.totalSize)
  else none

def readPrefix (kind : StoreKind) (objects : ChunkObjects) (upload : ResumableUpload)
    (limit : ℕ) : Option Bytes :=
  if upload.offset = upload.totalSize then
    let capacity := min upload.totalSize limit
    (readParts kind objects capacity upload.chunks []).filter fun output =>
      decide (output.length = capacity)
  else none

def concatenate (id : String) (parts : List ResumableUpload) : Option ResumableUpload :=
  let totalSize := (parts.map (·.totalSize)).sum
  if totalSize < 2 ^ 64 then
    some {
      id := id
      totalSize := totalSize
      offset := totalSize
      jobId := none
      isPartial := false
      chunks := parts.flatMap (·.chunks) }
  else none

end ResumableUpload

/-! ## What they read -/

def Stored (objects : ChunkObjects) (part : StoredObjectPart) (body : Bytes) : Prop :=
  objects part.key = some body ∧ part.size = body.length

/-- A complete upload whose chunk objects hold the bodies. -/
structure Carries (objects : ChunkObjects) (upload : ResumableUpload) (bodies : List Bytes) :
    Prop where
  parts : List.Forall₂ (Stored objects) upload.chunks bodies
  complete : upload.offset = upload.totalSize
  total : bodies.flatten.length = upload.totalSize
  bound : upload.totalSize < 2 ^ 64

variable {objects : ChunkObjects} {parts : List StoredObjectPart} {bodies : List Bytes}

theorem collectParts_of_stored (hstored : List.Forall₂ (Stored objects) parts bodies) :
    collectParts objects parts = some bodies.flatten := by
  induction hstored with
  | nil => rfl
  | cons hpart hparts ih =>
      unfold collectParts
      rw [hpart.1]
      dsimp only
      rw [if_pos hpart.2.symm, ih, List.flatten_cons]
      rfl

theorem sum_sizes_of_stored (hstored : List.Forall₂ (Stored objects) parts bodies) :
    (parts.map (·.size)).sum = bodies.flatten.length := by
  induction hstored with
  | nil => rfl
  | cons hpart hparts ih =>
      rw [List.map_cons, List.sum_cons, List.flatten_cons, List.length_append, ih, hpart.2]

theorem composeLocal_of_stored (hstored : List.Forall₂ (Stored objects) parts bodies)
    (output : Bytes) : composeLocal objects parts output = some (output ++ bodies.flatten) := by
  induction hstored generalizing output with
  | nil =>
      rw [List.flatten_nil, List.append_nil]
      rfl
  | cons hpart hparts ih =>
      unfold composeLocal
      rw [hpart.1]
      dsimp only
      rw [if_pos hpart.2.symm, ih, List.flatten_cons, List.append_assoc]

theorem copyParts_of_stored (hstored : List.Forall₂ (Stored objects) parts bodies) (number : ℕ) :
    ∃ copies, copyParts objects number parts = some copies ∧ copies.flatMap (·.2) = bodies.flatten ∧
      copies.Pairwise (fun a b => a.1 < b.1) ∧ ∀ copy ∈ copies, number ≤ copy.1 := by
  induction hstored generalizing number with
  | nil => exact ⟨[], rfl, rfl, .nil, fun copy hmem => absurd hmem List.not_mem_nil⟩
  | @cons part body parts bodies hpart hparts ih =>
      obtain ⟨copies, hcopies, hjoined, hsorted, hlower⟩ := ih (number + 1)
      refine ⟨(number, body) :: copies, ?_, ?_, ?_, ?_⟩
      · unfold copyParts
        rw [hpart.1, hcopies]
      · rw [List.flatMap_cons, hjoined, List.flatten_cons]
      · apply List.Pairwise.cons
        · intro copy hmem
          have hle := hlower copy hmem
          change number < copy.1
          omega
        · exact hsorted
      · intro copy hmem
        cases hmem with
        | head => exact le_rfl
        | tail _ hmem =>
            have hle := hlower copy hmem
            omega

/-- Sorting by number undoes the order in which the copies were done. -/
theorem mergeSort_copies {copies completed : List (ℕ × Bytes)}
    (hsorted : copies.Pairwise fun a b => a.1 < b.1) (hperm : completed.Perm copies) :
    (completed.mergeSort fun a b => decide (a.1 ≤ b.1)) = copies := by
  have hdistinct : ∀ a ∈ copies, ∀ b ∈ copies, a ≠ b → a.1 ≠ b.1 := by
    have hne : copies.Pairwise fun a b => a.1 ≠ b.1 := hsorted.imp fun hlt => Nat.ne_of_lt hlt
    intro a ha b hb hab
    have hsymm : Std.Symm fun a b : ℕ × Bytes => a.1 ≠ b.1 := ⟨fun _ _ hab => Ne.symm hab⟩
    exact hne.forall ha hb hab
  have hall : (completed.mergeSort fun a b => decide (a.1 ≤ b.1)).Perm copies :=
    (List.mergeSort_perm _ _).trans hperm
  have hordered : (completed.mergeSort fun a b => decide (a.1 ≤ b.1)).Pairwise
      fun a b => decide (a.1 ≤ b.1) = true := by
    apply List.pairwise_mergeSort
    · intro a b c hab hbc
      exact decide_eq_true ((of_decide_eq_true hab).trans (of_decide_eq_true hbc))
    · intro a b
      rw [Bool.or_eq_true, decide_eq_true_iff, decide_eq_true_iff]
      exact Nat.le_total a.1 b.1
  have hcopies : copies.Pairwise fun a b => decide (a.1 ≤ b.1) = true :=
    hsorted.imp fun hlt => decide_eq_true (Nat.le_of_lt hlt)
  apply List.Perm.eq_of_pairwise _ hordered hcopies hall
  intro a b ha hb hab hba
  by_contra hne
  have hle := of_decide_eq_true hab
  have hge := of_decide_eq_true hba
  exact hdistinct a (hall.subset ha) b hb hne (Nat.le_antisymm hle hge)

theorem composeBuffered_of_stored (hstored : List.Forall₂ (Stored objects) parts bodies)
    (hbound : bodies.flatten.length < 2 ^ 64) :
    composeBuffered objects parts = some bodies.flatten := by
  unfold composeBuffered
  rw [sum_sizes_of_stored hstored, if_pos hbound, collectParts_of_stored hstored]

theorem composeS3_of_stored (hstored : List.Forall₂ (Stored objects) parts bodies)
    (hbound : bodies.flatten.length < 2 ^ 64)
    {completionOrder : List (ℕ × Bytes) → List (ℕ × Bytes)}
    (horder : ∀ copies, (completionOrder copies).Perm copies) :
    composeS3 completionOrder objects parts = some bodies.flatten := by
  obtain ⟨copies, hcopies, hjoined, hsorted, -⟩ := copyParts_of_stored hstored 1
  unfold composeS3
  split
  · rw [hcopies, Option.map_some, mergeSort_copies hsorted (horder copies), hjoined]
  · exact composeBuffered_of_stored hstored hbound

theorem getRange_of_le (kind : StoreKind) {length : ℕ} {content : Bytes}
    (hle : length ≤ content.length) : kind.getRange length content = some (content.take length) := by
  unfold StoreKind.getRange
  by_cases hzero : length = 0
  · rw [if_pos hzero, hzero, List.take_zero]
  · rw [if_neg hzero]
    cases kind with
    | localFiles =>
        dsimp only
        rw [if_pos hle]
    | s3 =>
        dsimp only
        have hnonempty : ¬ content.isEmpty = true := by
          intro hempty
          rw [List.isEmpty_iff.mp hempty] at hle
          exact hzero (Nat.le_zero.mp hle)
        rw [if_neg hnonempty]

/-- The parts are read until the capacity is reached. -/
theorem readParts_of_stored (kind : StoreKind)
    (hstored : List.Forall₂ (Stored objects) parts bodies) {capacity : ℕ} {output : Bytes}
    (hroom : output.length ≤ capacity) :
    readParts kind objects capacity parts output =
      some (output ++ bodies.flatten.take (capacity - output.length)) := by
  induction hstored generalizing output with
  | nil =>
      rw [List.flatten_nil, List.take_nil, List.append_nil]
      rfl
  | @cons part body parts bodies hpart hparts ih =>
      unfold readParts
      by_cases hfull : output.length = capacity
      · rw [if_pos hfull, hfull, Nat.sub_self, List.take_zero, List.append_nil]
      · have hle : min (capacity - output.length) part.size ≤ body.length := by
          rw [hpart.2]
          exact Nat.min_le_right _ _
        have htaken : (body.take (min (capacity - output.length) part.size)).length =
            min (capacity - output.length) part.size := by
          rw [List.length_take]
          exact Nat.min_eq_left hle
        have hnext : (output ++ body.take (min (capacity - output.length) part.size)).length ≤
            capacity := by
          rw [List.length_append, htaken]
          omega
        have hsize := hpart.2
        rw [if_neg hfull, hpart.1]
        dsimp only
        rw [Option.bind_some, getRange_of_le kind hle]
        dsimp only
        rw [if_pos htaken, ih hnext, List.flatten_cons, List.take_append, List.append_assoc]
        congr 3
        · rw [hsize, ← List.take_eq_take_min]
        · rw [List.length_append, htaken, hsize]
          congr 1
          omega

/-- Every reader of a complete upload reads its bodies in order. -/
structure ReadsAs (objects : ChunkObjects) (upload : ResumableUpload) (content : Bytes) :
    Prop where
  assemble : upload.assemble objects = some content
  composeLocal : composeLocal objects upload.chunks [] = some content
  composeS3 : ∀ completionOrder, (∀ copies, (completionOrder copies).Perm copies) →
    composeS3 completionOrder objects upload.chunks = some content
  composeBuffered : composeBuffered objects upload.chunks = some content
  readPrefix : ∀ kind limit, upload.readPrefix kind objects limit =
    some (content.take (min limit upload.totalSize))

theorem Carries.readsAs {upload : ResumableUpload} (hcarries : Carries objects upload bodies) :
    ReadsAs objects upload bodies.flatten := by
  have htotal := hcarries.total
  have hbound : bodies.flatten.length < 2 ^ 64 := by
    rw [htotal]
    exact hcarries.bound
  constructor
  · unfold ResumableUpload.assemble
    rw [if_pos hcarries.complete, collectParts_of_stored hcarries.parts, Option.filter_some,
      decide_eq_true htotal]
    rfl
  · exact composeLocal_of_stored hcarries.parts []
  · intro completionOrder horder
    exact composeS3_of_stored hcarries.parts hbound horder
  · exact composeBuffered_of_stored hcarries.parts hbound
  · intro kind limit
    have hroom : ([] : Bytes).length ≤ min upload.totalSize limit := Nat.zero_le _
    have hread := readParts_of_stored kind hcarries.parts hroom
    rw [List.nil_append, List.length_nil, Nat.sub_zero] at hread
    have hlength : (bodies.flatten.take (min upload.totalSize limit)).length =
        min upload.totalSize limit := by
      rw [List.length_take, htotal]
      exact Nat.min_eq_left (Nat.min_le_left _ _)
    unfold ResumableUpload.readPrefix
    dsimp only
    rw [if_pos hcarries.complete, hread, Option.filter_some, decide_eq_true hlength,
      Nat.min_comm limit]
    rfl

/-- Complete partial uploads are concatenated to a complete upload. -/
theorem Carries.concatenate {uploads : List ResumableUpload} {contents : List (List Bytes)}
    (hcarries : List.Forall₂ (Carries objects) uploads contents) {id : String}
    {upload : ResumableUpload} (hupload : ResumableUpload.concatenate id uploads = some upload) :
    Carries objects upload contents.flatten := by
  unfold ResumableUpload.concatenate at hupload
  dsimp only at hupload
  split_ifs at hupload with hbound
  have hparts : List.Forall₂ (Stored objects) (uploads.flatMap (·.chunks)) contents.flatten ∧
      contents.flatten.flatten.length = (uploads.map (·.totalSize)).sum := by
    clear hbound hupload
    induction hcarries with
    | nil => exact ⟨.nil, rfl⟩
    | cons hfirst hrest ih =>
        obtain ⟨hstored, hlength⟩ := ih
        rw [List.flatMap_cons, List.flatten_cons]
        refine ⟨List.rel_append hfirst.parts hstored, ?_⟩
        rw [List.flatten_append, List.length_append, hlength, hfirst.total, List.map_cons,
          List.sum_cons]
  cases hupload
  exact ⟨hparts.1, rfl, hparts.2, hbound⟩

end SeizaServer.Uploads
