import SeizaServer.UploadDelivery

/-!
# Terminated uploads

A `DELETE` removes the chunk objects of an upload one by one and its manifest
last.  It may stop after any of these deletions, be sent again, and come between
appends.  What can still be collected of an upload are the acknowledged bytes,
and a termination that runs to its end leaves at most the chunk of an append
that was interrupted.  An upload that is finalized has a job and is terminated no
more; what is stored of a final concatenation is not part of this store.
-/

namespace SeizaServer.Termination

open Uploads Delivery

inductive Request where
  | call (call : Call)
  /-- The end of a completing `PATCH`, or a query for the result: the job is saved,
  then these chunks are removed and, unless that is interrupted, the list of
  chunks is compacted. -/
  | finalize (id : String) (job : JobId) (removed : List StoredObjectPart) (compacted : Bool)
  /-- A termination that stops after this many deletions, if there are more. -/
  | terminate (id : String) (deletions : ℕ)

def deleteChunks (objects : ChunkObjects) (parts : List StoredObjectPart) : ChunkObjects :=
  parts.foldl (fun objects part => Function.update objects part.key none) objects

/-- A complete upload that is not partial, whose chunks can all be read. -/
def finalize (s : Store) (id : String) (job : JobId) (removed : List StoredObjectPart)
    (compacted : Bool) : Store :=
  match s.manifests id with
  | none => s
  | some upload =>
      if upload.jobId.isSome || upload.isPartial || upload.offset ≠ upload.totalSize ||
          (collectParts s.chunks upload.chunks).isNone then s
      else
        { s with
          chunks := deleteChunks s.chunks (upload.chunks.filter (· ∈ removed))
          manifests := Function.update s.manifests id
            (some { upload with
              jobId := some job
              chunks := if compacted then [] else upload.chunks }) }

/-- The chunks in the order of the manifest, then the manifest. -/
def terminate (s : Store) (id : String) (deletions : ℕ) : Store :=
  match s.manifests id with
  | none => s
  | some upload =>
      if upload.jobId.isSome then s
      else if upload.chunks.length < deletions then
        { s with
          chunks := deleteChunks s.chunks upload.chunks
          manifests := Function.update s.manifests id none }
      else { s with chunks := deleteChunks s.chunks (upload.chunks.take deletions) }

def step (s : Store) : Request → Store
  | .call call => s.step call
  | .finalize id job removed compacted => finalize s id job removed compacted
  | .terminate id deletions => terminate s id deletions

def run (s : Store) (requests : List Request) : Store := requests.foldl step s

def Request.id : Request → String
  | .call (.create id _ _) => id
  | .call (.append id _ _) => id
  | .call (.interrupt id _ _) => id
  | .finalize id _ _ _ => id
  | .terminate id _ => id

/-- The uploads that are created, in order. -/
def createdIds (requests : List Request) : List String :=
  requests.filterMap fun
    | .call (.create id _ _) => some id
    | _ => none

/-! ## Deletions -/

theorem deleteChunks_apply (objects : ChunkObjects) (parts : List StoredObjectPart)
    (key : ChunkKey) :
    deleteChunks objects parts key =
      if key ∈ parts.map StoredObjectPart.key then none else objects key := by
  induction parts generalizing objects with
  | nil => simp [deleteChunks]
  | cons part parts ih =>
      change deleteChunks (Function.update objects part.key none) parts key = _
      rw [ih]
      by_cases hpart : key = part.key
      · simp [hpart]
      · simp [hpart]

theorem deleteChunks_of_ne {id : String} {parts : List StoredObjectPart}
    (hparts : ∀ part ∈ parts, part.key.uploadId = id) (objects : ChunkObjects) {key : ChunkKey}
    (hkey : key.uploadId ≠ id) : deleteChunks objects parts key = objects key := by
  rw [deleteChunks_apply, if_neg]
  intro hmem
  obtain ⟨part, hpart, rfl⟩ := List.mem_map.mp hmem
  exact hkey (hparts part hpart)

theorem deleteChunks_take (objects : ChunkObjects) (parts : List StoredObjectPart) (count : ℕ) :
    deleteChunks (deleteChunks objects (parts.take count)) parts = deleteChunks objects parts := by
  funext key
  simp only [deleteChunks_apply]
  split
  next => rfl
  next hkept =>
    rw [if_neg]
    intro hmem
    obtain ⟨part, hpart, hkey⟩ := List.mem_map.mp hmem
    exact hkept (List.mem_map.mpr ⟨part, List.mem_of_mem_take hpart, hkey⟩)

/-! ## Uploads that may have lost chunks -/

/-- The chunk of an accepted body, unless it was deleted. -/
def Kept (objects : ChunkObjects) (part : StoredObjectPart) (body : Bytes) : Prop :=
  (objects part.key = some body ∨ objects part.key = none) ∧ part.size = body.length

/-- What a manifest says is so, but for the chunks that are deleted.  Whatever
else is stored of the upload was stored by an append that was interrupted. -/
structure Agrees (s : Store) (id : String) (upload : ResumableUpload) : Prop where
  id_eq : upload.id = id
  jobless : upload.jobId = none
  wellFormed : upload.WellFormed
  kept : List.Forall₂ (Kept s.chunks) upload.chunks (s.accepted id)
  objects : ∀ offset, s.chunks ⟨id, offset⟩ ≠ none →
    offset = upload.offset ∨ ⟨id, offset⟩ ∈ upload.chunks.map StoredObjectPart.key

/-- So it is for every upload without a job. -/
def Consistent (s : Store) : Prop :=
  ∀ id upload, s.manifests id = some upload → upload.jobId = none → Agrees s id upload

/-- Identifiers to come are new. -/
structure Fresh (s : Store) (requests : List Request) : Prop where
  distinct : (createdIds requests).Nodup
  unused : ∀ id ∈ createdIds requests,
    s.manifests id = none ∧ ∀ offset, s.chunks ⟨id, offset⟩ = none

theorem forall₂_kept {objects objects' : ChunkObjects} {parts : List StoredObjectPart}
    {bodies : List Bytes} (hkept : List.Forall₂ (Kept objects) parts bodies)
    (hobjects : ∀ part ∈ parts, objects' part.key = objects part.key ∨ objects' part.key = none) :
    List.Forall₂ (Kept objects') parts bodies := by
  induction hkept with
  | nil => exact .nil
  | cons hpart hparts ih =>
      apply List.Forall₂.cons
      · refine ⟨?_, hpart.2⟩
        cases hobjects _ List.mem_cons_self with
        | inl hsame =>
            rw [hsame]
            exact hpart.1
        | inr hgone => exact .inr hgone
      · exact ih fun part hmem => hobjects part (List.mem_cons_of_mem _ hmem)

/-- Chunks that are collected are the accepted bodies. -/
theorem collect_of_kept {objects : ChunkObjects} {parts : List StoredObjectPart}
    {bodies : List Bytes} (hkept : List.Forall₂ (Kept objects) parts bodies) {content : Bytes}
    (hcollects : collectParts objects parts = some content) : content = bodies.flatten := by
  induction hkept generalizing content with
  | nil =>
      cases hcollects
      rfl
  | cons hpart hparts ih =>
      unfold collectParts at hcollects
      split at hcollects
      next => cases hcollects
      next bytes hbytes =>
        split_ifs at hcollects
        obtain ⟨rest, hrest, hcontent⟩ := Option.map_eq_some_iff.mp hcollects
        cases hpart.1 with
        | inl hstored =>
            rw [hbytes] at hstored
            cases hstored
            rw [← hcontent, List.flatten_cons, ih hrest]
        | inr hgone =>
            rw [hbytes] at hgone
            cases hgone

theorem collect_of_present {objects : ChunkObjects} {parts : List StoredObjectPart}
    {bodies : List Bytes} (hkept : List.Forall₂ (Kept objects) parts bodies)
    (hpresent : ∀ part ∈ parts, objects part.key ≠ none) :
    collectParts objects parts = some bodies.flatten := by
  induction hkept with
  | nil => rfl
  | cons hpart hparts ih =>
      have hstored := hpart.1.resolve_right (hpresent _ List.mem_cons_self)
      have hrest := ih fun part hmem => hpresent part (List.mem_cons_of_mem _ hmem)
      simp [collectParts, hstored, hpart.2, hrest]

/-! ## Single requests -/

/-- What a request can do to a consistent store. -/
inductive Effect (s : Store) : Request → Store → Prop
  | unchanged (request : Request) : Effect s request s
  | created {id : String} (totalSize : ℕ) (isPartial : Bool) :
      Effect s (.call (.create id totalSize isPartial))
        { s with
          manifests := Function.update s.manifests id (some (.new id totalSize isPartial))
          accepted := Function.update s.accepted id [] }
  | appended {id : String} {offset : ℕ} {body : Bytes} {upload appended : ResumableUpload}
      (hupload : s.manifests id = some upload) (hid : upload.id = id)
      (happends : Appends upload offset body appended) :
      Effect s (.call (.append id offset body))
        { s.putChunk id offset body with
          manifests := Function.update s.manifests id (some appended)
          accepted := Function.update s.accepted id (s.accepted id ++ [body]) }
  | stored {id : String} {offset : ℕ} {body : Bytes} {upload : ResumableUpload}
      (hupload : s.manifests id = some upload) (hjob : upload.jobId = none)
      (hoffset : offset = upload.offset) :
      Effect s (.call (.interrupt id offset body)) (s.putChunk id offset body)
  | finalized {id : String} {upload finished : ResumableUpload} {job : JobId}
      {removed : List StoredObjectPart} {compacted : Bool} (parts : List StoredObjectPart)
      (hupload : s.manifests id = some upload) (hjob : upload.jobId = none)
      (hcollects : collectParts s.chunks upload.chunks ≠ none) (hparts : parts ⊆ upload.chunks)
      (hfinished : finished.jobId = some job) :
      Effect s (.finalize id job removed compacted)
        { s with
          chunks := deleteChunks s.chunks parts
          manifests := Function.update s.manifests id (some finished) }
  | deleted {id : String} {upload : ResumableUpload} (deletions : ℕ)
      (hupload : s.manifests id = some upload) (hjob : upload.jobId = none) :
      Effect s (.terminate id deletions)
        { s with chunks := deleteChunks s.chunks (upload.chunks.take deletions) }
  | terminated {id : String} {upload : ResumableUpload} (deletions : ℕ)
      (hupload : s.manifests id = some upload) (hjob : upload.jobId = none) :
      Effect s (.terminate id deletions)
        { s with
          chunks := deleteChunks s.chunks upload.chunks
          manifests := Function.update s.manifests id none }

theorem Consistent.appended {s : Store} (hconsistent : Consistent s) {id : String}
    {upload appended : ResumableUpload} (hupload : s.manifests id = some upload) {offset : ℕ}
    {body : Bytes} (happend : upload.append offset body = .ok appended) :
    Appends upload offset body appended ∧ upload.id = id ∧ appended.id = id := by
  have happends := appends_of_append
    (fun hjob => (hconsistent id upload hupload hjob).wellFormed) happend
  have hid := (hconsistent id upload hupload happends.jobless).id_eq
  refine ⟨happends, hid, ?_⟩
  rw [happends.result]
  exact hid

theorem effect_of_step {s : Store} (hconsistent : Consistent s) (request : Request) :
    Effect s request (step s request) := by
  cases request with
  | call call =>
      change Effect s (.call call) (s.step call)
      unfold Store.step
      cases call with
      | create id totalSize isPartial =>
          dsimp only
          split_ifs
          · exact .created totalSize isPartial
          · exact .unchanged _
      | append id offset body =>
          dsimp only
          split
          next appended happend =>
            obtain ⟨upload, hupload, hok⟩ := Option.map_eq_some_iff.mp happend
            obtain ⟨happends, hid, hsame⟩ := hconsistent.appended hupload hok
            rw [hsame]
            exact .appended hupload hid happends
          next => exact .unchanged _
      | interrupt id offset body =>
          dsimp only
          split
          next appended happend =>
            obtain ⟨upload, hupload, hok⟩ := Option.map_eq_some_iff.mp happend
            obtain ⟨happends, _, hsame⟩ := hconsistent.appended hupload hok
            rw [hsame]
            exact .stored hupload happends.jobless happends.atEnd
          next => exact .unchanged _
  | finalize id job removed compacted =>
      change Effect s (.finalize id job removed compacted) (finalize s id job removed compacted)
      unfold finalize
      split
      next => exact .unchanged _
      next upload hupload =>
        split
        next => exact .unchanged _
        next hrefused =>
          simp only [Bool.or_eq_true, not_or, Bool.not_eq_true, Option.isSome_eq_false_iff,
            Option.isNone_iff_eq_none] at hrefused
          exact .finalized _ hupload hrefused.1.1.1 hrefused.2 List.filter_sublist.subset rfl
  | terminate id deletions =>
      change Effect s (.terminate id deletions) (terminate s id deletions)
      unfold terminate
      split
      next => exact .unchanged _
      next upload hupload =>
        split_ifs with hjob
        · exact .unchanged _
        · exact .terminated deletions hupload (Option.not_isSome_iff_eq_none.mp hjob)
        · exact .deleted deletions hupload (Option.not_isSome_iff_eq_none.mp hjob)

/-! ## Whole runs -/

theorem Agrees.key_id {s : Store} {id : String} {upload : ResumableUpload}
    (hagrees : Agrees s id upload) {part : StoredObjectPart} (hmem : part ∈ upload.chunks) :
    part.key.uploadId = id := by
  rw [hagrees.wellFormed.chunks.key_id hmem]
  exact hagrees.id_eq

/-- Only the chunks of the upload itself matter, and some of these may go. -/
theorem Agrees.of_chunks {s s' : Store} {id : String} {upload : ResumableUpload}
    (hagrees : Agrees s id upload) (haccepted : s'.accepted id = s.accepted id)
    (hchunks : ∀ offset, s'.chunks ⟨id, offset⟩ = s.chunks ⟨id, offset⟩ ∨
      s'.chunks ⟨id, offset⟩ = none) : Agrees s' id upload := by
  constructor
  · exact hagrees.id_eq
  · exact hagrees.jobless
  · exact hagrees.wellFormed
  · rw [haccepted]
    apply forall₂_kept hagrees.kept
    intro part hmem
    have hid := hagrees.key_id hmem
    cases hkey : part.key with
    | mk uploadId offset =>
        rw [hkey] at hid
        dsimp only at hid
        rw [hid]
        exact hchunks offset
  · intro offset hobject
    apply hagrees.objects
    cases hchunks offset with
    | inl hsame =>
        rw [← hsame]
        exact hobject
    | inr hgone => exact absurd hgone hobject

theorem deleteChunks_or (objects : ChunkObjects) (parts : List StoredObjectPart)
    (key : ChunkKey) :
    deleteChunks objects parts key = objects key ∨ deleteChunks objects parts key = none := by
  rw [deleteChunks_apply]
  split
  next => exact .inr rfl
  next => exact .inl rfl

/-- A chunk at the offset of an upload is none of those it lists. -/
theorem Agrees.putChunk_listed {s : Store} {id : String} {upload : ResumableUpload}
    (hagrees : Agrees s id upload) (body : Bytes) {part : StoredObjectPart}
    (hmem : part ∈ upload.chunks) :
    (s.putChunk id upload.offset body).chunks part.key = s.chunks part.key := by
  have hlt := hagrees.wellFormed.chunks.key_lt hmem
  have hne : part.key ≠ ⟨id, upload.offset⟩ := by
    intro hkey
    simp [hkey] at hlt
  exact Function.update_of_ne hne _ _

theorem Agrees.putChunk {s : Store} {id : String} {upload : ResumableUpload}
    (hagrees : Agrees s id upload) (body : Bytes) :
    Agrees (s.putChunk id upload.offset body) id upload := by
  constructor
  · exact hagrees.id_eq
  · exact hagrees.jobless
  · exact hagrees.wellFormed
  · apply forall₂_kept hagrees.kept
    intro part hmem
    exact .inl (hagrees.putChunk_listed body hmem)
  · intro offset hobject
    by_cases hoffset : offset = upload.offset
    · exact .inl hoffset
    · have hne : (⟨id, offset⟩ : ChunkKey) ≠ ⟨id, upload.offset⟩ := by simp [hoffset]
      have hsame := Function.update_of_ne hne (some body) s.chunks
      apply hagrees.objects
      rw [← hsame]
      exact hobject

theorem Agrees.append {s : Store} {id : String} {upload appended : ResumableUpload}
    (hagrees : Agrees s id upload) {offset : ℕ} {body : Bytes}
    (happends : Appends upload offset body appended) :
    Agrees
      { s.putChunk id offset body with
        manifests := Function.update s.manifests id (some appended)
        accepted := Function.update s.accepted id (s.accepted id ++ [body]) } id appended := by
  have hput := hagrees.putChunk body
  rw [← happends.atEnd] at hput
  have hwell := happends.wellFormed hagrees.wellFormed
  have hresult := happends.result
  have hchunks : appended.chunks = upload.chunks ++ [⟨⟨id, offset⟩, body.length⟩] := by
    rw [hresult, ← hagrees.id_eq]
  constructor
  · rw [hresult]
    exact hagrees.id_eq
  · rw [hresult]
    exact hagrees.jobless
  · exact hwell
  · rw [hchunks]
    dsimp only
    rw [Function.update_self]
    have hnew : Kept (s.putChunk id offset body).chunks ⟨⟨id, offset⟩, body.length⟩ body :=
      ⟨.inl (Function.update_self ..), rfl⟩
    exact List.rel_append hput.kept (.cons hnew .nil)
  · intro other hobject
    right
    rw [hchunks, List.map_append, List.mem_append]
    cases hput.objects other hobject with
    | inl hoffset =>
        right
        simp [hoffset, happends.atEnd]
    | inr hlisted => exact .inl hlisted

theorem putChunk_of_ne (s : Store) {id other : String} (hne : other ≠ id) (first offset : ℕ)
    (body : Bytes) : (s.putChunk id first body).chunks ⟨other, offset⟩ = s.chunks ⟨other, offset⟩ :=
  Function.update_of_ne (by simp [hne]) _ _

theorem deleteChunks_other {s : Store} {id other : String} {upload : ResumableUpload}
    (hagrees : Agrees s id upload) (hne : other ≠ id) {parts : List StoredObjectPart}
    (hparts : parts ⊆ upload.chunks) (offset : ℕ) :
    deleteChunks s.chunks parts ⟨other, offset⟩ = s.chunks ⟨other, offset⟩ :=
  deleteChunks_of_ne (fun _ hmem => hagrees.key_id (hparts hmem)) s.chunks hne

/-- A request keeps to the upload it names. -/
theorem Effect.other {s s' : Store} {request : Request} (heffect : Effect s request s')
    (hconsistent : Consistent s) {other : String} (hother : other ≠ request.id) :
    s'.manifests other = s.manifests other ∧ s'.accepted other = s.accepted other ∧
      ∀ offset, s'.chunks ⟨other, offset⟩ = s.chunks ⟨other, offset⟩ := by
  cases heffect with
  | unchanged => exact ⟨rfl, rfl, fun _ => rfl⟩
  | created =>
      exact ⟨Function.update_of_ne hother _ _, Function.update_of_ne hother _ _, fun _ => rfl⟩
  | appended hupload hid happends =>
      exact ⟨Function.update_of_ne hother _ _, Function.update_of_ne hother _ _,
        fun offset => putChunk_of_ne s hother _ offset _⟩
  | stored hupload hjob hoffset =>
      exact ⟨rfl, rfl, fun offset => putChunk_of_ne s hother _ offset _⟩
  | finalized parts hupload hjob hcollects hparts hfinished =>
      have hagrees := hconsistent _ _ hupload hjob
      exact ⟨Function.update_of_ne hother _ _, rfl, deleteChunks_other hagrees hother hparts⟩
  | deleted deletions hupload hjob =>
      have hagrees := hconsistent _ _ hupload hjob
      exact ⟨rfl, rfl, deleteChunks_other hagrees hother (List.take_subset ..)⟩
  | terminated deletions hupload hjob =>
      have hagrees := hconsistent _ _ hupload hjob
      exact ⟨Function.update_of_ne hother _ _, rfl,
        deleteChunks_other hagrees hother (List.Subset.refl _)⟩

theorem Fresh.tail {s : Store} {request : Request} {requests : List Request}
    (hfresh : Fresh s (request :: requests)) : Fresh s requests := by
  have hsub : (createdIds requests).Sublist (createdIds (request :: requests)) :=
    (List.sublist_cons_self request requests).filterMap _
  exact ⟨hfresh.distinct.sublist hsub, fun id hmem => hfresh.unused id (hsub.subset hmem)⟩

/-- Every request keeps the store consistent. -/
theorem Effect.consistent {s s' : Store} {request : Request} (heffect : Effect s request s')
    (hconsistent : Consistent s)
    (hnew : ∀ id totalSize isPartial, request = .call (.create id totalSize isPartial) →
      ∀ offset, s.chunks ⟨id, offset⟩ = none) : Consistent s' := by
  intro id upload hupload hjobless
  by_cases hother : id = request.id
  · subst hother
    cases heffect with
    | unchanged => exact hconsistent _ _ hupload hjobless
    | created totalSize isPartial =>
        dsimp only [Request.id] at hupload ⊢
        rw [Function.update_self] at hupload
        cases hupload
        constructor
        · rfl
        · rfl
        · exact ⟨.nil 0, Nat.zero_le totalSize⟩
        · dsimp only
          rw [Function.update_self]
          exact .nil
        · intro offset hobject
          exact absurd (hnew _ totalSize isPartial rfl offset) hobject
    | appended hbefore hid happends =>
        dsimp only [Request.id] at hupload ⊢
        rw [Function.update_self] at hupload
        cases hupload
        exact (hconsistent _ _ hbefore happends.jobless).append happends
    | stored hbefore hjob hoffset =>
        rw [hoffset]
        cases hbefore.symm.trans hupload
        exact (hconsistent _ _ hbefore hjob).putChunk _
    | finalized parts hbefore hjob hcollects hparts hfinished =>
        dsimp only [Request.id] at hupload
        rw [Function.update_self] at hupload
        cases hupload
        rw [hjobless] at hfinished
        cases hfinished
    | deleted deletions hbefore hjob =>
        exact (hconsistent _ _ hupload hjobless).of_chunks rfl fun offset => deleteChunks_or _ _ _
    | terminated deletions hbefore hjob =>
        dsimp only [Request.id] at hupload
        rw [Function.update_self] at hupload
        cases hupload
  · have hkept := heffect.other hconsistent hother
    rw [hkept.1] at hupload
    exact (hconsistent _ _ hupload hjobless).of_chunks hkept.2.1 fun offset => .inl (hkept.2.2 offset)

theorem createdIds_cons (request : Request) (requests : List Request) :
    createdIds (request :: requests) = createdIds [request] ++ createdIds requests :=
  List.filterMap_append (l := [request])

/-- Only a creation does anything about an upload without a manifest. -/
theorem Effect.eq_of_absent {s s' : Store} {request : Request} (heffect : Effect s request s')
    (habsent : s.manifests request.id = none) (hnew : request.id ∉ createdIds [request]) :
    s' = s := by
  have hnone : ∀ upload, s.manifests request.id ≠ some upload := by
    intro upload hupload
    rw [habsent] at hupload
    cases hupload
  cases heffect with
  | unchanged => rfl
  | created => exact absurd List.mem_cons_self hnew
  | appended hupload => exact absurd hupload (hnone _)
  | stored hupload => exact absurd hupload (hnone _)
  | finalized parts hupload => exact absurd hupload (hnone _)
  | deleted deletions hupload => exact absurd hupload (hnone _)
  | terminated deletions hupload => exact absurd hupload (hnone _)

/-- Nothing is stored of an upload before it is created. -/
theorem Fresh.step {s s' : Store} {request : Request} {requests : List Request}
    (heffect : Effect s request s') (hconsistent : Consistent s)
    (hfresh : Fresh s (request :: requests)) : Fresh s' requests := by
  have htail := hfresh.tail
  have hdistinct := hfresh.distinct
  rw [createdIds_cons, List.nodup_append] at hdistinct
  refine ⟨htail.distinct, ?_⟩
  intro id hmem
  have hunused := htail.unused id hmem
  by_cases hother : id = request.id
  · have hnew : request.id ∉ createdIds [request] := by
      intro hcreated
      exact hdistinct.2.2 request.id hcreated id hmem hother.symm
    have hsame := heffect.eq_of_absent (hother ▸ hunused.1) hnew
    rw [hsame]
    exact hunused
  · have hkept := heffect.other hconsistent hother
    exact ⟨hkept.1.trans hunused.1, fun offset => (hkept.2.2 offset).trans (hunused.2 offset)⟩

theorem Fresh.objects {s : Store} {request : Request} {requests : List Request}
    (hfresh : Fresh s (request :: requests)) {id : String} {totalSize : ℕ} {isPartial : Bool}
    (hcreate : request = .call (.create id totalSize isPartial)) (offset : ℕ) :
    s.chunks ⟨id, offset⟩ = none := by
  subst hcreate
  exact (hfresh.unused id List.mem_cons_self).2 offset

theorem consistent_step {s : Store} {request : Request} {requests : List Request}
    (hconsistent : Consistent s) (hfresh : Fresh s (request :: requests)) :
    Consistent (step s request) ∧ Fresh (step s request) requests := by
  have heffect := effect_of_step hconsistent request
  exact ⟨heffect.consistent hconsistent fun _ _ _ => hfresh.objects,
    hfresh.step heffect hconsistent⟩

theorem consistent_run {s : Store} {requests later : List Request}
    (hconsistent : Consistent s) (hfresh : Fresh s (requests ++ later)) :
    Consistent (run s requests) ∧ Fresh (run s requests) later := by
  induction requests generalizing s with
  | nil => exact ⟨hconsistent, hfresh⟩
  | cons request requests ih =>
      have hnext := consistent_step hconsistent hfresh
      exact ih hnext.1 hnext.2

theorem consistent_empty {requests : List Request} (hdistinct : (createdIds requests).Nodup) :
    Consistent Store.empty ∧ Fresh Store.empty requests := by
  constructor
  · intro id upload hupload
    cases hupload
  · exact ⟨hdistinct, fun _ _ => ⟨rfl, fun _ => rfl⟩⟩

/-! ## Uploads that are not terminated -/

/-- Every chunk that is listed is there, unless the upload has a job. -/
def Present (s : Store) (id : String) : Prop :=
  ∀ upload, s.manifests id = some upload → upload.jobId = none →
    ∀ part ∈ upload.chunks, s.chunks part.key ≠ none

theorem putChunk_present (s : Store) (id : String) (offset : ℕ) (body : Bytes) {key : ChunkKey}
    (hpresent : s.chunks key ≠ none) : (s.putChunk id offset body).chunks key ≠ none := by
  by_cases hkey : key = ⟨id, offset⟩
  · simp [Store.putChunk, hkey]
  · simpa [Store.putChunk, hkey] using hpresent

theorem Effect.present {s s' : Store} {request : Request} (heffect : Effect s request s')
    (hconsistent : Consistent s) {id : String}
    (hkept : ∀ deletions, request ≠ .terminate id deletions)
    (hpresent : Present s id) : Present s' id := by
  intro upload hupload hjobless part hmem
  by_cases hother : id = request.id
  · subst hother
    cases heffect with
    | unchanged => exact hpresent upload hupload hjobless part hmem
    | created =>
        dsimp only [Request.id] at hupload
        rw [Function.update_self] at hupload
        cases hupload
        cases hmem
    | appended hbefore hid happends =>
        dsimp only [Request.id] at hupload
        rw [Function.update_self] at hupload
        cases hupload
        rw [happends.result] at hmem
        cases List.mem_append.mp hmem with
        | inl hlisted =>
            exact putChunk_present _ _ _ _ (hpresent _ hbefore happends.jobless part hlisted)
        | inr hnew =>
            rw [List.mem_singleton] at hnew
            simp [hnew, hid, Store.putChunk]
    | stored => exact putChunk_present _ _ _ _ (hpresent upload hupload hjobless part hmem)
    | finalized parts hbefore hjob hcollects hparts hfinished =>
        dsimp only [Request.id] at hupload
        rw [Function.update_self] at hupload
        cases hupload
        rw [hjobless] at hfinished
        cases hfinished
    | deleted deletions => exact absurd rfl (hkept deletions)
    | terminated deletions => exact absurd rfl (hkept deletions)
  · have hsame := heffect.other hconsistent hother
    rw [hsame.1] at hupload
    have hid := (hconsistent id upload hupload hjobless).key_id hmem
    have hbefore := hpresent upload hupload hjobless part hmem
    have hchunk := hsame.2.2 part.key.offset
    rw [← hid] at hchunk
    rw [hchunk]
    exact hbefore

theorem present_run {s : Store} {requests later : List Request} {id : String}
    (hconsistent : Consistent s) (hfresh : Fresh s (requests ++ later))
    (hkept : ∀ deletions, .terminate id deletions ∉ requests) (hpresent : Present s id) :
    Present (run s requests) id := by
  induction requests generalizing s with
  | nil => exact hpresent
  | cons request requests ih =>
      have hnext := consistent_step hconsistent hfresh
      apply ih hnext.1 hnext.2
      · intro deletions hmem
        exact hkept deletions (List.mem_cons_of_mem _ hmem)
      · apply (effect_of_step hconsistent request).present hconsistent _ hpresent
        intro deletions hrequest
        rw [hrequest] at hkept
        exact hkept deletions List.mem_cons_self

/-! ## Uploads that have lost a chunk -/

/-- A chunk that is listed is gone. -/
def Lost (s : Store) (id : String) : Prop :=
  ∀ upload, s.manifests id = some upload →
    upload.jobId = none ∧ ∃ part ∈ upload.chunks, s.chunks part.key = none

theorem Lost.collect {s : Store} {id : String} (hlost : Lost s id) {upload : ResumableUpload}
    (hupload : s.manifests id = some upload) : collectParts s.chunks upload.chunks = none := by
  rw [Option.eq_none_iff_forall_ne_some]
  intro content hcollects
  obtain ⟨_, part, hmem, hgone⟩ := hlost upload hupload
  obtain ⟨bytes, hbytes⟩ := collectParts_present hcollects hmem
  rw [hgone] at hbytes
  cases hbytes

theorem Effect.lost {s s' : Store} {request : Request} (heffect : Effect s request s')
    (hconsistent : Consistent s) {id : String} (hnew : id ∉ createdIds [request])
    (hlost : Lost s id) : Lost s' id := by
  intro upload hupload
  by_cases hother : id = request.id
  · subst hother
    cases heffect with
    | unchanged => exact hlost upload hupload
    | created => exact absurd List.mem_cons_self hnew
    | appended hbefore hid happends =>
        dsimp only [Request.id] at hupload
        rw [Function.update_self] at hupload
        cases hupload
        obtain ⟨hjob, part, hmem, hgone⟩ := hlost _ hbefore
        refine ⟨?_, part, ?_, ?_⟩
        · rw [happends.result]
          exact hjob
        · rw [happends.result]
          exact List.mem_append_left _ hmem
        · rw [happends.atEnd]
          exact ((hconsistent _ _ hbefore hjob).putChunk_listed _ hmem).trans hgone
    | stored hbefore hjob hoffset =>
        obtain ⟨_, part, hmem, hgone⟩ := hlost upload hupload
        cases hbefore.symm.trans hupload
        refine ⟨hjob, part, hmem, ?_⟩
        rw [hoffset]
        exact ((hconsistent _ _ hbefore hjob).putChunk_listed _ hmem).trans hgone
    | finalized parts hbefore hjob hcollects =>
        -- Not all of the chunks can be read any more.
        exact absurd (hlost.collect hbefore) hcollects
    | deleted deletions hbefore =>
        obtain ⟨hjob, part, hmem, hgone⟩ := hlost upload hupload
        refine ⟨hjob, part, hmem, ?_⟩
        cases deleteChunks_or s.chunks _ part.key with
        | inl hsame => exact hsame.trans hgone
        | inr hdeleted => exact hdeleted
    | terminated deletions hbefore =>
        dsimp only [Request.id] at hupload
        rw [Function.update_self] at hupload
        cases hupload
  · have hsame := heffect.other hconsistent hother
    rw [hsame.1] at hupload
    obtain ⟨hjob, part, hmem, hgone⟩ := hlost upload hupload
    have hid := (hconsistent id upload hupload hjob).key_id hmem
    have hchunk := hsame.2.2 part.key.offset
    rw [← hid] at hchunk
    exact ⟨hjob, part, hmem, hchunk.trans hgone⟩

theorem Fresh.not_created {s : Store} {requests : List Request} (hfresh : Fresh s requests)
    {id : String} {upload : ResumableUpload} (hupload : s.manifests id = some upload) :
    id ∉ createdIds requests := by
  intro hmem
  rw [(hfresh.unused id hmem).1] at hupload
  cases hupload

theorem lost_run {s : Store} {later : List Request} {id : String} (hconsistent : Consistent s)
    (hfresh : Fresh s later) (hnew : id ∉ createdIds later) (hlost : Lost s id) :
    Lost (run s later) id := by
  induction later generalizing s with
  | nil => exact hlost
  | cons request later ih =>
      have hnext := consistent_step hconsistent hfresh
      rw [createdIds_cons, List.mem_append, not_or] at hnew
      exact ih hnext.1 hnext.2 hnew.2
        ((effect_of_step hconsistent request).lost hconsistent hnew.1 hlost)

/-! ## Terminations -/

theorem terminate_stopped {s : Store} {id : String} {upload : ResumableUpload}
    (hupload : s.manifests id = some upload) (hjobless : upload.jobId = none) {stop : ℕ}
    (hstop : stop ≤ upload.chunks.length) :
    terminate s id stop =
      { s with chunks := deleteChunks s.chunks (upload.chunks.take stop) } := by
  simp [terminate, hupload, hjobless, Nat.not_lt.mpr hstop]

theorem terminate_finished {s : Store} {id : String} {upload : ResumableUpload}
    (hupload : s.manifests id = some upload) (hjobless : upload.jobId = none) {last : ℕ}
    (hlast : upload.chunks.length < last) :
    terminate s id last =
      { s with
        chunks := deleteChunks s.chunks upload.chunks
        manifests := Function.update s.manifests id none } := by
  simp [terminate, hupload, hjobless, hlast]

/-- A termination that is sent again does what one alone would have done. -/
theorem terminate_resumed {s : Store} {id : String} {upload : ResumableUpload}
    (hupload : s.manifests id = some upload) (hjobless : upload.jobId = none) {stops : List ℕ}
    (hstops : ∀ stop ∈ stops, stop ≤ upload.chunks.length) {last : ℕ}
    (hlast : upload.chunks.length < last) :
    terminate (run s (stops.map (.terminate id))) id last = terminate s id last := by
  induction stops generalizing s with
  | nil => rfl
  | cons stop stops ih =>
      have hstop := terminate_stopped hupload hjobless (hstops stop List.mem_cons_self)
      have hsame : (terminate s id stop).manifests id = some upload := by
        rw [hstop]
        exact hupload
      calc
        terminate (run s ((stop :: stops).map (.terminate id))) id last =
            terminate (run (terminate s id stop) (stops.map (.terminate id))) id last := rfl
        _ = terminate (terminate s id stop) id last :=
          ih hsame fun other hmem => hstops other (List.mem_cons_of_mem _ hmem)
        _ = terminate s id last := by
          rw [terminate_finished hsame hjobless hlast, terminate_finished hupload hjobless hlast,
            hstop]
          dsimp only
          rw [deleteChunks_take]

/-- What a termination that ran to its end has left: nothing of the upload but a
chunk at its offset, and everything of the others. -/
structure Terminated (s s' : Store) (upload : ResumableUpload) : Prop where
  manifest : s'.manifests upload.id = none
  objects : ∀ offset, s'.chunks ⟨upload.id, offset⟩ =
    if offset = upload.offset then s.chunks ⟨upload.id, offset⟩ else none
  others : ∀ id ≠ upload.id, s'.manifests id = s.manifests id ∧
    ∀ offset, s'.chunks ⟨id, offset⟩ = s.chunks ⟨id, offset⟩

theorem Agrees.terminated {s : Store} {id : String} {upload : ResumableUpload}
    (hagrees : Agrees s id upload) (hupload : s.manifests id = some upload) {last : ℕ}
    (hlast : upload.chunks.length < last) : Terminated s (terminate s id last) upload := by
  rw [terminate_finished hupload hagrees.jobless hlast]
  have hid := hagrees.id_eq
  subst hid
  constructor
  · exact Function.update_self ..
  · intro offset
    dsimp only
    rw [deleteChunks_apply]
    by_cases hlisted : (⟨upload.id, offset⟩ : ChunkKey) ∈ upload.chunks.map StoredObjectPart.key
    · obtain ⟨part, hmem, hkey⟩ := List.mem_map.mp hlisted
      have hlt := hagrees.wellFormed.chunks.key_lt hmem
      rw [hkey] at hlt
      rw [if_pos hlisted, if_neg hlt.ne]
    · rw [if_neg hlisted]
      split
      next => rfl
      next hoffset =>
        by_contra hobject
        exact (hagrees.objects offset hobject).elim hoffset hlisted
  · intro other hne
    exact ⟨Function.update_of_ne hne _ _,
      deleteChunks_other hagrees hne (List.Subset.refl _)⟩

/-- An upload whose manifest is gone stays as it is. -/
theorem gone_run {s : Store} {later : List Request} {id : String} (hconsistent : Consistent s)
    (hfresh : Fresh s later) (hnew : id ∉ createdIds later) (hgone : s.manifests id = none) :
    (run s later).manifests id = none ∧
      ∀ offset, (run s later).chunks ⟨id, offset⟩ = s.chunks ⟨id, offset⟩ := by
  induction later generalizing s with
  | nil => exact ⟨hgone, fun _ => rfl⟩
  | cons request later ih =>
      have hnext := consistent_step hconsistent hfresh
      rw [createdIds_cons, List.mem_append, not_or] at hnew
      have hstep : (step s request).manifests id = none ∧
          ∀ offset, (step s request).chunks ⟨id, offset⟩ = s.chunks ⟨id, offset⟩ := by
        have heffect := effect_of_step hconsistent request
        by_cases hother : id = request.id
        · have hsame := heffect.eq_of_absent (hother ▸ hgone) (hother ▸ hnew.1)
          rw [hsame]
          exact ⟨hgone, fun _ => rfl⟩
        · have hsame := heffect.other hconsistent hother
          exact ⟨hsame.1.trans hgone, hsame.2.2⟩
      have hrest := ih hnext.1 hnext.2 hnew.2 hstep.1
      exact ⟨hrest.1, fun offset => (hrest.2 offset).trans (hstep.2 offset)⟩

theorem Agrees.lost {s : Store} {id : String} {upload : ResumableUpload}
    (hagrees : Agrees s id upload) (hupload : s.manifests id = some upload)
    (hchunks : upload.chunks ≠ []) {deletions : ℕ} (hdeletions : 0 < deletions) :
    Lost (terminate s id deletions) id := by
  intro left hleft
  rcases Nat.lt_or_ge upload.chunks.length deletions with hlast | hstop
  · rw [terminate_finished hupload hagrees.jobless hlast] at hleft
    dsimp only at hleft
    rw [Function.update_self] at hleft
    cases hleft
  · rw [terminate_stopped hupload hagrees.jobless hstop] at hleft ⊢
    cases hupload.symm.trans hleft
    cases hparts : upload.chunks with
    | nil => exact absurd hparts hchunks
    | cons part parts =>
        refine ⟨hagrees.jobless, part, List.mem_cons_self, ?_⟩
        dsimp only
        rw [deleteChunks_apply, if_pos]
        apply List.mem_map_of_mem
        obtain ⟨count, rfl⟩ := Nat.exists_eq_succ_of_ne_zero hdeletions.ne'
        exact List.mem_cons_self

/-- What terminations do to an upload and what is read of it meanwhile. -/
structure Terminates (s : Store) (later : List Request) (upload : ResumableUpload) : Prop where
  read : ∀ content, collectParts s.chunks upload.chunks = some content →
    content = (s.accepted upload.id).flatten
  begun : upload.chunks ≠ [] → ∀ deletions > 0, ∀ left,
    (run (terminate s upload.id deletions) later).manifests upload.id = some left →
      collectParts (run (terminate s upload.id deletions) later).chunks left.chunks = none
  resumed : ∀ stops : List ℕ, (∀ stop ∈ stops, stop ≤ upload.chunks.length) →
    ∀ last > upload.chunks.length,
      terminate (run s (stops.map (.terminate upload.id))) upload.id last =
        terminate s upload.id last
  finished : ∀ last > upload.chunks.length,
    Terminated s (terminate s upload.id last) upload
  gone : ∀ last > upload.chunks.length,
    (run (terminate s upload.id last) later).manifests upload.id = none ∧
      ∀ offset, (run (terminate s upload.id last) later).chunks ⟨upload.id, offset⟩ =
        (terminate s upload.id last).chunks ⟨upload.id, offset⟩

/-- Creations, appends, finalizations and terminations come in any order, and each
of them may be interrupted.  What is read of an upload without a job are its
accepted bodies, all of them while it is not terminated and none once a
termination has begun; a termination that is sent again finishes, and no later
request brings anything of the upload back. -/
theorem upload_termination {requests later : List Request}
    (hdistinct : (createdIds (requests ++ later)).Nodup) {id : String} {upload : ResumableUpload}
    (hupload : (run Store.empty requests).manifests id = some upload)
    (hjob : upload.jobId = none) :
    upload.id = id ∧ Terminates (run Store.empty requests) later upload ∧
      ((∀ deletions, .terminate id deletions ∉ requests) →
        collectParts (run Store.empty requests).chunks upload.chunks =
          some ((run Store.empty requests).accepted id).flatten) := by
  have hempty := consistent_empty hdistinct
  have hrun := consistent_run hempty.1 hempty.2
  have hpresent : (∀ deletions, .terminate id deletions ∉ requests) →
      Present (run Store.empty requests) id := by
    intro hkept
    apply present_run hempty.1 hempty.2 hkept
    intro other hother
    cases hother
  generalize run Store.empty requests = s at hupload hrun hpresent ⊢
  have hagrees := hrun.1 id upload hupload hjob
  have hnew := hrun.2.not_created hupload
  have hid := hagrees.id_eq
  subst hid
  have hnext : ∀ deletions, Consistent (terminate s upload.id deletions) ∧
      Fresh (terminate s upload.id deletions) later := by
    intro deletions
    have hfresh : Fresh s (.terminate upload.id deletions :: later) :=
      ⟨hrun.2.distinct, hrun.2.unused⟩
    exact consistent_step hrun.1 hfresh
  refine ⟨rfl, ?_, ?_⟩
  · constructor
    · intro content hcollects
      exact collect_of_kept hagrees.kept hcollects
    · intro hchunks deletions hdeletions left hleft
      have hlost := hagrees.lost hupload hchunks hdeletions
      exact (lost_run (hnext deletions).1 (hnext deletions).2 hnew hlost).collect hleft
    · intro stops hstops last hlast
      exact terminate_resumed hupload hagrees.jobless hstops hlast
    · intro last hlast
      exact hagrees.terminated hupload hlast
    · intro last hlast
      have hgone := (hagrees.terminated hupload hlast).manifest
      exact gone_run (hnext last).1 (hnext last).2 hnew hgone
  · intro hkept
    exact collect_of_present hagrees.kept (hpresent hkept upload hupload hjob)

/-- An upload of two chunks with an interrupted append, of which a termination
deletes one chunk before another append; a second upload is finalized. -/
theorem upload_termination_sample :
    let s := run Store.empty [.call (.create "a" 6 false), .call (.append "a" 0 [1, 2]),
      .call (.append "a" 2 [3]), .call (.create "b" 1 false), .call (.append "b" 0 [7]),
      .finalize "b" 5 [⟨⟨"b", 0⟩, 1⟩] true, .call (.interrupt "a" 3 [9])]
    collectParts s.chunks [⟨⟨"a", 0⟩, 2⟩, ⟨⟨"a", 2⟩, 1⟩] = some [1, 2, 3] ∧
      collectParts (run (terminate s "a" 1) [.call (.append "a" 3 [4])]).chunks
        [⟨⟨"a", 0⟩, 2⟩, ⟨⟨"a", 2⟩, 1⟩, ⟨⟨"a", 3⟩, 1⟩] = none ∧
      (terminate s "a" 3).chunks ⟨"a", 3⟩ = some [9] := by
  intro s
  have htermination := @upload_termination
    [.call (.create "a" 6 false), .call (.append "a" 0 [1, 2]), .call (.append "a" 2 [3]),
      .call (.create "b" 1 false), .call (.append "b" 0 [7]),
      .finalize "b" 5 [⟨⟨"b", 0⟩, 1⟩] true, .call (.interrupt "a" 3 [9])]
    [.call (.append "a" 3 [4])] (by decide) "a"
    ⟨"a", 6, 3, none, false, [⟨⟨"a", 0⟩, 2⟩, ⟨⟨"a", 2⟩, 1⟩]⟩ rfl rfl
  refine ⟨?_, ?_, ?_⟩
  · exact htermination.2.2 (by intro deletions; simp)
  · exact htermination.2.1.begun (by simp) 1 Nat.one_pos
      ⟨"a", 6, 4, none, false, [⟨⟨"a", 0⟩, 2⟩, ⟨⟨"a", 2⟩, 1⟩, ⟨⟨"a", 3⟩, 1⟩]⟩ rfl
  · exact (htermination.2.1.finished 3 (by decide)).objects 3

end SeizaServer.Termination
