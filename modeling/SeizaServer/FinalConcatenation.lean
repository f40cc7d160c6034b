import SeizaServer.UploadReaders

/-!
# Final concatenation

Requests that concatenate one list of partial uploads.  Each draws an upload id and
an object key of its own, loads the parts, saves the final manifest, composes the
image, stores the job, removes the chunks and deletes the manifests of the parts,
while other requests do the same.
-/

namespace SeizaServer.Concatenation

open Uploads

inductive Request where
  | idle
  | loading (remaining : List String) (loaded : List ResumableUpload)
  | built (upload : ResumableUpload) (objectKey : String)
  | stored (upload : ResumableUpload) (objectKey : String)
  | composed (upload : ResumableUpload) (objectKey : String)
  | enqueued (upload : ResumableUpload) (objectKey : String)
  | saved (upload : ResumableUpload) (objectKey : String)
  | deleting (remaining : List String)

/-- `jobs` are the object keys of the jobs. -/
structure World where
  manifests : String → Option ResumableUpload
  chunks : ChunkObjects
  jobs : List String
  requests : ℕ → Request

inductive Action where
  | start (r : ℕ)
  | loadPart (r : ℕ)
  | build (r : ℕ) (id objectKey : String)
  | saveFinal (r : ℕ)
  | compose (r : ℕ)
  | enqueue (r : ℕ)
  | saveJob (r : ℕ) (job : JobId)
  | deleteChunk (r : ℕ) (part : StoredObjectPart)
  | compact (r : ℕ)
  | deletePart (r : ℕ)
  | stop (r : ℕ)

def World.setRequest (w : World) (r : ℕ) (request : Request) : World :=
  { w with requests := Function.update w.requests r request }

def World.saveManifest (w : World) (upload : ResumableUpload) : World :=
  { w with manifests := Function.update w.manifests upload.id (some upload) }

/-- A part must be a complete partial upload. -/
def acceptsPart (part : ResumableUpload) : Bool :=
  part.isPartial && decide (part.offset = part.totalSize) && part.jobId.isNone

/-- One call of a request for the parts `ids`; `none` where the request is not at
that point or the call fails. -/
def World.step (ids : List String) (maxUploadBytes : ℕ) (w : World) : Action → Option World
  | .start r =>
      match w.requests r with
      | .idle => some (w.setRequest r (.loading ids []))
      | _ => none
  | .loadPart r =>
      match w.requests r with
      | .loading (id :: remaining) loaded =>
          match w.manifests id with
          | some part =>
              if acceptsPart part then
                some (w.setRequest r (.loading remaining (loaded ++ [part])))
              else none
          | none => none
      | _ => none
  | .build r id objectKey =>
      match w.requests r with
      | .loading [] loaded =>
          let totalSize := (loaded.map (·.totalSize)).sum
          if totalSize = 0 ∨ totalSize > maxUploadBytes ∨ id ∈ ids then none
          else
            (ResumableUpload.concatenate id loaded).map fun upload =>
              w.setRequest r (.built upload objectKey)
      | _ => none
  | .saveFinal r =>
      match w.requests r with
      | .built upload objectKey =>
          some ((w.saveManifest upload).setRequest r (.stored upload objectKey))
      | _ => none
  | .compose r =>
      match w.requests r with
      | .stored upload objectKey =>
          if (collectParts w.chunks upload.chunks).isSome then
            some (w.setRequest r (.composed upload objectKey))
          else none
      | _ => none
  | .enqueue r =>
      match w.requests r with
      | .composed upload objectKey =>
          some { w.setRequest r (.enqueued upload objectKey) with
            jobs := if objectKey ∈ w.jobs then w.jobs else objectKey :: w.jobs }
      | _ => none
  | .saveJob r job =>
      match w.requests r with
      | .enqueued upload objectKey =>
          let upload := { upload with jobId := some job }
          some ((w.saveManifest upload).setRequest r (.saved upload objectKey))
      | _ => none
  | .deleteChunk r part =>
      match w.requests r with
      | .saved upload _ =>
          if part ∈ upload.chunks then
            some { w with chunks := Function.update w.chunks part.key none }
          else none
      | _ => none
  | .compact r =>
      match w.requests r with
      | .saved upload _ =>
          some ((w.saveManifest { upload with chunks := [] }).setRequest r (.deleting ids))
      | _ => none
  | .deletePart r =>
      match w.requests r with
      | .deleting (id :: remaining) =>
          some { w.setRequest r (.deleting remaining) with
            manifests := Function.update w.manifests id none }
      | _ => none
  | .stop r => some (w.setRequest r .idle)

def World.run (ids : List String) (maxUploadBytes : ℕ) (w : World) : List Action → Option World
  | [] => some w
  | action :: actions =>
      (w.step ids maxUploadBytes action).bind (·.run ids maxUploadBytes actions)

/-- The chunks the parts list. -/
def World.listed (w : World) (ids : List String) : List StoredObjectPart :=
  ids.flatMap fun id => ((w.manifests id).map (·.chunks)).getD []

def ChunkMissing (listed : List StoredObjectPart) (w : World) : Prop :=
  ∃ part ∈ listed, w.chunks part.key = none

/-- The request has composed the image and not yet removed the chunks. -/
def Request.Critical : Request → Prop
  | .composed .. => True
  | .enqueued .. => True
  | .saved .. => True
  | _ => False

/-- The request has stored its job and not yet removed the chunks. -/
def Request.HasJob : Request → Prop
  | .enqueued .. => True
  | .saved .. => True
  | _ => False

/-- A request composes while no other is between composing and the removal of the
chunks, and once it has stored its job it does not go on or stop before a chunk is
removed. -/
def World.Orderly (listed : List StoredObjectPart) (w : World) : Action → Prop
  | .compose r => ∀ other, other ≠ r → ¬ (w.requests other).Critical
  | .compact _ => ChunkMissing listed w
  | .stop r => (w.requests r).HasJob → ChunkMissing listed w
  | _ => True

/-- A run of orderly steps. -/
def World.OrderlyRun (ids : List String) (maxUploadBytes : ℕ) (listed : List StoredObjectPart)
    (w : World) : List Action → Prop
  | [] => True
  | action :: actions =>
      w.Orderly listed action ∧
        match w.step ids maxUploadBytes action with
        | none => True
        | some next => next.OrderlyRun ids maxUploadBytes listed actions

/-! ## One job -/

/-- What a request has loaded is what the parts list. -/
def Request.Agrees (ids : List String) (start : World) : Request → Prop
  | .loading remaining loaded =>
      ∃ front, ids = front ++ remaining ∧ loaded.flatMap (·.chunks) = start.listed front
  | .built upload _ => upload.chunks = start.listed ids ∧ upload.id ∉ ids
  | .stored upload _ => upload.chunks = start.listed ids ∧ upload.id ∉ ids
  | .composed upload _ => upload.chunks = start.listed ids ∧ upload.id ∉ ids
  | .enqueued upload _ => upload.chunks = start.listed ids ∧ upload.id ∉ ids
  | .saved upload _ => upload.chunks = start.listed ids ∧ upload.id ∉ ids
  | _ => True

structure World.Invariant (w : World) (ids : List String) (start : World) : Prop where
  manifests : ∀ id ∈ ids, w.manifests id = start.manifests id ∨ w.manifests id = none
  requests : ∀ r, (w.requests r).Agrees ids start
  alone : ∀ r s, (w.requests r).Critical → (w.requests s).Critical → r = s
  jobs : w.jobs.length ≤ 1
  composing : ∀ r, (w.requests r).Critical → ¬ (w.requests r).HasJob → w.jobs = []
  removed : w.jobs ≠ [] → (∀ r, ¬ (w.requests r).Critical) → ChunkMissing (start.listed ids) w

namespace World

variable {ids : List String} {start w w' : World}

/-- A request that is not in the middle of its finalization takes over. -/
theorem Invariant.leave (hinvariant : w.Invariant ids start) {r : ℕ} {request : Request}
    (hmanifests : ∀ id ∈ ids, w'.manifests id = w.manifests id ∨ w'.manifests id = none)
    (hchunks : w'.chunks = w.chunks) (hjobs : w'.jobs = w.jobs)
    (hrequests : w'.requests = Function.update w.requests r request)
    (hagrees : request.Agrees ids start) (hnew : ¬ request.Critical)
    (hold : (w.requests r).HasJob → ChunkMissing (start.listed ids) w) :
    w'.Invariant ids start := by
  have hcritical : ∀ other, (w'.requests other).Critical → (w.requests other).Critical ∧
      w'.requests other = w.requests other := by
    intro other hother
    rw [hrequests] at hother ⊢
    by_cases hsame : other = r
    · subst hsame
      rw [Function.update_self] at hother
      exact absurd hother hnew
    · rw [Function.update_of_ne hsame] at hother ⊢
      exact ⟨hother, rfl⟩
  constructor
  · intro id hmem
    cases hmanifests id hmem with
    | inl hsame =>
        rw [hsame]
        exact hinvariant.manifests id hmem
    | inr hnone => exact Or.inr hnone
  · intro other
    rw [hrequests]
    by_cases hsame : other = r
    · subst hsame
      rw [Function.update_self]
      exact hagrees
    · rw [Function.update_of_ne hsame]
      exact hinvariant.requests other
  · intro a b ha hb
    exact hinvariant.alone a b (hcritical a ha).1 (hcritical b hb).1
  · rw [hjobs]
    exact hinvariant.jobs
  · intro other hother hjob
    obtain ⟨hbefore, hsame⟩ := hcritical other hother
    rw [hsame] at hjob
    rw [hjobs]
    exact hinvariant.composing other hbefore hjob
  · intro hsome hnone
    rw [hjobs] at hsome
    have hmissing : ChunkMissing (start.listed ids) w := by
      by_cases hjob : (w.requests r).HasJob
      · exact hold hjob
      · apply hinvariant.removed hsome
        intro other hother
        by_cases hsame : other = r
        · subst hsame
          exact hsome (hinvariant.composing other hother hjob)
        · have hafter := hnone other
          rw [hrequests, Function.update_of_ne hsame] at hafter
          exact hafter hother
    obtain ⟨part, hmem, habsent⟩ := hmissing
    refine ⟨part, hmem, ?_⟩
    rw [hchunks]
    exact habsent

/-- A request goes on with its finalization. -/
theorem Invariant.proceed (hinvariant : w.Invariant ids start) {r : ℕ} {request : Request}
    (hmanifests : ∀ id ∈ ids, w'.manifests id = w.manifests id)
    (hrequests : w'.requests = Function.update w.requests r request)
    (hagrees : request.Agrees ids start) (hcritical : (w.requests r).Critical)
    (hjob : request.HasJob) (hnew : request.Critical) (hjobs : w'.jobs.length ≤ 1) :
    w'.Invariant ids start := by
  have hsame : ∀ other, (w'.requests other).Critical → other = r := by
    intro other hother
    rw [hrequests] at hother
    by_cases hsame : other = r
    · exact hsame
    · rw [Function.update_of_ne hsame] at hother
      exact hinvariant.alone other r hother hcritical
  constructor
  · intro id hmem
    rw [hmanifests id hmem]
    exact hinvariant.manifests id hmem
  · intro other
    rw [hrequests]
    by_cases hother : other = r
    · subst hother
      rw [Function.update_self]
      exact hagrees
    · rw [Function.update_of_ne hother]
      exact hinvariant.requests other
  · intro a b ha hb
    rw [hsame a ha, hsame b hb]
  · exact hjobs
  · intro other hother hnojob
    have hr := hsame other hother
    subst hr
    rw [hrequests, Function.update_self] at hnojob
    exact absurd hjob hnojob
  · intro _ hnone
    have hr := hnone r
    rw [hrequests, Function.update_self] at hr
    exact absurd hnew hr

/-- A request composes when all chunks are there and no other is composing. -/
theorem Invariant.compose (hinvariant : w.Invariant ids start) {r : ℕ}
    {upload : ResumableUpload} {objectKey : String}
    (hstored : w.requests r = .stored upload objectKey)
    (hcollects : (collectParts w.chunks upload.chunks).isSome = true)
    (horderly : ∀ other, other ≠ r → ¬ (w.requests other).Critical) :
    (w.setRequest r (.composed upload objectKey)).Invariant ids start := by
  have hagrees := hinvariant.requests r
  rw [hstored] at hagrees
  have hidle : ∀ other, ¬ (w.requests other).Critical := by
    intro other
    by_cases hsame : other = r
    · rw [hsame, hstored]
      exact not_false
    · exact horderly other hsame
  have hjobs : w.jobs = [] := by
    by_contra hsome
    obtain ⟨part, hmem, habsent⟩ := hinvariant.removed hsome hidle
    obtain ⟨content, hcontent⟩ := Option.isSome_iff_exists.mp hcollects
    rw [hagrees.1] at hcontent
    obtain ⟨bytes, hbytes⟩ := collectParts_present hcontent hmem
    cases habsent.symm.trans hbytes
  constructor
  · exact hinvariant.manifests
  · intro other
    unfold World.setRequest
    dsimp only
    by_cases hsame : other = r
    · subst hsame
      rw [Function.update_self]
      exact hagrees
    · rw [Function.update_of_ne hsame]
      exact hinvariant.requests other
  · have hr : ∀ other, ((w.setRequest r (.composed upload objectKey)).requests other).Critical →
        other = r := by
      intro other hother
      unfold World.setRequest at hother
      by_contra hsame
      dsimp only at hother
      rw [Function.update_of_ne hsame] at hother
      exact hidle other hother
    intro a b ha hb
    rw [hr a ha, hr b hb]
  · exact hinvariant.jobs
  · intro _ _ _
    exact hjobs
  · intro hsome
    exact absurd hjobs hsome

/-- A chunk is removed by the request that has stored the job. -/
theorem Invariant.deleteChunk (hinvariant : w.Invariant ids start) (key : ChunkKey) :
    ({ w with chunks := Function.update w.chunks key none } : World).Invariant ids start := by
  refine ⟨hinvariant.manifests, hinvariant.requests, hinvariant.alone, hinvariant.jobs,
    hinvariant.composing, ?_⟩
  intro hsome hnone
  obtain ⟨part, hmem, habsent⟩ := hinvariant.removed hsome hnone
  refine ⟨part, hmem, ?_⟩
  dsimp only
  by_cases hkey : part.key = key
  · rw [hkey, Function.update_self]
  · rw [Function.update_of_ne hkey]
    exact habsent

theorem listed_append (front back : List String) :
    start.listed (front ++ back) = start.listed front ++ start.listed back :=
  List.flatMap_append

/-- A part that is loaded lists what it listed at the start. -/
theorem Invariant.loadPart (hinvariant : w.Invariant ids start) {r : ℕ} {id : String}
    {remaining : List String} {loaded : List ResumableUpload} {part : ResumableUpload}
    (hloading : w.requests r = .loading (id :: remaining) loaded)
    (hpart : w.manifests id = some part) :
    (Request.loading remaining (loaded ++ [part])).Agrees ids start := by
  have hagrees := hinvariant.requests r
  rw [hloading] at hagrees
  obtain ⟨front, hids, hchunks⟩ := hagrees
  have hmem : id ∈ ids := by
    rw [hids]
    exact List.mem_append_right _ List.mem_cons_self
  have hstart : start.manifests id = some part := by
    cases hinvariant.manifests id hmem with
    | inl hsame => exact hsame.symm.trans hpart
    | inr hnone => cases hnone.symm.trans hpart
  refine ⟨front ++ [id], ?_, ?_⟩
  · rw [hids, List.append_assoc]
    rfl
  · rw [listed_append, List.flatMap_append, hchunks]
    unfold World.listed
    rw [List.flatMap_singleton, List.flatMap_singleton, hstart]
    rfl

theorem saveManifest_manifests {upload : ResumableUpload} (hid : upload.id ∉ ids) {id : String}
    (hmem : id ∈ ids) : (w.saveManifest upload).manifests id = w.manifests id := by
  apply Function.update_of_ne
  intro hsame
  rw [hsame] at hmem
  exact hid hmem

/-- Every orderly step keeps the invariant. -/
theorem Invariant.step {maxUploadBytes : ℕ} (hinvariant : w.Invariant ids start) {action : Action}
    {next : World} (horderly : w.Orderly (start.listed ids) action)
    (hstep : w.step ids maxUploadBytes action = some next) : next.Invariant ids start := by
  cases action with
  | start r =>
      simp only [World.step] at hstep
      split at hstep
      · rename_i hidle
        cases hstep
        refine hinvariant.leave (fun _ _ => Or.inl rfl) rfl rfl rfl ?_ ?_ ?_
        · exact ⟨[], rfl, rfl⟩
        · exact not_false
        · intro hjob
          rw [hidle] at hjob
          exact hjob.elim
      · cases hstep
  | loadPart r =>
      simp only [World.step] at hstep
      split at hstep
      · rename_i id remaining loaded hloading
        split at hstep
        · rename_i part hpart
          split_ifs at hstep
          cases hstep
          refine hinvariant.leave (fun _ _ => Or.inl rfl) rfl rfl rfl ?_ ?_ ?_
          · exact hinvariant.loadPart hloading hpart
          · exact not_false
          · intro hjob
            rw [hloading] at hjob
            exact hjob.elim
        · cases hstep
      · cases hstep
  | build r id objectKey =>
      simp only [World.step] at hstep
      split at hstep
      · rename_i loaded hloading
        split_ifs at hstep with hrefused
        obtain ⟨upload, hupload, hnext⟩ := Option.map_eq_some_iff.mp hstep
        subst hnext
        have hagrees := hinvariant.requests r
        rw [hloading] at hagrees
        obtain ⟨front, hids, hchunks⟩ := hagrees
        rw [List.append_nil] at hids
        rw [not_or, not_or] at hrefused
        unfold ResumableUpload.concatenate at hupload
        dsimp only at hupload
        split_ifs at hupload
        cases hupload
        refine hinvariant.leave (fun _ _ => Or.inl rfl) rfl rfl rfl ?_ ?_ ?_
        · refine ⟨?_, hrefused.2.2⟩
          rw [hids]
          exact hchunks
        · exact not_false
        · intro hjob
          rw [hloading] at hjob
          exact hjob.elim
      · cases hstep
  | saveFinal r =>
      simp only [World.step] at hstep
      split at hstep
      · rename_i upload objectKey hbuilt
        cases hstep
        have hagrees := hinvariant.requests r
        rw [hbuilt] at hagrees
        refine hinvariant.leave
          (fun id hmem => Or.inl (saveManifest_manifests hagrees.2 hmem)) rfl rfl rfl hagrees ?_ ?_
        · exact not_false
        · intro hjob
          rw [hbuilt] at hjob
          exact hjob.elim
      · cases hstep
  | compose r =>
      simp only [World.step] at hstep
      split at hstep
      · rename_i upload objectKey hstored
        split_ifs at hstep with hcollects
        cases hstep
        exact hinvariant.compose hstored hcollects horderly
      · cases hstep
  | enqueue r =>
      simp only [World.step] at hstep
      split at hstep
      · rename_i upload objectKey hcomposed
        cases hstep
        have hagrees := hinvariant.requests r
        rw [hcomposed] at hagrees
        have hcritical : (w.requests r).Critical := by
          rw [hcomposed]
          exact True.intro
        have hjobs : w.jobs = [] := by
          apply hinvariant.composing r hcritical
          rw [hcomposed]
          exact not_false
        refine hinvariant.proceed (fun _ _ => rfl) rfl hagrees hcritical True.intro True.intro ?_
        dsimp only
        rw [hjobs, if_neg List.not_mem_nil]
        exact le_rfl
      · cases hstep
  | saveJob r job =>
      simp only [World.step] at hstep
      split at hstep
      · rename_i upload objectKey henqueued
        cases hstep
        have hagrees := hinvariant.requests r
        rw [henqueued] at hagrees
        have hcritical : (w.requests r).Critical := by
          rw [henqueued]
          exact True.intro
        have hid : ({ upload with jobId := some job } : ResumableUpload).id ∉ ids := hagrees.2
        exact hinvariant.proceed (fun id hmem => saveManifest_manifests hid hmem) rfl hagrees
          hcritical True.intro True.intro hinvariant.jobs
      · cases hstep
  | deleteChunk r part =>
      simp only [World.step] at hstep
      split at hstep
      · split_ifs at hstep
        cases hstep
        exact hinvariant.deleteChunk part.key
      · cases hstep
  | compact r =>
      simp only [World.step] at hstep
      split at hstep
      · rename_i upload objectKey hsaved
        cases hstep
        have hagrees := hinvariant.requests r
        rw [hsaved] at hagrees
        have hid : ({ upload with chunks := [] } : ResumableUpload).id ∉ ids := hagrees.2
        refine hinvariant.leave
          (fun id hmem => Or.inl (saveManifest_manifests hid hmem)) rfl rfl rfl True.intro ?_ ?_
        · exact not_false
        · intro _
          exact horderly
      · cases hstep
  | deletePart r =>
      simp only [World.step] at hstep
      split at hstep
      · rename_i id remaining hdeleting
        cases hstep
        refine hinvariant.leave ?_ rfl rfl rfl True.intro ?_ ?_
        · intro other _
          dsimp only
          by_cases hsame : other = id
          · subst hsame
            right
            exact Function.update_self ..
          · left
            exact Function.update_of_ne hsame _ _
        · exact not_false
        · intro hjob
          rw [hdeleting] at hjob
          exact hjob.elim
      · cases hstep
  | stop r =>
      cases hstep
      refine hinvariant.leave (fun _ _ => Or.inl rfl) rfl rfl rfl True.intro ?_ ?_
      · exact not_false
      · exact horderly

theorem Invariant.run {maxUploadBytes : ℕ} (hinvariant : w.Invariant ids start)
    {actions : List Action} {final : World}
    (horderly : w.OrderlyRun ids maxUploadBytes (start.listed ids) actions)
    (hrun : w.run ids maxUploadBytes actions = some final) : final.Invariant ids start := by
  induction actions generalizing w with
  | nil =>
      cases hrun
      exact hinvariant
  | cons action actions ih =>
      obtain ⟨next, hstep, hrest⟩ := Option.bind_eq_some_iff.mp hrun
      obtain ⟨haction, hactions⟩ := horderly
      rw [hstep] at hactions
      exact ih (hinvariant.step haction hstep) hactions hrest

theorem invariant_start (hidle : ∀ r, start.requests r = .idle) (hjobs : start.jobs = []) :
    start.Invariant ids start := by
  have hnone : ∀ r, ¬ (start.requests r).Critical := by
    intro r
    rw [hidle r]
    exact not_false
  constructor
  · intro id _
    exact Or.inl rfl
  · intro r
    rw [hidle r]
    exact True.intro
  · intro r _ hr
    exact absurd hr (hnone r)
  · rw [hjobs]
    exact Nat.zero_le 1
  · intro _ _ _
    exact hjobs
  · intro hsome
    exact absurd hjobs hsome

end World

/-- Orderly requests for the same parts create one job at most. -/
theorem final_concatenation (ids : List String) (maxUploadBytes : ℕ) (start final : World)
    (actions : List Action) (hidle : ∀ r, start.requests r = .idle) (hjobs : start.jobs = [])
    (horderly : start.OrderlyRun ids maxUploadBytes (start.listed ids) actions)
    (hrun : start.run ids maxUploadBytes actions = some final) : final.jobs.length ≤ 1 :=
  ((World.invariant_start hidle hjobs).run horderly hrun).jobs

/-- One complete partial upload of two bytes. -/
def onePart : World where
  manifests := fun id => if id = "a" then some ⟨"a", 2, 2, none, true, [⟨⟨"a", 0⟩, 2⟩]⟩ else none
  chunks := fun key => if key = ⟨"a", 0⟩ then some [1, 2] else none
  jobs := []
  requests := fun _ => .idle

/-- A request and, after a lost response, its repetition. -/
theorem final_concatenation_repeated :
    ∃ final, onePart.run ["a"] 100 [.start 0, .loadPart 0, .build 0 "f" "k", .saveFinal 0,
        .compose 0, .enqueue 0, .saveJob 0 7, .deleteChunk 0 ⟨⟨"a", 0⟩, 2⟩, .stop 0, .start 1,
        .loadPart 1, .build 1 "g" "l", .saveFinal 1] = some final ∧ final.jobs.length ≤ 1 := by
  refine ⟨_, rfl, ?_⟩
  refine final_concatenation ["a"] 100 onePart _ [.start 0, .loadPart 0, .build 0 "f" "k",
    .saveFinal 0, .compose 0, .enqueue 0, .saveJob 0 7, .deleteChunk 0 ⟨⟨"a", 0⟩, 2⟩, .stop 0,
    .start 1, .loadPart 1, .build 1 "g" "l", .saveFinal 1] (fun _ => rfl) rfl ?_ rfl
  refine ⟨trivial, trivial, trivial, trivial, ?_, trivial, trivial, trivial, ?_, trivial, trivial,
    trivial, trivial, trivial⟩
  · intro other hother hcritical
    change Request.Critical (Function.update (Function.update (Function.update
      (Function.update onePart.requests 0 _) 0 _) 0 _) 0 _ other) at hcritical
    rw [Function.update_of_ne hother, Function.update_of_ne hother, Function.update_of_ne hother,
      Function.update_of_ne hother] at hcritical
    exact hcritical
  · intro _
    exact ⟨⟨⟨"a", 0⟩, 2⟩, List.mem_singleton.mpr rfl, rfl⟩

/-- Two concurrent requests create two jobs. -/
theorem final_concatenation_counterexample :
    (onePart.run ["a"] 100 [.start 0, .loadPart 0, .build 0 "f" "k", .saveFinal 0, .start 1,
      .loadPart 1, .build 1 "g" "l", .saveFinal 1, .compose 0, .compose 1, .enqueue 0,
      .enqueue 1]).map (·.jobs) = some ["l", "k"] := by
  rfl

end SeizaServer.Concatenation
