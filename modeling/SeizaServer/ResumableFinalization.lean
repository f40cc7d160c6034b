import SeizaServer.ResumableUpload

/-!
# Finalizing a resumable upload

One attempt at a time turns the chunks of a complete upload into an image and a
job.  An attempt can stop after any of its calls; the next one starts from the
manifest in the store.
-/

namespace SeizaServer.Finalization

open Uploads

variable {Options Solution : Type}

/-- The manifest of an upload with what its job is made from. -/
structure Manifest (Options : Type) extends ResumableUpload where
  objectKey : String
  originalFilename : String
  contentType : Option String
  options : Options
  owner : String
  queueWeight : ℚ

abbrev Jobs (Options Solution : Type) := List (JobRecord Options Solution)

def findByObjectKey (jobs : Jobs Options Solution) (objectKey : String) :
    Option (JobRecord Options Solution) :=
  jobs.find? fun job => job.objectKey = objectKey

/-- A job is stored unless there is one with its object key. -/
def enqueue (jobs : Jobs Options Solution) (job : JobRecord Options Solution) :
    Jobs Options Solution × JobRecord Options Solution :=
  match findByObjectKey jobs job.objectKey with
  | some existing => (jobs, existing)
  | none => (enqueuedRecord job :: jobs, enqueuedRecord job)

def stripPublic (component : List Char) : Option String :=
  if "public-".toList.isPrefixOf component then some (String.ofList (component.drop 7)) else none

/-- The name without its last extension. -/
def stem (filename : List Char) : List Char :=
  match filename.splitOn '.' with
  | [] => filename
  | [_] => filename
  | components => ['.'].intercalate components.dropLast

/-- The id in the directory of the key, or else in its file name. -/
def jobIdFromObjectKey (parseUuid : String → Option JobId) (objectKey : String) : Option JobId :=
  match (objectKey.toList.splitOn '/').reverse with
  | [] => none
  | [filename] => parseUuid (String.ofList (stem filename))
  | filename :: directory :: _ =>
      match (stripPublic directory).bind parseUuid with
      | some id => some id
      | none => parseUuid (String.ofList (stem filename))

def newJob (upload : Manifest Options) (id : JobId) (now : Time) : JobRecord Options Solution where
  id := id
  astrometryId := 0
  owner := upload.owner
  queueWeight := upload.queueWeight
  objectKey := upload.objectKey
  originalFilename := upload.originalFilename
  contentType := upload.contentType
  options := upload.options
  status := .queued
  createdAt := now
  startedAt := none
  completedAt := none
  solution := none
  error := none
  validationDonation := none

/-- How far an attempt has come. -/
inductive Attempt (Options : Type) where
  | idle
  | loaded (upload : Manifest Options)
  | prepared (upload : Manifest Options)
  | composed (upload : Manifest Options)
  | missing (upload : Manifest Options)
  | enqueued (upload : Manifest Options) (job : JobId)
  | saved (upload : Manifest Options) (job : JobId)

/-- `returned` are the jobs that attempts have returned. -/
structure State (Options Solution : Type) where
  manifest : Manifest Options
  chunks : ChunkObjects
  image : Option Bytes
  jobs : Jobs Options Solution
  attempt : Attempt Options
  returned : List JobId

def State.complete (upload : Manifest Options) (chunks : ChunkObjects)
    (jobs : Jobs Options Solution) : State Options Solution where
  manifest := upload
  chunks := chunks
  image := none
  jobs := jobs
  attempt := .idle
  returned := []

inductive Action (Options Solution : Type) where
  | load
  | lookup
  | prepare (options : Options)
  | compose
  | find
  | enqueue (now : Time)
  | saveJob
  | deleteChunk (part : StoredObjectPart)
  | compact
  | finish
  | stop
  /-- What happens to the job store meanwhile. -/
  | others (jobs : Jobs Options Solution)

/-- The ids of the jobs of an object key. -/
def jobIds (objectKey : String) (jobs : Jobs Options Solution) : List JobId :=
  (jobs.filter fun job => job.objectKey = objectKey).map (·.id)

/-- One call of the attempt; `none` where it is not at that point or the call
fails.  The options that the header of the image gives can be any. -/
def State.step (parseUuid : String → Option JobId) (s : State Options Solution) :
    Action Options Solution → Option (State Options Solution)
  | .load =>
      match s.attempt with
      | .idle => some { s with attempt := .loaded s.manifest }
      | _ => none
  | .lookup =>
      match s.attempt with
      | .loaded upload =>
          match upload.jobId with
          | some id =>
              (s.jobs.find? fun job => job.id = id).map fun job =>
                { s with attempt := .idle, returned := job.id :: s.returned }
          | none => none
      | _ => none
  | .prepare options =>
      match s.attempt with
      | .loaded upload =>
          if upload.jobId.isNone ∧ upload.offset = upload.totalSize then
            some { s with attempt := .prepared { upload with options := options } }
          else none
      | _ => none
  | .compose =>
      match s.attempt with
      | .prepared upload =>
          (collectParts s.chunks upload.chunks).map fun content =>
            { s with attempt := .composed upload, image := some content }
      | _ => none
  | .find =>
      match s.attempt with
      | .composed upload =>
          match findByObjectKey s.jobs upload.objectKey with
          | some job => some { s with attempt := .enqueued upload job.id }
          | none => some { s with attempt := .missing upload }
      | _ => none
  | .enqueue now =>
      match s.attempt with
      | .missing upload =>
          (jobIdFromObjectKey parseUuid upload.objectKey).map fun id =>
            let (jobs, job) := Finalization.enqueue s.jobs (newJob upload id now)
            { s with attempt := .enqueued upload job.id, jobs := jobs }
      | _ => none
  | .saveJob =>
      match s.attempt with
      | .enqueued upload job =>
          let upload := { upload with jobId := some job }
          some { s with attempt := .saved upload job, manifest := upload }
      | _ => none
  | .deleteChunk part =>
      match s.attempt with
      | .saved upload _ =>
          if part ∈ upload.chunks then
            some { s with chunks := Function.update s.chunks part.key none }
          else none
      | _ => none
  | .compact =>
      match s.attempt with
      | .saved upload _ => some { s with manifest := { upload with chunks := [] } }
      | _ => none
  | .finish =>
      match s.attempt with
      | .saved _ job => some { s with attempt := .idle, returned := job :: s.returned }
      | _ => none
  | .stop => some { s with attempt := .idle }
  | .others jobs =>
      if jobIds s.manifest.objectKey jobs = jobIds s.manifest.objectKey s.jobs then
        some { s with jobs := jobs }
      else none

def State.run (parseUuid : String → Option JobId) (s : State Options Solution) :
    List (Action Options Solution) → Option (State Options Solution)
  | [] => some s
  | action :: actions => (s.step parseUuid action).bind (·.run parseUuid actions)

/-- The jobs of the upload's object key. -/
def State.ownJobs (s : State Options Solution) : List JobId :=
  jobIds s.manifest.objectKey s.jobs

/-! ## What every attempt keeps -/

/-- The attempt works on the upload of the manifest, which has no job yet. -/
def State.WorksOn (s : State Options Solution) (upload : Manifest Options) : Prop :=
  s.manifest.jobId = none ∧ upload.objectKey = s.manifest.objectKey ∧
    upload.chunks = s.manifest.chunks

def State.AttemptAgrees (s : State Options Solution) (full : Bytes) : Attempt Options → Prop
  | .idle => True
  | .loaded upload => upload = s.manifest
  | .prepared upload => s.WorksOn upload
  | .composed upload => s.WorksOn upload ∧ s.image = some full
  | .missing upload => s.WorksOn upload ∧ s.image = some full
  | .enqueued upload job => s.WorksOn upload ∧ job ∈ s.ownJobs
  | .saved upload job =>
      upload.objectKey = s.manifest.objectKey ∧ upload.jobId = some job ∧
        s.manifest.jobId = some job

structure State.Agrees (s : State Options Solution) (full : Bytes) : Prop where
  chunks : s.manifest.jobId = none → collectParts s.chunks s.manifest.chunks = some full
  single : s.ownJobs.length ≤ 1
  image : s.ownJobs ≠ [] → s.image = some full
  job : ∀ id, s.manifest.jobId = some id → id ∈ s.ownJobs
  returned : ∀ id ∈ s.returned, id ∈ s.ownJobs
  attempt : s.AttemptAgrees full s.attempt

theorem mem_jobIds_of_find {jobs : Jobs Options Solution} {objectKey : String}
    {job : JobRecord Options Solution} (hfind : findByObjectKey jobs objectKey = some job) :
    job.id ∈ jobIds objectKey jobs := by
  have hmem := List.mem_of_find?_eq_some hfind
  have hkey := List.find?_some hfind
  exact List.mem_map.mpr ⟨job, List.mem_filter.mpr ⟨hmem, hkey⟩, rfl⟩

theorem jobIds_eq_nil {jobs : Jobs Options Solution} {objectKey : String}
    (hfind : findByObjectKey jobs objectKey = none) : jobIds objectKey jobs = [] := by
  have habsent := List.find?_eq_none.mp hfind
  unfold jobIds
  rw [List.filter_eq_nil_iff.mpr habsent]
  rfl

/-- Enqueuing leaves one job under the object key, the one it answers. -/
theorem jobIds_enqueue {jobs : Jobs Options Solution} {job : JobRecord Options Solution}
    (hsingle : (jobIds job.objectKey jobs).length ≤ 1) :
    (enqueue jobs job).2.id ∈ jobIds job.objectKey (enqueue jobs job).1 ∧
      (jobIds job.objectKey (enqueue jobs job).1).length ≤ 1 ∧
      ∀ id ∈ jobIds job.objectKey jobs, id ∈ jobIds job.objectKey (enqueue jobs job).1 := by
  unfold enqueue
  cases hfind : findByObjectKey jobs job.objectKey with
  | some existing => exact ⟨mem_jobIds_of_find hfind, hsingle, fun id hmem => hmem⟩
  | none =>
      have hnil := jobIds_eq_nil hfind
      have hids : jobIds job.objectKey (enqueuedRecord job :: jobs) = [(enqueuedRecord job).id] := by
        unfold jobIds at hnil ⊢
        rw [List.filter_cons_of_pos (by exact decide_eq_true (enqueuedRecord_objectKey job)),
          List.map_cons, hnil]
      dsimp only
      rw [hids, hnil]
      exact ⟨List.mem_singleton.mpr rfl, le_rfl, fun id hmem => absurd hmem List.not_mem_nil⟩

namespace State

variable {s : State Options Solution} {full : Bytes}

theorem Agrees.idle (hagrees : s.Agrees full) {returned : List JobId}
    (hreturned : ∀ id ∈ returned, id ∈ s.ownJobs) :
    ({ s with attempt := .idle, returned := returned } : State Options Solution).Agrees full :=
  ⟨hagrees.chunks, hagrees.single, hagrees.image, hagrees.job, hreturned, True.intro⟩

/-- The attempt goes on without writing. -/
theorem Agrees.proceeds (hagrees : s.Agrees full) {attempt : Attempt Options}
    (hattempt : s.AttemptAgrees full attempt) :
    ({ s with attempt := attempt } : State Options Solution).Agrees full := by
  refine ⟨hagrees.chunks, hagrees.single, hagrees.image, hagrees.job, hagrees.returned, ?_⟩
  cases attempt <;> exact hattempt

theorem Agrees.compose (hagrees : s.Agrees full) {upload : Manifest Options} {content : Bytes}
    (hworks : s.WorksOn upload) (hcollects : collectParts s.chunks upload.chunks = some content) :
    ({ s with attempt := .composed upload, image := some content } :
      State Options Solution).Agrees full := by
  obtain ⟨hjob, hkey, hchunks⟩ := hworks
  have hcontent : content = full := by
    rw [hchunks, hagrees.chunks hjob] at hcollects
    exact (Option.some.inj hcollects).symm
  subst hcontent
  exact ⟨hagrees.chunks, hagrees.single, fun _ => rfl, hagrees.job, hagrees.returned,
    ⟨hjob, hkey, hchunks⟩, rfl⟩

theorem Agrees.enqueue (hagrees : s.Agrees full) {upload : Manifest Options} (id : JobId)
    (now : Time) (hworks : s.WorksOn upload) (himage : s.image = some full) :
    ({ s with
        attempt := .enqueued upload (Finalization.enqueue s.jobs (newJob upload id now)).2.id
        jobs := (Finalization.enqueue s.jobs (newJob upload id now)).1 } :
      State Options Solution).Agrees full := by
  obtain ⟨hjob, hkey, hchunks⟩ := hworks
  have hsingle : (jobIds (newJob upload id now : JobRecord Options Solution).objectKey
      s.jobs).length ≤ 1 := by
    change (jobIds upload.objectKey s.jobs).length ≤ 1
    rw [hkey]
    exact hagrees.single
  obtain ⟨hmem, hlength, hkeeps⟩ := jobIds_enqueue hsingle
  change _ ∈ jobIds upload.objectKey _ at hmem
  change (jobIds upload.objectKey _).length ≤ 1 at hlength
  change ∀ id ∈ jobIds upload.objectKey s.jobs, id ∈ jobIds upload.objectKey _ at hkeeps
  rw [hkey] at hmem hlength hkeeps
  refine ⟨hagrees.chunks, hlength, fun _ => himage, ?_, ?_, ⟨hjob, hkey, hchunks⟩, hmem⟩
  · intro other hother
    exact hkeeps other (hagrees.job other hother)
  · intro other hother
    exact hkeeps other (hagrees.returned other hother)

theorem Agrees.saveJob (hagrees : s.Agrees full) {upload : Manifest Options} {job : JobId}
    (hworks : s.WorksOn upload) (hown : job ∈ s.ownJobs) :
    ({ s with
        attempt := .saved { upload with jobId := some job } job
        manifest := { upload with jobId := some job } } :
      State Options Solution).Agrees full := by
  obtain ⟨hjob, hkey, hchunks⟩ := hworks
  have hsame : ({ s with
      attempt := .saved { upload with jobId := some job } job
      manifest := { upload with jobId := some job } } : State Options Solution).ownJobs =
      s.ownJobs := by
    unfold ownJobs
    dsimp only
    rw [hkey]
  constructor
  · intro hnone
    cases hnone
  · rw [hsame]
    exact hagrees.single
  · rw [hsame]
    exact hagrees.image
  · intro id hid
    cases hid
    rw [hsame]
    exact hown
  · rw [hsame]
    exact hagrees.returned
  · exact ⟨rfl, rfl, rfl⟩

theorem Agrees.compact (hagrees : s.Agrees full) {upload : Manifest Options} {job : JobId}
    (hattempt : s.attempt = .saved upload job) :
    ({ s with manifest := { upload with chunks := [] } } : State Options Solution).Agrees full := by
  have hsaved := hagrees.attempt
  rw [hattempt] at hsaved
  obtain ⟨hkey, huploadJob, hjob⟩ := hsaved
  have hsame : ({ s with manifest := { upload with chunks := [] } } :
      State Options Solution).ownJobs = s.ownJobs := by
    unfold ownJobs
    dsimp only
    rw [hkey]
  constructor
  · intro hnone
    cases hnone.symm.trans huploadJob
  · rw [hsame]
    exact hagrees.single
  · rw [hsame]
    exact hagrees.image
  · intro id hid
    rw [hsame]
    exact hagrees.job id (hjob.trans (huploadJob.symm.trans hid))
  · rw [hsame]
    exact hagrees.returned
  · dsimp only
    rw [hattempt]
    exact ⟨rfl, huploadJob, huploadJob⟩

/-- Every call of an attempt keeps the agreement. -/
theorem Agrees.step {parseUuid : String → Option JobId} (hagrees : s.Agrees full)
    {action : Action Options Solution} {next : State Options Solution}
    (hstep : s.step parseUuid action = some next) : next.Agrees full := by
  have hattempt := hagrees.attempt
  cases action with
  | load =>
      simp only [State.step] at hstep
      split at hstep
      · cases hstep
        exact hagrees.proceeds rfl
      · cases hstep
  | lookup =>
      simp only [State.step] at hstep
      split at hstep
      · rename_i upload hloaded
        rw [hloaded] at hattempt
        split at hstep
        · rename_i id hid
          obtain ⟨job, hfind, hnext⟩ := Option.map_eq_some_iff.mp hstep
          subst hnext
          have hfound := List.find?_some hfind
          have hsame : job.id = id := of_decide_eq_true hfound
          apply hagrees.idle
          intro other hother
          cases hother with
          | head =>
              rw [hsame]
              apply hagrees.job id
              rw [← hid]
              exact congrArg (fun manifest => manifest.jobId) hattempt.symm
          | tail _ hother => exact hagrees.returned other hother
        · cases hstep
      · cases hstep
  | prepare options =>
      simp only [State.step] at hstep
      split at hstep
      · rename_i upload hloaded
        rw [hloaded] at hattempt
        split_ifs at hstep with hready
        cases hstep
        cases hattempt
        exact hagrees.proceeds ⟨Option.isNone_iff_eq_none.mp hready.1, rfl, rfl⟩
      · cases hstep
  | compose =>
      simp only [State.step] at hstep
      split at hstep
      · rename_i upload hprepared
        rw [hprepared] at hattempt
        obtain ⟨content, hcollects, hnext⟩ := Option.map_eq_some_iff.mp hstep
        subst hnext
        exact hagrees.compose hattempt hcollects
      · cases hstep
  | find =>
      simp only [State.step] at hstep
      split at hstep
      · rename_i upload hcomposed
        rw [hcomposed] at hattempt
        obtain ⟨hworks, himage⟩ := hattempt
        split at hstep
        · rename_i job hfind
          cases hstep
          rw [hworks.2.1] at hfind
          exact hagrees.proceeds ⟨hworks, mem_jobIds_of_find hfind⟩
        · cases hstep
          exact hagrees.proceeds ⟨hworks, himage⟩
      · cases hstep
  | enqueue now =>
      simp only [State.step] at hstep
      split at hstep
      · rename_i upload hmissing
        rw [hmissing] at hattempt
        obtain ⟨id, hid, hnext⟩ := Option.map_eq_some_iff.mp hstep
        subst hnext
        exact hagrees.enqueue id now hattempt.1 hattempt.2
      · cases hstep
  | saveJob =>
      simp only [State.step] at hstep
      split at hstep
      · rename_i upload job henqueued
        rw [henqueued] at hattempt
        cases hstep
        exact hagrees.saveJob hattempt.1 hattempt.2
      · cases hstep
  | deleteChunk part =>
      simp only [State.step] at hstep
      split at hstep
      · rename_i upload job hsaved
        rw [hsaved] at hattempt
        split_ifs at hstep
        cases hstep
        refine ⟨?_, hagrees.single, hagrees.image, hagrees.job, hagrees.returned, ?_⟩
        · intro hnone
          cases hnone.symm.trans hattempt.2.2
        · dsimp only
          rw [hsaved]
          exact hattempt
      · cases hstep
  | compact =>
      simp only [State.step] at hstep
      split at hstep
      · rename_i upload job hsaved
        cases hstep
        exact hagrees.compact hsaved
      · cases hstep
  | finish =>
      simp only [State.step] at hstep
      split at hstep
      · rename_i upload job hsaved
        rw [hsaved] at hattempt
        cases hstep
        apply hagrees.idle
        intro id hid
        cases hid with
        | head => exact hagrees.job job hattempt.2.2
        | tail _ hid => exact hagrees.returned id hid
      · cases hstep
  | stop =>
      cases hstep
      exact hagrees.idle hagrees.returned
  | others jobs =>
      simp only [State.step] at hstep
      split_ifs at hstep with hsame
      cases hstep
      have hown : ({ s with jobs := jobs } : State Options Solution).ownJobs = s.ownJobs := hsame
      constructor
      · exact hagrees.chunks
      · rw [hown]
        exact hagrees.single
      · rw [hown]
        exact hagrees.image
      · rw [hown]
        exact hagrees.job
      · rw [hown]
        exact hagrees.returned
      · dsimp only
        cases hphase : s.attempt with
        | enqueued upload job =>
            rw [hphase] at hattempt
            refine ⟨hattempt.1, ?_⟩
            change job ∈ jobIds s.manifest.objectKey jobs
            rw [hsame]
            exact hattempt.2
        | idle => exact True.intro
        | loaded upload =>
            rw [hphase] at hattempt
            exact hattempt
        | prepared upload =>
            rw [hphase] at hattempt
            exact hattempt
        | composed upload =>
            rw [hphase] at hattempt
            exact hattempt
        | missing upload =>
            rw [hphase] at hattempt
            exact hattempt
        | saved upload job =>
            rw [hphase] at hattempt
            exact hattempt

theorem Agrees.run {parseUuid : String → Option JobId} (hagrees : s.Agrees full)
    {actions : List (Action Options Solution)} {final : State Options Solution}
    (hrun : s.run parseUuid actions = some final) : final.Agrees full := by
  induction actions generalizing s with
  | nil =>
      cases hrun
      exact hagrees
  | cons action actions ih =>
      obtain ⟨next, hstep, hrest⟩ := Option.bind_eq_some_iff.mp hrun
      exact ih (hagrees.step hstep) hrest

theorem agrees_complete {upload : Manifest Options} {chunks : ChunkObjects}
    {jobs : Jobs Options Solution} (hjobless : upload.jobId = none)
    (hcollects : collectParts chunks upload.chunks = some full)
    (hnew : jobIds upload.objectKey jobs = []) : (complete upload chunks jobs).Agrees full := by
  constructor
  · intro _
    exact hcollects
  · change (jobIds upload.objectKey jobs).length ≤ 1
    rw [hnew]
    exact Nat.zero_le 1
  · intro hjobs
    exact absurd hnew hjobs
  · intro id hid
    cases hjobless.symm.trans hid
  · intro id hid
    cases hid
  · exact True.intro

theorem Agrees.ownJobs_eq (hagrees : s.Agrees full) {id : JobId} (hmem : id ∈ s.ownJobs) :
    s.ownJobs = [id] := by
  have hsingle := hagrees.single
  cases hjobs : s.ownJobs with
  | nil =>
      rw [hjobs] at hmem
      cases hmem
  | cons first rest =>
      rw [hjobs, List.length_cons] at hsingle
      have hrest : rest = [] := List.length_eq_zero_iff.mp (by omega)
      rw [hjobs, hrest, List.mem_singleton] at hmem
      rw [hrest, hmem]

end State

/-- However often attempts stop and start again, a complete upload gets one job at
most, every attempt that returns a job returns this one, and from then on the image
is the chunks one after the other. -/
theorem finalize_resumable (parseUuid : String → Option JobId) (upload : Manifest Options)
    (chunks : ChunkObjects) (jobs : Jobs Options Solution) (full : Bytes)
    (hjobless : upload.jobId = none) (hcollects : collectParts chunks upload.chunks = some full)
    (hnew : jobIds upload.objectKey jobs = []) (actions : List (Action Options Solution))
    (final : State Options Solution)
    (hrun : (State.complete upload chunks jobs).run parseUuid actions = some final) :
    final.ownJobs.length ≤ 1 ∧ (∀ id ∈ final.returned, final.ownJobs = [id]) ∧
      (final.ownJobs ≠ [] → final.image = some full) := by
  have hagrees := (State.agrees_complete hjobless hcollects hnew).run hrun
  refine ⟨hagrees.single, ?_, hagrees.image⟩
  intro id hmem
  exact hagrees.ownJobs_eq (hagrees.returned id hmem)

/-- An attempt that stops after the job is stored, and one after it. -/
theorem finalize_resumable_again :
    ∃ final : State Unit Unit,
      final.ownJobs.length ≤ 1 ∧ (∀ id ∈ final.returned, final.ownJobs = [id]) ∧
        (final.ownJobs ≠ [] → final.image = some [1, 2]) ∧ final.returned = [7] := by
  let upload : Manifest Unit := ⟨⟨"u", 2, 2, none, false, [⟨⟨"u", 0⟩, 2⟩]⟩,
    "uploads/public-7/a.fits", "a.fits", none, (), "owner", 1⟩
  let chunks : ChunkObjects := fun key => if key = ⟨"u", 0⟩ then some [1, 2] else none
  have hreturns : ((State.complete upload chunks ([] : Jobs Unit Unit)).run (fun _ => some 7)
      [.load, .prepare (), .compose, .find, .enqueue 0, .stop, .load, .prepare (), .compose,
        .find, .saveJob, .deleteChunk ⟨⟨"u", 0⟩, 2⟩, .compact, .finish]).map (·.returned) =
      some [7] := by decide
  obtain ⟨final, hrun, hreturned⟩ := Option.map_eq_some_iff.mp hreturns
  obtain ⟨hsingle, hsame, himage⟩ := finalize_resumable (fun _ => some 7) upload chunks
    ([] : Jobs Unit Unit) [1, 2] rfl rfl rfl _ final hrun
  exact ⟨final, hsingle, hsame, himage, hreturned⟩

end SeizaServer.Finalization
