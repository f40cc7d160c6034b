import SeizaServer.ResumableUpload

/-!
# PATCH requests through several processes

The lock of an upload holds inside one process only.  Here the object-store calls
of PATCH requests of any number of processes take turns in any order: each loads
the manifest, puts its chunk and puts the manifest, and the request that completes
the upload also composes it, saves the job and removes the chunks.
-/

namespace SeizaServer.Uploads

/-- How far a PATCH request has come.  `loaded` is the manifest it has read and
`upload` the one it keeps in memory. -/
inductive Patch where
  | idle
  | accepted (loaded upload : ResumableUpload) (offset : ℕ) (body : Bytes)
  | stored (loaded upload : ResumableUpload) (offset : ℕ) (body : Bytes)
  | saved (upload : ResumableUpload) (offset : ℕ) (body : Bytes)
  | composed (upload : ResumableUpload) (offset : ℕ) (body : Bytes)
  | finished (upload : ResumableUpload) (offset : ℕ) (body : Bytes)

/-- The objects of one upload, its requests, and the offsets and bodies of the
PATCH requests that were answered with success. -/
structure World where
  manifest : ResumableUpload
  chunks : ChunkObjects
  image : Option Bytes
  patches : ℕ → Patch
  acknowledged : List (ℕ × Bytes)

def World.created (id : String) (totalSize : ℕ) (isPartial : Bool) : World where
  manifest := .new id totalSize isPartial
  chunks := fun _ => none
  image := none
  patches := fun _ => .idle
  acknowledged := []

inductive Action where
  | load (r offset : ℕ) (body : Bytes)
  | putChunk (r : ℕ)
  | putManifest (r : ℕ)
  | compose (r : ℕ)
  | saveJob (r : ℕ) (job : JobId)
  | deleteChunk (r : ℕ) (part : StoredObjectPart)
  | compact (r : ℕ)
  | answer (r : ℕ)
  | leave (r : ℕ)

def World.setPatch (w : World) (r : ℕ) (patch : Patch) : World :=
  { w with patches := Function.update w.patches r patch }

def finalizes (upload : ResumableUpload) : Bool :=
  decide (upload.offset = upload.totalSize) && !upload.isPartial

/-- One call; `none` where the request is not at that point or the call fails. -/
def World.step (w : World) : Action → Option World
  | .load r offset body =>
      match w.patches r, w.manifest.append offset body with
      | .idle, .ok upload => some (w.setPatch r (.accepted w.manifest upload offset body))
      | _, _ => none
  | .putChunk r =>
      match w.patches r with
      | .accepted loaded upload offset body =>
          some { w.setPatch r (.stored loaded upload offset body) with
            chunks := Function.update w.chunks ⟨upload.id, offset⟩ (some body) }
      | _ => none
  | .putManifest r =>
      match w.patches r with
      | .stored _ upload offset body =>
          some { w.setPatch r (.saved upload offset body) with manifest := upload }
      | _ => none
  | .compose r =>
      match w.patches r with
      | .saved upload offset body =>
          if finalizes upload then
            (collectParts w.chunks upload.chunks).map fun content =>
              { w.setPatch r (.composed upload offset body) with image := some content }
          else none
      | _ => none
  | .saveJob r job =>
      match w.patches r with
      | .composed upload offset body =>
          let upload := { upload with jobId := some job }
          some { w.setPatch r (.finished upload offset body) with manifest := upload }
      | _ => none
  | .deleteChunk r part =>
      match w.patches r with
      | .finished upload _ _ =>
          if part ∈ upload.chunks then
            some { w with chunks := Function.update w.chunks part.key none }
          else none
      | _ => none
  | .compact r =>
      match w.patches r with
      | .finished upload _ _ => some { w with manifest := { upload with chunks := [] } }
      | _ => none
  | .answer r =>
      match w.patches r with
      | .saved upload offset body =>
          if finalizes upload then none
          else some { w.setPatch r .idle with acknowledged := (offset, body) :: w.acknowledged }
      | .finished _ offset body =>
          some { w.setPatch r .idle with acknowledged := (offset, body) :: w.acknowledged }
      | _ => none
  | .leave r => some (w.setPatch r .idle)

def World.run (w : World) : List Action → Option World
  | [] => some w
  | action :: actions => (w.step action).bind (·.run actions)

/-- What the upload is composed of: its image once there is a job, the listed
chunks before. -/
def World.content (w : World) : Option Bytes :=
  if w.manifest.jobId.isSome then w.image else collectParts w.chunks w.manifest.chunks

def HasAt (content : Bytes) (offset : ℕ) (body : Bytes) : Prop :=
  (content.drop offset).take body.length = body

/-- Every acknowledged body is at its offset. -/
def World.Delivers (w : World) : Prop :=
  ∃ content, w.content = some content ∧
    ∀ ack ∈ w.acknowledged, HasAt content ack.1 ack.2

/-- A PATCH that is about to put its chunk or its manifest finds the manifest it
has loaded, or already the one it is going to put; and its chunk object has its
body, unless it is about to be put for the first time. -/
def World.Undisturbed (w : World) : Action → Prop
  | .putChunk r =>
      match w.patches r with
      | .accepted loaded upload offset body =>
          w.manifest = loaded ∨ w.manifest = upload ∧ w.chunks ⟨upload.id, offset⟩ = some body
      | _ => True
  | .putManifest r =>
      match w.patches r with
      | .stored loaded upload offset body =>
          (w.manifest = loaded ∨ w.manifest = upload) ∧ w.chunks ⟨upload.id, offset⟩ = some body
      | _ => True
  | _ => True

/-- A run in which every step is undisturbed. -/
def World.UndisturbedRun (w : World) : List Action → Prop
  | [] => True
  | action :: actions =>
      w.Undisturbed action ∧
        match w.step action with
        | none => True
        | some next => next.UndisturbedRun actions

/-! ## What undisturbed requests keep -/

theorem HasAt.append {content body : Bytes} {offset : ℕ} (hat : HasAt content offset body)
    (more : Bytes) : HasAt (content ++ more) offset body := by
  unfold HasAt at hat ⊢
  have hlength : body.length ≤ (content.drop offset).length := by
    have hmin := congrArg List.length hat
    rw [List.length_take] at hmin
    omega
  rw [List.drop_append, List.take_append_of_le_length hlength, hat]

theorem hasAt_end (content body : Bytes) : HasAt (content ++ body) content.length body := by
  unfold HasAt
  rw [List.drop_left, List.take_length]

/-- A complete upload in memory is the one the manifest is about. -/
structure World.Completes (w : World) (full : Bytes) (upload : ResumableUpload) : Prop where
  complete : w.manifest.offset = w.manifest.totalSize
  chunks : w.manifest.jobId = none → w.manifest.chunks = upload.chunks
  collects : ∀ content, collectParts w.chunks upload.chunks = some content → content = full

def World.PatchAgrees (w : World) (full : Bytes) : Patch → Prop
  | .idle => True
  | .accepted loaded upload offset body =>
      loaded.WellFormed ∧ Appends loaded offset body upload ∧
        loaded.totalSize = w.manifest.totalSize
  | .stored loaded upload offset body =>
      loaded.WellFormed ∧ Appends loaded offset body upload ∧
        loaded.totalSize = w.manifest.totalSize
  | .saved upload offset body =>
      HasAt full offset body ∧ upload.totalSize = w.manifest.totalSize ∧
        (upload.offset = upload.totalSize → w.Completes full upload)
  | .composed upload offset body =>
      HasAt full offset body ∧ upload.totalSize = w.manifest.totalSize ∧
        upload.offset = upload.totalSize ∧ w.Completes full upload ∧ w.image = some full
  | .finished upload offset body =>
      HasAt full offset body ∧ upload.totalSize = w.manifest.totalSize ∧
        upload.offset = upload.totalSize ∧ upload.jobId ≠ none ∧ w.manifest.jobId ≠ none

/-- The upload has come to `full`, and all requests agree with that. -/
structure World.Represents (w : World) (full : Bytes) : Prop where
  wellFormed : w.manifest.jobId = none → w.manifest.WellFormed
  complete : w.manifest.jobId ≠ none → w.manifest.offset = w.manifest.totalSize
  content : w.content = some full
  acknowledged : ∀ ack ∈ w.acknowledged, HasAt full ack.1 ack.2
  patches : ∀ r, w.PatchAgrees full (w.patches r)

namespace World

variable {w : World} {full : Bytes}

theorem represents_created (id : String) (totalSize : ℕ) (isPartial : Bool) :
    (created id totalSize isPartial).Represents [] := by
  constructor
  · intro _
    exact ⟨.nil 0, Nat.zero_le totalSize⟩
  · intro hjob
    exact absurd rfl hjob
  · rfl
  · intro ack hmem
    cases hmem
  · intro r
    exact True.intro

theorem Completes.of_same {upload : ResumableUpload} (hcompletes : w.Completes full upload)
    {w' : World} (hmanifest : w'.manifest = w.manifest) (hchunks : w'.chunks = w.chunks) :
    w'.Completes full upload := by
  constructor
  · rw [hmanifest]
    exact hcompletes.complete
  · rw [hmanifest]
    exact hcompletes.chunks
  · rw [hchunks]
    exact hcompletes.collects

/-- What a request agrees with is the manifest, the chunks and the image. -/
theorem PatchAgrees.of_same {patch : Patch} (hagrees : w.PatchAgrees full patch) {w' : World}
    (hmanifest : w'.manifest = w.manifest) (hchunks : w'.chunks = w.chunks)
    (himage : w'.image = w.image) : w'.PatchAgrees full patch := by
  have hcompletes : ∀ upload, w.Completes full upload → w'.Completes full upload :=
    fun upload hupload => hupload.of_same hmanifest hchunks
  cases patch with
  | idle => exact True.intro
  | accepted loaded upload offset body =>
      unfold PatchAgrees at hagrees ⊢
      rw [hmanifest]
      exact hagrees
  | stored loaded upload offset body =>
      unfold PatchAgrees at hagrees ⊢
      rw [hmanifest]
      exact hagrees
  | saved upload offset body =>
      unfold PatchAgrees at hagrees ⊢
      rw [hmanifest]
      exact ⟨hagrees.1, hagrees.2.1, fun hcomplete => hcompletes _ (hagrees.2.2 hcomplete)⟩
  | composed upload offset body =>
      unfold PatchAgrees at hagrees ⊢
      rw [hmanifest, himage]
      exact ⟨hagrees.1, hagrees.2.1, hagrees.2.2.1, hcompletes _ hagrees.2.2.2.1,
        hagrees.2.2.2.2⟩
  | finished upload offset body =>
      unfold PatchAgrees at hagrees ⊢
      rw [hmanifest]
      exact hagrees

/-- Only what a request knows changes. -/
theorem Represents.setPatch (hrepresents : w.Represents full) (r : ℕ) {patch : Patch}
    (hagrees : w.PatchAgrees full patch) : (w.setPatch r patch).Represents full := by
  constructor
  · exact hrepresents.wellFormed
  · exact hrepresents.complete
  · exact hrepresents.content
  · exact hrepresents.acknowledged
  · intro other
    unfold World.setPatch
    dsimp only
    by_cases hother : other = r
    · subst hother
      rw [Function.update_self]
      exact hagrees.of_same rfl rfl rfl
    · rw [Function.update_of_ne hother]
      exact (hrepresents.patches other).of_same rfl rfl rfl

/-- While the manifest is incomplete no request has finished the upload. -/
theorem PatchAgrees.unfinished {patch : Patch} (hagrees : w.PatchAgrees full patch)
    (hincomplete : w.manifest.offset ≠ w.manifest.totalSize) (hjob : w.manifest.jobId = none)
    {w' : World} {more : Bytes} (htotal : w'.manifest.totalSize = w.manifest.totalSize) :
    w'.PatchAgrees (full ++ more) patch := by
  cases patch with
  | idle => exact True.intro
  | accepted loaded upload offset body =>
      exact ⟨hagrees.1, hagrees.2.1, hagrees.2.2.trans htotal.symm⟩
  | stored loaded upload offset body =>
      exact ⟨hagrees.1, hagrees.2.1, hagrees.2.2.trans htotal.symm⟩
  | saved upload offset body =>
      refine ⟨hagrees.1.append more, hagrees.2.1.trans htotal.symm, ?_⟩
      intro hcomplete
      exact absurd (hagrees.2.2 hcomplete).complete hincomplete
  | composed upload offset body =>
      exact absurd hagrees.2.2.2.1.complete hincomplete
  | finished upload offset body => exact absurd hjob hagrees.2.2.2.2

theorem content_of_jobless (hjob : w.manifest.jobId = none) :
    w.content = collectParts w.chunks w.manifest.chunks := by
  unfold World.content
  rw [hjob]
  rfl

theorem content_of_collects (hjob : w.manifest.jobId = none)
    (hcollects : collectParts w.chunks w.manifest.chunks = some full) : w.content = some full := by
  rw [content_of_jobless hjob, hcollects]

theorem Represents.collects (hrepresents : w.Represents full) (hjob : w.manifest.jobId = none) :
    collectParts w.chunks w.manifest.chunks = some full := by
  rw [← content_of_jobless hjob]
  exact hrepresents.content

theorem content_of_job (hjob : w.manifest.jobId ≠ none) : w.content = w.image := by
  unfold World.content
  rw [if_pos (Option.isSome_iff_ne_none.mpr hjob)]

/-- A chunk at the end of the manifest leaves the listed ones as they are. -/
theorem Represents.putChunk (hrepresents : w.Represents full) {r : ℕ}
    {upload : ResumableUpload} {offset : ℕ} {body : Bytes}
    (hpatch : w.patches r = .accepted w.manifest upload offset body) :
    ({ w.setPatch r (.stored w.manifest upload offset body) with
      chunks := Function.update w.chunks ⟨upload.id, offset⟩ (some body) } : World).Represents full := by
  have hagrees := hrepresents.patches r
  rw [hpatch] at hagrees
  obtain ⟨hwell, happends, htotal⟩ := hagrees
  have hincomplete : w.manifest.offset ≠ w.manifest.totalSize := by
    have hroom := happends.unfinished
    omega
  have hfull := hrepresents.collects happends.jobless
  have hcontent : collectParts (Function.update w.chunks ⟨upload.id, offset⟩ (some body)) w.manifest.chunks =
      collectParts w.chunks w.manifest.chunks := by
    apply collectParts_congr
    intro part hmem
    have hlt := hwell.chunks.key_lt hmem
    have hend := happends.atEnd
    have hne : part.key ≠ ⟨upload.id, offset⟩ := by
      intro heq
      rw [heq] at hlt
      change offset < _ at hlt
      omega
    exact Function.update_of_ne hne _ _
  constructor
  · exact hrepresents.wellFormed
  · exact hrepresents.complete
  · exact content_of_collects happends.jobless (hcontent.trans hfull)
  · exact hrepresents.acknowledged
  · intro other
    unfold World.setPatch
    dsimp only
    by_cases hother : other = r
    · subst hother
      rw [Function.update_self]
      exact ⟨hwell, happends, rfl⟩
    · rw [Function.update_of_ne hother]
      have hother := @PatchAgrees.unfinished w full _ (hrepresents.patches other) hincomplete
        happends.jobless { w.setPatch r (.stored w.manifest upload offset body) with
          chunks := Function.update w.chunks ⟨upload.id, offset⟩ (some body) } [] rfl
      rw [List.append_nil] at hother
      exact hother

/-- The manifest that was loaded grows by the chunk of the request. -/
theorem Represents.putManifest (hrepresents : w.Represents full) {r : ℕ}
    {upload : ResumableUpload} {offset : ℕ} {body : Bytes}
    (hpatch : w.patches r = .stored w.manifest upload offset body)
    (hchunk : w.chunks ⟨upload.id, offset⟩ = some body) :
    ({ w.setPatch r (.saved upload offset body) with manifest := upload } : World).Represents
      (full ++ body) := by
  have hagrees := hrepresents.patches r
  rw [hpatch] at hagrees
  obtain ⟨hwell, happends, htotal⟩ := hagrees
  have hincomplete : w.manifest.offset ≠ w.manifest.totalSize := by
    have hroom := happends.unfinished
    omega
  have hresult := happends.result
  have huploadTotal : upload.totalSize = w.manifest.totalSize := by rw [hresult]
  have huploadJob : upload.jobId = none := by
    rw [hresult]
    exact happends.jobless
  have hfull := hrepresents.collects happends.jobless
  have hlength : full.length = offset := by
    have hcollected := hwell.chunks.length_collect hfull
    have hend := happends.atEnd
    omega
  have huploadId : upload.id = w.manifest.id := by rw [hresult]
  have hcollects : collectParts w.chunks upload.chunks = some (full ++ body) := by
    rw [huploadId] at hchunk
    rw [hresult]
    exact collectParts_append hfull hchunk
  have hbody : HasAt (full ++ body) offset body := by
    rw [← hlength]
    exact hasAt_end full body
  constructor
  · intro _
    exact happends.wellFormed hwell
  · intro hjob
    exact absurd huploadJob hjob
  · exact content_of_collects huploadJob hcollects
  · intro ack hmem
    exact (hrepresents.acknowledged ack hmem).append body
  · intro other
    unfold World.setPatch
    dsimp only
    by_cases hother : other = r
    · subst hother
      rw [Function.update_self]
      refine ⟨hbody, rfl, ?_⟩
      intro hcomplete
      refine ⟨hcomplete, fun _ => rfl, ?_⟩
      intro content hcontent
      exact Option.some.inj (hcontent.symm.trans hcollects)
    · rw [Function.update_of_ne hother]
      exact (hrepresents.patches other).unfinished hincomplete happends.jobless huploadTotal

/-- The manifest that is put is there already. -/
theorem Represents.putSame (hrepresents : w.Represents full) {r : ℕ}
    {loaded : ResumableUpload} {offset : ℕ} {body : Bytes}
    (hpatch : w.patches r = .stored loaded w.manifest offset body)
    (hchunk : w.chunks ⟨w.manifest.id, offset⟩ = some body) :
    (w.setPatch r (.saved w.manifest offset body)).Represents full := by
  have hagrees := hrepresents.patches r
  rw [hpatch] at hagrees
  obtain ⟨hwell, happends, htotal⟩ := hagrees
  have hresult := happends.result
  have hjob : w.manifest.jobId = none := by
    rw [hresult]
    exact happends.jobless
  have hfull := hrepresents.collects hjob
  have hlisted : collectParts w.chunks (loaded.chunks ++ [⟨⟨loaded.id, offset⟩, body.length⟩]) = some full := by
    rw [← hfull, hresult]
  have huploadId : w.manifest.id = loaded.id := by rw [hresult]
  rw [huploadId] at hchunk
  obtain ⟨front, last, hfront, hlast, happend⟩ := collectParts_concat hlisted
  have hbody : last = body := Option.some.inj (hlast.symm.trans hchunk)
  have hlength : front.length = offset := by
    have hcollected := hwell.chunks.length_collect hfront
    have hend := happends.atEnd
    omega
  apply hrepresents.setPatch r
  refine ⟨?_, rfl, ?_⟩
  · rw [happend, hbody, ← hlength]
    exact hasAt_end front body
  · intro hcomplete
    refine ⟨hcomplete, fun _ => rfl, ?_⟩
    intro content hcontent
    exact Option.some.inj (hcontent.symm.trans hfull)

/-- The requests agree with a changed world if they agree with what it changes. -/
theorem Represents.patches_setPatch (hrepresents : w.Represents full) {w' : World} (r : ℕ)
    {patch : Patch} (hpatches : w'.patches = Function.update w.patches r patch)
    (hagrees : w'.PatchAgrees full patch)
    (hothers : ∀ other, w.PatchAgrees full other → w'.PatchAgrees full other) (other : ℕ) :
    w'.PatchAgrees full (w'.patches other) := by
  rw [hpatches]
  by_cases hother : other = r
  · subst hother
    rw [Function.update_self]
    exact hagrees
  · rw [Function.update_of_ne hother]
    exact hothers _ (hrepresents.patches other)

theorem Represents.compose (hrepresents : w.Represents full) {r : ℕ} {upload : ResumableUpload}
    {offset : ℕ} {body content : Bytes} (hpatch : w.patches r = .saved upload offset body)
    (hcomplete : upload.offset = upload.totalSize)
    (hcollects : collectParts w.chunks upload.chunks = some content) :
    ({ w.setPatch r (.composed upload offset body) with image := some content } :
      World).Represents full := by
  have hagrees := hrepresents.patches r
  rw [hpatch] at hagrees
  obtain ⟨hbody, htotal, hcompletes⟩ := hagrees
  have hcompletes := hcompletes hcomplete
  have hcontent : content = full := hcompletes.collects content hcollects
  subst hcontent
  have hothers : ∀ patch, w.PatchAgrees content patch →
      ({ w.setPatch r (.composed upload offset body) with image := some content } :
        World).PatchAgrees content patch := by
    intro patch hother
    cases patch with
    | idle => exact True.intro
    | accepted loaded upload offset body => exact hother
    | stored loaded upload offset body => exact hother
    | saved upload offset body =>
        exact ⟨hother.1, hother.2.1, fun hfull => (hother.2.2 hfull).of_same rfl rfl⟩
    | composed upload offset body =>
        exact ⟨hother.1, hother.2.1, hother.2.2.1, hother.2.2.2.1.of_same rfl rfl, rfl⟩
    | finished upload offset body => exact hother
  constructor
  · exact hrepresents.wellFormed
  · exact hrepresents.complete
  · cases hjob : w.manifest.jobId with
    | none => exact content_of_collects hjob (hrepresents.collects hjob)
    | some job =>
        have hsome : w.manifest.jobId ≠ none := by
          rw [hjob]
          exact Option.some_ne_none job
        exact content_of_job hsome
  · exact hrepresents.acknowledged
  · apply hrepresents.patches_setPatch r rfl _ hothers
    exact ⟨hbody, htotal, hcomplete, hcompletes.of_same rfl rfl, rfl⟩

/-- A manifest with a job does not change what the requests agree with. -/
theorem PatchAgrees.withJob {patch : Patch} (hagrees : w.PatchAgrees full patch) {w' : World}
    (hcomplete : w'.manifest.offset = w'.manifest.totalSize) (hjob : w'.manifest.jobId ≠ none)
    (htotal : w'.manifest.totalSize = w.manifest.totalSize) (hchunks : w'.chunks = w.chunks)
    (himage : w'.image = w.image) : w'.PatchAgrees full patch := by
  have hkeeps : ∀ saved, w.Completes full saved → w'.Completes full saved := by
    intro saved hsaved
    refine ⟨hcomplete, fun hnone => absurd hnone hjob, ?_⟩
    rw [hchunks]
    exact hsaved.collects
  cases patch with
  | idle => exact True.intro
  | accepted loaded upload offset body =>
      exact ⟨hagrees.1, hagrees.2.1, hagrees.2.2.trans htotal.symm⟩
  | stored loaded upload offset body =>
      exact ⟨hagrees.1, hagrees.2.1, hagrees.2.2.trans htotal.symm⟩
  | saved upload offset body =>
      exact ⟨hagrees.1, hagrees.2.1.trans htotal.symm, fun hfull => hkeeps _ (hagrees.2.2 hfull)⟩
  | composed upload offset body =>
      exact ⟨hagrees.1, hagrees.2.1.trans htotal.symm, hagrees.2.2.1, hkeeps _ hagrees.2.2.2.1,
        himage.trans hagrees.2.2.2.2⟩
  | finished upload offset body =>
      exact ⟨hagrees.1, hagrees.2.1.trans htotal.symm, hagrees.2.2.1, hagrees.2.2.2.1, hjob⟩

theorem Represents.saveJob (hrepresents : w.Represents full) {r : ℕ} {upload : ResumableUpload}
    {offset : ℕ} {body : Bytes} (job : JobId)
    (hpatch : w.patches r = .composed upload offset body) :
    ({ w.setPatch r (.finished { upload with jobId := some job } offset body) with
      manifest := { upload with jobId := some job } } : World).Represents full := by
  have hagrees := hrepresents.patches r
  rw [hpatch] at hagrees
  obtain ⟨hbody, htotal, hcomplete, hcompletes, himage⟩ := hagrees
  have hjob : (some job : Option JobId) ≠ none := Option.some_ne_none job
  constructor
  · intro hnone
    exact absurd hnone hjob
  · intro _
    exact hcomplete
  · exact (content_of_job hjob).trans himage
  · exact hrepresents.acknowledged
  · apply hrepresents.patches_setPatch r rfl
    · exact ⟨hbody, rfl, hcomplete, hjob, hjob⟩
    · intro other hother
      exact hother.withJob hcomplete hjob htotal rfl rfl

theorem Represents.deleteChunk (hrepresents : w.Represents full) (key : ChunkKey)
    (hjob : w.manifest.jobId ≠ none) :
    ({ w with chunks := Function.update w.chunks key none } : World).Represents full := by
  have hsub : ∀ other, Function.update w.chunks key none other = w.chunks other ∨
      Function.update w.chunks key none other = none := by
    intro other
    by_cases hother : other = key
    · subst hother
      right
      exact Function.update_self ..
    · left
      exact Function.update_of_ne hother _ _
  have hkeeps : ∀ saved, w.Completes full saved →
      ({ w with chunks := Function.update w.chunks key none } : World).Completes full saved :=
    fun saved hsaved => ⟨hsaved.complete, hsaved.chunks,
      fun content hcontent => hsaved.collects content (collectParts_of_subset hsub hcontent)⟩
  constructor
  · exact hrepresents.wellFormed
  · exact hrepresents.complete
  · refine Eq.trans ?_ hrepresents.content
    rw [content_of_job hjob]
    exact content_of_job hjob
  · exact hrepresents.acknowledged
  · intro r
    have hagrees := hrepresents.patches r
    dsimp only
    cases hpatch : w.patches r with
    | idle => exact True.intro
    | accepted loaded upload offset body =>
        rw [hpatch] at hagrees
        exact hagrees
    | stored loaded upload offset body =>
        rw [hpatch] at hagrees
        exact hagrees
    | saved upload offset body =>
        rw [hpatch] at hagrees
        exact ⟨hagrees.1, hagrees.2.1, fun hfull => hkeeps _ (hagrees.2.2 hfull)⟩
    | composed upload offset body =>
        rw [hpatch] at hagrees
        exact ⟨hagrees.1, hagrees.2.1, hagrees.2.2.1, hkeeps _ hagrees.2.2.2.1,
          hagrees.2.2.2.2⟩
    | finished upload offset body =>
        rw [hpatch] at hagrees
        exact hagrees

theorem Represents.compact (hrepresents : w.Represents full) {r : ℕ} {upload : ResumableUpload}
    {offset : ℕ} {body : Bytes} (hpatch : w.patches r = .finished upload offset body) :
    ({ w with manifest := { upload with chunks := [] } } : World).Represents full := by
  have hagrees := hrepresents.patches r
  rw [hpatch] at hagrees
  obtain ⟨hbody, htotal, hcomplete, huploadJob, hjob⟩ := hagrees
  have himage : w.image = some full := by
    rw [← content_of_job hjob]
    exact hrepresents.content
  constructor
  · intro hnone
    exact absurd hnone huploadJob
  · intro _
    exact hcomplete
  · exact (content_of_job huploadJob).trans himage
  · exact hrepresents.acknowledged
  · intro other
    exact (hrepresents.patches other).withJob hcomplete huploadJob htotal rfl rfl

theorem Represents.answer (hrepresents : w.Represents full) (r : ℕ) {offset : ℕ} {body : Bytes}
    (hbody : HasAt full offset body) :
    ({ w.setPatch r .idle with acknowledged := (offset, body) :: w.acknowledged } :
      World).Represents full := by
  have hidle : w.PatchAgrees full .idle := True.intro
  have hset := hrepresents.setPatch r hidle
  constructor
  · exact hset.wellFormed
  · exact hset.complete
  · exact hset.content
  · intro ack hmem
    cases hmem with
    | head => exact hbody
    | tail _ hmem => exact hrepresents.acknowledged ack hmem
  · intro other
    exact (hset.patches other).of_same rfl rfl rfl

/-- An undisturbed step leads to a world that represents the same bytes or more,
and its offset is not smaller. -/
theorem Represents.step (hrepresents : w.Represents full) {action : Action} {next : World}
    (hundisturbed : w.Undisturbed action) (hstep : w.step action = some next) :
    (∃ full', next.Represents full') ∧ w.manifest.offset ≤ next.manifest.offset := by
  cases action with
  | load r offset body =>
      simp only [World.step] at hstep
      split at hstep
      · rename_i upload hpatch happend
        cases hstep
        have happends := appends_of_append hrepresents.wellFormed happend
        refine ⟨⟨full, hrepresents.setPatch r ?_⟩, le_rfl⟩
        exact ⟨hrepresents.wellFormed happends.jobless, happends, rfl⟩
      · cases hstep
  | putChunk r =>
      simp only [World.step] at hstep
      split at hstep
      · rename_i loaded upload offset body hpatch
        cases hstep
        simp only [World.Undisturbed, hpatch] at hundisturbed
        rcases hundisturbed with hloaded | ⟨hput, hchunk⟩
        · subst hloaded
          exact ⟨⟨full, hrepresents.putChunk hpatch⟩, le_rfl⟩
        · have hagrees := hrepresents.patches r
          rw [hpatch] at hagrees
          have hstored : w.PatchAgrees full (.stored loaded upload offset body) := hagrees
          have hset := hrepresents.setPatch r hstored
          have hsame : Function.update w.chunks ⟨upload.id, offset⟩ (some body) = w.chunks := by
            rw [← hchunk, Function.update_eq_self]
          rw [hsame]
          exact ⟨⟨full, hset⟩, le_rfl⟩
      · cases hstep
  | putManifest r =>
      simp only [World.step] at hstep
      split at hstep
      · rename_i loaded upload offset body hpatch
        cases hstep
        simp only [World.Undisturbed, hpatch] at hundisturbed
        obtain ⟨hmanifest, hchunk⟩ := hundisturbed
        have hagrees := hrepresents.patches r
        rw [hpatch] at hagrees
        obtain ⟨hwell, happends, htotal⟩ := hagrees
        cases hmanifest with
        | inl hloaded =>
            subst hloaded
            refine ⟨⟨_, hrepresents.putManifest hpatch hchunk⟩, ?_⟩
            change w.manifest.offset ≤ upload.offset
            rw [happends.result, happends.atEnd]
            exact Nat.le_add_right _ _
        | inr hput =>
            subst hput
            exact ⟨⟨full, hrepresents.putSame hpatch hchunk⟩, le_rfl⟩
      · cases hstep
  | compose r =>
      simp only [World.step] at hstep
      split at hstep
      · rename_i upload offset body hpatch
        split_ifs at hstep with hfinalizes
        obtain ⟨content, hcollects, hnext⟩ := Option.map_eq_some_iff.mp hstep
        unfold finalizes at hfinalizes
        rw [Bool.and_eq_true] at hfinalizes
        subst hnext
        exact ⟨⟨full, hrepresents.compose hpatch (of_decide_eq_true hfinalizes.1) hcollects⟩,
          le_rfl⟩
      · cases hstep
  | saveJob r job =>
      simp only [World.step] at hstep
      split at hstep
      · rename_i upload offset body hpatch
        cases hstep
        refine ⟨⟨full, hrepresents.saveJob job hpatch⟩, ?_⟩
        have hagrees := hrepresents.patches r
        rw [hpatch] at hagrees
        obtain ⟨hbody, htotal, hcomplete, hcompletes, himage⟩ := hagrees
        change w.manifest.offset ≤ upload.offset
        rw [hcomplete, htotal, hcompletes.complete]
      · cases hstep
  | deleteChunk r part =>
      simp only [World.step] at hstep
      split at hstep
      · rename_i upload offset body hpatch
        split_ifs at hstep
        cases hstep
        have hagrees := hrepresents.patches r
        rw [hpatch] at hagrees
        exact ⟨⟨full, hrepresents.deleteChunk part.key hagrees.2.2.2.2⟩, le_rfl⟩
      · cases hstep
  | compact r =>
      simp only [World.step] at hstep
      split at hstep
      · rename_i upload offset body hpatch
        cases hstep
        refine ⟨⟨full, hrepresents.compact hpatch⟩, ?_⟩
        have hagrees := hrepresents.patches r
        rw [hpatch] at hagrees
        obtain ⟨hbody, htotal, hcomplete, huploadJob, hjob⟩ := hagrees
        change w.manifest.offset ≤ upload.offset
        rw [hcomplete, htotal, hrepresents.complete hjob]
      · cases hstep
  | answer r =>
      have hagrees := hrepresents.patches r
      simp only [World.step] at hstep
      split at hstep
      · rename_i upload offset body hpatch
        rw [hpatch] at hagrees
        split_ifs at hstep
        cases hstep
        exact ⟨⟨full, hrepresents.answer r hagrees.1⟩, le_rfl⟩
      · rename_i upload offset body hpatch
        rw [hpatch] at hagrees
        cases hstep
        exact ⟨⟨full, hrepresents.answer r hagrees.1⟩, le_rfl⟩
      · cases hstep
  | leave r =>
      cases hstep
      have hidle : w.PatchAgrees full .idle := True.intro
      exact ⟨⟨full, hrepresents.setPatch r hidle⟩, le_rfl⟩

theorem Represents.run (hrepresents : w.Represents full) {actions : List Action} {final : World}
    (hundisturbed : w.UndisturbedRun actions) (hrun : w.run actions = some final) :
    (∃ full', final.Represents full') ∧ w.manifest.offset ≤ final.manifest.offset := by
  induction actions generalizing w full with
  | nil =>
      cases hrun
      exact ⟨⟨full, hrepresents⟩, le_rfl⟩
  | cons action actions ih =>
      obtain ⟨next, hstep, hrest⟩ := Option.bind_eq_some_iff.mp hrun
      obtain ⟨haction, hactions⟩ := hundisturbed
      rw [hstep] at hactions
      obtain ⟨⟨full', hnext⟩, hoffset⟩ := hrepresents.step haction hstep
      obtain ⟨hfinal, hlater⟩ := ih hnext hactions hrest
      exact ⟨hfinal, hoffset.trans hlater⟩

theorem Represents.delivers (hrepresents : w.Represents full) : w.Delivers :=
  ⟨full, hrepresents.content, hrepresents.acknowledged⟩

theorem undisturbedRun_append {front back : List Action} {middle : World}
    (hfront : w.run front = some middle) (hundisturbed : w.UndisturbedRun (front ++ back)) :
    w.UndisturbedRun front ∧ middle.UndisturbedRun back := by
  induction front generalizing w with
  | nil =>
      cases hfront
      exact ⟨True.intro, hundisturbed⟩
  | cons action front ih =>
      obtain ⟨next, hstep, hrest⟩ := Option.bind_eq_some_iff.mp hfront
      obtain ⟨haction, hactions⟩ := hundisturbed
      rw [hstep] at hactions
      obtain ⟨hbefore, hafter⟩ := ih hrest hactions
      refine ⟨⟨haction, ?_⟩, hafter⟩
      rw [hstep]
      exact hbefore

end World

/-- In a run of undisturbed steps every acknowledged body stays at its offset, and
the offset of the manifest never decreases. -/
theorem concurrent_patches (id : String) (totalSize : ℕ) (isPartial : Bool) (front back : List Action)
    (middle final : World) (hfront : (World.created id totalSize isPartial).run front = some middle)
    (hback : middle.run back = some final)
    (hundisturbed : (World.created id totalSize isPartial).UndisturbedRun (front ++ back)) :
    final.Delivers ∧ middle.manifest.offset ≤ final.manifest.offset := by
  have hcreated := World.represents_created id totalSize isPartial
  obtain ⟨hbefore, hafter⟩ := World.undisturbedRun_append hfront hundisturbed
  obtain ⟨⟨full, hmiddle⟩, -⟩ := hcreated.run hbefore hfront
  obtain ⟨⟨full', hfinal⟩, hoffset⟩ := hmiddle.run hafter hback
  exact ⟨hfinal.delivers, hoffset⟩

theorem concurrent_patches_resumed :
    ∃ middle final, (World.created "u" 3 false).run
        [.load 0 0 [1, 2], .putChunk 0, .putManifest 0, .answer 0] = some middle ∧
      middle.run [.load 1 2 [7], .putChunk 1, .putManifest 1, .compose 1] = some final ∧
      final.Delivers ∧ middle.manifest.offset ≤ final.manifest.offset := by
  refine ⟨_, _, rfl, rfl, ?_⟩
  exact concurrent_patches "u" 3 false
    [.load 0 0 [1, 2], .putChunk 0, .putManifest 0, .answer 0]
    [.load 1 2 [7], .putChunk 1, .putManifest 1, .compose 1] _ _ rfl rfl
    ⟨trivial, Or.inl rfl, ⟨Or.inl rfl, rfl⟩, trivial, trivial, Or.inl rfl, ⟨Or.inl rfl, rfl⟩,
      trivial, trivial⟩

/-- Two requests put chunks of different lengths at one offset: the first is
answered, the second takes the offset of the manifest back, and the image has
the bytes of the second. -/
theorem concurrent_patches_counterexample :
    ∃ middle final, (World.created "u" 3 false).run
        [.load 0 0 [1, 2], .load 1 0 [9], .putChunk 0, .putManifest 0, .answer 0] = some middle ∧
      middle.run [.putChunk 1, .putManifest 1, .answer 1, .load 2 1 [7, 8], .putChunk 2,
        .putManifest 2, .compose 2, .saveJob 2 5, .answer 2] = some final ∧
      middle.acknowledged = [(0, [1, 2])] ∧ final.image = some [9, 7, 8] ∧
      (∃ next, middle.run [.putChunk 1, .putManifest 1] = some next ∧
        next.manifest.offset < middle.manifest.offset) ∧
      ¬ final.Delivers := by
  refine ⟨_, _, rfl, rfl, rfl, rfl, ⟨_, rfl, by decide⟩, ?_⟩
  intro hdelivers
  obtain ⟨content, hcontent, hacknowledged⟩ := hdelivers
  cases hcontent
  have hlost := hacknowledged (0, [1, 2]) (by decide)
  exact absurd hlost (by unfold HasAt; decide)

end SeizaServer.Uploads
