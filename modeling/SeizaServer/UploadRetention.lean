import SeizaServer.ResumableUpload

/-!
# Uploads and the retention sweep

PATCH requests write chunks and manifests, each request to an upload alone.  A sweep
judges every object by its own time and removes those that are not newer than its
cutoff, chunks and manifests alike.  Here a sweep is one step, as if no request came
between its removals.
-/

namespace SeizaServer.Retention

open Uploads

structure Written (α : Type) where
  value : α
  time : Time

/-- What the request that works on an upload has in memory.  A request that has put
its chunk has the manifest it is going to put. -/
inductive Phase where
  | idle
  | loaded (upload : ResumableUpload)
  | chunked (upload : ResumableUpload)
  | finalized (upload : ResumableUpload)

/-- No write of the store is later than the clock. -/
structure Store where
  manifests : String → Option (Written ResumableUpload)
  chunks : ChunkKey → Option (Written Bytes)
  phases : String → Phase
  clock : Time

def Store.empty (clock : Time) : Store where
  manifests := fun _ => none
  chunks := fun _ => none
  phases := fun _ => .idle
  clock := clock

def Store.bytes (w : Store) : ChunkObjects := fun key => (w.chunks key).map (·.value)

inductive Action where
  | create (id : String) (totalSize : ℕ) (isPartial : Bool) (now : Time)
  | load (id : String)
  | putChunk (id : String) (offset : ℕ) (body : Bytes) (now : Time)
  | putManifest (id : String) (now : Time)
  | saveJob (id : String) (job : JobId) (now : Time)
  | deleteChunk (id : String) (part : StoredObjectPart)
  | compact (id : String) (now : Time)
  | stop (id : String)
  | sweep (cutoff : Time)

/-- What a sweep leaves of an object. -/
def kept {α : Type} (cutoff : Time) (object : Option (Written α)) : Option (Written α) :=
  object.filter fun written => decide (cutoff < written.time)

/-- One call; `none` where the request is not at that point or the call fails. -/
def Store.step (w : Store) : Action → Option Store
  | .create id totalSize isPartial now =>
      if (w.manifests id).isNone ∧ w.clock ≤ now then
        match w.phases id with
        | .idle =>
            some { w with
              manifests := Function.update w.manifests id
                (some ⟨.new id totalSize isPartial, now⟩)
              clock := now }
        | _ => none
      else none
  | .load id =>
      match w.phases id, w.manifests id with
      | .idle, some manifest =>
          some { w with phases := Function.update w.phases id (.loaded manifest.value) }
      | _, _ => none
  | .putChunk id offset body now =>
      match w.phases id with
      | .loaded upload =>
          match upload.append offset body with
          | .ok appended =>
              if w.clock ≤ now then
                some { w with
                  chunks := Function.update w.chunks ⟨upload.id, offset⟩ (some ⟨body, now⟩)
                  phases := Function.update w.phases id (.chunked appended)
                  clock := now }
              else none
          | .error _ => none
      | _ => none
  | .putManifest id now =>
      match w.phases id with
      | .chunked upload =>
          if w.clock ≤ now then
            some { w with
              manifests := Function.update w.manifests id (some ⟨upload, now⟩)
              phases := Function.update w.phases id (.loaded upload)
              clock := now }
          else none
      | _ => none
  | .saveJob id job now =>
      match w.phases id with
      | .loaded upload =>
          if upload.jobId.isNone ∧ upload.offset = upload.totalSize ∧
              (collectParts w.bytes upload.chunks).isSome ∧ w.clock ≤ now then
            let upload := { upload with jobId := some job }
            some { w with
              manifests := Function.update w.manifests id (some ⟨upload, now⟩)
              phases := Function.update w.phases id (.finalized upload)
              clock := now }
          else none
      | _ => none
  | .deleteChunk id part =>
      match w.phases id with
      | .finalized upload =>
          if part ∈ upload.chunks then
            some { w with chunks := Function.update w.chunks part.key none }
          else none
      | _ => none
  | .compact id now =>
      match w.phases id with
      | .finalized upload =>
          if w.clock ≤ now then
            some { w with
              manifests := Function.update w.manifests id (some ⟨{ upload with chunks := [] }, now⟩)
              phases := Function.update w.phases id .idle
              clock := now }
          else none
      | _ => none
  | .stop id => some { w with phases := Function.update w.phases id .idle }
  | .sweep cutoff =>
      some { w with
        manifests := fun id => kept cutoff (w.manifests id)
        chunks := fun key => kept cutoff (w.chunks key) }

def Store.run (w : Store) : List Action → Option Store
  | [] => some w
  | action :: actions => (w.step action).bind (·.run actions)

/-- An upload without a job whose manifest is there has all its chunks. -/
def Store.Finalizable (w : Store) : Prop :=
  ∀ id manifest, w.manifests id = some manifest → manifest.value.jobId = none →
    ∃ content, collectParts w.bytes manifest.value.chunks = some content

/-- The first chunk an upload lists was last written after the cutoff. -/
def Store.StartsAfter (w : Store) (cutoff : Time) (upload : ResumableUpload) : Prop :=
  ∀ first ∈ upload.chunks.head?, ∀ written, w.chunks first.key = some written →
    cutoff < written.time

/-- The cutoff of a sweep is not between the write of the first chunk of an open
upload and that of its manifest, and before the first chunk of an upload a request
is about to append to. -/
def Store.Spares (w : Store) (cutoff : Time) : Prop :=
  (∀ id manifest, w.manifests id = some manifest → manifest.value.jobId = none →
    manifest.time ≤ cutoff ∨ w.StartsAfter cutoff manifest.value) ∧
    ∀ id, match w.phases id with
      | .loaded upload => upload.jobId = none → w.StartsAfter cutoff upload
      | .chunked upload => w.StartsAfter cutoff upload
      | _ => True

def Store.Spared (w : Store) : Action → Prop
  | .sweep cutoff => w.Spares cutoff
  | _ => True

/-- A run in which every sweep spares the uploads. -/
def Store.SparedRun (w : Store) : List Action → Prop
  | [] => True
  | action :: actions =>
      w.Spared action ∧
        match w.step action with
        | none => True
        | some next => next.SparedRun actions

/-! ## Whole uploads -/

/-- All chunks are there, none of them older than the first. -/
structure Store.Whole (w : Store) (upload : ResumableUpload) : Prop where
  wellFormed : upload.WellFormed
  collects : ∃ content, collectParts w.bytes upload.chunks = some content
  ordered : ∀ first ∈ upload.chunks.head?, ∀ part ∈ upload.chunks, ∀ a b,
    w.chunks first.key = some a → w.chunks part.key = some b → a.time ≤ b.time

namespace Store

variable {w w' : Store} {upload : ResumableUpload}

/-- Other objects do not matter to an upload. -/
theorem Whole.of_same (hwhole : w.Whole upload)
    (hsame : ∀ part ∈ upload.chunks, w'.chunks part.key = w.chunks part.key) :
    w'.Whole upload := by
  refine ⟨hwhole.wellFormed, ?_, ?_⟩
  · obtain ⟨content, hcollects⟩ := hwhole.collects
    refine ⟨content, ?_⟩
    rw [← hcollects]
    apply collectParts_congr
    intro part hmem
    unfold bytes
    rw [hsame part hmem]
  · intro first hfirst part hmem a b ha hb
    rw [hsame first (List.mem_of_mem_head? hfirst)] at ha
    rw [hsame part hmem] at hb
    exact hwhole.ordered first hfirst part hmem a b ha hb

/-- A sweep leaves an upload whole whose first chunk it leaves. -/
theorem Whole.swept (hwhole : w.Whole upload) {cutoff : Time}
    (hstarts : w.StartsAfter cutoff upload)
    (hchunks : ∀ key, w'.chunks key = kept cutoff (w.chunks key)) : w'.Whole upload := by
  apply hwhole.of_same
  intro part hmem
  obtain ⟨content, hcollects⟩ := hwhole.collects
  have hpresent : ∀ other ∈ upload.chunks, ∃ written, w.chunks other.key = some written := by
    intro other hother
    obtain ⟨bytes, hbytes⟩ := collectParts_present hcollects hother
    obtain ⟨written, hwritten, -⟩ := Option.map_eq_some_iff.mp hbytes
    exact ⟨written, hwritten⟩
  obtain ⟨first, hfirst⟩ : ∃ first, first ∈ upload.chunks.head? := by
    cases hlist : upload.chunks with
    | nil =>
        rw [hlist] at hmem
        cases hmem
    | cons first rest => exact ⟨first, rfl⟩
  obtain ⟨a, ha⟩ := hpresent first (List.mem_of_mem_head? hfirst)
  obtain ⟨b, hb⟩ := hpresent part hmem
  have hlate : cutoff < b.time := by
    have hstart := hstarts first hfirst a ha
    have horder := hwhole.ordered first hfirst part hmem a b ha hb
    exact lt_of_lt_of_le hstart horder
  rw [hchunks, hb]
  unfold kept
  rw [Option.filter_some, decide_eq_true hlate]
  rfl

/-- What the request to an upload works on. -/
def PhaseAgrees (w : Store) (id : String) : Phase → Prop
  | .idle => True
  | .loaded upload =>
      upload.id = id ∧ (upload.jobId = none → w.Whole upload) ∧
        ∀ manifest, w.manifests id = some manifest → manifest.value = upload
  | .chunked upload =>
      upload.id = id ∧ upload.jobId = none ∧ w.Whole upload
  | .finalized upload =>
      upload.id = id ∧ upload.jobId ≠ none ∧
        (∀ part ∈ upload.chunks, part.key.uploadId = id) ∧
        ∀ manifest, w.manifests id = some manifest → manifest.value.jobId ≠ none

structure Consistent (w : Store) : Prop where
  manifests : ∀ id manifest, w.manifests id = some manifest →
    manifest.value.id = id ∧ (manifest.value.jobId = none → w.Whole manifest.value)
  phases : ∀ id, w.PhaseAgrees id (w.phases id)
  clock : ∀ key written, w.chunks key = some written → written.time ≤ w.clock

theorem consistent_empty (clock : Time) : (empty clock).Consistent := by
  constructor
  · intro id manifest hmanifest
    cases hmanifest
  · intro id
    exact True.intro
  · intro key written hwritten
    cases hwritten

theorem Consistent.finalizable (hconsistent : w.Consistent) : w.Finalizable := by
  intro id manifest hmanifest hjob
  exact ((hconsistent.manifests id manifest hmanifest).2 hjob).collects

/-- Chunks of one upload are not those of another. -/
theorem Whole.of_other (hwhole : w.Whole upload) {id : String}
    (hother : upload.id ≠ id)
    (hsame : ∀ key, key.uploadId ≠ id → w'.chunks key = w.chunks key) : w'.Whole upload := by
  apply hwhole.of_same
  intro part hmem
  apply hsame
  rw [Uploads.Follows.key_id hwhole.wellFormed.chunks hmem]
  exact hother

/-- A call of the request to one upload leaves the other uploads as they are. -/
theorem Consistent.of_id (hconsistent : w.Consistent) (id : String)
    (hmanifests : ∀ other, other ≠ id → w'.manifests other = w.manifests other)
    (hphases : ∀ other, other ≠ id → w'.phases other = w.phases other)
    (hchunks : ∀ key, key.uploadId ≠ id → w'.chunks key = w.chunks key)
    (hmanifest : ∀ manifest, w'.manifests id = some manifest →
      manifest.value.id = id ∧ (manifest.value.jobId = none → w'.Whole manifest.value))
    (hphase : w'.PhaseAgrees id (w'.phases id))
    (hclock : ∀ key written, w'.chunks key = some written → written.time ≤ w'.clock) :
    w'.Consistent := by
  constructor
  · intro other manifest hother
    by_cases hsame : other = id
    · subst hsame
      exact hmanifest manifest hother
    · rw [hmanifests other hsame] at hother
      obtain ⟨hid, hwhole⟩ := hconsistent.manifests other manifest hother
      refine ⟨hid, fun hjob => (hwhole hjob).of_other ?_ hchunks⟩
      rw [hid]
      exact hsame
  · intro other
    by_cases hsame : other = id
    · subst hsame
      exact hphase
    · rw [hphases other hsame]
      have hagrees := hconsistent.phases other
      cases hother : w.phases other with
      | idle => exact True.intro
      | loaded upload =>
          rw [hother] at hagrees
          obtain ⟨hid, hwhole, hmanifest⟩ := hagrees
          refine ⟨hid, fun hjob => (hwhole hjob).of_other (hid ▸ hsame) hchunks, ?_⟩
          rw [hmanifests other hsame]
          exact hmanifest
      | chunked upload =>
          rw [hother] at hagrees
          obtain ⟨hid, hjob, hwhole⟩ := hagrees
          exact ⟨hid, hjob, hwhole.of_other (hid ▸ hsame) hchunks⟩
      | finalized upload =>
          rw [hother] at hagrees
          obtain ⟨hid, hjob, hkeys, hmanifest⟩ := hagrees
          refine ⟨hid, hjob, hkeys, ?_⟩
          rw [hmanifests other hsame]
          exact hmanifest
  · exact hclock

theorem Consistent.putChunk (hconsistent : w.Consistent) {id : String} {offset : ℕ}
    {body : Bytes} {now : Time} {appended : ResumableUpload}
    (hphase : w.phases id = .loaded upload) (happend : upload.append offset body = .ok appended)
    (hclock : w.clock ≤ now) :
    ({ w with
        chunks := Function.update w.chunks ⟨upload.id, offset⟩ (some ⟨body, now⟩)
        phases := Function.update w.phases id (.chunked appended)
        clock := now } : Store).Consistent := by
  have hagrees := hconsistent.phases id
  rw [hphase] at hagrees
  obtain ⟨hid, hwhole, hmanifest⟩ := hagrees
  have happends := appends_of_append (fun hjob => (hwhole hjob).wellFormed) happend
  have hwhole := hwhole happends.jobless
  have hresult := happends.result
  have hlisted : ∀ part ∈ upload.chunks,
      Function.update w.chunks ⟨upload.id, offset⟩ (some ⟨body, now⟩) part.key =
        w.chunks part.key := by
    intro part hmem
    have hlt := hwhole.wellFormed.chunks.key_lt hmem
    have hend := happends.atEnd
    have hne : part.key ≠ ⟨upload.id, offset⟩ := by
      intro heq
      rw [heq] at hlt
      change offset < _ at hlt
      omega
    exact Function.update_of_ne hne _ _
  apply hconsistent.of_id id
  · intro other _
    rfl
  · intro other hother
    exact Function.update_of_ne hother _ _
  · intro key hkey
    have hne : key ≠ ⟨upload.id, offset⟩ := by
      intro heq
      rw [heq] at hkey
      exact hkey hid
    exact Function.update_of_ne hne _ _
  · intro manifest hstored
    have hsame := hmanifest manifest hstored
    refine ⟨hsame ▸ hid, fun _ => ?_⟩
    rw [hsame]
    exact hwhole.of_same hlisted
  · dsimp only
    rw [Function.update_self]
    refine ⟨?_, ?_, happends.wellFormed hwhole.wellFormed, ?_, ?_⟩
    · rw [hresult]
      exact hid
    · rw [hresult]
      exact happends.jobless
    · obtain ⟨content, hcollects⟩ := hwhole.collects
      refine ⟨content ++ body, ?_⟩
      rw [hresult]
      apply collectParts_append
      · rw [← hcollects]
        apply collectParts_congr
        intro part hmem
        unfold bytes
        dsimp only
        rw [hlisted part hmem]
      · unfold bytes
        dsimp only
        rw [Function.update_self]
        rfl
    · -- the new chunk is written last
      intro first hfirst part hmem a b ha hb
      rw [hresult] at hfirst hmem
      dsimp only at ha hb
      have hbefore : ∀ written, w.chunks first.key = some written → written.time ≤ now :=
        fun written hwritten => (hconsistent.clock _ _ hwritten).trans hclock
      have hfirstTime : a.time ≤ now := by
        by_cases hkey : first.key = ⟨upload.id, offset⟩
        · rw [hkey, Function.update_self] at ha
          cases ha
          exact le_rfl
        · rw [Function.update_of_ne hkey] at ha
          exact hbefore a ha
      cases List.mem_append.mp hmem with
      | inl hold =>
          rw [hlisted part hold] at hb
          have hhead : first ∈ upload.chunks.head? := by
            cases hlist : upload.chunks with
            | nil =>
                rw [hlist] at hold
                cases hold
            | cons other rest =>
                rw [hlist] at hfirst
                exact hfirst
          rw [hlisted first (List.mem_of_mem_head? hhead)] at ha
          exact hwhole.ordered first hhead part hold a b ha hb
      | inr hnew =>
          rw [List.mem_singleton.mp hnew, Function.update_self] at hb
          cases hb
          exact hfirstTime
  · intro key written hwritten
    by_cases hkey : key = ⟨upload.id, offset⟩
    · dsimp only at hwritten
      rw [hkey, Function.update_self] at hwritten
      cases hwritten
      exact le_rfl
    · dsimp only at hwritten
      rw [Function.update_of_ne hkey] at hwritten
      exact (hconsistent.clock _ _ hwritten).trans hclock

theorem Consistent.sweep (hconsistent : w.Consistent) {cutoff : Time}
    (hspares : w.Spares cutoff) :
    ({ w with
        manifests := fun id => kept cutoff (w.manifests id)
        chunks := fun key => kept cutoff (w.chunks key) } : Store).Consistent := by
  have hkept : ∀ {α : Type} {object : Option (Written α)} {written : Written α},
      kept cutoff object = some written → object = some written ∧ cutoff < written.time := by
    intro α object written hwritten
    obtain ⟨hobject, hlate⟩ := Option.filter_eq_some_iff.mp hwritten
    exact ⟨hobject, of_decide_eq_true hlate⟩
  constructor
  · intro id manifest hmanifest
    obtain ⟨hstored, hlate⟩ := hkept hmanifest
    obtain ⟨hid, hwhole⟩ := hconsistent.manifests id manifest hstored
    refine ⟨hid, fun hjob => (hwhole hjob).swept ?_ fun _ => rfl⟩
    cases hspares.1 id manifest hstored hjob with
    | inl hold => exact absurd hlate (not_lt.mpr hold)
    | inr hstarts => exact hstarts
  · intro id
    have hagrees := hconsistent.phases id
    have hsparesPhase := hspares.2 id
    dsimp only
    cases hphase : w.phases id with
    | idle => exact True.intro
    | loaded upload =>
        rw [hphase] at hagrees hsparesPhase
        obtain ⟨hid, hwhole, hmanifest⟩ := hagrees
        refine ⟨hid, fun hjob => (hwhole hjob).swept (hsparesPhase hjob) fun _ => rfl, ?_⟩
        intro manifest hstored
        exact hmanifest manifest (hkept hstored).1
    | chunked upload =>
        rw [hphase] at hagrees hsparesPhase
        obtain ⟨hid, hjob, hwhole⟩ := hagrees
        exact ⟨hid, hjob, hwhole.swept hsparesPhase fun _ => rfl⟩
    | finalized upload =>
        rw [hphase] at hagrees
        obtain ⟨hid, hjob, hkeys, hmanifest⟩ := hagrees
        exact ⟨hid, hjob, hkeys, fun manifest hstored => hmanifest manifest (hkept hstored).1⟩
  · intro key written hwritten
    exact hconsistent.clock key written (hkept hwritten).1

/-- A manifest is saved and the request goes on. -/
theorem Consistent.save (hconsistent : w.Consistent) {id : String} {now : Time} {phase : Phase}
    (hid : upload.id = id) (hwhole : upload.jobId = none → w.Whole upload)
    (hphase : ∀ w' : Store, w'.chunks = w.chunks → w'.manifests id = some ⟨upload, now⟩ →
      w'.PhaseAgrees id phase) (hclock : w.clock ≤ now) :
    ({ w with
        manifests := Function.update w.manifests id (some ⟨upload, now⟩)
        phases := Function.update w.phases id phase
        clock := now } : Store).Consistent := by
  apply hconsistent.of_id id
  · intro other hother
    exact Function.update_of_ne hother _ _
  · intro other hother
    exact Function.update_of_ne hother _ _
  · intro key _
    rfl
  · intro manifest hstored
    dsimp only at hstored
    rw [Function.update_self] at hstored
    cases hstored
    exact ⟨hid, fun hjob => (hwhole hjob).of_same fun _ _ => rfl⟩
  · dsimp only
    rw [Function.update_self]
    exact hphase _ rfl (Function.update_self ..)
  · intro key written hwritten
    exact (hconsistent.clock key written hwritten).trans hclock

/-- A sweep that leaves every chunk spares the uploads. -/
theorem spares_of_late {cutoff : Time}
    (hlate : ∀ key written, w.chunks key = some written → cutoff < written.time) :
    w.Spares cutoff := by
  have hstarts : ∀ upload, w.StartsAfter cutoff upload :=
    fun upload first hfirst written hwritten => hlate first.key written hwritten
  constructor
  · intro id manifest _ _
    exact Or.inr (hstarts manifest.value)
  · intro id
    cases w.phases id with
    | idle => exact True.intro
    | loaded upload => exact fun _ => hstarts upload
    | chunked upload => exact hstarts upload
    | finalized upload => exact True.intro

/-- The request to an upload changes what it works on, and nothing else. -/
theorem Consistent.phase (hconsistent : w.Consistent) {id : String} {phase : Phase}
    (hphase : w.PhaseAgrees id phase) :
    ({ w with phases := Function.update w.phases id phase } : Store).Consistent := by
  apply hconsistent.of_id id
  · intro other _
    rfl
  · intro other hother
    exact Function.update_of_ne hother _ _
  · intro key _
    rfl
  · intro manifest hstored
    obtain ⟨hid, hwhole⟩ := hconsistent.manifests id manifest hstored
    exact ⟨hid, fun hjob => (hwhole hjob).of_same fun _ _ => rfl⟩
  · dsimp only
    rw [Function.update_self]
    cases phase with
    | idle => exact True.intro
    | loaded upload =>
        obtain ⟨hid, hwhole, hmanifest⟩ := hphase
        exact ⟨hid, fun hjob => (hwhole hjob).of_same fun _ _ => rfl, hmanifest⟩
    | chunked upload =>
        obtain ⟨hid, hjob, hwhole⟩ := hphase
        exact ⟨hid, hjob, hwhole.of_same fun _ _ => rfl⟩
    | finalized upload => exact hphase
  · exact hconsistent.clock

theorem Consistent.create (hconsistent : w.Consistent) {id : String} {totalSize : ℕ}
    {isPartial : Bool} {now : Time} (hidle : w.phases id = .idle) (hclock : w.clock ≤ now) :
    ({ w with
        manifests := Function.update w.manifests id (some ⟨.new id totalSize isPartial, now⟩)
        clock := now } : Store).Consistent := by
  apply hconsistent.of_id id
  · intro other hother
    exact Function.update_of_ne hother _ _
  · intro other _
    rfl
  · intro key _
    rfl
  · intro manifest hstored
    dsimp only at hstored
    rw [Function.update_self] at hstored
    cases hstored
    refine ⟨rfl, fun _ => ⟨⟨.nil 0, Nat.zero_le totalSize⟩, ⟨[], rfl⟩, ?_⟩⟩
    intro first hfirst
    cases hfirst
  · dsimp only
    rw [hidle]
    exact True.intro
  · intro key written hwritten
    exact (hconsistent.clock key written hwritten).trans hclock

theorem Consistent.deleteChunk (hconsistent : w.Consistent) {id : String}
    {part : StoredObjectPart} (hphase : w.phases id = .finalized upload)
    (hmem : part ∈ upload.chunks) :
    ({ w with chunks := Function.update w.chunks part.key none } : Store).Consistent := by
  have hagrees := hconsistent.phases id
  rw [hphase] at hagrees
  obtain ⟨hid, hjob, hkeys, hmanifest⟩ := hagrees
  apply hconsistent.of_id id
  · intro other _
    rfl
  · intro other _
    rfl
  · intro key hkey
    have hne : key ≠ part.key := by
      intro heq
      rw [heq] at hkey
      exact hkey (hkeys part hmem)
    exact Function.update_of_ne hne _ _
  · intro manifest hstored
    refine ⟨(hconsistent.manifests id manifest hstored).1, ?_⟩
    intro hnone
    exact absurd hnone (hmanifest manifest hstored)
  · dsimp only
    rw [hphase]
    exact ⟨hid, hjob, hkeys, hmanifest⟩
  · intro key written hwritten
    by_cases hkey : key = part.key
    · dsimp only at hwritten
      rw [hkey, Function.update_self] at hwritten
      cases hwritten
    · dsimp only at hwritten
      rw [Function.update_of_ne hkey] at hwritten
      exact hconsistent.clock key written hwritten

/-- Every call, and every sweep that spares the uploads, keeps the store consistent. -/
theorem Consistent.step (hconsistent : w.Consistent) {action : Action} {next : Store}
    (hspared : w.Spared action) (hstep : w.step action = some next) : next.Consistent := by
  cases action with
  | create id totalSize isPartial now =>
      simp only [Store.step] at hstep
      split_ifs at hstep with hnew
      split at hstep
      · rename_i hidle
        cases hstep
        exact hconsistent.create hidle hnew.2
      · cases hstep
  | load id =>
      simp only [Store.step] at hstep
      split at hstep
      · rename_i manifest hidle hmanifest
        cases hstep
        obtain ⟨hid, hwhole⟩ := hconsistent.manifests id manifest hmanifest
        apply hconsistent.phase
        refine ⟨hid, hwhole, ?_⟩
        intro other hother
        cases hmanifest.symm.trans hother
        rfl
      · cases hstep
  | putChunk id offset body now =>
      simp only [Store.step] at hstep
      split at hstep
      · rename_i upload hphase
        split at hstep
        · rename_i appended happend
          split_ifs at hstep with hclock
          cases hstep
          exact hconsistent.putChunk hphase happend hclock
        · cases hstep
      · cases hstep
  | putManifest id now =>
      simp only [Store.step] at hstep
      split at hstep
      · rename_i upload hphase
        split_ifs at hstep with hclock
        cases hstep
        have hagrees := hconsistent.phases id
        rw [hphase] at hagrees
        obtain ⟨hid, hjob, hwhole⟩ := hagrees
        apply hconsistent.save hid (fun _ => hwhole) _ hclock
        intro w' hchunks hmanifest
        refine ⟨hid, fun _ => hwhole.of_same fun _ _ => by rw [hchunks], ?_⟩
        intro manifest hstored
        cases hmanifest.symm.trans hstored
        rfl
      · cases hstep
  | saveJob id job now =>
      simp only [Store.step] at hstep
      split at hstep
      · rename_i upload hphase
        split_ifs at hstep with hready
        cases hstep
        have hagrees := hconsistent.phases id
        rw [hphase] at hagrees
        obtain ⟨hid, hwhole, -⟩ := hagrees
        have hwhole := hwhole (Option.isNone_iff_eq_none.mp hready.1)
        have hjob : (some job : Option JobId) ≠ none := Option.some_ne_none job
        refine Consistent.save hconsistent hid ?_ ?_ hready.2.2.2
        · intro hnone
          exact absurd hnone hjob
        · intro w' hchunks hmanifest
          refine ⟨hid, hjob, ?_, ?_⟩
          · intro part hmem
            exact (Follows.key_id hwhole.wellFormed.chunks hmem).trans hid
          · intro manifest hstored
            cases hmanifest.symm.trans hstored
            exact hjob
      · cases hstep
  | deleteChunk id part =>
      simp only [Store.step] at hstep
      split at hstep
      · rename_i upload hphase
        split_ifs at hstep with hmem
        cases hstep
        exact hconsistent.deleteChunk hphase hmem
      · cases hstep
  | compact id now =>
      simp only [Store.step] at hstep
      split at hstep
      · rename_i upload hphase
        split_ifs at hstep with hclock
        cases hstep
        have hagrees := hconsistent.phases id
        rw [hphase] at hagrees
        obtain ⟨hid, hjob, hkeys, hmanifest⟩ := hagrees
        refine Consistent.save hconsistent hid ?_ ?_ hclock
        · intro hnone
          exact absurd hnone hjob
        · intro w' hchunks hmanifest
          exact True.intro
      · cases hstep
  | stop id =>
      cases hstep
      exact hconsistent.phase True.intro
  | sweep cutoff =>
      cases hstep
      exact hconsistent.sweep hspared

theorem Consistent.run (hconsistent : w.Consistent) {actions : List Action} {final : Store}
    (hspared : w.SparedRun actions) (hrun : w.run actions = some final) : final.Consistent := by
  induction actions generalizing w with
  | nil =>
      cases hrun
      exact hconsistent
  | cons action actions ih =>
      obtain ⟨next, hstep, hrest⟩ := Option.bind_eq_some_iff.mp hrun
      obtain ⟨haction, hactions⟩ := hspared
      rw [hstep] at hactions
      exact ih (hconsistent.step haction hstep) hactions hrest

end Store

/-- Where no sweep's cutoff falls between the first chunk and the manifest of an open
upload, every upload whose manifest is there can be finalized. -/
theorem upload_retention (clock : Time) (actions : List Action) (final : Store)
    (hspared : (Store.empty clock).SparedRun actions)
    (hrun : (Store.empty clock).run actions = some final) : final.Finalizable :=
  ((Store.consistent_empty clock).run hspared hrun).finalizable

/-- A sweep whose cutoff is before every chunk. -/
theorem upload_retention_early :
    ∃ final, (Store.empty 0).run [.create "u" 2 false 0, .load "u", .putChunk "u" 0 [1] 10,
        .putManifest "u" 10, .stop "u", .sweep 5] = some final ∧ final.Finalizable := by
  refine ⟨_, rfl, ?_⟩
  refine upload_retention 0 [.create "u" 2 false 0, .load "u", .putChunk "u" 0 [1] 10,
    .putManifest "u" 10, .stop "u", .sweep 5] _ ?_ rfl
  refine ⟨trivial, trivial, trivial, trivial, trivial, Store.spares_of_late ?_, trivial⟩
  intro key written hwritten
  by_cases hkey : key = ⟨"u", 0⟩
  · subst hkey
    cases hwritten
    decide
  · cases (Function.update_of_ne hkey _ _).symm.trans hwritten

/-- A sweep between two appends removes the first chunk and leaves the manifest. -/
theorem upload_retention_counterexample :
    ∃ swept, (Store.empty 0).run [.create "u" 2 false 0, .load "u", .putChunk "u" 0 [1] 10,
        .putManifest "u" 10, .stop "u", .load "u", .putChunk "u" 1 [2] 20, .putManifest "u" 20,
        .stop "u", .sweep 10] = some swept ∧
      (swept.manifests "u").map (·.time) = some 20 ∧ swept.chunks ⟨"u", 0⟩ = none ∧
      ¬ swept.Finalizable := by
  refine ⟨_, rfl, rfl, rfl, ?_⟩
  intro hfinalizable
  obtain ⟨content, hcollects⟩ := hfinalizable "u" _ rfl rfl
  cases hcollects

end SeizaServer.Retention
