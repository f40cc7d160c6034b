import SeizaServer.UploadReaders

/-!
# Acknowledged bytes

Uploads are created and appended to, each by one request at a time.  An append can
stop after it has stored its chunk; the next call starts from the manifest in the
store.
-/

namespace SeizaServer.Delivery

open Uploads

/-- `accepted` are the bodies of the appends of an upload that were carried out. -/
structure Store where
  manifests : String → Option ResumableUpload
  chunks : ChunkObjects
  accepted : String → List Bytes

def Store.empty : Store where
  manifests := fun _ => none
  chunks := fun _ => none
  accepted := fun _ => []

inductive Call where
  | create (id : String) (totalSize : ℕ) (isPartial : Bool)
  | append (id : String) (offset : ℕ) (body : Bytes)
  /-- An append that stops before it saves the manifest. -/
  | interrupt (id : String) (offset : ℕ) (body : Bytes)

def Store.putChunk (s : Store) (id : String) (offset : ℕ) (body : Bytes) : Store :=
  { s with chunks := Function.update s.chunks ⟨id, offset⟩ (some body) }

def Store.append (s : Store) (id : String) (offset : ℕ) (body : Bytes) :
    Option (Except ResumableUploadError ResumableUpload) :=
  (s.manifests id).map fun upload => upload.append offset body

/-- What a call makes of the store; a rejected one leaves it as it is. -/
def Store.step (s : Store) : Call → Store
  | .create id totalSize isPartial =>
      if (s.manifests id).isNone ∧ totalSize < 2 ^ 64 then
        { s with
          manifests := Function.update s.manifests id (some (.new id totalSize isPartial))
          accepted := Function.update s.accepted id [] }
      else s
  | .append id offset body =>
      match s.append id offset body with
      | some (.ok upload) =>
          { s.putChunk upload.id offset body with
            manifests := Function.update s.manifests id (some upload)
            accepted := Function.update s.accepted id (s.accepted id ++ [body]) }
      | _ => s
  | .interrupt id offset body =>
      match s.append id offset body with
      | some (.ok upload) => s.putChunk upload.id offset body
      | _ => s

def Store.run (s : Store) (calls : List Call) : Store :=
  calls.foldl Store.step s

/-- What a manifest says is so. -/
structure Store.Agrees (s : Store) (id : String) (upload : ResumableUpload) : Prop where
  id_eq : upload.id = id
  jobless : upload.jobId = none
  wellFormed : upload.WellFormed
  stored : List.Forall₂ (Stored s.chunks) upload.chunks (s.accepted id)
  bound : upload.totalSize < 2 ^ 64

def Store.Consistent (s : Store) : Prop :=
  ∀ id upload, s.manifests id = some upload → s.Agrees id upload

/-! ## Listed chunks -/

namespace Store

variable {s : Store}

/-- A chunk that is put is not listed yet. -/
theorem Agrees.not_listed {id : String} {upload appended : ResumableUpload} {offset : ℕ}
    {body : Bytes} (hagrees : s.Agrees id upload) (happend : upload.append offset body = .ok appended)
    {other : String} {otherUpload : ResumableUpload} (hother : s.Agrees other otherUpload)
    (hsame : other = id → otherUpload = upload) {part : StoredObjectPart}
    (hmem : part ∈ otherUpload.chunks) : part.key ≠ ⟨appended.id, offset⟩ := by
  have happends := appends_of_append (fun _ => hagrees.wellFormed) happend
  intro hkey
  have hid : appended.id = upload.id := by rw [happends.result]
  have hpartId := Uploads.Follows.key_id hother.wellFormed.chunks hmem
  rw [hkey, hid, hagrees.id_eq, hother.id_eq] at hpartId
  have hupload := hsame hpartId.symm
  subst hupload
  have hlt := hother.wellFormed.chunks.key_lt hmem
  rw [hkey] at hlt
  change offset < _ at hlt
  have hend := happends.atEnd
  omega

/-- Chunks that are not listed do not matter. -/
theorem Agrees.of_chunks {id : String} {upload : ResumableUpload} (hagrees : s.Agrees id upload)
    {s' : Store} (haccepted : s'.accepted id = s.accepted id)
    (hchunks : ∀ part ∈ upload.chunks, s'.chunks part.key = s.chunks part.key) :
    s'.Agrees id upload := by
  refine ⟨hagrees.id_eq, hagrees.jobless, hagrees.wellFormed, ?_, hagrees.bound⟩
  rw [haccepted]
  have hstored := hagrees.stored
  generalize s.accepted id = bodies at hstored
  generalize upload.chunks = parts at hstored hchunks
  induction hstored with
  | nil => exact .nil
  | cons hpart hparts ih =>
      apply List.Forall₂.cons
      · refine ⟨?_, hpart.2⟩
        rw [hchunks _ List.mem_cons_self]
        exact hpart.1
      · apply ih
        intro other hmem
        exact hchunks other (List.mem_cons_of_mem _ hmem)

theorem Consistent.putChunk (hconsistent : s.Consistent) {id : String}
    {upload appended : ResumableUpload} {offset : ℕ} {body : Bytes}
    (hupload : s.manifests id = some upload) (happend : upload.append offset body = .ok appended) :
    (s.putChunk appended.id offset body).Consistent := by
  intro other otherUpload hother
  have hagrees := hconsistent other otherUpload hother
  have haccepted : (s.putChunk appended.id offset body).accepted other = s.accepted other := rfl
  apply hagrees.of_chunks haccepted
  intro part hmem
  have hne := (hconsistent id upload hupload).not_listed happend hagrees (by
    intro hsame
    rw [hsame] at hother
    exact Option.some.inj (hother.symm.trans hupload)) hmem
  exact Function.update_of_ne hne _ _

theorem Consistent.append (hconsistent : s.Consistent) {id : String}
    {upload appended : ResumableUpload} {offset : ℕ} {body : Bytes}
    (hupload : s.manifests id = some upload) (happend : upload.append offset body = .ok appended) :
    ({ s.putChunk appended.id offset body with
      manifests := Function.update s.manifests id (some appended)
      accepted := Function.update s.accepted id (s.accepted id ++ [body]) } : Store).Consistent := by
  have hput := hconsistent.putChunk hupload happend
  have hagrees := hconsistent id upload hupload
  have happends := appends_of_append (fun _ => hagrees.wellFormed) happend
  have hresult := happends.result
  intro other otherUpload hother
  dsimp only at hother
  by_cases hsame : other = id
  · subst hsame
    rw [Function.update_self] at hother
    cases hother
    have hlisted := hput other upload hupload
    refine ⟨?_, ?_, happends.wellFormed hagrees.wellFormed, ?_, ?_⟩
    · rw [hresult]
      exact hagrees.id_eq
    · rw [hresult]
      exact hagrees.jobless
    · dsimp only
      rw [Function.update_self]
      have hid : appended.id = upload.id := by rw [hresult]
      have hnew : Stored (s.putChunk appended.id offset body).chunks
          ⟨⟨upload.id, offset⟩, body.length⟩ body := by
        refine ⟨?_, rfl⟩
        rw [hid]
        exact Function.update_self ..
      have hchunks : appended.chunks = upload.chunks ++ [⟨⟨upload.id, offset⟩, body.length⟩] := by
        rw [hresult]
      rw [hchunks]
      exact List.rel_append hlisted.stored (.cons hnew .nil)
    · rw [hresult]
      exact hagrees.bound
  · rw [Function.update_of_ne hsame] at hother
    apply (hput other otherUpload hother).of_chunks
    · exact Function.update_of_ne hsame _ _
    · intro part _
      rfl

/-- Every call keeps the store consistent. -/
theorem Consistent.step (hconsistent : s.Consistent) (call : Call) : (s.step call).Consistent := by
  cases call with
  | create id totalSize isPartial =>
      unfold Store.step
      dsimp only
      split_ifs with hnew
      · intro other upload hother
        dsimp only at hother
        by_cases hsame : other = id
        · subst hsame
          rw [Function.update_self] at hother
          cases hother
          refine ⟨rfl, rfl, ⟨.nil 0, Nat.zero_le totalSize⟩, ?_, hnew.2⟩
          dsimp only
          rw [Function.update_self]
          exact .nil
        · rw [Function.update_of_ne hsame] at hother
          apply (hconsistent other upload hother).of_chunks
          · exact Function.update_of_ne hsame _ _
          · intro part _
            rfl
      · exact hconsistent
  | append id offset body =>
      unfold Store.step
      dsimp only
      split
      · rename_i appended happend
        obtain ⟨upload, hupload, hok⟩ := Option.map_eq_some_iff.mp happend
        exact hconsistent.append hupload hok
      · exact hconsistent
  | interrupt id offset body =>
      unfold Store.step
      dsimp only
      split
      · rename_i appended happend
        obtain ⟨upload, hupload, hok⟩ := Option.map_eq_some_iff.mp happend
        exact hconsistent.putChunk hupload hok
      · exact hconsistent

theorem consistent_run (hconsistent : s.Consistent) (calls : List Call) :
    (s.run calls).Consistent := by
  induction calls generalizing s with
  | nil => exact hconsistent
  | cons call calls ih => exact ih (hconsistent.step call)

/-- A listed chunk object is never written again. -/
theorem Consistent.listed_chunk (hconsistent : s.Consistent) {id : String}
    {upload : ResumableUpload} (hupload : s.manifests id = some upload)
    {part : StoredObjectPart} (hmem : part ∈ upload.chunks) (call : Call) :
    (s.step call).chunks part.key = s.chunks part.key := by
  have hagrees := hconsistent id upload hupload
  have hput : ∀ other offset body appended, s.append other offset body = some (.ok appended) →
      (s.putChunk appended.id offset body).chunks part.key = s.chunks part.key := by
    intro other offset body appended happend
    obtain ⟨otherUpload, hother, hok⟩ := Option.map_eq_some_iff.mp happend
    have hne := (hconsistent other otherUpload hother).not_listed hok hagrees (by
      intro hsame
      rw [hsame] at hupload
      exact Option.some.inj (hupload.symm.trans hother)) hmem
    exact Function.update_of_ne hne _ _
  cases call with
  | create other totalSize isPartial =>
      unfold Store.step
      dsimp only
      split_ifs
      · rfl
      · rfl
  | append other offset body =>
      unfold Store.step
      dsimp only
      split
      · rename_i appended happend
        exact hput other offset body appended happend
      · rfl
  | interrupt other offset body =>
      unfold Store.step
      dsimp only
      split
      · rename_i appended happend
        exact hput other offset body appended happend
      · rfl

end Store

/-! ## Delivery -/

theorem sum_of_follows {id : String} {first last : ℕ} {parts : List StoredObjectPart}
    (hfollows : Uploads.Follows id first parts last) : first + (parts.map (·.size)).sum = last := by
  induction hfollows with
  | nil offset => rfl
  | cons offset size last parts hsize hparts ih =>
      rw [List.map_cons, List.sum_cons]
      dsimp only
      omega

/-- The key of a chunk is made from the sum of the sizes before it. -/
theorem key_of_follows {id : String} {first last : ℕ} {parts : List StoredObjectPart}
    (hfollows : Uploads.Follows id first parts last) {i : ℕ} {part : StoredObjectPart}
    (hpart : parts[i]? = some part) :
    part.key = ⟨id, first + ((parts.take i).map (·.size)).sum⟩ := by
  induction hfollows generalizing i with
  | nil => cases hpart
  | cons offset size last parts hsize hparts ih =>
      cases i with
      | zero =>
          cases hpart
          rfl
      | succ i =>
          rw [ih hpart, List.take_succ_cons, List.map_cons, List.sum_cons, Nat.add_assoc]

theorem stored_getElem {objects : ChunkObjects} {parts : List StoredObjectPart}
    {bodies : List Bytes} (hstored : List.Forall₂ (Stored objects) parts bodies) {i : ℕ}
    {part : StoredObjectPart} (hpart : parts[i]? = some part) :
    ∃ body, bodies[i]? = some body ∧ Stored objects part body := by
  induction hstored generalizing i with
  | nil => cases hpart
  | cons hfirst hrest ih =>
      cases i with
      | zero =>
          cases hpart
          exact ⟨_, rfl, hfirst⟩
      | succ i => exact ih hpart

/-- What holds of an upload in a store. -/
structure Delivered (s : Store) (id : String) (upload : ResumableUpload) : Prop where
  offset : upload.offset = (upload.chunks.map (·.size)).sum ∧ upload.offset ≤ upload.totalSize
  chunks : upload.chunks.length = (s.accepted id).length ∧
    ∀ (i : ℕ) (part : StoredObjectPart), upload.chunks[i]? = some part →
      part.key = ⟨id, ((upload.chunks.take i).map (·.size)).sum⟩ ∧
        ∃ body, (s.accepted id)[i]? = some body ∧ s.chunks part.key = some body ∧
          part.size = body.length
  rejected : ∀ offset body error, upload.append offset body = .error error →
    s.step (.append id offset body) = s ∧ s.step (.interrupt id offset body) = s
  untouched : ∀ call, ∀ part ∈ upload.chunks, (s.step call).chunks part.key = s.chunks part.key
  completed : upload.offset = upload.totalSize →
    (∀ offset body, upload.append offset body = .error .completed) ∧
      ReadsAs s.chunks upload (s.accepted id).flatten

theorem Store.Agrees.carries {s : Store} {id : String} {upload : ResumableUpload}
    (hagrees : s.Agrees id upload) (hcomplete : upload.offset = upload.totalSize) :
    Uploads.Carries s.chunks upload (s.accepted id) := by
  refine ⟨hagrees.stored, hcomplete, ?_, hagrees.bound⟩
  have hsum := sum_of_follows hagrees.wellFormed.chunks
  rw [← sum_sizes_of_stored hagrees.stored, ← hcomplete]
  omega

theorem Store.Consistent.delivered {s : Store} (hconsistent : s.Consistent) {id : String}
    {upload : ResumableUpload} (hupload : s.manifests id = some upload) :
    Delivered s id upload := by
  have hagrees := hconsistent id upload hupload
  constructor
  · have hsum := sum_of_follows hagrees.wellFormed.chunks
    exact ⟨by omega, hagrees.wellFormed.bound⟩
  · refine ⟨hagrees.stored.length_eq, ?_⟩
    intro i part hpart
    have hkey := key_of_follows hagrees.wellFormed.chunks hpart
    rw [Nat.zero_add, hagrees.id_eq] at hkey
    exact ⟨hkey, stored_getElem hagrees.stored hpart⟩
  · intro offset body error herror
    have happend : s.append id offset body = some (.error error) := by
      unfold Store.append
      rw [hupload, Option.map_some, herror]
    unfold Store.step
    dsimp only
    rw [happend]
    exact ⟨rfl, rfl⟩
  · intro call part hmem
    exact hconsistent.listed_chunk hupload hmem call
  · intro hcomplete
    refine ⟨?_, (hagrees.carries hcomplete).readsAs⟩
    intro offset body
    unfold ResumableUpload.append
    rw [if_pos (Or.inr hcomplete)]

/-- After any calls every upload has exactly the bodies of its accepted appends, its
readers read them in order once it is complete, and so do the readers of the
concatenation of complete uploads. -/
theorem resumable_uploads (calls : List Call) :
    (∀ id upload, (Store.empty.run calls).manifests id = some upload →
      Delivered (Store.empty.run calls) id upload) ∧
      ∀ ids uploads, List.Forall₂ (fun id upload =>
          (Store.empty.run calls).manifests id = some upload ∧
            upload.offset = upload.totalSize) ids uploads →
        ∀ id upload, ResumableUpload.concatenate id uploads = some upload →
          ReadsAs (Store.empty.run calls).chunks upload
            (ids.flatMap fun part => ((Store.empty.run calls).accepted part).flatten) := by
  have hempty : Store.empty.Consistent := by
    intro id upload hupload
    cases hupload
  have hconsistent := Store.consistent_run hempty calls
  generalize Store.empty.run calls = s at hconsistent
  constructor
  · intro id upload hupload
    exact hconsistent.delivered hupload
  · intro ids uploads hparts id upload hupload
    have hcarries : List.Forall₂ (Uploads.Carries s.chunks) uploads (ids.map s.accepted) := by
      clear hupload
      induction hparts with
      | nil => exact .nil
      | cons hpart hparts ih =>
          exact .cons ((hconsistent _ _ hpart.1).carries hpart.2) ih
    have hreads := (Carries.concatenate hcarries hupload).readsAs
    have hflatten : (ids.map s.accepted).flatten.flatten =
        ids.flatMap fun part => (s.accepted part).flatten := by
      rw [List.flatten_flatten, List.map_map]
      rfl
    rw [hflatten] at hreads
    exact hreads

/-- Two partial uploads, one of them with an interrupted append. -/
theorem resumable_uploads_concatenated :
    ∃ upload, ResumableUpload.concatenate "c"
        [⟨"a", 2, 2, none, true, [⟨⟨"a", 0⟩, 2⟩]⟩, ⟨"b", 1, 1, none, true, [⟨⟨"b", 0⟩, 1⟩]⟩] =
          some upload ∧
      ReadsAs (Store.empty.run [.create "a" 2 true, .create "b" 1 true, .interrupt "a" 0 [9],
        .append "a" 0 [1, 2], .append "b" 0 [3]]).chunks upload [1, 2, 3] := by
  refine ⟨_, rfl, ?_⟩
  exact (resumable_uploads [.create "a" 2 true, .create "b" 1 true, .interrupt "a" 0 [9],
    .append "a" 0 [1, 2], .append "b" 0 [3]]).2 ["a", "b"] _
    (.cons ⟨rfl, rfl⟩ (.cons ⟨rfl, rfl⟩ .nil)) "c" _ rfl

end SeizaServer.Delivery
