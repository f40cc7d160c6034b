import SeizaServer.ObjectKeys

/-!
# Contributed images

A submission stores an image and queues a job for it.  Once the job is done its
image can be copied to the validation set, where the retention sweep is to leave
it alone.  Here object-store calls and repository calls of all requests take
turns in any order.
-/

namespace SeizaServer.Images

variable {Options Solution : Type}

structure StoredFile where
  bytes : List UInt8
  modified : Time

/-- How far a request to contribute an image has come: it has read the job, seen
that the source exists, read the source, and stored the copy. -/
inductive Contribution (Options Solution : Type) where
  | idle
  | loaded (job : JobRecord Options Solution)
  | found (job : JobRecord Options Solution)
  | read (job : JobRecord Options Solution) (bytes : List UInt8)
  | copied (job : JobRecord Options Solution)

/-- `originals` remembers the key and the bytes of every upload. -/
structure World (Options Solution : Type) where
  files : List Text → Option StoredFile
  jobs : JobId → Option (JobRecord Options Solution)
  requests : ℕ → Contribution Options Solution
  originals : JobId → Option (Text × List UInt8)

def World.initial : World Options Solution where
  files := fun _ => none
  jobs := fun _ => none
  requests := fun _ => .idle
  originals := fun _ => none

/-- What claims, heartbeats, completions and requeues leave as it is. -/
def SameImage (before after : JobRecord Options Solution) : Prop :=
  after.id = before.id ∧ after.objectKey = before.objectKey ∧
    after.validationDonation = before.validationDonation

def inputAvailable (retention : ℤ) (now : Time) (job : JobRecord Options Solution) : Bool :=
  job.validationDonation.isSome || decide (now < job.createdAt + retention)

/-- The key the request of a job contributes the image under. -/
def donationKey (c : Prefixes) (job : JobRecord Options Solution) : Text :=
  match job.validationDonation with
  | some donation => donation.objectKey.toList
  | none => validationObjectKey c.validationPrefix job.id job.objectKey.toList

/-- The two repositories a job can be in. -/
inductive Repository where
  | sqlx
  | dynamoDb

/-- The job after `donate_validation`.  The time of a first donation stays, and
with SQLx its license version too. -/
def withDonation (repository : Repository) (job : JobRecord Options Solution)
    (donation : ValidationDonation) : JobRecord Options Solution :=
  match job.validationDonation with
  | none => { job with validationDonation := some donation }
  | some first =>
      { job with
        validationDonation := some { donation with
          licenseVersion :=
            match repository with
            | .sqlx => first.licenseVersion
            | .dynamoDb => donation.licenseVersion
          donatedAt := first.donatedAt } }

theorem withDonation_spec (repository : Repository) (job : JobRecord Options Solution)
    (donation : ValidationDonation) :
    (withDonation repository job donation).id = job.id ∧
      (withDonation repository job donation).objectKey = job.objectKey ∧
      ∃ recorded, (withDonation repository job donation).validationDonation = some recorded ∧
        recorded.objectKey = donation.objectKey := by
  unfold withDonation
  cases job.validationDonation with
  | none => exact ⟨rfl, rfl, _, rfl, rfl⟩
  | some first => exact ⟨rfl, rfl, _, rfl, rfl⟩

/-- What a request has come to once it has read a job.  A job that has a donation
is not copied again. -/
def afterLoad (job : JobRecord Options Solution) : Contribution Options Solution :=
  if job.validationDonation.isSome then .copied job else .loaded job

/-- One object-store call or repository call. -/
inductive Step (repository : Repository) (c : Prefixes) (retention : ℤ) :
    World Options Solution → World Options Solution → Prop
  /-- A submission stores its image; a repeated one stores the same image. -/
  | upload (w : World Options Solution) (id token : JobId) (filename : Text)
      (bytes : List UInt8) (now : Time) (path : List Text)
      (hfresh : w.originals id = none ∨
        w.originals id = some (newObjectKey c.s3Prefix id token filename, bytes))
      (hpath : pathFor (newObjectKey c.s3Prefix id token filename) = some path) :
      Step repository c retention w { w with
        files := Function.update w.files path (some ⟨bytes, now⟩)
        originals := Function.update w.originals id
          (some (newObjectKey c.s3Prefix id token filename, bytes)) }
  | enqueue (w : World Options Solution) (job : JobRecord Options Solution) (bytes : List UInt8)
      (huploaded : w.originals job.id = some (job.objectKey.toList, bytes))
      (habsent : w.jobs job.id = none) (hplain : job.validationDonation = none) :
      Step repository c retention w { w with
        jobs := Function.update w.jobs job.id (some (enqueuedRecord job)) }
  | advance (w : World Options Solution) (id : JobId) (before after : JobRecord Options Solution)
      (hjob : w.jobs id = some before) (hsame : SameImage before after) :
      Step repository c retention w { w with jobs := Function.update w.jobs id (some after) }
  | load (w : World Options Solution) (r : ℕ) (id : JobId) (job : JobRecord Options Solution)
      (now : Time) (hidle : w.requests r = .idle) (hjob : w.jobs id = some job)
      (hdone : job.status.terminal = true)
      (havailable : inputAvailable retention now job = true) :
      Step repository c retention w { w with
        requests := Function.update w.requests r (afterLoad job) }
  | sourceExists (w : World Options Solution) (r : ℕ) (job : JobRecord Options Solution)
      (path : List Text) (hloaded : w.requests r = .loaded job)
      (hpath : pathFor job.inputObjectKey.toList = some path)
      (hfile : (w.files path).isSome = true) :
      Step repository c retention w { w with requests := Function.update w.requests r (.found job) }
  | get (w : World Options Solution) (r : ℕ) (job : JobRecord Options Solution)
      (path : List Text) (file : StoredFile) (hfound : w.requests r = .found job)
      (hpath : pathFor job.inputObjectKey.toList = some path)
      (hfile : w.files path = some file) :
      Step repository c retention w { w with
        requests := Function.update w.requests r (.read job file.bytes) }
  | put (w : World Options Solution) (r : ℕ) (job : JobRecord Options Solution)
      (bytes : List UInt8) (now : Time) (path : List Text)
      (hread : w.requests r = .read job bytes) (hpath : pathFor (donationKey c job) = some path) :
      Step repository c retention w { w with
        files := Function.update w.files path (some ⟨bytes, now⟩)
        requests := Function.update w.requests r (.copied job) }
  | record (w : World Options Solution) (r : ℕ) (job current : JobRecord Options Solution)
      (donation : ValidationDonation) (hcopied : w.requests r = .copied job)
      (hkey : donation.objectKey.toList = donationKey c job)
      (hcurrent : w.jobs job.id = some current) (hdone : current.status.terminal = true) :
      Step repository c retention w { w with
        jobs := Function.update w.jobs job.id (some (withDonation repository current donation))
        requests := Function.update w.requests r .idle }
  /-- A request that fails or ends. -/
  | leave (w : World Options Solution) (r : ℕ) :
      Step repository c retention w { w with requests := Function.update w.requests r .idle }
  /-- A sweep, which may also fail before it has come to every file. -/
  | sweep (w : World Options Solution) (cutoff : Time) (files : List Text → Option StoredFile)
      (hfiles : ∀ path, files path = w.files path ∨
        ∃ file, w.files path = some file ∧ files path = none ∧
          sweeps [c.validationPrefix] cutoff path file.modified = true) :
      Step repository c retention w { w with files := files }

/-- What the operations make of the empty store. -/
inductive Reachable (repository : Repository) (c : Prefixes) (retention : ℤ) : World Options Solution → Prop
  | initial : Reachable repository c retention World.initial
  | step {before after : World Options Solution} (hreachable : Reachable repository c retention before)
      (hstep : Step repository c retention before after) : Reachable repository c retention after

/-- The image of an upload is stored under a key. -/
def World.Holds (w : World Options Solution) (id : JobId) (key : Text) : Prop :=
  ∃ path file original bytes, pathFor key = some path ∧ w.files path = some file ∧
    w.originals id = some (original, bytes) ∧ file.bytes = bytes

/-- Every recorded donation has its image. -/
def World.Kept (w : World Options Solution) : Prop :=
  ∀ id job donation, w.jobs id = some job → job.validationDonation = some donation →
    w.Holds id donation.objectKey.toList

/-! ## Copies under a plain prefix -/

/-- The image of the upload is where its contribution keeps it. -/
def World.HasCopy (c : Prefixes) (w : World Options Solution) (id : JobId) : Prop :=
  ∃ token filename file,
    w.originals id = some (newObjectKey c.s3Prefix id token filename, file.bytes) ∧
      w.files (c.validationPath id token filename) = some file

def World.Known (w : World Options Solution) (job : JobRecord Options Solution) : Prop :=
  ∃ bytes, w.originals job.id = some (job.objectKey.toList, bytes)

/-- What a request knows of the image it contributes. -/
def Contribution.Consistent (c : Prefixes) (w : World Options Solution) :
    Contribution Options Solution → Prop
  | .idle => True
  | .loaded job => w.Known job ∧ job.validationDonation = none
  | .found job => w.Known job ∧ job.validationDonation = none
  | .read job bytes =>
      w.originals job.id = some (job.objectKey.toList, bytes) ∧ job.validationDonation = none
  | .copied job =>
      w.Known job ∧ w.HasCopy c job.id ∧
        donationKey c job = validationObjectKey c.validationPrefix job.id job.objectKey.toList

/-- Every file is below the directory of an upload and has the bytes of that
upload, and donations and requests agree with the uploads. -/
structure World.Invariant (c : Prefixes) (w : World Options Solution) : Prop where
  uploads : ∀ id key bytes, w.originals id = some (key, bytes) →
    ∃ token filename, key = newObjectKey c.s3Prefix id token filename
  files : ∀ path file, w.files path = some file →
    ∃ front id name key, path = front ++ [jobTag id, name] ∧
      w.originals id = some (key, file.bytes)
  jobs : ∀ id job, w.jobs id = some job → job.id = id ∧ w.Known job
  donations : ∀ id job donation, w.jobs id = some job → job.validationDonation = some donation →
    donation.objectKey.toList = validationObjectKey c.validationPrefix id job.objectKey.toList ∧
      w.HasCopy c id
  requests : ∀ r, (w.requests r).Consistent c w

/-- Uploads are remembered and copies stay. -/
structure World.Extends (c : Prefixes) (before after : World Options Solution) : Prop where
  originals : ∀ id original, before.originals id = some original →
    after.originals id = some original
  copies : ∀ id, before.HasCopy c id → after.HasCopy c id

namespace World

variable {c : Prefixes} {w before after : World Options Solution}

theorem Known.extends {job : JobRecord Options Solution} (hknown : before.Known job)
    (hextends : before.Extends c after) : after.Known job := by
  obtain ⟨bytes, horiginal⟩ := hknown
  exact ⟨bytes, hextends.originals _ _ horiginal⟩

theorem Extends.consistent (hextends : before.Extends c after)
    {request : Contribution Options Solution} (hconsistent : request.Consistent c before) :
    request.Consistent c after := by
  cases request with
  | idle => exact hconsistent
  | loaded job => exact ⟨hconsistent.1.extends hextends, hconsistent.2⟩
  | found job => exact ⟨hconsistent.1.extends hextends, hconsistent.2⟩
  | read job bytes => exact ⟨hextends.originals _ _ hconsistent.1, hconsistent.2⟩
  | copied job =>
      exact ⟨hconsistent.1.extends hextends, hextends.copies _ hconsistent.2.1, hconsistent.2.2⟩

theorem Extends.requests (hextends : before.Extends c after)
    (hconsistent : ∀ r, (before.requests r).Consistent c before) (r : ℕ)
    {request : Contribution Options Solution} (hrequest : request.Consistent c after) (other : ℕ) :
    (Function.update before.requests r request other).Consistent c after := by
  by_cases hother : other = r
  · subst hother
    rw [Function.update_self]
    exact hrequest
  · rw [Function.update_of_ne hother]
    exact hextends.consistent (hconsistent other)

theorem Known.key {job : JobRecord Options Solution} (hinvariant : w.Invariant c)
    (hknown : w.Known job) :
    ∃ token filename, job.objectKey.toList = newObjectKey c.s3Prefix job.id token filename := by
  obtain ⟨bytes, horiginal⟩ := hknown
  exact hinvariant.uploads _ _ _ horiginal

/-- Bytes of an upload written below its own directory change no copy. -/
theorem extends_write {id : JobId} {key : Text} {bytes : List UInt8} {now : Time}
    {front : List Text} {name : Text}
    (horiginals : ∀ other original, before.originals other = some original →
      after.originals other = some original)
    (hfiles : after.files =
      Function.update before.files (front ++ [jobTag id, name]) (some ⟨bytes, now⟩))
    (hwritten : after.originals id = some (key, bytes)) : before.Extends c after := by
  constructor
  · exact horiginals
  · intro other hcopy
    obtain ⟨token, filename, file, horiginal, hfile⟩ := hcopy
    have hkept := horiginals _ _ horiginal
    by_cases hpath : c.validationPath other token filename = front ++ [jobTag id, name]
    · have hends := hpath
      unfold Prefixes.validationPath at hends
      have hsame : other = id := jobTag_of_paths hends
      subst hsame
      have hbytes : bytes = file.bytes := by
        rw [hkept] at hwritten
        exact (Prod.mk.inj (Option.some.inj hwritten)).2.symm
      refine ⟨token, filename, ⟨bytes, now⟩, ?_, ?_⟩
      · rw [hkept, hbytes]
      · rw [hfiles, hpath, Function.update_self]
    · refine ⟨token, filename, file, hkept, ?_⟩
      rw [hfiles, Function.update_of_ne hpath, hfile]

theorem files_write (hinvariant : before.Invariant c) {id : JobId} {key : Text}
    {bytes : List UInt8} {now : Time} {front : List Text} {name : Text}
    (hextends : before.Extends c after)
    (hfiles : after.files =
      Function.update before.files (front ++ [jobTag id, name]) (some ⟨bytes, now⟩))
    (hwritten : after.originals id = some (key, bytes)) (path : List Text) (file : StoredFile)
    (hfile : after.files path = some file) :
    ∃ front id name key, path = front ++ [jobTag id, name] ∧
      after.originals id = some (key, file.bytes) := by
  rw [hfiles] at hfile
  by_cases hpath : path = front ++ [jobTag id, name]
  · rw [hpath, Function.update_self] at hfile
    refine ⟨front, id, name, key, hpath, ?_⟩
    rw [← Option.some.inj hfile]
    exact hwritten
  · rw [Function.update_of_ne hpath] at hfile
    obtain ⟨front, id, name, key, heq, horiginal⟩ := hinvariant.files path file hfile
    exact ⟨front, id, name, key, heq, hextends.originals _ _ horiginal⟩

/-- A change that keeps uploads and copies keeps the invariant, if what it writes
satisfies it. -/
theorem Invariant.of_extends (hinvariant : before.Invariant c) (hextends : before.Extends c after)
    (huploads : ∀ id key bytes, after.originals id = some (key, bytes) →
      ∃ token filename, key = newObjectKey c.s3Prefix id token filename)
    (hfiles : ∀ path file, after.files path = some file →
      ∃ front id name key, path = front ++ [jobTag id, name] ∧
        after.originals id = some (key, file.bytes))
    (hjobs : after.jobs = before.jobs) (hrequests : ∀ r, (after.requests r).Consistent c after) :
    after.Invariant c := by
  constructor
  · exact huploads
  · exact hfiles
  · intro id job hjob
    rw [hjobs] at hjob
    have hbefore := hinvariant.jobs id job hjob
    exact ⟨hbefore.1, hbefore.2.extends hextends⟩
  · intro id job donation hjob hdonation
    rw [hjobs] at hjob
    have hbefore := hinvariant.donations id job donation hjob hdonation
    exact ⟨hbefore.1, hextends.copies _ hbefore.2⟩
  · exact hrequests

theorem Invariant.of_requests (hinvariant : before.Invariant c) (r : ℕ)
    {request : Contribution Options Solution} (hrequest : request.Consistent c before) :
    ({ before with requests := Function.update before.requests r request } :
      World Options Solution).Invariant c := by
  have hextends : before.Extends c
      { before with requests := Function.update before.requests r request } := by
    constructor
    · intro id original horiginal
      exact horiginal
    · intro id hcopy
      exact hcopy
  apply hinvariant.of_extends hextends hinvariant.uploads hinvariant.files rfl
  exact hextends.requests hinvariant.requests r (hextends.consistent hrequest)

/-- A job is added or replaced by one that agrees with its upload. -/
theorem Invariant.of_jobs (hinvariant : before.Invariant c) (id : JobId)
    (job : JobRecord Options Solution) (hid : job.id = id) (hknown : before.Known job)
    (hdonation : ∀ donation, job.validationDonation = some donation →
      donation.objectKey.toList =
        validationObjectKey c.validationPrefix id job.objectKey.toList ∧ before.HasCopy c id) :
    ({ before with jobs := Function.update before.jobs id (some job) } :
      World Options Solution).Invariant c := by
  constructor
  · exact hinvariant.uploads
  · exact hinvariant.files
  · intro other job' hjob
    by_cases hother : other = id
    · subst hother
      dsimp only at hjob
      rw [Function.update_self] at hjob
      cases hjob
      exact ⟨hid, hknown⟩
    · dsimp only at hjob
      rw [Function.update_of_ne hother] at hjob
      exact hinvariant.jobs other job' hjob
  · intro other job' donation hjob hrecorded
    by_cases hother : other = id
    · subst hother
      dsimp only at hjob
      rw [Function.update_self] at hjob
      cases hjob
      exact hdonation donation hrecorded
    · dsimp only at hjob
      rw [Function.update_of_ne hother] at hjob
      exact hinvariant.donations other job' donation hjob hrecorded
  · exact hinvariant.requests

theorem invariant_initial : (initial : World Options Solution).Invariant c := by
  constructor
  · intro id key bytes horiginal
    cases horiginal
  · intro path file hfile
    cases hfile
  · intro id job hjob
    cases hjob
  · intro id job donation hjob
    cases hjob
  · intro r
    exact True.intro

theorem Invariant.upload (hinvariant : w.Invariant c) {id token : JobId} {filename : Text}
    {bytes : List UInt8} (now : Time) {path : List Text}
    (hfresh : w.originals id = none ∨
      w.originals id = some (newObjectKey c.s3Prefix id token filename, bytes))
    (hpath : pathFor (newObjectKey c.s3Prefix id token filename) = some path) :
    ({ w with
        files := Function.update w.files path (some ⟨bytes, now⟩)
        originals := Function.update w.originals id
          (some (newObjectKey c.s3Prefix id token filename, bytes)) } :
      World Options Solution).Invariant c := by
  obtain ⟨front, hends⟩ := pathFor_newObjectKey hpath
  subst hends
  have horiginals : ∀ other original, w.originals other = some original →
      Function.update w.originals id
        (some (newObjectKey c.s3Prefix id token filename, bytes)) other = some original := by
    intro other original horiginal
    by_cases hother : other = id
    · subst hother
      rw [Function.update_self]
      cases hfresh with
      | inl hnone => exact absurd (hnone.symm.trans horiginal) (by exact nofun)
      | inr hsame => rw [← hsame, horiginal]
    · rw [Function.update_of_ne hother, horiginal]
  have hwritten : Function.update w.originals id
      (some (newObjectKey c.s3Prefix id token filename, bytes)) id =
        some (newObjectKey c.s3Prefix id token filename, bytes) := Function.update_self ..
  have hextends : w.Extends c { w with
      files := Function.update w.files (front ++ [jobTag id, storedName token filename])
        (some ⟨bytes, now⟩)
      originals := Function.update w.originals id
        (some (newObjectKey c.s3Prefix id token filename, bytes)) } :=
    extends_write horiginals rfl hwritten
  apply hinvariant.of_extends hextends
  · intro other key content hother
    dsimp only at hother
    by_cases hid : other = id
    · subst hid
      rw [Function.update_self] at hother
      exact ⟨token, filename, (Prod.mk.inj (Option.some.inj hother)).1.symm⟩
    · rw [Function.update_of_ne hid] at hother
      exact hinvariant.uploads _ _ _ hother
  · exact files_write hinvariant hextends rfl hwritten
  · rfl
  · intro r
    exact hextends.consistent (hinvariant.requests r)

/-- The source a request reads has the bytes of the upload. -/
theorem Invariant.source (hinvariant : w.Invariant c) {job : JobRecord Options Solution}
    (hknown : w.Known job) (hplain : job.validationDonation = none) {path : List Text}
    {file : StoredFile} (hpath : pathFor job.inputObjectKey.toList = some path)
    (hfile : w.files path = some file) :
    w.originals job.id = some (job.objectKey.toList, file.bytes) := by
  obtain ⟨token, filename, hkey⟩ := hknown.key hinvariant
  obtain ⟨bytes, horiginal⟩ := hknown
  have hinput : job.inputObjectKey = job.objectKey := by
    unfold JobRecord.inputObjectKey
    rw [hplain]
  rw [hinput, hkey] at hpath
  obtain ⟨front, hends⟩ := pathFor_newObjectKey hpath
  obtain ⟨front', id, name, key, hends', hstored⟩ := hinvariant.files path file hfile
  have hid : job.id = id := jobTag_of_paths (hends.symm.trans hends')
  rw [← hid, horiginal] at hstored
  rw [horiginal, (Prod.mk.inj (Option.some.inj hstored)).2]

theorem Invariant.put (hinvariant : w.Invariant c) (r : ℕ) {job : JobRecord Options Solution}
    {bytes : List UInt8} (now : Time) {path : List Text}
    (hread : w.requests r = .read job bytes) (hpath : pathFor (donationKey c job) = some path) :
    ({ w with
        files := Function.update w.files path (some ⟨bytes, now⟩)
        requests := Function.update w.requests r (.copied job) } :
      World Options Solution).Invariant c := by
  have hconsistent := hinvariant.requests r
  rw [hread] at hconsistent
  obtain ⟨horiginal, hplain⟩ := hconsistent
  obtain ⟨token, filename, hkey⟩ := hinvariant.uploads _ _ _ horiginal
  have hdonation : donationKey c job =
      validationObjectKey c.validationPrefix job.id job.objectKey.toList := by
    unfold donationKey
    rw [hplain]
  have hvalidation : path = c.validationPath job.id token filename := by
    rw [hdonation, hkey, c.pathFor_validationObjectKey] at hpath
    exact (Option.some.inj hpath).symm
  subst hvalidation
  have hextends : w.Extends c { w with
      files := Function.update w.files (c.validationPath job.id token filename) (some ⟨bytes, now⟩)
      requests := Function.update w.requests r (.copied job) } :=
    extends_write (fun _ _ hother => hother) rfl horiginal
  have hcopied : (Contribution.copied job).Consistent c { w with
      files := Function.update w.files (c.validationPath job.id token filename) (some ⟨bytes, now⟩)
      requests := Function.update w.requests r (.copied job) } := by
    refine ⟨⟨bytes, horiginal⟩, ⟨token, filename, ⟨bytes, now⟩, ?_, ?_⟩, hdonation⟩
    · rw [← hkey]
      exact horiginal
    · exact Function.update_self ..
  apply hinvariant.of_extends hextends hinvariant.uploads
  · exact files_write hinvariant hextends rfl horiginal
  · rfl
  · exact hextends.requests hinvariant.requests r hcopied

theorem Invariant.load (hinvariant : w.Invariant c) (r : ℕ) {id : JobId}
    {job : JobRecord Options Solution} (hjob : w.jobs id = some job) :
    ({ w with requests := Function.update w.requests r (afterLoad job) } :
      World Options Solution).Invariant c := by
  apply hinvariant.of_requests r
  obtain ⟨hid, hknown⟩ := hinvariant.jobs id job hjob
  unfold afterLoad
  cases hdonation : job.validationDonation with
  | none => exact ⟨hknown, hdonation⟩
  | some donation =>
      obtain ⟨hkey, hcopy⟩ := hinvariant.donations id job donation hjob hdonation
      rw [← hid] at hkey hcopy
      refine ⟨hknown, hcopy, ?_⟩
      unfold donationKey
      rw [hdonation]
      exact hkey

theorem Invariant.record (repository : Repository) (hinvariant : w.Invariant c) (r : ℕ)
    {job current : JobRecord Options Solution} {donation : ValidationDonation}
    (hcopied : w.requests r = .copied job) (hkey : donation.objectKey.toList = donationKey c job)
    (hcurrent : w.jobs job.id = some current) :
    ({ w with
        jobs := Function.update w.jobs job.id (some (withDonation repository current donation))
        requests := Function.update w.requests r .idle } :
      World Options Solution).Invariant c := by
  have hconsistent := hinvariant.requests r
  rw [hcopied] at hconsistent
  obtain ⟨⟨bytes, horiginal⟩, hcopy, hdonationKey⟩ := hconsistent
  obtain ⟨hid, ⟨content, hknown⟩⟩ := hinvariant.jobs job.id current hcurrent
  obtain ⟨hsameId, hsameKey, recorded, hrecorded, hrecordedKey⟩ :=
    withDonation_spec repository current donation
  have hobject : job.objectKey.toList = current.objectKey.toList := by
    rw [hid, horiginal] at hknown
    exact (Prod.mk.inj (Option.some.inj hknown)).1
  have hidle : (Contribution.idle : Contribution Options Solution).Consistent c w := True.intro
  have hinvariant' := hinvariant.of_requests r hidle
  apply hinvariant'.of_jobs
  · exact hsameId.trans hid
  · refine ⟨content, ?_⟩
    rw [hsameId, hsameKey]
    exact hknown
  · intro found hfound
    cases hrecorded.symm.trans hfound
    refine ⟨?_, hcopy⟩
    rw [hrecordedKey, hkey, hdonationKey, hobject, hsameKey]

theorem Invariant.sweep (hplain : backslash ∉ c.validationPrefix) (hinvariant : w.Invariant c)
    {cutoff : Time} {files : List Text → Option StoredFile}
    (hfiles : ∀ path, files path = w.files path ∨
      ∃ file, w.files path = some file ∧ files path = none ∧
        sweeps [c.validationPrefix] cutoff path file.modified = true) :
    ({ w with files := files } : World Options Solution).Invariant c := by
  have hextends : w.Extends c { w with files := files } := by
    constructor
    · intro id original horiginal
      exact horiginal
    · intro id hcopy
      obtain ⟨token, filename, file, horiginal, hfile⟩ := hcopy
      refine ⟨token, filename, file, horiginal, ?_⟩
      cases hfiles (c.validationPath id token filename) with
      | inl hkept => exact hkept.trans hfile
      | inr hremoved =>
          obtain ⟨file', -, -, hsweeps⟩ := hremoved
          rw [c.not_sweeps hplain] at hsweeps
          cases hsweeps
  apply hinvariant.of_extends hextends hinvariant.uploads
  · intro path file hfile
    cases hfiles path with
    | inl hkept => exact hinvariant.files path file (hkept.symm.trans hfile)
    | inr hremoved =>
        obtain ⟨file', -, hnone, -⟩ := hremoved
        cases hnone.symm.trans hfile
  · rfl
  · intro r
    exact hextends.consistent (hinvariant.requests r)

/-- Every call keeps the invariant when the prefix has no backslash. -/
theorem Invariant.step {repository : Repository} {retention : ℤ}
    (hplain : backslash ∉ c.validationPrefix) (hinvariant : before.Invariant c)
    (hstep : Step repository c retention before after) : after.Invariant c := by
  cases hstep with
  | upload id token filename bytes now path hfresh hpath =>
      exact hinvariant.upload now hfresh hpath
  | enqueue job bytes huploaded habsent hnone =>
      apply hinvariant.of_jobs
      · rfl
      · exact ⟨bytes, huploaded⟩
      · intro donation hdonation
        cases hnone.symm.trans hdonation
  | advance id job job' hjob hsame =>
      obtain ⟨hid, hobject, hdonation⟩ := hsame
      obtain ⟨hjobId, ⟨bytes, hknown⟩⟩ := hinvariant.jobs id job hjob
      apply hinvariant.of_jobs
      · exact hid.trans hjobId
      · refine ⟨bytes, ?_⟩
        rw [hid, hobject]
        exact hknown
      · intro donation hrecorded
        rw [hobject]
        exact hinvariant.donations id job donation hjob (hdonation.symm.trans hrecorded)
  | load r id job now hidle hjob hdone havailable => exact hinvariant.load r hjob
  | sourceExists r job path hloaded hpath hfile =>
      apply hinvariant.of_requests r
      have hconsistent := hinvariant.requests r
      rw [hloaded] at hconsistent
      exact hconsistent
  | get r job path file hfound hpath hfile =>
      apply hinvariant.of_requests r
      have hconsistent := hinvariant.requests r
      rw [hfound] at hconsistent
      exact ⟨hinvariant.source hconsistent.1 hconsistent.2 hpath hfile, hconsistent.2⟩
  | put r job bytes now path hread hpath => exact hinvariant.put r now hread hpath
  | record r job current donation hcopied hkey hcurrent hdone =>
      exact hinvariant.record repository r hcopied hkey hcurrent
  | leave r => exact hinvariant.of_requests r True.intro
  | sweep cutoff files hfiles => exact hinvariant.sweep hplain hfiles

theorem Invariant.kept (hinvariant : w.Invariant c) : w.Kept := by
  intro id job donation hjob hdonation
  obtain ⟨hkey, token, filename, file, horiginal, hfile⟩ :=
    hinvariant.donations id job donation hjob hdonation
  obtain ⟨hid, bytes, hknown⟩ := hinvariant.jobs id job hjob
  have hobject : job.objectKey.toList = newObjectKey c.s3Prefix id token filename := by
    rw [hid, horiginal] at hknown
    exact (Prod.mk.inj (Option.some.inj hknown)).1.symm
  refine ⟨_, file, _, file.bytes, ?_, hfile, horiginal, rfl⟩
  rw [hkey, hobject, c.pathFor_validationObjectKey]

end World

theorem Reachable.invariant {repository : Repository} {c : Prefixes} {retention : ℤ}
    {w : World Options Solution} (hplain : backslash ∉ c.validationPrefix)
    (hreachable : Reachable repository c retention w) : w.Invariant c := by
  induction hreachable with
  | initial => exact World.invariant_initial
  | step _ hstep ih => exact ih.step hplain hstep

/-! ## An upload prefix with a parent directory -/

/-- No upload is stored, so there is no job. -/
theorem Reachable.noJobs {repository : Repository} {c : Prefixes} {retention : ℤ}
    {w : World Options Solution}
    (hparent : ['.', '.'] ∈ (trimSlashes c.s3Prefix).splitOn slash)
    (hreachable : Reachable repository c retention w) :
    (∀ id, w.originals id = none) ∧ ∀ id, w.jobs id = none := by
  induction hreachable with
  | initial => exact ⟨fun _ => rfl, fun _ => rfl⟩
  | step _ hstep ih =>
      cases hstep with
      | upload id token filename bytes now path hfresh hpath =>
          rw [(pathFor_newObjectKey_eq_none_iff _ id token filename).mpr hparent] at hpath
          cases hpath
      | enqueue job bytes huploaded habsent hnone =>
          rw [ih.1] at huploaded
          cases huploaded
      | advance id job job' hjob hsame =>
          rw [ih.2] at hjob
          cases hjob
      | load r id job now hidle hjob hdone havailable => exact ih
      | sourceExists r job path hloaded hpath hfile => exact ih
      | get r job path file hfound hpath hfile => exact ih
      | put r job bytes now path hread hpath => exact ih
      | record r job current donation hcopied hkey hcurrent hdone =>
          rw [ih.2] at hcurrent
          cases hcurrent
      | leave r => exact ih
      | sweep cutoff files hfiles => exact ih

/-! ## A validation prefix with a backslash -/

/-- A whole sweep. -/
def World.swept (c : Prefixes) (cutoff : Time) (w : World Options Solution) :
    World Options Solution :=
  { w with
    files := fun path => (w.files path).filter fun file =>
      !sweeps [c.validationPrefix] cutoff path file.modified }

theorem Reachable.swept {repository : Repository} {c : Prefixes} {retention : ℤ}
    {w : World Options Solution} (hreachable : Reachable repository c retention w)
    (cutoff : Time) : Reachable repository c retention (w.swept c cutoff) := by
  apply hreachable.step
  apply Step.sweep
  intro path
  cases hfile : w.files path with
  | none =>
      left
      rw [Option.filter_none]
  | some file =>
      cases hsweeps : sweeps [c.validationPrefix] cutoff path file.modified with
      | false =>
          left
          rw [Option.filter_some, hsweeps]
          rfl
      | true =>
          right
          refine ⟨file, rfl, ?_, hsweeps⟩
          rw [Option.filter_some, hsweeps]
          rfl

/-- The sweep deletes a contributed image that is as old as the cutoff. -/
theorem World.not_kept_swept {c : Prefixes} (hback : backslash ∈ c.validationPrefix)
    {w : World Options Solution} {id : JobId} {job : JobRecord Options Solution}
    {donation : ValidationDonation} {path : List Text} {file : StoredFile}
    (hjob : w.jobs id = some job) (hdonation : job.validationDonation = some donation)
    (hpath : pathFor donation.objectKey.toList = some path) (hfile : w.files path = some file) :
    ¬ (w.swept c file.modified).Kept := by
  intro hkept
  obtain ⟨path', kept, original, bytes, hpath', hstored, -⟩ := hkept id job donation hjob hdonation
  cases hpath.symm.trans hpath'
  have hgone : (w.swept c file.modified).files path = none := by
    change (w.files path).filter _ = none
    rw [hfile, Option.filter_some, c.sweeps_of_backslash hback path le_rfl]
    rfl
  cases hgone.symm.trans hstored

/-- The job of a first upload. -/
def firstJob (c : Prefixes) [Inhabited Options] : JobRecord Options Solution where
  id := 0
  astrometryId := 0
  owner := ""
  queueWeight := 1
  objectKey := String.ofList (newObjectKey c.s3Prefix 0 0 [])
  originalFilename := ""
  contentType := none
  options := default
  status := .queued
  createdAt := 0
  startedAt := none
  completedAt := none
  solution := none
  error := none
  validationDonation := none

/-- An idle request contributes the image of a completed job that is still stored. -/
theorem Reachable.contribute {repository : Repository} {c : Prefixes} {retention now : ℤ}
    {w : World Options Solution} (hreachable : Reachable repository c retention w)
    {job : JobRecord Options Solution} {source copy : List Text} {file : StoredFile} {r : ℕ}
    (hidle : w.requests r = .idle) (hjob : w.jobs job.id = some job)
    (hdone : job.status.terminal = true) (hplain : job.validationDonation = none)
    (havailable : inputAvailable retention now job = true)
    (hsource : pathFor job.inputObjectKey.toList = some source)
    (hfile : w.files source = some file) (hcopy : pathFor (donationKey c job) = some copy) :
    ∃ (w' : World Options Solution) (donation : ValidationDonation),
      Reachable repository c retention w' ∧
        w'.jobs job.id = some (withDonation repository job donation) ∧
        donation.objectKey.toList = donationKey c job ∧
        w'.files copy = some ⟨file.bytes, now⟩ := by
  have hload : afterLoad job = .loaded job := by
    unfold afterLoad
    rw [hplain]
    rfl
  let donation : ValidationDonation := ⟨String.ofList (donationKey c job), none, false, "", now⟩
  have hkey : donation.objectKey.toList = donationKey c job := String.toList_ofList
  have hloaded := hreachable.step (Step.load w r job.id job now hidle hjob hdone havailable)
  rw [hload] at hloaded
  have hfound := hloaded.step (Step.sourceExists _ r job source
    (by dsimp only; rw [Function.update_self]) hsource (by dsimp only; rw [hfile]; rfl))
  have hread := hfound.step (Step.get _ r job source file
    (by dsimp only; rw [Function.update_self]) hsource hfile)
  have hcopied := hread.step (Step.put _ r job file.bytes now copy
    (by dsimp only; rw [Function.update_self]) hcopy)
  have hrecorded := hcopied.step (Step.record _ r job job donation
    (by dsimp only; rw [Function.update_self]) hkey hjob hdone)
  refine ⟨_, donation, hrecorded, ?_, hkey, ?_⟩
  · dsimp only
    rw [Function.update_self]
  · dsimp only
    rw [Function.update_self]

/-- Wherever uploads can be stored an image can be contributed. -/
theorem exists_contributed [Inhabited Options] (repository : Repository) (c : Prefixes)
    (retention : ℤ) (hstorable : ['.', '.'] ∉ (trimSlashes c.s3Prefix).splitOn slash) :
    ∃ (w : World Options Solution) (id : JobId) (job : JobRecord Options Solution)
      (donation : ValidationDonation) (path : List Text) (file : StoredFile),
      Reachable repository c retention w ∧ w.jobs id = some job ∧
        job.validationDonation = some donation ∧ pathFor donation.objectKey.toList = some path ∧
        w.files path = some file := by
  have hstored : pathFor (newObjectKey c.s3Prefix 0 0 []) ≠ none :=
    fun hnone => hstorable ((pathFor_newObjectKey_eq_none_iff _ 0 0 []).mp hnone)
  obtain ⟨source, hsource⟩ := Option.ne_none_iff_exists'.mp hstored
  let first : JobRecord Options Solution := firstJob c
  let job : JobRecord Options Solution := { enqueuedRecord first with status := .failed }
  have hobject : first.objectKey.toList = newObjectKey c.s3Prefix 0 0 [] := String.toList_ofList
  have hcopy : pathFor (donationKey c job) = some (c.validationPath 0 0 []) := by
    change pathFor (validationObjectKey c.validationPrefix 0 first.objectKey.toList) = _
    rw [hobject, c.pathFor_validationObjectKey]
  have hnow : inputAvailable retention (retention - 1) job = true := by
    have hbefore : retention - 1 < 0 + retention := by omega
    exact decide_eq_true hbefore
  have hstart : Reachable repository c retention (World.initial : World Options Solution) :=
    Reachable.initial
  have huploaded := hstart.step (Step.upload _ first.id 0 [] [] 0 source (Or.inl rfl) hsource)
  have hqueued := huploaded.step (Step.enqueue _ first []
    (by dsimp only; rw [Function.update_self, hobject]; rfl) rfl rfl)
  have hdone := hqueued.step (Step.advance _ first.id (enqueuedRecord first) job
    (by dsimp only; rw [Function.update_self]) ⟨rfl, rfl, rfl⟩)
  have hid : job.id = first.id := rfl
  have hinput : pathFor job.inputObjectKey.toList = some source := by
    change pathFor first.objectKey.toList = some source
    rw [hobject, hsource]
  obtain ⟨w, donation, hreachable, hjob, hkey, hfile⟩ :=
    hdone.contribute (r := 0) rfl (by dsimp only; rw [hid, Function.update_self]) rfl rfl hnow hinput
      (by dsimp only; rw [Function.update_self]) hcopy
  refine ⟨w, job.id, _, donation, _, _, hreachable, hjob, rfl, ?_, hfile⟩
  rw [hkey, hcopy]

/-! ## Which prefixes keep contributed images -/

/-- Contributed images are kept unless the validation prefix has a backslash and
uploads can be stored at all. -/
theorem contributed_images [Inhabited Options] (repository : Repository) (c : Prefixes)
    (retention : ℤ) :
    (∀ w : World Options Solution, Reachable repository c retention w → w.Kept) ↔
      backslash ∉ c.validationPrefix ∨ ['.', '.'] ∈ (trimSlashes c.s3Prefix).splitOn slash := by
  constructor
  · intro hkept
    by_contra hneither
    rw [not_or, not_not] at hneither
    obtain ⟨w, id, job, donation, path, file, hreachable, hjob, hdonation, hpath, hfile⟩ :=
      @exists_contributed Options Solution _ repository c retention hneither.2
    exact World.not_kept_swept hneither.1 hjob hdonation hpath hfile
      (hkept _ (hreachable.swept file.modified))
  · intro hprefixes
    cases hprefixes with
    | inl hplain =>
        intro w hreachable
        exact (hreachable.invariant hplain).kept
    | inr hparent =>
        intro w hreachable id job donation hjob
        rw [(hreachable.noJobs hparent).2 id] at hjob
        cases hjob

/-- The images under `valid\ation` are lost. -/
theorem contributed_images_counterexample :
    ∃ c, Prefixes.fromEnv "uploads".toList ('/' :: "valid".toList ++ backslash :: "ation".toList) =
        some c ∧
      ¬ ∀ w : World Unit Unit, Reachable .sqlx c 86400000000000 w → w.Kept := by
  have hvalid : prefixesValid "uploads".toList ("valid".toList ++ backslash :: "ation".toList) =
      true := by decide
  refine ⟨⟨_, _, hvalid⟩, by rfl, ?_⟩
  have hstorable : ['.', '.'] ∉ (trimSlashes "uploads".toList).splitOn slash := by decide
  have hback : backslash ∈ "valid".toList ++ backslash :: "ation".toList := by decide
  intro hkept
  obtain ⟨w, id, job, donation, path, file, hreachable, hjob, hdonation, hpath, hfile⟩ :=
    @exists_contributed Unit Unit _ .sqlx ⟨_, _, hvalid⟩ 86400000000000 hstorable
  exact World.not_kept_swept hback hjob hdonation hpath hfile
    (hkept _ (hreachable.swept file.modified))

end SeizaServer.Images
