import SeizaServer.DynamoImport

/-!
# Migrating into a DynamoDB table

A scan of a half-written table is read as the part of the source that has
arrived, so an import may stop between any two writes, any number of times, and
be resumed.  A complete import gives the source back.
-/

namespace SeizaServer.Migration

open KeyedLists

variable {Weight : Type} {f : Formats Weight} {s : StoreSnapshot Weight}
  {arrived : Set (StoredJob Weight)} {served : Set StoredClient} {table : DynamoTable}

/-! ## Reading a half-written table -/

/-- The entries of the jobs and clients that have arrived. -/
inductive Arrived (s : StoreSnapshot Weight) (arrived : Set (StoredJob Weight))
    (served : Set StoredClient) : Entry Weight → Prop
  | ofJob {job : StoredJob Weight} {entry : Entry Weight} (hjob : job ∈ s.jobs)
      (harrived : job ∈ arrived) (hentry : entry ∈ jobEntries s job) : Arrived s arrived served entry
  | ofClient {client : StoredClient} (hclient : client ∈ s.clients) (hserved : client ∈ served) :
      Arrived s arrived served (.client client)
  | ofCounter : Arrived s arrived served .counter

theorem mem_jobEntries {job : StoredJob Weight} {entry : Entry Weight} :
    entry ∈ jobEntries s job ↔
      entry = .job job (s.donationOf job.id) ∨ entry = .objectIndex job.objectKey (.uuid job.id) ∨
        entry = .astrometryIndex job.astrometryId (.uuid job.id) ∨
          ∃ legacyId, job.legacyId = some legacyId ∧ entry = .legacyIndex legacyId (.uuid job.id) := by
  unfold jobEntries legacyEntry
  cases job.legacyId <;> simp

theorem arrived_job {job : StoredJob Weight} {donation : Option StoredDonation} :
    Arrived s arrived served (.job job donation) ↔
      job ∈ s.jobs ∧ job ∈ arrived ∧ donation = s.donationOf job.id := by
  constructor
  · intro h
    cases h with
    | ofJob hjob harrived hentry =>
        simp only [mem_jobEntries, Entry.job.injEq, reduceCtorEq, and_false, exists_false,
          or_false] at hentry
        obtain ⟨rfl, rfl⟩ := hentry
        exact ⟨hjob, harrived, rfl⟩
  · rintro ⟨hjob, harrived, rfl⟩
    exact .ofJob hjob harrived (mem_jobEntries.mpr (.inl rfl))

theorem arrived_client {client : StoredClient} :
    Arrived s arrived served (.client client) ↔ client ∈ s.clients ∧ client ∈ served := by
  constructor
  · intro h
    cases h with
    | ofJob _ _ hentry => simp [mem_jobEntries] at hentry
    | ofClient hclient hserved => exact ⟨hclient, hserved⟩
  · rintro ⟨hclient, hserved⟩
    exact .ofClient hclient hserved

theorem arrived_objectIndex {objectKey : String} {reference : JobReference}
    (h : Arrived s arrived served (.objectIndex objectKey reference)) :
    ∃ job ∈ s.jobs, job ∈ arrived ∧ objectKey = job.objectKey ∧ reference = .uuid job.id := by
  cases h with
  | ofJob hjob harrived hentry =>
      simp only [mem_jobEntries, Entry.objectIndex.injEq, reduceCtorEq, and_false, exists_false,
        or_false, false_or] at hentry
      exact ⟨_, hjob, harrived, hentry⟩

theorem arrived_astrometryIndex {id : ℕ} {reference : JobReference}
    (h : Arrived s arrived served (.astrometryIndex id reference)) :
    ∃ job ∈ s.jobs, job ∈ arrived ∧ some job.astrometryId = some id ∧ reference = .uuid job.id := by
  cases h with
  | ofJob hjob harrived hentry =>
      simp only [mem_jobEntries, Entry.astrometryIndex.injEq, reduceCtorEq, and_false,
        exists_false, or_false, false_or] at hentry
      exact ⟨_, hjob, harrived, by rw [hentry.1], hentry.2⟩

theorem arrived_legacyIndex {id : ℕ} {reference : JobReference}
    (h : Arrived s arrived served (.legacyIndex id reference)) :
    ∃ job ∈ s.jobs, job ∈ arrived ∧ job.legacyId = some id ∧ reference = .uuid job.id := by
  cases h with
  | ofJob hjob harrived hentry =>
      simp only [mem_jobEntries, Entry.legacyIndex.injEq, reduceCtorEq, false_or] at hentry
      obtain ⟨legacyId, hlegacy, rfl, hreference⟩ := hentry
      exact ⟨_, hjob, harrived, hlegacy, hreference⟩

/-- The entries of a scan: those that have arrived, each in its own place. -/
structure Scanned (f : Formats Weight) (s : StoreSnapshot Weight) (arrived : Set (StoredJob Weight))
    (served : Set StoredClient) (items : List Item) (entries : List (Entry Weight)) : Prop where
  read : items.mapM (readItem f) = .ok entries
  sound : ∀ entry ∈ entries, Arrived s arrived served entry
  jobs : ∀ job ∈ s.jobs, job ∈ arrived → ∀ entry ∈ jobEntries s job, entry ∈ entries
  clients : ∀ client ∈ s.clients, client ∈ served → .client client ∈ entries
  places : (entries.map Entry.place).Nodup

theorem Holds.scanned (hf : f.Lossless) (hvalid : s.Valid f)
    (hholds : Holds f s arrived served table) {items : List Item}
    (hscan : items.Perm table.rows) : ∃ entries, Scanned f s arrived served items entries := by
  have hread : ∀ item ∈ items, ∃ entry, Reads f item entry ∧ Arrived s arrived served entry := by
    intro item hitem
    rcases hholds.sound item (hscan.mem_iff.mp hitem) with
      ⟨job, hjob, harrived, hmem⟩ | ⟨client, hclient, hserved, rfl⟩ | hcounter
    · obtain ⟨entry, hentry, hreads⟩ :=
        exists_of_mem_left (reads_jobItems (s := s) hf (hvalid.wellFormed job hjob)) hmem
      exact ⟨entry, hreads, .ofJob hjob harrived hentry⟩
    · exact ⟨.client client, reads_clientItem client, .ofClient hclient hserved⟩
    · exact ⟨.counter, hcounter, .ofCounter⟩
  obtain ⟨entries, hentries⟩ := exists_forall₂ hread
  have hmem : ∀ item ∈ table.rows, ∀ entry, readItem f item = .ok entry → entry ∈ entries := by
    intro item hitem entry hok
    obtain ⟨other, hother, hreads, _⟩ := exists_of_mem_left hentries (hscan.mem_iff.mpr hitem)
    rw [hreads.1] at hok
    cases hok
    exact hother
  refine ⟨entries, mapM_eq_ok_of_forall₂ (hentries.imp fun _ _ h => h.1.1), ?_, ?_, ?_, ?_⟩
  · intro entry hentry
    obtain ⟨_, _, _, harrived⟩ := exists_of_mem_right hentries hentry
    exact harrived
  · intro job hjob harrived entry hentry
    obtain ⟨item, hitem, hreads⟩ :=
      exists_of_mem_right (reads_jobItems hf (hvalid.wellFormed job hjob)) hentry
    exact hmem item (hholds.jobs job hjob harrived item hitem) entry hreads.1
  · intro client hclient hserved
    exact hmem _ (hholds.clients client hclient hserved) _ (readItem_clientItem client)
  · have hkeys : items.map Item.pk = (entries.map Entry.place).map Place.key := by
      rw [List.map_map]
      exact map_eq_of_forall₂ (fun _ _ h => h.1.2) hentries
    have hnodup : (items.map Item.pk).Nodup := (hscan.map Item.pk).nodup_iff.mpr table.unique
    rw [hkeys] at hnodup
    exact hnodup.of_map _

section Entries

variable {items : List Item} {entries : List (Entry Weight)}

theorem Scanned.mem_jobs (h : Scanned f s arrived served items entries) {job : StoredJob Weight} :
    job ∈ entries.filterMap Entry.job? ↔ job ∈ s.jobs ∧ job ∈ arrived := by
  rw [List.mem_filterMap]
  constructor
  · rintro ⟨entry, hentry, hjob⟩
    have harrived := h.sound entry hentry
    cases entry <;> simp only [Entry.job?, reduceCtorEq] at hjob
    case job other donation =>
      cases hjob
      exact ⟨(arrived_job.mp harrived).1, (arrived_job.mp harrived).2.1⟩
  · rintro ⟨hjob, harrived⟩
    exact ⟨_, h.jobs job hjob harrived _ (mem_jobEntries.mpr (.inl rfl)), rfl⟩

theorem Scanned.mem_donations (h : Scanned f s arrived served items entries)
    {donation : StoredDonation} :
    donation ∈ entries.filterMap Entry.donation? ↔
      ∃ job ∈ s.jobs, job ∈ arrived ∧ s.donationOf job.id = some donation := by
  rw [List.mem_filterMap]
  constructor
  · rintro ⟨entry, hentry, hdonation⟩
    have harrived := h.sound entry hentry
    cases entry <;> simp only [Entry.donation?, reduceCtorEq] at hdonation
    case job job other =>
      obtain ⟨hjob, hmem, rfl⟩ := arrived_job.mp harrived
      exact ⟨job, hjob, hmem, hdonation⟩
  · rintro ⟨job, hjob, harrived, hdonation⟩
    exact ⟨_, h.jobs job hjob harrived _ (mem_jobEntries.mpr (.inl rfl)), hdonation⟩

theorem Scanned.mem_clients (h : Scanned f s arrived served items entries) {client : StoredClient} :
    client ∈ entries.filterMap Entry.client? ↔ client ∈ s.clients ∧ client ∈ served := by
  rw [List.mem_filterMap]
  constructor
  · rintro ⟨entry, hentry, hclient⟩
    have harrived := h.sound entry hentry
    cases entry <;> simp only [Entry.client?, reduceCtorEq] at hclient
    case client other =>
      cases hclient
      exact arrived_client.mp harrived
  · rintro ⟨hclient, hserved⟩
    exact ⟨_, h.clients client hclient hserved, rfl⟩

/-- What is taken from entries in different places is different. -/
theorem nodup_filterMap_entries {β : Type} {take : Entry Weight → Option β}
    (hplace : ∀ first second value, Arrived s arrived served first →
      Arrived s arrived served second → take first = some value → take second = some value →
      first.place = second.place) (h : Scanned f s arrived served items entries) :
    (entries.filterMap take).Nodup := by
  unfold List.Nodup
  rw [List.pairwise_filterMap]
  have hplaces := List.pairwise_map.mp h.places
  refine hplaces.imp_of_mem ?_
  rintro first second hfirst hsecond hne value hvalue _ hother rfl
  exact hne (hplace first second value (h.sound first hfirst) (h.sound second hsecond) hvalue hother)

theorem Scanned.nodup_jobs (h : Scanned f s arrived served items entries) :
    (entries.filterMap Entry.job?).Nodup := by
  refine nodup_filterMap_entries ?_ h
  intro first second job _ _ hfirst hsecond
  cases first <;> cases second <;> simp_all [Entry.job?, Entry.place]

theorem Scanned.nodup_donations (h : Scanned f s arrived served items entries) :
    (entries.filterMap Entry.donation?).Nodup := by
  refine nodup_filterMap_entries ?_ h
  intro first second donation hfirst hsecond hdonation hother
  cases first <;> simp only [Entry.donation?, reduceCtorEq] at hdonation
  cases second <;> simp only [Entry.donation?, reduceCtorEq] at hother
  rw [(arrived_job.mp hfirst).2.2] at hdonation
  rw [(arrived_job.mp hsecond).2.2] at hother
  simp only [Entry.place, Place.job.injEq]
  rw [← (jobId_donationOf hdonation).2, (jobId_donationOf hother).2]

theorem Scanned.nodup_clients (h : Scanned f s arrived served items entries) :
    (entries.filterMap Entry.client?).Nodup := by
  refine nodup_filterMap_entries ?_ h
  intro first second client _ _ hfirst hsecond
  cases first <;> cases second <;> simp_all [Entry.client?, Entry.place]

/-- Every index of the table leads to the job it was written for. -/
theorem Scanned.lookup (hvalid : s.Valid f) (h : Scanned f s arrived served items entries)
    {job : StoredJob Weight} (hjob : job ∈ s.jobs) (harrived : job ∈ arrived) :
    lastWith StoredJob.id (entries.filterMap Entry.job?) job.id = some job := by
  apply lastWith_of_mem
  · refine h.nodup_jobs.map_on ?_
    intro first hfirst second hsecond hid
    exact List.inj_on_of_nodup_map hvalid.nodup_ids (h.mem_jobs.mp hfirst).1
      (h.mem_jobs.mp hsecond).1 hid
  · exact h.mem_jobs.mpr ⟨hjob, harrived⟩

theorem Scanned.checkObjectIndex (hvalid : s.Valid f)
    (h : Scanned f s arrived served items entries) :
    (entries.filterMap Entry.objectIndex?).forM
      (Migration.checkObjectIndex (entries.filterMap Entry.job?)) = .ok () := by
  rw [forM_eq_ok]
  intro index hindex
  obtain ⟨entry, hentry, htake⟩ := List.mem_filterMap.mp hindex
  cases entry <;> simp only [Entry.objectIndex?, reduceCtorEq] at htake
  cases htake
  obtain ⟨job, hjob, harrived, rfl, rfl⟩ := arrived_objectIndex (h.sound _ hentry)
  simp [Migration.checkObjectIndex, resolveJobReference, bind, Except.bind,
    h.lookup hvalid hjob harrived]

theorem Scanned.checkNumberIndex (hvalid : s.Valid f)
    (h : Scanned f s arrived served items entries) {label : String}
    {numberOf : StoredJob Weight → Option ℕ} {index : ℕ × JobReference}
    (hindex : ∃ job ∈ s.jobs, job ∈ arrived ∧ numberOf job = some index.1 ∧
      index.2 = .uuid job.id) :
    Migration.checkNumberIndex label numberOf (entries.filterMap Entry.job?) index = .ok () := by
  obtain ⟨job, hjob, harrived, hnumber, hreference⟩ := hindex
  simp [Migration.checkNumberIndex, hreference, resolveJobReference, bind, Except.bind,
    h.lookup hvalid hjob harrived, hnumber]

theorem Scanned.checkAstrometryIndex (hvalid : s.Valid f)
    (h : Scanned f s arrived served items entries) :
    (entries.filterMap Entry.astrometryIndex?).forM
      (Migration.checkAstrometryIndex (entries.filterMap Entry.job?)) = .ok () := by
  rw [forM_eq_ok]
  intro index hindex
  obtain ⟨entry, hentry, htake⟩ := List.mem_filterMap.mp hindex
  cases entry <;> simp only [Entry.astrometryIndex?, reduceCtorEq] at htake
  cases htake
  exact h.checkNumberIndex hvalid (arrived_astrometryIndex (h.sound _ hentry))

theorem Scanned.checkLegacyIndex (hvalid : s.Valid f)
    (h : Scanned f s arrived served items entries) :
    (entries.filterMap Entry.legacyIndex?).forM
      (Migration.checkLegacyIndex (entries.filterMap Entry.job?)) = .ok () := by
  rw [forM_eq_ok]
  intro index hindex
  obtain ⟨entry, hentry, htake⟩ := List.mem_filterMap.mp hindex
  cases entry <;> simp only [Entry.legacyIndex?, reduceCtorEq] at htake
  cases htake
  exact h.checkNumberIndex hvalid (arrived_legacyIndex (h.sound _ hentry))

end Entries

/-- The part of a source that has arrived, as a snapshot. -/
structure PartOf (s : StoreSnapshot Weight) (arrived : Set (StoredJob Weight))
    (served : Set StoredClient) (d : StoreSnapshot Weight) : Prop where
  mem_jobs : ∀ job, job ∈ d.jobs ↔ job ∈ s.jobs ∧ job ∈ arrived
  mem_donations : ∀ donation, donation ∈ d.donations ↔
    ∃ job ∈ s.jobs, job ∈ arrived ∧ s.donationOf job.id = some donation
  mem_clients : ∀ client, client ∈ d.clients ↔ client ∈ s.clients ∧ client ∈ served
  nodup_jobs : d.jobs.Nodup
  nodup_donations : d.donations.Nodup
  nodup_clients : d.clients.Nodup
  sorted : d.Sorted

/-- A scan of a half-written table, in any order, is read as the part of the
source that has arrived. -/
theorem Holds.snapshot (hf : f.Lossless) (hvalid : s.Valid f)
    (hholds : Holds f s arrived served table) {items : List Item}
    (hscan : items.Perm table.rows) :
    ∃ d, dynamoSnapshot f items = .ok d ∧ PartOf s arrived served d := by
  obtain ⟨entries, h⟩ := hholds.scanned hf hvalid hscan
  refine ⟨.new (entries.filterMap Entry.job?) (entries.filterMap Entry.donation?)
    (entries.filterMap Entry.client?), ?_, ?_⟩
  · unfold dynamoSnapshot
    rw [h.read]
    simp [bind, Except.bind, h.checkObjectIndex hvalid, h.checkAstrometryIndex hvalid,
      h.checkLegacyIndex hvalid]
  · constructor
    · intro job
      exact mem_sortByKey.trans h.mem_jobs
    · intro donation
      exact mem_sortByKey.trans h.mem_donations
    · intro client
      exact mem_sortByKey.trans h.mem_clients
    · exact (sortByKey_perm _ _).nodup_iff.mpr h.nodup_jobs
    · exact (sortByKey_perm _ _).nodup_iff.mpr h.nodup_donations
    · exact (sortByKey_perm _ _).nodup_iff.mpr h.nodup_clients
    · exact sorted_new _ _ _

/-! ### The part of a source is a valid snapshot -/

theorem donationOf_of_mem (hvalid : s.Valid f) {donation : StoredDonation}
    (hmem : donation ∈ s.donations) : s.donationOf donation.jobId = some donation :=
  lastWith_of_mem hvalid.nodup_donations hmem

namespace PartOf

variable {d : StoreSnapshot Weight}

theorem donations_subset (h : PartOf s arrived served d) :
    ∀ donation ∈ d.donations, donation ∈ s.donations := by
  intro donation hmem
  obtain ⟨job, _, _, hdonation⟩ := (h.mem_donations donation).mp hmem
  exact (jobId_donationOf hdonation).1

theorem valid (h : PartOf s arrived served d) (hvalid : s.Valid f) : d.Valid f where
  wellFormed := fun job hmem => hvalid.wellFormed job ((h.mem_jobs job).mp hmem).1
  apart := pairwise_of_subset hvalid.apart (fun job hmem => ((h.mem_jobs job).mp hmem).1)
    h.nodup_jobs
  donated := by
    intro donation hmem
    obtain ⟨job, hjob, harrived, hdonation⟩ := (h.mem_donations donation).mp hmem
    constructor
    · rw [(jobId_donationOf hdonation).2]
      exact List.mem_map_of_mem ((h.mem_jobs job).mpr ⟨hjob, harrived⟩)
    · exact (hvalid.donated donation (h.donations_subset donation hmem)).2
  donationsApart := by
    have : Std.Symm fun first second : StoredDonation =>
        second.jobId ≠ first.jobId ∧ second.objectKey ≠ first.objectKey :=
      ⟨fun _ _ h => ⟨h.1.symm, h.2.symm⟩⟩
    exact pairwise_of_subset hvalid.donationsApart h.donations_subset h.nodup_donations
  served := fun client hmem => hvalid.served client ((h.mem_clients client).mp hmem).1
  clientsApart := by
    have : Std.Symm fun first second : StoredClient => second.owner ≠ first.owner :=
      ⟨fun _ _ h => h.symm⟩
    exact pairwise_of_subset hvalid.clientsApart (fun client hmem =>
      ((h.mem_clients client).mp hmem).1) h.nodup_clients

theorem ensureSubsetOf [BEq Weight] (hf : f.Reflexive) (hvalid : s.Valid f)
    (h : PartOf s arrived served d) : d.ensureSubsetOf s = .ok () := by
  rw [ensureSubsetOf_eq_ok hvalid]
  refine ⟨fun job hmem => ?_, h.donations_subset, fun client hmem =>
    ((h.mem_clients client).mp hmem).1⟩
  have hjob := ((h.mem_jobs job).mp hmem).1
  exact ⟨job, hjob, rfl, StoredJob.beq_self hf (hvalid.wellFormed job hjob)⟩

/-- Once everything has arrived the snapshot is the source. -/
theorem complete (hvalid : s.Valid f) (hsorted : s.Sorted) (h : PartOf s arrived served d)
    (hjobs : ∀ job ∈ s.jobs, job ∈ arrived) (hclients : ∀ client ∈ s.clients, client ∈ served) :
    d = s := by
  have hsameJobs : d.jobs.Perm s.jobs := by
    rw [List.perm_ext_iff_of_nodup h.nodup_jobs hvalid.nodup_jobs]
    intro job
    rw [h.mem_jobs]
    exact ⟨fun hmem => hmem.1, fun hmem => ⟨hmem, hjobs job hmem⟩⟩
  have hsameDonations : d.donations.Perm s.donations := by
    rw [List.perm_ext_iff_of_nodup h.nodup_donations (hvalid.nodup_donations.of_map _)]
    intro donation
    refine ⟨h.donations_subset donation, fun hmem => (h.mem_donations donation).mpr ?_⟩
    obtain ⟨job, hjob, hid⟩ := List.mem_map.mp (hvalid.donated donation hmem).1
    refine ⟨job, hjob, hjobs job hjob, ?_⟩
    rw [hid]
    exact donationOf_of_mem hvalid hmem
  have hsameClients : d.clients.Perm s.clients := by
    rw [List.perm_ext_iff_of_nodup h.nodup_clients (hvalid.nodup_owners.of_map _)]
    intro client
    rw [h.mem_clients]
    exact ⟨fun hmem => hmem.1, fun hmem => ⟨hmem, hclients client hmem⟩⟩
  calc
    d = .new d.jobs d.donations d.clients := h.sorted.symm
    _ = s := new_eq_of_perm hvalid hsorted hsameJobs hsameDonations hsameClients

end PartOf

/-! ## Interrupted imports -/

/-- The writes of some of the jobs, whatever writes follow. -/
theorem Holds.writeJobs (hf : f.Lossless) (hvalid : s.Valid f) {requireEmpty : Bool}
    {jobs : List (StoredJob Weight)} (hjobs : ∀ job ∈ jobs, job ∈ s.jobs) (hnodup : jobs.Nodup)
    (hholds : Holds f s arrived served table)
    (hnew : requireEmpty = true → ∀ job ∈ jobs, job ∉ arrived) (rest : List ImportWrite) :
    ∃ written, applyWrites requireEmpty (jobs.map (jobWrite f s) ++ rest) table =
        applyWrites requireEmpty rest written ∧
      Holds f s (arrived ∪ {job | job ∈ jobs}) served written := by
  induction jobs generalizing arrived table with
  | nil => exact ⟨table, rfl, by simpa using hholds⟩
  | cons job jobs ih =>
      rw [List.forall_mem_cons] at hjobs
      rw [List.nodup_cons] at hnodup
      obtain ⟨middle, hmiddle, hholds⟩ := hholds.writeJob hf hvalid hjobs.1 fun hempty =>
        hnew hempty job List.mem_cons_self
      obtain ⟨written, hwritten, hheld⟩ := ih hjobs.2 hnodup.2 hholds (by
        intro hempty other hother
        rw [Set.mem_insert_iff, not_or]
        refine ⟨fun h => hnodup.1 (h ▸ hother), hnew hempty other (List.mem_cons_of_mem _ hother)⟩)
      refine ⟨written, ?_, ?_⟩
      · rw [← hwritten, List.map_cons, List.cons_append]
        simp [applyWrites, jobWrite, hmiddle]
      · rwa [KeyedLists.insert_union_listed] at hheld

theorem Holds.writeClients (hf : f.Lossless) (hvalid : s.Valid f) {requireEmpty : Bool}
    {clients : List StoredClient} (hclients : ∀ client ∈ clients, client ∈ s.clients)
    (hnodup : clients.Nodup) (hholds : Holds f s arrived served table)
    (hnew : requireEmpty = true → ∀ client ∈ clients, client ∉ served) :
    ∃ written, applyWrites requireEmpty (clients.map clientWrite) table = (written, .ok ()) ∧
      Holds f s arrived (served ∪ {client | client ∈ clients}) written := by
  induction clients generalizing served table with
  | nil => exact ⟨table, rfl, by simpa using hholds⟩
  | cons client clients ih =>
      rw [List.forall_mem_cons] at hclients
      rw [List.nodup_cons] at hnodup
      obtain ⟨middle, hmiddle, hholds⟩ := hholds.writeClient hf hvalid hclients.1 fun hempty =>
        hnew hempty client List.mem_cons_self
      obtain ⟨written, hwritten, hheld⟩ := ih hclients.2 hnodup.2 hholds (by
        intro hempty other hother
        rw [Set.mem_insert_iff, not_or]
        refine ⟨fun h => hnodup.1 (h ▸ hother), hnew hempty other (List.mem_cons_of_mem _ hother)⟩)
      refine ⟨written, ?_, ?_⟩
      · rw [← hwritten, List.map_cons]
        simp [applyWrites, clientWrite, hmiddle]
      · rwa [KeyedLists.insert_union_listed] at hheld

/-- The first `stop` writes of an import all go through, and leave the table
with the jobs and clients they are about added. -/
theorem Holds.importUntil (hf : f.Lossless) (hvalid : s.Valid f) (requireEmpty : Bool)
    (hholds : Holds f s arrived served table)
    (hnew : requireEmpty = true → arrived = ∅ ∧ served = ∅) (stop : ℕ) :
    ∃ written, applyWrites requireEmpty ((importWrites f s).take stop) table = (written, .ok ()) ∧
      Holds f s (arrived ∪ {job | job ∈ s.jobs.take stop})
        (served ∪ {client | client ∈ s.clients.take (stop - s.jobs.length)}) written := by
  have htake : (importWrites f s).take stop =
      (s.jobs.take stop).map (jobWrite f s) ++
        (s.clients.take (stop - s.jobs.length)).map clientWrite := by
    unfold importWrites
    rw [List.take_append, List.map_take, List.map_take, List.length_map]
  obtain ⟨middle, hmiddle, hholds⟩ := hholds.writeJobs hf hvalid
    (fun job hmem => List.mem_of_mem_take hmem) (hvalid.nodup_jobs.sublist (List.take_sublist _ _))
    (fun hempty job _ => by rw [(hnew hempty).1]; exact Set.notMem_empty job)
    ((s.clients.take (stop - s.jobs.length)).map clientWrite)
  obtain ⟨written, hwritten, hheld⟩ := hholds.writeClients hf hvalid
    (fun client hmem => List.mem_of_mem_take hmem)
    ((hvalid.nodup_owners.of_map _).sublist (List.take_sublist _ _))
    (fun hempty client _ => by rw [(hnew hempty).2]; exact Set.notMem_empty client)
  refine ⟨written, ?_, hheld⟩
  rw [htake, hmiddle, hwritten]

/-- A complete import adds every job and every client. -/
theorem Holds.imported (hf : f.Lossless) (hvalid : s.Valid f) (resume : Bool)
    (hholds : Holds f s arrived served table)
    (hnew : resume = false → arrived = ∅ ∧ served = ∅) :
    ∃ written, dynamoImport f s resume table = (written, .ok ()) ∧
      Holds f s (arrived ∪ {job | job ∈ s.jobs}) (served ∪ {client | client ∈ s.clients})
        written := by
  obtain ⟨written, hwritten, hheld⟩ := hholds.importUntil hf hvalid (!resume)
    (by simpa using hnew) (importWrites f s).length
  have hlength : (importWrites f s).length = s.jobs.length + s.clients.length := by
    simp [importWrites]
  refine ⟨written, ?_, ?_⟩
  · rwa [List.take_length] at hwritten
  · rwa [hlength, List.take_of_length_le (by omega), List.take_of_length_le (by omega)] at hheld

/-! ## Empty destinations -/

/-- Only an item without an entity is read as the counter. -/
theorem readEntity_some_ne_counter {item : Item} {pk entity : String} :
    readEntity f item pk (some entity) ≠ .ok .counter := by
  intro hread
  simp only [readEntity] at hread
  split_ifs at hread
  · obtain ⟨_, _, hread⟩ := bind_eq_ok.mp hread
    obtain ⟨_, _, hread⟩ := bind_eq_ok.mp hread
    obtain ⟨_, _, hread⟩ := bind_eq_ok.mp hread
    cases hread
  · obtain ⟨_, _, hread⟩ := bind_eq_ok.mp hread
    split at hread
    next => cases hread
    next =>
      obtain ⟨_, _, hread⟩ := bind_eq_ok.mp hread
      cases hread
  · obtain ⟨_, _, hread⟩ := bind_eq_ok.mp hread
    split at hread
    next => cases hread
    next =>
      obtain ⟨_, _, hread⟩ := bind_eq_ok.mp hread
      cases hread
  all_goals
    obtain ⟨_, _, hread⟩ := bind_eq_ok.mp hread
    split at hread
    next => cases hread
    next =>
      split at hread
      next => cases hread
      next =>
        obtain ⟨_, _, hread⟩ := bind_eq_ok.mp hread
        cases hread

theorem reads_counter {item : Item} (hread : readItem f item = .ok .counter) :
    Reads f item .counter := by
  refine ⟨hread, ?_⟩
  unfold readItem at hread
  obtain ⟨pk, hpk, hentity⟩ := bind_eq_ok.mp hread
  have hkey : item.pk = pk := by
    unfold Item.requiredString at hpk
    unfold Item.pk
    split at hpk
    next value hvalue =>
      cases hpk
      rw [hvalue, Option.getD_some]
    next => cases hpk
  cases hname : item.optionalString "entity" with
  | none =>
      rw [hname] at hentity
      simp only [readEntity] at hentity
      split at hentity
      next heq => exact hkey.trans heq
      next => cases hentity
  | some entity =>
      rw [hname] at hentity
      exact absurd hentity readEntity_some_ne_counter

theorem resolveJobReference_nil_bind {α : Type} {reference : JobReference}
    {next : JobId → Except String α} {value : α}
    (hnext : ∀ jobId, next jobId ≠ .ok value) :
    resolveJobReference ([] : List (StoredJob Weight)) reference >>= next ≠ .ok value := by
  intro hok
  obtain ⟨jobId, _, hvalue⟩ := bind_eq_ok.mp hok
  exact hnext jobId hvalue

theorem checkObjectIndex_nil (index : String × JobReference) :
    checkObjectIndex ([] : List (StoredJob Weight)) index ≠ .ok () :=
  resolveJobReference_nil_bind fun jobId => by simp [lastWith]

theorem checkNumberIndex_nil (label : String) (numberOf : StoredJob Weight → Option ℕ)
    (index : ℕ × JobReference) : checkNumberIndex label numberOf [] index ≠ .ok () :=
  resolveJobReference_nil_bind fun jobId => by simp [lastWith]

theorem checkAstrometryIndex_nil (index : ℕ × JobReference) :
    checkAstrometryIndex ([] : List (StoredJob Weight)) index ≠ .ok () :=
  checkNumberIndex_nil _ _ index

theorem checkLegacyIndex_nil (index : ℕ × JobReference) :
    checkLegacyIndex ([] : List (StoredJob Weight)) index ≠ .ok () :=
  checkNumberIndex_nil _ _ index

theorem eq_nil_of_forM_eq_ok {α : Type} {check : α → Except String Unit} {rows : List α}
    (hcheck : ∀ row, check row ≠ .ok ()) (hok : rows.forM check = .ok ()) : rows = [] := by
  rw [List.eq_nil_iff_forall_not_mem]
  intro row hmem
  exact hcheck row ((forM_eq_ok rows).mp hok row hmem)

/-- A table whose snapshot is empty holds nothing but counters: an index of a
job that is not there would have been refused. -/
theorem counters_of_isEmpty {items : List Item} {d : StoreSnapshot Weight}
    (hsnapshot : dynamoSnapshot f items = .ok d) (hempty : d.isEmpty = true) :
    ∀ item ∈ items, Reads f item .counter := by
  unfold dynamoSnapshot at hsnapshot
  obtain ⟨entries, hread, hsnapshot⟩ := bind_eq_ok.mp hsnapshot
  obtain ⟨_, hobject, hsnapshot⟩ := bind_eq_ok.mp hsnapshot
  obtain ⟨_, hastrometry, hsnapshot⟩ := bind_eq_ok.mp hsnapshot
  obtain ⟨_, hlegacy, hsnapshot⟩ := bind_eq_ok.mp hsnapshot
  cases hsnapshot
  simp only [StoreSnapshot.isEmpty, StoreSnapshot.new, Bool.and_eq_true] at hempty
  have hjobs := eq_nil_of_sortByKey hempty.1.1
  have hclients := eq_nil_of_sortByKey hempty.2
  rw [hjobs] at hobject hastrometry hlegacy
  have hobjects := eq_nil_of_forM_eq_ok checkObjectIndex_nil hobject
  have hastrometries := eq_nil_of_forM_eq_ok checkAstrometryIndex_nil hastrometry
  have hlegacies := eq_nil_of_forM_eq_ok checkLegacyIndex_nil hlegacy
  simp only [List.filterMap_eq_nil_iff] at hjobs hclients hobjects hastrometries hlegacies
  intro item hitem
  obtain ⟨entry, hentry, hok⟩ := exists_of_mem_left (mapM_of_eq_ok hread) hitem
  cases entry with
  | counter => exact reads_counter hok
  | job job donation => exact absurd (hjobs _ hentry) (Option.some_ne_none _)
  | client client => exact absurd (hclients _ hentry) (Option.some_ne_none _)
  | objectIndex objectKey reference => exact absurd (hobjects _ hentry) (Option.some_ne_none _)
  | astrometryIndex id reference => exact absurd (hastrometries _ hentry) (Option.some_ne_none _)
  | legacyIndex id reference => exact absurd (hlegacies _ hentry) (Option.some_ne_none _)

theorem holds_of_isEmpty {items : List Item} {d : StoreSnapshot Weight}
    (hscan : items.Perm table.rows) (hsnapshot : dynamoSnapshot f items = .ok d)
    (hempty : d.isEmpty = true) : Holds f s ∅ ∅ table where
  sound := fun item hitem =>
    .inr (.inr (counters_of_isEmpty hsnapshot hempty item (hscan.mem_iff.mpr hitem)))
  jobs := fun _ _ harrived => absurd harrived (Set.notMem_empty _)
  clients := fun _ _ hserved => absurd hserved (Set.notMem_empty _)

/-- The table of the sample snapshot. -/
def sampleTable : DynamoTable := (dynamoImport sampleFormats sampleSnapshot false .empty).1

theorem holds_empty (f : Formats Weight) (s : StoreSnapshot Weight) : Holds f s ∅ ∅ .empty :=
  ⟨fun _ hitem => absurd hitem List.not_mem_nil, fun _ _ harrived => absurd harrived
    (Set.notMem_empty _), fun _ _ hserved => absurd hserved (Set.notMem_empty _)⟩

theorem snapshot_sampleTable :
    dynamoSnapshot sampleFormats sampleTable.rows = .ok sampleSnapshot := by
  obtain ⟨written, hwritten, hheld⟩ := (holds_empty sampleFormats sampleSnapshot).imported
    lossless_sampleFormats valid_sampleSnapshot false fun _ => ⟨rfl, rfl⟩
  obtain ⟨copy, hcopy, hpart⟩ :=
    hheld.snapshot lossless_sampleFormats valid_sampleSnapshot (.refl written.rows)
  unfold sampleTable
  rw [hwritten, hcopy, hpart.complete valid_sampleSnapshot sorted_sampleSnapshot
    (fun _ h => .inr h) (fun _ h => .inr h)]

theorem dynamoSnapshot_nil (f : Formats Weight) :
    dynamoSnapshot f [] = .ok (.new [] [] []) := by
  simp [dynamoSnapshot, bind, Except.bind, pure, Except.pure]

end SeizaServer.Migration
