import SeizaServer.DynamoStoreItems
import SeizaServer.KeyedTable
import Mathlib.Data.Set.Basic

/-!
# A snapshot in a DynamoDB table

`DynamoStore::import` writes the items of every job in one transaction and each
client by itself, and `DynamoStore::snapshot` reads a scan of the table.  The
invariant `Holds` says which jobs and clients of a source have arrived.  It is
kept by an import that stops between two writes, so that a scan of a half-written
table still gives a valid snapshot, and a resumed import completes it.
-/

namespace SeizaServer.Migration

open KeyedLists

variable {Weight : Type}

/-- The partition key of an item. -/
def Item.pk (item : Item) : String := (item.optionalString "pk").getD ""

abbrev DynamoTable := KeyedTable Item String Item.pk

/-- The puts of one `TransactWriteItems`; no two of them may name one item, and
with the condition `attribute_not_exists(pk)` none of the items may exist. -/
def transactWriteItems (table : DynamoTable) (requireEmpty : Bool) (items : List Item) :
    Option DynamoTable :=
  if (items.map Item.pk).Nodup ∧
      (requireEmpty → items.all fun item => (table.find? item.pk).isNone) then
    some (items.foldl KeyedTable.put table)
  else none

/-- One request of the import, and what is reported when it fails. -/
structure ImportWrite where
  items : List Item
  context : String

section Import

variable (f : Formats Weight) (s : StoreSnapshot Weight)

/-- `donations.get(&job.id)`. -/
def StoreSnapshot.donationOf (jobId : JobId) : Option StoredDonation :=
  lastWith StoredDonation.jobId s.donations jobId

def legacyIndexItem (job : StoredJob Weight) : List Item :=
  match job.legacyId with
  | none => []
  | some legacyId => [indexItem (legacyIndexKey legacyId) "legacy_index" job.id]

def jobItems (job : StoredJob Weight) : List Item :=
  [jobToItem f job (s.donationOf job.id),
    indexItem (objectIndexKey job.objectKey) "object_index" job.id,
    indexItem (astrometryIndexKey job.astrometryId) "astrometry_index" job.id] ++
  legacyIndexItem job

def jobWrite (job : StoredJob Weight) : ImportWrite :=
  ⟨jobItems f s job, s!"importing DynamoDB job {uuidText job.id}"⟩

def clientWrite (client : StoredClient) : ImportWrite :=
  ⟨[clientItem client], s!"importing DynamoDB client fairness record {client.owner}"⟩

def importWrites : List ImportWrite :=
  s.jobs.map (jobWrite f s) ++ s.clients.map clientWrite

/-- The requests one after the other, up to the first that fails. -/
def applyWrites (requireEmpty : Bool) :
    List ImportWrite → DynamoTable → DynamoTable × Except String Unit
  | [], table => (table, .ok ())
  | write :: rest, table =>
      match transactWriteItems table requireEmpty write.items with
      | some written => applyWrites requireEmpty rest written
      | none => (table, .error write.context)

def dynamoImport (resume : Bool) (table : DynamoTable) : DynamoTable × Except String Unit :=
  applyWrites (!resume) (importWrites f s) table

end Import

/-! ## Snapshots of a scan -/

section Snapshot

variable (f : Formats Weight)

def Entry.job? : Entry Weight → Option (StoredJob Weight)
  | .job stored _ => some stored
  | _ => none

def Entry.donation? : Entry Weight → Option StoredDonation
  | .job _ donation => donation
  | _ => none

def Entry.client? : Entry Weight → Option StoredClient
  | .client served => some served
  | _ => none

def Entry.objectIndex? : Entry Weight → Option (String × JobReference)
  | .objectIndex objectKey reference => some (objectKey, reference)
  | _ => none

def Entry.astrometryIndex? : Entry Weight → Option (ℕ × JobReference)
  | .astrometryIndex id reference => some (id, reference)
  | _ => none

def Entry.legacyIndex? : Entry Weight → Option (ℕ × JobReference)
  | .legacyIndex id reference => some (id, reference)
  | _ => none

/-- `legacy_to_uuid`: the jobs by their legacy identity. -/
def legacyToUuid (jobs : List (StoredJob Weight)) (legacyId : ℕ) : Option JobId :=
  (lastWith Prod.fst (jobs.filterMap fun job => job.legacyId.map (·, job.id)) legacyId).map (·.2)

def resolveJobReference (jobs : List (StoredJob Weight)) : JobReference → Except String JobId
  | .uuid id => .ok id
  | .legacy id =>
      match legacyToUuid jobs id with
      | some jobId => .ok jobId
      | none => .error s!"DynamoDB index references missing legacy job {id}"

def checkObjectIndex (jobs : List (StoredJob Weight)) (index : String × JobReference) :
    Except String Unit := do
  let jobId ← resolveJobReference jobs index.2
  match lastWith StoredJob.id jobs jobId with
  | none => .error s!"DynamoDB object index {index.1} references missing job {uuidText jobId}"
  | some job =>
      ensure (job.objectKey = index.1)
        (s!"DynamoDB object index {index.1} does not match job {uuidText jobId} object key " ++
          job.objectKey)

/-- The checks of the two indexes by number. -/
def checkNumberIndex (label : String) (numberOf : StoredJob Weight → Option ℕ)
    (jobs : List (StoredJob Weight)) (index : ℕ × JobReference) : Except String Unit := do
  let jobId ← resolveJobReference jobs index.2
  match lastWith StoredJob.id jobs jobId with
  | none => .error s!"DynamoDB {label} index {index.1} references missing job {uuidText jobId}"
  | some job =>
      ensure (numberOf job = some index.1)
        s!"DynamoDB {label} index {index.1} does not match job {uuidText jobId}"

def checkAstrometryIndex (jobs : List (StoredJob Weight)) (index : ℕ × JobReference) :
    Except String Unit :=
  checkNumberIndex "Astrometry.net" (fun job => some job.astrometryId) jobs index

def checkLegacyIndex (jobs : List (StoredJob Weight)) (index : ℕ × JobReference) :
    Except String Unit :=
  checkNumberIndex "legacy" StoredJob.legacyId jobs index

/-- The snapshot of the scanned items, in the order in which the pages of the
scan return them. -/
def dynamoSnapshot (items : List Item) : Except String (StoreSnapshot Weight) := do
  let entries ← items.mapM (readItem f)
  let jobs := entries.filterMap Entry.job?
  (entries.filterMap Entry.objectIndex?).forM (checkObjectIndex jobs)
  (entries.filterMap Entry.astrometryIndex?).forM (checkAstrometryIndex jobs)
  (entries.filterMap Entry.legacyIndex?).forM (checkLegacyIndex jobs)
  .ok (.new jobs (entries.filterMap Entry.donation?) (entries.filterMap Entry.client?))

end Snapshot

/-! ## Partition keys -/

@[simp] theorem pk_jobToItem (f : Formats Weight) (job : StoredJob Weight)
    (donation : Option StoredDonation) : (jobToItem f job donation).pk = jobKey job.id := by
  simp [Item.pk, Item.optionalString, jobToItem]

@[simp] theorem pk_indexItem (pk entity : String) (jobId : JobId) :
    (indexItem pk entity jobId).pk = pk := by
  simp [Item.pk, Item.optionalString, indexItem]

@[simp] theorem pk_clientItem (client : StoredClient) :
    (clientItem client).pk = clientKey client.owner := by
  simp [Item.pk, Item.optionalString, clientItem]

/-- The key under which an entry is stored. -/
def Entry.pk : Entry Weight → String
  | .counter => "COUNTER#jobs"
  | .job stored _ => jobKey stored.id
  | .client served => clientKey served.owner
  | .objectIndex objectKey _ => objectIndexKey objectKey
  | .astrometryIndex id _ => astrometryIndexKey id
  | .legacyIndex id _ => legacyIndexKey id

/-- What an entry is about: the kinds of keys never meet. -/
inductive Place where
  | counter
  | job (id : JobId)
  | client (owner : String)
  | objectIndex (objectKey : String)
  | astrometryIndex (id : ℕ)
  | legacyIndex (id : ℕ)
  deriving DecidableEq

def Place.key : Place → String
  | .counter => "COUNTER#jobs"
  | .job id => jobKey id
  | .client owner => clientKey owner
  | .objectIndex objectKey => objectIndexKey objectKey
  | .astrometryIndex id => astrometryIndexKey id
  | .legacyIndex id => legacyIndexKey id

def Entry.place : Entry Weight → Place
  | .counter => .counter
  | .job stored _ => .job stored.id
  | .client served => .client served.owner
  | .objectIndex objectKey _ => .objectIndex objectKey
  | .astrometryIndex id _ => .astrometryIndex id
  | .legacyIndex id _ => .legacyIndex id

@[simp] theorem key_place (entry : Entry Weight) : entry.place.key = entry.pk := by
  cases entry <;> rfl

theorem append_left_cancel {tag first second : String} (heq : tag ++ first = tag ++ second) :
    first = second := by
  have hlists := congrArg String.toList heq
  rw [String.toList_append, String.toList_append] at hlists
  exact String.toList_injective (List.append_cancel_left hlists)

theorem repr_injective {first second : ℕ} (heq : first.repr = second.repr) : first = second := by
  have hdigits := congrArg (fun text : String => Nat.ofDigitChars 10 text.toList 0) heq
  simpa [Nat.repr_eq_ofList_toDigits] using hdigits

/-- The first two letters of a key tell its kind. -/
def Place.initials : Place → List Char
  | .counter => ['C', 'O']
  | .job _ => ['J', 'O']
  | .client _ => ['C', 'L']
  | .objectIndex _ => ['O', 'B']
  | .astrometryIndex _ => ['A', 'S']
  | .legacyIndex _ => ['L', 'E']

theorem take_key (place : Place) : place.key.toList.take 2 = place.initials := by
  cases place <;>
    simp [Place.key, Place.initials, jobKey, clientKey, objectIndexKey, astrometryIndexKey,
      legacyIndexKey]

theorem key_injective {first second : Place} (heq : first.key = second.key) :
    first = second := by
  have hinitials : first.initials = second.initials := by
    rw [← take_key, ← take_key, heq]
  cases first <;> cases second <;> simp [Place.initials] at hinitials <;>
    simp only [Place.key, jobKey, clientKey, objectIndexKey, astrometryIndexKey,
      legacyIndexKey] at heq <;> simp
  case job.job first second => exact Images.uuidText_injective (append_left_cancel heq)
  case client.client first second => exact append_left_cancel heq
  case objectIndex.objectIndex first second => exact append_left_cancel heq
  case astrometryIndex.astrometryIndex first second =>
    exact repr_injective (append_left_cancel heq)
  case legacyIndex.legacyIndex first second => exact repr_injective (append_left_cancel heq)

/-! ## The entries of a source -/

section Entries

variable {f : Formats Weight} {s : StoreSnapshot Weight}

def legacyEntry (job : StoredJob Weight) : List (Entry Weight) :=
  match job.legacyId with
  | none => []
  | some legacyId => [.legacyIndex legacyId (.uuid job.id)]

/-- What the items of a job are read as. -/
def jobEntries (s : StoreSnapshot Weight) (job : StoredJob Weight) : List (Entry Weight) :=
  [.job job (s.donationOf job.id), .objectIndex job.objectKey (.uuid job.id),
    .astrometryIndex job.astrometryId (.uuid job.id)] ++ legacyEntry job

/-- An item that is read as an entry and stored under the entry's key. -/
def Reads (f : Formats Weight) (item : Item) (entry : Entry Weight) : Prop :=
  readItem f item = .ok entry ∧ item.pk = entry.place.key

theorem jobId_donationOf {jobId : JobId} {donation : StoredDonation}
    (hdonation : s.donationOf jobId = some donation) : donation ∈ s.donations ∧
      donation.jobId = jobId :=
  mem_of_lastWith hdonation

theorem reads_legacyIndexItem (hf : f.Lossless) {job : StoredJob Weight}
    (hwell : job.WellFormed f) :
    List.Forall₂ (Reads f) (legacyIndexItem job) (legacyEntry job) := by
  unfold legacyIndexItem legacyEntry
  cases hlegacy : job.legacyId with
  | none => exact .nil
  | some legacyId =>
      have hle := hwell.legacyId_le legacyId hlegacy
      have hlt : legacyId < 2 ^ 64 := by
        unfold bigintMax at hle
        omega
      exact .cons ⟨readItem_legacyIndex hf hlt job.id, pk_indexItem _ _ _⟩ .nil

/-- The items of a job are read, one by one, as its entries. -/
theorem reads_jobItems (hf : f.Lossless) {job : StoredJob Weight} (hwell : job.WellFormed f) :
    List.Forall₂ (Reads f) (jobItems f s job) (jobEntries s job) := by
  have hle := hwell.astrometryId_le
  have hlt : job.astrometryId < 2 ^ 64 := by
    unfold bigintMax at hle
    omega
  have hdonation : ∀ contribution, s.donationOf job.id = some contribution →
      contribution.jobId = job.id := fun contribution h => (jobId_donationOf h).2
  unfold jobItems jobEntries
  refine .cons ⟨readItem_jobToItem hf hwell hdonation, pk_jobToItem _ _ _⟩ ?_
  refine .cons ⟨readItem_objectIndex hf _ _, pk_indexItem _ _ _⟩ ?_
  refine .cons ⟨readItem_astrometryIndex hf hlt _, pk_indexItem _ _ _⟩ ?_
  exact reads_legacyIndexItem hf hwell

theorem reads_clientItem (client : StoredClient) : Reads f (clientItem client) (.client client) :=
  ⟨readItem_clientItem client, pk_clientItem client⟩

/-- The places of a job. -/
theorem mem_places_jobEntries {job : StoredJob Weight} {place : Place} :
    place ∈ (jobEntries s job).map Entry.place ↔
      place = .job job.id ∨ place = .objectIndex job.objectKey ∨
        place = .astrometryIndex job.astrometryId ∨
          ∃ legacyId, job.legacyId = some legacyId ∧ place = .legacyIndex legacyId := by
  unfold jobEntries legacyEntry
  cases job.legacyId <;> simp [Entry.place]

theorem nodup_places_jobEntries (job : StoredJob Weight) :
    ((jobEntries s job).map Entry.place).Nodup := by
  unfold jobEntries legacyEntry
  cases job.legacyId <;> simp [Entry.place]

/-- Two jobs that one store can hold have no place in common. -/
theorem places_apart {first second : StoredJob Weight} (hapart : first.Apart second)
    {place : Place} (hfirst : place ∈ (jobEntries s first).map Entry.place) :
    place ∉ (jobEntries s second).map Entry.place := by
  rw [mem_places_jobEntries] at hfirst ⊢
  rintro (rfl | rfl | rfl | ⟨legacyId, hlegacy, rfl⟩)
  · simp only [Place.job.injEq, reduceCtorEq, and_false, exists_false, or_false] at hfirst
    exact hapart.id hfirst
  · simp only [Place.objectIndex.injEq, reduceCtorEq, and_false, exists_false, or_false,
      false_or] at hfirst
    exact hapart.objectKey hfirst
  · simp only [Place.astrometryIndex.injEq, reduceCtorEq, and_false, exists_false, or_false,
      false_or] at hfirst
    exact hapart.astrometryId hfirst
  · simp only [Place.legacyIndex.injEq, reduceCtorEq, false_or] at hfirst
    obtain ⟨other, hother, rfl⟩ := hfirst
    exact hapart.legacyId legacyId hlegacy hother

theorem pks_jobItems (hf : f.Lossless) {job : StoredJob Weight} (hwell : job.WellFormed f) :
    (jobItems f s job).map Item.pk = ((jobEntries s job).map Entry.place).map Place.key := by
  rw [List.map_map]
  exact map_eq_of_forall₂ (fun _ _ hreads => hreads.2) (reads_jobItems hf hwell)

theorem nodup_pks_jobItems (hf : f.Lossless) {job : StoredJob Weight} (hwell : job.WellFormed f) :
    ((jobItems f s job).map Item.pk).Nodup := by
  rw [pks_jobItems hf hwell]
  exact (nodup_places_jobEntries job).map fun _ _ => key_injective

end Entries

/-! ## Half-written tables -/

/-- The table holds the items of the jobs and clients that have arrived, all the
items of a job or none, and beside them nothing but counters. -/
structure Holds (f : Formats Weight) (s : StoreSnapshot Weight) (arrived : Set (StoredJob Weight))
    (served : Set StoredClient) (table : DynamoTable) : Prop where
  sound : ∀ item ∈ table.rows,
    (∃ job ∈ s.jobs, job ∈ arrived ∧ item ∈ jobItems f s job) ∨
      (∃ client ∈ s.clients, client ∈ served ∧ item = clientItem client) ∨
        Reads f item .counter
  jobs : ∀ job ∈ s.jobs, job ∈ arrived → ∀ item ∈ jobItems f s job, item ∈ table.rows
  clients : ∀ client ∈ s.clients, client ∈ served → clientItem client ∈ table.rows

section Writing

variable {f : Formats Weight} {s : StoreSnapshot Weight} {arrived : Set (StoredJob Weight)}
  {served : Set StoredClient} {table : DynamoTable}

/-- An item of the table that shares its key with an item of a job is that item,
and the job has arrived. -/
theorem Holds.eq_of_pk (hf : f.Lossless) (hvalid : s.Valid f)
    (hholds : Holds f s arrived served table) {job : StoredJob Weight} (hjob : job ∈ s.jobs)
    {item write : Item} (hitem : item ∈ table.rows) (hwrite : write ∈ jobItems f s job)
    (hpk : write.pk = item.pk) : job ∈ arrived ∧ item = write := by
  have hwell := hvalid.wellFormed job hjob
  obtain ⟨entry, hentry, hreads⟩ := exists_of_mem_left (reads_jobItems (s := s) hf hwell) hwrite
  have hplace := List.mem_map_of_mem (f := Entry.place) hentry
  rcases hholds.sound item hitem with ⟨other, hother, harrived, hmem⟩ | ⟨client, _, _, rfl⟩ | hcounter
  · by_cases hsame : other = job
    · subst hsame
      exact ⟨harrived, List.inj_on_of_nodup_map (nodup_pks_jobItems hf hwell) hmem hwrite hpk.symm⟩
    · obtain ⟨entry', hentry', hreads'⟩ :=
        exists_of_mem_left (reads_jobItems (s := s) hf (hvalid.wellFormed other hother)) hmem
      have hkeys : entry'.place = entry.place := by
        apply key_injective
        rw [← hreads.2, ← hreads'.2, hpk]
      have hapart := places_apart (s := s) (hvalid.apart_of_ne hother hjob hsame)
        (List.mem_map_of_mem (f := Entry.place) hentry')
      rw [hkeys] at hapart
      exact absurd hplace hapart
  · have hkeys : entry.place = .client client.owner := by
      apply key_injective
      rw [← hreads.2, hpk, pk_clientItem]
      rfl
    rw [hkeys, mem_places_jobEntries] at hplace
    simp at hplace
  · have hkeys : entry.place = .counter := by
      apply key_injective
      rw [← hreads.2, hpk, hcounter.2]
      rfl
    rw [hkeys, mem_places_jobEntries] at hplace
    simp at hplace

/-- An item of the table that shares its key with a client is that client's. -/
theorem Holds.eq_of_clientKey (hf : f.Lossless) (hvalid : s.Valid f)
    (hholds : Holds f s arrived served table) {client : StoredClient}
    (hclient : client ∈ s.clients) {item : Item} (hitem : item ∈ table.rows)
    (hpk : clientKey client.owner = item.pk) : client ∈ served ∧ item = clientItem client := by
  rcases hholds.sound item hitem with ⟨job, hjob, _, hmem⟩ | ⟨other, hother, hserved, rfl⟩ | hcounter
  · obtain ⟨entry, hentry, hreads⟩ :=
      exists_of_mem_left (reads_jobItems (s := s) hf (hvalid.wellFormed job hjob)) hmem
    have hplace := List.mem_map_of_mem (f := Entry.place) hentry
    have hkeys : entry.place = .client client.owner := by
      apply key_injective
      rw [← hreads.2, ← hpk]
      rfl
    rw [hkeys, mem_places_jobEntries] at hplace
    simp at hplace
  · rw [pk_clientItem] at hpk
    have howner : client.owner = other.owner := append_left_cancel hpk
    have hsame : client = other :=
      List.inj_on_of_nodup_map hvalid.nodup_owners hclient hother howner
    subst hsame
    exact ⟨hserved, rfl⟩
  · have hkeys : Place.client client.owner = .counter := by
      apply key_injective
      exact hpk.trans hcounter.2
    cases hkeys

theorem transactWriteItems_eq_some {requireEmpty : Bool} {items : List Item}
    (hkeys : (items.map Item.pk).Nodup)
    (hfresh : requireEmpty = true → ∀ item ∈ table.rows, ∀ write ∈ items, write.pk ≠ item.pk) :
    transactWriteItems table requireEmpty items = some (items.foldl KeyedTable.put table) := by
  unfold transactWriteItems
  rw [if_pos]
  refine ⟨hkeys, fun hempty => ?_⟩
  rw [List.all_eq_true]
  intro write hwrite
  rw [Option.isNone_iff_eq_none]
  unfold KeyedTable.find?
  rw [List.find?_eq_none]
  intro item hitem
  simpa using (hfresh hempty item hitem write hwrite).symm

/-- Writing a job adds it, over whatever part of the source is there. -/
theorem Holds.writeJob (hf : f.Lossless) (hvalid : s.Valid f)
    (hholds : Holds f s arrived served table) {job : StoredJob Weight} (hjob : job ∈ s.jobs)
    {requireEmpty : Bool} (hnew : requireEmpty = true → job ∉ arrived) :
    ∃ written, transactWriteItems table requireEmpty (jobItems f s job) = some written ∧
      Holds f s (insert job arrived) served written := by
  have hkeys := nodup_pks_jobItems (s := s) hf (hvalid.wellFormed job hjob)
  refine ⟨_, transactWriteItems_eq_some hkeys ?_, ?_, ?_, ?_⟩
  · intro hempty item hitem write hwrite hpk
    exact hnew hempty (hholds.eq_of_pk hf hvalid hjob hitem hwrite hpk).1
  · intro item hitem
    rcases (KeyedTable.mem_foldl_put hkeys).mp hitem with hwrite | ⟨hrow, _⟩
    · exact .inl ⟨job, hjob, Set.mem_insert _ _, hwrite⟩
    · rcases hholds.sound item hrow with ⟨other, hother, harrived, hmem⟩ | hrest
      · exact .inl ⟨other, hother, Set.mem_insert_of_mem _ harrived, hmem⟩
      · exact .inr hrest
  · intro other hother harrived item hmem
    rw [KeyedTable.mem_foldl_put hkeys]
    by_cases hwritten : item ∈ jobItems f s job
    · exact .inl hwritten
    · have hne : other ≠ job := fun h => hwritten (h ▸ hmem)
      have hrow := hholds.jobs other hother (Set.mem_of_mem_insert_of_ne harrived hne) item hmem
      refine .inr ⟨hrow, fun write hwrite hpk => hwritten ?_⟩
      rw [(hholds.eq_of_pk hf hvalid hjob hrow hwrite hpk).2]
      exact hwrite
  · intro client hclient hserved
    rw [KeyedTable.mem_foldl_put hkeys]
    have hrow := hholds.clients client hclient hserved
    by_cases hwritten : clientItem client ∈ jobItems f s job
    · exact .inl hwritten
    · refine .inr ⟨hrow, fun write hwrite hpk => hwritten ?_⟩
      rw [(hholds.eq_of_pk hf hvalid hjob hrow hwrite hpk).2]
      exact hwrite

theorem Holds.writeClient (hf : f.Lossless) (hvalid : s.Valid f)
    (hholds : Holds f s arrived served table) {client : StoredClient} (hclient : client ∈ s.clients)
    {requireEmpty : Bool} (hnew : requireEmpty = true → client ∉ served) :
    ∃ written, transactWriteItems table requireEmpty [clientItem client] = some written ∧
      Holds f s arrived (insert client served) written := by
  have hkeys : ([clientItem client].map Item.pk).Nodup := List.nodup_singleton _
  have hcollision : ∀ item ∈ table.rows, ∀ write ∈ [clientItem client], write.pk = item.pk →
      client ∈ served ∧ item = clientItem client := by
    intro item hitem write hwrite hpk
    rw [List.mem_singleton.mp hwrite, pk_clientItem] at hpk
    exact hholds.eq_of_clientKey hf hvalid hclient hitem hpk
  have hkept : ∀ item ∈ table.rows, item ∈ ([clientItem client].foldl KeyedTable.put table).rows := by
    intro item hitem
    rw [KeyedTable.mem_foldl_put hkeys, List.mem_singleton]
    by_cases hsame : item = clientItem client
    · exact .inl hsame
    · exact .inr ⟨hitem, fun write hwrite hpk => hsame (hcollision item hitem write hwrite hpk).2⟩
  refine ⟨_, transactWriteItems_eq_some hkeys ?_, ?_, ?_, ?_⟩
  · intro hempty item hitem write hwrite hpk
    exact hnew hempty (hcollision item hitem write hwrite hpk).1
  · intro item hitem
    rcases (KeyedTable.mem_foldl_put hkeys).mp hitem with hwrite | ⟨hrow, _⟩
    · exact .inr (.inl ⟨client, hclient, Set.mem_insert _ _, List.mem_singleton.mp hwrite⟩)
    · rcases hholds.sound item hrow with hjob | ⟨other, hother, hserved, heq⟩ | hcounter
      · exact .inl hjob
      · exact .inr (.inl ⟨other, hother, Set.mem_insert_of_mem _ hserved, heq⟩)
      · exact .inr (.inr hcounter)
  · intro job hjob harrived item hmem
    exact hkept item (hholds.jobs job hjob harrived item hmem)
  · intro other hother hserved
    by_cases hsame : other = client
    · rw [hsame, KeyedTable.mem_foldl_put hkeys]
      exact .inl List.mem_cons_self
    · exact hkept _ (hholds.clients other hother (Set.mem_of_mem_insert_of_ne hserved hsame))

end Writing

end SeizaServer.Migration
