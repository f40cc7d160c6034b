import SeizaServer.StoredRecords

/-!
# Looking jobs up after a migration

Both repositories find a job by its id, its object key, its Astrometry.net ID
and its legacy ID: one through index items, the other by unique columns.  After
an import of the same snapshot they find the same jobs.
-/

namespace SeizaServer.Migration

open KeyedLists

variable {Weight Options Solution : Type}

/-! ## Lookups of the DynamoDB repository -/

section Dynamo

variable (f : Formats Weight)

variable (payloads : Payloads Options Solution)

end Dynamo

/-! ## Lookups of the SQLx repository -/

section Sql

variable (f : Formats Weight) (payloads : Payloads Options Solution)

end Sql

/-- What a repository answers about a job of the snapshot. -/
def loaded (f : Formats Weight) (payloads : Payloads Options Solution) (s : StoreSnapshot Weight)
    (found : Option (StoredJob Weight)) :
    Except String (Option (LoadedJob Weight Options Solution)) :=
  transposeMap (fun job => recordOf f payloads job (s.donationOf job.id)) found

variable {f : Formats Weight} {payloads : Payloads Options Solution} {s : StoreSnapshot Weight}
  {arrived : Set (StoredJob Weight)}
  {served : Set StoredClient} {table : DynamoTable} {tables : SqlTables Weight}

/-! ## Keys of the items -/

/-- No two items that an import writes share their partition key. -/
theorem nodup_importKeys (hf : f.Lossless) (hvalid : s.validate f = .ok ()) :
    (((importWrites f s).flatMap ImportWrite.items).map Item.pk).Nodup := by
  have hvalid := validate_eq_ok.mp hvalid
  have hjobs : ((s.jobs.map (jobWrite f s)).flatMap ImportWrite.items).map Item.pk =
      (s.jobs.flatMap fun job => (jobEntries s job).map Entry.place).map Place.key := by
    rw [List.flatMap_map, List.map_flatMap, List.map_flatMap]
    apply List.flatMap_congr
    intro job hmem
    exact pks_jobItems hf (hvalid.wellFormed job hmem)
  have hclients : ((s.clients.map clientWrite).flatMap ImportWrite.items).map Item.pk =
      (s.clients.map fun client => Place.client client.owner).map Place.key := by
    rw [List.flatMap_map, List.map_flatMap, List.map_map]
    simp [clientWrite, Place.key, Function.comp_def, List.map_eq_flatMap]
  unfold importWrites
  rw [List.flatMap_append, List.map_append, hjobs, hclients, ← List.map_append]
  refine List.Nodup.map (fun _ _ => key_injective) (List.Nodup.append ?_ ?_ ?_)
  · rw [List.nodup_flatMap]
    refine ⟨fun job _ => nodup_places_jobEntries job, hvalid.apart.imp ?_⟩
    intro first second hapart place hfirst hsecond
    exact places_apart (s := s) hapart hfirst hsecond
  · have howners := hvalid.nodup_owners.map (f := Place.client) fun _ _ h => by
      simpa using h
    rwa [List.map_map] at howners
  · intro place hjob hclient
    obtain ⟨client, _, rfl⟩ := List.mem_map.mp hclient
    obtain ⟨job, _, hplace⟩ := List.mem_flatMap.mp hjob
    rw [mem_places_jobEntries] at hplace
    simp at hplace

theorem nodup_importKeys_sample :
    (((importWrites sampleFormats sampleSnapshot).flatMap ImportWrite.items).map Item.pk).Nodup :=
  nodup_importKeys lossless_sampleFormats (validate_eq_ok.mpr valid_sampleSnapshot)

/-! ## Reading the index items -/

end SeizaServer.Migration
