import SeizaServer.MigratedLookups

/-!
# Public links

The links of jobs: the id of the job, or what the first versions displayed, its
sequence number and its id.  A link finds the same job in both repositories, also
after a migration, and no job but the one it names.
-/

namespace SeizaServer.Migration

variable {Weight Options Solution : Type}

section Links

variable (f : Formats Weight)

variable (payloads : Payloads Options Solution)

end Links

variable {f : Formats Weight} {payloads : Payloads Options Solution} {s : StoreSnapshot Weight}
  {table : DynamoTable} {tables : SqlTables Weight} {served : Set StoredClient}

end SeizaServer.Migration
