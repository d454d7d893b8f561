import NeuralMesh.Base.Single
import NeuralMesh.Coordinator.Grpc

/-!
# The list of providers

`list_providers` of `coordinator/src/api/grpc.rs`, a single query that no other function issues. Rows
with the same price come in the order of the table, which may be another one for each query. The
`required_runtime` of the request is not read.
-/

namespace NeuralMesh.Coordinator.Grpc

structure ListProvidersRequest where
  minRamGb : UInt32
  /-- empty for any -/
  region : String
  /-- `0` for any -/
  maxPrice : ℚ
  limit : UInt32
  offset : UInt32

structure ProviderListing where
  providerId : ProviderId
  chipModel : String
  unifiedRamGb : UInt32
  gpuCores : UInt32
  metalVersion : String
  runtimes : List String
  maxJobRamGb : UInt32
  pricePerHour : ℚ
  region : String
  trustScore : F32
  jobsCompleted : UInt32
  successRate : F32
  latencyMs : UInt32

structure ListProvidersResponse where
  providers : List ProviderListing
  total : UInt32

/-- The `WHERE` of the query; `NULL` is in no relation. -/
def ListProvidersRequest.selects (req : ListProvidersRequest) (row : Provider) : Bool :=
  row.state = .available ∧
    row.caps.maxJobRamGb.any (fun ram => asI32 req.minRamGb.toNat ≤ ram) ∧
    (req.region = "" ∨ row.caps.region = some req.region) ∧
    (row.caps.floorPriceNmcPerHour.any (fun price => price ≤ req.maxPrice) ∨ req.maxPrice = 0)

/-- The providers that a request is about. -/
def matchingProviders (req : ListProvidersRequest) (s : Db) : List (ProviderId × Provider) :=
  s.providers.rows.filter fun row => req.selects row.2

/-- `ORDER BY floor_price_nmc_per_hour ASC LIMIT $4 OFFSET $5` -/
def listedRows (req : ListProvidersRequest) (s : Db) : List (ProviderId × Provider) :=
  ((orderByAsc (fun row => row.2.caps.floorPriceNmcPerHour) (matchingProviders req s)).drop
    req.offset.toNat).take (max req.limit.toNat 20)

def listing (row : ProviderId × Provider) : ProviderListing where
  providerId := row.1
  chipModel := row.2.caps.chipModel.getD ""
  unifiedRamGb := .ofInt (row.2.caps.unifiedMemoryGb.getD 0)
  gpuCores := .ofInt (row.2.caps.gpuCores.getD 0)
  metalVersion := row.2.caps.metalVersion.getD ""
  runtimes := row.2.caps.installedRuntimes.getD []
  maxJobRamGb := .ofInt (row.2.caps.maxJobRamGb.getD 0)
  pricePerHour := row.2.caps.floorPriceNmcPerHour.getD 0
  region := row.2.caps.region.getD ""
  trustScore := F32.round (row.2.trustScore.getD 3)
  jobsCompleted := .ofInt (row.2.jobsCompleted.getD 0)
  successRate := F32.round (row.2.successRate.getD 1)
  latencyMs := 0

/-- The database may be `down`. -/
def listProviders (down : Bool) (req : ListProvidersRequest) (s : Db) :
    Except Status ListProvidersResponse :=
  if down then .error (.internal "DB: ")
  else
    let providers := (listedRows req s).map listing
    .ok { total := .ofNat providers.length, providers }

end NeuralMesh.Coordinator.Grpc
