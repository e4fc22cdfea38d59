import OpsMonitor.Library.Inventory
import OpsMonitor.Library.Runs
import OpsMonitor.Server.Service

/-! The disks and networks of a server, as its agent reports them (`AgentService.sync_assets`).
The database compares the names by its collation, `sync_assets` compares them exactly. -/

namespace OpsMonitor
open Library

/-! ## The tables -/

structure OpsServerDisk where
  id : ℕ
  serverId : ℕ
  deviceName : String
  mountPoint : Option String
  filesystem : Option String
  totalBytes : Option ℕ
  status : ℕ
  deriving DecidableEq

instance : Keyed OpsServerDisk := ⟨OpsServerDisk.id, fun n d => { d with id := n }, fun _ _ => rfl⟩

structure OpsServerNetwork where
  id : ℕ
  serverId : ℕ
  interfaceName : String
  macAddress : Option String
  ipAddress : Option String
  status : ℕ
  deriving DecidableEq

instance : Keyed OpsServerNetwork :=
  ⟨OpsServerNetwork.id, fun n d => { d with id := n }, fun _ _ => rfl⟩

/-! ## The report -/

structure DiskAsset where
  deviceName : String
  mountPoint : Option String
  filesystem : Option String
  totalBytes : Option ℕ
  deviceName_length : deviceName.length ≤ 128
  mountPoint_length : ∀ m ∈ mountPoint, m.length ≤ 255
  filesystem_length : ∀ f ∈ filesystem, f.length ≤ 64

structure NetworkAsset where
  interfaceName : String
  macAddress : Option String
  ipAddress : Option String
  interfaceName_length : interfaceName.length ≤ 128
  macAddress_length : ∀ a ∈ macAddress, a.length ≤ 64
  ipAddress_length : ∀ a ∈ ipAddress, a.length ≤ 64

structure AssetsRequest where
  serverId : Option ℕ
  disks : List DiskAsset
  networks : List NetworkAsset

/-- A text that Python takes for false. -/
def blank (s : Option String) : Bool := s = none ∨ s = some ""

/-- The schema bounds the texts of a disk, not its size. -/
def OpsServerDisk.overflow (disk : OpsServerDisk) : Option Failure :=
  if ∃ n ∈ disk.totalBytes, 2 ^ 64 ≤ n then some (.dataError "total_bytes") else none

section Collation
variable {ι : Type} [DecidableEq ι] (collate : String → ι)

/-- Two mount points are the same for `mount_point = ..`, or `IS NULL` for none. -/
def collateDisk (name : String × Option String) : ι × Option ι := (collate name.1, name.2.map collate)

def ukOpsServerDisk : UniqueKey OpsServerDisk Failure where
  error := .integrity "uk_ops_server_disk"
  collide a b := a.serverId = b.serverId ∧ a.mountPoint ≠ none ∧ b.mountPoint ≠ none ∧
    collateDisk collate (a.deviceName, a.mountPoint) = collateDisk collate (b.deviceName, b.mountPoint)
  symm a b := by
    rw [decide_eq_decide]
    constructor
    · exact fun h => ⟨h.1.symm, h.2.2.1, h.2.1, h.2.2.2.symm⟩
    · exact fun h => ⟨h.1.symm, h.2.2.1, h.2.1, h.2.2.2.symm⟩

def ukOpsServerNetworkInterface : UniqueKey OpsServerNetwork Failure where
  error := .integrity "uk_ops_server_network_interface"
  collide a b := a.serverId = b.serverId ∧ collate a.interfaceName = collate b.interfaceName
  symm _ _ := decide_eq_decide.mpr (and_congr eq_comm eq_comm)

/-- The row that `DiskRepository.upsert` creates. -/
def DiskAsset.row (serverId : ℕ) (disk : DiskAsset) : OpsServerDisk where
  id := 0
  serverId := serverId
  deviceName := disk.deviceName
  mountPoint := disk.mountPoint
  filesystem := disk.filesystem
  totalBytes := disk.totalBytes
  status := 1

/-- The row that `NetworkRepository.upsert` creates. -/
def NetworkAsset.row (serverId : ℕ) (network : NetworkAsset) : OpsServerNetwork where
  id := 0
  serverId := serverId
  interfaceName := network.interfaceName
  macAddress := network.macAddress
  ipAddress := network.ipAddress
  status := 1

/-- What `DiskRepository.upsert` writes over the row it finds. -/
def OpsServerDisk.fill (existing : OpsServerDisk) (disk : DiskAsset) : OpsServerDisk :=
  { existing with
    filesystem := keep blank existing.filesystem disk.filesystem
    totalBytes := keep Option.isNone existing.totalBytes disk.totalBytes }

/-- What `NetworkRepository.upsert` writes over the row it finds. -/
def OpsServerNetwork.fill (existing : OpsServerNetwork) (network : NetworkAsset) : OpsServerNetwork :=
  { existing with
    macAddress := keep blank existing.macAddress network.macAddress
    ipAddress := keep blank existing.ipAddress network.ipAddress }

theorem OpsServerDisk.foldl_fill (disk : OpsServerDisk) (items : List DiskAsset) :
    items.foldl fill disk = { disk with
      filesystem := (items.map (·.filesystem)).foldl (keep blank) disk.filesystem
      totalBytes := (items.map (·.totalBytes)).foldl (keep Option.isNone) disk.totalBytes } := by
  induction items generalizing disk with
  | nil => rfl
  | cons i items ih =>
    rw [List.foldl_cons, ih]
    rfl

theorem OpsServerNetwork.foldl_fill (network : OpsServerNetwork) (items : List NetworkAsset) :
    items.foldl fill network = { network with
      macAddress := (items.map (·.macAddress)).foldl (keep blank) network.macAddress
      ipAddress := (items.map (·.ipAddress)).foldl (keep blank) network.ipAddress } := by
  induction items generalizing network with
  | nil => rfl
  | cons i items ih =>
    rw [List.foldl_cons, ih]
    rfl

theorem OpsServerDisk.overflow_eq_none {disk : OpsServerDisk} :
    disk.overflow = none ↔ ∀ n ∈ disk.totalBytes, n < 2 ^ 64 := by
  unfold overflow
  split_ifs with h
  · simpa using h
  · simpa using h

theorem DiskAsset.fill_row (disk : DiskAsset) (k s : ℕ) :
    OpsServerDisk.fill (Keyed.withKey k (disk.row s)) disk = Keyed.withKey k (disk.row s) := by
  rw [OpsServerDisk.fill]
  exact congrArg₂ (fun f n => { Keyed.withKey k (disk.row s) with filesystem := f, totalBytes := n })
    (keep_self disk.filesystem) (keep_self disk.totalBytes)

theorem NetworkAsset.fill_row (network : NetworkAsset) (k s : ℕ) :
    OpsServerNetwork.fill (Keyed.withKey k (network.row s)) network = Keyed.withKey k (network.row s) := by
  rw [OpsServerNetwork.fill]
  exact congrArg₂ (fun m a => { Keyed.withKey k (network.row s) with macAddress := m, ipAddress := a })
    (keep_self network.macAddress) (keep_self network.ipAddress)

/-- A size that is not reported leaves the stored one, which fits. -/
theorem OpsServerDisk.overflow_fill {disk : OpsServerDisk} {i : DiskAsset} (h : disk.overflow = none) :
    (disk.fill i).overflow = none ↔ ∀ n ∈ i.totalBytes, n < 2 ^ 64 := by
  have hold := overflow_eq_none.mp h
  refine overflow_eq_none.trans ?_
  cases hbytes : i.totalBytes with
  | none => simpa [fill, keep, hbytes] using hold
  | some n => simp [fill, keep, hbytes]

def diskInventory : Inventory OpsServerDisk DiskAsset (String × Option String) (ι × Option ι) Failure where
  schema := ⟨OpsServerDisk.overflow, [ukOpsServerDisk collate]⟩
  owner := OpsServerDisk.serverId
  name disk := (disk.deviceName, disk.mountPoint)
  named disk := (disk.deviceName, disk.mountPoint)
  fold := collateDisk collate
  fresh := DiskAsset.row
  write := OpsServerDisk.fill
  fits disk := ∀ n ∈ disk.totalBytes, n < 2 ^ 64
  key_write _ _ := rfl
  owner_write _ _ := rfl
  name_write _ _ := rfl
  owner_fresh _ _ _ := rfl
  name_fresh _ _ _ := rfl
  column_fresh _ _ _ := OpsServerDisk.overflow_eq_none
  column_write _ _ := OpsServerDisk.overflow_fill
  collide_write u hu r i r' := by
    rw [List.mem_singleton.mp hu]
    rfl
  collide_same u hu r r' h := by
    rw [List.mem_singleton.mp hu] at h
    have hcollide := of_decide_eq_true h
    exact ⟨hcollide.1, hcollide.2.2.2⟩
  write_fresh k s i := i.fill_row k s
  write_again r items := by
    simp only [OpsServerDisk.foldl_fill, foldl_keep_again]

def networkInventory : Inventory OpsServerNetwork NetworkAsset String ι Failure where
  schema := ⟨fun _ => none, [ukOpsServerNetworkInterface collate]⟩
  owner := OpsServerNetwork.serverId
  name := OpsServerNetwork.interfaceName
  named := NetworkAsset.interfaceName
  fold := collate
  fresh := NetworkAsset.row
  write := OpsServerNetwork.fill
  fits _ := True
  key_write _ _ := rfl
  owner_write _ _ := rfl
  name_write _ _ := rfl
  owner_fresh _ _ _ := rfl
  name_fresh _ _ _ := rfl
  column_fresh _ _ _ := iff_of_true rfl trivial
  column_write _ _ _ := iff_of_true rfl trivial
  collide_write u hu r i r' := by
    rw [List.mem_singleton.mp hu]
    rfl
  collide_same u hu r r' h := by
    rw [List.mem_singleton.mp hu] at h
    exact of_decide_eq_true h
  write_fresh k s i := i.fill_row k s
  write_again r items := by
    simp only [OpsServerNetwork.foldl_fill, foldl_keep_again]

/-! ## The repositories -/

def DiskRepository.upsert (serverId : ℕ) (disks : Table OpsServerDisk) (disk : DiskAsset) :
    Except Failure (Table OpsServerDisk) := (diskInventory collate).upsert serverId disks disk

def DiskRepository.deleteMissing (serverId : ℕ) (disks : Table OpsServerDisk)
    (presentKeys : List (String × Option String)) : Table OpsServerDisk :=
  (diskInventory collate).deleteMissing serverId disks presentKeys

def NetworkRepository.upsert (serverId : ℕ) (networks : Table OpsServerNetwork)
    (network : NetworkAsset) : Except Failure (Table OpsServerNetwork) :=
  (networkInventory collate).upsert serverId networks network

structure AssetDb where
  disks : Table OpsServerDisk
  networks : Table OpsServerNetwork

/-- `AgentService.sync_assets` for the server `server`. -/
def syncAssets (server : ℕ) (db : AssetDb) (data : AssetsRequest) : Except Failure AssetDb := do
  assertServerMatch server data.serverId
  let diskKeys := data.disks.map fun disk => (disk.deviceName, disk.mountPoint)
  let disks ← data.disks.foldlM (DiskRepository.upsert collate server) db.disks
  let disks := DiskRepository.deleteMissing collate server disks diskKeys
  let networkKeys := data.networks.map (·.interfaceName)
  let networks ← data.networks.foldlM (NetworkRepository.upsert collate server) db.networks
  pure ⟨disks, (networkInventory collate).deleteMissing server networks networkKeys⟩

/-! ## What a report asks for -/

/-- A disk row holds the last size and file system that were reported for it. -/
def DiskHolds (reported : List DiskAsset) (stored : Option OpsServerDisk) (disk : OpsServerDisk) : Prop :=
  LastReported blank (reported.map (·.filesystem)) (stored.map (·.filesystem)) disk.filesystem ∧
    LastReported Option.isNone (reported.map (·.totalBytes)) (stored.map (·.totalBytes)) disk.totalBytes

def NetworkHolds (reported : List NetworkAsset) (stored : Option OpsServerNetwork)
    (network : OpsServerNetwork) : Prop :=
  LastReported blank (reported.map (·.macAddress)) (stored.map (·.macAddress)) network.macAddress ∧
    LastReported blank (reported.map (·.ipAddress)) (stored.map (·.ipAddress)) network.ipAddress

/-- The call succeeds and stores exactly what is reported, and a second one changes nothing. -/
def SyncsExactly (server : ℕ) (db : AssetDb) (data : AssetsRequest) : Prop :=
  ∃ db', syncAssets collate server db data = .ok db' ∧
    (diskInventory collate).Exact server DiskHolds data.disks db.disks db'.disks ∧
    (networkInventory collate).Exact server NetworkHolds data.networks db.networks db'.networks ∧
    syncAssets collate server db' data = .ok db'

/-- Names that the collation does not tell apart are equal, and the sizes fit their column. -/
structure Distinguished (server : ℕ) (db : AssetDb) (data : AssetsRequest) : Prop where
  disks : (diskInventory collate).Untangled server db.disks data.disks
  networks : (networkInventory collate).Untangled server db.networks data.networks
  sizes : ∀ disk ∈ data.disks, ∀ n ∈ disk.totalBytes, n < 2 ^ 64

def AssetDb.empty : AssetDb := ⟨.empty, .empty⟩

/-- The tables after a call, which is rolled back when it fails. -/
def syncStep (db : AssetDb) (call : ℕ × AssetsRequest) : AssetDb :=
  match syncAssets collate call.1 db call.2 with
  | .ok db' => db'
  | .error _ => db

/-- The tables after the calls of `history`. -/
def assetsAfter (history : List (ℕ × AssetsRequest)) : AssetDb := run (syncStep collate) .empty history

/-! ## The calls keep the tables in order -/

/-- The tables meet their constraints, and no name of a server has two rows. -/
structure AssetDb.Sound (db : AssetDb) : Prop where
  disks : (diskInventory collate).schema.Consistent db.disks
  networks : (networkInventory collate).schema.Consistent db.networks
  oneDisk : ∀ s, (diskInventory collate).OneEach s db.disks
  oneNetwork : ∀ s, (networkInventory collate).OneEach s db.networks

variable {collate} {server : ℕ} {db db' : AssetDb} {data : AssetsRequest}

theorem syncAssets_eq_ok (hmatch : ∀ id ∈ data.serverId, id = server) :
    syncAssets collate server db data = .ok db' ↔
      (diskInventory collate).sync server db.disks data.disks = .ok db'.disks ∧
        (networkInventory collate).sync server db.networks data.networks = .ok db'.networks := by
  have hno : ¬ ∃ id ∈ data.serverId, id ≠ server := by
    rintro ⟨id, hid, hne⟩
    exact hne (hmatch id hid)
  rw [Inventory.sync_eq_ok, Inventory.sync_eq_ok, syncAssets, assertServerMatch, if_neg hno]
  simp only [bind_eq_ok, pure_eq_ok]
  constructor
  · rintro ⟨-, -, disks, hdisks, networks, hnetworks, rfl⟩
    exact ⟨⟨disks, hdisks, rfl⟩, ⟨networks, hnetworks, rfl⟩⟩
  · rintro ⟨⟨disks, hdisks, hdisks'⟩, ⟨networks, hnetworks, hnetworks'⟩⟩
    refine ⟨(), trivial, disks, hdisks, networks, hnetworks, ?_⟩
    cases db'
    rw [AssetDb.mk.injEq]
    exact ⟨hdisks'.symm, hnetworks'.symm⟩

/-- A call that succeeds is not for another server. -/
theorem match_of_syncAssets (h : syncAssets collate server db data = .ok db') :
    ∀ id ∈ data.serverId, id = server := by
  unfold syncAssets assertServerMatch at h
  obtain ⟨u, hu, -⟩ := bind_eq_ok.mp h
  split_ifs at hu with hother
  intro id hid
  by_contra hne
  exact hother ⟨id, hid, hne⟩

theorem AssetDb.Sound.syncStep (h : db.Sound collate) (call : ℕ × AssetsRequest) :
    (syncStep collate db call).Sound collate := by
  unfold OpsMonitor.syncStep
  split
  · rename_i db' hok
    obtain ⟨hdisks, hnetworks⟩ := (syncAssets_eq_ok (match_of_syncAssets hok)).mp hok
    obtain ⟨hdisks, honeDisk⟩ := Inventory.sync_keeps h.disks h.oneDisk hdisks
    obtain ⟨hnetworks, honeNetwork⟩ := Inventory.sync_keeps h.networks h.oneNetwork hnetworks
    exact ⟨hdisks, hnetworks, honeDisk, honeNetwork⟩
  · exact h

theorem sound_assetsAfter (history : List (ℕ × AssetsRequest)) :
    (assetsAfter collate history).Sound collate := by
  induction history using List.reverseRecOn with
  | nil =>
    exact ⟨.empty, .empty, fun _ r hr => absurd hr (Table.notMem_empty r),
      fun _ r hr => absurd hr (Table.notMem_empty r)⟩
  | append_singleton history call ih =>
    rw [assetsAfter, run_concat]
    exact ih.syncStep call

/-! ## Exactness -/

theorem AssetDb.Sound.disks_exact_iff (h : db.Sound collate) :
    (∃ t', (diskInventory collate).sync server db.disks data.disks = .ok t' ∧
      (diskInventory collate).Exact server DiskHolds data.disks db.disks t' ∧
      (diskInventory collate).sync server t' data.disks = .ok t') ↔
    (diskInventory collate).Untangled server db.disks data.disks ∧
      ∀ disk ∈ data.disks, ∀ n ∈ disk.totalBytes, n < 2 ^ 64 := by
  refine Inventory.sync_exact_iff h.disks (h.oneDisk server) ?_ ?_
  · intro items disk
    change DiskHolds items (some disk) (items.foldl OpsServerDisk.fill disk)
    rw [OpsServerDisk.foldl_fill]
    exact ⟨lastReported_stored _ _, lastReported_stored _ _⟩
  · intro k i items
    change DiskHolds (i :: items) none ((i :: items).foldl OpsServerDisk.fill _)
    rw [OpsServerDisk.foldl_fill]
    exact ⟨lastReported_new _ _, lastReported_new _ _⟩

theorem AssetDb.Sound.networks_exact_iff (h : db.Sound collate) :
    (∃ t', (networkInventory collate).sync server db.networks data.networks = .ok t' ∧
      (networkInventory collate).Exact server NetworkHolds data.networks db.networks t' ∧
      (networkInventory collate).sync server t' data.networks = .ok t') ↔
    (networkInventory collate).Untangled server db.networks data.networks := by
  refine (Inventory.sync_exact_iff h.networks (h.oneNetwork server) ?_ ?_).trans
    (and_iff_left fun _ _ => trivial)
  · intro items network
    change NetworkHolds items (some network) (items.foldl OpsServerNetwork.fill network)
    rw [OpsServerNetwork.foldl_fill]
    exact ⟨lastReported_stored _ _, lastReported_stored _ _⟩
  · intro k i items
    change NetworkHolds (i :: items) none ((i :: items).foldl OpsServerNetwork.fill _)
    rw [OpsServerNetwork.foldl_fill]
    exact ⟨lastReported_new _ _, lastReported_new _ _⟩

/-- A report is stored exactly, and once more without a change, if and only if the collation tells
its names apart from each other and from the stored ones, and its sizes fit. -/
theorem syncsExactly_iff (collate : String → ι) (history : List (ℕ × AssetsRequest)) (server : ℕ)
    (data : AssetsRequest) (hmatch : ∀ id ∈ data.serverId, id = server) :
    SyncsExactly collate server (assetsAfter collate history) data ↔
      Distinguished collate server (assetsAfter collate history) data := by
  have hsound : (assetsAfter collate history).Sound collate := sound_assetsAfter history
  constructor
  · rintro ⟨db', hok, hdisks, hnetworks, hagain⟩
    obtain ⟨hdisksOk, hnetworksOk⟩ := (syncAssets_eq_ok hmatch).mp hok
    obtain ⟨hdisksAgain, hnetworksAgain⟩ := (syncAssets_eq_ok hmatch).mp hagain
    obtain ⟨hdisks, hsizes⟩ := hsound.disks_exact_iff.mp ⟨_, hdisksOk, hdisks, hdisksAgain⟩
    have hnetworks := hsound.networks_exact_iff.mp ⟨_, hnetworksOk, hnetworks, hnetworksAgain⟩
    exact ⟨hdisks, hnetworks, hsizes⟩
  · rintro ⟨hdisks, hnetworks, hsizes⟩
    obtain ⟨disks, hdisksOk, hdisks, hdisksAgain⟩ := hsound.disks_exact_iff.mpr ⟨hdisks, hsizes⟩
    obtain ⟨networks, hnetworksOk, hnetworks, hnetworksAgain⟩ := hsound.networks_exact_iff.mpr hnetworks
    exact ⟨⟨disks, networks⟩, (syncAssets_eq_ok hmatch).mpr ⟨hdisksOk, hnetworksOk⟩, hdisks, hnetworks,
      (syncAssets_eq_ok hmatch).mpr ⟨hdisksAgain, hnetworksAgain⟩⟩

end Collation

/-! ## Mount points that differ in the case of a letter -/

/-- A device that is mounted at `mountPoint`. -/
def mountedAt (mountPoint : String) (h : mountPoint.length ≤ 255) : DiskAsset where
  deviceName := "/dev/sdb1"
  mountPoint := some mountPoint
  filesystem := some "xfs"
  totalBytes := some 200000
  deviceName_length := by decide
  mountPoint_length := by simpa using h
  filesystem_length := by decide

theorem syncsExactly_data :
    SyncsExactly String.toLower 1 (assetsAfter String.toLower []) ⟨some 1, [mountedAt "/data" (by decide)], []⟩ ↔
      Distinguished String.toLower 1 (assetsAfter String.toLower [])
        ⟨some 1, [mountedAt "/data" (by decide)], []⟩ :=
  syncsExactly_iff String.toLower [] 1 _ (by simp)

/-- Of the mount points `/data` and `/Data` of a device one is lost. -/
theorem mount_point_lost :
    ¬ ∀ (history : List (ℕ × AssetsRequest)) (server : ℕ) (data : AssetsRequest),
      (∀ id ∈ data.serverId, id = server) →
        SyncsExactly String.toLower server (assetsAfter String.toLower history) data := by
  intro h
  let data : AssetsRequest :=
    ⟨some 1, [mountedAt "/data" (by decide), mountedAt "/Data" (by decide)], []⟩
  have hmatch : ∀ id ∈ data.serverId, id = 1 := by simp [data]
  obtain ⟨db', hok, hdisks, -, hagain⟩ := h [] 1 data hmatch
  have hclean := (sound_assetsAfter []).disks_exact_iff.mp
    ⟨_, ((syncAssets_eq_ok hmatch).mp hok).1, hdisks, ((syncAssets_eq_ok hmatch).mp hagain).1⟩
  -- both names fold to the same one
  have hsame := (hclean.1 _ List.mem_cons_self).1 _ (List.mem_cons_of_mem _ List.mem_cons_self) (by decide +kernel)
  revert hsame
  decide +kernel

end OpsMonitor
