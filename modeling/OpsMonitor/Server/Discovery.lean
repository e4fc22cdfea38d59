import OpsMonitor.Exceptions
import OpsMonitor.Library.IpNetwork
import OpsMonitor.Library.Loops

/-! The discovery of servers (`services/discovery_service.py`): a network inside the allow-list is
probed host by host from a pool of threads. -/

namespace OpsMonitor.Discovery
open Library
open Ip (Address Network)

structure Settings where
  enabled : Bool
  allowedCidrs : List String
  maxHosts : ℤ
  sshPort : ℕ

/-- A host of the answer. -/
structure Host where
  ip : String
  port : ℕ
  banner : Option String
  deriving DecidableEq, Repr

/-- What `_probe` returns: whether the port is open, and the banner. -/
abbrev Answer := Bool × Option String

/-- The probes of `n` hosts in the order in which the threads finish them. -/
structure Finished (n : ℕ) where
  answers : List (ℕ × Answer)
  perm : (answers.map Prod.fst).Perm (List.range n)

/-- `pool.map` hands the results out in the order of the hosts. -/
def Finished.inOrder {n : ℕ} (finished : Finished n) : List Answer :=
  (List.range n).filterMap fun i => (finished.answers.find? (·.1 = i)).map (·.2)

/-- What a scan has probed, on which port, and how it ended. -/
structure Outcome where
  probed : List (Address × ℕ)
  result : Except Failure (List Host)

/-- `zip(.., strict=True)`. -/
def zipStrict {α β : Type} (as : List α) (bs : List β) : Except Failure (List (α × β)) :=
  if as.length = bs.length then .ok (as.zip bs) else .error (.uncaught "ValueError")

section Scan
variable (ipNetwork : String → Option Network) (str : Address → String)
variable (ipAddress : String → Option Address)

def parseNetworks (cidrs : List String) : List Network := cidrs.filterMap ipNetwork

/-- Another version of the protocol is no reason to stop. -/
def isWithinAllowed (target : Network) (allowed : List Network) : Bool :=
  allowed.any fun network => target.subnetOf network = some true

/-- `ipaddress.ip_address(item["ip"])` raises `ValueError` on a text that is no address. -/
def sortKey (item : Host) : Except Failure (Address × Host) :=
  match ipAddress item.ip with
  | some address => .ok (address, item)
  | none => .error (.uncaught "ValueError")

/-- `results.sort(key=..)`. -/
def sortByAddress (results : List Host) : Except Failure (List Host) := do
  let keyed ← results.mapM (sortKey ipAddress)
  pure ((keyed.mergeSort fun x y => x.1.value ≤ y.1.value).map (·.2))

/-- The loop over the answers of the pool. -/
def openHosts (scanPort : ℕ) (pairs : List (Address × Answer)) : List Host :=
  pairs.filterMap fun (host, isOpen, banner) =>
    if isOpen then some ⟨str host, scanPort, banner⟩ else none

/-- `port or settings.DISCOVERY_SSH_PORT`. -/
def portOr (sshPort : ℕ) : Option ℕ → ℕ
  | none | some 0 => sshPort
  | some port => port

/-- The part of `scan` after the checks. -/
def probeHosts (hosts : List Address) (pool : ∀ n, Finished n) (scanPort : ℕ) : Outcome :=
  if hosts = [] then ⟨[], .ok []⟩
  else
    ⟨hosts.map (·, scanPort), do
      let pairs ← zipStrict hosts (pool hosts.length).inOrder
      sortByAddress ipAddress (openHosts str scanPort pairs)⟩

def scan (settings : Settings) (pool : ∀ n, Finished n) (cidr : String) (port : Option ℕ) : Outcome :=
  if settings.enabled = false then
    ⟨[], .error (.app ⟨.forbidden, "服务器发现功能未启用", 403⟩)⟩
  else
    let allowed := parseNetworks ipNetwork settings.allowedCidrs
    if allowed = [] then ⟨[], .error (.app ⟨.forbidden, "未配置允许扫描的 CIDR 白名单", 403⟩)⟩
    else
      match ipNetwork cidr with
      | none => ⟨[], .error (.app ⟨.badRequest, "CIDR 格式非法", 400⟩)⟩
      | some target =>
        if isWithinAllowed target allowed = false then
          ⟨[], .error (.app ⟨.forbidden, "目标网段超出允许扫描的白名单范围", 403⟩)⟩
        else
          let hosts := target.hosts
          if settings.maxHosts < hosts.length then
            ⟨[], .error (.app ⟨.badRequest, "主机数 " ++ toString hosts.length ++ " 超过上限 " ++
              toString settings.maxHosts ++ "，请缩小网段", 400⟩)⟩
          else
            probeHosts str ipAddress hosts pool (portOr settings.sshPort port)

/-! ## What the allow-list promises -/

/-- The network lies in a single valid entry of the allow-list. -/
def Allowed (settings : Settings) (target : Network) : Prop :=
  ∃ entry ∈ settings.allowedCidrs, ∃ network, ipNetwork entry = some network ∧
    ∀ a, target.Contains a → network.Contains a

/-- The scan is off, has no valid allow-list, or is not for a network that it may probe. -/
def Refused (settings : Settings) (cidr : String) : Prop :=
  settings.enabled = false ∨ (∀ entry ∈ settings.allowedCidrs, ipNetwork entry = none) ∨
    ∀ target, ipNetwork cidr = some target →
      ¬ Allowed ipNetwork settings target ∨ settings.maxHosts < target.hosts.length

/-- A thread found the host open. -/
def FoundOpen (pool : ∀ n, Finished n) (hosts : List Address) (a : Address) : Prop :=
  ∃ (i : ℕ) (banner : Option String), hosts[i]? = some a ∧
    (i, true, banner) ∈ (pool hosts.length).answers

structure Guarded (settings : Settings) (pool : ∀ n, Finished n) (cidr : String) (port : Option ℕ) :
    Prop where
  inside : ∀ p ∈ (scan ipNetwork str ipAddress settings pool cidr port).probed,
    ∃ target, ipNetwork cidr = some target ∧ target.IsHost p.1 ∧
      ∃ entry ∈ settings.allowedCidrs, ∃ network, ipNetwork entry = some network ∧ network.Contains p.1
  count : ((scan ipNetwork str ipAddress settings pool cidr port).probed.length : ℤ) ≤
    max settings.maxHosts 0
  refused : Refused ipNetwork settings cidr →
    (scan ipNetwork str ipAddress settings pool cidr port).probed = [] ∧
      ∃ e, (scan ipNetwork str ipAddress settings pool cidr port).result = .error (.app e)
  accepted : ¬ Refused ipNetwork settings cidr →
    ∃ results, (scan ipNetwork str ipAddress settings pool cidr port).result = .ok results
  invalid : ∀ cidrs, cidrs.filter (fun c => (ipNetwork c).isSome) =
      settings.allowedCidrs.filter (fun c => (ipNetwork c).isSome) →
    scan ipNetwork str ipAddress { settings with allowedCidrs := cidrs } pool cidr port =
      scan ipNetwork str ipAddress settings pool cidr port
  listed : ∀ results, (scan ipNetwork str ipAddress settings pool cidr port).result = .ok results →
    ∃ addresses : List Address, results.map (·.ip) = addresses.map str ∧
      addresses.Pairwise (fun a b => a.value < b.value) ∧
      ∀ a, a ∈ addresses ↔ FoundOpen pool
        ((scan ipNetwork str ipAddress settings pool cidr port).probed.map Prod.fst) a

variable {ipNetwork str ipAddress} {settings : Settings} {pool : ∀ n, Finished n} {cidr : String}
variable {port : Option ℕ}

/-! ## The pool -/

theorem map_some_filterMap {α β : Type} {f : α → Option β} {l : List α} (h : ∀ a ∈ l, (f a).isSome) :
    (l.filterMap f).map some = l.map f := by
  induction l with
  | nil => rfl
  | cons a l ih =>
    obtain ⟨b, hb⟩ := Option.isSome_iff_exists.mp (h a List.mem_cons_self)
    rw [List.filterMap_cons_some hb, List.map_cons, List.map_cons, hb,
      ih fun x hx => h x (List.mem_cons_of_mem _ hx)]

/-- Every host has one answer. -/
theorem Finished.find?_eq_some {n i : ℕ} (finished : Finished n) {answer : Answer} :
    (finished.answers.find? (·.1 = i)).map (·.2) = some answer ↔ (i, answer) ∈ finished.answers := by
  have hnodup : (finished.answers.map Prod.fst).Nodup := finished.perm.nodup_iff.mpr List.nodup_range
  constructor
  · intro h
    obtain ⟨p, hp, rfl⟩ := Option.map_eq_some_iff.mp h
    have hkey : p.1 = i := by simpa using List.find?_some hp
    rw [← hkey]
    exact List.mem_of_find?_eq_some hp
  · intro h
    obtain ⟨p, hp⟩ : ∃ p, finished.answers.find? (·.1 = i) = some p := by
      rw [← Option.isSome_iff_exists, List.find?_isSome]
      exact ⟨_, h, decide_eq_true rfl⟩
    have hkey : p.1 = i := by simpa using List.find?_some hp
    rw [hp, List.inj_on_of_nodup_map hnodup (List.mem_of_find?_eq_some hp) h hkey]
    rfl

theorem Finished.map_inOrder {n : ℕ} (finished : Finished n) : finished.inOrder.map some =
    (List.range n).map fun i => (finished.answers.find? (·.1 = i)).map (·.2) := by
  refine map_some_filterMap fun i hi => ?_
  obtain ⟨p, hp, rfl⟩ := List.mem_map.mp (finished.perm.mem_iff.mpr hi)
  rw [finished.find?_eq_some.mpr hp]
  rfl

@[simp] theorem Finished.length_inOrder {n : ℕ} (finished : Finished n) : finished.inOrder.length = n := by
  have hlength := congrArg List.length finished.map_inOrder
  simpa using hlength

/-- The results come back in the order of the hosts, whatever order the threads finish in. -/
theorem Finished.getElem?_inOrder {n i : ℕ} (finished : Finished n) {answer : Answer} :
    finished.inOrder[i]? = some answer ↔ (i, answer) ∈ finished.answers := by
  rw [← finished.find?_eq_some]
  have hget := congrArg (·[i]?) finished.map_inOrder
  simp only [List.getElem?_map] at hget
  by_cases hi : i < n
  · rw [List.getElem?_range hi, Option.map_some] at hget
    cases hanswer : finished.inOrder[i]? with
    | none =>
      rw [hanswer] at hget
      cases hget
    | some b =>
      rw [hanswer, Option.map_some] at hget
      rw [← Option.some.inj hget]
  · have hnone : finished.inOrder[i]? = none := by
      rw [List.getElem?_eq_none_iff, finished.length_inOrder]
      exact not_lt.mp hi
    rw [hnone]
    refine iff_of_false (by simp) fun h => hi ?_
    have hmem := finished.find?_eq_some.mp h
    exact List.mem_range.mp (finished.perm.mem_iff.mp (List.mem_map_of_mem hmem))

/-! ## The answer -/

/-- The open hosts with their entries. -/
def foundHosts (str : Address → String) (scanPort : ℕ) (pairs : List (Address × Answer)) :
    List (Address × Host) :=
  pairs.filterMap fun (host, isOpen, banner) =>
    if isOpen then some (host, ⟨str host, scanPort, banner⟩) else none

theorem openHosts_eq (scanPort : ℕ) (pairs : List (Address × Answer)) :
    openHosts str scanPort pairs = (foundHosts str scanPort pairs).map (·.2) := by
  rw [openHosts, foundHosts, List.map_filterMap]
  refine List.filterMap_congr fun p _ => ?_
  obtain ⟨host, isOpen, banner⟩ := p
  cases isOpen <;> rfl

theorem mem_foundHosts {scanPort : ℕ} {pairs : List (Address × Answer)} {p : Address × Host} :
    p ∈ foundHosts str scanPort pairs ↔
      ∃ banner, (p.1, true, banner) ∈ pairs ∧ p.2 = ⟨str p.1, scanPort, banner⟩ := by
  rw [foundHosts, List.mem_filterMap]
  constructor
  · rintro ⟨⟨host, isOpen, banner⟩, hmem, h⟩
    cases isOpen with
    | false => cases h
    | true =>
      obtain rfl := Option.some.inj h
      exact ⟨banner, hmem, rfl⟩
  · rintro ⟨banner, hmem, hp⟩
    refine ⟨_, hmem, ?_⟩
    dsimp only
    rw [if_pos rfl, ← hp]

theorem foundHosts_sublist (scanPort : ℕ) (pairs : List (Address × Answer)) :
    ((foundHosts str scanPort pairs).map (·.1)).Sublist (pairs.map (·.1)) := by
  induction pairs with
  | nil => exact .slnil
  | cons p pairs ih =>
    obtain ⟨host, isOpen, banner⟩ := p
    cases isOpen with
    | false => exact ih.cons _
    | true => exact ih.cons_cons _

/-- Entries that are in order already stay where they are. -/
theorem sortByAddress_eq {found : List (Address × Host)}
    (hkey : ∀ p ∈ found, ipAddress p.2.ip = some p.1)
    (hsorted : (found.map (·.1)).Pairwise fun a b => a.value < b.value) :
    sortByAddress ipAddress (found.map (·.2)) = .ok (found.map (·.2)) := by
  have hkeys : (found.map (·.2)).mapM (sortKey ipAddress) = .ok found := by
    clear hsorted
    induction found with
    | nil => rfl
    | cons p found ih =>
      rw [List.map_cons, List.mapM_cons, sortKey, hkey p List.mem_cons_self,
        ih fun q hq => hkey q (List.mem_cons_of_mem _ hq)]
      rfl
  have hpairwise : found.Pairwise fun x y => decide (x.1.value ≤ y.1.value) = true :=
    (List.pairwise_map.mp hsorted).imp fun hlt => decide_eq_true hlt.le
  rw [sortByAddress, hkeys]
  exact congrArg (fun l => Except.ok (l.map (·.2))) (List.mergeSort_of_pairwise hpairwise)

/-- What the probes of the hosts of a network give. -/
theorem probeHosts_listed {target : Network} (scanPort : ℕ)
    (haddress : ∀ a ∈ target.hosts, ipAddress (str a) = some a) :
    ∃ results, (probeHosts str ipAddress target.hosts pool scanPort).result = .ok results ∧
      ∃ addresses : List Address, results.map (·.ip) = addresses.map str ∧
        addresses.Pairwise (fun a b => a.value < b.value) ∧
        ∀ a, a ∈ addresses ↔ FoundOpen pool target.hosts a := by
  by_cases hnone : target.hosts = []
  · rw [probeHosts, if_pos hnone]
    refine ⟨[], rfl, [], rfl, .nil, fun a => iff_of_false List.not_mem_nil ?_⟩
    rintro ⟨i, banner, hget, -⟩
    rw [hnone] at hget
    cases hget
  have hlength : target.hosts.length = (pool target.hosts.length).inOrder.length := by
    rw [Finished.length_inOrder]
  obtain ⟨pairs, hpairs⟩ : ∃ pairs, pairs = target.hosts.zip (pool target.hosts.length).inOrder := ⟨_, rfl⟩
  have hfirst : pairs.map (·.1) = target.hosts := by
    rw [hpairs, List.map_fst_zip hlength.le]
  have hsorted : ((foundHosts str scanPort pairs).map (·.1)).Pairwise fun a b => a.value < b.value :=
    target.hosts_sorted.sublist (hfirst ▸ foundHosts_sublist scanPort pairs)
  have hkey : ∀ p ∈ foundHosts str scanPort pairs, ipAddress p.2.ip = some p.1 := by
    intro p hp
    obtain ⟨banner, hmem, heq⟩ := mem_foundHosts.mp hp
    rw [heq]
    exact haddress p.1 (hfirst ▸ List.mem_map_of_mem hmem)
  have hresult : (probeHosts str ipAddress target.hosts pool scanPort).result =
      .ok ((foundHosts str scanPort pairs).map (·.2)) := by
    rw [probeHosts, if_neg hnone, zipStrict, if_pos hlength]
    change sortByAddress ipAddress (openHosts str scanPort _) = _
    rw [← hpairs, openHosts_eq, sortByAddress_eq hkey hsorted]
  refine ⟨_, hresult, (foundHosts str scanPort pairs).map (·.1), ?_, hsorted, fun a => ?_⟩
  · rw [List.map_map, List.map_map]
    refine List.map_congr_left fun p hp => ?_
    obtain ⟨banner, -, heq⟩ := mem_foundHosts.mp hp
    rw [Function.comp_apply, Function.comp_apply, heq]
  · have hmem : ∀ answer, (a, answer) ∈ pairs ↔ ∃ i, target.hosts[i]? = some a ∧
        (i, answer) ∈ (pool target.hosts.length).answers := by
      intro answer
      rw [hpairs, List.mem_iff_getElem?]
      refine exists_congr fun i => ?_
      rw [List.getElem?_zip_eq_some, Finished.getElem?_inOrder]
    rw [List.mem_map]
    constructor
    · rintro ⟨p, hp, rfl⟩
      obtain ⟨banner, hpair, -⟩ := mem_foundHosts.mp hp
      obtain ⟨i, hget, hanswer⟩ := (hmem _).mp hpair
      exact ⟨i, banner, hget, hanswer⟩
    · rintro ⟨i, banner, hget, hanswer⟩
      exact ⟨(a, ⟨str a, scanPort, banner⟩),
        mem_foundHosts.mpr ⟨banner, (hmem _).mpr ⟨i, hget, hanswer⟩, rfl⟩, rfl⟩

/-! ## The checks -/

theorem mem_parseNetworks {cidrs : List String} {network : Network} :
    network ∈ parseNetworks ipNetwork cidrs ↔ ∃ entry ∈ cidrs, ipNetwork entry = some network :=
  List.mem_filterMap

theorem isWithinAllowed_iff {target : Network} :
    isWithinAllowed target (parseNetworks ipNetwork settings.allowedCidrs) = true ↔
      Allowed ipNetwork settings target := by
  rw [isWithinAllowed, List.any_eq_true, Allowed]
  simp only [decide_eq_true_eq, Network.subnetOf_iff]
  constructor
  · rintro ⟨network, hnetwork, hsub⟩
    obtain ⟨entry, hentry, hparse⟩ := mem_parseNetworks.mp hnetwork
    exact ⟨entry, hentry, network, hparse, hsub⟩
  · rintro ⟨entry, hentry, network, hparse, hsub⟩
    exact ⟨network, mem_parseNetworks.mpr ⟨entry, hentry, hparse⟩, hsub⟩

theorem parseNetworks_eq_nil : parseNetworks ipNetwork settings.allowedCidrs = [] ↔
    ∀ entry ∈ settings.allowedCidrs, ipNetwork entry = none := List.filterMap_eq_nil_iff

/-- A scan is refused before the first probe, or probes the hosts of an allowed network. -/
theorem scan_cases (settings : Settings) (pool : ∀ n, Finished n) (cidr : String) (port : Option ℕ) :
    Refused ipNetwork settings cidr ∧
      (∃ e, scan ipNetwork str ipAddress settings pool cidr port = ⟨[], .error (.app e)⟩) ∨
    ¬ Refused ipNetwork settings cidr ∧ ∃ target, ipNetwork cidr = some target ∧
      Allowed ipNetwork settings target ∧ (target.hosts.length : ℤ) ≤ settings.maxHosts ∧
      scan ipNetwork str ipAddress settings pool cidr port =
        probeHosts str ipAddress target.hosts pool (portOr settings.sshPort port) := by
  unfold scan Refused
  dsimp only
  split_ifs with henabled hallowed
  · exact .inl ⟨.inl henabled, _, rfl⟩
  · exact .inl ⟨.inr (.inl (parseNetworks_eq_nil.mp hallowed)), _, rfl⟩
  · cases hcidr : ipNetwork cidr with
    | none => exact .inl ⟨.inr (.inr (by simp)), _, rfl⟩
    | some target =>
      dsimp only
      split_ifs with hwithin hmany
      · refine .inl ⟨.inr (.inr fun t ht => .inl fun h => ?_), _, rfl⟩
        rw [← Option.some.inj ht, ← isWithinAllowed_iff, hwithin] at h
        cases h
      · refine .inl ⟨.inr (.inr fun t ht => .inr ?_), _, rfl⟩
        rwa [← Option.some.inj ht]
      · have hin : Allowed ipNetwork settings target :=
          isWithinAllowed_iff.mp ((Bool.not_eq_false _).mp hwithin)
        refine .inr ⟨?_, target, rfl, hin, not_lt.mp hmany, rfl⟩
        rintro (hoff | hnone | hbad)
        · exact henabled hoff
        · exact hallowed (parseNetworks_eq_nil.mpr hnone)
        · exact (hbad target rfl).elim (fun h => h hin) hmany

/-- The entries that do not parse play no part. -/
theorem parseNetworks_filter (cidrs : List String) :
    parseNetworks ipNetwork (cidrs.filter fun c => (ipNetwork c).isSome) = parseNetworks ipNetwork cidrs := by
  rw [parseNetworks, List.filterMap_filter, parseNetworks]
  refine List.filterMap_congr fun c _ => ?_
  cases ipNetwork c <;> rfl

theorem probed_probeHosts (hosts : List Address) (scanPort : ℕ) :
    (probeHosts str ipAddress hosts pool scanPort).probed = hosts.map (·, scanPort) := by
  unfold probeHosts
  split_ifs with hnone
  · rw [hnone]
    rfl
  · rfl

end Scan

/-! ## A scan of two hosts -/

def networkOf (version : Ip.Version) (prefixLength base : ℕ)
    (h : prefixLength ≤ version.bits ∧ base < 2 ^ version.bits ∧ 2 ^ (version.bits - prefixLength) ∣ base) :
    Network := ⟨version, prefixLength, base, h.1, h.2.1, h.2.2⟩

/-- The parser on the texts of the scan. -/
def smallNetworks (cidr : String) : Option Network :=
  if cidr = "10.0.0.0/24" then some (networkOf .v4 24 167772160 (by decide))
  else if cidr = "10.0.0.4/30" then some (networkOf .v4 30 167772164 (by decide))
  else none

/-- The dotted form of an IPv4 address. -/
def dotted (a : Address) : String :=
  toString (a.value / 2 ^ 24) ++ "." ++ toString (a.value / 2 ^ 16 % 256) ++ "." ++
    toString (a.value / 2 ^ 8 % 256) ++ "." ++ toString (a.value % 256)

def smallAddresses (text : String) : Option Address :=
  if text = "10.0.0.5" then some ⟨.v4, 167772165⟩
  else if text = "10.0.0.6" then some ⟨.v4, 167772166⟩
  else none

/-- Threads that find every port closed. -/
def allClosed (n : ℕ) : Finished n where
  answers := (List.range n).map fun i => (i, false, none)
  perm := by
    rw [List.map_map]
    exact .of_eq (List.map_id _)

end OpsMonitor.Discovery
