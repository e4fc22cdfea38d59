import OpsMonitor.Library.Words

/-! The installation package of the agent (`services/agent_package.py`), which the platform gives to
anyone who asks. Paths are lists of their parts. -/

namespace OpsMonitor.AgentPackage
open Library

/-! ## The bundle -/

/-- A file with its content or a directory. -/
structure Entry where
  path : List String
  content : Option String
  deriving DecidableEq

def Entry.name (entry : Entry) : String := entry.path.getLast?.getD ""

/-- What `rglob("*")` finds below a directory, sorted: the directory of each entry is there too. -/
structure Tree where
  entries : List Entry
  sorted : entries.Pairwise (·.path < ·.path)
  closed : ∀ entry ∈ entries, entry.path.dropLast = [] ∨ ⟨entry.path.dropLast, none⟩ ∈ entries

/-- `is_file()`, and what the file holds. -/
def Tree.file (tree : Tree) (path : List String) : Option String :=
  (tree.entries.find? (·.path = path)).bind (·.content)

inductive Runtime
  | python | go
  deriving DecidableEq

def Runtime.name : Runtime → String
  | .python => "python"
  | .go => "go"

/-- The bundle directory, by the parts of its path. -/
structure BundleRoot where
  location : List String
  agent : Tree
  agentGo : Tree
  systemd : String → Option String

def agentDir (root : BundleRoot) : Runtime → Tree
  | .python => root.agent
  | .go => root.agentGo

def systemdFile : Runtime → String
  | .python => "server-agent.service"
  | .go => "server-agent-go.service"

/-! ## The package -/

def EXCLUDE_PARTS : List String := [".venv", "__pycache__", "tests", ".pytest_cache", ".git"]

def EXCLUDE_FILES : List String := ["config.yaml"]

def DEFAULT_VERSION : String := "1.0.0"

def PACKAGE_PREFIX : String := "ops-agent"

/-- `AgentPackageError`. -/
inductive PackageError
  | incomplete (runtime : Runtime) (root : List String)
  | noBinaries (distDir : List String)
  deriving DecidableEq

def normalizeRuntime (runtime : Option String) : Runtime :=
  if runtime = some "go" then .go else .python

def agentVersion (root : BundleRoot) (runtime : Runtime) : String :=
  match (agentDir root runtime).file ["VERSION"] with
  | some text => if trim isStrSpace (newlines text) = "" then DEFAULT_VERSION else trim isStrSpace (newlines text)
  | none => DEFAULT_VERSION

/-- What `_add_tree` takes of the entries of a directory, whose own path is `source`. -/
def addTree (source : List String) (tree : Tree) (arcname : List String) : List Entry :=
  (tree.entries.filter fun entry =>
    !(source ++ entry.path).any (· ∈ EXCLUDE_PARTS) && !decide (entry.name ∈ EXCLUDE_FILES) &&
      entry.content.isSome).map fun entry => ⟨arcname ++ entry.path, entry.content⟩

def buildPythonPackage (root : BundleRoot) (systemd installScript version : String) : List Entry :=
  [⟨[PACKAGE_PREFIX, "install.sh"], some installScript⟩, ⟨[PACKAGE_PREFIX, "VERSION"], some (version ++ "\n")⟩] ++
    addTree (root.location ++ ["agent"]) root.agent [PACKAGE_PREFIX, "agent"] ++
    [⟨[PACKAGE_PREFIX, "deploy", "systemd", systemdFile .python], some systemd⟩]

/-- Whether a path lies in an entry that `dist_dir.glob("ops-agent-*")` finds. -/
def isBinary : List String → Bool
  | "dist" :: name :: _ => "ops-agent-".toList.isPrefixOf name.toList
  | _ => false

/-- The binaries. `tar.add` takes a directory with all that is in it. -/
def binaries (tree : Tree) : List Entry := tree.entries.filter fun entry => isBinary entry.path

def goMembers (root : BundleRoot) (systemd installScript version : String) : List Entry :=
  [⟨[PACKAGE_PREFIX, "install.sh"], some installScript⟩, ⟨[PACKAGE_PREFIX, "VERSION"], some (version ++ "\n")⟩] ++
    (match root.agentGo.file ["config", "config.yaml.example"] with
      | some text => [⟨[PACKAGE_PREFIX, "config", "config.yaml.example"], some text⟩]
      | none => []) ++
    (binaries root.agentGo).map (fun entry => ⟨PACKAGE_PREFIX :: entry.path, entry.content⟩) ++
    [⟨[PACKAGE_PREFIX, "deploy", "systemd", systemdFile .go], some systemd⟩]

def buildGoPackage (root : BundleRoot) (systemd installScript version : String) :
    Except PackageError (List Entry) :=
  if (binaries root.agentGo).any (·.path.length = 2) then .ok (goMembers root systemd installScript version)
  else .error (.noBinaries (root.location ++ ["agent-go", "dist"]))

/-- The members of the archive and the name of the file. -/
def buildAgentPackage (root : BundleRoot) (runtime : Option String) :
    Except PackageError (List Entry × String) :=
  let runtime := normalizeRuntime runtime
  match root.systemd (systemdFile runtime), (agentDir root runtime).file ["install.sh"] with
  | some systemd, some installScript => do
    let version := agentVersion root runtime
    let members ← match runtime with
      | .go => buildGoPackage root systemd installScript version
      | .python => pure (buildPythonPackage root systemd installScript version)
    return (members, PACKAGE_PREFIX ++ "-" ++ runtime.name ++ "-" ++ version ++ ".tar.gz")
  | _, _ => .error (.incomplete runtime root.location)

example : normalizeRuntime (some "rust") = .python := rfl

/-! ## What the package may hold -/

/-- Where the agent keeps its private key, beside its configuration, unless the configuration says
otherwise. -/
def keyFile : List String := ["config", "agent_ed25519.key"]

/-- An excluded directory or something in it, a `config.yaml` file, or the private key. -/
def Tree.exempt (tree : Tree) (entry : Entry) : Bool :=
  (tree.entries.any fun directory => decide (directory.content = none) &&
    decide (directory.name ∈ EXCLUDE_PARTS) && directory.path.isPrefixOf entry.path) ||
  entry.content.isSome && (decide (entry.name ∈ EXCLUDE_FILES) || decide (entry.path = keyFile))

def Tree.released (tree : Tree) : List Entry := tree.entries.filter fun entry => !tree.exempt entry

/-- The agent trees of two bundles are the same apart from what is exempt. -/
def SameRelease (first second : BundleRoot) : Prop :=
  ∀ runtime, (agentDir first runtime).released = (agentDir second runtime).released

/-- A `config.yaml` or the private key, as a member of a package. -/
def IsSecret (member : Entry) : Prop :=
  member.content.isSome ∧ (member.name = "config.yaml" ∨
    member.path = [PACKAGE_PREFIX, "agent"] ++ keyFile ∨ member.path = PACKAGE_PREFIX :: keyFile)

def NoSecret (root : BundleRoot) (runtime : Option String) : Prop :=
  ∀ package, (buildAgentPackage root runtime).toOption = some package → ∀ member ∈ package.1, ¬ IsSecret member

/-- Both bundles give the same package, and nothing secret is in it. -/
def ShipsOnlyReleased (first second : BundleRoot) : Prop :=
  ∀ runtime, (buildAgentPackage first runtime).toOption = (buildAgentPackage second runtime).toOption ∧
    NoSecret first runtime ∧ NoSecret second runtime

/-! ## When it holds no more -/

def Relocated (root : BundleRoot) : Prop := ∃ part ∈ root.location, part ∈ EXCLUDE_PARTS

def HoldsKey (root : BundleRoot) : Prop := (root.agent.file keyFile).isSome

/-- If the package can be built: the bundles have the same template, none lies below a directory with
an excluded name (or both do, and nothing of the agent is in the package), and none holds the key. -/
def PythonClean (first second : BundleRoot) : Prop :=
  (first.agent.file ["install.sh"]).isSome →
    first.systemd (systemdFile .python) = second.systemd (systemdFile .python) ∧
    ((first.systemd (systemdFile .python)).isSome →
      Relocated first ∧ Relocated second ∨
      (¬ Relocated first ∧ ¬ Relocated second) ∧ ¬ HoldsKey first ∧ ¬ HoldsKey second)

/-- If the package can be built: the bundles have the same template, and in both the directories
`dist/ops-agent-*` hold the same, without a `config.yaml`. -/
def GoClean (first second : BundleRoot) : Prop :=
  (first.agentGo.file ["install.sh"]).isSome →
    (∃ entry ∈ first.agentGo.entries, isBinary entry.path ∧ entry.path.length = 2) →
    first.systemd (systemdFile .go) = second.systemd (systemdFile .go) ∧
    ((first.systemd (systemdFile .go)).isSome →
      (∀ entry, isBinary entry.path → (entry ∈ first.agentGo.entries ↔ entry ∈ second.agentGo.entries)) ∧
      ∀ entry ∈ first.agentGo.entries, isBinary entry.path → entry.name = "config.yaml" → entry.content = none)

/-! ## Trees -/

section
variable {tree : Tree} {entry : Entry} {path : List String} {text : String} {first second : BundleRoot}

theorem Tree.nodup_paths (tree : Tree) : (tree.entries.map (·.path)).Nodup :=
  List.pairwise_map.mpr (tree.sorted.imp fun hlt => hlt.ne)

theorem Tree.file_eq_some : tree.file path = some text ↔ ⟨path, some text⟩ ∈ tree.entries := by
  constructor
  · intro h
    obtain ⟨entry, hfind, hcontent⟩ := Option.bind_eq_some_iff.mp h
    have hpath : entry.path = path := by simpa using List.find?_some hfind
    have hentry : entry = ⟨path, some text⟩ := by
      rw [← hpath, ← hcontent]
    exact hentry ▸ List.mem_of_find?_eq_some hfind
  · intro h
    have hsome : (tree.entries.find? (·.path = path)).isSome :=
      List.find?_isSome.mpr ⟨⟨path, some text⟩, h, by simp⟩
    obtain ⟨entry, hfind⟩ := Option.isSome_iff_exists.mp hsome
    have hpath : entry.path = path := by simpa using List.find?_some hfind
    have hentry := List.inj_on_of_nodup_map tree.nodup_paths (List.mem_of_find?_eq_some hfind) h hpath
    rw [Tree.file, hfind, hentry, Option.bind_some]

theorem Entry.name_mem (h : entry.name ∈ EXCLUDE_PARTS) : entry.name ∈ entry.path := by
  unfold Entry.name at h ⊢
  cases hlast : entry.path.getLast? with
  | none =>
    rw [hlast] at h
    exact absurd h (by decide)
  | some name => exact List.mem_of_getLast? hlast

/-- An entry with none of the names and of another path than the key is not exempt. -/
theorem Tree.exempt_eq_false (tree : Tree) (hparts : ∀ part ∈ entry.path, part ∉ EXCLUDE_PARTS)
    (hname : entry.name ∉ EXCLUDE_FILES) (hkey : entry.path ≠ keyFile) : tree.exempt entry = false := by
  have hdirs : (tree.entries.any fun directory => decide (directory.content = none) &&
      decide (directory.name ∈ EXCLUDE_PARTS) && directory.path.isPrefixOf entry.path) = false := by
    refine List.any_eq_false.mpr fun directory _ h => ?_
    simp only [Bool.and_eq_true, decide_eq_true_eq, List.isPrefixOf_iff_prefix] at h
    exact hparts _ (h.2.subset (directory.name_mem h.1.2)) h.1.2
  rw [Tree.exempt, hdirs]
  simp [hname, hkey]

/-- Such an entry is in both trees or in none. -/
theorem mem_entries_iff {other : Tree} (h : tree.released = other.released)
    (hparts : ∀ part ∈ entry.path, part ∉ EXCLUDE_PARTS) (hname : entry.name ∉ EXCLUDE_FILES)
    (hkey : entry.path ≠ keyFile) : entry ∈ tree.entries ↔ entry ∈ other.entries := by
  have hmem := fun tree : Tree => @List.mem_filter _ (fun entry => !tree.exempt entry) tree.entries entry
  have hreleased : entry ∈ tree.released ↔ entry ∈ other.released := by rw [h]
  rw [Tree.released, Tree.released, hmem, hmem, Tree.exempt_eq_false _ hparts hname hkey,
    Tree.exempt_eq_false _ hparts hname hkey] at hreleased
  simpa using hreleased

theorem file_eq {other : Tree} (h : tree.released = other.released)
    (hparts : ∀ part ∈ path, part ∉ EXCLUDE_PARTS) (hname : path.getLast?.getD "" ∉ EXCLUDE_FILES)
    (hkey : path ≠ keyFile) : tree.file path = other.file path := by
  refine Option.ext fun text => ?_
  rw [Tree.file_eq_some, Tree.file_eq_some]
  exact mem_entries_iff h hparts hname hkey

/-- Parts of two trees are equal when they hold the same. -/
theorem filter_eq {other : Tree} {p : Entry → Bool}
    (h : ∀ entry, p entry = true → (entry ∈ tree.entries ↔ entry ∈ other.entries)) :
    tree.entries.filter p = other.entries.filter p := by
  have hnodup : ∀ tree : Tree, (tree.entries.filter p).Nodup := by
    intro tree
    exact (List.Nodup.of_map _ tree.nodup_paths).filter _
  have hperm : (tree.entries.filter p).Perm (other.entries.filter p) := by
    refine (List.perm_ext_iff_of_nodup (hnodup tree) (hnodup other)).mpr fun entry => ?_
    rw [List.mem_filter, List.mem_filter]
    exact and_congr_left (h entry)
  refine hperm.eq_of_pairwise (fun a b _ _ hab hba => ?_) (tree.sorted.filter p) (other.sorted.filter p)
  exact absurd hab hba.asymm

/-! ## The Python package -/

theorem addTree_of_relocated (h : Relocated first) (arcname : List String) :
    addTree (first.location ++ ["agent"]) first.agent arcname = [] := by
  obtain ⟨part, hpart, hexcluded⟩ := h
  refine List.map_eq_nil_iff.mpr (List.filter_eq_nil_iff.mpr fun entry _ => ?_)
  have hany : ((first.location ++ ["agent"] ++ entry.path).any (· ∈ EXCLUDE_PARTS)) = true :=
    List.any_eq_true.mpr ⟨part, by simp [hpart], decide_eq_true hexcluded⟩
  rw [hany]
  simp

/-- Whether `_add_tree` takes the entry, if the bundle lies elsewhere. -/
def taken (entry : Entry) : Bool :=
  !entry.path.any (· ∈ EXCLUDE_PARTS) && !decide (entry.name ∈ EXCLUDE_FILES) && entry.content.isSome

theorem addTree_eq (h : ¬ Relocated first) (arcname : List String) :
    addTree (first.location ++ ["agent"]) first.agent arcname =
      (first.agent.entries.filter taken).map fun entry => ⟨arcname ++ entry.path, entry.content⟩ := by
  have hlocation : (first.location ++ ["agent"]).any (· ∈ EXCLUDE_PARTS) = false := by
    refine List.any_eq_false.mpr fun part hpart hexcluded => ?_
    rw [decide_eq_true_eq] at hexcluded
    rcases List.mem_append.mp hpart with hpart | hpart
    · exact h ⟨part, hpart, hexcluded⟩
    · rw [List.mem_singleton.mp hpart] at hexcluded
      exact absurd hexcluded (by decide)
  unfold addTree
  congr 1
  refine List.filter_congr fun entry _ => ?_
  rw [List.any_append, hlocation, Bool.false_or]
  rfl

theorem taken_iff : taken entry = true ↔
    (∀ part ∈ entry.path, part ∉ EXCLUDE_PARTS) ∧ entry.name ∉ EXCLUDE_FILES ∧ entry.content.isSome := by
  simp [taken, and_assoc]

theorem buildAgentPackage_none {runtime : Option String}
    (h : first.systemd (systemdFile (normalizeRuntime runtime)) = none ∨
      (agentDir first (normalizeRuntime runtime)).file ["install.sh"] = none) :
    (buildAgentPackage first runtime).toOption = none := by
  rcases h with h | h
  · simp [buildAgentPackage, h, Except.toOption]
  · cases hs : first.systemd (systemdFile (normalizeRuntime runtime)) <;>
      simp [buildAgentPackage, h, hs, Except.toOption]

def packageName (root : BundleRoot) (runtime : Runtime) : String :=
  PACKAGE_PREFIX ++ "-" ++ runtime.name ++ "-" ++ agentVersion root runtime ++ ".tar.gz"

theorem buildAgentPackage_python {runtime : Option String} {systemd installScript : String}
    (hr : normalizeRuntime runtime = .python) (hs : first.systemd (systemdFile .python) = some systemd)
    (hi : first.agent.file ["install.sh"] = some installScript) :
    (buildAgentPackage first runtime).toOption =
      some (buildPythonPackage first systemd installScript (agentVersion first .python), packageName first .python) := by
  unfold buildAgentPackage
  rw [hr]
  dsimp only [agentDir]
  rw [hs, hi]
  rfl

theorem agentVersion_eq (h : SameRelease first second) (runtime : Runtime) :
    agentVersion first runtime = agentVersion second runtime := by
  have hfile : (agentDir first runtime).file ["VERSION"] = (agentDir second runtime).file ["VERSION"] :=
    file_eq (h runtime) (by decide) (by decide) (by decide)
  rw [agentVersion, agentVersion, hfile]

theorem installScript_eq (h : SameRelease first second) (runtime : Runtime) :
    (agentDir first runtime).file ["install.sh"] = (agentDir second runtime).file ["install.sh"] :=
  file_eq (h runtime) (by decide) (by decide) (by decide)

/-- The key is in the package if it is in the bundle. -/
theorem holdsKey_iff : HoldsKey first ↔ ∃ text, ⟨keyFile, some text⟩ ∈ first.agent.entries.filter taken := by
  have hparts : ∀ part ∈ keyFile, part ∉ EXCLUDE_PARTS := by decide
  have hname : keyFile.getLast?.getD "" ∉ EXCLUDE_FILES := by decide
  have htaken : ∀ text, taken ⟨keyFile, some text⟩ = true := fun text =>
    taken_iff.mpr ⟨hparts, hname, rfl⟩
  rw [HoldsKey, Option.isSome_iff_exists]
  refine exists_congr fun text => ?_
  rw [Tree.file_eq_some, List.mem_filter, htaken, and_iff_left rfl]

theorem taken_filter_eq (h : SameRelease first second) (hfirst : ¬ HoldsKey first) (hsecond : ¬ HoldsKey second) :
    first.agent.entries.filter taken = second.agent.entries.filter taken := by
  refine filter_eq fun entry htaken => ?_
  obtain ⟨hparts, hname, hcontent⟩ := taken_iff.mp htaken
  obtain ⟨text, hcontent⟩ := Option.isSome_iff_exists.mp hcontent
  by_cases hkey : entry.path = keyFile
  · have hentry : entry = ⟨keyFile, some text⟩ := by rw [← hkey, ← hcontent]
    have hnone : ∀ root, ¬ HoldsKey root → entry ∉ root.agent.entries := by
      intro root hroot hmem
      exact hroot (holdsKey_iff.mpr ⟨text, List.mem_filter.mpr ⟨hentry ▸ hmem, hentry ▸ htaken⟩⟩)
    exact iff_of_false (hnone first hfirst) (hnone second hsecond)
  · exact mem_entries_iff (h .python) hparts hname hkey

/-- What the archive holds beside the tree is not secret. -/
theorem not_isSecret_of_mem {name : String} {content : Option String} {dir : List String}
    (hname : name ∉ ["config.yaml", "agent_ed25519.key"]) : ¬ IsSecret ⟨dir ++ [name], content⟩ := by
  rintro ⟨-, h | h | h⟩
  · rw [Entry.name, List.getLast?_concat, Option.getD_some] at h
    exact hname (List.mem_cons.mpr (Or.inl h))
  · have hlast := congrArg List.getLast? h
    rw [List.getLast?_concat] at hlast
    exact hname (Option.some.inj hlast ▸ by decide)
  · have hlast := congrArg List.getLast? h
    rw [List.getLast?_concat] at hlast
    exact hname (Option.some.inj hlast ▸ by decide)

theorem isSecret_agent_iff (h : taken entry = true) :
    IsSecret ⟨[PACKAGE_PREFIX, "agent"] ++ entry.path, entry.content⟩ ↔ entry.path = keyFile := by
  obtain ⟨-, hname, hcontent⟩ := taken_iff.mp h
  have hconfig : Entry.name ⟨[PACKAGE_PREFIX, "agent"] ++ entry.path, entry.content⟩ ≠ "config.yaml" := by
    intro heq
    cases hlast : entry.path.getLast? with
    | none =>
      rw [List.getLast?_eq_none_iff.mp hlast] at heq
      have hne : "agent" ≠ "config.yaml" := by decide
      exact hne heq
    | some name =>
      rw [Entry.name, List.getLast?_append, hlast] at heq
      rw [Entry.name, hlast] at hname
      exact hname (List.mem_singleton.mpr heq)
  constructor
  · rintro ⟨-, hsecret | hsecret | hsecret⟩
    · exact absurd hsecret hconfig
    · exact List.append_cancel_left hsecret
    · exact absurd hsecret (by simp [keyFile])
  · intro hkey
    exact ⟨hcontent, Or.inr (Or.inl (congrArg ([PACKAGE_PREFIX, "agent"] ++ ·) hkey))⟩

theorem noSecret_python {runtime : Option String} {systemd installScript : String}
    (hr : normalizeRuntime runtime = .python) (hs : first.systemd (systemdFile .python) = some systemd)
    (hi : first.agent.file ["install.sh"] = some installScript) :
    NoSecret first runtime ↔ Relocated first ∨ ¬ HoldsKey first := by
  have hpackage := buildAgentPackage_python hr hs hi
  have hinstall : ∀ content, ¬ IsSecret ⟨[PACKAGE_PREFIX, "install.sh"], content⟩ := fun content =>
    @not_isSecret_of_mem _ content [PACKAGE_PREFIX] (by decide)
  have hversion : ∀ content, ¬ IsSecret ⟨[PACKAGE_PREFIX, "VERSION"], content⟩ := fun content =>
    @not_isSecret_of_mem _ content [PACKAGE_PREFIX] (by decide)
  have hsystemd : ∀ content, ¬ IsSecret ⟨[PACKAGE_PREFIX, "deploy", "systemd", systemdFile .python], content⟩ :=
    fun content => @not_isSecret_of_mem _ content [PACKAGE_PREFIX, "deploy", "systemd"] (by decide)
  have htree : NoSecret first runtime ↔
      ∀ member ∈ addTree (first.location ++ ["agent"]) first.agent [PACKAGE_PREFIX, "agent"], ¬ IsSecret member := by
    rw [NoSecret, hpackage]
    simp only [Option.some_inj, forall_eq', buildPythonPackage, List.mem_append, List.mem_cons,
      List.not_mem_nil, or_false, or_imp, forall_and, forall_eq]
    exact ⟨fun h => h.1.2, fun h => ⟨⟨⟨hinstall _, hversion _⟩, h⟩, hsystemd _⟩⟩
  rw [htree]
  by_cases hrelocated : Relocated first
  · rw [addTree_of_relocated hrelocated]
    simp [hrelocated]
  · rw [addTree_eq hrelocated, or_iff_right hrelocated, holdsKey_iff]
    constructor
    · rintro h ⟨text, hmem⟩
      refine h _ (List.mem_map.mpr ⟨_, hmem, rfl⟩) ?_
      exact (isSecret_agent_iff (List.mem_filter.mp hmem).2).mpr rfl
    · intro h member hmember hsecret
      obtain ⟨entry, hentry, rfl⟩ := List.mem_map.mp hmember
      have htaken := (List.mem_filter.mp hentry).2
      have hkey := (isSecret_agent_iff htaken).mp hsecret
      obtain ⟨text, hcontent⟩ := Option.isSome_iff_exists.mp (taken_iff.mp htaken).2.2
      exact h ⟨text, hkey ▸ hcontent ▸ hentry⟩

/-- A package from below an excluded directory lacks the install script among the agent's files. -/
theorem relocated_of_addTree_eq {installScript : String}
    (hi : second.agent.file ["install.sh"] = some installScript) (hrelocated : Relocated first)
    (h : addTree (first.location ++ ["agent"]) first.agent [PACKAGE_PREFIX, "agent"] =
      addTree (second.location ++ ["agent"]) second.agent [PACKAGE_PREFIX, "agent"]) : Relocated second := by
  by_contra hnot
  rw [addTree_of_relocated hrelocated, addTree_eq hnot, eq_comm, List.map_eq_nil_iff] at h
  have hparts : ∀ part ∈ ["install.sh"], part ∉ EXCLUDE_PARTS := by decide
  have hname : (["install.sh"] : List String).getLast?.getD "" ∉ EXCLUDE_FILES := by decide
  have htaken : taken ⟨["install.sh"], some installScript⟩ = true := taken_iff.mpr ⟨hparts, hname, rfl⟩
  have hmem := List.mem_filter.mpr ⟨Tree.file_eq_some.mp hi, htaken⟩
  rw [h] at hmem
  cases hmem

theorem addTree_eq_iff (h : SameRelease first second) {script script' : String}
    (hi : first.agent.file ["install.sh"] = some script) (hi' : second.agent.file ["install.sh"] = some script')
    (hsecret : (Relocated first ∨ ¬ HoldsKey first) ∧ (Relocated second ∨ ¬ HoldsKey second)) :
    addTree (first.location ++ ["agent"]) first.agent [PACKAGE_PREFIX, "agent"] =
      addTree (second.location ++ ["agent"]) second.agent [PACKAGE_PREFIX, "agent"] ↔
      (Relocated first ↔ Relocated second) := by
  constructor
  · intro heq
    exact ⟨fun hr => relocated_of_addTree_eq hi' hr heq, fun hr => relocated_of_addTree_eq hi hr heq.symm⟩
  · intro hiff
    by_cases hr : Relocated first
    · rw [addTree_of_relocated hr, addTree_of_relocated (hiff.mp hr)]
    · have hr' : ¬ Relocated second := fun hr' => hr (hiff.mpr hr')
      rw [addTree_eq hr, addTree_eq hr',
        taken_filter_eq h (hsecret.1.resolve_left hr) (hsecret.2.resolve_left hr')]

/-- The packages of one runtime: both bundles give the same, and nothing secret is in it. -/
def Ships (first second : BundleRoot) (runtime : Option String) : Prop :=
  (buildAgentPackage first runtime).toOption = (buildAgentPackage second runtime).toOption ∧
    NoSecret first runtime ∧ NoSecret second runtime

theorem ships_of_none {runtime : Option String} (hfirst : (buildAgentPackage first runtime).toOption = none)
    (hsecond : (buildAgentPackage second runtime).toOption = none) : Ships first second runtime := by
  have hnone : ∀ root, (buildAgentPackage root runtime).toOption = none → NoSecret root runtime := by
    intro root hroot package hpackage
    rw [hroot] at hpackage
    cases hpackage
  exact ⟨hfirst.trans hsecond.symm, hnone _ hfirst, hnone _ hsecond⟩

/-- Bundles without a script or a template give no package. `guard` says when the others do. -/
theorem ships_iff_of (h : SameRelease first second) {runtime : Option String} {r : Runtime}
    (hr : normalizeRuntime runtime = r) {guard clean : Prop}
    (hguard : ∀ root, (root = first ∨ root = second) → ∀ systemd script,
      root.systemd (systemdFile r) = some systemd → (agentDir root r).file ["install.sh"] = some script →
      ((buildAgentPackage root runtime).toOption.isSome ↔ guard))
    (hclean : ∀ systemd systemd' script, first.systemd (systemdFile r) = some systemd →
      second.systemd (systemdFile r) = some systemd' → (agentDir first r).file ["install.sh"] = some script →
      (agentDir second r).file ["install.sh"] = some script → guard →
      (Ships first second runtime ↔ systemd = systemd' ∧ clean)) :
    Ships first second runtime ↔ (((agentDir first r).file ["install.sh"]).isSome → guard →
      first.systemd (systemdFile r) = second.systemd (systemdFile r) ∧
        ((first.systemd (systemdFile r)).isSome → clean)) := by
  subst hr
  have hinstall := installScript_eq h (normalizeRuntime runtime)
  cases hi : (agentDir first (normalizeRuntime runtime)).file ["install.sh"] with
  | none =>
    refine iff_of_true ?_ fun hsome => by cases hsome
    exact ships_of_none (buildAgentPackage_none (Or.inr hi)) (buildAgentPackage_none (Or.inr (hinstall ▸ hi)))
  | some script =>
    have hi' := hinstall ▸ hi
    have hbuilt : ∀ root, (root = first ∨ root = second) → ∀ systemd,
        root.systemd (systemdFile (normalizeRuntime runtime)) = some systemd →
        ((buildAgentPackage root runtime).toOption.isSome ↔ guard) := by
      rintro root hroot systemd hs
      refine hguard root hroot systemd script hs ?_
      rcases hroot with rfl | rfl
      · exact hi
      · exact hi'
    have hnone : ¬ guard → ∀ root, (root = first ∨ root = second) →
        (buildAgentPackage root runtime).toOption = none := by
      intro hnot root hroot
      cases hs : root.systemd (systemdFile (normalizeRuntime runtime)) with
      | none => exact buildAgentPackage_none (Or.inl hs)
      | some systemd =>
        exact Option.not_isSome_iff_eq_none.mp fun hsome => hnot ((hbuilt root hroot systemd hs).mp hsome)
    rw [forall_prop_of_true Option.isSome_some]
    by_cases hg : guard
    · rw [forall_prop_of_true hg]
      cases hs : first.systemd (systemdFile (normalizeRuntime runtime)) with
      | none =>
        have hfirst := buildAgentPackage_none (Or.inl hs)
        cases hs' : second.systemd (systemdFile (normalizeRuntime runtime)) with
        | none =>
          have hsecond := buildAgentPackage_none (Or.inl hs')
          exact iff_of_true (ships_of_none hfirst hsecond) ⟨rfl, fun hsome => by cases hsome⟩
        | some systemd' =>
          refine iff_of_false (fun hships => ?_) fun hall => by cases hall.1
          have hsome := (hbuilt second (Or.inr rfl) systemd' hs').mpr hg
          rw [← hships.1, hfirst] at hsome
          cases hsome
      | some systemd =>
        cases hs' : second.systemd (systemdFile (normalizeRuntime runtime)) with
        | none =>
          refine iff_of_false (fun hships => ?_) fun hall => by cases hall.1
          have hsome := (hbuilt first (Or.inl rfl) systemd hs).mpr hg
          rw [hships.1, buildAgentPackage_none (Or.inl hs')] at hsome
          cases hsome
        | some systemd' =>
          rw [hclean systemd systemd' script hs hs' hi hi' hg, Option.some_inj,
            forall_prop_of_true Option.isSome_some]
    · exact iff_of_true (ships_of_none (hnone hg first (Or.inl rfl)) (hnone hg second (Or.inr rfl)))
        fun hg' => absurd hg' hg

theorem buildPythonPackage_eq_iff {systemd systemd' script version : String} :
    buildPythonPackage first systemd script version = buildPythonPackage second systemd' script version ↔
      addTree (first.location ++ ["agent"]) first.agent [PACKAGE_PREFIX, "agent"] =
        addTree (second.location ++ ["agent"]) second.agent [PACKAGE_PREFIX, "agent"] ∧ systemd = systemd' := by
  constructor
  · intro h
    obtain ⟨htrees, hlast⟩ := List.append_inj' h rfl
    refine ⟨List.append_cancel_left htrees, ?_⟩
    have hentry := (List.cons.inj hlast).1
    exact Option.some.inj (Entry.mk.inj hentry).2
  · rintro ⟨htrees, rfl⟩
    rw [buildPythonPackage, htrees]
    rfl

theorem python_iff (h : SameRelease first second) {runtime : Option String}
    (hr : normalizeRuntime runtime = .python) : Ships first second runtime ↔ PythonClean first second := by
  have hiff := @ships_iff_of first second h runtime .python hr True
    (Relocated first ∧ Relocated second ∨
      (¬ Relocated first ∧ ¬ Relocated second) ∧ ¬ HoldsKey first ∧ ¬ HoldsKey second)
    (fun root _ systemd script hs hi => by rw [buildAgentPackage_python hr hs hi]; exact iff_of_true rfl trivial)
    (fun systemd systemd' script hs hs' hi hi' _ => ?_)
  · rw [hiff]
    exact forall_congr' fun _ => forall_prop_of_true trivial
  · have hname : packageName first .python = packageName second .python := by
      rw [packageName, packageName, agentVersion_eq h]
    rw [Ships, noSecret_python hr hs hi, noSecret_python hr hs' hi', buildAgentPackage_python hr hs hi,
      buildAgentPackage_python hr hs' hi', Option.some_inj, agentVersion_eq h, hname, Prod.mk.injEq,
      and_iff_left rfl, buildPythonPackage_eq_iff]
    constructor
    · rintro ⟨⟨htrees, rfl⟩, hsecret⟩
      have hrelocated := (addTree_eq_iff h hi hi' hsecret).mp htrees
      refine ⟨rfl, ?_⟩
      by_cases hfirst : Relocated first
      · exact Or.inl ⟨hfirst, hrelocated.mp hfirst⟩
      · have hsecond : ¬ Relocated second := fun hr => hfirst (hrelocated.mpr hr)
        exact Or.inr ⟨⟨hfirst, hsecond⟩, hsecret.1.resolve_left hfirst, hsecret.2.resolve_left hsecond⟩
    · rintro ⟨rfl, hclean⟩
      have hsecret : (Relocated first ∨ ¬ HoldsKey first) ∧ (Relocated second ∨ ¬ HoldsKey second) := by
        rcases hclean with hclean | hclean
        · exact ⟨Or.inl hclean.1, Or.inl hclean.2⟩
        · exact ⟨Or.inr hclean.2.1, Or.inr hclean.2.2⟩
      refine ⟨⟨(addTree_eq_iff h hi hi' hsecret).mpr ?_, rfl⟩, hsecret⟩
      rcases hclean with hclean | hclean
      · exact iff_of_true hclean.1 hclean.2
      · exact iff_of_false hclean.1.1 hclean.1.2

/-! ## The Go package -/

theorem isBinary_iff {path : List String} : isBinary path = true ↔
    ∃ name rest, path = "dist" :: name :: rest ∧ "ops-agent-".toList <+: name.toList := by
  constructor
  · intro h
    unfold isBinary at h
    split at h
    · exact ⟨_, _, rfl, List.isPrefixOf_iff_prefix.mp h⟩
    · cases h
  · rintro ⟨name, rest, rfl, hprefix⟩
    exact List.isPrefixOf_iff_prefix.mpr hprefix

/-- The directory entries that `glob` finds are not exempt. -/
theorem hasBinaries_iff (h : SameRelease first second) :
    (∃ entry ∈ first.agentGo.entries, isBinary entry.path ∧ entry.path.length = 2) ↔
      ∃ entry ∈ second.agentGo.entries, isBinary entry.path ∧ entry.path.length = 2 := by
  refine exists_congr fun entry => and_congr_left fun ⟨hbinary, hlength⟩ => ?_
  obtain ⟨name, rest, hpath, hprefix⟩ := isBinary_iff.mp hbinary
  have hrest : rest = [] := by
    rw [hpath] at hlength
    exact List.length_eq_zero_iff.mp (by simpa using hlength)
  subst hrest
  have hwords : ∀ word ∈ EXCLUDE_FILES ++ EXCLUDE_PARTS, ¬ "ops-agent-".toList <+: word.toList := by
    decide
  have hname : name ∉ EXCLUDE_FILES ++ EXCLUDE_PARTS := fun hmem => hwords name hmem hprefix
  rw [List.mem_append, not_or] at hname
  refine mem_entries_iff (h .go) ?_ ?_ ?_
  · intro part hpart
    rw [hpath] at hpart
    rcases List.mem_pair.mp hpart with rfl | rfl
    · decide
    · exact hname.2
  · rw [Entry.name, hpath]
    exact hname.1
  · rw [hpath]
    exact fun hkey => absurd (List.cons.inj hkey).1 (by decide)

theorem any_binaries_iff : ((binaries tree).any (·.path.length = 2)) = true ↔
    ∃ entry ∈ tree.entries, isBinary entry.path ∧ entry.path.length = 2 := by
  simp only [binaries, List.any_filter, List.any_eq_true, Bool.and_eq_true, decide_eq_true_eq]

theorem buildAgentPackage_go {runtime : Option String} {systemd script : String}
    (hr : normalizeRuntime runtime = .go) (hs : first.systemd (systemdFile .go) = some systemd)
    (hi : first.agentGo.file ["install.sh"] = some script) :
    (buildAgentPackage first runtime).toOption =
      if ∃ entry ∈ first.agentGo.entries, isBinary entry.path ∧ entry.path.length = 2 then
        some (goMembers first systemd script (agentVersion first .go), packageName first .go)
      else none := by
  unfold buildAgentPackage
  rw [hr]
  dsimp only [agentDir]
  rw [hs, hi]
  dsimp only
  unfold buildGoPackage
  by_cases hbinary : ∃ entry ∈ first.agentGo.entries, isBinary entry.path ∧ entry.path.length = 2
  · rw [if_pos hbinary, if_pos (any_binaries_iff.mpr hbinary)]
    rfl
  · rw [if_neg hbinary, if_neg (any_binaries_iff.not.mpr hbinary)]
    rfl

theorem isSecret_dist_iff (h : isBinary entry.path = true) :
    IsSecret ⟨PACKAGE_PREFIX :: entry.path, entry.content⟩ ↔
      entry.content.isSome ∧ entry.name = "config.yaml" := by
  obtain ⟨name, rest, hpath, -⟩ := isBinary_iff.mp h
  have hname : Entry.name ⟨PACKAGE_PREFIX :: entry.path, entry.content⟩ = entry.name := by
    rw [Entry.name, Entry.name, hpath]
    rfl
  rw [IsSecret, hname]
  refine and_congr_right fun _ => or_iff_left ?_
  rw [hpath]
  simp [keyFile]

theorem noSecret_go {runtime : Option String} {systemd script : String}
    (hr : normalizeRuntime runtime = .go) (hs : first.systemd (systemdFile .go) = some systemd)
    (hi : first.agentGo.file ["install.sh"] = some script)
    (hbinary : ∃ entry ∈ first.agentGo.entries, isBinary entry.path ∧ entry.path.length = 2) :
    NoSecret first runtime ↔ ∀ entry ∈ first.agentGo.entries, isBinary entry.path →
      entry.name = "config.yaml" → entry.content = none := by
  have hpackage := buildAgentPackage_go hr hs hi
  rw [if_pos hbinary] at hpackage
  have hinstall : ∀ content, ¬ IsSecret ⟨[PACKAGE_PREFIX, "install.sh"], content⟩ := fun content =>
    @not_isSecret_of_mem _ content [PACKAGE_PREFIX] (by decide)
  have hversion : ∀ content, ¬ IsSecret ⟨[PACKAGE_PREFIX, "VERSION"], content⟩ := fun content =>
    @not_isSecret_of_mem _ content [PACKAGE_PREFIX] (by decide)
  have hsystemd : ∀ content, ¬ IsSecret ⟨[PACKAGE_PREFIX, "deploy", "systemd", systemdFile .go], content⟩ :=
    fun content => @not_isSecret_of_mem _ content [PACKAGE_PREFIX, "deploy", "systemd"] (by decide)
  have hexample : ∀ content, ¬ IsSecret ⟨[PACKAGE_PREFIX, "config", "config.yaml.example"], content⟩ :=
    fun content => @not_isSecret_of_mem _ content [PACKAGE_PREFIX, "config"] (by decide)
  have htree : NoSecret first runtime ↔ ∀ entry ∈ binaries first.agentGo,
      ¬ IsSecret ⟨PACKAGE_PREFIX :: entry.path, entry.content⟩ := by
    rw [NoSecret, hpackage]
    constructor
    · intro h entry hentry
      exact h _ rfl _ (by simp only [goMembers, List.mem_append]; exact Or.inl (Or.inr (List.mem_map_of_mem hentry)))
    · intro h package heq member hmember
      obtain rfl := Option.some.inj heq
      simp only [goMembers, List.mem_append] at hmember
      rcases hmember with ((hmember | hmember) | hmember) | hmember
      · rcases List.mem_pair.mp hmember with rfl | rfl
        · exact hinstall _
        · exact hversion _
      · split at hmember
        · obtain rfl := List.mem_singleton.mp hmember
          exact hexample _
        · cases hmember
      · obtain ⟨entry, hentry, rfl⟩ := List.mem_map.mp hmember
        exact h entry hentry
      · obtain rfl := List.mem_singleton.mp hmember
        exact hsystemd _
  rw [htree]
  have hnone : ∀ entry : Entry, ¬ (entry.content.isSome ∧ entry.name = "config.yaml") ↔
      (entry.name = "config.yaml" → entry.content = none) := by
    intro entry
    rw [not_and', Option.not_isSome_iff_eq_none]
  constructor
  · intro h entry hentry hbinary
    exact (hnone entry).mp ((isSecret_dist_iff hbinary).not.mp (h entry (List.mem_filter.mpr ⟨hentry, hbinary⟩)))
  · intro h entry hentry
    obtain ⟨hentry, hbinary⟩ := List.mem_filter.mp hentry
    exact (isSecret_dist_iff hbinary).not.mpr ((hnone entry).mpr (h entry hentry hbinary))

theorem goMembers_eq_iff (h : SameRelease first second) {systemd systemd' script version : String} :
    goMembers first systemd script version = goMembers second systemd' script version ↔
      binaries first.agentGo = binaries second.agentGo ∧ systemd = systemd' := by
  have hexample : first.agentGo.file ["config", "config.yaml.example"] =
      second.agentGo.file ["config", "config.yaml.example"] :=
    file_eq (h .go) (by decide) (by decide) (by decide)
  constructor
  · intro heq
    rw [goMembers, goMembers, hexample] at heq
    obtain ⟨hmembers, hlast⟩ := List.append_inj' heq rfl
    have hmap := List.append_cancel_left hmembers
    refine ⟨List.map_injective_iff.mpr (fun a b hab => ?_) hmap, ?_⟩
    · obtain ⟨hpath, hcontent⟩ := Entry.mk.inj hab
      cases a
      cases b
      rw [Entry.mk.injEq]
      exact ⟨(List.cons.inj hpath).2, hcontent⟩
    · exact Option.some.inj (Entry.mk.inj (List.cons.inj hlast).1).2
  · rintro ⟨hbinaries, rfl⟩
    rw [goMembers, goMembers, hexample, hbinaries]

theorem binaries_eq_iff : binaries first.agentGo = binaries second.agentGo ↔
    ∀ entry, isBinary entry.path → (entry ∈ first.agentGo.entries ↔ entry ∈ second.agentGo.entries) := by
  constructor
  · intro h entry hbinary
    have hmem : entry ∈ binaries first.agentGo ↔ entry ∈ binaries second.agentGo := by rw [h]
    rwa [binaries, binaries, List.mem_filter, List.mem_filter, and_iff_left hbinary, and_iff_left hbinary] at hmem
  · intro h
    exact filter_eq h

theorem go_iff (h : SameRelease first second) {runtime : Option String}
    (hr : normalizeRuntime runtime = .go) : Ships first second runtime ↔ GoClean first second := by
  have hsame : ∀ root, (root = first ∨ root = second) →
      ((∃ entry ∈ root.agentGo.entries, isBinary entry.path ∧ entry.path.length = 2) ↔
        ∃ entry ∈ first.agentGo.entries, isBinary entry.path ∧ entry.path.length = 2) := by
    rintro root (rfl | rfl)
    · rfl
    · exact (hasBinaries_iff h).symm
  refine ships_iff_of h hr (fun root hroot systemd script hs hi => ?_)
    fun systemd systemd' script hs hs' hi hi' hbinary => ?_
  · rw [buildAgentPackage_go hr hs hi, ← hsame root hroot]
    split_ifs with hbinary
    · exact iff_of_true rfl hbinary
    · exact iff_of_false Bool.false_ne_true hbinary
  · have hbinary' := (hasBinaries_iff h).mp hbinary
    have hname : packageName first .go = packageName second .go := by
      rw [packageName, packageName, agentVersion_eq h]
    rw [Ships, noSecret_go hr hs hi hbinary, noSecret_go hr hs' hi' hbinary', buildAgentPackage_go hr hs hi,
      buildAgentPackage_go hr hs' hi', if_pos hbinary, if_pos hbinary', Option.some_inj, agentVersion_eq h, hname,
      Prod.mk.injEq, and_iff_left rfl, goMembers_eq_iff h, binaries_eq_iff]
    constructor
    · rintro ⟨⟨hbinaries, rfl⟩, hfirst, -⟩
      exact ⟨rfl, hbinaries, hfirst⟩
    · rintro ⟨rfl, hbinaries, hfirst⟩
      exact ⟨⟨hbinaries, rfl⟩, hfirst, fun entry hentry hbin => hfirst entry ((hbinaries entry hbin).mpr hentry) hbin⟩

/-- The packages hold no more than the release exactly if both runtimes are clean. -/
theorem shipsOnlyReleased_iff (h : SameRelease first second) :
    ShipsOnlyReleased first second ↔ PythonClean first second ∧ GoClean first second := by
  constructor
  · intro hships
    exact ⟨(python_iff h (@rfl _ (normalizeRuntime none))).mp (hships none),
      (go_iff h (@rfl _ (normalizeRuntime (some "go")))).mp (hships (some "go"))⟩
  · rintro ⟨hpython, hgo⟩ runtime
    cases hr : normalizeRuntime runtime with
    | python => exact (python_iff h hr).mpr hpython
    | go => exact (go_iff h hr).mpr hgo

end

/-! ## A bundle below `tests` -/

def plainTree : Tree where
  entries := [⟨["install.sh"], some "#!/bin/bash"⟩, ⟨["main.py"], some "run()"⟩]
  sorted := by decide
  closed := by decide

def bundleAt (location : List String) : BundleRoot where
  location := location
  agent := plainTree
  agentGo := plainTree
  systemd := fun _ => some "[Service]"

theorem shipsOnlyReleased_moved :
    ShipsOnlyReleased (bundleAt ["/", "opt", "bundle"]) (bundleAt ["/", "srv", "bundle"]) ↔
      PythonClean (bundleAt ["/", "opt", "bundle"]) (bundleAt ["/", "srv", "bundle"]) ∧
        GoClean (bundleAt ["/", "opt", "bundle"]) (bundleAt ["/", "srv", "bundle"]) :=
  shipsOnlyReleased_iff fun runtime => by cases runtime <;> rfl

/-- The same bundle below a directory called `tests` gives a package without the agent. -/
theorem package_below_tests :
    SameRelease (bundleAt ["/", "opt", "bundle"]) (bundleAt ["/", "tests", "bundle"]) ∧
      ¬ ShipsOnlyReleased (bundleAt ["/", "opt", "bundle"]) (bundleAt ["/", "tests", "bundle"]) := by
  refine ⟨fun runtime => by cases runtime <;> rfl, fun h => ?_⟩
  exact absurd (h none).1 (by decide +kernel)

end OpsMonitor.AgentPackage
