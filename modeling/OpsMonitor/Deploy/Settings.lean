import OpsMonitor.Deploy.Prepare
import OpsMonitor.Library.Dotenv
import OpsMonitor.Library.Words

/-! The settings of a deployment on their way from `config.env` through `.env` to the backend's container
(`deploy/docker/compose.yml`). The values are texts without line ends. -/

namespace OpsMonitor.Compose
open Library Library.Dotenv Prepare

/-- The variables of the backend's `environment` that `config.env.tmpl` has, each with its default there. -/
def backendEnvironment : List (String × String) :=
  [("DB_PASSWORD", "change-me"), ("DB_NAME", "ops_monitor"), ("REDIS_PASSWORD", "change-me"),
    ("JWT_SECRET_KEY", "change-me"), ("JWT_EXPIRE_MINUTES", "120"), ("SEED_INIT_DATA", "true"),
    ("SEED_ADMIN_USERNAME", "admin"), ("SEED_ADMIN_PASSWORD", "admin123456"), ("METRIC_RETENTION_DAYS", "7"),
    ("METRIC_AGG_RETENTION_DAYS", "180"), ("TASK_RETENTION_DAYS", "30"), ("OPERATION_LOG_ENABLED", "true"),
    ("METRICS_ENABLED", "true"), ("METRICS_TOKEN", ""), ("AGENT_REQUIRE_SIGNATURE", "false"),
    ("AGENT_SIGNATURE_MAX_SKEW", "300"), ("SCHEDULER_LOCK_ENABLED", "true"), ("SCHEDULER_LOCK_TTL_SECONDS", "600"),
    ("DISCOVERY_ENABLED", "false"), ("DISCOVERY_ALLOWED_CIDRS", "[]"), ("DISCOVERY_MAX_HOSTS", "256"),
    ("DISCOVERY_SSH_PORT", "22"), ("DISCOVERY_TIMEOUT_SECONDS", "0.5"), ("DISCOVERY_CONCURRENCY", "32")]

/-- `${name:-default}`. -/
def substitute (vars : Vars) (name default : String) : String := getOr (fun name => (vars name).getD "") name default

/-- Compose takes its variables from the file alone. -/
def environment (reader : Reader) (file : List (String × String)) : Option Vars := reader.load (fun _ => none) file

/-- The variables of `prepare.sh` when it writes the file, with the secrets that it generated. -/
def bashVariables (host : Host) (secrets : SecretKey → Secret) (config : List ConfigLine) : Option (String → String) :=
  (source host config).map fun (_, env) => get (generated secrets env)

/-- Compose reads the file, and the backend gets every value that is not empty and the default of the others. -/
def SettingsReach (reader : Reader) (get : String → String) (file : List (String × String)) : Prop :=
  ∃ vars, environment reader file = some vars ∧
    ∀ setting ∈ backendEnvironment, substitute vars setting.1 setting.2 = getOr get setting.1 setting.2

/-- The variables that `prepare.sh` does not write. -/
def leftOut : List String :=
  ["METRIC_AGG_RETENTION_DAYS", "TASK_RETENTION_DAYS", "METRICS_ENABLED", "METRICS_TOKEN", "AGENT_REQUIRE_SIGNATURE",
    "AGENT_SIGNATURE_MAX_SKEW", "SCHEDULER_LOCK_ENABLED", "SCHEDULER_LOCK_TTL_SECONDS", "DISCOVERY_ENABLED",
    "DISCOVERY_ALLOWED_CIDRS", "DISCOVERY_MAX_HOSTS", "DISCOVERY_SSH_PORT", "DISCOVERY_TIMEOUT_SECONDS",
    "DISCOVERY_CONCURRENCY"]

/-- A text that is read as it is: without a `$` a plain one, with a `$` one that is expanded to itself. -/
def Literal (reader : Reader) (vars : Vars) (text : List Char) : Prop :=
  if '$' ∈ text then reader.value vars text = some text else reader.Plain text

structure Deployable (reader : Reader) (get : String → String) (file : List (String × String)) : Prop where
  defaults : ∀ setting ∈ backendEnvironment, setting.1 ∈ leftOut → get setting.1 = "" ∨ get setting.1 = setting.2
  readable : (environment reader file).isSome
  literal : ∀ above name text below vars, file = above ++ (name, text) :: below → name ∈ backendEnvironment.map Prod.fst →
    environment reader above = some vars → Literal reader vars text.toList

section
variable {reader : Reader} {host : Host} {g : String → String} {name text default : String} {vars : Vars}
  {above below : List (String × String)}

theorem literal_iff {chars : List Char} : Literal reader vars chars ↔ reader.value vars chars = some chars := by
  unfold Literal
  split_ifs with hdollar
  · rfl
  · exact (Reader.value_eq_self hdollar).symm

theorem generated_ne_empty {secrets : SecretKey → Secret} {env : Assignments.Env Char} (key : SecretKey) :
    get (generated secrets env) key.name ≠ "" := by
  rw [ne_eq, get_eq_empty]
  by_cases hmissing : key ∈ missing env
  · rw [generated_key hmissing]
    exact (secrets key).text_ne_nil
  · have hother : ∀ other ∈ missing env, key.name ≠ other.name := by
      intro other hother heq
      exact hmissing (SecretKey.name_injective heq ▸ hother)
    rw [generated_of_ne hother, ← get_eq_empty]
    exact mem_missing.not.mp hmissing

theorem getOr_ne_empty (h : default ≠ "") : getOr g name default ≠ "" := by
  unfold getOr
  split_ifs with hempty
  · exact h
  · exact hempty

/-! ## What the file shows of a setting -/

theorem names_render : (render host g).map Prod.fst =
    ["HOSTNAME", "HTTP_PORT", "HTTPS_ENABLED", "HTTPS_PORT", "HTTPS_CERTIFICATE", "HTTPS_PRIVATE_KEY", "DB_NAME",
      "DB_PASSWORD", "REDIS_PASSWORD", "JWT_SECRET_KEY", "JWT_EXPIRE_MINUTES", "SEED_ADMIN_USERNAME",
      "SEED_ADMIN_PASSWORD", "SEED_INIT_DATA", "METRIC_RETENTION_DAYS", "OPERATION_LOG_ENABLED", "CORS_ORIGINS",
      "DATA_VOLUME_DIR", "IMAGE_REGISTRY", "IMAGE_TAG", "IMAGE_PULL_ONLY", "BACKEND_IMAGE", "NGINX_IMAGE"] := rfl

theorem nodup_names_render : ((render host g).map Prod.fst).Nodup := by
  rw [names_render]
  decide

theorem leftOut_not_mem (h : name ∈ leftOut) : name ∉ (render host g).map Prod.fst := by
  rw [names_render]
  revert name
  decide

/-- A setting that is not left out is shown with its value, or with the default that Compose has too. -/
theorem lookup_setting (hkeys : ∀ key : SecretKey, g key.name ≠ "") {setting : String × String}
    (hmem : setting ∈ backendEnvironment) (hshown : setting.1 ∉ leftOut) :
    (render host g).lookup setting.1 = some (getOr g setting.1 setting.2) := by
  have hsecret : ∀ key : SecretKey, ∀ default, (render host g).lookup key.name = some (getOr g key.name default) := by
    intro key default
    rw [lookup_render, getOr, if_neg (hkeys key)]
  simp only [backendEnvironment, List.mem_cons, List.not_mem_nil, or_false] at hmem
  rcases hmem with rfl | rfl | rfl | rfl | rfl | rfl | rfl | rfl | rfl | rfl | rfl | rfl | rfl | rfl | rfl | rfl | rfl |
    rfl | rfl | rfl | rfl | rfl | rfl | rfl
  all_goals first
    | exact absurd (by decide) hshown
    | rfl
    | exact hsecret .dbPassword _
    | exact hsecret .redisPassword _
    | exact hsecret .jwtSecretKey _
    | exact hsecret .seedAdminPassword _

/-- The line of a setting, and that no other line has its name. -/
theorem line_of_lookup (h : (render host g).lookup name = some text) :
    ∃ above below, render host g = above ++ (name, text) :: below ∧ name ∉ below.map Prod.fst := by
  obtain ⟨above, below, hfile, -⟩ := List.lookup_eq_some_iff.mp h
  have hnodup := @nodup_names_render host g
  rw [hfile, List.map_append, List.map_cons] at hnodup
  exact ⟨above, below, hfile, (List.nodup_cons.mp (List.nodup_append.mp hnodup).2.1).1⟩

theorem lookup_of_line (h : render host g = above ++ (name, text) :: below) :
    (render host g).lookup name = some text ∧ name ∉ below.map Prod.fst := by
  have hnodup := @nodup_names_render host g
  rw [h, List.map_append, List.map_cons] at hnodup
  obtain ⟨-, hbelow, hdisjoint⟩ := List.nodup_append.mp hnodup
  refine ⟨List.lookup_eq_some_iff.mpr ⟨above, below, h, fun line hline => ?_⟩, (List.nodup_cons.mp hbelow).1⟩
  rw [bne_iff_ne]
  exact (hdisjoint _ (List.mem_map_of_mem hline) _ List.mem_cons_self).symm

/-- A text between letters or digits, with neither a `$` nor a comment. -/
def Simple (text : String) : Prop :=
  '$' ∉ text.toList ∧ text.toList.head?.all Char.isAlphanum ∧ text.toList.getLast?.all Char.isAlphanum ∧
    ¬[' ', '#'] <:+: text.toList

instance : DecidablePred Simple := fun _ => inferInstanceAs (Decidable (_ ∧ _ ∧ _ ∧ _))

theorem Simple.literal (h : Simple text) : Literal reader vars text.toList := by
  obtain ⟨hdollar, hhead, hlast, huncommented⟩ := h
  rw [Literal, if_neg hdollar]
  refine .of_alphanum (fun c hc => ?_) (fun c hc => ?_) huncommented
  · rw [Option.mem_def] at hc
    rwa [hc, Option.all_some] at hhead
  · rw [Option.mem_def] at hc
    rwa [hc, Option.all_some] at hlast

/-- The defaults of the settings that are shown are read as they are. -/
theorem simple_default {setting : String × String} (hmem : setting ∈ backendEnvironment)
    (hshown : setting.1 ∉ leftOut) : setting.2 ≠ "" ∧ Simple setting.2 := by
  revert setting
  decide

/-! ## What reaches the backend -/

theorem substitute_of_none (h : vars name = none) : substitute vars name default = default := by
  rw [substitute, getOr, h]
  rfl

theorem substitute_of_some (h : vars name = some text) :
    substitute vars name default = if text = "" then default else text := by
  rw [substitute, getOr, h]
  rfl

/-- A setting that is left out arrives as its default. -/
theorem leftOut_reaches_iff (hvars : environment reader (render host g) = some vars) (hname : name ∈ leftOut) :
    substitute vars name default = getOr g name default ↔ g name = "" ∨ g name = default := by
  have hnone : vars name = none := Reader.load_of_not_mem (leftOut_not_mem hname) hvars
  rw [substitute_of_none hnone, getOr]
  split_ifs with hempty
  · exact iff_of_true rfl (.inl hempty)
  · rw [or_iff_right hempty, eq_comm]

/-- A setting that is shown arrives exactly if its text is read as it is. -/
theorem shown_reaches_iff (hkeys : ∀ key : SecretKey, g key.name ≠ "")
    (hvars : environment reader (render host g) = some vars) {setting : String × String}
    (hmem : setting ∈ backendEnvironment) (hshown : setting.1 ∉ leftOut)
    (hline : render host g = above ++ (setting.1, text) :: below) :
    ∃ mid, environment reader above = some mid ∧
      (substitute vars setting.1 setting.2 = getOr g setting.1 setting.2 ↔ Literal reader mid text.toList) := by
  obtain ⟨hlookup, hbelow⟩ := lookup_of_line hline
  have htext := Option.some.inj (hlookup.symm.trans (lookup_setting hkeys hmem hshown))
  unfold environment at hvars
  rw [hline] at hvars
  obtain ⟨mid, value, hmid, hvalue, hfinal⟩ := Reader.load_line hbelow hvars
  obtain ⟨hne, hsimple⟩ := simple_default hmem hshown
  have hdefault : Literal reader mid setting.2.toList := hsimple.literal
  refine ⟨mid, hmid, ?_⟩
  rw [substitute_of_some hfinal, ← htext, literal_iff, hvalue, Option.some_inj]
  have htextNe : text ≠ "" := by
    rw [htext]
    exact getOr_ne_empty hne
  constructor
  · intro heq
    split_ifs at heq with hempty
    · -- an empty value is replaced by the default, which would have been read as it is
      rw [literal_iff, heq, hvalue, Option.some_inj] at hdefault
      exact hdefault
    · rw [← heq, String.toList_ofList]
  · rintro rfl
    rw [String.ofList_toList, if_neg htextNe]

theorem settingsReach_iff (hkeys : ∀ key : SecretKey, g key.name ≠ "") :
    SettingsReach reader g (render host g) ↔ Deployable reader g (render host g) := by
  constructor
  · rintro ⟨vars, hvars, hreach⟩
    refine ⟨fun setting hmem hname => ?_, by rw [hvars]; rfl, fun above name text below mid hline hbackend hmid => ?_⟩
    · exact (leftOut_reaches_iff hvars hname).mp (hreach setting hmem)
    · obtain ⟨setting, hmem, rfl⟩ := List.mem_map.mp hbackend
      have hshown : setting.1 ∉ leftOut := by
        intro hname
        refine @leftOut_not_mem host g _ hname ?_
        rw [hline, List.map_append]
        exact List.mem_append_right _ List.mem_cons_self
      obtain ⟨mid', hmid', hiff⟩ := shown_reaches_iff hkeys hvars hmem hshown hline
      obtain rfl := Option.some.inj (hmid.symm.trans hmid')
      exact hiff.mp (hreach setting hmem)
  · rintro ⟨hdefaults, hreadable, hliteral⟩
    obtain ⟨vars, hvars⟩ := Option.isSome_iff_exists.mp hreadable
    refine ⟨vars, hvars, fun setting hmem => ?_⟩
    by_cases hname : setting.1 ∈ leftOut
    · exact (leftOut_reaches_iff hvars hname).mpr (hdefaults setting hmem hname)
    · obtain ⟨above, below, hline, -⟩ := line_of_lookup (lookup_setting hkeys hmem hname)
      obtain ⟨mid, hmid, hiff⟩ := shown_reaches_iff hkeys hvars hmem hname hline
      exact hiff.mpr (hliteral _ _ _ _ _ hline (List.mem_map_of_mem hmem) hmid)

end

namespace Sample

theorem isWhiteSpace_of_isAlphanum (c : Char) (h : c.isAlphanum) : isWhiteSpace c = false := by
  by_contra hblank
  rw [Bool.not_eq_false, isWhiteSpace, decide_eq_true_eq] at hblank
  rw [← Char.ofNat_toNat c] at h
  simp only [List.mem_cons, List.not_mem_nil, or_false] at hblank
  rcases hblank with hn | hn | hn | hn | hn | hn | hn | hn | hn | hn | hn | hn | hn | hn | hn | hn | hn | hn | hn | hn |
    hn | hn | hn | hn | hn
  all_goals
    rw [hn] at h
    exact absurd h (by decide)

/-- As Compose reads texts without a `$`, and texts in single quotes. -/
def reader : Reader where
  leading := isWhiteSpace
  trailing := isWhiteSpace
  expand _ text := if '$' ∈ text then none else some text
  quoted _ text := some (text.drop 1).dropLast
  leading_alphanum := isWhiteSpace_of_isAlphanum
  trailing_alphanum := isWhiteSpace_of_isAlphanum
  expand_of_no_dollar _ _ h := if_neg h
  quoted_length _ _ text _ _ _ h := by
    obtain rfl := Option.some.inj h
    exact (List.dropLast_prefix text).length_le

def secrets : SecretKey → Secret := digitSecrets fun _ => false

def plainConfig : List ConfigLine :=
  [configLine "HOSTNAME" "ops", configLine "HTTP_PORT" "80", configLine "DB_NAME" "ops",
    configLine "DATA_VOLUME_DIR" "/d", configLine "METRICS_TOKEN" ""]

/-- Requests without a signature shall be refused. -/
def signedConfig : List ConfigLine := plainConfig ++ [configLine "AGENT_REQUIRE_SIGNATURE" "true"]

end Sample

/-- The backend does not hear of the switch. -/
theorem required_signature_lost : ∃ result get, prepare plainHost Sample.secrets Sample.signedConfig = some result ∧
    bashVariables plainHost Sample.secrets Sample.signedConfig = some get ∧
    ¬SettingsReach Sample.reader get result.envFile := by
  obtain ⟨result, hresult⟩ := Option.isSome_iff_exists.mp
    (show (prepare plainHost Sample.secrets Sample.signedConfig).isSome by decide +kernel)
  obtain ⟨get, hget⟩ := Option.isSome_iff_exists.mp
    (show (bashVariables plainHost Sample.secrets Sample.signedConfig).isSome by decide +kernel)
  have hvalue : (bashVariables plainHost Sample.secrets Sample.signedConfig).map (· "AGENT_REQUIRE_SIGNATURE") =
      some "true" := by decide +kernel
  have hname : (prepare plainHost Sample.secrets Sample.signedConfig).all fun result =>
      "AGENT_REQUIRE_SIGNATURE" ∉ result.envFile.map Prod.fst := by decide +kernel
  rw [hget, Option.map_some, Option.some_inj] at hvalue
  rw [hresult, Option.all_some, decide_eq_true_eq] at hname
  refine ⟨result, get, hresult, hget, ?_⟩
  rintro ⟨vars, hvars, hreach⟩
  have harrives := hreach ("AGENT_REQUIRE_SIGNATURE", "false") (by decide)
  rw [substitute_of_none (Reader.load_of_not_mem hname hvars), getOr, hvalue] at harrives
  exact absurd harrives (by decide)

end OpsMonitor.Compose
