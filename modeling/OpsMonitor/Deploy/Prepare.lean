import OpsMonitor.Library.Assignments

/-! The preparation of a deployment (`deploy/prepare.sh`): it evaluates `config.env` as a script,
generates the secrets that are empty, writes them back line by line and renders `.env`. -/

namespace OpsMonitor.Prepare
open Library.Assignments

/-! ## The configuration -/

inductive SecretKey
  | dbPassword | redisPassword | jwtSecretKey | seedAdminPassword
  deriving DecidableEq

def SecretKey.name : SecretKey → String
  | .dbPassword => "DB_PASSWORD"
  | .redisPassword => "REDIS_PASSWORD"
  | .jwtSecretKey => "JWT_SECRET_KEY"
  | .seedAdminPassword => "SEED_ADMIN_PASSWORD"

def secretKeys : List SecretKey := [.dbPassword, .redisPassword, .jwtSecretKey, .seedAdminPassword]

/-- An assignment, perhaps behind blanks or `export`. -/
structure ConfigLine where
  indented : Bool
  exported : Bool
  assignment : Assignment Char

/-- `gen_secret`: 32 bytes in hexadecimal. -/
structure Secret where
  text : List Char
  length : text.length = 64
  hex : ∀ c ∈ text, c ∈ "0123456789abcdef".toList

/-- `^KEY=`. -/
def ConfigLine.begins (line : ConfigLine) (key : SecretKey) : Bool :=
  !line.indented && !line.exported && line.assignment.name = key.name

/-- `sed -i "s|^KEY=.*|KEY=\"value\"|"` on one line. -/
def ConfigLine.writeBack (line : ConfigLine) (key : SecretKey) (secret : Secret) : ConfigLine :=
  if line.begins key then ⟨false, false, ⟨key.name, [.text secret.text]⟩⟩ else line

/-- Where the script runs: its environment, its directory, and what it asks the file system. -/
structure Host where
  env : Env Char
  deployDir : String
  fileExists : String → Bool
  resolve : String → String

/-- `${name:-}`. -/
def get (env : Env Char) (name : String) : String := .ofList ((env name).getD [])

/-- `${name:-default}`. -/
def getOr (get : String → String) (name default : String) : String := if get name = "" then default else get name

/-! ## The checks and the rendered file -/

def validPort (port : String) : Bool :=
  port ≠ "" && port.toList.all Char.isDigit &&
    (let n := port.toList.foldl (fun n c => 10 * n + (c.toNat - 48)) 0
     1 ≤ n && n ≤ 65535)

def validate (host : Host) (get : String → String) : Bool :=
  get "HOSTNAME" ≠ "" && validPort (get "HTTP_PORT") && get "DB_NAME" ≠ "" && get "DATA_VOLUME_DIR" ≠ "" &&
    !(get "IMAGE_PULL_ONLY" = "true" && get "IMAGE_REGISTRY" = "") &&
    (!(get "HTTPS_ENABLED" = "true") ||
      (get "HTTPS_CERTIFICATE" ≠ "" && get "HTTPS_PRIVATE_KEY" ≠ "" && host.fileExists (get "HTTPS_CERTIFICATE") &&
        host.fileExists (get "HTTPS_PRIVATE_KEY")))

def flag (value : String) : String := if value = "true" then "true" else "false"

/-- `${registry%/}`. -/
def dropSlash (registry : String) : String :=
  if registry.toList.getLast? = some '/' then .ofList registry.toList.dropLast else registry

def dataVolumeDir (host : Host) (dir : String) : String :=
  host.resolve (if dir.toList.head? = some '/' then dir else host.deployDir ++ "/" ++ dir)

def image (registry tag name : String) : String :=
  if registry ≠ "" then registry ++ "/" ++ name ++ ":" ++ tag else name ++ ":local"

def origin (get : String → String) : String :=
  if getOr get "HTTP_PORT" "80" = "80" then "http://" ++ get "HOSTNAME"
  else "http://" ++ get "HOSTNAME" ++ ":" ++ get "HTTP_PORT"

/-- The lines of `.env`, each a name and what stands behind its equals sign. -/
def render (host : Host) (get : String → String) : List (String × String) :=
  let registry := dropSlash (get "IMAGE_REGISTRY")
  let tag := getOr get "IMAGE_TAG" "latest"
  [("HOSTNAME", get "HOSTNAME"), ("HTTP_PORT", get "HTTP_PORT"), ("HTTPS_ENABLED", flag (get "HTTPS_ENABLED")),
    ("HTTPS_PORT", getOr get "HTTPS_PORT" "443"), ("HTTPS_CERTIFICATE", get "HTTPS_CERTIFICATE"),
    ("HTTPS_PRIVATE_KEY", get "HTTPS_PRIVATE_KEY"), ("DB_NAME", getOr get "DB_NAME" "ops_monitor"),
    ("DB_PASSWORD", get "DB_PASSWORD"), ("REDIS_PASSWORD", get "REDIS_PASSWORD"),
    ("JWT_SECRET_KEY", get "JWT_SECRET_KEY"), ("JWT_EXPIRE_MINUTES", getOr get "JWT_EXPIRE_MINUTES" "120"),
    ("SEED_ADMIN_USERNAME", getOr get "SEED_ADMIN_USERNAME" "admin"),
    ("SEED_ADMIN_PASSWORD", get "SEED_ADMIN_PASSWORD"), ("SEED_INIT_DATA", getOr get "SEED_INIT_DATA" "true"),
    ("METRIC_RETENTION_DAYS", getOr get "METRIC_RETENTION_DAYS" "7"),
    ("OPERATION_LOG_ENABLED", getOr get "OPERATION_LOG_ENABLED" "true"),
    ("CORS_ORIGINS", "'[\"" ++ origin get ++ "\"]'"),
    ("DATA_VOLUME_DIR", dataVolumeDir host (get "DATA_VOLUME_DIR")), ("IMAGE_REGISTRY", registry),
    ("IMAGE_TAG", tag), ("IMAGE_PULL_ONLY", flag (get "IMAGE_PULL_ONLY")),
    ("BACKEND_IMAGE", image registry tag "ops-monitor-backend"),
    ("NGINX_IMAGE", image registry tag "ops-monitor-frontend")]

/-! ## A run -/

structure Prepared where
  config : List ConfigLine
  envFile : List (String × String)

def missing (env : Env Char) : List SecretKey := secretKeys.filter fun key => get env key.name = ""

def source (host : Host) (config : List ConfigLine) : Option (List (List Char) × Env Char) :=
  run host.env (config.map (·.assignment))

/-- `printf -v "$key" '%s' "$value"`. -/
def assign (secrets : SecretKey → Secret) (env : Env Char) (key : SecretKey) : Env Char :=
  Function.update env key.name (some (secrets key).text)

/-- The variables after the loop over the keys. -/
def generated (secrets : SecretKey → Secret) (env : Env Char) : Env Char :=
  (missing env).foldl (assign secrets) env

/-- The new `config.env` and `.env`, unless the file fails or is refused. -/
def prepare (host : Host) (secrets : SecretKey → Secret) (config : List ConfigLine) : Option Prepared :=
  (source host config).bind fun (_, env) =>
    if validate host (get env) then
      some {
        config := (missing env).foldl (fun config key => config.map (·.writeBack key (secrets key))) config
        envFile := render host (get (generated secrets env)) }
    else none

/-! ## Preparing again -/

/-- After any run that succeeds: the file gives the secrets that `.env` holds, each assignment that was
not empty has its value, and another run generates nothing and gives the same files. -/
def PreparesOnce (host : Host) (config : List ConfigLine) : Prop :=
  ∀ secrets result, prepare host secrets config = some result →
    ∃ values env values' env', source host config = some (values, env) ∧
      source host result.config = some (values', env') ∧
      (∀ key, get env' (SecretKey.name key) ≠ "" ∧
        result.envFile.lookup (SecretKey.name key) = some (get env' (SecretKey.name key))) ∧
      List.Forall₂ (fun old new => old ≠ [] → new = old) values values' ∧
      missing env' = [] ∧ ∀ secrets', prepare host secrets' result.config = some result

/-- The variables that `.env` shows with a default or as they are, and that may be empty. -/
def optionalNames : List String :=
  ["HTTPS_PORT", "HTTPS_CERTIFICATE", "HTTPS_PRIVATE_KEY", "JWT_EXPIRE_MINUTES", "SEED_ADMIN_USERNAME",
    "SEED_INIT_DATA", "METRIC_RETENTION_DAYS", "OPERATION_LOG_ENABLED", "IMAGE_REGISTRY", "IMAGE_TAG"]

/-- A line with the mark of its key for its value, if one of the keys stands at its beginning. -/
def markLine (keys : List SecretKey) (line : ConfigLine) : Assignment (Char ⊕ SecretKey) :=
  match keys.find? line.begins with
  | some key => ⟨key.name, [.text [.inr key]]⟩
  | none => line.assignment.fill unmarked

/-- Where the marks of the empty keys get to, if they stand on the lines that begin with the keys: each
key has its own mark, none is in an assignment that was not empty or in a variable that `.env` shows. -/
def MarksStay (host : Host) (config : List ConfigLine) : Prop :=
  ∀ values env marks menv, source host config = some (values, env) → validate host (get env) = true →
    run (fillEnv unmarked host.env) (config.map (markLine (missing env))) = some (marks, menv) →
    (∀ key ∈ missing env, menv key.name = some [.inr key]) ∧
    (∀ old mark, (old, mark) ∈ values.zip marks → old ≠ [] → ∀ key, .inr key ∉ mark) ∧
    ∀ name ∈ optionalNames, get env name = "" → ∀ key, .inr key ∉ (menv name).getD []

/-! ### What `.env` depends on -/

/-- The variables that are checked or shown, the secrets and the flags apart. -/
def settingNames : List String := ["HOSTNAME", "HTTP_PORT", "DB_NAME", "DATA_VOLUME_DIR"] ++ optionalNames

structure SameSettings (get newGet : String → String) : Prop where
  settings : ∀ name ∈ settingNames, get name = newGet name
  flags : ∀ name ∈ ["HTTPS_ENABLED", "IMAGE_PULL_ONLY"], get name = "true" ↔ newGet name = "true"

section
variable {host : Host} {g later : String → String}

theorem SameSettings.validate_eq (h : SameSettings g later) : validate host g = validate host later := by
  have hset := h.settings
  have hflag := h.flags
  simp only [settingNames, optionalNames, List.mem_append, List.mem_cons, List.not_mem_nil, or_false, or_imp,
    forall_and, forall_eq] at hset hflag
  obtain ⟨⟨h1, h2, h3, h4⟩, -, h5, h6, -, -, -, -, -, h7, -⟩ := hset
  simp only [validate, h1, h2, h3, h4, h5, h6, h7, hflag.1, hflag.2]

theorem SameSettings.render_eq (h : SameSettings g later) (hkeys : ∀ key : SecretKey, g key.name = later key.name) :
    render host g = render host later := by
  have hset := h.settings
  have hflag := h.flags
  simp only [settingNames, optionalNames, List.mem_append, List.mem_cons, List.not_mem_nil, or_false, or_imp,
    forall_and, forall_eq] at hset hflag
  obtain ⟨⟨h1, h2, h3, h4⟩, h5, h6, h7, h8, h9, h10, h11, h12, h13, h14⟩ := hset
  have hdb := hkeys .dbPassword
  have hredis := hkeys .redisPassword
  have hjwt := hkeys .jwtSecretKey
  have hseed := hkeys .seedAdminPassword
  have hhttps : flag (g "HTTPS_ENABLED") = flag (later "HTTPS_ENABLED") := if_congr hflag.1 rfl rfl
  have hpull : flag (g "IMAGE_PULL_ONLY") = flag (later "IMAGE_PULL_ONLY") := if_congr hflag.2 rfl rfl
  have hor : ∀ {name}, g name = later name → ∀ default, getOr g name default = getOr later name default := by
    intro name hname default
    rw [getOr, getOr, hname]
  have horigin : origin g = origin later := by
    rw [origin, origin, hor h2, h1, h2]
  simp only [SecretKey.name] at hdb hredis hjwt hseed
  simp only [render, horigin, hhttps, hpull, h1, h2, h4, h6, h7, h13, hdb, hredis, hjwt, hseed, hor h3, hor h5, hor h8,
    hor h9, hor h10, hor h11, hor h12, hor h14]

/-! ### The files after a run -/

theorem SecretKey.name_injective : Function.Injective SecretKey.name := by
  intro key key' h
  cases key <;> cases key' <;> first | rfl | exact absurd h (by decide)

theorem foldl_map_eq {α κ : Type*} (f : κ → α → α) (keys : List κ) (l : List α) :
    keys.foldl (fun l key => l.map (f key)) l = l.map fun a => keys.foldl (fun a key => f key a) a := by
  induction keys generalizing l with
  | nil => exact (List.map_id l).symm
  | cons key keys ih =>
    rw [List.foldl_cons, ih, List.map_map]
    rfl

variable {secrets : SecretKey → Secret} {keys : List SecretKey}

/-- Marks to fill in. -/
def fillSecrets (secrets : SecretKey → Secret) : Char ⊕ SecretKey → List Char
  | .inl c => [c]
  | .inr key => (secrets key).text

theorem Secret.text_ne_nil (secret : Secret) : secret.text ≠ [] := by
  intro h
  have hlength := secret.length
  rw [h] at hlength
  cases hlength

theorem fillSecrets_ne_nil (a : Char ⊕ SecretKey) : fillSecrets secrets a ≠ [] := by
  cases a with
  | inl c => exact List.cons_ne_nil _ _
  | inr key => exact (secrets key).text_ne_nil

def ConfigLine.written (key : SecretKey) (secret : Secret) : ConfigLine := ⟨false, false, ⟨key.name, [.text secret.text]⟩⟩

theorem foldl_writeBack_written (key : SecretKey) :
    keys.foldl (fun line key => ConfigLine.writeBack line key (secrets key)) (ConfigLine.written key (secrets key)) =
      ConfigLine.written key (secrets key) := by
  induction keys with
  | nil => rfl
  | cons other keys ih =>
    have hsame : (ConfigLine.written key (secrets key)).writeBack other (secrets other) = .written key (secrets key) := by
      unfold ConfigLine.writeBack
      split_ifs with hbegins
      · have hname : key.name = other.name := of_decide_eq_true (Bool.and_eq_true_iff.mp hbegins).2
        obtain rfl := SecretKey.name_injective hname
        rfl
      · rfl
    rw [List.foldl_cons, hsame, ih]

/-- Writing the secrets back is filling in the marks. -/
theorem foldl_writeBack (line : ConfigLine) :
    (keys.foldl (fun line key => line.writeBack key (secrets key)) line).assignment =
      (markLine keys line).fill (fillSecrets secrets) := by
  induction keys with
  | nil => exact (fill_fill_unmarked (fun _ => rfl) line.assignment).symm
  | cons key keys ih =>
    rw [List.foldl_cons]
    cases hbegins : line.begins key with
    | false =>
      have hline : line.writeBack key (secrets key) = line := by
        rw [ConfigLine.writeBack, hbegins, if_neg Bool.false_ne_true]
      have hmark : markLine (key :: keys) line = markLine keys line := by
        rw [markLine, markLine, List.find?_cons_of_neg (by simp [hbegins])]
      rw [hline, hmark, ih]
    | true =>
      have hline : line.writeBack key (secrets key) = .written key (secrets key) := by
        rw [ConfigLine.writeBack, hbegins, if_pos rfl]
        rfl
      have hmark : markLine (key :: keys) line = ⟨key.name, [.text [.inr key]]⟩ := by
        rw [markLine, List.find?_cons_of_pos hbegins]
      rw [hline, foldl_writeBack_written, hmark]
      show Assignment.mk key.name [.text (secrets key).text] =
        ⟨key.name, [.text ([Sum.inr key].flatMap (fillSecrets secrets))]⟩
      rw [List.flatMap_singleton]
      rfl

/-- Sourcing the new file gives what the marks are filled in to. -/
theorem source_writeBack (config : List ConfigLine) :
    source host (keys.foldl (fun config key => config.map (·.writeBack key (secrets key))) config) =
      (run (fillEnv unmarked host.env) (config.map (markLine keys))).map fun (marks, menv) =>
        (marks.map (·.flatMap (fillSecrets secrets)), fillEnv (fillSecrets secrets) menv) := by
  have hlines : (keys.foldl (fun config key => config.map (·.writeBack key (secrets key))) config).map (·.assignment) =
      (config.map (markLine keys)).map (·.fill (fillSecrets secrets)) := by
    rw [foldl_map_eq (fun key line => ConfigLine.writeBack line key (secrets key)), List.map_map, List.map_map]
    exact List.map_congr_left fun line _ => foldl_writeBack line
  have hrun := run_fill (@fillSecrets_ne_nil secrets) (fillEnv unmarked host.env) (config.map (markLine keys))
  rw [fillEnv_fillEnv_unmarked (fun _ => rfl)] at hrun
  rw [source, hlines, hrun]

/-! ### The variables after a run -/

variable {env : Env Char} {config : List ConfigLine}

theorem foldl_update_key {key : SecretKey} (h : key ∈ keys) (env : Env Char) :
    keys.foldl (assign secrets) env key.name =
      some (secrets key).text := by
  induction keys using List.reverseRecOn with
  | nil => cases h
  | append_singleton keys other ih =>
    rw [List.foldl_append, List.foldl_cons, List.foldl_nil, assign]
    by_cases heq : key = other
    · subst heq
      rw [Function.update_self]
    · rw [Function.update_of_ne (fun hname => heq (SecretKey.name_injective hname))]
      exact ih ((List.mem_append.mp h).resolve_right fun hmem => heq (List.mem_singleton.mp hmem))

theorem foldl_update_of_ne {name : String} (h : ∀ key ∈ keys, name ≠ SecretKey.name key) (env : Env Char) :
    keys.foldl (assign secrets) env name = env name := by
  induction keys generalizing env with
  | nil => rfl
  | cons key keys ih =>
    rw [List.foldl_cons, ih (fun other hother => h other (List.mem_cons_of_mem _ hother)),
      assign, Function.update_of_ne (h key List.mem_cons_self)]

theorem mem_missing {key : SecretKey} : key ∈ missing env ↔ get env key.name = "" := by
  have hkey : key ∈ secretKeys := by
    cases key <;> decide
  simp [missing, hkey]

theorem get_eq_empty {name : String} : get env name = "" ↔ (env name).getD [] = [] := by
  rw [get, ← String.toList_inj, String.toList_ofList]
  rfl

theorem generated_key {key : SecretKey} (h : key ∈ missing env) :
    generated secrets env key.name = some (secrets key).text := foldl_update_key h env

theorem generated_of_ne {name : String} (h : ∀ key ∈ missing env, name ≠ key.name) :
    generated secrets env name = env name := foldl_update_of_ne h env

theorem prepare_eq {values : List (List Char)} (h : source host config = some (values, env)) :
    prepare host secrets config =
      if validate host (get env) then
        some ⟨(missing env).foldl (fun config key => config.map (·.writeBack key (secrets key))) config,
          render host (get (generated secrets env))⟩
      else none := by
  rw [prepare, h]
  rfl

/-- An accepted file, what it gives, and what it gives with marks. -/
structure Accepted (host : Host) (config : List ConfigLine) where
  values : List (List Char)
  env : Env Char
  marks : List (List (Char ⊕ SecretKey))
  menv : Env (Char ⊕ SecretKey)
  source_eq : source host config = some (values, env)
  validated : validate host (get env) = true
  marked_eq : run (fillEnv unmarked host.env) (config.map (markLine (missing env))) = some (marks, menv)
  marked : List.Forall₂ Marked values marks
  origins : ∀ name, MarkedOption (env name) (menv name) ∧
    (env name = host.env name ∧ menv name = fillEnv unmarked host.env name ∨
      ∃ s t, (s, t) ∈ values.zip marks ∧ env name = some s ∧ menv name = some t)

theorem exists_accepted {values : List (List Char)} (hsource : source host config = some (values, env))
    (hvalid : validate host (get env) = true) : ∃ a : Accepted host config, a.values = values ∧ a.env = env := by
  have hlines : List.Forall₂ MarkedLine (config.map (·.assignment)) (config.map (markLine (missing env))) := by
    rw [List.forall₂_map_left_iff, List.forall₂_map_right_iff]
    refine List.forall₂_same.mpr fun line _ => ?_
    unfold markLine
    split
    · rename_i key hfind
      have hbegins := List.find?_some hfind
      have hname : line.assignment.name = key.name := by
        simpa using (Bool.and_eq_true_iff.mp hbegins).2
      exact Or.inr ⟨key, by rw [hname]⟩
    · exact Or.inl rfl
  have henv : ∀ name, MarkedOption (host.env name) (fillEnv (@unmarked Char SecretKey) host.env name) := by
    intro name
    rw [fillEnv]
    cases host.env name with
    | none => exact .none
    | some s => exact .some (.of_text s)
  obtain ⟨marks, menv, hrun, hmarked, horigins⟩ := run_marked hlines henv hsource
  exact ⟨⟨values, env, marks, menv, hsource, hvalid, hrun, hmarked, horigins⟩, rfl, rfl⟩

theorem settingNames_ne_key {name : String} (h : name ∈ settingNames ∨ name ∈ ["HTTPS_ENABLED", "IMAGE_PULL_ONLY"])
    (key : SecretKey) : name ≠ key.name := by
  have hall : ∀ key ∈ secretKeys, key.name ∉ settingNames ∧ key.name ∉ ["HTTPS_ENABLED", "IMAGE_PULL_ONLY"] := by
    decide
  have hkey : key ∈ secretKeys := by
    cases key <;> decide
  rintro rfl
  rcases h with h | h
  · exact (hall key hkey).1 h
  · exact (hall key hkey).2 h

theorem nonempty_of_validate (h : validate host g = true) :
    ∀ name ∈ ["HOSTNAME", "HTTP_PORT", "DB_NAME", "DATA_VOLUME_DIR"], g name ≠ "" := by
  simp only [validate, validPort, Bool.and_eq_true, decide_eq_true_eq] at h
  obtain ⟨⟨⟨⟨⟨hhost, ⟨hport, -⟩, -⟩, hdb⟩, hdir⟩, -⟩, -⟩ := h
  simp only [List.mem_cons, List.not_mem_nil, or_false, forall_eq_or_imp, forall_eq]
  exact ⟨hhost, hport, hdb, hdir⟩

/-! ### The marks stay -/

/-- What sourcing the new file gives. -/
def Accepted.newEnv (a : Accepted host config) (secrets : SecretKey → Secret) : Env Char :=
  fillEnv (fillSecrets secrets) a.menv

def Accepted.newConfig (a : Accepted host config) (secrets : SecretKey → Secret) : List ConfigLine :=
  (missing a.env).foldl (fun config key => config.map (·.writeBack key (secrets key))) config

/-- The condition, on an accepted file. -/
structure Accepted.Stays (a : Accepted host config) : Prop where
  keys : ∀ key ∈ missing a.env, a.menv key.name = some [.inr key]
  lines : ∀ old mark, (old, mark) ∈ a.values.zip a.marks → old ≠ [] → ∀ key, .inr key ∉ mark
  shown : ∀ name ∈ optionalNames, get a.env name = "" → ∀ key, .inr key ∉ (a.menv name).getD []

section
variable (a : Accepted host config)

theorem Accepted.source_new : source host (a.newConfig secrets) =
    some (a.marks.map (·.flatMap (fillSecrets secrets)), a.newEnv secrets) := by
  rw [Accepted.newConfig, source_writeBack, a.marked_eq]
  rfl

theorem Accepted.prepare_eq : prepare host secrets config =
    some ⟨a.newConfig secrets, render host (get (generated secrets a.env))⟩ := by
  rw [Prepare.prepare_eq a.source_eq, if_pos a.validated]
  rfl

theorem Accepted.marked_of_mem {old : List Char} {mark : List (Char ⊕ SecretKey)}
    (h : (old, mark) ∈ a.values.zip a.marks) : Marked old mark :=
  (List.forall₂_iff_zip.mp a.marked).2 h

variable {a}

/-- A value without a mark is what it was. -/
theorem Accepted.Stays.value_eq (h : a.Stays) {old : List Char} {mark : List (Char ⊕ SecretKey)}
    (hmem : (old, mark) ∈ a.values.zip a.marks) (hold : old ≠ []) : mark.flatMap (fillSecrets secrets) = old := by
  rw [(a.marked_of_mem hmem).eq_of_not_mem (h.lines old mark hmem hold), flatMap_map_inl fun _ => rfl]

/-- A variable that was not empty keeps its value. -/
theorem Accepted.Stays.get_eq (h : a.Stays) {name : String} (hname : get a.env name ≠ "") :
    get (a.newEnv secrets) name = get a.env name := by
  have hvalue : a.newEnv secrets name = a.env name := by
    rcases (a.origins name).2 with ⟨henv, hmenv⟩ | ⟨s, t, hmem, henv, hmenv⟩
    · have hfill := congrFun (fillEnv_fillEnv_unmarked (@fun c => @rfl _ (fillSecrets secrets (.inl c))) host.env) name
      rw [henv, ← hfill, Accepted.newEnv, fillEnv, fillEnv, hmenv]
    · have hs : s ≠ [] := by
        rintro rfl
        exact hname (get_eq_empty.mpr (by rw [henv]; rfl))
      rw [Accepted.newEnv, fillEnv, hmenv, henv, Option.map_some, h.value_eq hmem hs]
  rw [get, get, hvalue]

/-- An empty variable stays empty or holds a secret. -/
theorem Accepted.get_new_of_empty {name : String} (hname : get a.env name = "") :
    get (a.newEnv secrets) name = "" ∨
      (∃ key, .inr key ∈ (a.menv name).getD []) ∧ 64 ≤ (get (a.newEnv secrets) name).length := by
  have hempty := get_eq_empty.mp hname
  have hnew : (a.newEnv secrets name).getD [] = ((a.menv name).getD []).flatMap (fillSecrets secrets) := by
    rw [Accepted.newEnv, fillEnv]
    cases a.menv name <;> rfl
  have horigin := (a.origins name).1
  generalize a.env name = v at hempty horigin
  generalize hw : a.menv name = w at horigin hnew
  cases horigin with
  | none => exact Or.inl (get_eq_empty.mpr (by rw [hnew]; rfl))
  | @some s t hmarked =>
    obtain rfl : s = [] := hempty
    rcases hmarked with rfl | ⟨key, hkey⟩
    · exact Or.inl (get_eq_empty.mpr (by rw [hnew]; rfl))
    · refine Or.inr ⟨⟨key, hkey⟩, ?_⟩
      obtain ⟨front, back, rfl⟩ := List.append_of_mem hkey
      rw [get, String.length_ofList, hnew, Option.getD_some, List.flatMap_append, List.flatMap_cons]
      have hlength := (secrets key).length
      simp only [List.length_append, fillSecrets, hlength]
      omega

theorem generated_name {name : String} (h : ∀ key : SecretKey, name ≠ key.name) :
    get (generated secrets env) name = get env name := by
  rw [get, get, generated_of_ne fun key _ => h key]

theorem Accepted.Stays.sameSettings (h : a.Stays) :
    SameSettings (get (generated secrets a.env)) (get (a.newEnv secrets)) := by
  refine ⟨fun name hname => ?_, fun name hname => ?_⟩
  · rw [generated_name (settingNames_ne_key (Or.inl hname))]
    by_cases hempty : get a.env name = ""
    · have hoptional : name ∈ optionalNames :=
        (List.mem_append.mp hname).resolve_left fun hmem => nonempty_of_validate a.validated name hmem hempty
      rcases @Accepted.get_new_of_empty host secrets config a name hempty with hnew | ⟨⟨key, hkey⟩, -⟩
      · rw [hempty, hnew]
      · exact absurd hkey (h.shown name hoptional hempty key)
    · exact (h.get_eq hempty).symm
  · rw [generated_name (settingNames_ne_key (Or.inr hname))]
    by_cases hempty : get a.env name = ""
    · rw [hempty]
      refine iff_of_false (by decide) fun htrue => ?_
      rcases @Accepted.get_new_of_empty host secrets config a name hempty with hnew | ⟨-, hlength⟩
      · rw [hnew] at htrue
        exact absurd htrue (by decide)
      · rw [htrue] at hlength
        exact absurd hlength (by decide)
    · rw [h.get_eq hempty]

theorem Accepted.Stays.get_key (h : a.Stays) (key : SecretKey) :
    get (generated secrets a.env) key.name = get (a.newEnv secrets) key.name ∧
      get (a.newEnv secrets) key.name ≠ "" := by
  by_cases hmissing : key ∈ missing a.env
  · have hnew : a.newEnv secrets key.name = some (secrets key).text := by
      rw [Accepted.newEnv, fillEnv, h.keys key hmissing, Option.map_some, List.flatMap_singleton]
      rfl
    refine ⟨by rw [get, get, generated_key hmissing, hnew], fun hempty => ?_⟩
    rw [get_eq_empty, hnew] at hempty
    exact (secrets key).text_ne_nil hempty
  · have hname : get a.env key.name ≠ "" := mem_missing.not.mp hmissing
    have hother : ∀ other ∈ missing a.env, key.name ≠ other.name := by
      intro other hother heq
      exact hmissing (SecretKey.name_injective heq ▸ hother)
    rw [h.get_eq hname, get, generated_of_ne hother, ← get]
    exact ⟨rfl, hname⟩

theorem lookup_render (host : Host) (get : String → String) (key : SecretKey) :
    (render host get).lookup key.name = some (get key.name) := by
  cases key <;> rfl

theorem missing_eq_nil (h : ∀ key : SecretKey, get env key.name ≠ "") : missing env = [] := by
  refine List.filter_eq_nil_iff.mpr fun key _ => ?_
  rw [decide_eq_true_eq]
  exact h key

theorem Accepted.Stays.prepare_again (h : a.Stays) (secrets' : SecretKey → Secret) :
    prepare host secrets' (a.newConfig secrets) =
      some ⟨a.newConfig secrets, render host (get (generated secrets a.env))⟩ := by
  have hmissing : missing (a.newEnv secrets) = [] := missing_eq_nil fun key => (h.get_key key).2
  have hsame := @Accepted.Stays.sameSettings host secrets config a h
  have hbefore : validate host (get (generated secrets a.env)) = validate host (get a.env) := by
    refine SameSettings.validate_eq ⟨fun name hname => ?_, fun name hname => ?_⟩
    · exact generated_name (settingNames_ne_key (Or.inl hname))
    · rw [generated_name (settingNames_ne_key (Or.inr hname))]
  have hvalid : validate host (get (a.newEnv secrets)) = true := by
    rw [← hsame.validate_eq, hbefore, a.validated]
  have hrender := @SameSettings.render_eq host _ _ hsame fun key => (h.get_key key).1
  rw [Prepare.prepare_eq a.source_new, if_pos hvalid, generated, hmissing, List.foldl_nil, List.foldl_nil, hrender]

/-! ### The marks have to stay -/

/-- Secrets that differ in one key. -/
def digitSecrets (digit : SecretKey → Bool) (key : SecretKey) : Secret where
  text := List.replicate 64 (if digit key then '1' else '0')
  length := List.length_replicate
  hex := by
    intro c hc
    rw [List.eq_of_mem_replicate hc]
    split <;> decide

theorem digitSecrets_ne (key : SecretKey) :
    (digitSecrets (fun _ => false) key).text ≠ (digitSecrets (fun other => decide (other = key)) key).text := by
  intro h
  have hhead := congrArg List.head? h
  simp [digitSecrets] at hhead

/-- A value with a mark is filled in to different texts. -/
theorem exists_flatMap_ne {mark : List (Char ⊕ SecretKey)} {key : SecretKey} (h : .inr key ∈ mark) :
    mark.flatMap (fillSecrets (digitSecrets fun _ => false)) ≠
      mark.flatMap (fillSecrets (digitSecrets fun other => decide (other = key))) := by
  intro heq
  have hlength : ∀ a, (fillSecrets (digitSecrets fun _ => false) a).length =
      (fillSecrets (digitSecrets fun other => decide (other = key)) a).length := by
    intro a
    cases a with
    | inl c => rfl
    | inr other => exact ((digitSecrets _ other).length).trans ((digitSecrets _ other).length).symm
  exact digitSecrets_ne key ((flatMap_congr_iff hlength mark).mp heq (.inr key) h)

/-- What `.env` shows for one of these names differs from what it shows for an empty value. -/
theorem lookup_render_ne {get newGet : String → String} {name : String} (hname : name ∈ optionalNames)
    (hempty : get name = "") (hlong : 64 ≤ (newGet name).length) :
    (render host get).lookup name ≠ (render host newGet).lookup name := by
  have hnewGet : newGet name ≠ "" := by
    intro h
    rw [h] at hlong
    exact absurd hlong (by decide)
  have hdefault : ∀ default : String, default.length < 64 → getOr get name default ≠ getOr newGet name default := by
    intro default hshort heq
    rw [getOr, getOr, if_pos hempty, if_neg hnewGet] at heq
    rw [← heq] at hlong
    exact absurd hlong (Nat.not_le.mpr hshort)
  have hslash : dropSlash (get name) ≠ dropSlash (newGet name) := by
    intro heq
    have hlength : 63 ≤ (dropSlash (newGet name)).length := by
      unfold dropSlash
      split_ifs
      · rw [String.length_ofList, List.length_dropLast, String.length_toList]
        omega
      · omega
    rw [← heq, hempty] at hlength
    exact absurd hlength (by decide)
  intro heq
  simp only [optionalNames, List.mem_cons, List.not_mem_nil, or_false] at hname
  rcases hname with rfl | rfl | rfl | rfl | rfl | rfl | rfl | rfl | rfl | rfl
  · exact hdefault _ (by decide) (Option.some.inj heq)
  · exact hnewGet ((Option.some.inj heq).symm.trans hempty)
  · exact hnewGet ((Option.some.inj heq).symm.trans hempty)
  · exact hdefault _ (by decide) (Option.some.inj heq)
  · exact hdefault _ (by decide) (Option.some.inj heq)
  · exact hdefault _ (by decide) (Option.some.inj heq)
  · exact hdefault _ (by decide) (Option.some.inj heq)
  · exact hdefault _ (by decide) (Option.some.inj heq)
  · exact hslash (Option.some.inj heq)
  · exact hdefault _ (by decide) (Option.some.inj heq)

/-- What preparing once says of an accepted file, for any secrets. -/
structure Accepted.Again (a : Accepted host config) (secrets : SecretKey → Secret) : Prop where
  keys : ∀ key : SecretKey, get (generated secrets a.env) key.name = get (a.newEnv secrets) key.name
  lines : ∀ old mark, (old, mark) ∈ a.values.zip a.marks → old ≠ [] → mark.flatMap (fillSecrets secrets) = old
  envFile : render host (get (a.newEnv secrets)) = render host (get (generated secrets a.env))

theorem Accepted.again_of_preparesOnce (a : Accepted host config) (h : PreparesOnce host config)
    (secrets : SecretKey → Secret) : a.Again secrets := by
  obtain ⟨values, env', values', env'', hsource, hsource', hkeys, hlines, hmissing, hagain⟩ := h secrets _ a.prepare_eq
  have hsame := Option.some.inj (a.source_eq.symm.trans hsource)
  have hsame' := Option.some.inj (a.source_new.symm.trans hsource')
  obtain ⟨rfl, rfl⟩ := Prod.mk.inj hsame
  obtain ⟨rfl, rfl⟩ := Prod.mk.inj hsame'
  refine ⟨fun key => ?_, fun old mark hmem hold => ?_, ?_⟩
  · have hkey := (hkeys key).2
    rw [lookup_render] at hkey
    exact Option.some.inj hkey
  · rw [List.forall₂_map_right_iff] at hlines
    exact (List.forall₂_iff_zip.mp hlines).2 hmem hold
  · have hresult := hagain secrets
    rw [Prepare.prepare_eq a.source_new] at hresult
    split_ifs at hresult
    have hfile := congrArg Prepared.envFile (Option.some.inj hresult)
    rw [generated, hmissing, List.foldl_nil] at hfile
    exact hfile

/-- A value that is filled in to the secret of a key, whatever the secrets are, is its mark. -/
theorem eq_mark_of_flatMap {mark : List (Char ⊕ SecretKey)} {key : SecretKey}
    (h : ∀ digit, mark.flatMap (fillSecrets (digitSecrets digit)) = (digitSecrets digit key).text) :
    mark = [.inr key] := by
  have hmark : ∃ other, .inr other ∈ mark := by
    by_contra hnone
    have hsame : mark.flatMap (fillSecrets (digitSecrets fun _ => false)) =
        mark.flatMap (fillSecrets (digitSecrets fun other => decide (other = key))) := by
      refine List.flatMap_congr fun a ha => ?_
      cases a with
      | inl c => rfl
      | inr other => exact absurd ⟨other, ha⟩ hnone
    rw [h, h] at hsame
    exact digitSecrets_ne key hsame
  obtain ⟨other, hother⟩ := hmark
  obtain ⟨front, back, rfl⟩ := List.append_of_mem hother
  have hfilled := h fun k => decide (k = key)
  rw [List.flatMap_append, List.flatMap_cons] at hfilled
  have hlength := congrArg List.length hfilled
  have hsecret := (digitSecrets (fun k => decide (k = key)) other).length
  simp only [List.length_append, fillSecrets, hsecret, (digitSecrets _ key).length] at hlength
  have hnil : ∀ l : List (Char ⊕ SecretKey),
      (l.flatMap (fillSecrets (digitSecrets fun k => decide (k = key)))).length = 0 → l = [] := by
    intro l hl
    cases l with
    | nil => rfl
    | cons b l =>
      rw [List.flatMap_cons, List.length_append] at hl
      exact absurd (List.length_eq_zero_iff.mp (Nat.eq_zero_of_add_eq_zero_right hl)) (fillSecrets_ne_nil b)
  obtain rfl := hnil front (by omega)
  obtain rfl := hnil back (by omega)
  have hkey : other = key := by
    by_contra hne
    have htext : (digitSecrets (fun k => decide (k = key)) other).text =
        (digitSecrets (fun k => decide (k = key)) key).text := by
      simpa [fillSecrets] using hfilled
    have hhead := congrArg List.head? htext
    simp [digitSecrets, hne] at hhead
  rw [hkey]
  rfl

theorem Accepted.stays_of_preparesOnce (a : Accepted host config) (h : PreparesOnce host config) : a.Stays := by
  refine ⟨fun key hkey => ?_, fun old mark hmem hold key hkey => ?_, fun name hname hempty key hkey => ?_⟩
  · have hmark : (a.menv key.name).getD [] = [.inr key] := by
      refine eq_mark_of_flatMap fun digit => ?_
      have hvalue := (a.again_of_preparesOnce h (digitSecrets digit)).keys key
      rw [get, get, generated_key hkey, Accepted.newEnv, fillEnv] at hvalue
      have hlist := String.ofList_injective hvalue
      cases hmenv : a.menv key.name with
      | none =>
        rw [hmenv] at hlist
        exact absurd hlist (Secret.text_ne_nil _)
      | some mark =>
        rw [hmenv] at hlist
        exact hlist.symm
    cases hmenv : a.menv key.name with
    | none =>
      rw [hmenv] at hmark
      cases hmark
    | some mark =>
      rw [hmenv] at hmark
      exact congrArg some hmark
  · have hsame := (a.again_of_preparesOnce h (digitSecrets fun _ => false)).lines old mark hmem hold
    have hsame' := (a.again_of_preparesOnce h (digitSecrets fun other => decide (other = key))).lines old mark hmem hold
    exact exists_flatMap_ne hkey (hsame.trans hsame'.symm)
  · have hagain := a.again_of_preparesOnce h (digitSecrets fun _ => false)
    rcases @Accepted.get_new_of_empty host (digitSecrets fun _ => false) config a name hempty with hnew | ⟨-, hlong⟩
    · rw [get_eq_empty, Accepted.newEnv, fillEnv] at hnew
      cases hmenv : a.menv name with
      | none =>
        rw [hmenv] at hkey
        cases hkey
      | some mark =>
        rw [hmenv] at hnew hkey
        have hmem := List.flatMap_eq_nil_iff.mp hnew (.inr key) hkey
        exact Secret.text_ne_nil _ hmem
    · refine lookup_render_ne hname ?_ hlong (congrArg (List.lookup name) hagain.envFile.symm)
      rw [generated_name (settingNames_ne_key (Or.inl (List.mem_append_right _ hname))), hempty]

/-- Preparing twice is preparing once exactly if the marks stay. -/
theorem preparesOnce_iff (host : Host) (config : List ConfigLine) :
    PreparesOnce host config ↔ MarksStay host config := by
  constructor
  · intro h values env marks menv hsource hvalid hrun
    obtain ⟨a, rfl, rfl⟩ := exists_accepted hsource hvalid
    obtain ⟨rfl, rfl⟩ := Prod.mk.inj (Option.some.inj (a.marked_eq.symm.trans hrun))
    have hstays := a.stays_of_preparesOnce h
    exact ⟨hstays.keys, hstays.lines, hstays.shown⟩
  · intro h secrets result hresult
    obtain ⟨⟨values, env⟩, hsource, hfiles⟩ := Option.bind_eq_some_iff.mp hresult
    dsimp only at hfiles
    split_ifs at hfiles with hvalid
    obtain ⟨a, rfl, rfl⟩ := exists_accepted hsource hvalid
    obtain ⟨hkeys, hlines, hshown⟩ := h _ _ _ _ hsource hvalid a.marked_eq
    have hstays : a.Stays := ⟨hkeys, hlines, hshown⟩
    obtain rfl := Option.some.inj hfiles
    refine ⟨a.values, a.env, _, _, hsource, a.source_new, fun key => ?_, ?_, ?_, hstays.prepare_again⟩
    · rw [lookup_render]
      exact ⟨(hstays.get_key key).2, congrArg some (hstays.get_key key).1⟩
    · rw [List.forall₂_map_right_iff, List.forall₂_iff_zip]
      exact ⟨(List.forall₂_iff_zip.mp a.marked).1, fun hmem hold => hstays.value_eq hmem hold⟩
    · exact missing_eq_nil fun key => (hstays.get_key key).2

end

end

/-! ### An exported key -/

def plainHost : Host := ⟨fun _ => none, "/opt/deploy", fun _ => false, id⟩

def configLine (name value : String) : ConfigLine := ⟨false, false, ⟨name, [.text value.toList]⟩⟩

def exportedConfig : List ConfigLine :=
  [configLine "HOSTNAME" "ops", configLine "HTTP_PORT" "80", configLine "DB_NAME" "ops", configLine "DATA_VOLUME_DIR" "/d",
    ⟨false, true, ⟨"DB_PASSWORD", [.text []]⟩⟩, configLine "REDIS_PASSWORD" "r", configLine "JWT_SECRET_KEY" "j",
    configLine "SEED_ADMIN_PASSWORD" "s"]

/-- Behind `export` the empty password is never written back: each run makes a new one. -/
theorem exported_key_not_written :
    (∀ secrets, ∃ envFile, prepare plainHost secrets exportedConfig = some ⟨exportedConfig, envFile⟩ ∧
      envFile.lookup "DB_PASSWORD" = some (.ofList (secrets .dbPassword).text)) ∧
    ¬ PreparesOnce plainHost exportedConfig := by
  obtain ⟨values, env, hsource⟩ : ∃ values env, source plainHost exportedConfig = some (values, env) := ⟨_, _, rfl⟩
  have hrun : (source plainHost exportedConfig).map (fun (_, env) =>
      (missing env, validate plainHost (get env), get env "DB_PASSWORD")) = some ([.dbPassword], true, "") := by
    decide +kernel
  rw [hsource, Option.map_some, Option.some_inj, Prod.mk.injEq, Prod.mk.injEq] at hrun
  obtain ⟨hmissing, hvalid, hempty⟩ := hrun
  have hprepare (secrets : SecretKey → Secret) := @prepare_eq plainHost secrets env exportedConfig values hsource
  have hconfig (secrets : SecretKey → Secret) :
      (missing env).foldl (fun config key => config.map (·.writeBack key (secrets key))) exportedConfig =
        exportedConfig := by
    rw [hmissing]
    rfl
  simp only [if_pos hvalid, hconfig] at hprepare
  refine ⟨fun secrets => ⟨_, hprepare secrets, ?_⟩, fun h => ?_⟩
  · have hkey : SecretKey.dbPassword ∈ missing env := by
      rw [hmissing]
      exact List.mem_singleton_self _
    have hlookup := lookup_render plainHost (get (generated secrets env)) .dbPassword
    rw [get, generated_key hkey] at hlookup
    exact hlookup
  · obtain ⟨-, -, values', env', -, hsource', hkeys, -⟩ := h _ _ (hprepare (digitSecrets fun _ => true))
    obtain ⟨-, rfl⟩ := Prod.mk.inj (Option.some.inj (hsource.symm.trans hsource'))
    exact (hkeys .dbPassword).1 hempty

end OpsMonitor.Prepare
