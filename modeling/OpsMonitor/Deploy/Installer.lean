import OpsMonitor.Library.Yaml
import OpsMonitor.Agent.Config

/-! The configuration that the installers of both agents write from their arguments (`agent/install.sh`,
`agent-go/install.sh`), and what the agents read from it. -/

namespace OpsMonitor.Deploy
open Library Agent.Config
open Yaml (isBlank StandsForItself unlines quote)

/-! ## The shell -/

/-- The words of a line, with blanks between them. -/
def words (s : String) : List String := ((s.toList.splitOnP isBlank).filter (· ≠ [])).map .ofList

/-- `-n`, `-e`, `-E` and their combinations. -/
def isEchoOption (word : String) : Bool :=
  match word.toList with
  | '-' :: rest => rest ≠ [] && rest.all fun c => c = 'n' || c = 'e' || c = 'E'
  | _ => false

/-- `echo "$s"` of the shell. -/
def echo (s : String) : String :=
  if isEchoOption s then if 'n' ∈ s.toList then "" else "\n" else s ++ "\n"

/-- `$(...)` of that output. -/
def substitute (output : String) : String := .ofList (output.toList.reverse.dropWhile (· = '\n')).reverse

/-- `IFS=',' read -ra`: the first line, without the empty field after a comma at its end. -/
def readFields (text : String) : List String :=
  let fields := (text.toList.takeWhile (· ≠ '\n')).splitOn ','
  (if fields.getLast? = some [] then fields.dropLast else fields).map .ofList

/-- A line that `xargs` passes to `echo` word by word and `echo` writes as it is. -/
structure PlainWords (text : String) : Prop where
  characters : ∀ c ∈ text.toList, c ≠ '\'' ∧ c ≠ '"' ∧ c ≠ '\\' ∧ c ≠ '\n'
  no_option : ∀ word ∈ (words text).head?, isEchoOption word = false
  no_help : words text ≠ ["--help"] ∧ words text ≠ ["--version"]

/-- The programs that the installer and the agents use: `xargs` (its output, if it does not fail),
PyYAML and yaml.v3. -/
structure Programs where
  xargs : String → Option String
  safeLoad : String → Option Yaml.Document
  unmarshal : String → Option Yaml.Document

/-- What they do according to their documentation. -/
structure Documented (programs : Programs) : Prop where
  xargs : ∀ text, PlainWords text →
    programs.xargs (text ++ "\n") = some (" ".intercalate (words text) ++ "\n")
  safeLoad : ∀ text document, Yaml.parse text = some document → programs.safeLoad text = some document
  unmarshal : ∀ text document, Yaml.parse text = some document → programs.unmarshal text = some document

/-! ## The configuration -/

def configLines (url token code : String) (services : List String) : List String :=
  ["server:", "  url: " ++ quote url, "  token: " ++ quote token, "  server_code: " ++ quote code, "",
    "collect:", "  heartbeat_interval: 30", "  metrics_interval: 10", "  assets_interval: 60",
    "  task_poll_interval: 5", "  retry_max_seconds: 60", "  connect_timeout: 5", "  request_timeout: 10",
    "  services:"] ++ services.map ("    - " ++ quote ·) ++ ["", "log:", "  level: \"INFO\""]

/-- `s="$(echo "$s" | xargs)"`. -/
def Programs.item (programs : Programs) (s : String) : Option String :=
  (programs.xargs (echo s)).map substitute

/-- The text of `config.yaml`. Without it the script has stopped. -/
def generateConfig (programs : Programs) (url token code services : String) : Option String :=
  if url = "" ∨ token = "" ∨ code = "" then none
  else
    let services := if services = "" then "nginx,docker,ssh" else services
    ((readFields services).mapM programs.item).map fun items =>
      unlines (configLines url token code (items.filter (· ≠ "")))

/-! ## What the agents read -/

inductive AgentKind
  | python | go
  deriving DecidableEq

def textOf : Option Yaml.Value → Option (Option String)
  | none => some none
  | some (.text s) => some (some s)
  | _ => none

def numberOf : Option Yaml.Value → Option (Option ℕ)
  | none => some none
  | some (.number n) => some (some n)
  | _ => none

/-- A list. The Go agent takes none for the default, the Python agent does not take it. -/
def listOf (agent : AgentKind) : Option Yaml.Value → Option (Option (List String))
  | none => some none
  | some (.list items) => some (some items)
  | some .null => if agent = .go then some none else none
  | _ => none

/-- The values of the keys, where each has the type of its field. -/
def documentOf (agent : AgentKind) (document : Yaml.Document) : Option Document := do
  let text key := textOf (document.find "server" key)
  let number key := numberOf (document.find "collect" key)
  let timeout key := (number key).map (·.map (fun n : ℕ => (n : ℚ)))
  let interval key := (number key).map (·.map (fun n : ℕ => (n : ℤ)))
  return {
    server := {
      url := ← text "url"
      token := ← text "token"
      serverCode := ← text "server_code"
      signingKeyFile := ← text "signing_key_file" }
    collect := {
      heartbeatInterval := ← interval "heartbeat_interval"
      metricsInterval := ← interval "metrics_interval"
      assetsInterval := ← interval "assets_interval"
      taskPollInterval := ← interval "task_poll_interval"
      retryMaxSeconds := ← interval "retry_max_seconds"
      retryMaxCount := ← interval "retry_max_count"
      connectTimeout := ← timeout "connect_timeout"
      requestTimeout := ← timeout "request_timeout"
      services := ← listOf agent (document.find "collect" "services") }
    log := {
      level := ← textOf (document.find "log" "level")
      file := ← textOf (document.find "log" "file") } }

/-- The configuration that an agent loads from a file in that directory, if it accepts it. -/
def readConfig (programs : Programs) (cwd : Directory) (dir : Path) (text : String) :
    AgentKind → Option AgentConfig
  | .python => (programs.safeLoad text).bind (documentOf .python) |>.bind fun doc => (loadConfig cwd dir doc).toOption
  | .go => (programs.unmarshal text).bind (documentOf .go) |>.bind fun doc => (load dir doc).toOption

/-- The items of a list that are not blank, without the blanks around them. -/
def listed (services : String) : List String :=
  ((services.toList.splitOn ',').map fun item => trim isBlank (.ofList item)).filter (· ≠ "")

/-- The agent accepts what the installer writes and reads back what the installer was given. -/
def InstallsGiven (programs : Programs) (agent : AgentKind) (url token code services : String) : Prop :=
  ∃ text, generateConfig programs url token code services = some text ∧
    ∀ cwd dir, ∃ config, readConfig programs cwd dir text agent = some config ∧ config.url = url ∧
      config.token = token ∧ config.serverCode = code ∧ config.services = listed services

/-! ## When they are read back -/

/-- A value that stands for itself and is accepted: the Go agent takes blanks for nothing. -/
structure PlainValue (agent : AgentKind) (value : String) : Prop where
  stands : StandsForItself value
  nonempty : value ≠ ""
  written : agent = .go → Written value

/-- An item that passes through `echo` and `xargs` and stands for itself. -/
structure PlainItem (item : String) : Prop where
  stands : StandsForItself item
  no_quote : '\'' ∉ item.toList
  spaced : " ".intercalate (words item) = item
  no_option : ∀ word ∈ (words item).head?, isEchoOption word = false
  no_help : item ≠ "--help" ∧ item ≠ "--version"

structure PlainArguments (agent : AgentKind) (url token code services : String) : Prop where
  url : PlainValue agent url
  token : PlainValue agent token
  code : PlainValue agent code
  one_line : '\n' ∉ services.toList
  some_item : listed services ≠ []
  items : ∀ item ∈ listed services, PlainItem item

/-! ### The items -/

section
variable {programs : Programs} {s : String}

theorem splitOnP_filter_append {a l : List Char} (ha : ∀ c ∈ a, isBlank c = true) :
    ((a ++ l).splitOnP isBlank).filter (· ≠ []) = (l.splitOnP isBlank).filter (· ≠ []) := by
  induction a with
  | nil => rfl
  | cons c a ih =>
    rw [List.cons_append, List.splitOnP_cons_eq_if_modifyHead, if_pos (ha c List.mem_cons_self), List.filter_cons_of_neg (by simp)]
    exact ih fun d hd => ha d (List.mem_cons_of_mem _ hd)

theorem splitOnP_filter_concat {l b : List Char} (hb : ∀ c ∈ b, isBlank c = true) :
    ((l ++ b).splitOnP isBlank).filter (· ≠ []) = (l.splitOnP isBlank).filter (· ≠ []) := by
  cases b with
  | nil => rw [List.append_nil]
  | cons c b =>
    have hnil : (b.splitOnP isBlank).filter (· ≠ []) = [] := by
      have happend := @splitOnP_filter_append b [] fun d hd => hb d (List.mem_cons_of_mem _ hd)
      rw [List.append_nil] at happend
      exact happend
    rw [List.splitOnP_append_cons _ _ (hb c List.mem_cons_self), List.filter_append, hnil, List.append_nil]

/-- Blanks around a text do not change its words. -/
theorem words_trim (s : String) : words (trim isBlank s) = words s := by
  obtain ⟨a, b, ha, hb, hs⟩ := trim_split isBlank s
  rw [words, words, hs, splitOnP_filter_append ha, splitOnP_filter_concat hb]

theorem substitute_append_newline (h : '\n' ∉ s.toList) : substitute (s ++ "\n") = s := by
  have hreverse : (s ++ "\n").toList.reverse = '\n' :: s.toList.reverse := by
    simp
  have hdrop : s.toList.reverse.dropWhile (· = '\n') = s.toList.reverse := by
    refine List.dropWhile_eq_self_iff.mpr fun hlength heq => h ?_
    have hmem := List.mem_reverse.mp (List.getElem_mem hlength)
    rwa [of_decide_eq_true heq] at hmem
  rw [substitute, hreverse, List.dropWhile_cons_of_pos (by simp), hdrop, List.reverse_reverse, String.ofList_toList]

/-- An option of `echo` is a word of its own. -/
theorem words_of_isEchoOption (h : isEchoOption s = true) : words s = [s] := by
  unfold isEchoOption at h
  split at h
  · rename_i rest hs
    rw [Bool.and_eq_true, List.all_eq_true, decide_eq_true_eq] at h
    have hblank : ∀ c ∈ s.toList, isBlank c = false := by
      rw [hs]
      intro c hc
      rcases List.mem_cons.mp hc with rfl | hc
      · decide
      · have hletter := h.2 c hc
        simp only [Bool.or_eq_true, decide_eq_true_eq] at hletter
        rcases hletter with (rfl | rfl) | rfl <;> decide
    have hne : s.toList ≠ [] := hs ▸ List.cons_ne_nil _ _
    rw [words, List.splitOnP_eq_singleton hblank, List.filter_cons_of_pos (by simpa using hne), List.filter_nil,
      List.map_singleton, String.ofList_toList]
  · cases h

theorem isEchoOption_eq_false (h : ∀ word ∈ (words s).head?, isEchoOption word = false) : isEchoOption s = false := by
  by_contra hoption
  rw [Bool.not_eq_false] at hoption
  have hs := h s (by rw [words_of_isEchoOption hoption]; rfl)
  rw [hs] at hoption
  cases hoption

theorem item_eq_of_words (hp : Documented programs) (h : PlainWords s)
    (hjoin : '\n' ∉ (" ".intercalate (words s)).toList) :
    programs.item s = some (" ".intercalate (words s)) := by
  rw [Programs.item, echo, isEchoOption_eq_false h.no_option, if_neg Bool.false_ne_true, hp.xargs s h,
    Option.map_some, substitute_append_newline hjoin]

/-- Each field gives its text without the blanks around it. -/
theorem item_eq (hp : Documented programs) (hline : '\n' ∉ s.toList)
    (h : trim isBlank s ≠ "" → PlainItem (trim isBlank s)) : programs.item s = some (trim isBlank s) := by
  by_cases hblank : trim isBlank s = ""
  · have hwords : words s = [] := by
      rw [← words_trim, hblank]
      rfl
    have hplain : PlainWords s := by
      refine ⟨fun c hc => ?_, ?_, ?_⟩
      · have hc := trim_eq_empty.mp hblank c hc
        simp only [isBlank, Bool.or_eq_true, decide_eq_true_eq] at hc
        rcases hc with rfl | rfl <;> decide
      · rw [hwords]
        exact fun word hword => by cases hword
      · rw [hwords]
        exact ⟨(List.cons_ne_nil _ _).symm, (List.cons_ne_nil _ _).symm⟩
    have hjoin : " ".intercalate (words s) = "" := by
      rw [hwords]
      rfl
    rw [item_eq_of_words hp hplain (by rw [hjoin]; decide), hjoin, hblank]
  · have hitem := h hblank
    obtain ⟨a, b, ha, hb, hs⟩ := trim_split isBlank s
    have hjoin : " ".intercalate (words s) = trim isBlank s := by
      rw [← words_trim]
      exact hitem.spaced
    have hplain : PlainWords s := by
      refine ⟨fun c hc => ?_, ?_, ?_, ?_⟩
      · have hnewline : c ≠ '\n' := fun heq => hline (heq ▸ hc)
        have houter : isBlank c = true → c ≠ '\'' ∧ c ≠ '"' ∧ c ≠ '\\' := by
          intro hc
          simp only [isBlank, Bool.or_eq_true, decide_eq_true_eq] at hc
          rcases hc with rfl | rfl <;> decide
        rw [hs, List.mem_append, List.mem_append] at hc
        rcases hc with hc | hc | hc
        · exact ⟨(houter (ha c hc)).1, (houter (ha c hc)).2.1, (houter (ha c hc)).2.2, hnewline⟩
        · have hunescaped := hitem.stands.unescaped c hc
          exact ⟨fun heq => hitem.no_quote (heq ▸ hc), hunescaped.1, hunescaped.2, hnewline⟩
        · exact ⟨(houter (hb c hc)).1, (houter (hb c hc)).2.1, (houter (hb c hc)).2.2, hnewline⟩
      · rw [← words_trim]
        exact hitem.no_option
      · rintro hwords
        rw [hwords] at hjoin
        exact hitem.no_help.1 hjoin.symm
      · rintro hwords
        rw [hwords] at hjoin
        exact hitem.no_help.2 hjoin.symm
    rw [item_eq_of_words hp hplain (hjoin ▸ hitem.stands.newline_notMem), hjoin]

/-! ### The list -/

theorem mapM_eq_some {α β : Type*} {f : α → Option β} {l : List α} {l' : List β} (h : l.map f = l'.map some) :
    l.mapM f = some l' := by
  induction l generalizing l' with
  | nil =>
    rw [List.map_nil, eq_comm, List.map_eq_nil_iff] at h
    rw [h]
    rfl
  | cons a l ih =>
    cases l' with
    | nil => cases h
    | cons b l' =>
      obtain ⟨hhead, htail⟩ := List.cons.inj h
      rw [List.mapM_cons, hhead, ih htail]
      rfl

/-- The empty field after a comma at the end makes no difference. -/
theorem listed_eq (h : '\n' ∉ s.toList) :
    ((readFields s).map (trim isBlank)).filter (· ≠ "") = listed s := by
  have htake : s.toList.takeWhile (· ≠ '\n') = s.toList := by
    refine List.takeWhile_eq_self_iff.mpr fun c hc => ?_
    exact decide_eq_true fun heq => h (heq ▸ hc)
  rw [readFields, htake, listed]
  split_ifs with hlast
  · obtain ⟨fields, hfields⟩ : ∃ fields, s.toList.splitOn ',' = fields ++ [[]] := List.getLast?_eq_some_iff.mp hlast
    rw [hfields, List.dropLast_concat, List.map_append, List.filter_append, List.map_map]
    exact (List.append_nil _).symm
  · rw [List.map_map]
    rfl

theorem mem_of_mem_splitOn {α : Type*} [DecidableEq α] {sep a : α} {part l : List α} (hpart : part ∈ l.splitOn sep)
    (ha : a ∈ part) : a ∈ l := by
  induction l generalizing part with
  | nil =>
    rw [List.splitOn_nil, List.mem_singleton] at hpart
    exact hpart ▸ ha
  | cons b l ih =>
    obtain ⟨first, rest, hsplit⟩ := List.exists_cons_of_ne_nil (List.splitOn_ne_nil sep l)
    rw [List.splitOn_cons_eq_if_modifyHead] at hpart
    split_ifs at hpart
    · rcases List.mem_cons.mp hpart with rfl | hpart
      · cases ha
      · exact List.mem_cons_of_mem _ (ih hpart ha)
    · rw [hsplit, List.modifyHead_cons] at hpart
      rw [hsplit] at ih
      rcases List.mem_cons.mp hpart with rfl | hpart
      · rcases List.mem_cons.mp ha with rfl | ha
        · exact List.mem_cons_self
        · exact List.mem_cons_of_mem _ (ih List.mem_cons_self ha)
      · exact List.mem_cons_of_mem _ (ih (List.mem_cons_of_mem _ hpart) ha)

theorem mem_fields {field : String} (h : '\n' ∉ s.toList) (hfield : field ∈ readFields s) :
    '\n' ∉ field.toList ∧ (trim isBlank field ≠ "" → trim isBlank field ∈ listed s) := by
  constructor
  · have hmem : ∃ cs ∈ (s.toList.takeWhile (· ≠ '\n')).splitOn ',', field = .ofList cs := by
      unfold readFields at hfield
      dsimp only at hfield
      obtain ⟨cs, hcs, rfl⟩ := List.mem_map.mp hfield
      refine ⟨cs, ?_, rfl⟩
      split_ifs at hcs with hlast
      · exact List.dropLast_subset _ hcs
      · exact hcs
    obtain ⟨cs, hcs, rfl⟩ := hmem
    rw [String.toList_ofList]
    intro hnewline
    exact h (List.takeWhile_subset _ (mem_of_mem_splitOn hcs hnewline))
  · intro hne
    rw [← listed_eq h]
    exact List.mem_filter.mpr ⟨List.mem_map_of_mem hfield, decide_eq_true hne⟩

theorem generateConfig_eq {agent : AgentKind} {url token code services : String} (hp : Documented programs)
    (h : PlainArguments agent url token code services) :
    generateConfig programs url token code services = some (unlines (configLines url token code (listed services))) := by
  have hgiven : ¬ (url = "" ∨ token = "" ∨ code = "") := by
    rintro (heq | heq | heq)
    · exact h.url.nonempty heq
    · exact h.token.nonempty heq
    · exact h.code.nonempty heq
  have hservices : services ≠ "" := by
    rintro rfl
    exact h.some_item (by decide)
  have hitems : (readFields services).mapM programs.item = some ((readFields services).map (trim isBlank)) := by
    refine mapM_eq_some ?_
    rw [List.map_map]
    refine List.map_congr_left fun field hfield => ?_
    obtain ⟨hline, hmem⟩ := mem_fields h.one_line hfield
    exact item_eq hp hline fun hne => h.items _ (hmem hne)
  rw [generateConfig, if_neg hgiven, if_neg hservices]
  dsimp only
  rw [hitems, Option.map_some, listed_eq h.one_line]

/-! ### The text -/

def configTokens (url token code : String) (services : List String) : List Yaml.Line :=
  [.section "server", .entry "url" (some (.text url)), .entry "token" (some (.text token)),
    .entry "server_code" (some (.text code)), .empty, .section "collect",
    .entry "heartbeat_interval" (some (.number 30)), .entry "metrics_interval" (some (.number 10)),
    .entry "assets_interval" (some (.number 60)), .entry "task_poll_interval" (some (.number 5)),
    .entry "retry_max_seconds" (some (.number 60)), .entry "connect_timeout" (some (.number 5)),
    .entry "request_timeout" (some (.number 10)), .entry "services" none] ++ services.map .item ++
    [.empty, .section "log", .entry "level" (some (.text "INFO")), .empty]

def configDocument (url token code : String) (services : List String) : Yaml.Document :=
  [("server", [("url", .text url), ("token", .text token), ("server_code", .text code)]),
    ("collect", [("heartbeat_interval", .number 30), ("metrics_interval", .number 10), ("assets_interval", .number 60),
      ("task_poll_interval", .number 5), ("retry_max_seconds", .number 60), ("connect_timeout", .number 5),
      ("request_timeout", .number 10), ("services", .list services)]),
    ("log", [("level", .text "INFO")])]

variable {url token code : String} {services : List String}

theorem newline_notMem_quote {text value : String} (htext : '\n' ∉ text.toList) (hvalue : StandsForItself value) :
    '\n' ∉ (text ++ quote value).toList := by
  intro hmem
  simp only [quote, String.toList_append, List.mem_append] at hmem
  rcases hmem with hmem | (hmem | hmem) | hmem
  · exact htext hmem
  · exact absurd hmem (by decide)
  · exact hvalue.newline_notMem hmem
  · exact absurd hmem (by decide)

theorem newline_notMem_configLines (hurl : StandsForItself url) (htoken : StandsForItself token)
    (hcode : StandsForItself code) (hservices : ∀ item ∈ services, StandsForItself item) :
    ∀ line ∈ configLines url token code services, '\n' ∉ line.toList := by
  intro line hline
  rw [configLines, List.mem_append, List.mem_append] at hline
  rcases hline with (hline | hline) | hline
  · simp only [List.mem_cons, List.not_mem_nil, or_false] at hline
    rcases hline with rfl | rfl | rfl | rfl | rfl | rfl | rfl | rfl | rfl | rfl | rfl | rfl | rfl | rfl
    case inr.inl => exact newline_notMem_quote (by decide) hurl
    case inr.inr.inl => exact newline_notMem_quote (by decide) htoken
    case inr.inr.inr.inl => exact newline_notMem_quote (by decide) hcode
    all_goals decide
  · obtain ⟨item, hitem, rfl⟩ := List.mem_map.mp hline
    exact newline_notMem_quote (by decide) (hservices item hitem)
  · have hfixed : ∀ line ∈ ["", "log:", "  level: \"INFO\""], '\n' ∉ line.toList := by decide
    exact hfixed line hline

/-- The lines that hold no value of the arguments. -/
theorem readLine_fixed : ["server:", "", "collect:", "  heartbeat_interval: 30", "  metrics_interval: 10",
    "  assets_interval: 60", "  task_poll_interval: 5", "  retry_max_seconds: 60", "  connect_timeout: 5",
    "  request_timeout: 10", "  services:", "log:", "  level: \"INFO\""].map (fun line => Yaml.readLine line.toList) =
    [.section "server", .empty, .section "collect", .entry "heartbeat_interval" (some (.number 30)),
      .entry "metrics_interval" (some (.number 10)), .entry "assets_interval" (some (.number 60)),
      .entry "task_poll_interval" (some (.number 5)), .entry "retry_max_seconds" (some (.number 60)),
      .entry "connect_timeout" (some (.number 5)), .entry "request_timeout" (some (.number 10)),
      .entry "services" none, .section "log", .entry "level" (some (.text "INFO"))].map some := by
  decide +kernel

theorem mapM_readLine (hurl : StandsForItself url) (htoken : StandsForItself token)
    (hcode : StandsForItself code) (hservices : ∀ item ∈ services, StandsForItself item) :
    ((configLines url token code services).map String.toList ++ [[]]).mapM Yaml.readLine =
      some (configTokens url token code services) := by
  have hitems : services.map (Yaml.readLine ∘ String.toList ∘ ("    - " ++ quote ·)) =
      services.map (some ∘ Yaml.Line.item) :=
    List.map_congr_left fun item hitem => Yaml.readLine_item (hservices item hitem)
  have hkeys : (["url", "token", "server_code"].all fun key => key.toList.all Yaml.isKeyChar && key ≠ "") = true := by
    decide +kernel
  have hvalue : ∀ key ∈ ["url", "token", "server_code"], ∀ value, StandsForItself value →
      ∀ text, text = "  " ++ key ++ ": " →
        Yaml.readLine (text ++ quote value).toList = some (.entry key (some (.text value))) := by
    rintro key hkey value hstands text rfl
    have hkey := List.all_eq_true.mp hkeys key hkey
    rw [Bool.and_eq_true, List.all_eq_true, decide_eq_true_eq] at hkey
    exact Yaml.readLine_entry hkey.1 hkey.2 hstands
  have hnil : Yaml.readLine [] = some .empty := rfl
  have hfixed := readLine_fixed
  simp only [List.map_cons, List.map_nil, List.cons.injEq, and_true] at hfixed
  obtain ⟨hserver, hempty, hcollect, h1, h2, h3, h4, h5, h6, h7, hkey, hlog, hlevel⟩ := hfixed
  refine mapM_eq_some ?_
  simp only [configLines, configTokens, List.map_append, List.map_cons, List.map_nil, List.map_map, hitems,
    hserver, hempty, hcollect, h1, h2, h3, h4, h5, h6, h7, hkey, hlog, hlevel,
    hvalue "url" (by simp) url hurl "  url: " (by decide),
    hvalue "token" (by simp) token htoken "  token: " (by decide),
    hvalue "server_code" (by simp) code hcode "  server_code: " (by decide), List.append_assoc,
    List.cons_append, List.nil_append, hnil]

theorem parse_config (hurl : StandsForItself url) (htoken : StandsForItself token)
    (hcode : StandsForItself code) (hservices : ∀ item ∈ services, StandsForItself item) (hne : services ≠ []) :
    Yaml.parse (unlines (configLines url token code services)) =
      some (configDocument url token code services) := by
  have hbuild : Yaml.build (configTokens url token code services) =
      some ⟨configDocument url token code services, [], []⟩ := by
    have hlog : Yaml.build [.empty, .section "log", .entry "level" (some (.text "INFO")), .empty] =
        some ⟨[("log", [("level", .text "INFO")])], [], []⟩ := rfl
    have hitems := Yaml.build_items services hlog
    rw [List.append_nil] at hitems
    rw [configTokens, List.append_assoc]
    simp [Yaml.build, hitems, Yaml.Parts.add, hne, configDocument]
  rw [Yaml.parse, Yaml.splitOn_unlines (newline_notMem_configLines hurl htoken hcode hservices),
    mapM_readLine hurl htoken hcode hservices, Option.bind_some, hbuild, Option.bind_some, if_pos]
  simp [configDocument]

/-- What the keys of that document hold. -/
def configValues (url token code : String) (services : List String) : Document where
  server := ⟨some url, some token, some code, none⟩
  collect := ⟨some 30, some 10, some 60, some 5, some 60, none, some 5, some 10, some services⟩
  log := ⟨some "INFO", none⟩

theorem documentOf_config (agent : AgentKind) : documentOf agent (configDocument url token code services) =
    some (configValues url token code services) := rfl

/-! ### The agents -/

theorem loadConfig_config (htoken : token ≠ "") (hcode : code ≠ "") (cwd : Directory) (dir : Path) :
    ∃ config, loadConfig cwd dir (configValues url token code services) = .ok config ∧ config.url = url ∧
      config.token = token ∧ config.serverCode = code ∧ config.services = services := by
  have hlength : ∀ value : String, value ≠ "" → ¬ value.length < 1 := by
    intro value hvalue hlt
    exact hvalue (String.length_eq_zero_iff.mp (Nat.lt_one_iff.mp hlt))
  have hvalid : validationErrors (configValues url token code services) = [] := by
    simp [validationErrors, configValues, checkText, checkAtLeast, checkPositive, hlength _ htoken, hlength _ hcode]
  unfold loadConfig
  dsimp only
  rw [if_pos hvalid]
  exact ⟨_, rfl, rfl, rfl, rfl, rfl⟩

/-- The defaults of the Go agent with the values of the file, after its zero values are replaced. -/
def goConfig (url token code : String) (services : List String) : RawConfig :=
  { defaults with url := url, token := token, serverCode := code, services := services }

theorem load_config (hurl : Written url) (htoken : Written token) (hcode : Written code) (hservices : services ≠ [])
    (dir : Path) :
    ∃ config, load dir (configValues url token code services) = .ok config ∧ config.url = url ∧
      config.token = token ∧ config.serverCode = code ∧ config.services = services := by
  have hunmarshal : unmarshal (configValues url token code services) defaults = .ok (goConfig url token code services) :=
    rfl
  have hdefaults : applyDefaults (goConfig url token code services) = goConfig url token code services := by
    simp [applyDefaults, goConfig, defaults, orDefault, hservices]
  have hvalid : validate (goConfig url token code services).toSettings = .ok () := by
    have hone : (0 : ℚ) < 5 ∧ (0 : ℚ) < 10 := by
      norm_num
    simp [validate, require, goConfig, defaults, hurl, htoken, hcode, hone.1, hone.2]
    rfl
  unfold load
  rw [hunmarshal]
  dsimp only [bind, Except.bind]
  rw [hdefaults, hvalid]
  exact ⟨_, rfl, rfl, rfl, rfl, rfl⟩

/-- The installer writes what it was given if every value stands for itself. -/
theorem installsGiven {agent : AgentKind} (hp : Documented programs) (h : PlainArguments agent url token code s) :
    InstallsGiven programs agent url token code s := by
  have hitems : ∀ item ∈ listed s, StandsForItself item := fun item hitem => (h.items item hitem).stands
  have hparse := parse_config h.url.stands h.token.stands h.code.stands hitems h.some_item
  refine ⟨_, generateConfig_eq hp h, fun cwd dir => ?_⟩
  cases agent with
  | python =>
    obtain ⟨config, hconfig, hread⟩ := @loadConfig_config url token code (listed s) h.token.nonempty h.code.nonempty cwd dir
    refine ⟨config, ?_, hread⟩
    rw [readConfig, hp.safeLoad _ _ hparse, Option.bind_some, documentOf_config, Option.bind_some, hconfig]
    rfl
  | go =>
    obtain ⟨config, hconfig, hread⟩ := load_config (h.url.written rfl) (h.token.written rfl) (h.code.written rfl) h.some_item dir
    refine ⟨config, ?_, hread⟩
    rw [readConfig, hp.unmarshal _ _ hparse, Option.bind_some, documentOf_config, Option.bind_some, hconfig]
    rfl

end

/-! ## A code with a backslash -/

def plainPrograms : Programs where
  xargs := fun text => some (" ".intercalate (words (substitute text)) ++ "\n")
  safeLoad := Yaml.parse
  unmarshal := Yaml.parse

theorem plainPrograms_documented : Documented plainPrograms where
  xargs := by
    intro text h
    have hline : '\n' ∉ text.toList := fun hmem => (h.characters _ hmem).2.2.2 rfl
    show some (" ".intercalate (words (substitute (text ++ "\n"))) ++ "\n") = _
    rw [substitute_append_newline hline]
  safeLoad := fun _ _ h => h
  unmarshal := fun _ _ h => h

theorem installsGiven_plain :
    InstallsGiven plainPrograms .go "http://ops" "t0ken" "web-01" " nginx,, docker ce ,nginx" := by
  refine installsGiven plainPrograms_documented ?_
  have hvalue : ∀ value ∈ ["http://ops", "t0ken", "web-01"], PlainValue .go value := by
    intro value hvalue
    have hstands : (["http://ops", "t0ken", "web-01"].all fun value => (value.toList.all fun c =>
        Yaml.isPrintable c && c ≠ '"' && c ≠ '\\' && !Yaml.isSeparator c) && value ≠ "" &&
          trim isWhiteSpace value ≠ "") = true := by
      decide +kernel
    have hstands := List.all_eq_true.mp hstands value hvalue
    simp only [Bool.and_eq_true, decide_eq_true_eq] at hstands
    exact ⟨Yaml.standsForItself_of_all hstands.1.1, hstands.1.2, fun _ => hstands.2⟩
  have hlisted : listed " nginx,, docker ce ,nginx" = ["nginx", "docker ce", "nginx"] := by
    decide +kernel
  refine ⟨hvalue _ (by simp), hvalue _ (by simp), hvalue _ (by simp), by decide, ?_, ?_⟩
  · rw [hlisted]
    exact List.cons_ne_nil _ _
  · rw [hlisted]
    have hitem : ∀ item ∈ ["nginx", "docker ce"], PlainItem item := by
      intro item hitem
      have hstands : (["nginx", "docker ce"].all fun item => (item.toList.all fun c =>
          Yaml.isPrintable c && c ≠ '"' && c ≠ '\\' && !Yaml.isSeparator c) && '\'' ∉ item.toList &&
            " ".intercalate (words item) = item && (words item).head?.all (!isEchoOption ·) &&
              item ≠ "--help" && item ≠ "--version") = true := by
        decide +kernel
      have hstands := List.all_eq_true.mp hstands item hitem
      simp only [Bool.and_eq_true, decide_eq_true_eq] at hstands
      obtain ⟨⟨⟨⟨⟨hplain, hquote⟩, hspaced⟩, hoption⟩, hhelp⟩, hversion⟩ := hstands
      refine ⟨Yaml.standsForItself_of_all hplain, hquote, hspaced, fun word hword => ?_, hhelp, hversion⟩
      rw [hword] at hoption
      simpa using hoption
    intro item hmem
    refine hitem item ?_
    simp only [List.mem_cons, List.not_mem_nil, or_false] at hmem ⊢
    tauto

/-- The installers write the code `web\\n1` as it is, and YAML reads a line break in it. -/
theorem code_with_backslash : Documented plainPrograms ∧
    ∀ agent, ¬ InstallsGiven plainPrograms agent "http://ops" "t0ken" "web\\n1" "nginx" := by
  refine ⟨plainPrograms_documented, fun agent ⟨text, htext, hread⟩ => ?_⟩
  have hread := hread ⟨[], List.not_mem_nil⟩ ⟨true, []⟩
  obtain ⟨config, hconfig, -, -, hcode, -⟩ := hread
  have hcodes : ∀ agent, (generateConfig plainPrograms "http://ops" "t0ken" "web\\n1" "nginx").bind (fun text =>
      (readConfig plainPrograms ⟨[], List.not_mem_nil⟩ ⟨true, []⟩ text agent).map (·.serverCode)) = some "web\n1" := by
    intro agent
    cases agent <;> decide +kernel
  have heq := hcodes agent
  rw [htext, Option.bind_some, hconfig, Option.map_some, hcode] at heq
  exact absurd heq (by decide)

end OpsMonitor.Deploy
