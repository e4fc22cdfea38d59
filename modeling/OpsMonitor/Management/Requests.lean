import OpsMonitor.Library.Runs
import OpsMonitor.Management.Rules
import OpsMonitor.Server.Assets

/-! The management interface over its tables: which requests are answered, in every state that the
database allows. -/

namespace OpsMonitor.Management
open Library OpsMonitor.Alert

structure Db where
  accounts : Accounts
  servers : Table OpsServer
  rules : Table AlertRule
  events : Table AlertEvent

inductive Request
  | createUser (data : UserCreate)
  | updateUser (userId : ℕ) (data : UserUpdate)
  | deleteUser (now : Time) (userId : ℕ)
  | createServer (data : ServerCreate)
  | createRule (data : RuleCreate) (createdBy : Option ℕ)
  | updateRule (ruleId : ℕ) (data : RuleUpdate)
  | deleteRule (ruleId : ℕ)

section
variable (hasher : PasswordHasher) (upper : String → String)

def respond (db : Db) : Request → Except Failure Db
  | .createUser data => do
    let accounts ← createUser hasher db.accounts data
    pure { db with accounts := accounts }
  | .updateUser userId data => do
    let accounts ← updateUser hasher db.accounts userId data
    pure { db with accounts := accounts }
  | .deleteUser now userId => do
    let accounts ← deleteUser db.accounts now userId
    pure { db with accounts := accounts }
  | .createServer data => do
    let servers ← createServer db.servers data
    pure { db with servers := servers }
  | .createRule data createdBy => do
    let rules ← createRule upper db.accounts.users db.rules data createdBy
    pure { db with rules := rules }
  | .updateRule ruleId data => do
    let rules ← updateRule upper db.rules ruleId data
    pure { db with rules := rules }
  | .deleteRule ruleId => do
    let rules ← deleteRule db.rules db.events ruleId
    pure { db with rules := rules }

/-- The state after a request: one that fails is rolled back. -/
def serve (db : Db) (request : Request) : Db :=
  match respond hasher upper db request with
  | .ok db' => db'
  | .error _ => db

/-- The request is committed, or refused by the application and leaves no trace. -/
def Handled (db : Db) (request : Request) : Prop :=
  (∃ db', respond hasher upper db request = .ok db' ∧ serve hasher upper db request = db') ∨
    ∃ e, respond hasher upper db request = .error (.app e) ∧ serve hasher upper db request = db

end

/-- What the database enforces in the tables. -/
structure Db.Consistent (db : Db) : Prop where
  accounts : db.accounts.Consistent
  servers : serverSchema.Consistent db.servers
  fkEvent : ∀ event ∈ db.events, ∃ rule ∈ db.rules, rule.id = event.ruleId

/-- No server has the code or the address, one that was deleted included. -/
def ServerUnused (servers : Table OpsServer) (data : ServerCreate) : Prop :=
  ∀ s ∈ servers, s.serverCode ≠ data.serverCode ∧
    ¬(s.ipAddress = data.ipAddress ∧ s.sshPort = data.sshPort)

def ServerClean (servers : Table OpsServer) (data : ServerCreate) : Prop :=
  (getByServerCode servers data.serverCode).isSome ∨
    (getByIpPort servers data.ipAddress data.sshPort).isSome ∨ ServerUnused servers data

/-- Nothing stands in the way of a request that the service lets through. -/
def Clean (hasher : PasswordHasher) (upper : String → String) (db : Db) : Request → Prop
  | .createUser data => data.Clean hasher db.accounts
  | .updateUser userId data => data.Clean hasher db.accounts userId
  | .deleteUser _ _ => True
  | .createServer data => ServerClean db.servers data
  | .createRule data createdBy => data.Clean db.accounts.users db.rules upper createdBy
  | .updateRule ruleId data => data.Clean db.rules upper ruleId
  | .deleteRule ruleId =>
    (∃ rule ∈ db.rules, rule.id = ruleId) → ∀ event ∈ db.events, event.ruleId ≠ ruleId

variable {hasher : PasswordHasher} {upper : String → String} {db db' : Db} {request : Request}

theorem handled_iff : Handled hasher upper db request ↔ Answered (respond hasher upper db request) := by
  unfold Handled serve Answered
  cases respond hasher upper db request <;> simp

theorem serverSchema_unhandled : Unhandled serverSchema := by
  refine ⟨fun server e h => ?_, ?_⟩
  · simp only [serverSchema, OpsServer.overflow] at h
    split_ifs at h <;> simp at h
  · simp [serverSchema, ukOpsServerCode, ukOpsServerIpPort]

theorem createServer_answered_iff {servers : Table OpsServer} {data : ServerCreate} :
    Answered (createServer servers data) ↔ ServerClean servers data := by
  unfold createServer ServerClean
  split_ifs with hcode haddress
  · simp [hcode]
  · simp [haddress]
  rw [or_iff_right hcode, or_iff_right haddress]
  have hfresh : ∀ s ∈ servers, s.id ≠ servers.next := fun s hs => (Table.key_lt hs).ne
  have hok : serverSchema.refuse servers (Keyed.withKey servers.next (newServer data)) = none ↔
      ServerUnused servers data := by
    rw [Schema.refuse_eq_none, serverSchema_clash_eq_none]
    have hcolumn : serverSchema.column (Keyed.withKey servers.next (newServer data)) = none :=
      overflow_eq_none.mpr ⟨data.ipAddress_length.2, nofun, nofun, nofun⟩
    constructor
    · rintro ⟨-, hcode, haddress⟩ s hs
      exact ⟨fun h => hfresh s hs (hcode s hs h), fun h => hfresh s hs (haddress s hs h.1 h.2)⟩
    · intro h
      exact ⟨hcolumn, fun s hs hs' => absurd hs' (h s hs).1,
        fun s hs hip hport => absurd ⟨hip, hport⟩ (h s hs).2⟩
  rw [← hok]
  constructor
  · rintro (⟨servers', h⟩ | ⟨e, h⟩)
    · exact (Schema.insert_eq_ok.mp h).1
    · exact absurd h (serverSchema_unhandled.insert_ne _ e)
  · exact fun h => .inl ⟨_, Schema.insert_eq_ok.mpr ⟨h, rfl⟩⟩

/-! ## The constraints hold after every run -/

/-- Before the first start of the system. -/
def Db.empty : Db := ⟨⟨.empty, .empty, []⟩, .empty, .empty, .empty⟩

theorem Db.consistent_empty : Db.empty.Consistent where
  accounts := ⟨.empty, List.nodup_nil, nofun, nofun⟩
  servers := .empty
  fkEvent := fun event h => absurd h (Table.notMem_empty event)

/-- Rules are added and changed, and one that disappears has no events. -/
theorem Db.Consistent.withRules (h : db.Consistent) {rules : Table AlertRule}
    (hkeep : ∀ event ∈ db.events, ∀ rule ∈ db.rules, rule.id = event.ruleId →
      ∃ rule' ∈ rules, rule'.id = event.ruleId) : ({ db with rules := rules } : Db).Consistent := by
  refine ⟨h.accounts, h.servers, fun event hevent => ?_⟩
  obtain ⟨rule, hrule, hid⟩ := h.fkEvent event hevent
  exact hkeep event hevent rule hrule hid

theorem createRule_keeps {users : Table SysUser} {rules rules' : Table AlertRule} {data : RuleCreate}
    {createdBy : Option ℕ} (h : createRule upper users rules data createdBy = .ok rules') :
    ∀ rule ∈ rules, rule ∈ rules' := by
  unfold createRule at h
  by_cases hname : (getByName rules data.ruleName).isSome
  · rw [if_pos hname] at h
    cases h
  rw [if_neg hname, insertRule] at h
  simp only [bind_eq_ok] at h
  obtain ⟨_, -, _, -, _, -, _, -, _, -, _, -, _, -, _, -, _, -, _, -, hwrite⟩ := h
  split_ifs at hwrite with hcreator
  obtain rfl := pure_eq_ok.mp hwrite
  exact fun rule hrule => Table.mem_insert.mpr (.inl hrule)

theorem updateRule_keeps {rules rules' : Table AlertRule} {data : RuleUpdate} {ruleId : ℕ}
    (h : updateRule upper rules ruleId data = .ok rules') :
    ∀ rule ∈ rules, ∃ rule' ∈ rules', rule'.id = rule.id := by
  obtain ⟨found, -, h⟩ := bind_eq_ok.mp h
  by_cases hname : nameTaken rules found data.ruleName
  · rw [if_pos hname] at h
    cases h
  rw [if_neg hname, writeRule] at h
  simp only [bind_eq_ok] at h
  obtain ⟨_, -, _, -, _, -, _, -, _, -, _, -, _, -, _, -, _, -, _, -, _, -, hwrite⟩ := h
  obtain rfl := pure_eq_ok.mp hwrite
  intro rule hrule
  refine ⟨_, Table.mem_modify.mpr ⟨rule, hrule, rfl⟩, ?_⟩
  split_ifs <;> rfl

theorem deleteRule_keeps {rules rules' : Table AlertRule} {events : Table AlertEvent} {ruleId : ℕ}
    (h : deleteRule rules events ruleId = .ok rules') :
    ∀ event ∈ events, ∀ rule ∈ rules, rule.id = event.ruleId → rule ∈ rules' := by
  unfold deleteRule at h
  obtain ⟨found, -, h⟩ := bind_eq_ok.mp h
  split_ifs at h with hevents
  push Not at hevents
  obtain rfl := pure_eq_ok.mp h
  intro event hevent rule hrule hid
  exact Table.mem_remove.mpr ⟨hrule, by simpa using hid ▸ hevents event hevent⟩

theorem Db.Consistent.respond (h : db.Consistent)
    (hok : respond hasher upper db request = .ok db') : db'.Consistent := by
  cases request with
  | createUser data =>
    obtain ⟨accounts, haccounts, hok⟩ := bind_eq_ok.mp hok
    obtain rfl := pure_eq_ok.mp hok
    exact ⟨h.accounts.createUser haccounts, h.servers, h.fkEvent⟩
  | updateUser userId data =>
    obtain ⟨accounts, haccounts, hok⟩ := bind_eq_ok.mp hok
    obtain rfl := pure_eq_ok.mp hok
    exact ⟨h.accounts.updateUser haccounts, h.servers, h.fkEvent⟩
  | deleteUser now userId =>
    obtain ⟨accounts, haccounts, hok⟩ := bind_eq_ok.mp hok
    obtain rfl := pure_eq_ok.mp hok
    exact ⟨h.accounts.deleteUser haccounts, h.servers, h.fkEvent⟩
  | createServer data =>
    obtain ⟨servers, hservers, hok⟩ := bind_eq_ok.mp hok
    obtain rfl := pure_eq_ok.mp hok
    exact ⟨h.accounts, h.servers.insert (insert_of_createServer hservers), h.fkEvent⟩
  | createRule data createdBy =>
    obtain ⟨rules, hrules, hok⟩ := bind_eq_ok.mp hok
    obtain rfl := pure_eq_ok.mp hok
    exact h.withRules fun event _ rule hrule hid => ⟨rule, createRule_keeps hrules rule hrule, hid⟩
  | updateRule ruleId data =>
    obtain ⟨rules, hrules, hok⟩ := bind_eq_ok.mp hok
    obtain rfl := pure_eq_ok.mp hok
    refine h.withRules fun event _ rule hrule hid => ?_
    obtain ⟨rule', hrule', hid'⟩ := updateRule_keeps hrules rule hrule
    exact ⟨rule', hrule', hid'.trans hid⟩
  | deleteRule ruleId =>
    obtain ⟨rules, hrules, hok⟩ := bind_eq_ok.mp hok
    obtain rfl := pure_eq_ok.mp hok
    exact h.withRules fun event hevent rule hrule hid =>
      ⟨rule, deleteRule_keeps hrules event hevent rule hrule hid, hid⟩

theorem Db.Consistent.serve (h : db.Consistent) (request : Request) :
    (serve hasher upper db request).Consistent := by
  unfold Management.serve
  cases hok : Management.respond hasher upper db request with
  | ok db' => exact h.respond hok
  | error e => exact h

/-- Whatever the rest of the system wrote before, the requests keep the constraints. -/
theorem Db.Consistent.run (h : db.Consistent) (requests : List Request) :
    (run (Management.serve hasher upper) db requests).Consistent :=
  run_induction (C := fun _ _ => True) (I := fun _ (db : Db) => db.Consistent) h
    (fun _ e _ h => h.serve e) requests fun _ _ _ _ => trivial

/-! ## Which requests are handled -/

theorem answered_map {α β : Type} {x : Except Failure α} {f : α → β} :
    Answered (x >>= fun a => pure (f a)) ↔ Answered x := by
  cases x <;> simp [Answered, bind, Except.bind, pure, Except.pure]

theorem deleteUser_answered {accounts : Accounts} (now : Time) (userId : ℕ) :
    Answered (deleteUser accounts now userId) := answered_map.mpr (getUser_answered userId)

namespace Sample

/-- A library that takes every password. -/
def bcrypt : PasswordHasher := ⟨fun _ => some "$2b$12$hash", fun _ s hs => by
  obtain rfl := Option.some.inj hs
  decide⟩

def alice : UserCreate where
  username := "alice"
  password := "secret1"
  nickname := none
  email := none
  phone := none
  roleIds := []
  username_length := by decide
  username_pattern := by decide
  password_length := by decide
  nickname_length := nofun
  email_length := nofun
  phone_length := nofun

/-- The user is created and deleted. -/
def deleted : Db := run (serve bcrypt Library.upper) .empty [.createUser alice, .deleteUser 0 1]

end Sample

end OpsMonitor.Management
