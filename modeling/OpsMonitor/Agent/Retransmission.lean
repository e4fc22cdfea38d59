import OpsMonitor.Agent.Gateway
import OpsMonitor.Agent.ReplayWindow
import OpsMonitor.Agent.Transport
import OpsMonitor.Task.Concurrency

/-! A call of an agent over a transport that loses requests and answers (`AgentClient._request`,
`Client.request`). The signature headers are made once, before the loop that sends the request again, and
the backend takes a request id once. -/

namespace OpsMonitor.Agent
open Library Base64

/-! ## The two sides -/

/-- What the loss of a transmission hits. -/
inductive Loss
  | request
  | response
  deriving DecidableEq

/-- The backend between two transmissions. -/
structure Backend (D : Type) where
  tokens : Table OpsAgentToken
  servers : Table OpsServer
  redis : Redis
  db : D

/-- A call, when the backend gets its transmissions, and what the backend does for others before each. -/
structure Call (D : Type) where
  signer : AgentSigner
  agentNow : ℚ
  requestId : String
  request : Request
  bearer : String
  losses : List Loss
  now : ℕ → ℚ
  backend : Backend D
  others : ℕ → Backend D → Backend D

abbrev Reply (R : Type) := Option (Except AppException R)

/-- A reply as the clients see it: nothing, the envelope of a success or that of an error. -/
def replyOutcome {R : Type} : Reply R → Outcome
  | none => .lost
  | some (.ok _) => .answer 200 (.object (some (.number "0")) (some .string))
  | some (.error e) => .answer e.httpStatus (.object (some (.number (toString e.code.value))) (some .string))

/-- How a client signs a request, and how its loop ends. -/
structure Client (R : Type) where
  Draw : Type
  signHeaders : AgentSigner → ℚ → String → String → String → Bytes → Headers
  policy : RetryPolicy (Reply R) (Except AppException R) Draw

def pythonClient (R : Type) (retryMaxCount retryMaxSeconds : ℕ) : Client R where
  Draw := ℚ
  signHeaders := AgentSigner.signHeaders
  policy := {
    judge := fun reply => (clientJudge (replyOutcome reply)).bind fun _ => reply
    retries := (clientPolicy retryMaxCount retryMaxSeconds).retries
    start := (clientPolicy retryMaxCount retryMaxSeconds).start
    cap := (clientPolicy retryMaxCount retryMaxSeconds).cap
    jitter := (clientPolicy retryMaxCount retryMaxSeconds).jitter }

def goClient (R : Type) (retryMaxCount retryMaxSeconds : ℕ) : Client R where
  Draw := ℕ
  signHeaders := AgentSigner.goSignHeaders
  policy := {
    judge := fun reply => (doOnce (replyOutcome reply)).bind fun _ => reply
    retries := (goClientPolicy retryMaxCount retryMaxSeconds).retries
    start := (goClientPolicy retryMaxCount retryMaxSeconds).start
    cap := (goClientPolicy retryMaxCount retryMaxSeconds).cap
    jitter := (goClientPolicy retryMaxCount retryMaxSeconds).jitter }

section
variable {D R : Type} (ed : Ed25519) (settings : SignatureSettings)
  (handler : ℚ → OpsServer → D → Except AppException (D × R)) (client : Client R) (c : Call D)

def Call.headers : SignatureHeaders :=
  signatureHeaders (client.signHeaders c.signer c.agentNow c.requestId c.request.method c.request.path c.request.body)

/-- The backend on the request of the call. A handler that raises an error has its writes rolled back. -/
def Call.respond (now : ℚ) (w : Backend D) : Except AppException R × Backend D :=
  match getAgentServer ed settings w.tokens w.servers w.redis now c.request c.bearer (c.headers client) with
  | (.error e, redis) => (.error e, { w with redis })
  | (.ok server, redis) =>
    match handler now server w.db with
    | .error e => (.error e, { w with redis })
    | .ok (db, data) => (.ok data, { w with redis, db })

/-- The `n`-th transmission: what the client gets, and the backend after it. -/
def Call.transmit (n : ℕ) (w : Backend D) : Reply R × Backend D :=
  match c.losses[n]? with
  | some .request => (none, w)
  | some .response => (none, (c.respond ed settings handler client (c.now n) w).2)
  | none =>
    let (answer, w) := c.respond ed settings handler client (c.now n) w
    (some answer, w)

/-- The backend at the `n`-th transmission. -/
def Call.before : ℕ → Backend D
  | 0 => c.others 0 c.backend
  | n + 1 => c.others (n + 1) (c.transmit ed settings handler client n (Call.before n)).2

def Call.outcome (n : ℕ) : Reply R :=
  (c.transmit ed settings handler client n (c.before ed settings handler client n)).1

/-- The loop of the client. -/
def Call.run (draw : ℕ → client.Draw) : Tries (Except AppException R) :=
  client.policy.run (c.outcome ed settings handler client) draw

/-! ## Transparency -/

/-- Some transmission of the call is answered. -/
def Call.Answered (draw : ℕ → client.Draw) : Prop :=
  ∃ n < (c.run ed settings handler client draw).number, (c.outcome ed settings handler client n).isSome = true

/-- A call of which some transmission is answered ends with the data of the backend. -/
def Call.Transparent (draw : ℕ → client.Draw) : Prop :=
  c.Answered ed settings handler client draw →
    (∃ data, (c.run ed settings handler client draw).result = some (.ok data)) ∧
      ∀ e, (c.run ed settings handler client draw).result = some (.error e) → e.code ≠ .agentRequestReplayed

/-- The losses hit requests only, or the client gives up before the transmission that would be answered. -/
def Call.Kept : Prop :=
  (∀ loss ∈ c.losses, loss = .request) ∨ ∃ i < c.losses.length, ¬ client.policy.Allowed i

/-- The call is signed with the registered key and reaches the backend in time, again and again; the
cache answers and keeps its keys until they expire, and nobody else uses the request id. The handler succeeds as
long as the backend has not processed the call. -/
structure Call.Admitted (serverId : ℕ) : Prop where
  sound : c.signer.Sound ed
  required : settings.agentRequireSignature = true
  skew : ∀ n ≤ c.losses.length, |unixTime (c.now n) - unixTime c.agentNow| ≤ settings.agentSignatureMaxSkew
  brief : ∀ m ≤ c.losses.length, ∀ n ≤ c.losses.length, c.now m < c.now n + settings.agentSignatureMaxSkew
  authenticated : ∀ n ≤ c.losses.length, ∃ token server,
    authenticate (c.before ed settings handler client n).tokens (c.now n) c.bearer = some token ∧
      token.registeredKey = some c.signer.publicKeyB64 ∧
      getServer (c.before ed settings handler client n).servers token.serverId = some server ∧ server.status = 1 ∧
      server.serverCode = c.signer.serverCode ∧ server.id = serverId
  available : ∀ n ≤ c.losses.length, (c.before ed settings handler client n).redis.available = true
  keeps : ∀ n ≤ c.losses.length, ∀ w entry, entry ∈ w.redis.keys → c.now n < entry.2 →
    entry ∈ (c.others n w).redis.keys
  fresh : ∀ n ≤ c.losses.length, (∀ m < n, c.losses[m]? = some .request) →
    ¬ (c.before ed settings handler client n).redis.Holds (c.now n) (replayKey serverId c.requestId)
  handled : ∀ n ≤ c.losses.length, (∀ m < n, c.losses[m]? = some .request) → ∀ server, server.id = serverId →
    ∃ db data, handler (c.now n) server (c.before ed settings handler client n).db = .ok (db, data)

end

/-! ## The poll -/

/-- `GET tasks/pending`. -/
def pendingHandler (now : ℚ) (server : OpsServer) (db : Task.Db) :
    Except AppException (Task.Db × List Task.PendingTask) :=
  .ok (Task.fetchPending db (stored now) server.id)

/-- The execution is running now and was not before. -/
def MovedToRunning (db db' : Task.Db) (execution : ℕ) : Prop :=
  db'.HasStatus execution .running ∧ ¬ db.HasStatus execution .running

instance (db db' : Task.Db) (execution : ℕ) : Decidable (MovedToRunning db db' execution) :=
  inferInstanceAs (Decidable ((∃ r ∈ db'.executions, r.id = execution ∧ r.status = .running) ∧
    ¬ ∃ r ∈ db.executions, r.id = execution ∧ r.status = .running))

/-- A poll is transparent if it is so as a call and its tasks are all that it moved to `RUNNING`. -/
def Call.PollTransparent (ed : Ed25519) (settings : SignatureSettings) (client : Client (List Task.PendingTask))
    (c : Call Task.Db) (draw : ℕ → client.Draw) : Prop :=
  c.Transparent ed settings pendingHandler client draw ∧
    (c.Answered ed settings pendingHandler client draw →
      ∀ n < (c.run ed settings pendingHandler client draw).number, ∀ execution,
        MovedToRunning (c.before ed settings pendingHandler client n).db
          (c.transmit ed settings pendingHandler client n (c.before ed settings pendingHandler client n)).2.db execution →
        ∃ tasks, (c.run ed settings pendingHandler client draw).result = some (.ok tasks) ∧
          ∃ task ∈ tasks, task.executionId = execution)

/-! ### The clients -/

/-- What both clients have in common: they send the request again exactly if nothing came back. -/
structure Client.Plain {R : Type} (client : Client R) : Prop where
  judge : ∀ reply, client.policy.judge reply = reply
  start : 0 ≤ client.policy.start
  headers : client.signHeaders = AgentSigner.signHeaders

theorem pythonClient_plain (R : Type) (retryMaxCount retryMaxSeconds : ℕ) :
    (pythonClient R retryMaxCount retryMaxSeconds).Plain where
  judge reply := by rcases reply with _ | _ | _ <;> rfl
  start := by
    show (0 : ℚ) ≤ 1
    norm_num
  headers := rfl

theorem goClient_plain (R : Type) (retryMaxCount retryMaxSeconds : ℕ) :
    (goClient R retryMaxCount retryMaxSeconds).Plain where
  judge reply := by rcases reply with _ | _ | _ <;> rfl
  start := by
    show (0 : ℚ) ≤ 1000000000
    norm_num
  headers := by
    funext signer now requestId method path body
    exact signer.goSignHeaders_eq now requestId method path body

section
variable {D R : Type} {ed : Ed25519} {settings : SignatureSettings}
  {handler : ℚ → OpsServer → D → Except AppException (D × R)} {client : Client R} {c : Call D} {serverId : ℕ}
  {draw : ℕ → client.Draw}

/-- The loop over losses that an answer follows: it ends with the answer, or gives up before it. -/
theorem run_of_losses (hclient : client.Plain) {a : Except AppException R}
    (hlost : ∀ i < c.losses.length, c.outcome ed settings handler client i = none)
    (hanswer : c.outcome ed settings handler client c.losses.length = some a) :
    ((∀ i < c.losses.length, client.policy.Allowed i) →
        (c.run ed settings handler client draw).number = c.losses.length + 1 ∧
          (c.run ed settings handler client draw).result = some a) ∧
      ((∃ i < c.losses.length, ¬ client.policy.Allowed i) →
        (c.run ed settings handler client draw).number ≤ c.losses.length) := by
  obtain ⟨m, hgo, hstop, hnumber, hresult, -⟩ :=
    @RetryPolicy.run_spec _ _ _ client.policy (c.outcome ed settings handler client) draw hclient.start
  have hstops (i : ℕ) : client.policy.Stops (c.outcome ed settings handler client) i ↔
      (c.outcome ed settings handler client i).isSome = true ∨ ¬ client.policy.Allowed i := by
    rw [RetryPolicy.Stops, hclient.judge]
  have hle : m ≤ c.losses.length := by
    by_contra hlt
    refine hgo _ (not_le.mp hlt) ((hstops _).mpr (.inl ?_))
    rw [hanswer]
    rfl
  constructor
  · intro hallowed
    have heq : m = c.losses.length := by
      by_contra hne
      have hlt := lt_of_le_of_ne hle hne
      rcases (hstops m).mp hstop with hsome | hno
      · rw [hlost m hlt] at hsome
        cases hsome
      · exact hno (hallowed m hlt)
    subst heq
    exact ⟨hnumber, by rw [Call.run, hresult, hclient.judge, hanswer]⟩
  · rintro ⟨i, hi, hno⟩
    have hmi : m ≤ i := by
      by_contra hlt
      exact hgo i (not_le.mp hlt) ((hstops i).mpr (.inr hno))
    rw [Call.run, hnumber]
    omega

theorem outcome_of_loss {n : ℕ} (hn : n < c.losses.length) : c.outcome ed settings handler client n = none := by
  rw [Call.outcome, Call.transmit, List.getElem?_eq_getElem hn]
  cases c.losses[n] <;> rfl

theorem outcome_length : c.outcome ed settings handler client c.losses.length =
    some (c.respond ed settings handler client (c.now c.losses.length)
      (c.before ed settings handler client c.losses.length)).1 := by
  rw [Call.outcome, Call.transmit, List.getElem?_eq_none le_rfl]

/-! ### The backend on a transmission -/

namespace Call.Admitted
variable (h : c.Admitted ed settings handler client serverId) {n : ℕ}
include h

theorem skew_pos : 0 < settings.agentSignatureMaxSkew := by
  have hbrief := h.brief 0 (Nat.zero_le _) 0 (Nat.zero_le _)
  exact_mod_cast pos_of_lt_add_right hbrief

/-- The checks before the cache pass. -/
theorem checkSignature_eq (hclient : client.Plain) (hn : n ≤ c.losses.length) {token : OpsAgentToken}
    {server : OpsServer} (hkey : token.registeredKey = some c.signer.publicKeyB64)
    (hcode : server.serverCode = c.signer.serverCode) :
    checkSignature ed settings (c.now n) c.request token server (c.headers client) = .ok (some c.requestId) := by
  have hheaders := signatureHeaders_signHeaders c.signer c.agentNow c.requestId c.request.method c.request.path
    c.request.body []
  rw [List.append_nil, ← hcode] at hheaders
  have hsigned := checkSignature_eq_some.mpr ⟨_, _, hheaders,
    ⟨unixTime c.agentNow, readInt_toString _, h.skew n hn⟩, _, hkey, h.sound.verifySignature_iff.mpr rfl⟩
  rw [Call.headers, hclient.headers]
  exact hsigned

theorem getAgentServer_eq (hclient : client.Plain) (hn : n ≤ c.losses.length) : ∃ server, server.id = serverId ∧
    getAgentServer ed settings (c.before ed settings handler client n).tokens
        (c.before ed settings handler client n).servers (c.before ed settings handler client n).redis (c.now n) c.request
        c.bearer (c.headers client) =
      if (c.before ed settings handler client n).redis.Holds (c.now n) (replayKey serverId c.requestId) then
        (.error ⟨.agentRequestReplayed, "请求已重放", 401⟩, (c.before ed settings handler client n).redis)
      else (.ok server, (c.before ed settings handler client n).redis.put (replayKey serverId c.requestId)
        (c.now n + (settings.agentSignatureMaxSkew * 2 : ℤ))) := by
  obtain ⟨token, server, htoken, hkey, hserver, hstatus, hcode, hid⟩ := h.authenticated n hn
  refine ⟨server, hid, ?_⟩
  have hfilter : (getServer (c.before ed settings handler client n).servers token.serverId).filter (·.status = 1) =
      some server := by
    rw [hserver, Option.filter_some, if_pos (decide_eq_true hstatus)]
  have hup : ¬ ((c.before ed settings handler client n).redis.available = false ∨
      settings.agentSignatureMaxSkew * 2 ≤ 0) := by
    rw [h.available n hn]
    have hpos := h.skew_pos
    simp only [Bool.true_eq_false, false_or]
    omega
  rw [getAgentServer, resolveAgent, htoken]
  dsimp only
  rw [hfilter]
  dsimp only
  rw [verifyAgentSignature, h.checkSignature_eq hclient hn hkey hcode]
  dsimp only
  rw [isReplayed, Redis.setNx, if_neg hup, hid]
  by_cases hheld : (c.before ed settings handler client n).redis.Holds (c.now n) (replayKey serverId c.requestId)
  · rw [if_pos hheld, if_pos hheld]
    rfl
  · rw [if_neg hheld, if_neg hheld]
    rfl

theorem respond_held (hclient : client.Plain) (hn : n ≤ c.losses.length)
    (hheld : (c.before ed settings handler client n).redis.Holds (c.now n) (replayKey serverId c.requestId)) :
    c.respond ed settings handler client (c.now n) (c.before ed settings handler client n) =
      (.error ⟨.agentRequestReplayed, "请求已重放", 401⟩, c.before ed settings handler client n) := by
  obtain ⟨server, -, heq⟩ := h.getAgentServer_eq hclient hn
  rw [if_pos hheld] at heq
  rw [Call.respond, heq]

theorem respond_fresh (hclient : client.Plain) (hn : n ≤ c.losses.length)
    (hrequests : ∀ m < n, c.losses[m]? = some .request) : ∃ server db data, server.id = serverId ∧
      handler (c.now n) server (c.before ed settings handler client n).db = .ok (db, data) ∧
      c.respond ed settings handler client (c.now n) (c.before ed settings handler client n) =
        (.ok data, { c.before ed settings handler client n with
          redis := (c.before ed settings handler client n).redis.put (replayKey serverId c.requestId)
            (c.now n + (settings.agentSignatureMaxSkew * 2 : ℤ))
          db := db }) := by
  obtain ⟨server, hid, heq⟩ := h.getAgentServer_eq hclient hn
  rw [if_neg (h.fresh n hn hrequests)] at heq
  obtain ⟨db, data, hhandler⟩ := h.handled n hn hrequests server hid
  refine ⟨server, db, data, hid, hhandler, ?_⟩
  rw [Call.respond, heq]
  dsimp only
  rw [hhandler]

theorem before_expiry {k : ℕ} (hk : k ≤ c.losses.length) (hn : n ≤ c.losses.length) :
    c.now n < c.now k + (settings.agentSignatureMaxSkew * 2 : ℤ) := by
  have hbrief := h.brief n hn k hk
  have hpos : (0 : ℚ) < settings.agentSignatureMaxSkew := by exact_mod_cast h.skew_pos
  push_cast
  linarith

/-- Once the backend has processed the call, it keeps the request id. -/
theorem held_of_response (hclient : client.Plain) {k : ℕ} (hk : c.losses[k]? = some .response)
    (hrequests : ∀ m < k, c.losses[m]? = some .request) (hkn : k < n) (hn : n ≤ c.losses.length) :
    (replayKey serverId c.requestId, c.now k + (settings.agentSignatureMaxSkew * 2 : ℤ)) ∈
      (c.before ed settings handler client n).redis.keys := by
  have hlater (m : ℕ) (hm : m ≤ c.losses.length) := h.before_expiry (hkn.le.trans hn) hm
  induction n, hkn using Nat.le_induction with
  | base =>
    obtain ⟨server, db, data, -, -, hrespond⟩ := h.respond_fresh hclient (Nat.le_of_succ_le hn) hrequests
    rw [Call.before]
    apply h.keeps _ hn _ _ ?_ (hlater _ hn)
    rw [Call.transmit, hk]
    dsimp only
    rw [hrespond]
    exact List.mem_cons_self
  | succ n hkn ih =>
    have hmem := ih (Nat.le_of_succ_le hn)
    have hheld : (c.before ed settings handler client n).redis.Holds (c.now n) (replayKey serverId c.requestId) :=
      ⟨_, hmem, rfl, hlater n (Nat.le_of_succ_le hn)⟩
    have hrespond := h.respond_held hclient (Nat.le_of_succ_le hn) hheld
    have htransmit : (c.transmit ed settings handler client n (c.before ed settings handler client n)).2 =
        c.before ed settings handler client n := by
      rw [Call.transmit]
      split
      · rfl
      · exact congrArg Prod.snd hrespond
      · exact congrArg Prod.snd hrespond
    rw [Call.before, htransmit]
    exact h.keeps _ hn _ _ hmem (hlater _ hn)

theorem holds_of_response (hclient : client.Plain) {k : ℕ} (hk : c.losses[k]? = some .response)
    (hrequests : ∀ m < k, c.losses[m]? = some .request) (hkn : k < n) (hn : n ≤ c.losses.length) :
    (c.before ed settings handler client n).redis.Holds (c.now n) (replayKey serverId c.requestId) :=
  ⟨_, h.held_of_response hclient hk hrequests hkn hn, rfl, h.before_expiry (hkn.le.trans hn) hn⟩

end Call.Admitted

/-! ### The call -/

theorem first_loss (losses : List Loss) : (∀ loss ∈ losses, loss = .request) ∨
    ∃ k < losses.length, losses[k]? = some .response ∧ ∀ m < k, losses[m]? = some .request := by
  induction losses with
  | nil => exact .inl fun loss h => absurd h List.not_mem_nil
  | cons loss losses ih =>
    cases loss with
    | response => exact .inr ⟨0, Nat.succ_pos _, rfl, fun m hm => absurd hm (Nat.not_lt_zero m)⟩
    | request =>
      rcases ih with hall | ⟨k, hk, hresponse, hrequests⟩
      · exact .inl fun loss hmem => (List.mem_cons.mp hmem).elim id (hall loss)
      · refine .inr ⟨k + 1, Nat.succ_lt_succ hk, hresponse, fun m hm => ?_⟩
        cases m with
        | zero => rfl
        | succ m => exact hrequests m (Nat.lt_of_succ_lt_succ hm)

theorem answered_iff (hclient : client.Plain) : c.Answered ed settings handler client draw ↔
    ∀ i < c.losses.length, client.policy.Allowed i := by
  obtain ⟨hall, hgive⟩ := @run_of_losses D R ed settings handler client c draw hclient _
    (fun _ hi => outcome_of_loss hi) outcome_length
  constructor
  · rintro ⟨n, hn, hsome⟩
    by_contra hno
    push Not at hno
    have hnumber := hgive hno
    rw [outcome_of_loss (hn.trans_le hnumber)] at hsome
    cases hsome
  · intro h
    refine ⟨c.losses.length, ?_, ?_⟩
    · rw [(hall h).1]
      exact Nat.lt_succ_self _
    · rw [outcome_length]
      rfl

/-- An answered call ends with what the backend responds to the transmission after the losses. -/
theorem result_of_answered (hclient : client.Plain) (h : c.Answered ed settings handler client draw) :
    (c.run ed settings handler client draw).number = c.losses.length + 1 ∧
      (c.run ed settings handler client draw).result =
        some (c.respond ed settings handler client (c.now c.losses.length)
          (c.before ed settings handler client c.losses.length)).1 :=
  (run_of_losses hclient (fun _ hi => outcome_of_loss hi) outcome_length).1 ((answered_iff hclient).mp h)

theorem getElem_of_requests {losses : List Loss} (h : ∀ loss ∈ losses, loss = .request) {m : ℕ}
    (hm : m < losses.length) : losses[m]? = some .request := by
  rw [List.getElem?_eq_getElem hm, h _ (List.getElem_mem hm)]

/-- A call is transparent exactly if no response is lost before the first answer. -/
theorem transparent_iff (hclient : client.Plain) (h : c.Admitted ed settings handler client serverId) :
    c.Transparent ed settings handler client draw ↔ c.Kept client := by
  constructor
  · intro htransparent
    rcases first_loss c.losses with hall | ⟨k, hk, hresponse, hrequests⟩
    · exact .inl hall
    · right
      by_contra hno
      push Not at hno
      have hanswered : c.Answered ed settings handler client draw := (answered_iff hclient).mpr hno
      obtain ⟨⟨data, hdata⟩, -⟩ := htransparent hanswered
      have hheld := h.holds_of_response hclient hresponse hrequests hk le_rfl
      rw [(result_of_answered hclient hanswered).2, h.respond_held hclient le_rfl hheld] at hdata
      cases hdata
  · rintro hkept hanswered
    have hallowed := (answered_iff hclient).mp hanswered
    rcases hkept with hall | ⟨i, hi, hno⟩
    · obtain ⟨server, db, data, -, -, hrespond⟩ :=
        h.respond_fresh hclient le_rfl fun m hm => getElem_of_requests hall hm
      rw [(result_of_answered hclient hanswered).2, hrespond]
      refine ⟨⟨data, rfl⟩, ?_⟩
      rintro e he
      cases he
    · exact absurd (hallowed i hi) hno

end

/-! ### The tasks of a poll -/

theorem mem_of_mem_claimed {now : Time} {l : List Task.OpsTaskExecution} {acc : Task.Db × List Task.PendingTask}
    {row : Task.OpsTaskExecution} (h : row ∈ (l.foldl (Task.claimExecution now) acc).1.executions)
    (hother : ∀ e ∈ l, e.id ≠ row.id) : row ∈ acc.1.executions := by
  induction l generalizing acc with
  | nil => exact h
  | cons e l ih =>
    have hmem := ih h fun f hf => hother f (List.mem_cons_of_mem _ hf)
    unfold Task.claimExecution at hmem
    split at hmem
    · exact hmem
    · have hrows : row ∈ (acc.1.withExecution e.id (.markRunning now)).executions := hmem
      obtain ⟨found, hfound, heq⟩ := Task.Db.mem_withExecution.mp hrows
      split_ifs at heq with hid
      · -- The row that was claimed keeps its id, which is not that of `row`.
        refine absurd ?_ (hother e List.mem_cons_self)
        rw [← hid, ← heq]
        rfl
      · exact heq ▸ hfound

/-- A poll answers every execution that it moves to `RUNNING`. -/
theorem answered_of_moved {db : Task.Db} {now : Time} {serverId execution : ℕ}
    (h : MovedToRunning db (Task.fetchPending db now serverId).1 execution) :
    ∃ task ∈ (Task.fetchPending db now serverId).2, task.executionId = execution := by
  obtain ⟨⟨row, hrow, rfl, hrunning⟩, hbefore⟩ := h
  have hids := @Task.fetchPending_ids now db serverId
  by_cases hclaimed : row.id ∈ (db.fetchPendingByServer serverId 10).map (·.id)
  · rw [← hids] at hclaimed
    exact List.mem_map.mp hclaimed
  · refine absurd ⟨row, ?_, rfl, hrunning⟩ hbefore
    exact mem_of_mem_claimed hrow fun e he hid => hclaimed (List.mem_map.mpr ⟨e, he, hid⟩)

theorem pollTransparent_iff {ed : Ed25519} {settings : SignatureSettings} {client : Client (List Task.PendingTask)}
    {c : Call Task.Db} {serverId : ℕ} {draw : ℕ → client.Draw} (hclient : client.Plain)
    (h : c.Admitted ed settings pendingHandler client serverId) :
    c.PollTransparent ed settings client draw ↔ c.Kept client := by
  constructor
  · rintro ⟨htransparent, -⟩
    exact (transparent_iff hclient h).mp htransparent
  · intro hkept
    refine ⟨(transparent_iff hclient h).mpr hkept, fun hanswered n hn execution hmoved => ?_⟩
    obtain ⟨hnumber, hresult⟩ := result_of_answered hclient hanswered
    have hall := hkept.resolve_right fun ⟨i, hi, hno⟩ => hno ((answered_iff hclient).mp hanswered i hi)
    rw [hnumber] at hn
    rcases Nat.lt_succ_iff_lt_or_eq.mp hn with hlt | rfl
    · -- A request that was lost moves nothing.
      rw [Call.transmit, getElem_of_requests hall hlt] at hmoved
      exact absurd hmoved.1 hmoved.2
    · obtain ⟨server, db, tasks, -, hhandler, hrespond⟩ :=
        h.respond_fresh hclient le_rfl fun m hm => getElem_of_requests hall hm
      have htransmit : c.transmit ed settings pendingHandler client c.losses.length
          (c.before ed settings pendingHandler client c.losses.length) =
            (some (c.respond ed settings pendingHandler client (c.now c.losses.length)
                (c.before ed settings pendingHandler client c.losses.length)).1,
              (c.respond ed settings pendingHandler client (c.now c.losses.length)
                (c.before ed settings pendingHandler client c.losses.length)).2) := by
        rw [Call.transmit, List.getElem?_eq_none le_rfl]
      rw [htransmit, hrespond] at hmoved
      rw [hrespond] at hresult
      obtain ⟨rfl, rfl⟩ := Prod.mk.inj (Except.ok.inj hhandler)
      exact ⟨_, hresult, answered_of_moved hmoved⟩

/-- Calls and polls of both clients are transparent exactly if no response is lost before the first answer. -/
theorem retransmission_transparent_iff {D R : Type} (ed : Ed25519) (settings : SignatureSettings)
    (retryMaxCount retryMaxSeconds serverId : ℕ) (handler : ℚ → OpsServer → D → Except AppException (D × R))
    (client : Client R) (c : Call D) (draw : ℕ → client.Draw) (pollClient : Client (List Task.PendingTask))
    (poll : Call Task.Db) (pollDraw : ℕ → pollClient.Draw)
    (hclient : client = pythonClient R retryMaxCount retryMaxSeconds ∨ client = goClient R retryMaxCount retryMaxSeconds)
    (hpollClient : pollClient = pythonClient _ retryMaxCount retryMaxSeconds ∨
      pollClient = goClient _ retryMaxCount retryMaxSeconds)
    (h : c.Admitted ed settings handler client serverId)
    (hpoll : poll.Admitted ed settings pendingHandler pollClient serverId) :
    (c.Transparent ed settings handler client draw ↔ c.Kept client) ∧
      (poll.PollTransparent ed settings pollClient pollDraw ↔ poll.Kept pollClient) := by
  have hplain : client.Plain := by
    rcases hclient with rfl | rfl
    · exact pythonClient_plain R retryMaxCount retryMaxSeconds
    · exact goClient_plain R retryMaxCount retryMaxSeconds
  have hpollPlain : pollClient.Plain := by
    rcases hpollClient with rfl | rfl
    · exact pythonClient_plain _ retryMaxCount retryMaxSeconds
    · exact goClient_plain _ retryMaxCount retryMaxSeconds
  exact ⟨transparent_iff hplain h, pollTransparent_iff hpollPlain hpoll⟩

/-! ### A lost answer -/

section
variable {D R : Type} {ed : Ed25519} {settings : SignatureSettings}
  {handler : ℚ → OpsServer → D → Except AppException (D × R)} {client : Client R} {c : Call D}

/-- What a transmission does not touch. -/
structure SameRecords (w w' : Backend D) : Prop where
  tokens : w'.tokens = w.tokens
  servers : w'.servers = w.servers
  available : w'.redis.available = w.redis.available

theorem respond_sameRecords (now : ℚ) (w : Backend D) :
    SameRecords w (c.respond ed settings handler client now w).2 := by
  have hredis : (getAgentServer ed settings w.tokens w.servers w.redis now c.request c.bearer
      (c.headers client)).2.available = w.redis.available := by
    show (resolveAgent ed settings w.tokens w.servers w.redis now c.request c.bearer (c.headers client)).2.available = _
    unfold resolveAgent
    split
    · rfl
    · rename_i token _
      split
      · rfl
      · rename_i server _
        have hdeliver := @available_deliver ed settings w.redis ⟨now, c.request, token, server, c.headers client⟩
        rw [deliver] at hdeliver
        split
        all_goals
          rename_i hverify
          rw [hverify] at hdeliver
          exact hdeliver
  unfold Call.respond
  split
  all_goals
    rename_i redis hserver
    rw [hserver] at hredis
  · exact ⟨rfl, rfl, hredis⟩
  · split
    · exact ⟨rfl, rfl, hredis⟩
    · exact ⟨rfl, rfl, hredis⟩

theorem transmit_sameRecords (n : ℕ) (w : Backend D) :
    SameRecords w (c.transmit ed settings handler client n w).2 := by
  unfold Call.transmit
  split
  · exact ⟨rfl, rfl, rfl⟩
  · exact respond_sameRecords _ w
  · exact respond_sameRecords _ w

theorem before_sameRecords (hothers : ∀ n w, c.others n w = w) (n : ℕ) :
    SameRecords c.backend (c.before ed settings handler client n) := by
  induction n with
  | zero =>
    rw [Call.before, hothers]
    exact ⟨rfl, rfl, rfl⟩
  | succ n ih =>
    have hstep := @transmit_sameRecords D R ed settings handler client c n (c.before ed settings handler client n)
    rw [Call.before, hothers]
    exact ⟨hstep.tokens.trans ih.tokens, hstep.servers.trans ih.servers, hstep.available.trans ih.available⟩

theorem before_of_requests (hothers : ∀ n w, c.others n w = w) {n : ℕ} (h : ∀ m < n, c.losses[m]? = some .request) :
    c.before ed settings handler client n = c.backend := by
  induction n with
  | zero => rw [Call.before, hothers]
  | succ n ih =>
    rw [Call.before, hothers, Call.transmit, h n (Nat.lt_succ_self n)]
    exact ih fun m hm => h m (Nat.lt_succ_of_lt hm)

end

namespace Sample

/-- A call of the agent of the installation, sent once a second, whose first transmission is lost. -/
def call {D : Type} (request : Request) (loss : Loss) (db : D) : Call D where
  signer := signer
  agentNow := 1700000000
  requestId := requestId
  request := request
  bearer := bearer
  losses := [loss]
  now := fun n => 1700000010 + n
  backend := ⟨tokens, servers, redis, db⟩
  others := fun _ w => w

theorem call_admitted {D R : Type} {handler : ℚ → OpsServer → D → Except AppException (D × R)} (client : Client R)
    (request : Request) (loss : Loss) (db : D)
    (hhandler : ∀ now server db, ∃ db' data, handler now server db = .ok (db', data)) :
    (call request loss db).Admitted ed25519 ⟨true, 300⟩ handler client 1 where
  sound := signer_sound
  required := rfl
  skew n hn := by
    have hle : n ≤ 1 := hn
    show |unixTime (1700000010 + (n : ℚ)) - unixTime 1700000000| ≤ 300
    interval_cases n <;> decide +kernel
  brief m hm n hn := by
    have hle : (m : ℚ) ≤ 1 := by exact_mod_cast hm
    have hpos : (0 : ℚ) ≤ n := Nat.cast_nonneg n
    show 1700000010 + (m : ℚ) < 1700000010 + n + ((300 : ℤ) : ℚ)
    push_cast
    linarith
  authenticated n hn := by
    have hle : n ≤ 1 := hn
    have hsame := @before_sameRecords D R ed25519 ⟨true, 300⟩ handler client (call request loss db) (fun _ _ => rfl) n
    rw [hsame.tokens, hsame.servers]
    have hserver : getServer servers token.serverId = some server := by decide +kernel
    refine ⟨token, server, ?_, rfl, hserver, rfl, rfl, rfl⟩
    show authenticate tokens (1700000010 + n) bearer = some token
    interval_cases n <;> decide +kernel
  available n _ :=
    (@before_sameRecords D R ed25519 ⟨true, 300⟩ handler client (call request loss db) (fun _ _ => rfl) n).available
  keeps _ _ _ _ hmem _ := hmem
  fresh n _ hrequests := by
    rw [before_of_requests (fun _ _ => rfl) hrequests]
    rintro ⟨entry, hmem, -⟩
    exact List.not_mem_nil hmem
  handled n _ _ server _ := hhandler _ _ _

end Sample

theorem retransmission_transparent_iff_heartbeat :
    ((Sample.call Sample.heartbeat .request ()).Transparent Sample.ed25519 ⟨true, 300⟩ (fun _ _ db => .ok (db, ()))
        (pythonClient Unit 2 60) (fun _ => (0 : ℚ)) ↔
      (Sample.call Sample.heartbeat .request ()).Kept (pythonClient Unit 2 60)) ∧
    ((Sample.call Sample.poll .request Task.Sample.waitingCheck).PollTransparent Sample.ed25519 ⟨true, 300⟩
        (goClient _ 2 60) (fun _ => (0 : ℕ)) ↔
      (Sample.call Sample.poll .request Task.Sample.waitingCheck).Kept (goClient (List Task.PendingTask) 2 60)) :=
  retransmission_transparent_iff Sample.ed25519 ⟨true, 300⟩ 2 60 1 (fun _ _ db => .ok (db, ())) (pythonClient Unit 2 60)
    (Sample.call Sample.heartbeat .request ()) (fun _ => (0 : ℚ)) (goClient _ 2 60)
    (Sample.call Sample.poll .request Task.Sample.waitingCheck) (fun _ => (0 : ℕ)) (.inl rfl) (.inr rfl)
    (Sample.call_admitted _ _ _ _ fun _ _ _ => ⟨_, _, rfl⟩) (Sample.call_admitted _ _ _ _ fun _ _ _ => ⟨_, _, rfl⟩)

/-- The answer of a poll is lost: the check runs for the backend, and the call ends with the replay error. -/
theorem lost_answer_not_transparent :
    (Sample.call Sample.poll .response Task.Sample.waitingCheck).Admitted Sample.ed25519 ⟨true, 300⟩ pendingHandler
        (pythonClient _ 2 60) 1 ∧
      ((Sample.call Sample.poll .response Task.Sample.waitingCheck).run Sample.ed25519 ⟨true, 300⟩ pendingHandler
        (pythonClient _ 2 60) (fun _ => (0 : ℚ))).result = some (.error ⟨.agentRequestReplayed, "请求已重放", 401⟩) ∧
      MovedToRunning Task.Sample.waitingCheck (Task.fetchPending Task.Sample.waitingCheck (stored 1700000010) 1).1 1 ∧
      ¬ (Sample.call Sample.poll .response Task.Sample.waitingCheck).PollTransparent Sample.ed25519 ⟨true, 300⟩
        (pythonClient _ 2 60) (fun _ => (0 : ℚ)) := by
  have hadmitted := @Sample.call_admitted _ _ pendingHandler (pythonClient _ 2 60) Sample.poll .response
    Task.Sample.waitingCheck fun _ _ _ => ⟨_, _, rfl⟩
  have hplain := pythonClient_plain (List Task.PendingTask) 2 60
  have hanswered : (Sample.call Sample.poll .response Task.Sample.waitingCheck).Answered Sample.ed25519 ⟨true, 300⟩ pendingHandler
      (pythonClient _ 2 60) (fun _ => (0 : ℚ)) := by
    refine (answered_iff hplain).mpr fun i hi => ?_
    obtain rfl : i = 0 := Nat.lt_one_iff.mp hi
    show (clientPolicy 2 60).Allowed 0
    decide +kernel
  have hheld := hadmitted.holds_of_response hplain (k := 0) rfl (fun m hm => absurd hm (Nat.not_lt_zero m)) Nat.one_pos le_rfl
  have hresult := (result_of_answered hplain hanswered).2
  have hrefused := congrArg Prod.fst (hadmitted.respond_held hplain le_rfl hheld)
  rw [hrefused] at hresult
  refine ⟨hadmitted, hresult, by decide +kernel, fun h => ?_⟩
  obtain ⟨⟨data, hdata⟩, -⟩ := h.1 hanswered
  rw [hresult] at hdata
  cases hdata

end OpsMonitor.Agent
