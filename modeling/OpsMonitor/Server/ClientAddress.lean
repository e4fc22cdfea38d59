import OpsMonitor.Agent.Service
import OpsMonitor.Library.Words

/-! The address of a client as it is recorded: nginx adds the address it sees to the header
`X-Forwarded-For`, and the backend takes the first address of that header. -/

namespace OpsMonitor
open Library Agent

def addressChars : List Char :=
  ['0', '1', '2', '3', '4', '5', '6', '7', '8', '9', 'a', 'b', 'c', 'd', 'e', 'f', '.', ':']

/-- `$remote_addr`: an IP address as text. -/
structure RemoteAddress where
  text : String
  nonempty : text ≠ ""
  characters : ∀ c ∈ text.toList, c ∈ addressChars

/-- `$proxy_add_x_forwarded_for`, from the header that the client sent. -/
def proxyAddXForwardedFor (sent : Option String) (remote : RemoteAddress) : String :=
  match sent with
  | none => remote.text
  | some text => text ++ ", " ++ remote.text

/-- What the backend sees of a request: the header and the address of its peer. -/
structure ForwardedRequest where
  forwardedFor : Option String
  client : Option String

/-- `location /api/`: nginx sets the header. -/
def throughNginx (sent : Option String) (remote : RemoteAddress) (client : Option String) :
    ForwardedRequest := ⟨some (proxyAddXForwardedFor sent remote), client⟩

/-- `text.split(",")[0]`. -/
def firstItem (text : String) : String := .ofList (text.toList.takeWhile (· ≠ ','))

def getClientIp (request : ForwardedRequest) : Option String :=
  match request.forwardedFor with
  | none => request.client
  | some forwarded =>
    if forwarded ≠ "" then some (trim isStrSpace (firstItem forwarded)) else request.client

example : getClientIp ⟨some " 10.0.0.7 ,203.0.113.9", none⟩ = some "10.0.0.7" := by decide

/-! ## What the client can choose -/

/-- The client names the address that nginx sees, or none. -/
def NamesItself (sent : Option String) (remote : RemoteAddress) : Prop :=
  ∀ text ∈ sent, trim isStrSpace (firstItem text) = remote.text

theorem trim_eq_self {p : Char → Bool} {s : String} (h : ∀ c ∈ s.toList, p c = false) : trim p s = s := by
  have hdrop : ∀ l : List Char, (∀ c ∈ l, p c = false) → l.dropWhile p = l := by
    intro l hl
    cases l with
    | nil => rfl
    | cons c l => rw [List.dropWhile_cons_of_neg (by simp [hl c List.mem_cons_self])]
  have hreverse : ∀ c ∈ s.toList.reverse, p c = false := fun c hc => h c (List.mem_reverse.mp hc)
  rw [trim, hdrop _ h, hdrop _ hreverse, List.reverse_reverse, String.ofList_toList]

section
variable {remote : RemoteAddress} {client : Option String}

theorem RemoteAddress.notMem_comma (remote : RemoteAddress) : ',' ∉ remote.text.toList :=
  fun h => absurd (remote.characters _ h) (by simp [addressChars])

theorem RemoteAddress.trim_text (remote : RemoteAddress) : trim isStrSpace remote.text = remote.text := by
  refine trim_eq_self fun c hc => ?_
  have hall : ∀ c ∈ addressChars, isStrSpace c = false := by
    simp [addressChars, isStrSpace, isWhiteSpace]
  exact hall c (remote.characters c hc)

theorem firstItem_eq_self {s : String} (h : ',' ∉ s.toList) : firstItem s = s := by
  have htake : s.toList.takeWhile (· ≠ ',') = s.toList := by
    refine List.takeWhile_eq_self_iff.mpr fun c hc => ?_
    exact decide_eq_true fun heq => h (heq ▸ hc)
  rw [firstItem, htake, String.ofList_toList]

/-- The first item of the header is the first item of what the client sent. -/
theorem firstItem_append (text rest : String) : firstItem (text ++ ", " ++ rest) = firstItem text := by
  have hcomma : ", ".toList = [',', ' '] := rfl
  rw [firstItem, firstItem, String.toList_append, String.toList_append, hcomma]
  congr 1
  induction text.toList with
  | nil => simp
  | cons c l ih =>
    by_cases hc : c = ','
    · simp [hc]
    · simpa [hc] using ih

theorem getClientIp_none : getClientIp (throughNginx none remote client) = some remote.text := by
  show (if remote.text ≠ "" then some (trim isStrSpace (firstItem remote.text)) else client) = _
  rw [if_pos remote.nonempty, firstItem_eq_self remote.notMem_comma, remote.trim_text]

theorem getClientIp_some (text : String) : getClientIp (throughNginx (some text) remote client) =
    some (trim isStrSpace (firstItem text)) := by
  have hne : text ++ ", " ++ remote.text ≠ "" := by
    intro h
    have hlength := congrArg String.length h
    simp at hlength
  show (if text ++ ", " ++ remote.text ≠ "" then
    some (trim isStrSpace (firstItem (text ++ ", " ++ remote.text))) else client) = _
  rw [if_pos hne, firstItem_append]

/-- The backend takes the address that nginx sees only if the client names it, or none. -/
theorem getClientIp_eq_iff (sent : Option String) :
    getClientIp (throughNginx sent remote client) = some remote.text ↔ NamesItself sent remote := by
  cases sent with
  | none =>
    rw [getClientIp_none]
    exact iff_of_true rfl fun text h => by cases h
  | some text =>
    rw [getClientIp_some, Option.some_inj]
    constructor
    · intro h text' htext
      obtain rfl := Option.some.inj htext
      exact h
    · intro h
      exact h text rfl

end

/-! ## Two requests -/

/-- What is recorded of two requests that differ in the header they sent: the address that nginx saw,
with `get_client_ip` and in the column that `register` and `heartbeat` write. -/
structure RecordsRemote (remote : RemoteAddress) (ip₁ ip₂ : Option String) : Prop where
  same : ip₁ = ip₂
  address : ip₁ = some remote.text
  register : ∀ now data server, (registerServer now data ip₁ server).ipAddress = remote.text ∧
    (registerServer now data ip₂ server).ipAddress = remote.text
  heartbeat : ∀ now version server, (updateLastHeartbeat now ip₁ version server).ipAddress = remote.text ∧
    (updateLastHeartbeat now ip₂ version server).ipAddress = remote.text

theorem orText_remote (remote : RemoteAddress) (address : String) :
    orText (some remote.text) address = remote.text := if_neg remote.nonempty

/-- Neither request can choose its address if and only if both name the one that nginx sees, or none. -/
theorem recordsRemote_iff (remote : RemoteAddress) (client : Option String) (sent₁ sent₂ : Option String) :
    RecordsRemote remote (getClientIp (throughNginx sent₁ remote client))
        (getClientIp (throughNginx sent₂ remote client)) ↔
      NamesItself sent₁ remote ∧ NamesItself sent₂ remote := by
  rw [← @getClientIp_eq_iff remote client, ← @getClientIp_eq_iff remote client]
  constructor
  · intro h
    exact ⟨h.address, h.same.symm.trans h.address⟩
  · rintro ⟨h₁, h₂⟩
    rw [h₁, h₂]
    exact ⟨rfl, rfl, fun _ _ server => ⟨orText_remote remote _, orText_remote remote _⟩,
      fun _ _ server => ⟨orText_remote remote _, orText_remote remote _⟩⟩

theorem honest_characters : ∀ c ∈ "203.0.113.9".toList, c ∈ addressChars := by
  simp [addressChars]

def honest : RemoteAddress := ⟨"203.0.113.9", by simp, honest_characters⟩

/-- An agent at `203.0.113.9` that sends the address of another one. -/
theorem forged_address : ¬ ∀ (remote : RemoteAddress) (client sent₁ sent₂ : Option String),
    RecordsRemote remote (getClientIp (throughNginx sent₁ remote client))
      (getClientIp (throughNginx sent₂ remote client)) := by
  intro h
  have hsame := (h honest none none (some "10.0.0.1")).same
  exact absurd hsame (by decide +kernel)

end OpsMonitor
