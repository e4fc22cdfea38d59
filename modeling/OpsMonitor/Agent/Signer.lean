import OpsMonitor.Agent.Authentication

/-! The agent's side of the signature, in Python (`agent/signer.py`) and in Go
(`internal/signer/signer.go`), and what the backend reads from the headers. The random request id
is an argument. -/

namespace OpsMonitor.Agent
open Library Base64

/-- Header fields in order, names and values. -/
abbrev Headers := List (String × String)

/-- The first field of a name, whose case does not matter. -/
def header? (headers : Headers) (name : String) : Option String :=
  (headers.find? fun field => upper field.1 = upper name).map Prod.snd

theorem header?_cons (field : String × String) (headers : Headers) (name : String) :
    header? (field :: headers) name =
      if upper name = upper field.1 then some field.2 else header? headers name := by
  unfold header?
  split_ifs with h
  · rw [List.find?_cons_of_pos (by simpa using h.symm)]
    rfl
  · rw [List.find?_cons_of_neg (by simpa using fun heq => h heq.symm)]

/-- The arguments that the endpoints take from the headers. -/
def signatureHeaders (headers : Headers) : SignatureHeaders where
  agentId := header? headers "X-Agent-Id"
  timestamp := header? headers "X-Timestamp"
  requestId := header? headers "X-Request-Id"
  signature := header? headers "X-Signature"

/-- The holder of an Ed25519 private key. -/
structure AgentSigner where
  serverCode : String
  publicKey : Bytes
  sign : Bytes → Bytes

namespace AgentSigner

def publicKeyB64 (signer : AgentSigner) : String := b64encode signer.publicKey

/-- `sign_headers`. -/
def signHeaders (signer : AgentSigner) (now : ℚ) (requestId method path : String) (body : Bytes) :
    Headers :=
  let timestamp := toString (unixTime now)
  let canonical := utf8 (upper method ++ "\n" ++ path ++ "\n" ++ timestamp ++ "\n" ++ requestId ++
    "\n" ++ Sha256.hexdigest body)
  [("X-Agent-Id", signer.serverCode), ("X-Timestamp", timestamp), ("X-Request-Id", requestId),
    ("X-Signature", b64encode (signer.sign canonical))]

/-- `SignHeaders` of the Go agent. -/
def goSignHeaders (signer : AgentSigner) (now : ℚ) (requestId method path : String) (body : Bytes) :
    Headers :=
  let timestamp := toString (unixTime now)
  let canonical := utf8 ("\n".intercalate
    [upper method, path, timestamp, requestId, Sha256.hexdigest body])
  [("X-Agent-Id", signer.serverCode), ("X-Timestamp", timestamp), ("X-Request-Id", requestId),
    ("X-Signature", b64encode (signer.sign canonical))]

/-- The two agents sign the same string. -/
theorem goSignHeaders_eq (signer : AgentSigner) (now : ℚ) (requestId method path : String)
    (body : Bytes) :
    signer.goSignHeaders now requestId method path body =
      signer.signHeaders now requestId method path body := by
  have hjoin : "\n".intercalate [upper method, path, toString (unixTime now), requestId,
      Sha256.hexdigest body] = upper method ++ "\n" ++ path ++ "\n" ++ toString (unixTime now) ++
        "\n" ++ requestId ++ "\n" ++ Sha256.hexdigest body := by
    simp [String.intercalate_cons_cons, String.append_assoc]
  rw [goSignHeaders, hjoin, signHeaders]

end AgentSigner

/-- The names of the signature headers differ, whatever their case. -/
theorem signatureHeaders_signHeaders (signer : AgentSigner) (now : ℚ)
    (requestId method path : String) (body : Bytes) (others : Headers) :
    signatureHeaders (signer.signHeaders now requestId method path body ++ others) =
      ⟨some signer.serverCode, some (toString (unixTime now)), some requestId,
        some (b64encode (signer.sign
          (canonicalString method path (toString (unixTime now)) requestId body)))⟩ := by
  have hnames : ["X-Agent-Id", "X-Timestamp", "X-Request-Id", "X-Signature"].Pairwise
      fun a b => upper b ≠ upper a := by decide
  simp only [List.pairwise_cons, List.mem_cons, List.not_mem_nil, or_false, forall_eq_or_imp,
    forall_eq] at hnames
  obtain ⟨⟨hat, har, has⟩, ⟨htr, hts⟩, hrs, -⟩ := hnames
  simp only [signatureHeaders, AgentSigner.signHeaders, List.cons_append, header?_cons, hat, har,
    has, htr, hts, hrs, if_false, if_true]
  rfl

/-- The signatures of the signer verify under its public key, and each for its message only. -/
structure AgentSigner.Sound (signer : AgentSigner) (ed : Ed25519) : Prop where
  publicBytes : ed.fromPublicBytes signer.publicKey = true
  verifies : ∀ message, ed.verify signer.publicKey (signer.sign message) message = true
  binds : ∀ message message',
    ed.verify signer.publicKey (signer.sign message) message' = true → message' = message

section
variable {ed : Ed25519} {signer : AgentSigner}

/-- A signature is verified exactly for what was signed. -/
theorem AgentSigner.Sound.verifySignature_iff (h : signer.Sound ed) {message message' : Bytes} :
    verifySignature ed signer.publicKeyB64 (b64encode (signer.sign message)) message' = true ↔
      message' = message := by
  unfold verifySignature AgentSigner.publicKeyB64
  rw [b64decode_b64encode, b64decode_b64encode]
  dsimp only
  rw [h.publicBytes, Bool.true_and]
  refine ⟨h.binds message message', ?_⟩
  rintro rfl
  exact h.verifies message'

end

end OpsMonitor.Agent
