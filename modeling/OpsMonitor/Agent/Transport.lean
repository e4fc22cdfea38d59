import OpsMonitor.Library.RetryLoop
import OpsMonitor.Library.Text

/-! How often the HTTP clients of the two agents send a request (`agent/reporter/client.py`,
`internal/reporter/client.go`). The random part of a delay is an argument. -/

namespace OpsMonitor.Agent
open Library

/-- The kinds of JSON values, with what the Go decoder looks at. -/
inductive JsonValue
  | null
  | bool
  | number (literal : String)
  | string
  | array
  | object
  deriving DecidableEq, Repr

/-- The body of an answer; an object with its fields `code` and `message`. -/
inductive Body
  | object (code message : Option JsonValue)
  | empty
  | notJson
  deriving DecidableEq, Repr

/-- What becomes of one transmission. -/
inductive Outcome
  | lost
  | answer (status : ℕ) (body : Body)
  deriving DecidableEq, Repr

/-- `AgentClient._request` on one outcome: whether the call succeeds, or nothing when it is sent
again. A body that does not parse counts as a lost answer. -/
def clientJudge : Outcome → Option Bool
  | .lost | .answer _ .empty | .answer _ .notJson => none
  | .answer status (.object _ _) => some (status < 400)

/-- The retry loop of `AgentClient._request`, in seconds. -/
def clientPolicy (retryMaxCount retryMaxSeconds : ℕ) : RetryPolicy Outcome Bool ℚ where
  judge := clientJudge
  retries := retryMaxCount
  start := 1
  cap := retryMaxSeconds
  jitter delay random := delay * (1 / 2 + random)

/-- `json.Unmarshal` into the fields `Code int` and `Message string` of `envelope`. -/
def decodes (code message : Option JsonValue) : Bool :=
  (match code with
    | none | some .null => true
    | some (.number literal) =>
      (readInt literal).any fun n => -2 ^ 63 ≤ n ∧ n < 2 ^ 63
    | some _ => false) &&
  match message with
  | none | some .null | some .string => true
  | some _ => false

/-- `doOnce`: whether the call succeeds, or nothing when the error is retryable. -/
def doOnce : Outcome → Option Bool
  | .lost => none
  | .answer _ .notJson => some false
  | .answer status .empty => some (status < 400)
  | .answer status (.object code message) => some (decodes code message && status < 400)

/-- `time.Duration(n) * time.Second`: nanoseconds in 64 bits. -/
def goSeconds (n : ℕ) : ℤ := Int.bmod (n * 1000000000) (2 ^ 64)

/-- The retry loop of `Client.request` for what `NewClient` makes of the options, in nanoseconds. -/
def goClientPolicy (retryMaxCount retryMaxSeconds : ℕ) : RetryPolicy Outcome Bool ℕ where
  judge := doOnce
  retries := if retryMaxCount = 0 then 2 else retryMaxCount
  start := 1000000000
  cap := (min (goSeconds (if retryMaxSeconds = 0 then 60 else retryMaxSeconds)) 60000000000 : ℤ)
  jitter delay random := delay + (random % (⌊delay⌋.toNat / 2 + 1) : ℕ)

/-! ## Budgets -/

variable {retryMaxCount retryMaxSeconds : ℕ} {outcome : ℕ → Outcome} {draw : ℕ → ℚ} {goDraw : ℕ → ℕ}

theorem goSeconds_of_le {n : ℕ} (h : n ≤ 9000000000) : goSeconds n = n * 1000000000 := by
  unfold goSeconds
  exact Int.bmod_eq_of_le_mul_two (by omega) (by omega)

/-- What the Go client sleeps between two transmissions at most is within the configured
maximum. -/
theorem goClientPolicy_cap_le (h : 1 ≤ retryMaxSeconds) :
    (goClientPolicy retryMaxCount retryMaxSeconds).cap ≤ retryMaxSeconds * 1000000000 := by
  have hne : retryMaxSeconds ≠ 0 := by omega
  simp only [goClientPolicy, if_neg hne]
  by_cases hsmall : retryMaxSeconds ≤ 60
  · rw [goSeconds_of_le (by omega)]
    exact_mod_cast min_le_left _ _
  · have hlarge : (60000000000 : ℤ) ≤ retryMaxSeconds * 1000000000 := by omega
    exact_mod_cast (min_le_right _ _).trans hlarge

/-- Both clients send the request equally often and agree on success, within the configured number
of retries and the configured pause. -/
structure RetryAlike (retryMaxCount retryMaxSeconds : ℕ) (outcome : ℕ → Outcome) (draw : ℕ → ℚ)
    (goDraw : ℕ → ℕ) : Prop where
  number : ((clientPolicy retryMaxCount retryMaxSeconds).run outcome draw).number =
    ((goClientPolicy retryMaxCount retryMaxSeconds).run outcome goDraw).number
  success : ((clientPolicy retryMaxCount retryMaxSeconds).run outcome draw).result = some true ↔
    ((goClientPolicy retryMaxCount retryMaxSeconds).run outcome goDraw).result = some true
  budget : ((clientPolicy retryMaxCount retryMaxSeconds).run outcome draw).number ≤
      retryMaxCount + 1 ∧
    ((goClientPolicy retryMaxCount retryMaxSeconds).run outcome goDraw).number ≤ retryMaxCount + 1
  pause : (∀ x ∈ ((clientPolicy retryMaxCount retryMaxSeconds).run outcome draw).sleeps,
      x ≤ retryMaxSeconds) ∧
    ∀ x ∈ ((goClientPolicy retryMaxCount retryMaxSeconds).run outcome goDraw).sleeps,
      x ≤ retryMaxSeconds * 1000000000

/-- The outcome at which both clients end the call in the same way, where `left` and `goLeft` tell
whether each of them has a retry left. -/
def SettledAlike (left goLeft : Prop) : Outcome → Prop
  | .lost => ¬ left ∧ ¬ goLeft
  | .answer status (.object code message) => decodes code message = true ∨ 400 ≤ status
  | .answer status .empty => ¬ left ∧ 400 ≤ status
  | .answer _ .notJson => ¬ left

/-- The transmissions before number `n` are lost while both clients have a retry left, and number
`n` ends the call for both. -/
def Aligned (retryMaxCount retryMaxSeconds : ℕ) (outcome : ℕ → Outcome) : Prop :=
  ∃ n, (∀ i < n, outcome i = .lost ∧ (clientPolicy retryMaxCount retryMaxSeconds).Allowed i ∧
      (goClientPolicy retryMaxCount retryMaxSeconds).Allowed i) ∧
    SettledAlike ((clientPolicy retryMaxCount retryMaxSeconds).Allowed n)
      ((goClientPolicy retryMaxCount retryMaxSeconds).Allowed n) (outcome n)

theorem doOnce_eq_none {o : Outcome} : doOnce o = none ↔ o = .lost := by
  rcases o with - | ⟨status, - | - | -⟩ <;> simp [doOnce]

/-- Two calls that end with the same transmission, which settles them alike. -/
theorem settledAlike_iff {left goLeft : Prop} {o : Outcome}
    (h : (clientJudge o).isSome = true ∨ ¬ left) (hgo : (doOnce o).isSome = true ∨ ¬ goLeft) :
    SettledAlike left goLeft o ↔ (clientJudge o = some true ↔ doOnce o = some true) := by
  rcases o with - | ⟨status, ⟨code, message⟩ | - | -⟩
  · simpa [SettledAlike, clientJudge, doOnce] using And.intro h hgo
  · cases hd : decodes code message <;> simp [SettledAlike, clientJudge, doOnce, hd]
  · have hleft : ¬ left := by simpa [clientJudge] using h
    simp [SettledAlike, clientJudge, doOnce, hleft]
  · have hleft : ¬ left := by simpa [clientJudge] using h
    simp [SettledAlike, clientJudge, doOnce, hleft]

theorem SettledAlike.stops {left goLeft : Prop} {o : Outcome} (h : SettledAlike left goLeft o) :
    ((clientJudge o).isSome = true ∨ ¬ left) ∧ ((doOnce o).isSome = true ∨ ¬ goLeft) := by
  rcases o with - | ⟨status, ⟨code, message⟩ | - | -⟩
  · exact ⟨.inr h.1, .inr h.2⟩
  · exact ⟨.inl rfl, .inl rfl⟩
  · exact ⟨.inr h.1, .inl rfl⟩
  · exact ⟨.inr h, .inl rfl⟩

/-- The clients retry alike exactly when the losses stay within the retries of both and the first
answer means the same to both. -/
theorem retry_alike_iff (retryMaxCount retryMaxSeconds : ℕ) (hseconds : 1 ≤ retryMaxSeconds)
    (outcome : ℕ → Outcome) (draw : ℕ → ℚ) (goDraw : ℕ → ℕ) :
    RetryAlike retryMaxCount retryMaxSeconds outcome draw goDraw ↔
      Aligned retryMaxCount retryMaxSeconds outcome := by
  obtain ⟨n, hgo, hstop, hnumber, hresult, hsleeps⟩ :=
    @RetryPolicy.run_spec _ _ _ (clientPolicy retryMaxCount retryMaxSeconds) outcome draw
      (by norm_num [clientPolicy])
  obtain ⟨n', hgo', hstop', hnumber', hresult', hsleeps'⟩ :=
    @RetryPolicy.run_spec _ _ _ (goClientPolicy retryMaxCount retryMaxSeconds) outcome goDraw
      (by norm_num [goClientPolicy])
  constructor
  · intro h
    have heq : n' = n := by
      have := h.number
      omega
    subst heq
    refine ⟨n', fun i hi => ?_, (settledAlike_iff hstop hstop').mpr ?_⟩
    · obtain ⟨-, hallowed⟩ := not_or.mp (hgo i hi)
      obtain ⟨hjudge, hallowed'⟩ := not_or.mp (hgo' i hi)
      exact ⟨doOnce_eq_none.mp (Option.not_isSome_iff_eq_none.mp hjudge), not_not.mp hallowed,
        not_not.mp hallowed'⟩
    · have hsuccess := h.success
      rwa [hresult, hresult'] at hsuccess
  · rintro ⟨m, hlost, hsettled⟩
    have hopen : ∀ i < m, ¬ (clientPolicy retryMaxCount retryMaxSeconds).Stops outcome i ∧
        ¬ (goClientPolicy retryMaxCount retryMaxSeconds).Stops outcome i := by
      intro i hi
      obtain ⟨hlost, hallowed, hallowed'⟩ := hlost i hi
      refine ⟨fun hstops => hstops.elim (fun hsome => ?_) fun hno => hno hallowed,
        fun hstops => hstops.elim (fun hsome => ?_) fun hno => hno hallowed'⟩
      all_goals
        rw [hlost] at hsome
        cases hsome
    obtain ⟨hm, hm'⟩ := hsettled.stops
    have heq : n = m := by
      rcases lt_trichotomy n m with hlt | heq | hlt
      · exact absurd hstop (hopen n hlt).1
      · exact heq
      · exact absurd hm (hgo m hlt)
    have heq' : n' = m := by
      rcases lt_trichotomy n' m with hlt | heq | hlt
      · exact absurd hstop' (hopen n' hlt).2
      · exact heq
      · exact absurd hm' (hgo' m hlt)
    subst heq
    subst heq'
    have hbudget : n' ≤ retryMaxCount := by
      by_contra hlt
      exact absurd (hlost retryMaxCount (by omega)).2.1.1 (lt_irrefl _)
    refine ⟨by rw [hnumber, hnumber'], ?_, by omega, hsleeps, fun x hx => ?_⟩
    · rw [hresult, hresult']
      exact (settledAlike_iff hstop hstop').mp hsettled
    · exact (hsleeps' x hx).trans (goClientPolicy_cap_le hseconds)

/-- One loss, then an answer with the usual envelope. -/
theorem retry_alike_iff_answered :
    RetryAlike 2 60 (fun n => if n = 0 then .lost else
      .answer 200 (.object (some (.number "0")) (some .string))) (fun _ => 0) fun _ => 0 := by
  refine (retry_alike_iff 2 60 (by norm_num) _ _ _).mpr ⟨1, ?_, ?_⟩
  · intro i hi
    obtain rfl : i = 0 := by omega
    exact ⟨rfl, by decide +kernel, by decide +kernel⟩
  · exact .inl (by decide +kernel)

/-- On the error page of a proxy the Python client sends the request again and the Go client
does not. -/
theorem error_page_not_alike :
    ¬ ∀ (retryMaxCount retryMaxSeconds : ℕ) (outcome : ℕ → Outcome) (draw : ℕ → ℚ) (goDraw : ℕ → ℕ),
      1 ≤ retryMaxSeconds → RetryAlike retryMaxCount retryMaxSeconds outcome draw goDraw := by
  intro h
  have hnumber := (h 2 60 (fun _ => .answer 502 .notJson) (fun _ => 0) (fun _ => 0) (by norm_num)).number
  have hgo : ((goClientPolicy 2 60).run (fun _ => .answer 502 .notJson) fun _ => 0).number = 1 := by
    rw [RetryPolicy.run, RetryPolicy.tries]
    rfl
  obtain ⟨n, -, hstop, hpython, -⟩ :=
    @RetryPolicy.run_spec _ _ _ (clientPolicy 2 60) (fun _ => .answer 502 .notJson) (fun _ => 0)
      (by norm_num [clientPolicy])
  obtain rfl : n = 0 := by omega
  have hallowed : (clientPolicy 2 60).Allowed 0 := by decide +kernel
  exact hstop.elim (fun hsome => by cases hsome) fun hno => hno hallowed

end OpsMonitor.Agent
