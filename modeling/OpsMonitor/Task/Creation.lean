import OpsMonitor.Library.TwoStep
import OpsMonitor.Task.Concurrency

/-! Any number of `create_task` calls at the same time. A call looks its idempotency key up in
its snapshot and inserts later; the unique key on the column refuses a second row, and nothing
turns the refusal into a read. An empty key is never looked up, but it is stored. -/

namespace OpsMonitor.Task
open Library

/-- A request to create a task. -/
structure Creation where
  now : Time
  data : TaskCreate
  creatorId : ℕ
  key : Option String

/-- The lookup at the start of `create_task`. -/
def Creation.lookUp (c : Creation) (db : Db) : Option OpsTask := c.key.bind db.getByIdempotencyKey

/-- The rest of `create_task`, on the state that its statements meet. The servers and the
whitelist that it validates against are not changed by any creation. -/
def Creation.finish (c : Creation) (found : Option OpsTask) (db : Db) :
    Except Failure (Db × OpsTask) :=
  match found with
  | some existing => .ok (db, existing)
  | none => insertTask db c.now c.data c.creatorId c.key

theorem createTask_eq_finish (c : Creation) (db : Db) :
    createTask db c.now c.data c.creatorId c.key = c.finish (c.lookUp db) db := rfl

/-- The payload passes the validation of the service. -/
def Creation.Valid (c : Creation) (db : Db) : Prop :=
  ∃ action servers, normalizeAction c.data = .ok action ∧
    validateServers db c.data.serverIds = .ok servers ∧
    validateServiceWhitelist db servers c.data.serviceName action = .ok ()

def creations {ι : Type*} (request : ι → Creation) : TwoStep ι Db (Option OpsTask) OpsTask where
  look i db := (request i).lookUp db
  act i found db := ((request i).finish found db).toOption

/-- The calls carry the same key, which is not empty. -/
def SameKey (c d : Creation) : Prop := ∃ k, k ≠ "" ∧ c.key = some k ∧ d.key = some k

/-- A one-time task has one execution for each distinct server of the request. -/
structure Covers (db : Db) (t : OpsTask) (data : TaskCreate) : Prop where
  scheduleType : t.scheduleType = data.scheduleType
  servers : ∀ e ∈ db.rowsOf t.id, data.scheduleType = "ONCE" ∧ e.serverId ∈ data.serverIds
  once : data.scheduleType = "ONCE" → ∀ sid ∈ data.serverIds,
    ∃! e, e ∈ db.rowsOf t.id ∧ e.serverId = sid

/-- What the calls that committed in `l` were promised, at the end of `l`. -/
structure Idempotent {ι : Type*} (request : ι → Creation) (l : List (Phase ι))
    (w : Board ι Db (Option OpsTask) OpsTask) : Prop where
  answered : ∀ i, .commit i ∈ l → ∃ t ∈ w.shared.tasks, w.reply i = some t
  same : ∀ i j, .commit i ∈ l → .commit j ∈ l → SameKey (request i) (request j) →
    w.reply i = w.reply j
  own : ∀ i j, i ≠ j → ¬ SameKey (request i) (request j) →
    ∀ t ∈ w.reply i, ∀ t' ∈ w.reply j, t.id ≠ t'.id
  one_row : ∀ i, .commit i ∈ l → ∀ k, (request i).key = some k → k ≠ "" →
    ∃! t, t ∈ w.shared.tasks ∧ t.idempotencyKey = some k
  covered : ∀ i, ∀ t ∈ w.reply i, ∃ j, .commit j ∈ l ∧
    (j = i ∨ SameKey (request i) (request j)) ∧ Covers w.shared t (request j).data

/-- When a call commits after another one with its key, the key is not empty and a call with
the key had committed before it looked the key up. -/
def KeysSettle {ι : Type*} (request : ι → Creation) (l : List (Phase ι)) : Prop :=
  Along (fun pre p => ∀ j, p = .commit j → ∀ i, .commit i ∈ pre → (request i).key.isSome →
    (request i).key = (request j).key → (request j).key ≠ some "" ∧
      Happened (fun a q => q = .read j ∧ ∃ h, .commit h ∈ a ∧ (request h).key = (request j).key)
        pre) l

/-! ## One creation -/

section One
variable {kept : Prop} {db db' : Db} {c : Creation} {t : OpsTask}

theorem Creation.of_lookUp (h : c.lookUp db = some t) :
    t ∈ db.tasks ∧ t.idempotencyKey = c.key ∧ ∃ k, k ≠ "" ∧ c.key = some k := by
  obtain ⟨k, hk, hget⟩ := Option.bind_eq_some_iff.mp h
  unfold Db.getByIdempotencyKey at hget
  split_ifs at hget with hempty
  obtain ⟨ht, hkey⟩ := Table.mem_select.mp (List.mem_of_mem_head? hget)
  exact ⟨ht, (of_decide_eq_true hkey).trans hk.symm, k, hempty, hk⟩

theorem Creation.lookUp_ne_none {k : String} (hk : k ≠ "") (hkey : c.key = some k)
    (ht : t ∈ db.tasks) (heq : t.idempotencyKey = c.key) : c.lookUp db ≠ none := by
  intro hnone
  rw [lookUp, hkey, Option.bind_some, Db.getByIdempotencyKey, if_neg hk, List.head?_eq_none_iff]
    at hnone
  have hmem : t ∈ db.tasks.select fun t => t.idempotencyKey = some k :=
    Table.mem_select.mpr ⟨ht, decide_eq_true (heq.trans hkey)⟩
  rw [hnone] at hmem
  cases hmem

/-- The unique key refuses a second row with the key. -/
theorem insertTask_ne_ok (hkey : c.key.isSome) (ht : t ∈ db.tasks)
    (heq : t.idempotencyKey = c.key) (r : Db × OpsTask) :
    insertTask db c.now c.data c.creatorId c.key ≠ .ok r := by
  intro h
  obtain ⟨action, -, h⟩ := bind_eq_ok.mp h
  obtain ⟨servers, -, h⟩ := bind_eq_ok.mp h
  obtain ⟨-, -, h⟩ := bind_eq_ok.mp h
  obtain ⟨r', hrow, -⟩ := bind_eq_ok.mp h
  rw [Db.createTaskRow, if_pos ⟨hkey, t, ht, heq⟩] at hrow
  cases hrow

theorem Creation.Valid.insertTask_ok (hvalid : c.Valid db) (h : Chains db)
    (hfree : c.key.isSome → ∀ t ∈ db.tasks, t.idempotencyKey ≠ c.key) :
    ∃ r, insertTask db c.now c.data c.creatorId c.key = .ok r := by
  obtain ⟨action, servers, haction, hservers, hwhite⟩ := hvalid
  have hrow : db.createTaskRow (newTask c.now c.data action c.creatorId c.key) =
      .ok ({ db with tasks := db.tasks.insert (newTask c.now c.data action c.creatorId c.key) },
        Keyed.withKey db.tasks.next (newTask c.now c.data action c.creatorId c.key)) := by
    refine if_neg ?_
    rintro ⟨hsome, t, ht, heq⟩
    exact hfree hsome t ht heq
  let row := newTask c.now c.data action c.creatorId c.key
  let made := ({ db with tasks := db.tasks.insert row } : Db).createTargets db.tasks.next
    (servers.map (·.id))
  have hchecks : ∀ r, (if c.data.scheduleType = "ONCE" then
      (made.1.createExecutions db.tasks.next made.2).bind fun d =>
        .ok (d, Keyed.withKey db.tasks.next row)
      else .ok (made.1, Keyed.withKey db.tasks.next row)) = .ok r →
        insertTask db c.now c.data c.creatorId c.key = .ok r := by
    intro r hr
    refine bind_eq_ok.mpr ⟨action, haction, bind_eq_ok.mpr ⟨servers, hservers,
      bind_eq_ok.mpr ⟨(), hwhite, bind_eq_ok.mpr ⟨_, hrow, ?_⟩⟩⟩⟩
    dsimp only
    split_ifs at hr ⊢ with honce
    · exact hr
    · exact hr
  by_cases honce : c.data.scheduleType = "ONCE"
  · obtain ⟨d, hd⟩ := @createExecutions_isOk made.1 db.tasks.next made.2 (nodup_ids_keyed _ _)
      fun g _ e he htask => absurd htask (h.free_next e he)
    refine ⟨_, hchecks (d, Keyed.withKey db.tasks.next row) ?_⟩
    rw [if_pos honce, hd]
    rfl
  · exact ⟨_, hchecks (made.1, Keyed.withKey db.tasks.next row) (if_neg honce)⟩

/-- The rows of the attempts that a one-time task starts with, one for each server. -/
theorem map_serverId_keyed (n m taskId : ℕ) (serverIds : List ℕ) :
    (Table.keyed n (firstAttempts taskId (Table.keyed m
      (serverIds.map fun sid => (⟨0, taskId, sid, .pending⟩ : OpsTaskTarget))))).map (·.serverId) =
        serverIds := by
  have hrows : ∀ as : List OpsTaskExecution,
      (Table.keyed n as).map (·.serverId) = as.map (·.serverId) := Table.map_keyed (fun _ _ => rfl) n
  have htargets : ∀ as : List OpsTaskTarget,
      (Table.keyed m as).map (·.serverId) = as.map (·.serverId) := Table.map_keyed (fun _ _ => rfl) m
  have hfirst : ∀ targets : List OpsTaskTarget,
      (firstAttempts taskId targets).map (·.serverId) = targets.map (·.serverId) := by
    intro targets
    rw [firstAttempts, List.map_map]
    rfl
  rw [hrows, hfirst, htargets, List.map_map]
  exact List.map_id'' (fun _ => rfl) serverIds

/-- The state after `create_task` inserted the task `t`. -/
structure Inserted (db : Db) (c : Creation) (db' : Db) (t : OpsTask) : Prop where
  id : t.id = db.tasks.next
  key : t.idempotencyKey = c.key
  servers : db'.servers = db.servers
  services : db'.services = db.services
  tasks : ∀ t', t' ∈ db'.tasks ↔ t' ∈ db.tasks ∨ t' = t
  rows : ∀ k ≠ t.id, db'.rowsOf k = db.rowsOf k
  covers : Covers db' t c.data

theorem Chains.inserted (h : Chains db)
    (hok : insertTask db c.now c.data c.creatorId c.key = .ok (db', t)) : Inserted db c db' t := by
  have hrows := (insertTask_created hok).touches.rows
  obtain ⟨action, rfl, rfl⟩ := insertTask_eq hok
  refine ⟨rfl, rfl, rfl, rfl, fun t' => Table.mem_insert, hrows, rfl, ?_, ?_⟩
  · rintro e ⟨he, htask⟩
    split_ifs at he with honce
    · rcases Table.mem_insertAll.mp he with he | he
      · exact absurd htask (h.free_next e he)
      · refine ⟨honce, List.mem_dedup.mp ?_⟩
        rw [← map_serverId_keyed db.executions.next db.targets.next db.tasks.next
          c.data.serverIds.dedup]
        exact List.mem_map_of_mem he
    · exact absurd htask (h.free_next e he)
  · intro honce sid hsid
    have hids := map_serverId_keyed db.executions.next db.targets.next db.tasks.next
      c.data.serverIds.dedup
    have hrow : ∀ e, e ∈ ({ db with
        tasks := db.tasks.insert (newTask c.now c.data action c.creatorId c.key)
        executions := db.executions.insertAll (firstAttempts db.tasks.next (Table.keyed
          db.targets.next (c.data.serverIds.dedup.map fun sid =>
            ⟨0, db.tasks.next, sid, .pending⟩))) } : Db).rowsOf db.tasks.next ↔
          e ∈ Table.keyed db.executions.next (firstAttempts db.tasks.next (Table.keyed
            db.targets.next (c.data.serverIds.dedup.map fun sid =>
              ⟨0, db.tasks.next, sid, .pending⟩))) := by
      intro e
      constructor
      · rintro ⟨he, htask⟩
        rcases Table.mem_insertAll.mp he with he | he
        · exact absurd htask (h.free_next e he)
        · exact he
      · exact fun he => ⟨Table.mem_insertAll.mpr (.inr he), (mem_firstAttempts he).1⟩
    rw [if_pos honce]
    obtain ⟨e, he, hserver⟩ := List.mem_map.mp (hids.symm ▸ List.mem_dedup.mpr hsid)
    refine ⟨e, ⟨(hrow e).mpr he, hserver⟩, fun f hf => ?_⟩
    have hnodup := List.nodup_dedup c.data.serverIds
    rw [← hids] at hnodup
    exact List.inj_on_of_nodup_map hnodup ((hrow f).mp hf.1) he (hf.2.trans hserver.symm)

end One

theorem Covers.of_rows {db db' : Db} {t : OpsTask} {data : TaskCreate} (h : Covers db t data)
    (hrows : db'.rowsOf t.id = db.rowsOf t.id) : Covers db' t data where
  scheduleType := h.scheduleType
  servers := by
    rw [hrows]
    exact h.servers
  once := by
    rw [hrows]
    exact h.once

/-! ## All creations -/

section All
variable {ι : Type*} {request : ι → Creation} {db₀ : Db} {l : List (Phase ι)}
  {w : Board ι Db (Option OpsTask) OpsTask}

/-- Which task belongs to which call, in the state after `l`. -/
structure Ledger (request : ι → Creation) (db₀ : Db) (l : List (Phase ι))
    (w : Board ι Db (Option OpsTask) OpsTask) : Prop where
  inv : Inv False w.shared
  servers : w.shared.servers = db₀.servers
  services : w.shared.services = db₀.services
  origin : ∀ t ∈ w.shared.tasks, t ∈ db₀.tasks ∨ ∃ i, .commit i ∈ l ∧ w.reply i = some t
  reply : ∀ i, ∀ t ∈ w.reply i, t ∈ w.shared.tasks ∧ t.idempotencyKey = (request i).key
  made : ∀ i, ∀ t ∈ w.reply i, ∃ j, .commit j ∈ l ∧
    (j = i ∨ SameKey (request i) (request j)) ∧ Covers w.shared t (request j).data
  own : ∀ i j, i ≠ j → ¬ SameKey (request i) (request j) →
    ∀ t ∈ w.reply i, ∀ t' ∈ w.reply j, t.id ≠ t'.id
  unique : ∀ i, (request i).key.isSome → ∀ t ∈ w.shared.tasks, ∀ t' ∈ w.shared.tasks,
    t.idempotencyKey = (request i).key → t'.idempotencyKey = (request i).key → t = t'

/-- No task has the key of a call. -/
def NewKeys (request : ι → Creation) (db₀ : Db) : Prop :=
  ∀ i, (request i).key.isSome → ∀ t ∈ db₀.tasks, t.idempotencyKey ≠ (request i).key

theorem Ledger.start (hdb : Inv False db₀) (hnew : NewKeys request db₀) :
    Ledger request db₀ [] ⟨db₀, fun _ => none, fun _ => none⟩ where
  inv := hdb
  servers := rfl
  services := rfl
  origin := fun _ ht => .inl ht
  reply := fun i t ht => by cases ht
  made := fun i t ht => by cases ht
  own := fun i j _ _ t ht => by cases ht
  unique := fun i hi t ht _ _ hkey => absurd hkey (hnew i hi t ht)

variable [DecidableEq ι]

theorem Ledger.read (h : Ledger request db₀ l w) (i : ι) :
    Ledger request db₀ (l ++ [.read i]) ((creations request).step w (.read i)) where
  inv := h.inv
  servers := h.servers
  services := h.services
  origin := fun t ht => (h.origin t ht).imp_right fun ⟨j, hj, hreply⟩ =>
    ⟨j, List.mem_append_left _ hj, hreply⟩
  reply := h.reply
  made := fun j t ht => (h.made j t ht).imp fun _ hk => ⟨List.mem_append_left _ hk.1, hk.2⟩
  own := h.own
  unique := h.unique

theorem mem_update_reply {reply : ι → Option OpsTask} {i j : ι} {t t' : OpsTask}
    (h : t' ∈ Function.update reply i (some t) j) : j = i ∧ t' = t ∨ j ≠ i ∧ t' ∈ reply j := by
  by_cases hj : j = i
  · subst hj
    rw [Function.update_self] at h
    exact .inl ⟨rfl, (Option.some.inj h).symm⟩
  · rw [Function.update_of_ne hj] at h
    exact .inr ⟨hj, h⟩

theorem SameKey.symm {c d : Creation} (h : SameKey c d) : SameKey d c := by
  obtain ⟨k, hk, hc, hd⟩ := h
  exact ⟨k, hk, hd, hc⟩

/-- A call that found a task answers it. -/
theorem Ledger.found (h : Ledger request db₀ l w) (hnew : NewKeys request db₀) {i : ι}
    (hi : w.reply i = none) {t : OpsTask} (ht : t ∈ w.shared.tasks)
    (hkey : t.idempotencyKey = (request i).key) {k : String} (hk : k ≠ "")
    (hsome : (request i).key = some k) :
    Ledger request db₀ (l ++ [.commit i])
      { w with reply := Function.update w.reply i (some t) } := by
  have hkeep : ∀ {j t'}, w.reply j = some t' → Function.update w.reply i (some t) j = some t' := by
    intro j t' hj
    have hne : j ≠ i := by
      rintro rfl
      rw [hi] at hj
      cases hj
    rw [Function.update_of_ne hne, hj]
  -- the task was made by a call with the same key
  have hmaker : ∀ j, ∀ t' ∈ w.reply j, t'.id = t.id → SameKey (request i) (request j) := by
    intro j t' ht' hid
    obtain ⟨hmem, hkey'⟩ := h.reply j t' ht'
    obtain rfl := Table.eq_of_key_eq hmem ht hid
    exact ⟨k, hk, hsome, hkey'.symm.trans (hkey.trans hsome)⟩
  have hsome' : (request i).key.isSome := by
    rw [hsome]
    rfl
  refine ⟨h.inv, h.servers, h.services, ?_, ?_, ?_, ?_, h.unique⟩
  · exact fun t' ht' => (h.origin t' ht').imp_right fun ⟨j, hj, hreply⟩ =>
      ⟨j, List.mem_append_left _ hj, hkeep hreply⟩
  · intro j t' ht'
    rcases mem_update_reply ht' with ⟨rfl, rfl⟩ | ⟨-, ht'⟩
    · exact ⟨ht, hkey⟩
    · exact h.reply j t' ht'
  · intro j t' ht'
    rcases mem_update_reply ht' with ⟨rfl, rfl⟩ | ⟨-, ht'⟩
    · rcases h.origin t' ht with hold | ⟨m, hm, hreply⟩
      · exact absurd hkey (hnew j hsome' t' hold)
      · obtain ⟨n, hn, hown, hcovers⟩ := h.made m t' hreply
        have hnreply := h.reply m t' hreply
        refine ⟨n, List.mem_append_left _ hn, .inr ?_, hcovers⟩
        rcases hown with rfl | hown
        · exact hmaker n t' hreply rfl
        · obtain ⟨k', -, hm', hn'⟩ := hown
          exact ⟨k, hk, hsome, by
            rw [hn', ← hm', ← hnreply.2, hkey, hsome]⟩
    · exact (h.made j t' ht').imp fun _ hk => ⟨List.mem_append_left _ hk.1, hk.2⟩
  · intro m n hne hdiff t₁ ht₁ t₂ ht₂ hid
    rcases mem_update_reply ht₁ with ⟨rfl, rfl⟩ | ⟨-, hold₁⟩
    · rcases mem_update_reply ht₂ with ⟨rfl, -⟩ | ⟨-, ht₂⟩
      · exact hne rfl
      · exact hdiff (hmaker n t₂ ht₂ hid.symm)
    · rcases mem_update_reply ht₂ with ⟨rfl, rfl⟩ | ⟨-, ht₂⟩
      · exact hdiff (hmaker m t₁ hold₁ hid).symm
      · exact h.own m n hne hdiff t₁ hold₁ t₂ ht₂ hid

/-- A call that found nothing inserts its own task. -/
theorem Ledger.inserted (h : Ledger request db₀ l w) {i : ι} (hi : w.reply i = none) {db' : Db}
    {t : OpsTask} (hins : Inserted w.shared (request i) db' t) (hinv : Inv False db')
    (hfree : (request i).key.isSome → ∀ t' ∈ w.shared.tasks, t'.idempotencyKey ≠ (request i).key) :
    Ledger request db₀ (l ++ [.commit i])
      { w with shared := db', reply := Function.update w.reply i (some t) } := by
  have hkeep : ∀ {j t'}, w.reply j = some t' → Function.update w.reply i (some t) j = some t' := by
    intro j t' hj
    have hne : j ≠ i := by
      rintro rfl
      rw [hi] at hj
      cases hj
    rw [Function.update_of_ne hne, hj]
  have hlt : ∀ t' ∈ w.shared.tasks, t'.id < t.id := by
    intro t' ht'
    rw [hins.id]
    exact Table.key_lt ht'
  refine ⟨hinv, hins.servers.trans h.servers, hins.services.trans h.services, ?_, ?_, ?_, ?_, ?_⟩
  · intro t' ht'
    rcases (hins.tasks t').mp ht' with ht' | rfl
    · exact (h.origin t' ht').imp_right fun ⟨j, hj, hreply⟩ =>
        ⟨j, List.mem_append_left _ hj, hkeep hreply⟩
    · exact .inr ⟨i, by simp, Function.update_self _ _ _⟩
  · intro j t' ht'
    rcases mem_update_reply ht' with ⟨rfl, rfl⟩ | ⟨-, ht'⟩
    · exact ⟨(hins.tasks t').mpr (.inr rfl), hins.key⟩
    · obtain ⟨hmem, hkey⟩ := h.reply j t' ht'
      exact ⟨(hins.tasks t').mpr (.inl hmem), hkey⟩
  · intro j t' ht'
    rcases mem_update_reply ht' with ⟨rfl, rfl⟩ | ⟨-, ht'⟩
    · exact ⟨j, by simp, .inl rfl, hins.covers⟩
    · obtain ⟨n, hn, hown, hcovers⟩ := h.made j t' ht'
      have hold := hlt t' (h.reply j t' ht').1
      exact ⟨n, List.mem_append_left _ hn, hown, hcovers.of_rows (hins.rows t'.id hold.ne)⟩
  · intro m n hne hdiff t₁ ht₁ t₂ ht₂
    rcases mem_update_reply ht₁ with ⟨rfl, rfl⟩ | ⟨-, hold₁⟩
    · rcases mem_update_reply ht₂ with ⟨rfl, -⟩ | ⟨-, ht₂⟩
      · exact absurd rfl hne
      · exact (hlt t₂ (h.reply n t₂ ht₂).1).ne'
    · rcases mem_update_reply ht₂ with ⟨rfl, rfl⟩ | ⟨-, ht₂⟩
      · exact (hlt t₁ (h.reply m t₁ hold₁).1).ne
      · exact h.own m n hne hdiff t₁ hold₁ t₂ ht₂
  · intro j hj t₁ ht₁ t₂ ht₂ hkey₁ hkey₂
    have hclash : ∀ t' ∈ w.shared.tasks, t'.idempotencyKey = (request j).key →
        t.idempotencyKey ≠ (request j).key := by
      intro t' ht' hkey' hkey
      have heq : (request i).key = (request j).key := hins.key.symm.trans hkey
      exact hfree (by rwa [heq]) t' ht' (hkey'.trans heq.symm)
    rcases (hins.tasks t₁).mp ht₁ with hold₁ | rfl
    · rcases (hins.tasks t₂).mp ht₂ with ht₂ | rfl
      · exact h.unique j hj t₁ hold₁ t₂ ht₂ hkey₁ hkey₂
      · exact absurd hkey₂ (hclash t₁ hold₁ hkey₁)
    · rcases (hins.tasks t₂).mp ht₂ with ht₂ | rfl
      · exact absurd hkey₁ (hclash t₂ ht₂ hkey₂)
      · rfl

/-- What the commit of a call does, with what the call saw when it looked. -/
theorem Ledger.commit (h : Ledger request db₀ l w) (hnew : NewKeys request db₀) {i : ι}
    (hi : w.reply i = none) {base : Db} (hseen : w.seen i = some ((request i).lookUp base))
    (hbase : ∀ t ∈ base.tasks, t ∈ w.shared.tasks) :
    Ledger request db₀ (l ++ [.commit i]) ((creations request).step w (.commit i)) := by
  have hadd : ∀ w', Ledger request db₀ l w' → Ledger request db₀ (l ++ [.commit i]) w' :=
    fun w' h => ⟨h.inv, h.servers, h.services,
      fun t ht => (h.origin t ht).imp_right fun ⟨j, hj, hreply⟩ =>
        ⟨j, List.mem_append_left _ hj, hreply⟩,
      h.reply, fun j t ht => (h.made j t ht).imp fun _ hk => ⟨List.mem_append_left _ hk.1, hk.2⟩,
      h.own, h.unique⟩
  rw [TwoStep.step_commit hseen]
  cases hfound : (request i).lookUp base with
  | some t =>
    obtain ⟨ht, hkey, k, hk, hsome⟩ := Creation.of_lookUp hfound
    exact h.found hnew hi (hbase t ht) hkey hk hsome
  | none =>
    cases hok : insertTask w.shared (request i).now (request i).data (request i).creatorId
        (request i).key with
    | error x =>
      have hact : (creations request).act i none w.shared = none := by
        simp [creations, Creation.finish, hok, Except.toOption]
      rw [hact]
      exact hadd w h
    | ok r =>
      obtain ⟨db', t⟩ := r
      have hact : (creations request).act i none w.shared = some (db', t) :=
        toOption_eq_some.mpr hok
      rw [hact]
      have hmove : Move (fun _ _ => none) (request i).now w.shared (.insert t) db' := .insert hok
      refine h.inserted hi (h.inv.inserted hok) (h.inv.move hmove (by simp)) fun hsome t' ht' heq => ?_
      exact insertTask_ne_ok hsome ht' heq _ hok

theorem step_tasks_persist (hw : Ledger request db₀ l w) (p : Phase ι) {t : OpsTask}
    (ht : t ∈ w.shared.tasks) : t ∈ ((creations request).step w p).shared.tasks := by
  cases p with
  | read i => exact ht
  | commit i =>
    cases hact : (w.seen i).bind fun found => (creations request).act i found w.shared with
    | none => rwa [TwoStep.step, hact]
    | some r =>
      obtain ⟨db', t'⟩ := r
      obtain ⟨found, -, hdone⟩ := Option.bind_eq_some_iff.mp hact
      rw [TwoStep.step, hact]
      cases found with
      | some existing =>
        obtain ⟨rfl, -⟩ := Prod.ext_iff.mp (Option.some.inj hdone)
        exact ht
      | none =>
        have hok : insertTask w.shared (request i).now (request i).data (request i).creatorId
            (request i).key = .ok (db', t') := toOption_eq_some.mp hdone
        exact ((hw.inv.inserted hok).tasks t).mpr (.inl ht)

theorem ledger_play (hdb : Inv False db₀) (hnew : NewKeys request db₀) (hl : InOrder l) :
    Ledger request db₀ l ((creations request).play db₀ l) ∧
      ∀ a b, l = a ++ b → ∀ t ∈ ((creations request).play db₀ a).shared.tasks,
        t ∈ ((creations request).play db₀ l).shared.tasks := by
  induction l using List.reverseRecOn with
  | nil =>
    refine ⟨.start hdb hnew, fun a b heq t ht => ?_⟩
    obtain ⟨rfl, -⟩ := List.append_eq_nil_iff.mp heq.symm
    exact ht
  | append_singleton l p ih =>
    obtain ⟨hledger, hpersist⟩ := ih hl.front
    rw [TwoStep.play_concat]
    constructor
    · cases p with
      | read i => exact hledger.read i
      | commit i =>
        obtain ⟨a, b, heq, hseen⟩ := @TwoStep.exists_look _ _ _ _ _ (creations request) _ db₀ _ hl
        have hnone : .commit i ∉ l := fun hmem =>
          (List.nodup_append.mp hl.nodup).2.2 _ hmem _ (List.mem_singleton.mpr rfl) rfl
        exact hledger.commit hnew (TwoStep.reply_of_not_committed hnone) hseen
          (hpersist a _ heq)
    · intro a b heq t ht
      rcases List.eq_nil_or_concat b with rfl | ⟨b', p', rfl⟩
      · rw [List.append_nil] at heq
        rwa [← heq, TwoStep.play_concat] at ht
      · rw [List.concat_eq_append, ← List.append_assoc] at heq
        obtain ⟨rfl, -⟩ := List.append_inj' heq rfl
        exact step_tasks_persist hledger p (hpersist a b' rfl t ht)

/-! ## When the promises are kept -/

/-- A call that found no task with its key met none when it inserted. -/
theorem free_of_keysSettle (hdb : Inv False db₀) (hnew : NewKeys request db₀) {i : ι}
    (hl : InOrder (l ++ [.commit i])) (hsettle : KeysSettle request (l ++ [.commit i]))
    (hanswered : ∀ j, .commit j ∈ l → ∃ t, ((creations request).play db₀ l).reply j = some t)
    (hseen : ((creations request).play db₀ l).seen i = some none)
    (hsome : (request i).key.isSome) :
    ∀ t ∈ ((creations request).play db₀ l).shared.tasks, t.idempotencyKey ≠ (request i).key := by
  intro t ht hkey
  obtain ⟨hledger, -⟩ := ledger_play hdb hnew hl.front
  rcases hledger.origin t ht with hold | ⟨j, hj, hreply⟩
  · exact hnew i hsome t hold hkey
  · have hsame : (request j).key = (request i).key := (hledger.reply j t hreply).2.symm.trans hkey
    obtain ⟨hempty, a, q, b, rfl, rfl, h, hh, hhkey⟩ :=
      hsettle.last i rfl j hj (by rwa [hsame]) hsame
    -- the call `h` had committed its task when `i` looked
    obtain ⟨x, y, rfl⟩ := List.append_of_mem hh
    have hlist : x ++ .commit h :: y ++ .read i :: b = x ++ .commit h :: (y ++ .read i :: b) := by
      simp
    obtain ⟨t', ht'⟩ := hanswered h (by simp)
    have hpre : InOrder (x ++ .commit h :: y) := hl.front.front
    have hnodup := hl.front.nodup
    rw [hlist] at ht' hnodup
    rw [TwoStep.reply_of_commit hnodup, ← TwoStep.reply_of_commit hpre.nodup] at ht'
    obtain ⟨hmem, hkey'⟩ := (ledger_play hdb hnew hpre).1.reply h t' ht'
    rw [TwoStep.seen_of_read hl.front.nodup] at hseen
    obtain ⟨k, hk⟩ := Option.isSome_iff_exists.mp hsome
    refine Creation.lookUp_ne_none ?_ hk hmem (hkey'.trans hhkey) (Option.some.inj hseen)
    rintro rfl
    exact hempty hk

theorem answered_of_keysSettle (hdb : Inv False db₀) (hnew : NewKeys request db₀)
    (hl : InOrder l) (hvalid : ∀ i, .commit i ∈ l → (request i).Valid db₀)
    (hsettle : KeysSettle request l) :
    ∀ i, .commit i ∈ l → ∃ t, ((creations request).play db₀ l).reply i = some t := by
  induction l using List.reverseRecOn with
  | nil => exact fun i hi => absurd hi List.not_mem_nil
  | append_singleton l p ih =>
    have hold := ih hl.front (fun i hi => hvalid i (List.mem_append_left _ hi)) hsettle.front
    obtain ⟨hledger, -⟩ := ledger_play hdb hnew hl.front
    intro i hi
    rw [TwoStep.play_concat]
    by_cases hp : p = .commit i
    · subst hp
      obtain ⟨a, b, -, hseen⟩ := @TwoStep.exists_look _ _ _ _ _ (creations request) _ db₀ _ hl
      rw [TwoStep.step_commit hseen]
      cases hfound : (creations request).look i ((creations request).play db₀ a).shared with
      | some t => exact ⟨t, Function.update_self _ _ _⟩
      | none =>
        rw [hfound] at hseen
        have hvalid' : (request i).Valid ((creations request).play db₀ l).shared := by
          obtain ⟨action, servers, haction, hservers, hwhite⟩ := hvalid i hi
          refine ⟨action, servers, haction, ?_, ?_⟩
          · rwa [validateServers, hledger.servers]
          · unfold validateServiceWhitelist at hwhite ⊢
            rwa [hledger.services]
        obtain ⟨⟨db', t⟩, hok⟩ := hvalid'.insertTask_ok hledger.inv.toChains
          (free_of_keysSettle hdb hnew hl hsettle hold hseen)
        have hact : (creations request).act i none ((creations request).play db₀ l).shared =
            some (db', t) := toOption_eq_some.mpr hok
        rw [hact]
        exact ⟨t, Function.update_self _ _ _⟩
    · rw [TwoStep.reply_step_of_ne hp]
      refine hold i ((List.mem_append.mp hi).resolve_right fun hmem => hp ?_)
      exact (List.mem_singleton.mp hmem).symm

theorem idempotent_of_answered (hdb : Inv False db₀) (hnew : NewKeys request db₀) (hl : InOrder l)
    (hanswered : ∀ i, .commit i ∈ l → ∃ t, ((creations request).play db₀ l).reply i = some t) :
    Idempotent request l ((creations request).play db₀ l) := by
  obtain ⟨hledger, -⟩ := ledger_play hdb hnew hl
  refine ⟨?_, ?_, hledger.own, ?_, hledger.made⟩
  · intro i hi
    obtain ⟨t, ht⟩ := hanswered i hi
    exact ⟨t, (hledger.reply i t ht).1, ht⟩
  · rintro i j hi hj ⟨k, -, hki, hkj⟩
    obtain ⟨t, ht⟩ := hanswered i hi
    obtain ⟨t', ht'⟩ := hanswered j hj
    obtain ⟨hmem, hkey⟩ := hledger.reply i t ht
    obtain ⟨hmem', hkey'⟩ := hledger.reply j t' ht'
    have hsome : (request i).key.isSome := by
      rw [hki]
      rfl
    rw [ht, ht', hledger.unique i hsome t hmem t' hmem' hkey (hkey'.trans (hkj.trans hki.symm))]
  · intro i hi k hk _
    obtain ⟨t, ht⟩ := hanswered i hi
    obtain ⟨hmem, hkey⟩ := hledger.reply i t ht
    have hsome : (request i).key.isSome := by
      rw [hk]
      rfl
    exact ⟨t, ⟨hmem, hkey.trans hk⟩, fun t' ht' =>
      hledger.unique i hsome t' ht'.1 t hmem (ht'.2.trans hk.symm) hkey⟩

/-- A call whose key was inserted by another one is answered only with the task it found. -/
theorem keysSettle_of_answered (hdb : Inv False db₀) (hnew : NewKeys request db₀) (hl : InOrder l)
    (hanswered : ∀ i, .commit i ∈ l → ∃ t, ((creations request).play db₀ l).reply i = some t) :
    KeysSettle request l := by
  rintro pre p post rfl j rfl i hi hsome hsame
  have hsplit : pre ++ .commit j :: post = pre ++ [.commit j] ++ post := by simp
  have hupto : InOrder (pre ++ [.commit j]) := (hsplit ▸ hl).front
  obtain ⟨hledger, -⟩ := ledger_play hdb hnew hupto.front
  obtain ⟨a, b, hpre, hseen⟩ :=
    @TwoStep.exists_look _ _ _ _ _ (creations request) _ db₀ _ hupto
  -- the task of `i` is there when `j` commits
  obtain ⟨x, y, hx⟩ := List.append_of_mem hi
  obtain ⟨t, ht⟩ := hanswered i (List.mem_append_left _ hi)
  have hnodup := hl.nodup
  have hlist : pre ++ .commit j :: post = x ++ .commit i :: (y ++ .commit j :: post) := by
    rw [hx]
    simp
  rw [hlist] at ht hnodup
  have hnodup' := hupto.front.nodup
  rw [hx] at hnodup'
  rw [TwoStep.reply_of_commit hnodup, ← TwoStep.reply_of_commit hnodup', ← hx] at ht
  obtain ⟨hmem, hkey⟩ := hledger.reply i t ht
  -- so `j` must have found one
  obtain ⟨t', ht'⟩ := hanswered j (by simp)
  rw [TwoStep.reply_of_commit hl.nodup, TwoStep.play_concat, TwoStep.step_commit hseen] at ht'
  have hnone : ((creations request).play db₀ pre).reply j = none :=
    TwoStep.reply_of_not_committed fun hmem =>
      (List.nodup_append.mp hupto.nodup).2.2 _ hmem _ (List.mem_singleton.mpr rfl) rfl
  cases hfound : (creations request).look j ((creations request).play db₀ a).shared with
  | none =>
    cases hact : (creations request).act j none ((creations request).play db₀ pre).shared with
    | none =>
      rw [hfound, hact, hnone] at ht'
      cases ht'
    | some r =>
      have hrefused := insertTask_ne_ok (by rwa [← hsame]) hmem (hkey.trans hsame) r
      exact absurd (toOption_eq_some.mp hact) hrefused
  | some t₀ =>
    obtain ⟨hmem₀, hkey₀, k, hk, hsome₀⟩ := Creation.of_lookUp hfound
    have hbefore : InOrder a := InOrder.front (hpre ▸ hupto.front)
    refine ⟨fun hempty => hk (Option.some.inj (hsome₀.symm.trans hempty)), a, _, b, hpre, rfl, ?_⟩
    obtain ⟨hledger₀, -⟩ := ledger_play hdb hnew hbefore
    rcases hledger₀.origin t₀ hmem₀ with hold | ⟨h, hh, hreply⟩
    · exact absurd hkey₀ (hnew j (by rwa [← hsame]) t₀ hold)
    · exact ⟨h, hh, (hledger₀.reply h t₀ hreply).2.symm.trans hkey₀⟩

end All

section Runs
open Sample

/-- Two requests for the check with one key. -/
def twice (key : String) (_ : Session) : Creation := ⟨1000, check "ONCE", 1, some key⟩

theorem twice_valid (key : String) (i : Session) :
    (twice key i).Valid (after everyMinute servers services []) :=
  ⟨.status, [⟨1, "web-01", "web-01", "10.0.0.1", 22, none, none, none, none, none, none,
    none, none, none, "ONLINE", none, none, 1, none⟩], by rfl, by rfl, by rfl⟩

/-- An empty key is stored and never found, so the second request with it is refused. -/
example : ((creations (twice "")).play (after everyMinute servers services [])
    [.read .one, .commit .one, .read .two, .commit .two]).reply .two = none := by decide

end Runs

end OpsMonitor.Task
