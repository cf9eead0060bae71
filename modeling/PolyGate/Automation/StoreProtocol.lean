import PolyGate.Automation.InMemoryStore

/-!
# `Automation/StoreProtocol.lean` — two stores, one protocol

The operations of `AutomationStore`, done in the dictionaries of `InMemoryAutomationStore` and in
Redis. Jobs are only ever queued here, and each is newer than those before it. So the three
dictionaries say what is under every Redis key (`Simulates`), and one operation after another both
stores answer the same (`same_results`).

The scores of the index are exact times. As floats, two jobs a microsecond apart have one
`timestamp()` from the year 2242 on, when it has come to 2^33, and Redis orders them by their ids.
-/

namespace PolyGate.Automation.StoreProtocol

open Lib

/-! ## The protocol -/

/-- An operation, an `enqueue` with what `uuid4` and the clock say in it. -/
inductive Op
  | savePreview (preview : PreviewResponse)
  | getPreview (previewId : String)
  | enqueue (preview : PreviewResponse) (idempotencyKey : String) (jobId : JobId) (createdAt : Time)
  | getJob (jobId : JobId)
  | listJobs (status : Option JobState) (limit : {n : Nat // 1 ≤ n})

def Op.jobId : Op → Option JobId
  | .enqueue _ _ jobId _ => some jobId
  | _ => none

def Op.createdAt : Op → Option Time
  | .enqueue _ _ _ createdAt => some createdAt
  | _ => none

inductive Result
  | saved
  | preview (preview : Option PreviewResponse)
  | enqueued (record : JobRecord)
  | job (record : Option JobRecord)
  | jobs (records : List JobRecord)
  deriving DecidableEq

/-- An operation on the dictionaries. -/
def inMemory (store : InMemoryAutomationStore) :
    Op → Except KeyError (Result × InMemoryAutomationStore)
  | .savePreview preview => .ok (.saved, store.savePreview preview)
  | .getPreview previewId => .ok (.preview (store.getPreview previewId), store)
  | .enqueue preview idempotencyKey jobId createdAt => do
    let (record, store) ← store.enqueue preview idempotencyKey jobId createdAt
    return (.enqueued record, store)
  | .getJob jobId => .ok (.job (store.getJob jobId), store)
  | .listJobs status limit => .ok (.jobs (store.listJobs status limit), store)

def allInMemory (store : InMemoryAutomationStore) :
    List Op → Except KeyError (List Result × InMemoryAutomationStore)
  | [] => .ok ([], store)
  | op :: ops => do
    let (result, store) ← inMemory store op
    let (results, store) ← allInMemory store ops
    return (result :: results, store)

/-- An operation on Redis. -/
def inRedis : Op → Store Result
  | .savePreview preview => do
    savePreview preview
    return .saved
  | .getPreview previewId => return .preview (← getPreview previewId)
  | .enqueue preview idempotencyKey _ _ => return .enqueued (← enqueue preview idempotencyKey)
  | .getJob jobId => return .job (← getJob jobId)
  | .listJobs status limit => return .jobs (← listJobs status limit)

/-- What is answered during an operation. -/
def answers (op : Op) (r : Redis) : (c : Cmd) → c.Reply → Redis → Prop
  | .redis c, v, r' => r.Answers c v r'
  | .now, (t : Time), r' => op.createdAt = some t ∧ r' = r
  | .newJobId, (id : JobId), r' => op.jobId = some id ∧ r' = r
  | _, _, _ => False

/-- The operations, one after another, with what each returns or raises. -/
def RedisRuns (r : Redis) : List Op → List (Except PyExc Result) → Redis → Prop
  | [], os, r' => os = [] ∧ r' = r
  | op :: ops, os, r' => ∃ o r₁ os₁, (inRedis op).Runs (.ofAnswers (answers op)) r o r₁ ∧
      RedisRuns r₁ ops os₁ r' ∧ os = o :: os₁

/-! ## What an operation does to Redis -/

section Runs

variable {op : Op} {r r' : Redis} {α : Type} {o : Except PyExc α}

abbrev Runs (op : Op) (p : Store α) (r : Redis) (o : Except PyExc α) (r' : Redis) : Prop :=
  p.Runs (.ofAnswers (answers op)) r o r'

theorem runs_redis {c : RedisCmd} {f : c.Reply → Store α} :
    Runs op (.cmd (.redis c) (Prog.onReply f)) r o r' ↔
      ∃ v r₁, r.Answers c v r₁ ∧ Runs op (f v) r₁ o r' := Prog.runs_onReply

/-- A command with one answer. -/
theorem runs_answer {c : RedisCmd} {f : c.Reply → Store α} {v : c.Reply} {r₁ : Redis}
    (h : ∀ v' r₂, r.Answers c v' r₂ ↔ v' = v ∧ r₂ = r₁) :
    Runs op (.cmd (.redis c) (Prog.onReply f)) r o r' ↔ Runs op (f v) r₁ o r' := by
  rw [runs_redis]
  constructor
  · rintro ⟨v', r₂, hv, hrun⟩
    obtain ⟨rfl, rfl⟩ := (h v' r₂).mp hv
    exact hrun
  · intro hrun
    exact ⟨v, r₁, (h v r₁).mpr ⟨rfl, rfl⟩, hrun⟩

theorem runs_now {f : Time → Store α} {t : Time} (h : op.createdAt = some t) :
    Runs op (.cmd .now (Prog.onReply f)) r o r' ↔ Runs op (f t) r o r' := by
  unfold Runs
  rw [Prog.runs_onReply]
  constructor
  · rintro ⟨t', r₁, ⟨ht', rfl⟩, hrun⟩
    obtain rfl := Option.some.inj (h.symm.trans ht')
    exact hrun
  · intro hrun
    exact ⟨t, r, ⟨h, rfl⟩, hrun⟩

theorem runs_newJobId {f : JobId → Store α} {id : JobId} (h : op.jobId = some id) :
    Runs op (.cmd .newJobId (Prog.onReply f)) r o r' ↔ Runs op (f id) r o r' := by
  unfold Runs
  rw [Prog.runs_onReply]
  constructor
  · rintro ⟨id', r₁, ⟨hid', rfl⟩, hrun⟩
    obtain rfl := Option.some.inj (h.symm.trans hid')
    exact hrun
  · intro hrun
    exact ⟨id, r, ⟨h, rfl⟩, hrun⟩

theorem runs_ret {a : α} : Runs op (.ret a) r o r' ↔ o = .ok a ∧ r' = r := Iff.rfl

theorem runs_getJob {id : JobId} {f : Option JobRecord → Store α} :
    Runs op (getJob id >>= f) r o r' ↔ Runs op (f (r.jobs id)) r o r' := by
  unfold getJob redis
  rw [Prog.perform_bind]
  exact runs_answer fun v r₁ => Iff.rfl

/-- `list_jobs` does not pass over the record. -/
def wanted (status : Option JobState) (record : JobRecord) : Bool :=
  !status.any (record.status ≠ ·)

/-- The loop stops at the limit, or when the index is through. -/
theorem runs_collectRecords {status : Option JobState} {limit : Nat} {ids : List JobId}
    {records : List JobRecord} {o : Except PyExc (List JobRecord)}
    (hlimit : records.length < limit) :
    Runs op (collectRecords status limit ids records) r o r' ↔
      o = .ok ((records ++ (ids.filterMap r.jobs).filter (wanted status)).take limit) ∧ r' = r := by
  induction ids generalizing records with
  | nil =>
    rw [List.filterMap_nil, List.filter_nil, List.append_nil,
      List.take_of_length_le (Nat.le_of_lt hlimit)]
    exact runs_ret
  | cons id ids ih =>
    unfold collectRecords
    rw [runs_getJob]
    cases hjob : r.jobs id with
    | none =>
      rw [List.filterMap_cons_none hjob]
      exact ih hlimit
    | some record =>
      rw [List.filterMap_cons_some hjob]
      dsimp only
      split
      · next hskip =>
        have hnot : wanted status record = false := by rw [wanted, hskip]; rfl
        rw [List.filter_cons_of_neg (by rw [hnot]; exact Bool.false_ne_true)]
        exact ih hlimit
      · next hskip =>
        have hwanted : wanted status record = true := by
          rw [wanted, Bool.eq_false_of_not_eq_true hskip]
          rfl
        rw [List.filter_cons_of_pos hwanted,
          List.append_cons records record ((ids.filterMap r.jobs).filter (wanted status))]
        split
        · next hfull =>
          have hlength : (records ++ [record]).length ≤ limit := by
            rw [List.length_append]
            exact hlimit
          rw [List.take_append_of_le_length hfull, List.take_of_length_le hlength]
          exact runs_ret
        · next hfull => exact ih (Nat.lt_of_not_le hfull)

/-- A first part with one outcome. -/
theorem runs_bind {p : Store α} {β : Type} {f : α → Store β} {o : Except PyExc β} {a : α}
    {r₁ : Redis} (h : ∀ o r', Runs op p r o r' ↔ o = .ok a ∧ r' = r₁) :
    Runs op (p >>= f) r o r' ↔ Runs op (f a) r₁ o r' := by
  rw [Runs, Prog.runs_bind]
  constructor
  · rintro (⟨a', r₂, hp, hf⟩ | ⟨e, hp, -⟩)
    · obtain ⟨ha, rfl⟩ := (h _ _).mp hp
      cases ha
      exact hf
    · cases ((h _ _).mp hp).1
  · intro hf
    exact Or.inl ⟨a, r₁, (h _ _).mpr ⟨rfl, rfl⟩, hf⟩

theorem runs_listJobs {status : Option JobState} {limit : Nat} (hlimit : 1 ≤ limit)
    {o : Except PyExc (List JobRecord)} : Runs op (listJobs status limit) r o r' ↔
      o = .ok (((r.index.members.reverse.filterMap r.jobs).filter (wanted status)).take limit) ∧
        r' = r := by
  unfold listJobs redis
  rw [Prog.perform_bind, runs_answer fun v r₁ => Iff.rfl]
  exact runs_collectRecords hlimit

/-- A new job. -/
theorem runs_enqueueNew {preview : PreviewResponse} {id : JobId} {t : Time}
    (ht : op.createdAt = some t) {o : Except PyExc JobRecord} :
    Runs op (enqueueNew preview id) r o r' ↔
      o = .ok (newRecord preview id r.pending.card t) ∧
        r' = r.enqueuePipeline (newRecord preview id r.pending.card t) preview.gatewayRequest := by
  unfold enqueueNew redis
  rw [Prog.perform_bind, runs_answer fun v r₁ => Iff.rfl, Prog.perform_bind, runs_now ht,
    Prog.perform_bind]
  refine (runs_answer (v := ()) fun v r₁ => ?_).trans runs_ret
  exact ⟨fun h => ⟨rfl, h⟩, fun h => h.2⟩

variable {preview : PreviewResponse} {key : String} {id id' : JobId} {t : Time}
  {record : JobRecord} {o : Except PyExc JobRecord}

theorem runs_enqueue_new (hid : op.jobId = some id) (ht : op.createdAt = some t)
    (hkey : r.idempotency key = none) : Runs op (enqueue preview key) r o r' ↔
      o = .ok (newRecord preview id r.pending.card t) ∧
        r' = (r.setIdempotency key id).enqueuePipeline (newRecord preview id r.pending.card t)
          preview.gatewayRequest := by
  have hset : ∀ v r₁, r.Answers (.setNxIdempotency key id) v r₁ ↔
      v = true ∧ r₁ = r.setIdempotency key id := by
    intro v r₁
    simp only [Redis.Answers, hkey]
  unfold enqueue redis
  rw [Prog.perform_bind, runs_newJobId hid, Prog.perform_bind, runs_answer hset]
  exact runs_enqueueNew ht

theorem runs_enqueue_existing (hid : op.jobId = some id) (hkey : r.idempotency key = some id')
    (hjob : r.jobs id' = some record) :
    Runs op (enqueue preview key) r o r' ↔ o = .ok record ∧ r' = r := by
  have hset : ∀ v r₁, r.Answers (.setNxIdempotency key id) v r₁ ↔ v = false ∧ r₁ = r := by
    intro v r₁
    simp only [Redis.Answers, hkey]
  unfold enqueue redis
  rw [Prog.perform_bind, runs_newJobId hid, Prog.perform_bind, runs_answer hset]
  show Runs op (enqueueExisting preview key) r o r' ↔ _
  unfold enqueueExisting redis
  rw [Prog.perform_bind, runs_answer fun v r₁ => Iff.rfl, hkey]
  dsimp only
  rw [runs_getJob, hjob]
  exact runs_ret

end Runs

/-! ## What the dictionaries say about Redis -/

/-- Under each key of Redis is what the dictionaries say, all jobs are queued, and each is newer
than those before it. -/
structure Simulates (store : InMemoryAutomationStore) (r : Redis) : Prop where
  previews : ∀ id, r.previews id = store.previews.get? id
  jobs : ∀ id, r.jobs id = store.jobs.get? id
  idempotency : ∀ key, r.idempotency key = store.idempotency.get? key
  pending : r.pending = store.jobs.keys.toFinset
  index : r.index.entries = store.jobs.entries.map fun e => toLex (e.2.createdAt, e.1)
  behind : ∀ key id, store.idempotency.get? key = some id →
    ∃ record, store.jobs.get? id = some record
  queued : ∀ record ∈ store.jobs.values, record.status = .queued
  ordered : store.jobs.values.Pairwise fun a b => a.createdAt < b.createdAt

theorem simulates_new : Simulates .new .empty where
  previews _ := rfl
  jobs _ := rfl
  idempotency _ := rfl
  pending := rfl
  index := rfl
  behind _ _ h := by cases h
  queued _ h := by cases h
  ordered := .nil

section Simulates

variable {store : InMemoryAutomationStore} {r : Redis}

/-- All jobs are queued. -/
theorem Simulates.queuedCount (h : Simulates store r) : store.queuedCount = r.pending.card := by
  rw [h.pending, List.toFinset_card_of_nodup store.jobs.nodup_keys]
  have hall : store.queuedCount = store.jobs.values.length :=
    List.countP_eq_length.mpr fun record hrecord => decide_eq_true (h.queued record hrecord)
  rw [hall, Dict.values, Dict.keys, List.length_map, List.length_map]

/-- Sorted by their age, the jobs are the other way round. -/
theorem Simulates.newestFirst (h : Simulates store r) :
    store.newestFirst = store.jobs.values.reverse := by
  have hsorted : store.newestFirst.Pairwise fun a b => b.createdAt ≤ a.createdAt := by
    refine (List.pairwise_mergeSort (fun a b c hab hbc => ?_) (fun a b => ?_) _).imp
      of_decide_eq_true
    · exact decide_eq_true (le_trans (of_decide_eq_true hbc) (of_decide_eq_true hab))
    · simp [le_total]
  have hreverse : store.jobs.values.reverse.Pairwise fun a b => b.createdAt < a.createdAt :=
    List.pairwise_reverse.mpr h.ordered
  have hperm : store.newestFirst.Perm store.jobs.values.reverse :=
    (List.mergeSort_perm _ _).trans (List.reverse_perm _).symm
  have hnodup : (store.jobs.values.reverse.map (·.createdAt)).Nodup :=
    (List.pairwise_map.mpr hreverse).imp ne_of_gt
  refine hperm.eq_of_pairwise (fun a b ha hb hba hab => ?_) hsorted (hreverse.imp le_of_lt)
  exact List.inj_on_of_nodup_map hnodup (hperm.mem_iff.mp ha) hb (le_antisymm hab hba)

/-- The index from its newest member on. -/
theorem Simulates.index_records (h : Simulates store r) :
    r.index.members.reverse.filterMap r.jobs = store.jobs.values.reverse := by
  have hmembers : r.index.members = store.jobs.keys := by
    rw [ZSet.members, h.index, List.map_map]
    rfl
  have hjobs : r.jobs = store.jobs.get? := funext h.jobs
  rw [hmembers, hjobs, List.filterMap_reverse, Dict.filterMap_get?_keys]

theorem Simulates.listed (h : Simulates store r) (status : Option JobState) (limit : Nat) :
    ((r.index.members.reverse.filterMap r.jobs).filter (wanted status)).take limit =
      store.listJobs status limit := by
  rw [h.index_records, ← h.newestFirst]
  unfold InMemoryAutomationStore.listJobs
  cases status with
  | none =>
    have hall : store.newestFirst.filter (wanted none) = store.newestFirst :=
      List.filter_eq_self.mpr fun _ _ => rfl
    rw [hall]
  | some status =>
    have hwanted : wanted (some status) = fun record => decide (record.status = status) := by
      funext record
      simp [wanted]
    rw [hwanted]

/-- The operation adds its job at the end, or none. -/
def Grows (op : Op) (store store' : InMemoryAutomationStore) : Prop :=
  store'.jobs = store.jobs ∨ ∃ record, op.jobId = some record.jobId ∧
    op.createdAt = some record.createdAt ∧ store.jobs.get? record.jobId = none ∧
    store'.jobs = store.jobs.set record.jobId record

/-- A job that is new in both. -/
theorem Simulates.add (h : Simulates store r) {record : JobRecord}
    (hfresh : store.jobs.get? record.jobId = none) (hstatus : record.status = .queued)
    (hnewer : ∀ older ∈ store.jobs.values, older.createdAt < record.createdAt) (key : String)
    (payload : GatewayRequest) :
    Simulates { store with
        jobs := store.jobs.set record.jobId record
        idempotency := store.idempotency.set key record.jobId }
      ((r.setIdempotency key record.jobId).enqueuePipeline record payload) where
  previews := h.previews
  jobs id := by
    rw [Redis.enqueuePipeline_jobs, Dict.get?_set]
    split
    · next heq => rw [heq, Redis.setJob_self]
    · next hne =>
      rw [Redis.setJob_of_ne _ _ hne]
      exact h.jobs id
  idempotency key' := by
    rw [Redis.enqueuePipeline_idempotency, Dict.get?_set]
    split
    · next heq => rw [heq, Redis.setIdempotency_self]
    · next hne =>
      show Function.update r.idempotency key _ key' = _
      rw [Function.update_of_ne hne]
      exact h.idempotency key'
  pending := by
    rw [Redis.enqueuePipeline_pending, Dict.keys_set hfresh, List.toFinset_append,
      Redis.setIdempotency_pending, h.pending]
    ext id
    simp
  index := by
    have hnot : record.jobId ∉ r.index := by
      intro hmem
      rw [ZSet.mem_def, ZSet.members, h.index, List.map_map] at hmem
      exact Dict.get?_eq_none.mp hfresh hmem
    -- the newest job has the highest score, so it comes last in the index too
    have hlast : ∀ e ∈ r.index.entries, (ofLex e).1 < record.createdAt := by
      intro e he
      rw [h.index] at he
      obtain ⟨entry, hentry, rfl⟩ := List.mem_map.mp he
      exact hnewer _ (List.mem_map_of_mem hentry)
    show (r.index.add record.jobId record.createdAt).entries = _
    rw [ZSet.entries_add_of_last hnot hlast, Dict.entries_set hfresh, List.map_append, h.index]
    rfl
  behind key' id hid := by
    rw [Dict.get?_set] at hid
    rw [Dict.get?_set]
    split at hid
    · cases hid
      exact ⟨record, if_pos rfl⟩
    · split
      · exact ⟨record, rfl⟩
      · exact h.behind key' id hid
  queued other hother := by
    rw [Dict.values_set hfresh, List.mem_append] at hother
    rcases hother with hother | hother
    · exact h.queued other hother
    · rw [List.mem_singleton.mp hother]
      exact hstatus
  ordered := by
    rw [Dict.values_set hfresh]
    refine List.pairwise_append.mpr ⟨h.ordered, List.pairwise_singleton _ _, ?_⟩
    intro older holder other hother
    rw [List.mem_singleton.mp hother]
    exact hnewer older holder

/-- **One operation.** It raises nothing, and answers the same from both stores. -/
theorem Simulates.step (h : Simulates store r) (op : Op)
    (hfresh : ∀ id ∈ op.jobId, store.jobs.get? id = none)
    (hnewer : ∀ t ∈ op.createdAt, ∀ record ∈ store.jobs.values, record.createdAt < t) :
    ∃ result store' r', inMemory store op = .ok (result, store') ∧ Simulates store' r' ∧
      Grows op store store' ∧
      ∀ o r'', Runs op (inRedis op) r o r'' ↔ o = .ok result ∧ r'' = r' := by
  cases op with
  | savePreview preview =>
    refine ⟨.saved, _, { r with previews := Function.update r.previews preview.previewId preview },
      rfl, ?_, Or.inl rfl, fun o r'' => ?_⟩
    · refine { h with previews := fun id => ?_ }
      show Function.update r.previews _ _ id = (store.previews.set _ _).get? id
      rw [Dict.get?_set, Function.update_apply, h.previews]
    · show Runs _ (savePreview preview >>= _) r o r'' ↔ _
      unfold savePreview redis
      rw [Prog.perform_bind]
      refine (runs_answer (v := ()) fun v r₁ => ?_).trans runs_ret
      exact ⟨fun h => ⟨rfl, h⟩, fun h => h.2⟩
  | getPreview previewId =>
    refine ⟨.preview (store.getPreview previewId), store, r, rfl, h, Or.inl rfl, fun o r'' => ?_⟩
    show Runs _ (getPreview previewId >>= _) r o r'' ↔ _
    unfold getPreview redis InMemoryAutomationStore.getPreview
    rw [Prog.perform_bind, ← h.previews]
    exact (runs_answer fun v r₁ => Iff.rfl).trans runs_ret
  | enqueue preview key id t =>
    show ∃ result store' r', (store.enqueue preview key id t >>= _) = _ ∧ _
    unfold InMemoryAutomationStore.enqueue
    cases hkey : store.idempotency.get? key with
    | some id' =>
      obtain ⟨record, hjob⟩ := h.behind key id' hkey
      dsimp only
      rw [hjob]
      refine ⟨.enqueued record, store, r, rfl, h, Or.inl rfl, fun o r'' => ?_⟩
      show Runs _ (enqueue preview key >>= _) r o r'' ↔ _
      have hexisting := fun o r' => @runs_enqueue_existing (.enqueue preview key id t) r r' preview
        key id id' record o rfl ((h.idempotency key).trans hkey) ((h.jobs id').trans hjob)
      rw [runs_bind hexisting]
      exact runs_ret
    | none =>
      let record := newRecord preview id r.pending.card t
      have hid : store.jobs.get? record.jobId = none := hfresh id rfl
      refine ⟨.enqueued record, _, _, ?_, h.add hid rfl (hnewer t rfl) key preview.gatewayRequest,
        Or.inr ⟨record, rfl, rfl, hid, rfl⟩, fun o r'' => ?_⟩
      · rw [h.queuedCount]
        rfl
      · show Runs _ (enqueue preview key >>= _) r o r'' ↔ _
        have hnew := fun o r' => @runs_enqueue_new (.enqueue preview key id t) r r' preview
          key id t o rfl rfl ((h.idempotency key).trans hkey)
        rw [runs_bind hnew]
        exact runs_ret
  | getJob id =>
    refine ⟨.job (store.getJob id), store, r, rfl, h, Or.inl rfl, fun o r'' => ?_⟩
    show Runs _ (getJob id >>= _) r o r'' ↔ _
    unfold InMemoryAutomationStore.getJob
    rw [runs_getJob, h.jobs]
    exact runs_ret
  | listJobs status limit =>
    refine ⟨.jobs (store.listJobs status limit), store, r, rfl, h, Or.inl rfl, fun o r'' => ?_⟩
    show Runs _ (listJobs status limit >>= _) r o r'' ↔ _
    rw [runs_bind fun o r' => runs_listJobs limit.2, h.listed]
    exact runs_ret

end Simulates

/-! ## A sequence of operations -/

/-- Each id that is drawn is new, and each time later than those before it. -/
structure Ahead (store : InMemoryAutomationStore) (ops : List Op) : Prop where
  ids : (ops.filterMap Op.jobId).Nodup
  times : (ops.filterMap Op.createdAt).Pairwise (· < ·)
  fresh : ∀ id ∈ ops.filterMap Op.jobId, store.jobs.get? id = none
  newer : ∀ t ∈ ops.filterMap Op.createdAt, ∀ record ∈ store.jobs.values, record.createdAt < t

theorem Ahead.tail {store store' : InMemoryAutomationStore} {op : Op} {ops : List Op}
    (h : Ahead store (op :: ops)) (hgrows : Grows op store store') : Ahead store' ops := by
  have hsub : (op :: ops).filterMap Op.jobId = op.jobId.toList ++ ops.filterMap Op.jobId := by
    cases hid : op.jobId <;> simp [hid]
  have hsub' : (op :: ops).filterMap Op.createdAt =
      op.createdAt.toList ++ ops.filterMap Op.createdAt := by
    cases ht : op.createdAt <;> simp [ht]
  obtain ⟨hids, htimes, hfresh, hnewer⟩ := h
  rw [hsub] at hids hfresh
  rw [hsub'] at htimes hnewer
  have hfresh' := fun id hid => hfresh id (List.mem_append_right _ hid)
  have hnewer' := fun t ht => hnewer t (List.mem_append_right _ ht)
  obtain ⟨-, hids', hdisjoint⟩ := List.nodup_append.mp hids
  obtain ⟨-, htimes', hlater⟩ := List.pairwise_append.mp htimes
  refine ⟨hids', htimes', ?_, ?_⟩
  · rcases hgrows with heq | ⟨record, hid, -, -, heq⟩
    · rw [heq]
      exact hfresh'
    · intro id hmem
      rw [heq, Dict.get?_set, if_neg, hfresh' id hmem]
      rintro rfl
      exact hdisjoint _ (by rw [hid]; exact List.mem_singleton_self _) _ hmem rfl
  · rcases hgrows with heq | ⟨record, -, ht, hnone, heq⟩
    · rw [heq]
      exact hnewer'
    · intro t hmem other hother
      rw [heq, Dict.values_set hnone, List.mem_append] at hother
      rcases hother with hother | hother
      · exact hnewer' t hmem other hother
      · rw [List.mem_singleton.mp hother]
        exact hlater _ (by rw [ht]; exact List.mem_singleton_self _) t hmem

/-- From related stores, one operation after another. -/
theorem Simulates.run {store : InMemoryAutomationStore} {r : Redis} (h : Simulates store r)
    {ops : List Op} (hahead : Ahead store ops) :
    ∃ results store', allInMemory store ops = .ok (results, store') ∧
      ∀ os, (∃ r', RedisRuns r ops os r') ↔ os = results.map .ok := by
  induction ops generalizing store r with
  | nil =>
    refine ⟨[], store, rfl, fun os => ⟨?_, ?_⟩⟩
    · rintro ⟨r', rfl, -⟩
      rfl
    · rintro rfl
      exact ⟨r, rfl, rfl⟩
  | cons op ops ih =>
    have hfresh : ∀ id ∈ op.jobId, store.jobs.get? id = none := fun id hid =>
      hahead.fresh id (List.mem_filterMap.mpr ⟨op, List.mem_cons_self, hid⟩)
    have hnewer : ∀ t ∈ op.createdAt, ∀ record ∈ store.jobs.values, record.createdAt < t :=
      fun t ht => hahead.newer t (List.mem_filterMap.mpr ⟨op, List.mem_cons_self, ht⟩)
    obtain ⟨result, store₁, r₁, hmemory, hsim, hgrows, hredis⟩ := h.step op hfresh hnewer
    obtain ⟨results, store', hrest, hruns⟩ := ih hsim (hahead.tail hgrows)
    refine ⟨result :: results, store', ?_, fun os => ⟨?_, ?_⟩⟩
    · rw [allInMemory, hmemory]
      show (allInMemory store₁ ops >>= _) = _
      rw [hrest]
      rfl
    · rintro ⟨r', o, r₂, os₁, hrun, hrest, rfl⟩
      obtain ⟨rfl, rfl⟩ := (hredis o r₂).mp hrun
      rw [(hruns os₁).mp ⟨r', hrest⟩]
      rfl
    · rintro rfl
      obtain ⟨r', hrest⟩ := (hruns _).mpr rfl
      exact ⟨r', _, r₁, _, (hredis _ _).mpr ⟨rfl, rfl⟩, hrest, rfl⟩

/-- **Both stores return the same.** The dictionaries never miss a key, and what Redis can return is
what they do. -/
theorem same_results (ops : List Op) (hids : (ops.filterMap Op.jobId).Nodup)
    (htimes : (ops.filterMap Op.createdAt).Pairwise (· < ·)) :
    ∃ results store, allInMemory .new ops = .ok (results, store) ∧
      ∀ os, (∃ r, RedisRuns .empty ops os r) ↔ os = results.map .ok :=
  simulates_new.run ⟨hids, htimes, fun _ _ => rfl, fun _ _ _ h => by cases h⟩

theorem one_le_limit : 1 ≤ 1 := Nat.le_refl 1

/-- A job that is submitted twice, and another one. -/
def resubmission : List Op :=
  let preview := makePreview "preview_a" .high 50
  [.savePreview preview, .getPreview "preview_b", .enqueue preview "key_a" "job_a" 1,
    .enqueue preview "key_a" "job_b" 2, .enqueue preview "key_b" "job_c" 3,
    .listJobs (some .queued) ⟨1, one_le_limit⟩, .getJob "job_b"]

theorem same_results_resubmission :
    ∃ results store, allInMemory .new resubmission = .ok (results, store) ∧
      ∀ os, (∃ r, RedisRuns .empty resubmission os r) ↔ os = results.map .ok :=
  same_results resubmission (by decide) (by decide +kernel)

end PolyGate.Automation.StoreProtocol
