import Srt2Dvbsub.RenderPool.Pool

/-!
# The publish sequence, `render_pool_try_get` and `render_pool_render_sync`

The pool of `Pool.lean` with the worker's publish taken apart into the steps `worker_thread`
makes under the job's `done_mtx`: lock it, store the result, set `done`, signal `done_cond`,
unlock it. A worker is on its job from its dequeue to its unlock, in one of the phases of
`PublishPhase`. Beside the asynchronous callers, threads call `render_pool_render_sync`: each
enqueues a transient job that `all_jobs` does not list, waits for it on `done_cond` under
`done_mtx`, and then steals its bitmap and frees it. The critical sections of
`render_pool_submit_async`, the dequeue and `render_pool_try_get` are the steps of `Pool.lean`.

`render_pool_try_get` reads `done` under `job_mtx` alone and frees a done job at once, while the
worker sets `done` before it signals and unlocks:

* `renderPoolTryGet_freesJobOfHoldingWorker`: a run in which `render_pool_try_get` frees a job's
  container while the worker that published it still holds its `done_mtx` and has yet to signal
  and unlock it.
* `renderSync_finish_safe`: `render_pool_render_sync` frees its job only when no worker is on
  it: every waiter reads `done` under `done_mtx`, which the worker releases last.
-/

set_option autoImplicit false
set_option relaxedAutoImplicit false

namespace Srt2Dvbsub.RenderPool

variable {P B : Type*}

/-- Where a worker is in `worker_thread` from its dequeue to its unlock of `done_mtx`. -/
inductive PublishPhase where
  /-- `render_text_pango` runs, outside any lock. -/
  | rendering
  /-- It holds `done_mtx` and stores the result next. -/
  | locked
  /-- It sets `done` next. -/
  | stored
  /-- It signals `done_cond` next. -/
  | doneSet
  /-- It unlocks `done_mtx` next. -/
  | signalled
  deriving DecidableEq

/-- The phases in which the worker holds the job's `done_mtx`. -/
def PublishPhase.holdsDoneMtx : PublishPhase → Bool
  | .rendering => false
  | _ => true

/-- Where a thread is in `render_pool_render_sync`, with its transient job. -/
inductive SyncPc where
  /-- Not in the call. -/
  | idle
  /-- The job is enqueued; it locks `done_mtx` next. -/
  | enqueued (job : ℕ)
  /-- It holds `done_mtx` and reads `done`. -/
  | checking (job : ℕ)
  /-- In `pthread_cond_wait`, with `done_mtx` released. -/
  | waiting (job : ℕ)
  /-- It saw `done` and unlocked `done_mtx`; it steals the bitmap and frees the job next. -/
  | finishing (job : ℕ)
  deriving DecidableEq

/-- The pool with the place of each worker in its publish sequence and each thread in
`render_pool_render_sync`. A worker is on a job while `pool.workers` names it. -/
structure FinePool (P B : Type*) where
  pool : Pool P B
  phases : List PublishPhase
  callers : List SyncPc

def FinePool.init (workerCount submitterCount callerCount : ℕ) : FinePool P B :=
  ⟨Pool.init workerCount submitterCount, List.replicate workerCount .rendering,
    List.replicate callerCount .idle⟩

/-- Some worker is on the job in a phase that holds its `done_mtx`. -/
def workerHoldsDoneMtx (s : FinePool P B) (job : ℕ) : Bool :=
  (List.range s.pool.workers.length).any fun worker ↦
    s.pool.workers[worker]? == some (some job) &&
      s.phases[worker]?.map PublishPhase.holdsDoneMtx == some true

/-- No thread holds the job's `done_mtx`. -/
def doneMtxFree (s : FinePool P B) (job : ℕ) : Bool :=
  !workerHoldsDoneMtx s job && !s.callers.contains (.checking job)

/-- A step of some thread. -/
inductive FineAction (P : Type*) where
  | submitAsync (thread : ℕ) (trackId cueIndex : ℤ) (params : P)
  | enqueue (thread : ℕ)
  | dequeue (worker : ℕ)
  | lockDone (worker : ℕ)
  | storeResult (worker : ℕ)
  | setDone (worker : ℕ)
  | signalDone (worker : ℕ)
  | unlockDone (worker : ℕ)
  | tryGet (trackId cueIndex : ℤ)
  | renderSync (caller : ℕ) (params : P)
  | syncLock (caller : ℕ)
  | syncWait (caller : ℕ)
  | syncWake (caller : ℕ)
  | syncUnlock (caller : ℕ)
  | syncFinish (caller : ℕ)

/-- What a step does: a step of the coarse pool, a step of a publish sequence or of a
`render_pool_render_sync` call, or the return of `render_pool_render_sync` with its bitmap. -/
inductive FineEvent (P B : Type*) where
  | pool (event : PoolEvent P B)
  | publishing
  | syncing
  | rendered (bm : B)

/-- A step of the coarse pool, on the pool part of the state. -/
def liftPoolStep (s : FinePool P B) :
    Option (PoolEvent P B × Pool P B) → Option (FineEvent P B × FinePool P B) :=
  Option.map fun r ↦ (.pool r.1, { s with pool := r.2 })

/-- The dequeue of `worker_thread`: the worker takes the head of the queue and renders it. -/
def fineDequeue (s : FinePool P B) (worker : ℕ) : Option (FineEvent P B × FinePool P B) :=
  (liftPoolStep s (workerDequeue s.pool worker)).map fun r ↦
    (r.1, { r.2 with phases := r.2.phases.set worker .rendering })

/-- One step of the publish sequence of a worker on its job: from phase `src` to phase `dst`,
when `ready` lets it, with `effect` on the job's container. -/
def publishStep (s : FinePool P B) (worker : ℕ) (src dst : PublishPhase) (ready : ℕ → Bool)
    (effect : RenderJob P B → RenderJob P B) : Option (FineEvent P B × FinePool P B) :=
  match s.pool.workers[worker]?, s.phases[worker]? with
  | some (some job), some phase =>
    if phase = src ∧ ready job = true then
      match s.pool.heap[job]? with
      | some j =>
        some (.publishing,
          { s with
            pool := { s.pool with heap := s.pool.heap.set job (effect j) }
            phases := s.phases.set worker dst })
      | none => none
    else none
  | _, _ => none

/-- `pthread_mutex_lock (&job->done_mtx)`, once no thread holds it. -/
def lockDone (s : FinePool P B) (worker : ℕ) : Option (FineEvent P B × FinePool P B) :=
  publishStep s worker .rendering .locked (doneMtxFree s) id

/-- `job->result = bm`: the bitmap `render_text_pango` drew from the job's inputs. -/
def storeResult (render : P → B) (s : FinePool P B) (worker : ℕ) :
    Option (FineEvent P B × FinePool P B) :=
  publishStep s worker .locked .stored (fun _ ↦ true) fun j ↦ { j with result := render j.params }

/-- `atomic_store (&job->done, 1)`. -/
def setDone (s : FinePool P B) (worker : ℕ) : Option (FineEvent P B × FinePool P B) :=
  publishStep s worker .stored .doneSet (fun _ ↦ true) fun j ↦ { j with done := true }

/-- `pthread_cond_signal (&job->done_cond)`: a waiter may wake (`syncWake`). -/
def signalDone (s : FinePool P B) (worker : ℕ) : Option (FineEvent P B × FinePool P B) :=
  publishStep s worker .doneSet .signalled (fun _ ↦ true) id

/-- `pthread_mutex_unlock (&job->done_mtx)`: the worker leaves its job and loops. -/
def unlockDone (s : FinePool P B) (worker : ℕ) : Option (FineEvent P B × FinePool P B) :=
  match s.pool.workers[worker]?, s.phases[worker]? with
  | some (some _), some .signalled =>
    some (.publishing, { s with pool := { s.pool with workers := s.pool.workers.set worker none } })
  | _, _ => none

/-- A thread of `render_pool_render_sync` moves from one place of the call to another. -/
def setCaller (s : FinePool P B) (caller : ℕ) (pc : SyncPc) : FinePool P B :=
  { s with callers := s.callers.set caller pc }

/-- The start of `render_pool_render_sync`: the transient job, zeroed by `calloc` (its key is
`(0, 0)`), goes to the tail of the queue under `job_mtx`; `all_jobs` does not list it. -/
def renderSync (empty : B) (s : FinePool P B) (caller : ℕ) (params : P) :
    Option (FineEvent P B × FinePool P B) :=
  match s.callers[caller]? with
  | some .idle =>
    some (.syncing,
      { s with
        pool := { s.pool with
          heap := s.pool.heap ++ [⟨0, 0, params, empty, false, false⟩]
          queue := s.pool.queue ++ [s.pool.heap.length] }
        callers := s.callers.set caller (.enqueued s.pool.heap.length) })
  | _ => none

/-- `pthread_mutex_lock (&job->done_mtx)` before the wait loop, once no thread holds it. -/
def syncLock (s : FinePool P B) (caller : ℕ) : Option (FineEvent P B × FinePool P B) :=
  match s.callers[caller]? with
  | some (.enqueued job) =>
    if doneMtxFree s job then some (.syncing, setCaller s caller (.checking job)) else none
  | _ => none

/-- The loop reads `done` as 0 and waits on `done_cond`, which releases `done_mtx`. -/
def syncWait (s : FinePool P B) (caller : ℕ) : Option (FineEvent P B × FinePool P B) :=
  match s.callers[caller]? with
  | some (.checking job) =>
    match s.pool.heap[job]? with
    | some j => if j.done then none else some (.syncing, setCaller s caller (.waiting job))
    | none => none
  | _ => none

/-- `pthread_cond_wait` returns, on a signal or spuriously, once it has taken `done_mtx` back. -/
def syncWake (s : FinePool P B) (caller : ℕ) : Option (FineEvent P B × FinePool P B) :=
  match s.callers[caller]? with
  | some (.waiting job) =>
    if doneMtxFree s job then some (.syncing, setCaller s caller (.checking job)) else none
  | _ => none

/-- The loop reads `done` as 1 and the call unlocks `done_mtx`. -/
def syncUnlock (s : FinePool P B) (caller : ℕ) : Option (FineEvent P B × FinePool P B) :=
  match s.callers[caller]? with
  | some (.checking job) =>
    match s.pool.heap[job]? with
    | some j => if j.done then some (.syncing, setCaller s caller (.finishing job)) else none
    | none => none
  | _ => none

/-- `steal_job_result` and `cleanup_job_container (job, 1)`: the call returns the bitmap and
frees the job. -/
def syncFinish (s : FinePool P B) (caller : ℕ) : Option (FineEvent P B × FinePool P B) :=
  match s.callers[caller]? with
  | some (.finishing job) =>
    match s.pool.heap[job]? with
    | some j =>
      some (.rendered j.result,
        { s with
          pool := { s.pool with heap := s.pool.heap.set job { j with cleanedUp := true } }
          callers := s.callers.set caller .idle })
    | none => none
  | _ => none

/-- One step of some thread. -/
def fineStep (render : P → B) (empty : B) :
    FinePool P B → FineAction P → Option (FineEvent P B × FinePool P B)
  | s, .submitAsync thread trackId cueIndex params =>
    liftPoolStep s (submitAsyncDepthCheck s.pool thread (trackId, cueIndex) params)
  | s, .enqueue thread => liftPoolStep s (submitAsyncEnqueue empty s.pool thread)
  | s, .dequeue worker => fineDequeue s worker
  | s, .lockDone worker => lockDone s worker
  | s, .storeResult worker => storeResult render s worker
  | s, .setDone worker => setDone s worker
  | s, .signalDone worker => signalDone s worker
  | s, .unlockDone worker => unlockDone s worker
  | s, .tryGet trackId cueIndex => liftPoolStep s (renderPoolTryGet s.pool trackId cueIndex)
  | s, .renderSync caller params => renderSync empty s caller params
  | s, .syncLock caller => syncLock s caller
  | s, .syncWait caller => syncWait s caller
  | s, .syncWake caller => syncWake s caller
  | s, .syncUnlock caller => syncUnlock s caller
  | s, .syncFinish caller => syncFinish s caller

/-! ### `render_pool_try_get` frees a job under its worker -/

/-- A worker is still on a job whose container has been freed: it holds, or has yet to take and
release, a `done_mtx` that `cleanup_job_container` destroyed. -/
def WorkerOnFreedJob (s : FinePool P B) (worker : ℕ) : Prop :=
  ∃ job, s.pool.workers[worker]? = some (some job) ∧
    (s.pool.heap[job]?.map RenderJob.cleanedUp) = some true

/-- An asynchronous job is published by worker 0 up to its `atomic_store` of `done`; then
`render_pool_try_get` sees `done`, hands the bitmap over and frees the container, while the
worker still holds `done_mtx` and has yet to signal `done_cond` and unlock. Its two remaining
steps then run on the freed container. -/
theorem renderPoolTryGet_freesJobOfHoldingWorker :
    let before : List (FineAction ℕ) :=
      [.submitAsync 0 1 0 7, .enqueue 0, .dequeue 0, .lockDone 0, .storeResult 0, .setDone 0,
        .tryGet 1 0]
    ∃ tr s, Lib.execRun (fineStep (· + 100) 0) (FinePool.init 1 1 0) before = some (tr, s) ∧
      tr.getLast? = some (.tryGet 1 0, .pool (.answered (.got 107))) ∧
      s.phases[0]? = some .doneSet ∧ WorkerOnFreedJob s 0 ∧
      ∃ tr' s', Lib.execRun (fineStep (· + 100) 0) s [.signalDone 0, .unlockDone 0] =
        some (tr', s') := by
  intro before
  exact ⟨_, _, rfl, rfl, rfl, ⟨0, rfl, rfl⟩, _, _, rfl⟩

/-! ### `render_pool_render_sync` frees its job only when no worker is on it -/

/-- The phases after the worker's `atomic_store` of `done`. -/
def PublishPhase.afterSetDone : PublishPhase → Bool
  | .doneSet | .signalled => true
  | _ => false

/-- The worker is on the job, in the phase. -/
def WorkerOn (s : FinePool P B) (worker job : ℕ) (phase : PublishPhase) : Prop :=
  s.pool.workers[worker]? = some (some job) ∧ s.phases[worker]? = some phase

/-- The invariant of the fine pool: each worker has a phase; the queue holds each job once, none
done and none a worker is on; at most one worker is on a job, and the job is done only once its
worker has set `done`; a thread reading `done` holds `done_mtx`, so no worker holds it then; and a
thread of `render_pool_render_sync` about to free its job saw it done, out of the queue and with no
worker on it. -/
structure SyncInv (s : FinePool P B) : Prop where
  phases_length : s.phases.length = s.pool.workers.length
  queue_nodup : s.pool.queue.Nodup
  queue_lt : ∀ job ∈ s.pool.queue, job < s.pool.heap.length
  queued_not_done : ∀ job (hjob : job < s.pool.heap.length), job ∈ s.pool.queue →
    s.pool.heap[job].done = false
  queued_unheld : ∀ job ∈ s.pool.queue, ∀ worker : ℕ, s.pool.workers[worker]? ≠ some (some job)
  worker_lt : ∀ worker job : ℕ, s.pool.workers[worker]? = some (some job) →
    job < s.pool.heap.length
  worker_unique : ∀ worker worker' job : ℕ, s.pool.workers[worker]? = some (some job) →
    s.pool.workers[worker']? = some (some job) → worker = worker'
  done_after_setDone : ∀ (worker job : ℕ) (phase : PublishPhase) (hjob : job < s.pool.heap.length),
    WorkerOn s worker job phase → phase.afterSetDone = false → s.pool.heap[job].done = false
  checking_excl : ∀ caller job : ℕ, s.callers[caller]? = some (.checking job) →
    ∀ (worker : ℕ) (phase : PublishPhase), WorkerOn s worker job phase → phase.holdsDoneMtx = false
  finishing_safe : ∀ caller job : ℕ, s.callers[caller]? = some (.finishing job) →
    ∃ hjob : job < s.pool.heap.length, s.pool.heap[job].done = true ∧ job ∉ s.pool.queue ∧
      ∀ worker : ℕ, s.pool.workers[worker]? ≠ some (some job)

section SyncInv

variable {s s' : FinePool P B}

theorem workerHoldsDoneMtx_iff {job : ℕ} :
    workerHoldsDoneMtx s job = true ↔
      ∃ (worker : ℕ) (phase : PublishPhase), WorkerOn s worker job phase ∧
        phase.holdsDoneMtx = true := by
  simp only [workerHoldsDoneMtx, List.any_eq_true, List.mem_range, Bool.and_eq_true,
    beq_iff_eq, WorkerOn]
  constructor
  · rintro ⟨worker, -, hworker, hphase⟩
    obtain ⟨phase, hphase', hholds⟩ := Option.map_eq_some_iff.mp hphase
    exact ⟨worker, phase, ⟨hworker, hphase'⟩, hholds⟩
  · rintro ⟨worker, phase, ⟨hworker, hphase⟩, hholds⟩
    have hlt : worker < s.pool.workers.length := (List.getElem?_eq_some_iff.mp hworker).1
    exact ⟨worker, hlt, hworker, by simp [hphase, hholds]⟩

/-- A free `done_mtx` is held by no worker and read by no thread of `render_pool_render_sync`. -/
theorem doneMtxFree_iff {job : ℕ} :
    doneMtxFree s job = true ↔
      (∀ (worker : ℕ) (phase : PublishPhase), WorkerOn s worker job phase →
        phase.holdsDoneMtx = false) ∧
        ∀ caller : ℕ, s.callers[caller]? ≠ some (SyncPc.checking job) := by
  simp only [doneMtxFree, Bool.and_eq_true, Bool.not_eq_true', Bool.eq_false_iff, ne_eq,
    workerHoldsDoneMtx_iff, List.contains_iff_mem, List.mem_iff_getElem?, not_exists, not_and]

theorem syncInv_init (workerCount submitterCount callerCount : ℕ) :
    SyncInv (FinePool.init workerCount submitterCount callerCount : FinePool P B) where
  phases_length := by simp [FinePool.init, Pool.init]
  queue_nodup := List.nodup_nil
  queue_lt := by simp [FinePool.init, Pool.init]
  queued_not_done := by simp [FinePool.init, Pool.init]
  queued_unheld := by simp [FinePool.init, Pool.init]
  worker_lt := by simp [FinePool.init, Pool.init, List.getElem?_replicate]
  worker_unique := by simp [FinePool.init, Pool.init, List.getElem?_replicate]
  done_after_setDone := by simp [FinePool.init, Pool.init]
  checking_excl := by simp [FinePool.init, List.getElem?_replicate]
  finishing_safe := by simp [FinePool.init, List.getElem?_replicate]

end SyncInv

/-! ### What each step of the fine pool can do -/

section Steps

variable {s s' : FinePool P B} {o : FineEvent P B}

theorem liftPoolStep_eq_some {r : Option (PoolEvent P B × Pool P B)}
    (h : liftPoolStep s r = some (o, s')) :
    ∃ e pool, r = some (e, pool) ∧ s' = { s with pool := pool } := by
  obtain ⟨⟨e, pool⟩, hr, heq⟩ := Option.map_eq_some_iff.mp h
  obtain ⟨-, rfl⟩ := Prod.mk.inj heq
  exact ⟨e, pool, hr, rfl⟩

theorem fineDequeue_eq_some {worker : ℕ} (h : fineDequeue s worker = some (o, s')) :
    ∃ job rest, s.pool.workers[worker]? = some none ∧ s.pool.queue = job :: rest ∧
      s' = ⟨{ s.pool with queue := rest, workers := s.pool.workers.set worker (some job) },
        s.phases.set worker .rendering, s.callers⟩ := by
  obtain ⟨⟨o', s''⟩, hlift, heq⟩ := Option.map_eq_some_iff.mp h
  obtain ⟨-, rfl⟩ := Prod.mk.inj heq
  obtain ⟨e, pool, hstep, rfl⟩ := liftPoolStep_eq_some hlift
  obtain ⟨job, rest, hworker, hqueue, -, rfl⟩ := workerDequeue_eq_some hstep
  exact ⟨job, rest, hworker, hqueue, rfl⟩

theorem publishStep_eq_some {worker : ℕ} {src dst : PublishPhase} {ready : ℕ → Bool}
    {effect : RenderJob P B → RenderJob P B}
    (h : publishStep s worker src dst ready effect = some (o, s')) :
    ∃ job, ∃ hjob : job < s.pool.heap.length, WorkerOn s worker job src ∧ ready job = true ∧
      s' = { s with
        pool := { s.pool with heap := s.pool.heap.set job (effect s.pool.heap[job]) }
        phases := s.phases.set worker dst } := by
  unfold publishStep at h
  split at h
  · next job phase hworker hphase =>
    split_ifs at h with hready
    split at h
    · next j hj =>
      obtain ⟨hjob, rfl⟩ := List.getElem?_eq_some_iff.mp hj
      obtain ⟨rfl, rfl⟩ := Prod.mk.inj (Option.some.inj h)
      obtain ⟨rfl, hready⟩ := hready
      exact ⟨job, hjob, ⟨hworker, hphase⟩, hready, rfl⟩
    · cases h
  · cases h

theorem unlockDone_eq_some {worker : ℕ} (h : unlockDone s worker = some (o, s')) :
    ∃ job, WorkerOn s worker job .signalled ∧
      s' = { s with pool := { s.pool with workers := s.pool.workers.set worker none } } := by
  unfold unlockDone at h
  split at h
  · next job hworker hphase =>
    obtain ⟨rfl, rfl⟩ := Prod.mk.inj (Option.some.inj h)
    exact ⟨job, ⟨hworker, hphase⟩, rfl⟩
  · cases h

theorem renderSync_eq_some {empty : B} {caller : ℕ} {params : P}
    (h : renderSync empty s caller params = some (o, s')) :
    s.callers[caller]? = some .idle ∧
      s' = { s with
        pool := { s.pool with
          heap := s.pool.heap ++ [⟨0, 0, params, empty, false, false⟩]
          queue := s.pool.queue ++ [s.pool.heap.length] }
        callers := s.callers.set caller (.enqueued s.pool.heap.length) } := by
  unfold renderSync at h
  split at h
  · next hcaller =>
    obtain ⟨rfl, rfl⟩ := Prod.mk.inj (Option.some.inj h)
    exact ⟨hcaller, rfl⟩
  · cases h

/-- `syncLock` and `syncWake` take `done_mtx` once it is free. -/
theorem syncLock_eq_some {caller : ℕ} (h : syncLock s caller = some (o, s')) :
    ∃ job, s.callers[caller]? = some (.enqueued job) ∧ doneMtxFree s job = true ∧
      s' = setCaller s caller (.checking job) := by
  unfold syncLock at h
  split at h
  · next job hcaller =>
    split_ifs at h with hfree
    obtain ⟨rfl, rfl⟩ := Prod.mk.inj (Option.some.inj h)
    exact ⟨job, hcaller, hfree, rfl⟩
  · cases h

theorem syncWake_eq_some {caller : ℕ} (h : syncWake s caller = some (o, s')) :
    ∃ job, s.callers[caller]? = some (.waiting job) ∧ doneMtxFree s job = true ∧
      s' = setCaller s caller (.checking job) := by
  unfold syncWake at h
  split at h
  · next job hcaller =>
    split_ifs at h with hfree
    obtain ⟨rfl, rfl⟩ := Prod.mk.inj (Option.some.inj h)
    exact ⟨job, hcaller, hfree, rfl⟩
  · cases h

/-- `syncWait` and `syncUnlock` read `done` while they hold `done_mtx`. -/
theorem syncWait_eq_some {caller : ℕ} (h : syncWait s caller = some (o, s')) :
    ∃ job, s.callers[caller]? = some (.checking job) ∧
      s' = setCaller s caller (.waiting job) := by
  unfold syncWait at h
  split at h
  · next job hcaller =>
    split at h
    · split_ifs at h
      obtain ⟨rfl, rfl⟩ := Prod.mk.inj (Option.some.inj h)
      exact ⟨job, hcaller, rfl⟩
    · cases h
  · cases h

theorem syncUnlock_eq_some {caller : ℕ} (h : syncUnlock s caller = some (o, s')) :
    ∃ job, ∃ hjob : job < s.pool.heap.length, s.callers[caller]? = some (.checking job) ∧
      s.pool.heap[job].done = true ∧ s' = setCaller s caller (.finishing job) := by
  unfold syncUnlock at h
  split at h
  · next job hcaller =>
    split at h
    · next j hj =>
      obtain ⟨hjob, rfl⟩ := List.getElem?_eq_some_iff.mp hj
      split_ifs at h with hdone
      obtain ⟨rfl, rfl⟩ := Prod.mk.inj (Option.some.inj h)
      exact ⟨job, hjob, hcaller, hdone, rfl⟩
    · cases h
  · cases h

theorem syncFinish_eq_some {caller : ℕ} (h : syncFinish s caller = some (o, s')) :
    ∃ job, ∃ hjob : job < s.pool.heap.length, s.callers[caller]? = some (.finishing job) ∧
      s' = { s with
        pool := { s.pool with
          heap := s.pool.heap.set job { s.pool.heap[job] with cleanedUp := true } }
        callers := s.callers.set caller .idle } := by
  unfold syncFinish at h
  split at h
  · next job hcaller =>
    split at h
    · next j hj =>
      obtain ⟨hjob, rfl⟩ := List.getElem?_eq_some_iff.mp hj
      obtain ⟨rfl, rfl⟩ := Prod.mk.inj (Option.some.inj h)
      exact ⟨job, hjob, hcaller, rfl⟩
    · cases h
  · cases h

end Steps

/-! ### Every step keeps the invariant -/

theorem PublishPhase.holdsDoneMtx_of_afterSetDone {phase : PublishPhase}
    (h : phase.afterSetDone = true) : phase.holdsDoneMtx = true := by
  cases phase <;> simp_all [PublishPhase.afterSetDone, PublishPhase.holdsDoneMtx]

section Preservation

variable {s : FinePool P B}

/-- A done job whose `done_mtx` a thread of `render_pool_render_sync` holds has no worker on it
and is out of the queue. A worker still on the job has set `done`, so it holds `done_mtx`, which
the caller holds. -/
theorem SyncInv.unheld_of_checking (hinv : SyncInv s) {caller job : ℕ}
    (hcaller : s.callers[caller]? = some (.checking job)) (hjob : job < s.pool.heap.length)
    (hdone : s.pool.heap[job].done = true) :
    job ∉ s.pool.queue ∧ ∀ worker : ℕ, s.pool.workers[worker]? ≠ some (some job) := by
  refine ⟨fun hq ↦ by simp [hinv.queued_not_done job hjob hq] at hdone, fun worker hworker ↦ ?_⟩
  have hw : worker < s.phases.length := by
    rw [hinv.phases_length]
    exact (List.getElem?_eq_some_iff.mp hworker).1
  have hon : WorkerOn s worker job s.phases[worker] := ⟨hworker, List.getElem?_eq_getElem hw⟩
  have hafter : s.phases[worker].afterSetDone = true := by
    by_contra hnot
    simp [hinv.done_after_setDone worker job _ hjob hon (by simpa using hnot)] at hdone
  have hfree := hinv.checking_excl caller job hcaller worker _ hon
  simp [PublishPhase.holdsDoneMtx_of_afterSetDone hafter] at hfree

/-- A new job at the tail of the queue, by `render_pool_submit_async` or
`render_pool_render_sync`. -/
theorem SyncInv.appendJob (hinv : SyncInv s) {j : RenderJob P B} (hj : j.done = false)
    {allJobs : List ℕ} {submitters : List (Option ((ℤ × ℤ) × P))} {callers : List SyncPc}
    (hcallers : ∀ (caller : ℕ) (pc : SyncPc), callers[caller]? = some pc →
      s.callers[caller]? = some pc ∨ pc = .enqueued s.pool.heap.length) :
    SyncInv ⟨⟨s.pool.heap ++ [j], s.pool.queue ++ [s.pool.heap.length], allJobs, s.pool.workers,
      submitters⟩, s.phases, callers⟩ where
  phases_length := hinv.phases_length
  queue_nodup := Lib.nodup_append_fresh hinv.queue_nodup hinv.queue_lt
  queue_lt := by
    rw [List.length_append, List.length_singleton]
    exact Lib.lt_succ_of_mem_append_fresh hinv.queue_lt
  queued_not_done := by
    refine Lib.forall_getElem_append_singleton (P := fun job (j : RenderJob P B) ↦
      job ∈ s.pool.queue ++ [s.pool.heap.length] → j.done = false) (fun job hlt hq ↦ ?_) fun _ ↦ hj
    exact hinv.queued_not_done job hlt (by simpa [Nat.ne_of_lt hlt] using hq)
  queued_unheld := by
    intro job hq worker hworker
    rw [List.mem_append, List.mem_singleton] at hq
    rcases hq with hq | rfl
    · exact hinv.queued_unheld job hq worker hworker
    · exact Nat.lt_irrefl _ (hinv.worker_lt worker _ hworker)
  worker_lt := fun worker job hworker ↦ by
    rw [List.length_append, List.length_singleton]
    exact Nat.lt_succ_of_lt (hinv.worker_lt worker job hworker)
  worker_unique := hinv.worker_unique
  done_after_setDone := by
    intro worker job phase hjob hon hphase
    have hlt := hinv.worker_lt worker job hon.1
    rw [List.getElem_append_left hlt]
    exact hinv.done_after_setDone worker job phase hlt hon hphase
  checking_excl := by
    intro caller job hcaller
    rcases hcallers caller _ hcaller with hold | hnew
    · exact hinv.checking_excl caller job hold
    · cases hnew
  finishing_safe := by
    intro caller job hcaller
    rcases hcallers caller _ hcaller with hold | hnew
    · obtain ⟨hjob, hdone, hq, hunheld⟩ := hinv.finishing_safe caller job hold
      refine ⟨by simp; omega, by rwa [List.getElem_append_left hjob], ?_, hunheld⟩
      simp [hq, Nat.ne_of_lt hjob]
    · cases hnew

/-- A worker on a job after a step that changes one worker only: that worker, or another one
that was already there. -/
theorem workerOn_of_frame {s' : FinePool P B} {worker worker' job : ℕ} {phase : PublishPhase}
    (hon : WorkerOn s' worker' job phase)
    (hworkers : ∀ w, w ≠ worker → s'.pool.workers[w]? = s.pool.workers[w]?)
    (hphases : ∀ w, w ≠ worker → s'.phases[w]? = s.phases[w]?) :
    worker' = worker ∨ (worker' ≠ worker ∧ WorkerOn s worker' job phase) := by
  by_cases h : worker' = worker
  · exact .inl h
  · exact .inr ⟨h, (hworkers worker' h) ▸ hon.1, (hphases worker' h) ▸ hon.2⟩

/-- The dequeue: the worker takes the head of the queue and renders it. -/
theorem SyncInv.dequeue (hinv : SyncInv s) {worker job : ℕ} {rest : List ℕ}
    (hworker : s.pool.workers[worker]? = some none) (hqueue : s.pool.queue = job :: rest) :
    SyncInv ⟨{ s.pool with queue := rest, workers := s.pool.workers.set worker (some job) },
      s.phases.set worker .rendering, s.callers⟩ := by
  have hw : worker < s.pool.workers.length := (List.getElem?_eq_some_iff.mp hworker).1
  have hjob : job < s.pool.heap.length := hinv.queue_lt job (hqueue ▸ List.mem_cons_self)
  have hnotin : job ∉ rest := (List.nodup_cons.mp (hqueue ▸ hinv.queue_nodup)).1
  have hunheld : ∀ worker' : ℕ, s.pool.workers[worker']? ≠ some (some job) :=
    hinv.queued_unheld job (hqueue ▸ List.mem_cons_self)
  have hrest : ∀ job' ∈ rest, job' ∈ s.pool.queue := fun job' h ↦ hqueue ▸ List.mem_cons_of_mem _ h
  have hon' : ∀ worker' job' phase,
      WorkerOn ⟨{ s.pool with queue := rest, workers := s.pool.workers.set worker (some job) },
        s.phases.set worker .rendering, s.callers⟩ worker' job' phase →
        (job' = job ∧ phase = .rendering) ∨ (worker' ≠ worker ∧ WorkerOn s worker' job' phase) := by
    intro worker' job' phase hon
    rcases workerOn_of_frame (s := s) hon (fun w hne ↦ List.getElem?_set_ne (Ne.symm hne))
      (fun w hne ↦ List.getElem?_set_ne (Ne.symm hne)) with rfl | hold
    · have hphases : worker' < s.phases.length := hinv.phases_length ▸ hw
      have hj := hon.1
      have hp := hon.2
      simp only [List.getElem?_set_self hw, Option.some.injEq] at hj
      simp only [List.getElem?_set_self hphases, Option.some.injEq] at hp
      exact .inl ⟨hj.symm, hp.symm⟩
    · exact .inr hold
  refine ⟨by simp [hinv.phases_length], (hqueue ▸ hinv.queue_nodup).of_cons,
    fun job' h ↦ hinv.queue_lt job' (hrest job' h),
    fun job' hjob' h ↦ hinv.queued_not_done job' hjob' (hrest job' h), ?_, ?_, ?_, ?_, ?_, ?_⟩
  · intro job' hq worker' hw'
    rcases Lib.getElem?_set_eq_some_or hw' with hw' | hj
    · exact hinv.queued_unheld job' (hrest job' hq) worker' hw'
    · exact hnotin ((Option.some.inj hj) ▸ hq)
  · intro worker' job' hw'
    rcases Lib.getElem?_set_eq_some_or hw' with hw' | hj
    · exact hinv.worker_lt worker' job' hw'
    · exact (Option.some.inj hj) ▸ hjob
  · intro w₁ w₂ job' h₁ h₂
    rcases Lib.getElem?_set_eq_some h₁ with ⟨rfl, hj₁⟩ | ⟨hne₁, h₁⟩ <;>
      rcases Lib.getElem?_set_eq_some h₂ with ⟨rfl, hj₂⟩ | ⟨hne₂, h₂⟩
    · rfl
    · exact absurd ((Option.some.inj hj₁) ▸ h₂) (hunheld w₂)
    · exact absurd ((Option.some.inj hj₂) ▸ h₁) (hunheld w₁)
    · exact hinv.worker_unique w₁ w₂ job' h₁ h₂
  · intro worker' job' phase hjob' hon hphase
    rcases hon' worker' job' phase hon with ⟨rfl, -⟩ | ⟨-, hon⟩
    · exact hinv.queued_not_done job' hjob' (hqueue ▸ List.mem_cons_self)
    · exact hinv.done_after_setDone worker' job' phase hjob' hon hphase
  · intro caller job' hcaller worker' phase hon
    rcases hon' worker' job' phase hon with ⟨-, rfl⟩ | ⟨-, hon⟩
    · rfl
    · exact hinv.checking_excl caller job' hcaller worker' phase hon
  · intro caller job' hcaller
    obtain ⟨hjob', hdone, hq, hfree⟩ := hinv.finishing_safe caller job' hcaller
    refine ⟨hjob', hdone, fun h ↦ hq (hrest job' h), fun worker' hw' ↦ ?_⟩
    rcases Lib.getElem?_set_eq_some_or hw' with hw' | hj
    · exact hfree worker' hw'
    · exact hq ((Option.some.inj hj) ▸ hqueue ▸ List.mem_cons_self)

/-- A step of the publish sequence keeps the invariant when it moves forward through the
phases, changes `done` only on reaching the phases after `atomic_store`, and takes `done_mtx`
only once it is free. -/
theorem SyncInv.publishStep (hinv : SyncInv s) {worker job : ℕ} {src dst : PublishPhase}
    {effect : RenderJob P B → RenderJob P B} (hjob : job < s.pool.heap.length)
    (hon : WorkerOn s worker job src)
    (hafter : src.afterSetDone = true → dst.afterSetDone = true)
    (hdone : dst.afterSetDone = false → (effect s.pool.heap[job]).done = s.pool.heap[job].done)
    (hlock : dst.holdsDoneMtx = true → src.holdsDoneMtx = false → doneMtxFree s job = true) :
    SyncInv { s with
      pool := { s.pool with heap := s.pool.heap.set job (effect s.pool.heap[job]) }
      phases := s.phases.set worker dst } := by
  have hw : worker < s.phases.length := (List.getElem?_eq_some_iff.mp hon.2).1
  have hqueued : job ∉ s.pool.queue := fun hq ↦ hinv.queued_unheld job hq worker hon.1
  have hon' : ∀ worker' job' phase,
      WorkerOn { s with
        pool := { s.pool with heap := s.pool.heap.set job (effect s.pool.heap[job]) }
        phases := s.phases.set worker dst } worker' job' phase →
        (job' = job ∧ phase = dst) ∨ (job' ≠ job ∧ WorkerOn s worker' job' phase) := by
    intro worker' job' phase hon'
    rcases workerOn_of_frame (s := s) hon' (fun _ _ ↦ rfl)
      (fun w hne ↦ List.getElem?_set_ne (Ne.symm hne)) with rfl | ⟨hne, hold⟩
    · have hj : some (some job') = some (some job) := hon'.1.symm.trans hon.1
      have hp := hon'.2
      simp only [List.getElem?_set_self hw, Option.some.injEq] at hp
      exact .inl ⟨Option.some.inj (Option.some.inj hj), hp.symm⟩
    · exact .inr ⟨fun heq ↦ hne (hinv.worker_unique worker' worker job' hold.1 (heq ▸ hon.1)),
        hold⟩
  refine ⟨by simp [hinv.phases_length], hinv.queue_nodup, fun job' h ↦ by
    simpa using hinv.queue_lt job' h, ?_, hinv.queued_unheld, fun worker' job' h ↦ by
    simpa using hinv.worker_lt worker' job' h, hinv.worker_unique, ?_, ?_, ?_⟩
  · intro job' hjob' hq
    have hne : job ≠ job' := fun heq ↦ hqueued (heq ▸ hq)
    simp only [List.getElem_set_ne hne]
    exact hinv.queued_not_done job' (by simpa using hjob') hq
  · intro worker' job' phase hjob' hon'' hphase
    rcases hon' worker' job' phase hon'' with ⟨rfl, rfl⟩ | ⟨hne, hold⟩
    · have hsrc : src.afterSetDone = false := by
        cases h : src.afterSetDone
        · rfl
        · simp [hafter h] at hphase
      simp only [List.getElem_set_self]
      rw [hdone hphase]
      exact hinv.done_after_setDone worker job' src hjob hon hsrc
    · simp only [List.getElem_set_ne (Ne.symm hne)]
      exact hinv.done_after_setDone worker' job' phase (by simpa using hjob') hold hphase
  · intro caller job' hcaller worker' phase hon''
    rcases hon' worker' job' phase hon'' with ⟨rfl, rfl⟩ | ⟨-, hold⟩
    · cases hdst : phase.holdsDoneMtx
      · rfl
      · cases hsrc : src.holdsDoneMtx
        · have hfree := (doneMtxFree_iff.mp (hlock hdst hsrc)).2 caller
          exact absurd hcaller hfree
        · simp [hinv.checking_excl caller job' hcaller worker src hon] at hsrc
    · exact hinv.checking_excl caller job' hcaller worker' phase hold
  · intro caller job' hcaller
    obtain ⟨hjob', hdone', hq, hfree⟩ := hinv.finishing_safe caller job' hcaller
    have hne : job ≠ job' := fun heq ↦ hfree worker (heq ▸ hon.1)
    refine ⟨by simpa using hjob', ?_, hq, hfree⟩
    simp only [List.getElem_set_ne hne]
    exact hdone'

/-- The unlock: the worker leaves its job. A worker that leaves a job only removes a holder,
so the invariant does not need the worker's phase. -/
theorem SyncInv.unlockDone (hinv : SyncInv s) (worker : ℕ) :
    SyncInv { s with pool := { s.pool with workers := s.pool.workers.set worker none } } := by
  have hold : ∀ worker' job' : ℕ, (s.pool.workers.set worker none)[worker']? = some (some job') →
      s.pool.workers[worker']? = some (some job') := by
    intro worker' job' h
    rcases Lib.getElem?_set_eq_some_or h with h | hnone
    · exact h
    · cases hnone
  refine ⟨by simp [hinv.phases_length], hinv.queue_nodup, hinv.queue_lt, hinv.queued_not_done,
    fun job' hq worker' h ↦ hinv.queued_unheld job' hq worker' (hold worker' job' h),
    fun worker' job' h ↦ hinv.worker_lt worker' job' (hold worker' job' h),
    fun w₁ w₂ job' h₁ h₂ ↦ hinv.worker_unique w₁ w₂ job' (hold w₁ job' h₁) (hold w₂ job' h₂),
    fun worker' job' phase hjob' hon' ↦
      hinv.done_after_setDone worker' job' phase hjob' ⟨hold worker' job' hon'.1, hon'.2⟩,
    fun caller job' hcaller worker' phase hon' ↦
      hinv.checking_excl caller job' hcaller worker' phase ⟨hold worker' job' hon'.1, hon'.2⟩, ?_⟩
  intro caller job' hcaller
  obtain ⟨hjob', hdone, hq, hfree⟩ := hinv.finishing_safe caller job' hcaller
  exact ⟨hjob', hdone, hq, fun worker' h ↦ hfree worker' (hold worker' job' h)⟩

/-- Marking a container freed leaves every `done` flag. -/
theorem done_set_cleanedUp {heap : List (RenderJob P B)} {job : ℕ} (hjob : job < heap.length)
    {job' : ℕ} (hjob' : job' < heap.length)
    {hjob'' : job' < (heap.set job { heap[job] with cleanedUp := true }).length} :
    (heap.set job { heap[job] with cleanedUp := true })[job'].done = heap[job'].done := by
  rw [List.getElem_set]
  split_ifs with h
  · subst h
    rfl
  · rfl

/-- A container freed, by `render_pool_try_get` or at the end of `render_pool_render_sync`. -/
theorem SyncInv.cleanUp (hinv : SyncInv s) {job : ℕ} (hjob : job < s.pool.heap.length)
    {allJobs : List ℕ} {callers : List SyncPc}
    (hcallers : ∀ (caller : ℕ) (pc : SyncPc), callers[caller]? = some pc →
      s.callers[caller]? = some pc ∨ pc = .idle) :
    SyncInv ⟨{ s.pool with
        heap := s.pool.heap.set job { s.pool.heap[job] with cleanedUp := true }
        allJobs := allJobs }, s.phases, callers⟩ where
  phases_length := hinv.phases_length
  queue_nodup := hinv.queue_nodup
  queue_lt := fun job' h ↦ by simpa using hinv.queue_lt job' h
  queued_not_done := fun job' hjob' hq ↦ by
    rw [done_set_cleanedUp hjob (by simpa using hjob')]
    exact hinv.queued_not_done job' (by simpa using hjob') hq
  queued_unheld := hinv.queued_unheld
  worker_lt := fun worker' job' h ↦ by simpa using hinv.worker_lt worker' job' h
  worker_unique := hinv.worker_unique
  done_after_setDone := fun worker' job' phase hjob' hon hphase ↦ by
    rw [done_set_cleanedUp hjob (by simpa using hjob')]
    exact hinv.done_after_setDone worker' job' phase (by simpa using hjob') hon hphase
  checking_excl := by
    intro caller job' hcaller
    rcases hcallers caller _ hcaller with hold | hidle
    · exact hinv.checking_excl caller job' hold
    · cases hidle
  finishing_safe := by
    intro caller job' hcaller
    rcases hcallers caller _ hcaller with hold | hidle
    · obtain ⟨hjob', hdone, hq, hfree⟩ := hinv.finishing_safe caller job' hold
      exact ⟨by simpa using hjob', by rwa [done_set_cleanedUp hjob hjob'], hq, hfree⟩
    · cases hidle

/-- A thread of `render_pool_render_sync` moves to `pc`: it may read `done` there only under a
free `done_mtx`, and may be about to free its job only once that job is safe to free. -/
theorem SyncInv.setCaller (hinv : SyncInv s) {caller : ℕ} {pc : SyncPc}
    (hchecking : ∀ job, pc = .checking job →
      ∀ (worker : ℕ) (phase : PublishPhase), WorkerOn s worker job phase →
        phase.holdsDoneMtx = false)
    (hfinishing : ∀ job, pc = .finishing job →
      ∃ hjob : job < s.pool.heap.length, s.pool.heap[job].done = true ∧ job ∉ s.pool.queue ∧
        ∀ worker : ℕ, s.pool.workers[worker]? ≠ some (some job)) :
    SyncInv (setCaller s caller pc) := by
  refine ⟨hinv.phases_length, hinv.queue_nodup, hinv.queue_lt, hinv.queued_not_done,
    hinv.queued_unheld, hinv.worker_lt, hinv.worker_unique, hinv.done_after_setDone, ?_, ?_⟩
  · intro caller' job hcaller'
    rcases Lib.getElem?_set_eq_some_or hcaller' with hold | hnew
    · exact hinv.checking_excl caller' job hold
    · exact hchecking job hnew.symm
  · intro caller' job hcaller'
    rcases Lib.getElem?_set_eq_some_or hcaller' with hold | hnew
    · exact hinv.finishing_safe caller' job hold
    · exact hfinishing job hnew.symm

end Preservation

/-- Every step of every thread keeps the invariant. -/
theorem fineStep_inv {render : P → B} {empty : B} {s s' : FinePool P B} {action : FineAction P}
    {o : FineEvent P B} (hinv : SyncInv s) (hstep : fineStep render empty s action = some (o, s')) :
    SyncInv s' := by
  cases action with
  | submitAsync thread trackId cueIndex params =>
    obtain ⟨e, pool, hpool, rfl⟩ := liftPoolStep_eq_some hstep
    obtain ⟨-, ⟨-, rfl⟩ | ⟨-, rfl⟩⟩ := submitAsyncDepthCheck_eq_some hpool
    · exact hinv
    · exact ⟨hinv.phases_length, hinv.queue_nodup, hinv.queue_lt, hinv.queued_not_done,
        hinv.queued_unheld, hinv.worker_lt, hinv.worker_unique, hinv.done_after_setDone,
        hinv.checking_excl, hinv.finishing_safe⟩
  | enqueue thread =>
    obtain ⟨e, pool, hpool, rfl⟩ := liftPoolStep_eq_some hstep
    obtain ⟨key, params, -, -, rfl⟩ := submitAsyncEnqueue_eq_some hpool
    exact hinv.appendJob rfl fun _ _ h ↦ .inl h
  | dequeue worker =>
    obtain ⟨job, rest, hworker, hqueue, rfl⟩ := fineDequeue_eq_some hstep
    exact hinv.dequeue hworker hqueue
  | lockDone worker =>
    obtain ⟨job, hjob, hon, hready, rfl⟩ := publishStep_eq_some hstep
    apply @SyncInv.publishStep P B s hinv worker job .rendering .locked id hjob hon
    · intro h
      cases h
    · intro _
      rfl
    · intro _ _
      exact hready
  | storeResult worker =>
    obtain ⟨job, hjob, hon, -, rfl⟩ := publishStep_eq_some hstep
    apply @SyncInv.publishStep P B s hinv worker job .locked .stored
      (fun j ↦ { j with result := render j.params }) hjob hon
    · intro h
      cases h
    · intro _
      rfl
    · intro _ h
      cases h
  | setDone worker =>
    obtain ⟨job, hjob, hon, -, rfl⟩ := publishStep_eq_some hstep
    apply @SyncInv.publishStep P B s hinv worker job .stored .doneSet
      (fun j ↦ { j with done := true }) hjob hon
    · intro _
      rfl
    · intro h
      cases h
    · intro _ h
      cases h
  | signalDone worker =>
    obtain ⟨job, hjob, hon, -, rfl⟩ := publishStep_eq_some hstep
    apply @SyncInv.publishStep P B s hinv worker job .doneSet .signalled id hjob hon
    · intro _
      rfl
    · intro h
      cases h
    · intro _ h
      cases h
  | unlockDone worker =>
    obtain ⟨-, -, rfl⟩ := unlockDone_eq_some hstep
    exact hinv.unlockDone worker
  | tryGet trackId cueIndex =>
    obtain ⟨e, pool, hpool, rfl⟩ := liftPoolStep_eq_some hstep
    rcases renderPoolTryGet_eq_some hpool with ⟨-, -, rfl⟩ |
      ⟨job, hjob, -, ⟨-, -, rfl⟩ | ⟨-, -, rfl⟩⟩
    · exact hinv
    · exact hinv
    · exact hinv.cleanUp hjob fun _ _ h ↦ .inl h
  | renderSync caller params =>
    obtain ⟨-, rfl⟩ := renderSync_eq_some hstep
    exact hinv.appendJob rfl fun _ _ h ↦ Lib.getElem?_set_eq_some_or h
  | syncLock caller =>
    obtain ⟨job, -, hfree, rfl⟩ := syncLock_eq_some hstep
    exact hinv.setCaller (fun _ h ↦ by cases h; exact (doneMtxFree_iff.mp hfree).1)
      fun _ h ↦ by cases h
  | syncWait caller =>
    obtain ⟨job, -, rfl⟩ := syncWait_eq_some hstep
    exact hinv.setCaller (fun _ h ↦ by cases h) fun _ h ↦ by cases h
  | syncWake caller =>
    obtain ⟨job, -, hfree, rfl⟩ := syncWake_eq_some hstep
    exact hinv.setCaller (fun _ h ↦ by cases h; exact (doneMtxFree_iff.mp hfree).1)
      fun _ h ↦ by cases h
  | syncUnlock caller =>
    obtain ⟨job, hjob, hcaller, hdone, rfl⟩ := syncUnlock_eq_some hstep
    exact hinv.setCaller (fun _ h ↦ by cases h)
      fun _ h ↦ by cases h; exact ⟨hjob, hdone, hinv.unheld_of_checking hcaller hjob hdone⟩
  | syncFinish caller =>
    obtain ⟨job, hjob, -, rfl⟩ := syncFinish_eq_some hstep
    exact hinv.cleanUp hjob fun _ _ h ↦ Lib.getElem?_set_eq_some_or h

/-- In every run, from any interleaving of the workers' publish sequences with
`render_pool_submit_async`, `render_pool_try_get` and `render_pool_render_sync`, a thread of
`render_pool_render_sync` about to steal its bitmap and free its job finds the job out of the
queue and no worker on it: no worker holds its `done_mtx` or has yet to take and release it. The
environment promises nothing: every interleaving of the threads is a run. -/
theorem renderSync_finish_safe (render : P → B) (empty : B)
    (workerCount submitterCount callerCount : ℕ) {as : List (FineAction P)}
    {tr : List (FineAction P × FineEvent P B)} {s : FinePool P B}
    (hrun : Lib.execRun (fineStep render empty)
      (FinePool.init workerCount submitterCount callerCount) as = some (tr, s))
    {caller job : ℕ} (hcaller : s.callers[caller]? = some (.finishing job)) :
    job ∉ s.pool.queue ∧ ∀ worker : ℕ, s.pool.workers[worker]? ≠ some (some job) := by
  have hallowed : Lib.Allowed (fineStep render empty) (fun _ _ ↦ True)
      (FinePool.init workerCount submitterCount callerCount) as :=
    Lib.allowed_of_forall (fun _ _ ↦ trivial) _ as
  have hinv : SyncInv s :=
    Lib.execRun_inv SyncInv (fun hinv _ hstep ↦ fineStep_inv hinv hstep)
      (syncInv_init workerCount submitterCount callerCount) hallowed hrun
  obtain ⟨-, -, hq, hfree⟩ := hinv.finishing_safe caller job hcaller
  exact ⟨hq, hfree⟩

theorem renderSync_finish_safe_afterWait :
    let as : List (FineAction ℕ) :=
      [.renderSync 0 7, .dequeue 0, .syncLock 0, .syncWait 0, .lockDone 0, .storeResult 0,
        .setDone 0, .signalDone 0, .unlockDone 0, .syncWake 0, .syncUnlock 0]
    ∃ tr s, Lib.execRun (fineStep (· + 100) 0) (FinePool.init 1 0 1) as = some (tr, s) ∧
      s.callers[0]? = some (.finishing 0) ∧
      0 ∉ s.pool.queue ∧ ∀ worker : ℕ, s.pool.workers[worker]? ≠ some (some 0) := by
  intro as
  exact ⟨_, _, rfl, rfl, @renderSync_finish_safe ℕ ℕ (· + 100) 0 1 0 1 as _ _ rfl 0 0 rfl⟩

end Srt2Dvbsub.RenderPool
