import Srt2Dvbsub.RenderPool.KeySpec
import Srt2Dvbsub.Lib.List

/-!
# The asynchronous render pool

`render_pool.c` keeps every job in two lists at once: the FIFO queue `job_head` … `job_tail`
that the worker threads take jobs from, and the keyed list `all_jobs` that
`render_pool_try_get` searches by `(track_id, cue_index)`. Both are guarded by `job_mtx`, and
each step of the model is one critical section under it: the depth check and the enqueue of
`render_pool_submit_async`, the dequeue and the publish of `worker_thread`, and
`render_pool_try_get`. The pool is running and never shut down.

The state keeps every container the pool has allocated, at its allocation number; a container
that `cleanup_job_container` freed stays in the list, marked. A worker's `job` and a submitting
thread's arguments between its two critical sections are the threads' local state.

* `poolRefinement`: the pool refines `absPoolStep`, one machine per key, for the runs whose
  submissions carry pairwise distinct keys.
* `jobPlaced_of_execRun`, `countDequeued_le_one`, `countPublished_le_countDequeued`: every job
  is in the queue, held by exactly one worker, or published, and no job is dequeued twice or
  published without being dequeued.
-/

set_option autoImplicit false
set_option relaxedAutoImplicit false

namespace Srt2Dvbsub.RenderPool

variable {P B : Type*}

/-- A `RenderJob` container as the pool sees it: its key, the inputs it copied (`markup`,
display size, font, colours, position and palette mode), the `result` bitmap, the atomic `done`
flag, and whether `cleanup_job_container (j, 1)` has freed it. -/
structure RenderJob (P B : Type*) where
  trackId : ℤ
  cueIndex : ℤ
  params : P
  result : B
  done : Bool
  cleanedUp : Bool

def RenderJob.key (j : RenderJob P B) : ℤ × ℤ := (j.trackId, j.cueIndex)

/-- The shared state of the pool and the local state of its threads: every container allocated,
the queue, `all_jobs` (newest first), the `job` each worker holds between its dequeue and its
publish, and the key and inputs each thread inside `render_pool_submit_async` holds between its
depth check and its enqueue. -/
structure Pool (P B : Type*) where
  heap : List (RenderJob P B)
  queue : List ℕ
  allJobs : List ℕ
  workers : List (Option ℕ)
  submitters : List (Option ((ℤ × ℤ) × P))

/-- A running pool with `workerCount` idle workers and `submitterCount` threads that may call
`render_pool_submit_async`. -/
def Pool.init (workerCount submitterCount : ℕ) : Pool P B :=
  ⟨[], [], [], List.replicate workerCount none, List.replicate submitterCount none⟩

/-- A step of some thread: the two critical sections of `render_pool_submit_async`, the
dequeue and the publish of `worker_thread`, and `render_pool_try_get`. -/
inductive PoolAction (P : Type*) where
  | submitAsync (thread : ℕ) (trackId cueIndex : ℤ) (params : P)
  | enqueue (thread : ℕ)
  | dequeue (worker : ℕ)
  | publish (worker : ℕ)
  | tryGet (trackId cueIndex : ℤ)

/-- The key a submission is made under. -/
def PoolAction.submitKey : PoolAction P → Option (ℤ × ℤ)
  | .submitAsync _ trackId cueIndex _ => some (trackId, cueIndex)
  | _ => none

/-- What a step does: the depth check refuses (`render_pool_submit_async` returns -1) or
passes, a job is enqueued (it returns 0), a worker takes a job or publishes its result, or
`render_pool_try_get` answers. -/
inductive PoolEvent (P B : Type*) where
  | queueFull
  | checked
  | enqueued (key : ℤ × ℤ) (params : P) (job : ℕ)
  | dequeued (job : ℕ)
  | published (key : ℤ × ℤ) (job : ℕ)
  | answered (reply : KeyReply B)

def MAX_QUEUE_DEPTH : ℕ := 1024

/-- The first critical section of `render_pool_submit_async`: the call gives up when the queue
holds `MAX_QUEUE_DEPTH` jobs, and otherwise goes on to allocate its job. -/
def submitAsyncDepthCheck (pool : Pool P B) (thread : ℕ) (key : ℤ × ℤ) (params : P) :
    Option (PoolEvent P B × Pool P B) :=
  match pool.submitters[thread]? with
  | some none =>
    if MAX_QUEUE_DEPTH ≤ pool.queue.length then some (.queueFull, pool)
    else some (.checked, { pool with submitters := pool.submitters.set thread (some (key, params)) })
  | _ => none

/-- The second critical section of `render_pool_submit_async`: the new container, zeroed by
`calloc`, goes to the tail of the queue and to the head of `all_jobs` under its key. -/
def submitAsyncEnqueue (empty : B) (pool : Pool P B) (thread : ℕ) :
    Option (PoolEvent P B × Pool P B) :=
  match pool.submitters[thread]? with
  | some (some (key, params)) =>
    some (.enqueued key params pool.heap.length,
      { heap := pool.heap ++ [⟨key.1, key.2, params, empty, false, false⟩]
        queue := pool.queue ++ [pool.heap.length]
        allJobs := pool.heap.length :: pool.allJobs
        workers := pool.workers
        submitters := pool.submitters.set thread none })
  | _ => none

/-- The dequeue of `worker_thread`: while the pool runs, an idle worker waits for a job and
takes the head of the queue; the job stays in `all_jobs`. -/
def workerDequeue (pool : Pool P B) (worker : ℕ) : Option (PoolEvent P B × Pool P B) :=
  match pool.workers[worker]?, pool.queue with
  | some none, job :: rest =>
    some (.dequeued job, { pool with queue := rest, workers := pool.workers.set worker (some job) })
  | _, _ => none

/-- The publish of `worker_thread`: the bitmap `render_text_pango` drew from the job's own
inputs is stored and `done` set, under the job's `done_mtx`. -/
def workerPublish (render : P → B) (pool : Pool P B) (worker : ℕ) :
    Option (PoolEvent P B × Pool P B) :=
  match pool.workers[worker]? with
  | some (some job) =>
    match pool.heap[job]? with
    | some j =>
      some (.published j.key job,
        { pool with
          heap := pool.heap.set job { j with result := render j.params, done := true }
          workers := pool.workers.set worker none })
    | none => none
  | _ => none

/-- The search of `render_pool_try_get` (and of `find_job`): the first job of `all_jobs`
under the key. -/
def findJob (pool : Pool P B) (key : ℤ × ℤ) : Option ℕ :=
  pool.allJobs.find? fun job ↦ pool.heap[job]?.map RenderJob.key = some key

/-- `render_pool_try_get`: a job not yet done is reported busy; a done one is unlinked from
`all_jobs`, its bitmap handed over and its container freed. -/
def renderPoolTryGet (pool : Pool P B) (trackId cueIndex : ℤ) :
    Option (PoolEvent P B × Pool P B) :=
  match findJob pool (trackId, cueIndex) with
  | none => some (.answered .missing, pool)
  | some job =>
    match pool.heap[job]? with
    | none => none
    | some j =>
      if j.done then
        some (.answered (.got j.result),
          { pool with
            heap := pool.heap.set job { j with cleanedUp := true }
            allJobs := pool.allJobs.erase job })
      else some (.answered .busy, pool)

/-- One critical section of some thread. `empty` is the zeroed bitmap of a fresh container
and `render` the bitmap `render_text_pango` draws from a job's inputs. -/
def poolStep (render : P → B) (empty : B) :
    Pool P B → PoolAction P → Option (PoolEvent P B × Pool P B)
  | pool, .submitAsync thread trackId cueIndex params =>
    submitAsyncDepthCheck pool thread (trackId, cueIndex) params
  | pool, .enqueue thread => submitAsyncEnqueue empty pool thread
  | pool, .dequeue worker => workerDequeue pool worker
  | pool, .publish worker => workerPublish render pool worker
  | pool, .tryGet trackId cueIndex => renderPoolTryGet pool trackId cueIndex

/-! ### What each step can do -/

section Steps

variable {render : P → B} {empty : B} {pool pool' : Pool P B} {o : PoolEvent P B}

theorem submitAsyncDepthCheck_eq_some {thread : ℕ} {key : ℤ × ℤ} {params : P}
    (h : submitAsyncDepthCheck pool thread key params = some (o, pool')) :
    pool.submitters[thread]? = some none ∧
      ((o = .queueFull ∧ pool' = pool) ∨
        (o = .checked ∧
          pool' = { pool with submitters := pool.submitters.set thread (some (key, params)) })) := by
  unfold submitAsyncDepthCheck at h
  split at h
  · next hthread =>
    refine ⟨hthread, ?_⟩
    split_ifs at h
    · obtain ⟨rfl, rfl⟩ := Prod.mk.inj (Option.some.inj h)
      exact .inl ⟨rfl, rfl⟩
    · obtain ⟨rfl, rfl⟩ := Prod.mk.inj (Option.some.inj h)
      exact .inr ⟨rfl, rfl⟩
  · cases h

theorem submitAsyncEnqueue_eq_some {thread : ℕ}
    (h : submitAsyncEnqueue empty pool thread = some (o, pool')) :
    ∃ key params, pool.submitters[thread]? = some (some (key, params)) ∧
      o = .enqueued key params pool.heap.length ∧
      pool' = { heap := pool.heap ++ [⟨key.1, key.2, params, empty, false, false⟩]
                queue := pool.queue ++ [pool.heap.length]
                allJobs := pool.heap.length :: pool.allJobs
                workers := pool.workers
                submitters := pool.submitters.set thread none } := by
  unfold submitAsyncEnqueue at h
  split at h
  · next key params hthread =>
    obtain ⟨rfl, rfl⟩ := Prod.mk.inj (Option.some.inj h)
    exact ⟨key, params, hthread, rfl, rfl⟩
  · cases h

theorem workerDequeue_eq_some {worker : ℕ} (h : workerDequeue pool worker = some (o, pool')) :
    ∃ job rest, pool.workers[worker]? = some none ∧ pool.queue = job :: rest ∧
      o = .dequeued job ∧
      pool' = { pool with queue := rest, workers := pool.workers.set worker (some job) } := by
  unfold workerDequeue at h
  split at h
  · next job rest hworker hqueue =>
    obtain ⟨rfl, rfl⟩ := Prod.mk.inj (Option.some.inj h)
    exact ⟨job, rest, hworker, hqueue, rfl, rfl⟩
  · cases h

theorem workerPublish_eq_some {worker : ℕ} (h : workerPublish render pool worker = some (o, pool')) :
    ∃ job, ∃ hjob : job < pool.heap.length, pool.workers[worker]? = some (some job) ∧
      o = .published pool.heap[job].key job ∧
      pool' = { pool with
        heap := pool.heap.set job { pool.heap[job] with
          result := render pool.heap[job].params, done := true }
        workers := pool.workers.set worker none } := by
  unfold workerPublish at h
  split at h
  · next job hworker =>
    split at h
    · next j hj =>
      obtain ⟨hjob, rfl⟩ := List.getElem?_eq_some_iff.mp hj
      obtain ⟨rfl, rfl⟩ := Prod.mk.inj (Option.some.inj h)
      exact ⟨job, hjob, hworker, rfl, rfl⟩
    · cases h
  · cases h

theorem renderPoolTryGet_eq_some {trackId cueIndex : ℤ}
    (h : renderPoolTryGet pool trackId cueIndex = some (o, pool')) :
    (findJob pool (trackId, cueIndex) = none ∧ o = .answered .missing ∧ pool' = pool) ∨
      ∃ job, ∃ hjob : job < pool.heap.length, findJob pool (trackId, cueIndex) = some job ∧
        ((pool.heap[job].done = false ∧ o = .answered .busy ∧ pool' = pool) ∨
          (pool.heap[job].done = true ∧ o = .answered (.got pool.heap[job].result) ∧
            pool' = { pool with
              heap := pool.heap.set job { pool.heap[job] with cleanedUp := true }
              allJobs := pool.allJobs.erase job })) := by
  unfold renderPoolTryGet at h
  split at h
  · next hfind =>
    obtain ⟨rfl, rfl⟩ := Prod.mk.inj (Option.some.inj h)
    exact .inl ⟨hfind, rfl, rfl⟩
  · next job hfind =>
    split at h
    · cases h
    · next j hj =>
      obtain ⟨hjob, rfl⟩ := List.getElem?_eq_some_iff.mp hj
      refine .inr ⟨job, hjob, hfind, ?_⟩
      split_ifs at h with hdone
      · obtain ⟨rfl, rfl⟩ := Prod.mk.inj (Option.some.inj h)
        exact .inr ⟨hdone, rfl, rfl⟩
      · obtain ⟨rfl, rfl⟩ := Prod.mk.inj (Option.some.inj h)
        exact .inl ⟨by simpa using hdone, rfl, rfl⟩

end Steps

/-! ### Keys in use -/

/-- The keys in use: those of every container enqueued, and those of the submissions past
their depth check. -/
def usedKeys (pool : Pool P B) : List (ℤ × ℤ) :=
  pool.heap.map RenderJob.key ++ pool.submitters.filterMap (Option.map Prod.fst)

/-- What the runs with pairwise distinct keys promise at each step: a submission's key is not
in use. -/
def FreshKey (pool : Pool P B) (action : PoolAction P) : Prop :=
  ∀ key, action.submitKey = some key → key ∉ usedKeys pool

section UsedKeys

variable {pool : Pool P B} {thread : ℕ} {key : ℤ × ℤ} {params : P}

/-- A depth check that passes puts its key in use. -/
theorem usedKeys_depthCheck (hthread : pool.submitters[thread]? = some none) :
    (usedKeys { pool with submitters := pool.submitters.set thread (some (key, params)) }).Perm
      (key :: usedKeys pool) := by
  obtain ⟨ht, hnone⟩ := List.getElem?_eq_some_iff.mp hthread
  have hperm := Lib.filterMap_set_perm (Option.map Prod.fst) ht (some (key, params))
  simp only [hnone, Option.map_none, Option.toList_none, List.append_nil, Option.map_some,
    Option.toList_some, List.singleton_append] at hperm
  exact (hperm.append_left _).trans List.perm_middle

/-- The enqueue moves its key from the submission to the new container. -/
theorem usedKeys_enqueue {pool' : Pool P B} {j : RenderJob P B}
    (hthread : pool.submitters[thread]? = some (some (key, params))) (hkey : j.key = key)
    (hheap : pool'.heap = pool.heap ++ [j])
    (hsubmitters : pool'.submitters = pool.submitters.set thread none) :
    (usedKeys pool').Perm (usedKeys pool) := by
  obtain ⟨ht, hsome⟩ := List.getElem?_eq_some_iff.mp hthread
  have hperm := Lib.filterMap_set_perm (Option.map Prod.fst) ht none
  simp only [hsome, Option.map_none, Option.toList_none, Option.map_some, Option.toList_some,
    List.nil_append] at hperm
  rw [usedKeys, usedKeys, hheap, hsubmitters, List.map_append, List.map_singleton, hkey,
    List.append_assoc]
  exact (List.perm_append_comm.trans hperm).append_left _

/-- Replacing a container by one of the same key leaves the keys in use. -/
theorem usedKeys_heap_set {job : ℕ} (hjob : job < pool.heap.length) {j : RenderJob P B}
    (hkey : j.key = pool.heap[job].key) (queue allJobs : List ℕ) (workers : List (Option ℕ)) :
    usedKeys ⟨pool.heap.set job j, queue, allJobs, workers, pool.submitters⟩ = usedKeys pool := by
  rw [usedKeys, usedKeys, Lib.map_set_of_eq hjob hkey]

end UsedKeys

/-! ### Where the jobs are -/

/-- Where a job is: queued and held by no worker, taken out of the queue by exactly one worker
and not yet done, or out of the queue, held by none and done. -/
def JobPlaced (queued : Prop) (holders : ℕ) (done : Bool) : Prop :=
  (queued ∧ holders = 0 ∧ done = false) ∨ (¬ queued ∧ holders = 1 ∧ done = false) ∨
    (¬ queued ∧ holders = 0 ∧ done = true)

/-- The invariant of the pool: the keys in use are distinct, the two lists hold each job once
and only jobs that exist, a job is in `all_jobs` until its container is freed, only a done job
is freed, and every job is placed. -/
structure PoolInv (pool : Pool P B) : Prop where
  usedKeys_nodup : (usedKeys pool).Nodup
  queue_nodup : pool.queue.Nodup
  allJobs_nodup : pool.allJobs.Nodup
  queue_lt : ∀ job ∈ pool.queue, job < pool.heap.length
  workers_lt : ∀ job, some job ∈ pool.workers → job < pool.heap.length
  allJobs_lt : ∀ job ∈ pool.allJobs, job < pool.heap.length
  mem_allJobs : ∀ job (hjob : job < pool.heap.length),
    job ∈ pool.allJobs ↔ pool.heap[job].cleanedUp = false
  done_of_cleanedUp : ∀ job (hjob : job < pool.heap.length),
    pool.heap[job].cleanedUp = true → pool.heap[job].done = true
  placed : ∀ job (hjob : job < pool.heap.length),
    JobPlaced (job ∈ pool.queue) (pool.workers.count (some job)) pool.heap[job].done

theorem poolInv_init (workerCount submitterCount : ℕ) :
    PoolInv (Pool.init workerCount submitterCount : Pool P B) where
  usedKeys_nodup := by simp [usedKeys, Pool.init]
  queue_nodup := List.nodup_nil
  allJobs_nodup := List.nodup_nil
  queue_lt := by simp [Pool.init]
  workers_lt := by simp [Pool.init]
  allJobs_lt := by simp [Pool.init]
  mem_allJobs := by simp [Pool.init]
  done_of_cleanedUp := by simp [Pool.init]
  placed := by simp [Pool.init]

/-- The number of workers holding a job after one worker's `job` changes. -/
theorem count_set_worker {workers : List (Option ℕ)} {worker : ℕ} (hworker : worker < workers.length)
    (x : Option ℕ) (job : ℕ) :
    (workers.set worker x).count (some job) =
      workers.count (some job) - (if workers[worker] = some job then 1 else 0) +
        (if x = some job then 1 else 0) := by
  simp [List.count_set hworker]

section Preservation

variable {render : P → B} {empty : B} {pool : Pool P B}

theorem PoolInv.depthCheck (hinv : PoolInv pool) {thread : ℕ} {key : ℤ × ℤ} {params : P}
    (hfresh : key ∉ usedKeys pool) (hthread : pool.submitters[thread]? = some none) :
    PoolInv { pool with submitters := pool.submitters.set thread (some (key, params)) } :=
  ⟨(usedKeys_depthCheck hthread).nodup_iff.mpr (List.nodup_cons.mpr ⟨hfresh, hinv.usedKeys_nodup⟩),
    hinv.queue_nodup, hinv.allJobs_nodup, hinv.queue_lt, hinv.workers_lt, hinv.allJobs_lt,
    hinv.mem_allJobs, hinv.done_of_cleanedUp, hinv.placed⟩

/-- `render_pool_submit_async` keeps the invariant: the new job is queued, and no worker can hold
a job that did not exist. -/
theorem PoolInv.enqueue (hinv : PoolInv pool) {thread : ℕ} {key : ℤ × ℤ} {params : P}
    (hthread : pool.submitters[thread]? = some (some (key, params))) :
    PoolInv { heap := pool.heap ++ [⟨key.1, key.2, params, empty, false, false⟩]
              queue := pool.queue ++ [pool.heap.length]
              allJobs := pool.heap.length :: pool.allJobs
              workers := pool.workers
              submitters := pool.submitters.set thread none } where
  usedKeys_nodup :=
    (usedKeys_enqueue hthread rfl rfl rfl).nodup_iff.mpr hinv.usedKeys_nodup
  queue_nodup := Lib.nodup_append_fresh hinv.queue_nodup hinv.queue_lt
  allJobs_nodup :=
    List.nodup_cons.mpr ⟨fun h ↦ Nat.lt_irrefl _ (hinv.allJobs_lt _ h), hinv.allJobs_nodup⟩
  queue_lt := by
    rw [List.length_append, List.length_singleton]
    exact Lib.lt_succ_of_mem_append_fresh hinv.queue_lt
  workers_lt := fun job hjob ↦ by
    rw [List.length_append, List.length_singleton]
    exact Nat.lt_succ_of_lt (hinv.workers_lt job hjob)
  allJobs_lt := by
    intro job hjob
    rw [List.mem_cons] at hjob
    rw [List.length_append, List.length_singleton]
    rcases hjob with rfl | hjob
    · exact Nat.lt_succ_self _
    · exact Nat.lt_succ_of_lt (hinv.allJobs_lt job hjob)
  mem_allJobs := by
    refine Lib.forall_getElem_append_singleton (P := fun job (j : RenderJob P B) ↦
      job ∈ pool.heap.length :: pool.allJobs ↔ j.cleanedUp = false) (fun job hlt ↦ ?_) (by simp)
    rw [List.mem_cons, ← hinv.mem_allJobs job hlt]
    simp [Nat.ne_of_lt hlt]
  done_of_cleanedUp := Lib.forall_getElem_append_singleton
    (P := fun _ (j : RenderJob P B) ↦ j.cleanedUp = true → j.done = true)
    hinv.done_of_cleanedUp (by simp)
  placed := by
    refine Lib.forall_getElem_append_singleton
      (P := fun job (j : RenderJob P B) ↦ JobPlaced (job ∈ pool.queue ++ [pool.heap.length])
        (pool.workers.count (some job)) j.done) (fun job hlt ↦ ?_) ?_
    · have hqueue : job ∈ pool.queue ++ [pool.heap.length] ↔ job ∈ pool.queue := by
        simp [Nat.ne_of_lt hlt]
      rw [hqueue]
      exact hinv.placed job hlt
    · have hheld : pool.workers.count (some pool.heap.length) = 0 :=
        List.count_eq_zero.mpr fun h ↦ Nat.lt_irrefl _ (hinv.workers_lt _ h)
      exact .inl ⟨by simp, hheld, by simp⟩

/-- A worker taking the head of the queue keeps the invariant: the job was queued and held by
none, and is now held by this worker alone. -/
theorem PoolInv.dequeue (hinv : PoolInv pool) {worker job : ℕ} {rest : List ℕ}
    (hworker : pool.workers[worker]? = some none) (hqueue : pool.queue = job :: rest) :
    PoolInv { pool with queue := rest, workers := pool.workers.set worker (some job) } where
  usedKeys_nodup := hinv.usedKeys_nodup
  queue_nodup := (hqueue ▸ hinv.queue_nodup).of_cons
  allJobs_nodup := hinv.allJobs_nodup
  queue_lt := fun job' hjob' ↦ hinv.queue_lt job' (hqueue ▸ List.mem_cons_of_mem job hjob')
  workers_lt := by
    intro job' hjob'
    rcases List.mem_or_eq_of_mem_set hjob' with hjob' | heq
    · exact hinv.workers_lt job' hjob'
    · obtain rfl := Option.some.inj heq
      exact hinv.queue_lt _ (hqueue ▸ List.mem_cons_self)
  allJobs_lt := hinv.allJobs_lt
  mem_allJobs := hinv.mem_allJobs
  done_of_cleanedUp := hinv.done_of_cleanedUp
  placed := by
    intro job' hjob'
    obtain ⟨hw, hnone⟩ := List.getElem?_eq_some_iff.mp hworker
    have hplaced := hinv.placed job' hjob'
    have hnodup := hqueue ▸ hinv.queue_nodup
    rw [count_set_worker hw, hnone]
    rw [hqueue, List.mem_cons] at hplaced
    by_cases hjob : job' = job
    · subst hjob
      have hnotin : job' ∉ rest := (List.nodup_cons.mp hnodup).1
      rcases hplaced with ⟨-, hzero, hdone⟩ | ⟨hq, -⟩ | ⟨hq, -⟩
      · exact .inr (.inl ⟨hnotin, by simp [hzero], hdone⟩)
      · exact absurd (.inl rfl) hq
      · exact absurd (.inl rfl) hq
    · have hq : (job' = job ∨ job' ∈ rest) ↔ job' ∈ rest := by simp [hjob]
      simpa [hq, Ne.symm hjob] using hplaced

/-- A worker publishing its job keeps the invariant: the job, held by this worker alone, is held
by none and done. -/
theorem PoolInv.publish (hinv : PoolInv pool) {worker job : ℕ}
    (hworker : pool.workers[worker]? = some (some job)) (hjob : job < pool.heap.length) :
    PoolInv { pool with
      heap := pool.heap.set job { pool.heap[job] with
        result := render pool.heap[job].params, done := true }
      workers := pool.workers.set worker none } where
  usedKeys_nodup := by
    rw [usedKeys_heap_set hjob
      (j := { pool.heap[job] with result := render pool.heap[job].params, done := true }) rfl]
    exact hinv.usedKeys_nodup
  queue_nodup := hinv.queue_nodup
  allJobs_nodup := hinv.allJobs_nodup
  queue_lt := fun job' hjob' ↦ by simpa using hinv.queue_lt job' hjob'
  workers_lt := by
    intro job' hjob'
    rcases List.mem_or_eq_of_mem_set hjob' with hjob' | heq
    · simpa using hinv.workers_lt job' hjob'
    · cases heq
  allJobs_lt := fun job' hjob' ↦ by simpa using hinv.allJobs_lt job' hjob'
  mem_allJobs := Lib.forall_getElem_set
    (P := fun job' (j : RenderJob P B) ↦ job' ∈ pool.allJobs ↔ j.cleanedUp = false)
    (fun job' hjob' _ ↦ hinv.mem_allJobs job' hjob') (fun _ ↦ hinv.mem_allJobs job hjob)
  done_of_cleanedUp := Lib.forall_getElem_set
    (P := fun _ (j : RenderJob P B) ↦ j.cleanedUp = true → j.done = true)
    (fun job' hjob' _ ↦ hinv.done_of_cleanedUp job' hjob') (fun _ _ ↦ rfl)
  placed := by
    obtain ⟨hw, hsome⟩ := List.getElem?_eq_some_iff.mp hworker
    refine Lib.forall_getElem_set (P := fun job' (j : RenderJob P B) ↦
      JobPlaced (job' ∈ pool.queue) ((pool.workers.set worker none).count (some job')) j.done)
      (fun job' hjob' hne ↦ ?_) (fun _ ↦ ?_)
    · have hplaced := hinv.placed job' hjob'
      rw [count_set_worker hw, hsome]
      simpa [Ne.symm hne] using hplaced
    · have hpos : 0 < pool.workers.count (some job) :=
        List.count_pos_iff.mpr (hsome ▸ List.getElem_mem hw)
      rw [count_set_worker hw, hsome]
      rcases hinv.placed job hjob with ⟨-, hzero, -⟩ | ⟨hq, hone, -⟩ | ⟨-, hzero, -⟩
      · omega
      · exact .inr (.inr ⟨hq, by simp [hone], by simp⟩)
      · omega

theorem PoolInv.tryGet (hinv : PoolInv pool) {job : ℕ} (hjob : job < pool.heap.length)
    (hdone : pool.heap[job].done = true) :
    PoolInv { pool with
      heap := pool.heap.set job { pool.heap[job] with cleanedUp := true }
      allJobs := pool.allJobs.erase job } where
  usedKeys_nodup := by
    rw [usedKeys_heap_set hjob (j := { pool.heap[job] with cleanedUp := true }) rfl]
    exact hinv.usedKeys_nodup
  queue_nodup := hinv.queue_nodup
  allJobs_nodup := hinv.allJobs_nodup.erase job
  queue_lt := fun job' hjob' ↦ by simpa using hinv.queue_lt job' hjob'
  workers_lt := fun job' hjob' ↦ by simpa using hinv.workers_lt job' hjob'
  allJobs_lt := fun job' hjob' ↦ by simpa using hinv.allJobs_lt job' (List.mem_of_mem_erase hjob')
  mem_allJobs := by
    refine Lib.forall_getElem_set
      (P := fun job' (j : RenderJob P B) ↦ job' ∈ pool.allJobs.erase job ↔ j.cleanedUp = false)
      (fun job' hjob' hne ↦ ?_) (fun _ ↦ by simp [hinv.allJobs_nodup.mem_erase_iff])
    rw [hinv.allJobs_nodup.mem_erase_iff, hinv.mem_allJobs job' hjob']
    simp [hne]
  done_of_cleanedUp := Lib.forall_getElem_set
    (P := fun _ (j : RenderJob P B) ↦ j.cleanedUp = true → j.done = true)
    (fun job' hjob' _ ↦ hinv.done_of_cleanedUp job' hjob') (fun _ _ ↦ hdone)
  placed := Lib.forall_getElem_set
    (P := fun job' (j : RenderJob P B) ↦
      JobPlaced (job' ∈ pool.queue) (pool.workers.count (some job')) j.done)
    (fun job' hjob' _ ↦ hinv.placed job' hjob') (fun _ ↦ hinv.placed job hjob)

end Preservation

/-- Every step keeps the invariant, on the runs that submit under fresh keys. -/
theorem poolStep_inv {render : P → B} {empty : B} {pool pool' : Pool P B} {action : PoolAction P}
    {o : PoolEvent P B} (hinv : PoolInv pool) (hfresh : FreshKey pool action)
    (hstep : poolStep render empty pool action = some (o, pool')) : PoolInv pool' := by
  cases action with
  | submitAsync thread trackId cueIndex params =>
    obtain ⟨hthread, ⟨-, rfl⟩ | ⟨-, rfl⟩⟩ := submitAsyncDepthCheck_eq_some hstep
    · exact hinv
    · exact hinv.depthCheck (hfresh _ rfl) hthread
  | enqueue thread =>
    obtain ⟨key, params, hthread, -, rfl⟩ := submitAsyncEnqueue_eq_some hstep
    exact hinv.enqueue hthread
  | dequeue worker =>
    obtain ⟨job, rest, hworker, hqueue, -, rfl⟩ := workerDequeue_eq_some hstep
    exact hinv.dequeue hworker hqueue
  | publish worker =>
    obtain ⟨job, hjob, hworker, -, rfl⟩ := workerPublish_eq_some hstep
    exact hinv.publish hworker hjob
  | tryGet trackId cueIndex =>
    rcases renderPoolTryGet_eq_some hstep with ⟨-, -, rfl⟩ | ⟨job, hjob, -, ⟨-, -, rfl⟩ | ⟨hdone, -, rfl⟩⟩
    · exact hinv
    · exact hinv
    · exact hinv.tryGet hjob hdone

/-- A job a worker holds is neither done nor freed. -/
theorem PoolInv.held_pending {pool : Pool P B} (hinv : PoolInv pool) {worker job : ℕ}
    (hworker : pool.workers[worker]? = some (some job)) (hjob : job < pool.heap.length) :
    pool.heap[job].done = false ∧ pool.heap[job].cleanedUp = false := by
  obtain ⟨hw, hsome⟩ := List.getElem?_eq_some_iff.mp hworker
  have hpos : 0 < pool.workers.count (some job) :=
    List.count_pos_iff.mpr (hsome ▸ List.getElem_mem hw)
  have hdone : pool.heap[job].done = false := by
    rcases hinv.placed job hjob with ⟨-, hzero, -⟩ | ⟨-, -, hdone⟩ | ⟨-, hzero, -⟩
    · omega
    · exact hdone
    · omega
  refine ⟨hdone, ?_⟩
  cases hclean : pool.heap[job].cleanedUp
  · rfl
  · simp [hinv.done_of_cleanedUp job hjob hclean] at hdone

/-! ### The pool seen one key at a time -/

/-- What a job's container says about its key: freed after the hand-over, done and holding
its bitmap, or still pending with its inputs. -/
def jobPhase (j : RenderJob P B) : KeyPhase P B :=
  if j.cleanedUp then .taken else if j.done then .published j.result else .pending j.params

/-- The phase of a key: that of the job enqueued under it, if there is one. -/
def keyPhase (heap : List (RenderJob P B)) (key : ℤ × ℤ) : KeyPhase P B :=
  match heap.find? (fun j ↦ j.key = key) with
  | none => .absent
  | some j => jobPhase j

section KeyPhase

variable {heap : List (RenderJob P B)}

theorem keyPhase_of_not_mem {key : ℤ × ℤ} (hkey : key ∉ heap.map RenderJob.key) :
    keyPhase heap key = .absent := by
  have hnone : heap.find? (fun j ↦ j.key = key) = none := by
    rw [List.find?_eq_none]
    intro j hj hjkey
    exact hkey (List.mem_map.mpr ⟨j, hj, by simpa using hjkey⟩)
  simp [keyPhase, hnone]

theorem keyPhase_getElem (hnodup : (heap.map RenderJob.key).Nodup) {job : ℕ}
    (hjob : job < heap.length) : keyPhase heap heap[job].key = jobPhase heap[job] := by
  simp [keyPhase, Lib.find?_key_getElem hnodup hjob]

/-- Enqueuing a job under a fresh key gives that key the job's phase. -/
theorem keyPhase_append {j : RenderJob P B} (hfresh : j.key ∉ heap.map RenderJob.key) :
    keyPhase (heap ++ [j]) = Function.update (keyPhase heap) j.key (jobPhase j) := by
  funext key
  have hnone : heap.find? (fun j' ↦ j'.key = j.key) = none := by
    rw [List.find?_eq_none]
    intro j' hj' hkey
    exact hfresh (List.mem_map.mpr ⟨j', hj', by simpa using hkey⟩)
  by_cases hkey : key = j.key
  · subst hkey
    simp [keyPhase, hnone]
  · rw [Function.update_of_ne hkey]
    simp only [keyPhase, List.find?_append, List.find?_singleton]
    simp [Ne.symm hkey]

/-- Replacing a job by one of the same key changes the phase of that key only. -/
theorem keyPhase_set (hnodup : (heap.map RenderJob.key).Nodup) {job : ℕ} (hjob : job < heap.length)
    {j : RenderJob P B} (hkey : j.key = heap[job].key) :
    keyPhase (heap.set job j) = Function.update (keyPhase heap) heap[job].key (jobPhase j) := by
  funext key
  by_cases h : key = heap[job].key
  · subst h
    simp [keyPhase, Lib.find?_key_set hnodup hjob hkey]
  · rw [Function.update_of_ne h]
    simp [keyPhase, Lib.find?_key_set hnodup hjob hkey, Ne.symm h]

/-- A key whose every job has been freed is absent or handed over. -/
theorem keyPhase_of_cleanedUp {key : ℤ × ℤ}
    (h : ∀ job (hjob : job < heap.length), heap[job].key = key → heap[job].cleanedUp = true) :
    keyPhase heap key = .absent ∨ keyPhase heap key = .taken := by
  unfold keyPhase
  split
  · exact .inl rfl
  · next j hfind =>
    obtain ⟨hkey, job, hjob, rfl, -⟩ := List.find?_eq_some_iff_getElem.mp hfind
    simp [jobPhase, h job hjob (by simpa using hkey)]

end KeyPhase

theorem findJob_eq_some {pool : Pool P B} {key : ℤ × ℤ} {job : ℕ}
    (h : findJob pool key = some job) :
    job ∈ pool.allJobs ∧ ∃ hjob : job < pool.heap.length, pool.heap[job].key = key := by
  have hmem := List.mem_of_find?_eq_some h
  have hkey := List.find?_some h
  simp only [decide_eq_true_eq, Option.map_eq_some_iff, List.getElem?_eq_some_iff] at hkey
  obtain ⟨j, ⟨hjob, rfl⟩, hjkey⟩ := hkey
  exact ⟨hmem, hjob, hjkey⟩

theorem findJob_eq_none {pool : Pool P B} {key : ℤ × ℤ} (h : findJob pool key = none)
    {job : ℕ} (hmem : job ∈ pool.allJobs) (hjob : job < pool.heap.length) :
    pool.heap[job].key ≠ key := by
  have := List.find?_eq_none.mp h job hmem
  simpa [List.getElem?_eq_getElem hjob] using this

/-! ### The refinement -/

/-- What a step of the pool means for the keys: an enqueue submits, a publish stores, and
`render_pool_try_get` answers; the depth check and the dequeue are internal. -/
def observe : PoolAction P × PoolEvent P B → Option (KeyAction (ℤ × ℤ) P × KeyReply B)
  | (_, .enqueued key params _) => some (.submit key params, .accepted)
  | (_, .published key _) => some (.publish key, .stored)
  | (.tryGet trackId cueIndex, .answered reply) => some (.tryGet (trackId, cueIndex), reply)
  | _ => none

section Refinement

variable {render : P → B} {empty : B} {pool : Pool P B}

/-- An enqueue submits its job under a key that was absent. -/
theorem absPoolStep_enqueue (hinv : PoolInv pool) {thread : ℕ} {key : ℤ × ℤ} {params : P}
    (hthread : pool.submitters[thread]? = some (some (key, params))) :
    absPoolStep render (keyPhase pool.heap) (.submit key params) =
      some (.accepted, keyPhase (pool.heap ++ [⟨key.1, key.2, params, empty, false, false⟩])) := by
  have hfresh : key ∉ pool.heap.map RenderJob.key := by
    have hpending : key ∈ pool.submitters.filterMap (Option.map Prod.fst) :=
      List.mem_filterMap.mpr ⟨some (key, params), List.mem_of_getElem? hthread, rfl⟩
    exact fun hheap ↦ List.disjoint_of_nodup_append hinv.usedKeys_nodup hheap hpending
  rw [keyPhase_append hfresh]
  simp [absPoolStep, Lib.keyedStep, KeyAction.key, keyPhase_of_not_mem hfresh, keyStep, jobPhase,
    RenderJob.key]

/-- A publish stores the bitmap drawn from the inputs of a pending job. -/
theorem absPoolStep_publish (hinv : PoolInv pool) {worker job : ℕ}
    (hworker : pool.workers[worker]? = some (some job)) (hjob : job < pool.heap.length) :
    absPoolStep render (keyPhase pool.heap) (.publish pool.heap[job].key) =
      some (.stored, keyPhase (pool.heap.set job { pool.heap[job] with
        result := render pool.heap[job].params, done := true })) := by
  have hnodup := (List.nodup_append.mp hinv.usedKeys_nodup).1
  obtain ⟨hdone, hclean⟩ := hinv.held_pending hworker hjob
  rw [keyPhase_set hnodup hjob
    (j := { pool.heap[job] with result := render pool.heap[job].params, done := true }) rfl]
  simp [absPoolStep, Lib.keyedStep, KeyAction.key, keyPhase_getElem hnodup hjob, keyStep,
    jobPhase, hdone, hclean]

variable (render) in
/-- `render_pool_try_get` answers what the key's phase says. -/
theorem absPoolStep_tryGet (hinv : PoolInv pool) {trackId cueIndex : ℤ} {o : PoolEvent P B}
    {pool' : Pool P B} (hstep : renderPoolTryGet pool trackId cueIndex = some (o, pool')) :
    ∃ reply, o = .answered reply ∧
      absPoolStep render (keyPhase pool.heap) (.tryGet (trackId, cueIndex)) =
        some (reply, keyPhase pool'.heap) := by
  have hnodup := (List.nodup_append.mp hinv.usedKeys_nodup).1
  rcases renderPoolTryGet_eq_some hstep with ⟨hfind, rfl, hpool⟩ |
    ⟨job, hjob, hfind, ⟨hdone, rfl, hpool⟩ | ⟨hdone, rfl, hpool⟩⟩ <;> rw [hpool]
  · refine ⟨.missing, rfl, ?_⟩
    have hcleaned : ∀ job (hjob : job < pool.heap.length),
        pool.heap[job].key = (trackId, cueIndex) → pool.heap[job].cleanedUp = true := by
      intro job hjob hkey
      by_contra hclean
      have hmem := (hinv.mem_allJobs job hjob).mpr (by simpa using hclean)
      exact findJob_eq_none hfind hmem hjob hkey
    rcases keyPhase_of_cleanedUp hcleaned with hphase | hphase <;>
      simp [absPoolStep, Lib.keyedStep, KeyAction.key, hphase, keyStep]
  · refine ⟨.busy, rfl, ?_⟩
    obtain ⟨hmem, _, hkey⟩ := findJob_eq_some hfind
    have hclean := (hinv.mem_allJobs job hjob).mp hmem
    have hphase := keyPhase_getElem hnodup hjob
    rw [hkey] at hphase
    simp [absPoolStep, Lib.keyedStep, KeyAction.key, hphase, keyStep, jobPhase, hdone, hclean]
  · refine ⟨.got pool.heap[job].result, rfl, ?_⟩
    obtain ⟨hmem, _, hkey⟩ := findJob_eq_some hfind
    have hclean := (hinv.mem_allJobs job hjob).mp hmem
    have hphase := keyPhase_getElem hnodup hjob
    rw [keyPhase_set hnodup hjob (j := { pool.heap[job] with cleanedUp := true }) rfl, hkey]
    rw [hkey] at hphase
    simp [absPoolStep, Lib.keyedStep, KeyAction.key, hphase, keyStep, jobPhase, hdone, hclean]

/-- Every step of a run that submits under fresh keys is an abstract step of its key, with the
same answer, or an internal step that leaves every key alone. -/
theorem poolStep_visible {action : PoolAction P} {o : PoolEvent P B} {pool' : Pool P B}
    {e : KeyAction (ℤ × ℤ) P} {reply : KeyReply B} (hinv : PoolInv pool)
    (hstep : poolStep render empty pool action = some (o, pool'))
    (hobs : observe (action, o) = some (e, reply)) :
    absPoolStep render (keyPhase pool.heap) e = some (reply, keyPhase pool'.heap) := by
  cases action with
  | submitAsync thread trackId cueIndex params =>
    obtain ⟨-, ⟨rfl, -⟩ | ⟨rfl, -⟩⟩ := submitAsyncDepthCheck_eq_some hstep <;> cases hobs
  | enqueue thread =>
    obtain ⟨key, params, hthread, rfl, rfl⟩ := submitAsyncEnqueue_eq_some hstep
    obtain ⟨rfl, rfl⟩ := Prod.mk.inj (Option.some.inj hobs).symm
    exact absPoolStep_enqueue hinv hthread
  | dequeue worker =>
    obtain ⟨job, rest, -, -, rfl, -⟩ := workerDequeue_eq_some hstep
    cases hobs
  | publish worker =>
    obtain ⟨job, hjob, hworker, rfl, rfl⟩ := workerPublish_eq_some hstep
    obtain ⟨rfl, rfl⟩ := Prod.mk.inj (Option.some.inj hobs).symm
    exact absPoolStep_publish hinv hworker hjob
  | tryGet trackId cueIndex =>
    obtain ⟨reply', rfl, habs⟩ := absPoolStep_tryGet render hinv hstep
    obtain ⟨rfl, rfl⟩ := Prod.mk.inj (Option.some.inj hobs).symm
    exact habs

theorem poolStep_internal {action : PoolAction P} {o : PoolEvent P B} {pool' : Pool P B}
    (hstep : poolStep render empty pool action = some (o, pool')) (hobs : observe (action, o) = none) :
    keyPhase pool'.heap = keyPhase pool.heap := by
  cases action with
  | submitAsync thread trackId cueIndex params =>
    obtain ⟨-, ⟨-, rfl⟩ | ⟨-, rfl⟩⟩ := submitAsyncDepthCheck_eq_some hstep <;> rfl
  | enqueue thread =>
    obtain ⟨key, params, -, rfl, -⟩ := submitAsyncEnqueue_eq_some hstep
    cases hobs
  | dequeue worker =>
    obtain ⟨job, rest, -, -, -, rfl⟩ := workerDequeue_eq_some hstep
    rfl
  | publish worker =>
    obtain ⟨job, hjob, -, rfl, -⟩ := workerPublish_eq_some hstep
    cases hobs
  | tryGet trackId cueIndex =>
    rcases renderPoolTryGet_eq_some hstep with ⟨-, rfl, -⟩ | ⟨job, hjob, -, ⟨-, rfl, -⟩ | ⟨-, rfl, -⟩⟩ <;>
      cases hobs

end Refinement

/-- The render pool refines one machine per key, on the runs that submit under fresh keys. -/
def poolRefinement (render : P → B) (empty : B) :
    Lib.Refinement (poolStep render empty) (absPoolStep (K := ℤ × ℤ) render) FreshKey where
  inv := PoolInv
  abs pool := keyPhase pool.heap
  observe := observe
  inv_step := poolStep_inv
  visible hinv _ hstep hobs := poolStep_visible hinv hstep hobs
  internal _ _ hstep hobs := poolStep_internal hstep hobs

/-! ### Runs with pairwise distinct keys -/

section Runs

variable {render : P → B} {empty : B} {pool pool' : Pool P B} {action : PoolAction P}
  {o : PoolEvent P B}

/-- A step puts no key in use but the one it submits under. -/
theorem mem_usedKeys_step (hstep : poolStep render empty pool action = some (o, pool'))
    {key : ℤ × ℤ} (hkey : key ∈ usedKeys pool') :
    key ∈ usedKeys pool ∨ action.submitKey = some key := by
  cases action with
  | submitAsync thread trackId cueIndex params =>
    obtain ⟨hthread, ⟨-, rfl⟩ | ⟨-, rfl⟩⟩ := submitAsyncDepthCheck_eq_some hstep
    · exact .inl hkey
    · rcases List.mem_cons.mp ((usedKeys_depthCheck hthread).subset hkey) with rfl | hold
      · exact .inr rfl
      · exact .inl hold
  | enqueue thread =>
    obtain ⟨key', params, hthread, -, rfl⟩ := submitAsyncEnqueue_eq_some hstep
    exact .inl ((usedKeys_enqueue hthread rfl rfl rfl).subset hkey)
  | dequeue worker =>
    obtain ⟨job, rest, -, -, -, rfl⟩ := workerDequeue_eq_some hstep
    exact .inl hkey
  | publish worker =>
    obtain ⟨job, hjob, -, -, rfl⟩ := workerPublish_eq_some hstep
    rw [usedKeys_heap_set hjob
      (j := { pool.heap[job] with result := render pool.heap[job].params, done := true }) rfl]
      at hkey
    exact .inl hkey
  | tryGet trackId cueIndex =>
    rcases renderPoolTryGet_eq_some hstep with ⟨-, -, rfl⟩ |
      ⟨job, hjob, -, ⟨-, -, rfl⟩ | ⟨-, -, rfl⟩⟩
    · exact .inl hkey
    · exact .inl hkey
    · rw [usedKeys_heap_set hjob (j := { pool.heap[job] with cleanedUp := true }) rfl] at hkey
      exact .inl hkey

/-- A run whose submissions carry pairwise distinct keys, none of them in use at its start,
submits under a fresh key at every step. -/
theorem allowed_of_nodup :
    ∀ {as : List (PoolAction P)} {pool : Pool P B}, (as.filterMap PoolAction.submitKey).Nodup →
      (∀ key ∈ as.filterMap PoolAction.submitKey, key ∉ usedKeys pool) →
        Lib.Allowed (poolStep render empty) FreshKey pool as
  | [], _, _, _ => trivial
  | a :: as, pool, hnodup, hfresh => by
    have hsub : ∀ key, a.submitKey = some key → key ∈ (a :: as).filterMap PoolAction.submitKey :=
      fun key hkey ↦ by simp [hkey]
    have htail : ∀ key ∈ as.filterMap PoolAction.submitKey,
        key ∈ (a :: as).filterMap PoolAction.submitKey := by
      intro key hkey
      rw [List.filterMap_cons]
      split
      · exact hkey
      · exact List.mem_cons_of_mem _ hkey
    refine ⟨fun key hkey ↦ hfresh key (hsub key hkey), fun o pool₁ hstep ↦ ?_⟩
    have hnodup' : (as.filterMap PoolAction.submitKey).Nodup := by
      rw [List.filterMap_cons] at hnodup
      split at hnodup
      · exact hnodup
      · exact hnodup.of_cons
    refine allowed_of_nodup hnodup' fun key hkey hused ↦ ?_
    rcases mem_usedKeys_step hstep hused with hold | hthis
    · exact hfresh key (htail key hkey) hold
    · rw [List.filterMap_cons_some hthis] at hnodup
      exact (List.nodup_cons.mp hnodup).1 hkey

/-- The event is the dequeue of this job. -/
def PoolEvent.dequeues (job : ℕ) : PoolEvent P B → Bool
  | .dequeued job' => job' == job
  | _ => false

/-- The event is the publish of this job. -/
def PoolEvent.publishes (job : ℕ) : PoolEvent P B → Bool
  | .published _ job' => job' == job
  | _ => false

/-- One while the job is still to be dequeued: queued, or not yet allocated. -/
def toDequeue (job : ℕ) (pool : Pool P B) : ℕ :=
  if job ∈ pool.queue ∨ pool.heap.length ≤ job then 1 else 0

theorem toDequeue_le_of_imp {job : ℕ}
    (h : job ∈ pool'.queue ∨ pool'.heap.length ≤ job → job ∈ pool.queue ∨ pool.heap.length ≤ job) :
    toDequeue job pool' ≤ toDequeue job pool := by
  unfold toDequeue
  split_ifs with h' h''
  · exact Nat.le_refl 1
  · exact absurd (h h') h''
  · exact Nat.zero_le 1
  · exact Nat.le_refl 0

/-- A job leaves the queue once, by its dequeue, and never comes back. -/
theorem toDequeue_step {job : ℕ} (hinv : PoolInv pool)
    (hstep : poolStep render empty pool action = some (o, pool')) :
    toDequeue job pool' + (if o.dequeues job then 1 else 0) ≤ toDequeue job pool := by
  cases action with
  | submitAsync thread trackId cueIndex params =>
    obtain ⟨-, ⟨rfl, rfl⟩ | ⟨rfl, rfl⟩⟩ := submitAsyncDepthCheck_eq_some hstep <;>
      simp [PoolEvent.dequeues, toDequeue]
  | enqueue thread =>
    obtain ⟨key, params, -, rfl, rfl⟩ := submitAsyncEnqueue_eq_some hstep
    simp only [PoolEvent.dequeues, Bool.false_eq_true, ↓reduceIte, Nat.add_zero]
    apply toDequeue_le_of_imp
    simp only [List.mem_append, List.mem_singleton, List.length_append, List.length_singleton]
    rintro ((hmem | rfl) | hle)
    · exact .inl hmem
    · exact .inr (Nat.le_refl _)
    · exact .inr (by omega)
  | dequeue worker =>
    obtain ⟨job', rest, -, hqueue, rfl, rfl⟩ := workerDequeue_eq_some hstep
    by_cases hjob : job' = job
    · subst hjob
      have hnotin : job' ∉ rest := (List.nodup_cons.mp (hqueue ▸ hinv.queue_nodup)).1
      have hlt : job' < pool.heap.length := hinv.queue_lt job' (hqueue ▸ List.mem_cons_self)
      simp [toDequeue, PoolEvent.dequeues, hnotin, hqueue, Nat.not_le.mpr hlt]
    · simp only [PoolEvent.dequeues, beq_iff_eq, hjob, ↓reduceIte, Nat.add_zero]
      apply toDequeue_le_of_imp
      rw [hqueue, List.mem_cons]
      exact Or.imp_left Or.inr
  | publish worker =>
    obtain ⟨job', hjob', -, rfl, rfl⟩ := workerPublish_eq_some hstep
    simp [toDequeue, PoolEvent.dequeues]
  | tryGet trackId cueIndex =>
    rcases renderPoolTryGet_eq_some hstep with ⟨-, rfl, rfl⟩ |
      ⟨job', hjob', -, ⟨-, rfl, rfl⟩ | ⟨-, rfl, rfl⟩⟩ <;> simp [toDequeue, PoolEvent.dequeues]

/-- The workers holding a job: one more at its dequeue, one fewer at its publish. -/
theorem count_holding_step {job : ℕ}
    (hstep : poolStep render empty pool action = some (o, pool')) :
    pool'.workers.count (some job) + (if o.publishes job then 1 else 0) ≤
      pool.workers.count (some job) + (if o.dequeues job then 1 else 0) := by
  cases action with
  | submitAsync thread trackId cueIndex params =>
    obtain ⟨-, ⟨rfl, rfl⟩ | ⟨rfl, rfl⟩⟩ := submitAsyncDepthCheck_eq_some hstep <;>
      simp [PoolEvent.dequeues, PoolEvent.publishes]
  | enqueue thread =>
    obtain ⟨key, params, -, rfl, rfl⟩ := submitAsyncEnqueue_eq_some hstep
    simp [PoolEvent.dequeues, PoolEvent.publishes]
  | dequeue worker =>
    obtain ⟨job', rest, hworker, -, rfl, rfl⟩ := workerDequeue_eq_some hstep
    obtain ⟨hw, hnone⟩ := List.getElem?_eq_some_iff.mp hworker
    simp only [count_set_worker hw, hnone, PoolEvent.dequeues, PoolEvent.publishes]
    split_ifs <;> simp_all
  | publish worker =>
    obtain ⟨job', hjob', hworker, rfl, rfl⟩ := workerPublish_eq_some hstep
    obtain ⟨hw, hsome⟩ := List.getElem?_eq_some_iff.mp hworker
    have hpos : 0 < pool.workers.count (some job') :=
      List.count_pos_iff.mpr (hsome ▸ List.getElem_mem hw)
    simp only [count_set_worker hw, hsome, PoolEvent.dequeues, PoolEvent.publishes]
    by_cases hjob : job' = job
    · subst hjob
      simp only [↓reduceIte, beq_self_eq_true, reduceCtorEq, Nat.add_zero]
      omega
    · simp [hjob]
  | tryGet trackId cueIndex =>
    rcases renderPoolTryGet_eq_some hstep with ⟨-, rfl, rfl⟩ |
      ⟨job', hjob', -, ⟨-, rfl, rfl⟩ | ⟨-, rfl, rfl⟩⟩ <;>
      simp [PoolEvent.dequeues, PoolEvent.publishes]

end Runs

/-! ### The contract over every run -/

/-- Every run of a running pool from its start, whose submissions carry pairwise distinct keys,
keeps the contract of each key and every job in its place. The history of each key is a
promised one: `render_pool_try_get` answers -1 until the job is enqueued, 0 until it is
published, then 1 once with the bitmap drawn from the job's own inputs, and -1 from then on.
No job is dequeued twice or published without its dequeue, and every job is queued, held by
exactly one worker, or published. The contracts of the keys come through the refinement to one
machine per key; the dequeue and publish counts from the invariant that a job is dequeued once,
between its allocation and its dequeue, and held by one worker until its publish. -/
theorem renderPool_runContract (render : P → B) (empty : B) (workerCount submitterCount : ℕ)
    {as : List (PoolAction P)} {tr : List (PoolAction P × PoolEvent P B)} {pool : Pool P B}
    (hkeys : (as.filterMap PoolAction.submitKey).Nodup)
    (hrun : Lib.execRun (poolStep render empty) (Pool.init workerCount submitterCount) as =
      some (tr, pool)) :
    (∀ key, KeyHistory render key ((tr.filterMap observe).filter fun e ↦ e.1.key = key)) ∧
    (∀ job, tr.countP (fun e ↦ e.2.dequeues job) ≤ 1 ∧
      tr.countP (fun e ↦ e.2.publishes job) ≤ tr.countP (fun e ↦ e.2.dequeues job)) ∧
    ∀ job (hjob : job < pool.heap.length),
      JobPlaced (job ∈ pool.queue) (pool.workers.count (some job)) pool.heap[job].done := by
  have hallowed : Lib.Allowed (poolStep render empty) FreshKey
      (Pool.init workerCount submitterCount) as :=
    allowed_of_nodup hkeys (by simp [usedKeys, Pool.init])
  have hinit : PoolInv (Pool.init workerCount submitterCount : Pool P B) :=
    poolInv_init workerCount submitterCount
  refine ⟨fun key ↦ ?_, fun job ↦ ⟨?_, ?_⟩, ?_⟩
  · exact keyHistory_of_absPoolStep ((poolRefinement render empty).execRun_abs hinit hallowed hrun) key
  · have hcount := Lib.countP_le_of_potential PoolInv (toDequeue job)
      (fun e ↦ e.2.dequeues job) (fun _ ↦ false) poolStep_inv
      (fun hinv _ hstep ↦ by simpa using toDequeue_step hinv hstep) hinit hallowed hrun
    simpa [toDequeue, Pool.init] using hcount
  · have hcount := Lib.countP_le_of_potential PoolInv (fun pool ↦ pool.workers.count (some job))
      (fun e ↦ e.2.publishes job) (fun e ↦ e.2.dequeues job) poolStep_inv
      (fun _ _ hstep ↦ count_holding_step hstep) hinit hallowed hrun
    simpa [Pool.init, List.count_replicate] using hcount
  · exact (Lib.execRun_inv PoolInv poolStep_inv hinit hallowed hrun).placed

theorem renderPool_runContract_oneJob :
    let as : List (PoolAction ℕ) :=
      [.tryGet 1 0, .submitAsync 0 1 0 7, .enqueue 0, .tryGet 1 0, .dequeue 0, .tryGet 1 0,
        .publish 0, .tryGet 1 0, .tryGet 1 0]
    ∃ tr pool, Lib.execRun (poolStep (· + 100) 0) (Pool.init 1 1 : Pool ℕ ℕ) as = some (tr, pool) ∧
      (∀ key, KeyHistory (· + 100) key ((tr.filterMap observe).filter fun e ↦ e.1.key = key)) ∧
      (∀ job, tr.countP (fun e ↦ e.2.dequeues job) ≤ 1 ∧
        tr.countP (fun e ↦ e.2.publishes job) ≤ tr.countP (fun e ↦ e.2.dequeues job)) ∧
      ∀ job (hjob : job < pool.heap.length),
        JobPlaced (job ∈ pool.queue) (pool.workers.count (some job)) pool.heap[job].done := by
  intro as
  exact ⟨_, _, rfl, @renderPool_runContract ℕ ℕ (· + 100) 0 1 1 as _ _ (by decide) rfl⟩

end Srt2Dvbsub.RenderPool
