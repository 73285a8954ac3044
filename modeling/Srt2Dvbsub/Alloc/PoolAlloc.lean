import Srt2Dvbsub.Lib.List
import Srt2Dvbsub.Lib.Refinement

/-!
# The buffer pool

`pool_alloc.c` caches freed buffers by size, so that the planes of a subtitle bitmap can be
reused for the next cue. A `Bucket` holds the buffers of one size on a free list, threaded
through the buffers themselves, with a `count`. The buckets form a list, newest first.

* `pool_alloc(size)` (`poolAlloc`) returns `NULL` for `0`. It pops the head of the free list of
  the bucket of that size, zeroed, or else allocates a new zeroed buffer with `av_mallocz`.
* `pool_free(ptr, size)` (`poolFree`) ignores `NULL` and `0`. It finds the bucket of that size,
  creating it when there is none, and pushes the buffer unless the bucket holds
  `MAX_PER_BUCKET` buffers. A full bucket, or a bucket that cannot be allocated, sends the
  buffer to `av_free`.
* `pool_destroy()` (`poolDestroy`) frees every cached buffer and every bucket.

The model runs the three calls as a transition system with `Lib.execRun` (`poolAllocStep`).
Buffers are numbered, and a ghost part of the state records the rest. It keeps the buffers handed out
and not yet freed with the size they were requested with, the size `av_mallocz` gave each
buffer, and the size of each buffer's last `pool_free`. The environment frees only a buffer it
holds, with the size it requested it with (`PoolAllocAllowed`).

* `PoolAllocInv` collects what every reachable pool satisfies. The bucket sizes are distinct; each
  count is the length of its free list, at most `MAX_PER_BUCKET`; no buffer is cached twice, or
  both cached and held; every cached buffer has the size of its bucket and was last freed with
  it. `poolAllocStep_inv` is the step lemma.
* `poolAlloc_spec`: from such a pool, `pool_alloc(size)` gives either a new buffer of that size,
  or the head of the bucket of that size, last freed with it. It gives `NULL` only for `0` or
  when nothing is cached and `av_mallocz` fails.
* `poolRun_contract`: both hold after every allowed run from the empty pool.

Scope. Concurrency is left out: every call holds `buckets_lock` while it reads or writes the
buckets. So the model is the single-threaded sequence of calls. Buffer contents are not
modelled: `memset(node, 0, size)` zeroes the whole buffer because the buffer's size is `size`.
-/

set_option autoImplicit false
set_option relaxedAutoImplicit false

namespace Srt2Dvbsub.Alloc

/-- `MAX_PER_BUCKET`: the most buffers a bucket caches. -/
def MAX_PER_BUCKET : ℕ := 32

/-- A `Bucket`: its size, the buffers on its free list from `head` on, and `count`. -/
structure Bucket where
  size : ℕ
  freeList : List ℕ
  count : ℤ
  deriving DecidableEq, Repr

/-- The pool, `buckets`, with the ghost state of the buffers: the ones handed out and not yet
freed with their requested size (`live`), the size `av_mallocz` gave each buffer
(`allocSize`), the size of each buffer's last `pool_free` (`lastFree`), and the number of the
next buffer `av_mallocz` returns (`nextId`). -/
structure PoolState where
  buckets : List Bucket
  live : List (ℕ × ℕ)
  allocSize : ℕ → ℕ
  lastFree : ℕ → Option ℕ
  nextId : ℕ

/-- The empty pool: `static Bucket *buckets = NULL`, and no buffer yet. -/
def PoolState.init : PoolState := ⟨[], [], fun _ ↦ 0, fun _ ↦ none, 0⟩

/-- The buffers on the free lists of all buckets. -/
def PoolState.cached (st : PoolState) : List ℕ := st.buckets.flatMap Bucket.freeList

/-- `find_bucket_unlocked(size)`: the first bucket of that size. -/
def findBucket (buckets : List Bucket) (size : ℕ) : Option Bucket :=
  buckets.find? (·.size == size)

/-- A write through the pointer `find_bucket_unlocked(size)` returned. -/
def updateBucket (size : ℕ) (f : Bucket → Bucket) (buckets : List Bucket) : List Bucket :=
  Lib.updateFirst (·.size == size) f buckets

/-- The free list of the bucket of `size`, empty when there is no such bucket. -/
def bucketFreeList (buckets : List Bucket) (size : ℕ) : List ℕ :=
  ((findBucket buckets size).map Bucket.freeList).getD []

/-- Pop the head of the free list: `b->head = next; b->count--`. -/
def Bucket.pop (b : Bucket) : Bucket :=
  { b with freeList := b.freeList.tail, count := b.count - 1 }

/-- Push `ptr` onto the free list: `*((void **)ptr) = b->head; b->head = ptr; b->count++`. -/
def Bucket.push (ptr : ℕ) (b : Bucket) : Bucket :=
  { b with freeList := ptr :: b.freeList, count := b.count + 1 }

/-- `pool_alloc(size)` with the outcome of `av_mallocz`: the buffer returned, `none` for `NULL`. -/
def poolAlloc (st : PoolState) (size : ℕ) (mallocOk : Bool) : Option ℕ × PoolState :=
  if size = 0 then (none, st)
  else
    match findBucket st.buckets size with
    | some ⟨_, node :: _, _⟩ =>
      -- pop the head; `memset(node, 0, size)` before it is returned
      (some node,
        { st with
          buckets := updateBucket size Bucket.pop st.buckets
          live := (node, size) :: st.live })
    | _ =>
      -- no cached buffer: a new zeroed one from `av_mallocz(size)`
      if mallocOk then
        (some st.nextId,
          { st with
            live := (st.nextId, size) :: st.live
            allocSize := Function.update st.allocSize st.nextId size
            nextId := st.nextId + 1 })
      else (none, st)

/-- The caller gives `ptr` up: it is no longer held, and was last freed with `size`. -/
def PoolState.release (st : PoolState) (ptr size : ℕ) : PoolState :=
  { st with
    live := st.live.filter (fun q ↦ q.1 != ptr)
    lastFree := Function.update st.lastFree ptr (some size) }

/-- A new empty bucket of `size` at the front: `b->next = buckets; buckets = b`. -/
def PoolState.addBucket (st : PoolState) (size : ℕ) : PoolState :=
  { st with buckets := ⟨size, [], 0⟩ :: st.buckets }

/-- The end of `pool_free` once `b` is the bucket of `size`: push `ptr` while the bucket has
room, else `av_free(ptr)`. -/
def pushOrFree (st : PoolState) (b : Bucket) (size ptr : ℕ) : PoolState :=
  if b.count < MAX_PER_BUCKET then
    { st with buckets := updateBucket size (Bucket.push ptr) st.buckets }
  else st

/-- `pool_free(ptr, size)` with the outcome of the `av_mallocz` of a new bucket. -/
def poolFree (st : PoolState) (ptr : Option ℕ) (size : ℕ) (bucketOk : Bool) : PoolState :=
  match ptr with
  | none => st
  | some p =>
    if size = 0 then st
    else
      match findBucket st.buckets size with
      | some b => pushOrFree (st.release p size) b size p
      | none =>
        -- a bucket that cannot be allocated sends the buffer to `av_free`
        if bucketOk then pushOrFree ((st.release p size).addBucket size) ⟨size, [], 0⟩ size p
        else st.release p size

/-- `pool_destroy()`: every cached buffer and every bucket goes to `av_free`. -/
def poolDestroy (st : PoolState) : PoolState :=
  { st with buckets := [] }

/-- A call on the pool, with the outcomes of the allocations it makes. -/
inductive PoolAllocAction where
  | alloc (size : ℕ) (mallocOk : Bool)
  | free (ptr : Option ℕ) (size : ℕ) (bucketOk : Bool)
  | destroy

/-- The calls as a transition system: `pool_alloc` answers with its buffer. -/
def poolAllocStep (st : PoolState) : PoolAllocAction → Option (Option ℕ × PoolState)
  | .alloc size mallocOk => some (poolAlloc st size mallocOk)
  | .free ptr size bucketOk => some (none, poolFree st ptr size bucketOk)
  | .destroy => some (none, poolDestroy st)

/-- The environment frees only a buffer it holds, with the size it requested it with. -/
def PoolAllocAllowed (st : PoolState) : PoolAllocAction → Prop
  | .free (some p) size _ => (p, size) ∈ st.live
  | _ => True

/-! ### The invariant -/

/-- What the invariant asks of one bucket, under the pool's tables of sizes. -/
structure BucketOk (allocSize : ℕ → ℕ) (lastFree : ℕ → Option ℕ) (b : Bucket) : Prop where
  count_eq : b.count = b.freeList.length
  length_le : b.freeList.length ≤ MAX_PER_BUCKET
  cached_size : ∀ p ∈ b.freeList, allocSize p = b.size ∧ lastFree p = some b.size

/-- What every reachable pool satisfies. -/
structure PoolAllocInv (st : PoolState) : Prop where
  sizes_nodup : (st.buckets.map Bucket.size).Nodup
  buckets_ok : ∀ b ∈ st.buckets, BucketOk st.allocSize st.lastFree b
  cached_nodup : st.cached.Nodup
  live_nodup : (st.live.map Prod.fst).Nodup
  cached_not_live : ∀ p ∈ st.cached, p ∉ st.live.map Prod.fst
  live_size : ∀ q ∈ st.live, st.allocSize q.1 = q.2
  unused : ∀ p, st.nextId ≤ p → p ∉ st.cached ∧ p ∉ st.live.map Prod.fst ∧ st.lastFree p = none

theorem poolAllocInv_init : PoolAllocInv PoolState.init where
  sizes_nodup := List.nodup_nil
  buckets_ok _ h := absurd h List.not_mem_nil
  cached_nodup := List.nodup_nil
  live_nodup := List.nodup_nil
  cached_not_live _ h := absurd h List.not_mem_nil
  live_size _ h := absurd h List.not_mem_nil
  unused _ _ := ⟨List.not_mem_nil, List.not_mem_nil, rfl⟩

/-! ### The bucket list -/

section Buckets

variable {bs : List Bucket} {size : ℕ} {b : Bucket}

theorem findBucket_mem (h : findBucket bs size = some b) : b ∈ bs :=
  List.mem_of_find?_eq_some h

theorem findBucket_size (h : findBucket bs size = some b) : b.size = size := by
  simpa using List.find?_some h

theorem findBucket_eq_none_iff : findBucket bs size = none ↔ size ∉ bs.map Bucket.size := by
  simp [findBucket, List.find?_eq_none]

theorem bucketFreeList_of_found (h : findBucket bs size = some b) :
    bucketFreeList bs size = b.freeList := by
  simp [bucketFreeList, h]

theorem exists_of_bucketFreeList_eq_cons {node : ℕ} {rest : List ℕ}
    (h : bucketFreeList bs size = node :: rest) :
    ∃ b, findBucket bs size = some b ∧ b.freeList = node :: rest := by
  cases hfind : findBucket bs size with
  | none => simp [bucketFreeList, hfind] at h
  | some b => exact ⟨b, rfl, by simpa [bucketFreeList_of_found hfind] using h⟩

/-- A bucket after the write through `find_bucket_unlocked(size)`: the one written, or one that
was there. -/
theorem forall_mem_updateBucket {P : Bucket → Prop} (h : findBucket bs size = some b)
    {f : Bucket → Bucket} (hf : P (f b)) (hbs : ∀ b' ∈ bs, P b') :
    ∀ b' ∈ updateBucket size f bs, P b' := by
  intro b' hb'
  rcases Lib.mem_updateFirst h hb' with rfl | hold
  · exact hf
  · exact hbs b' hold

theorem map_size_updateBucket (h : findBucket bs size = some b) {f : Bucket → Bucket}
    (hf : (f b).size = b.size) : (updateBucket size f bs).map Bucket.size = bs.map Bucket.size :=
  Lib.map_updateFirst h Bucket.size hf

/-- Popping the bucket found takes its head off the cached buffers. -/
theorem cached_pop_perm (h : findBucket bs size = some b) {node : ℕ} {rest : List ℕ}
    (hb : b.freeList = node :: rest) :
    (node :: (updateBucket size Bucket.pop bs).flatMap Bucket.freeList).Perm
      (bs.flatMap Bucket.freeList) := by
  have hperm := Lib.flatMap_updateFirst_perm (f := Bucket.pop) h Bucket.freeList
  rw [hb, show (Bucket.pop b).freeList = rest by simp [Bucket.pop, hb]] at hperm
  rw [← List.perm_append_right_iff rest]
  exact List.perm_middle.symm.trans hperm

/-- Pushing onto the bucket found adds the buffer to the cached ones. -/
theorem cached_push_perm (h : findBucket bs size = some b) (ptr : ℕ) :
    ((updateBucket size (Bucket.push ptr) bs).flatMap Bucket.freeList).Perm
      (ptr :: bs.flatMap Bucket.freeList) := by
  have hperm := Lib.flatMap_updateFirst_perm (f := Bucket.push ptr) h Bucket.freeList
  rw [← List.perm_append_right_iff b.freeList]
  exact hperm.trans List.perm_middle

end Buckets

namespace BucketOk

variable {allocSize : ℕ → ℕ} {lastFree : ℕ → Option ℕ} {b : Bucket}

/-- A bucket's facts read the tables only at its own buffers. -/
theorem congr (hb : BucketOk allocSize lastFree b) {allocSize' : ℕ → ℕ}
    {lastFree' : ℕ → Option ℕ} (ha : ∀ p ∈ b.freeList, allocSize' p = allocSize p)
    (hl : ∀ p ∈ b.freeList, lastFree' p = lastFree p) : BucketOk allocSize' lastFree' b where
  count_eq := hb.count_eq
  length_le := hb.length_le
  cached_size p hp := by
    rw [ha p hp, hl p hp]
    exact hb.cached_size p hp

theorem empty (size : ℕ) : BucketOk allocSize lastFree ⟨size, [], 0⟩ where
  count_eq := rfl
  length_le := Nat.zero_le _
  cached_size _ h := absurd h List.not_mem_nil

theorem pop (hb : BucketOk allocSize lastFree b) (hne : b.freeList ≠ []) :
    BucketOk allocSize lastFree b.pop where
  count_eq := by
    have hpos : 0 < b.freeList.length := List.length_pos_iff.mpr hne
    simp only [Bucket.pop, List.length_tail, hb.count_eq]
    omega
  length_le := by
    have := hb.length_le
    simp only [Bucket.pop, List.length_tail]
    omega
  cached_size p hp := hb.cached_size p (List.mem_of_mem_tail hp)

/-- A push keeps the bucket's facts while the bucket has room and the buffer has its size. -/
theorem push (hb : BucketOk allocSize lastFree b) (hroom : b.count < MAX_PER_BUCKET) {ptr : ℕ}
    (ha : allocSize ptr = b.size) (hl : lastFree ptr = some b.size) :
    BucketOk allocSize lastFree (b.push ptr) where
  count_eq := by
    simp only [Bucket.push, List.length_cons, hb.count_eq]
    omega
  length_le := by
    have := hb.count_eq
    simp only [Bucket.push, List.length_cons]
    omega
  cached_size p hp := by
    rcases List.mem_cons.mp hp with rfl | hp
    · exact ⟨ha, hl⟩
    · exact hb.cached_size p hp

end BucketOk

/-! ### What each call keeps -/

section Steps

variable {st : PoolState}

@[simp] theorem PoolState.release_buckets (ptr size : ℕ) :
    (st.release ptr size).buckets = st.buckets := rfl

@[simp] theorem PoolState.release_allocSize (ptr size : ℕ) :
    (st.release ptr size).allocSize = st.allocSize := rfl

theorem PoolAllocInv.lt_nextId (hinv : PoolAllocInv st) {p : ℕ}
    (h : p ∈ st.cached ∨ p ∈ st.live.map Prod.fst) : p < st.nextId := by
  by_contra hge
  obtain ⟨hcached, hlive, -⟩ := hinv.unused p (Nat.le_of_not_lt hge)
  exact h.elim hcached hlive

/-- A number at or past `nextId` is none of the numbers handed out, a new one below `nextId` put
in front included. -/
theorem not_mem_cons_of_lt {n p x : ℕ} {l : List ℕ} (hx : x < n) (hp : n ≤ p) (hl : p ∉ l) :
    p ∉ x :: l := by
  rintro (_ | ⟨_, hmem⟩)
  · omega
  · exact hl hmem

/-- `pool_alloc` popping the head `node` of the bucket of `size`. -/
theorem PoolAllocInv.pop (hinv : PoolAllocInv st) {size node : ℕ} {rest : List ℕ} {b : Bucket}
    (hfind : findBucket st.buckets size = some b) (hb : b.freeList = node :: rest) :
    PoolAllocInv { st with
      buckets := updateBucket size Bucket.pop st.buckets
      live := (node, size) :: st.live } := by
  have hmem := findBucket_mem hfind
  have hnode : node ∈ b.freeList := hb ▸ List.mem_cons_self
  have hnode_cached : node ∈ st.cached := List.mem_flatMap.mpr ⟨b, hmem, hnode⟩
  have hnode_lt := hinv.lt_nextId (.inl hnode_cached)
  have hperm := cached_pop_perm hfind hb
  have hnodup := List.nodup_cons.mp (hperm.nodup_iff.mpr hinv.cached_nodup)
  have hstays : ∀ p ∈ (updateBucket size Bucket.pop st.buckets).flatMap Bucket.freeList,
      p ∈ st.cached ∧ p ≠ node := fun p hp ↦
    ⟨hperm.subset (List.mem_cons_of_mem node hp), fun hpn ↦ hnodup.1 (hpn ▸ hp)⟩
  constructor
  case sizes_nodup => exact (map_size_updateBucket (f := Bucket.pop) hfind rfl).symm ▸ hinv.sizes_nodup
  case buckets_ok =>
    exact forall_mem_updateBucket hfind
      ((hinv.buckets_ok b hmem).pop (List.ne_nil_of_mem hnode)) hinv.buckets_ok
  case cached_nodup => exact hnodup.2
  case live_nodup => exact List.nodup_cons.mpr ⟨hinv.cached_not_live node hnode_cached, hinv.live_nodup⟩
  case cached_not_live =>
    intro p hp hlive
    obtain ⟨hp_cached, hp_ne⟩ := hstays p hp
    rcases List.mem_cons.mp hlive with hpn | hlive
    · exact hp_ne hpn
    · exact hinv.cached_not_live p hp_cached hlive
  case live_size =>
    refine List.forall_mem_cons.mpr ⟨?_, hinv.live_size⟩
    exact ((hinv.buckets_ok b hmem).cached_size node hnode).1.trans (findBucket_size hfind)
  case unused =>
    intro p (hp : st.nextId ≤ p)
    obtain ⟨hcached, hlive, hfree⟩ := hinv.unused p hp
    exact ⟨fun h ↦ hcached (hstays p h).1, not_mem_cons_of_lt hnode_lt hp hlive, hfree⟩

/-- `pool_alloc` handing out a new buffer from `av_mallocz(size)`. -/
theorem PoolAllocInv.fresh (hinv : PoolAllocInv st) (size : ℕ) :
    PoolAllocInv { st with
      live := (st.nextId, size) :: st.live
      allocSize := Function.update st.allocSize st.nextId size
      nextId := st.nextId + 1 } := by
  obtain ⟨hnot_cached, hnot_live, -⟩ := hinv.unused st.nextId le_rfl
  constructor
  case sizes_nodup => exact hinv.sizes_nodup
  case buckets_ok =>
    intro b hb
    refine (hinv.buckets_ok b hb).congr (fun p hp ↦ Function.update_of_ne ?_ _ _) (fun _ _ ↦ rfl)
    rintro rfl
    exact hnot_cached (List.mem_flatMap.mpr ⟨b, hb, hp⟩)
  case cached_nodup => exact hinv.cached_nodup
  case live_nodup => exact List.nodup_cons.mpr ⟨hnot_live, hinv.live_nodup⟩
  case cached_not_live =>
    intro p hp hlive
    rcases List.mem_cons.mp hlive with rfl | hlive
    · exact hnot_cached hp
    · exact hinv.cached_not_live p hp hlive
  case live_size =>
    refine List.forall_mem_cons.mpr ⟨Function.update_self _ _ _, fun q hq ↦ ?_⟩
    have hne : q.1 ≠ st.nextId := fun h ↦ hnot_live (h ▸ List.mem_map_of_mem hq)
    exact (Function.update_of_ne hne _ _).trans (hinv.live_size q hq)
  case unused =>
    intro p (hp : st.nextId + 1 ≤ p)
    obtain ⟨hcached, hlive, hfree⟩ := hinv.unused p (Nat.le_of_succ_le hp)
    exact ⟨hcached, not_mem_cons_of_lt (Nat.lt_succ_self _) hp hlive, hfree⟩

/-- The caller of `pool_free` gives up a buffer it holds. -/
theorem PoolAllocInv.release (hinv : PoolAllocInv st) {ptr size : ℕ} (hheld : (ptr, size) ∈ st.live) :
    PoolAllocInv (st.release ptr size) := by
  have hptr_live : ptr ∈ st.live.map Prod.fst := List.mem_map_of_mem hheld
  have hptr_lt := hinv.lt_nextId (.inr hptr_live)
  have hsub : (st.live.filter fun q ↦ q.1 != ptr).Sublist st.live := List.filter_sublist
  constructor
  case sizes_nodup => exact hinv.sizes_nodup
  case buckets_ok =>
    intro b hb
    refine (hinv.buckets_ok b hb).congr (fun _ _ ↦ rfl) (fun p hp ↦ Function.update_of_ne ?_ _ _)
    rintro rfl
    exact hinv.cached_not_live p (List.mem_flatMap.mpr ⟨b, hb, hp⟩) hptr_live
  case cached_nodup => exact hinv.cached_nodup
  case live_nodup => exact hinv.live_nodup.sublist (hsub.map Prod.fst)
  case cached_not_live =>
    exact fun p hp hlive ↦ hinv.cached_not_live p hp ((hsub.map Prod.fst).subset hlive)
  case live_size => exact fun q hq ↦ hinv.live_size q (hsub.subset hq)
  case unused =>
    intro p (hp : st.nextId ≤ p)
    obtain ⟨hcached, hlive, hfree⟩ := hinv.unused p hp
    refine ⟨hcached, fun h ↦ hlive ((hsub.map Prod.fst).subset h), ?_⟩
    exact (Function.update_of_ne (by omega) _ _).trans hfree

/-- The end of `pool_free` with the bucket `b` of `size`, for a buffer that nobody holds, that
is not cached, and that has the size `size` and was last freed with it. -/
theorem PoolAllocInv.pushOrFree_of_find (hinv : PoolAllocInv st) {size ptr : ℕ} {b : Bucket}
    (hfind : findBucket st.buckets size = some b) (hcached : ptr ∉ st.cached)
    (hlive : ptr ∉ st.live.map Prod.fst) (halloc : st.allocSize ptr = size)
    (hfree : st.lastFree ptr = some size) : PoolAllocInv (pushOrFree st b size ptr) := by
  unfold pushOrFree
  split_ifs with hroom
  · have hmem := findBucket_mem hfind
    have hsize := findBucket_size hfind
    have hperm := cached_push_perm hfind ptr
    have hptr_lt : ptr < st.nextId := by
      by_contra hge
      rw [(hinv.unused ptr (Nat.le_of_not_lt hge)).2.2] at hfree
      exact Option.some_ne_none size hfree.symm
    constructor
    case sizes_nodup =>
      exact (map_size_updateBucket (f := Bucket.push ptr) hfind rfl).symm ▸ hinv.sizes_nodup
    case buckets_ok =>
      refine forall_mem_updateBucket hfind ?_ hinv.buckets_ok
      exact (hinv.buckets_ok b hmem).push hroom (halloc.trans hsize.symm) (hsize ▸ hfree)
    case cached_nodup =>
      exact hperm.nodup_iff.mpr (List.nodup_cons.mpr ⟨hcached, hinv.cached_nodup⟩)
    case live_nodup => exact hinv.live_nodup
    case cached_not_live =>
      intro p hp hp_live
      rcases List.mem_cons.mp (hperm.subset hp) with rfl | hp
      · exact hlive hp_live
      · exact hinv.cached_not_live p hp hp_live
    case live_size => exact hinv.live_size
    case unused =>
      intro p (hp : st.nextId ≤ p)
      obtain ⟨hc, hl, hf⟩ := hinv.unused p hp
      exact ⟨fun h ↦ not_mem_cons_of_lt hptr_lt hp hc (hperm.subset h), hl, hf⟩
  · exact hinv

/-- `pool_free` creating the bucket of `size`, which no bucket had. -/
theorem PoolAllocInv.addBucket (hinv : PoolAllocInv st) {size : ℕ}
    (hnone : findBucket st.buckets size = none) : PoolAllocInv (st.addBucket size) where
  sizes_nodup := List.nodup_cons.mpr ⟨findBucket_eq_none_iff.mp hnone, hinv.sizes_nodup⟩
  buckets_ok := List.forall_mem_cons.mpr ⟨BucketOk.empty size, hinv.buckets_ok⟩
  cached_nodup := hinv.cached_nodup
  live_nodup := hinv.live_nodup
  cached_not_live := hinv.cached_not_live
  live_size := hinv.live_size
  unused := hinv.unused

theorem findBucket_addBucket (size : ℕ) :
    findBucket (st.addBucket size).buckets size = some ⟨size, [], 0⟩ := by
  simp [findBucket, PoolState.addBucket]

theorem PoolAllocInv.poolDestroy (hinv : PoolAllocInv st) : PoolAllocInv (poolDestroy st) where
  sizes_nodup := List.nodup_nil
  buckets_ok _ h := absurd h List.not_mem_nil
  cached_nodup := List.nodup_nil
  live_nodup := hinv.live_nodup
  cached_not_live _ h := absurd h List.not_mem_nil
  live_size := hinv.live_size
  unused p hp := ⟨List.not_mem_nil, (hinv.unused p hp).2⟩

end Steps

/-! ### The calls -/

section Calls

variable {st : PoolState}

/-- Everything `pool_alloc(size)` can do: answer `NULL` and change nothing, pop the head of the
bucket of `size`, or hand out a new buffer. -/
theorem poolAlloc_cases (st : PoolState) (size : ℕ) (mallocOk : Bool) :
    (poolAlloc st size mallocOk = (none, st) ∧
      (size = 0 ∨ (bucketFreeList st.buckets size = [] ∧ mallocOk = false))) ∨
    (∃ b node rest, size ≠ 0 ∧ findBucket st.buckets size = some b ∧ b.freeList = node :: rest ∧
      poolAlloc st size mallocOk = (some node, { st with
        buckets := updateBucket size Bucket.pop st.buckets
        live := (node, size) :: st.live })) ∨
    (size ≠ 0 ∧ bucketFreeList st.buckets size = [] ∧ mallocOk = true ∧
      poolAlloc st size mallocOk = (some st.nextId, { st with
        live := (st.nextId, size) :: st.live
        allocSize := Function.update st.allocSize st.nextId size
        nextId := st.nextId + 1 })) := by
  by_cases hsize : size = 0
  · exact .inl ⟨by simp [poolAlloc, hsize], .inl hsize⟩
  rcases hcache : bucketFreeList st.buckets size with _ | ⟨node, rest⟩
  · have hcall : poolAlloc st size mallocOk = if mallocOk then (some st.nextId, { st with
        live := (st.nextId, size) :: st.live
        allocSize := Function.update st.allocSize st.nextId size
        nextId := st.nextId + 1 }) else (none, st) := by
      unfold poolAlloc
      rw [if_neg hsize]
      split
      · next hfind => simp [bucketFreeList_of_found hfind] at hcache
      · rfl
    cases mallocOk
    · exact .inl ⟨hcall, .inr ⟨rfl, rfl⟩⟩
    · exact .inr (.inr ⟨hsize, rfl, rfl, hcall⟩)
  · obtain ⟨b, hfind, hb⟩ := exists_of_bucketFreeList_eq_cons hcache
    refine .inr (.inl ⟨b, node, rest, hsize, hfind, hb, ?_⟩)
    obtain ⟨bsize, freeList, count⟩ := b
    subst hb
    simp only [poolAlloc, if_neg hsize, hfind]

theorem PoolAllocInv.poolAlloc (hinv : PoolAllocInv st) (size : ℕ) (mallocOk : Bool) :
    PoolAllocInv (poolAlloc st size mallocOk).2 := by
  rcases poolAlloc_cases st size mallocOk with
    ⟨hcall, -⟩ | ⟨b, node, rest, -, hfind, hb, hcall⟩ | ⟨-, -, -, hcall⟩
  · rw [hcall]
    exact hinv
  · rw [hcall]
    exact hinv.pop hfind hb
  · rw [hcall]
    exact hinv.fresh size

theorem poolFree_of_find {ptr size : ℕ} {b : Bucket} (bucketOk : Bool) (hsize : size ≠ 0)
    (hfind : findBucket st.buckets size = some b) :
    poolFree st (some ptr) size bucketOk = pushOrFree (st.release ptr size) b size ptr := by
  simp only [poolFree, if_neg hsize, hfind]

theorem poolFree_of_find_eq_none {ptr size : ℕ} (bucketOk : Bool) (hsize : size ≠ 0)
    (hnone : findBucket st.buckets size = none) :
    poolFree st (some ptr) size bucketOk =
      if bucketOk then pushOrFree ((st.release ptr size).addBucket size) ⟨size, [], 0⟩ size ptr
      else st.release ptr size := by
  simp only [poolFree, if_neg hsize, hnone]

/-- `pool_free` of a buffer the caller holds with `size` keeps the invariant, whichever of its
branches it takes. -/
theorem PoolAllocInv.poolFree (hinv : PoolAllocInv st) {ptr : Option ℕ} {size : ℕ} (bucketOk : Bool)
    (hheld : ∀ p, ptr = some p → (p, size) ∈ st.live) :
    PoolAllocInv (poolFree st ptr size bucketOk) := by
  rcases ptr with _ | p
  · exact hinv
  by_cases hsize : size = 0
  · subst hsize
    exact hinv
  have hp := hheld p rfl
  have hrel := hinv.release hp
  have hcached : p ∉ (st.release p size).cached :=
    fun h ↦ hinv.cached_not_live p h (List.mem_map_of_mem hp)
  have hlive : p ∉ (st.release p size).live.map Prod.fst := by
    simp [PoolState.release]
  have halloc : (st.release p size).allocSize p = size := hinv.live_size _ hp
  have hfree : (st.release p size).lastFree p = some size := Function.update_self _ _ _
  cases hfind : findBucket st.buckets size with
  | some b =>
    rw [poolFree_of_find bucketOk hsize hfind]
    exact hrel.pushOrFree_of_find hfind hcached hlive halloc hfree
  | none =>
    rw [poolFree_of_find_eq_none bucketOk hsize hfind]
    cases bucketOk
    · exact hrel
    · exact (hrel.addBucket hfind).pushOrFree_of_find (findBucket_addBucket size) hcached hlive
        halloc hfree

/-- The step lemma: every call the environment may make keeps the invariant. -/
theorem poolAllocStep_inv {st₁ : PoolState} {a : PoolAllocAction} {o : Option ℕ}
    (hinv : PoolAllocInv st) (hallowed : PoolAllocAllowed st a)
    (hstep : poolAllocStep st a = some (o, st₁)) : PoolAllocInv st₁ := by
  cases a with
  | alloc size mallocOk =>
    obtain rfl := congrArg Prod.snd (Option.some.inj hstep)
    exact hinv.poolAlloc size mallocOk
  | free ptr size bucketOk =>
    obtain rfl := congrArg Prod.snd (Option.some.inj hstep)
    refine hinv.poolFree bucketOk fun p hp ↦ ?_
    subst hp
    exact hallowed
  | destroy =>
    obtain rfl := congrArg Prod.snd (Option.some.inj hstep)
    exact hinv.poolDestroy

/-- No call blocks. -/
theorem poolAllocStep_isSome (st : PoolState) (a : PoolAllocAction) :
    (poolAllocStep st a).isSome := by
  cases a <;> rfl

end Calls

/-! ### What `pool_alloc` answers -/

/-- What `pool_alloc(size)` answers from `st`. It is `NULL` exactly when `size` is `0`, or
when the bucket of `size` caches nothing and `av_mallocz` fails. A buffer it answers is then
held with `size`, and is `size` bytes long, so that the `memset` or `av_mallocz` zeroed all
of it; and it is either new (not cached, not held, never freed) or it was cached and last
freed with `size`. -/
structure AllocSpec (st : PoolState) (size : ℕ) (mallocOk : Bool) : Prop where
  null_iff : (poolAlloc st size mallocOk).1 = none ↔
    size = 0 ∨ (bucketFreeList st.buckets size = [] ∧ mallocOk = false)
  buffer : ∀ p, (poolAlloc st size mallocOk).1 = some p →
    (p, size) ∈ (poolAlloc st size mallocOk).2.live ∧
    (poolAlloc st size mallocOk).2.allocSize p = size ∧
    ((p ∉ st.cached ∧ p ∉ st.live.map Prod.fst ∧ st.lastFree p = none) ∨
      (p ∈ st.cached ∧ st.lastFree p = some size))

/-- `pool_alloc` meets `AllocSpec` from every pool that keeps the invariant. -/
theorem poolAlloc_spec {st : PoolState} (hinv : PoolAllocInv st) (size : ℕ) (mallocOk : Bool) :
    AllocSpec st size mallocOk := by
  rcases poolAlloc_cases st size mallocOk with
    ⟨hcall, hnull⟩ | ⟨b, node, rest, hsize, hfind, hb, hcall⟩ | ⟨hsize, -, rfl, hcall⟩
  · refine ⟨by simp [hcall, hnull], fun p hp ↦ ?_⟩
    simp [hcall] at hp
  · have hmem := findBucket_mem hfind
    have hnode : node ∈ b.freeList := hb ▸ List.mem_cons_self
    have hsizes := (hinv.buckets_ok b hmem).cached_size node hnode
    rw [findBucket_size hfind] at hsizes
    refine ⟨?_, fun p hp ↦ ?_⟩
    · simp [hcall, hsize, bucketFreeList_of_found hfind, hb]
    · rw [hcall, Option.some.injEq] at hp
      subst hp
      rw [hcall]
      exact ⟨List.mem_cons_self, hsizes.1,
        .inr ⟨List.mem_flatMap.mpr ⟨b, hmem, hnode⟩, hsizes.2⟩⟩
  · refine ⟨by simp [hcall, hsize], fun p hp ↦ ?_⟩
    rw [hcall, Option.some.injEq] at hp
    subst hp
    rw [hcall]
    exact ⟨List.mem_cons_self, Function.update_self _ _ _, .inl (hinv.unused _ le_rfl)⟩

/-- After every run of `pool_alloc`, `pool_free` and `pool_destroy` from the empty pool in
which each `pool_free` gives back a buffer the caller holds with its requested size, the pool
keeps its invariant, and the next `pool_alloc` of any size answers as `AllocSpec` says. -/
theorem poolRun_contract (as : List PoolAllocAction)
    (hallowed : Lib.Allowed poolAllocStep PoolAllocAllowed PoolState.init as) :
    ∃ tr st, Lib.execRun poolAllocStep PoolState.init as = some (tr, st) ∧ PoolAllocInv st ∧
      ∀ size mallocOk, AllocSpec st size mallocOk := by
  obtain ⟨tr, st, hrun⟩ := Lib.execRun_isSome poolAllocStep_isSome PoolState.init as
  have hinv : PoolAllocInv st :=
    Lib.execRun_inv PoolAllocInv poolAllocStep_inv poolAllocInv_init hallowed hrun
  exact ⟨tr, st, hrun, hinv, poolAlloc_spec hinv⟩

/-- A buffer of 16 bytes is freed and taken again: the second `pool_alloc` reuses it although
`av_mallocz` would fail. -/
theorem poolRun_contract_reuse :
    Lib.Allowed poolAllocStep PoolAllocAllowed PoolState.init
        [.alloc 16 true, .free (some 0) 16 true, .alloc 16 false] ∧
    ∃ tr st, Lib.execRun poolAllocStep PoolState.init
        [.alloc 16 true, .free (some 0) 16 true, .alloc 16 false] = some (tr, st) ∧
      PoolAllocInv st ∧ ∀ size mallocOk, AllocSpec st size mallocOk :=
  have hallowed : Lib.Allowed poolAllocStep PoolAllocAllowed PoolState.init
      [.alloc 16 true, .free (some 0) 16 true, .alloc 16 false] :=
    Lib.allowed_cons trivial rfl
      (Lib.allowed_cons List.mem_cons_self rfl (Lib.allowed_cons trivial rfl trivial))
  ⟨hallowed, poolRun_contract _ hallowed⟩

/-- `pool_alloc(0)` answers `NULL`, and so does `pool_alloc(16)` from the empty pool when
`av_mallocz` fails: neither a new buffer nor one freed before. -/
theorem poolAlloc_null :
    (poolAlloc PoolState.init 0 true).1 = none ∧ (poolAlloc PoolState.init 16 false).1 = none :=
  ⟨rfl, rfl⟩

end Srt2Dvbsub.Alloc
