import Srt2Dvbsub.Lib.Refinement

/-!
# The per-track encode buffer

`encode_and_write_subtitle` (`muxsub.c`) encodes each subtitle into a buffer that the track
keeps for the process lifetime. Three fields of the `SubTrack` hold it (`EncodeBuffer`): the
buffer itself, its size `enc_tmpbuf_size` and a counter `enc_tmpbuf_full_count`. A call
allocates the buffer on first use (`allocateEncodeBuffer`), calls `avcodec_encode_subtitle` with
the capacity `SUB_BUF_SIZE`, and then counts results that reach the allocation. The second
such result in a row doubles the allocation, up to `MAX_SUB_BUF_SIZE` (`growEncodeBuffer`).

The calls on one track form a state machine, run with `Lib.execRun` from the zeroed fields of
`SubTrack tracks[8] = {0}`. Each call answers with the encoder call it made (`EncodeCall`):
the capacity it passed and the allocation at that moment. The encoder is any function of the
capacity that returns at most the capacity (`EncoderFits`).

* `encodeAndWriteSubtitle_inv` and `encodeAndWriteSubtitle_call`: one call keeps
  `EncodeBufferInv`, and its encoder call is given `SUB_BUF_SIZE` against an allocation of
  `SUB_BUF_SIZE` or twice that.
* `encodeAndWriteSubtitle_fixedCapacity`: the same for every run. The capacity never exceeds
  the allocation, but it never follows the growth either. Once two results in a row fill the
  first allocation, the buffer is `2 * SUB_BUF_SIZE` bytes and the encoder is still given
  `SUB_BUF_SIZE`. Since no result can then reach the allocation, the buffer never grows again.

Scope. The packet written after the encode call (`av_packet_alloc`, the timestamps and
`av_interleaved_write_frame`), the benchmark counters and the log lines are left out: none of
them reads or writes the three fields.
-/

set_option autoImplicit false
set_option relaxedAutoImplicit false

namespace Srt2Dvbsub.Mux

/-- `SUB_BUF_SIZE`: the first allocation, and the capacity every encoder call is given. -/
def SUB_BUF_SIZE : ℕ := 65536

/-- `MAX_SUB_BUF_SIZE`: the allocation grows up to 1 MiB. -/
def MAX_SUB_BUF_SIZE : ℕ := 2 ^ 20

/-- `FULL_COUNT_THRESHOLD`: the number of full results in a row that makes the buffer grow. -/
def FULL_COUNT_THRESHOLD : ℕ := 2

/-- The encode buffer of a `SubTrack`: whether `enc_tmpbuf` is allocated, `enc_tmpbuf_size`
and `enc_tmpbuf_full_count`. -/
structure EncodeBuffer where
  allocated : Bool
  size : ℕ
  fullCount : ℕ
  deriving DecidableEq, Repr

/-- The fields as `SubTrack tracks[8] = {0}` leaves them. -/
def EncodeBuffer.init : EncodeBuffer := ⟨false, 0, 0⟩

/-- What one call of `encode_and_write_subtitle` meets: whether `sub`, `ctx`, `out_fmt`, the
track and its stream are all present, whether `av_malloc` succeeds, the encoder's result as a
function of the capacity it is given, and whether `av_realloc` succeeds. -/
structure EncodeAction where
  inputsPresent : Bool
  mallocOk : Bool
  encode : ℕ → ℤ
  reallocOk : Bool

/-- The call `avcodec_encode_subtitle(ctx, tmpbuf, capacity, sub)`, with `enc_tmpbuf_size` at
that moment. -/
structure EncodeCall where
  capacity : ℕ
  allocation : ℕ
  deriving DecidableEq, Repr

/-- The encoder writes at most the capacity it is given. -/
def EncoderFits (a : EncodeAction) : Prop := ∀ capacity, a.encode capacity ≤ capacity

/-- The lazy allocation: a missing buffer is allocated with `enc_tmpbuf_size` bytes, or
`SUB_BUF_SIZE` when that is `0`; `none` when `av_malloc` fails and the call returns. -/
def allocateEncodeBuffer (track : EncodeBuffer) (mallocOk : Bool) : Option EncodeBuffer :=
  if track.allocated then some track
  else if mallocOk then
    some { track with allocated := true, size := if track.size ≠ 0 then track.size else SUB_BUF_SIZE }
  else none

/-- `new_size`: twice the allocation, cut to `MAX_SUB_BUF_SIZE`. -/
def grownSize (size : ℕ) : ℕ :=
  if size * 2 > MAX_SUB_BUF_SIZE then MAX_SUB_BUF_SIZE else size * 2

/-- The growth logic after a positive encoder result `size`. -/
def growEncodeBuffer (track : EncodeBuffer) (size : ℕ) (reallocOk : Bool) : EncodeBuffer :=
  if size ≥ track.size then
    let fullCount := track.fullCount + 1
    if fullCount ≥ FULL_COUNT_THRESHOLD ∧ track.size < MAX_SUB_BUF_SIZE then
      -- a failed `av_realloc` keeps the old buffer; the counter is reset either way
      { track with size := if reallocOk then grownSize track.size else track.size, fullCount := 0 }
    else { track with fullCount := fullCount }
  else { track with fullCount := 0 }

/-- `encode_and_write_subtitle` on the encode buffer: the encoder call it makes, if it gets
that far, and the buffer after it. -/
def encodeAndWriteSubtitle (track : EncodeBuffer) (a : EncodeAction) :
    Option EncodeCall × EncodeBuffer :=
  if a.inputsPresent then
    match allocateEncodeBuffer track a.mallocOk with
    | none => (none, track)
    | some track =>
      let call : EncodeCall := ⟨SUB_BUF_SIZE, track.size⟩
      let size := a.encode SUB_BUF_SIZE
      -- no bytes: the call returns and keeps the buffer for reuse
      if size ≤ 0 then (some call, track)
      else (some call, growEncodeBuffer track size.toNat a.reallocOk)
  else (none, track)

/-- The calls on one track as a transition system: every call can run. -/
def encodeStep (track : EncodeBuffer) (a : EncodeAction) :
    Option (Option EncodeCall × EncodeBuffer) :=
  some (encodeAndWriteSubtitle track a)

/-! ### One call -/

/-- What every reachable encode buffer satisfies: no buffer has no size, and a buffer has
`SUB_BUF_SIZE` bytes or twice that. -/
structure EncodeBufferInv (track : EncodeBuffer) : Prop where
  unallocated : track.allocated = false → track.size = 0
  allocated : track.allocated = true → track.size = SUB_BUF_SIZE ∨ track.size = 2 * SUB_BUF_SIZE

theorem encodeBufferInv_init : EncodeBufferInv EncodeBuffer.init where
  unallocated _ := rfl
  allocated h := by simp [EncodeBuffer.init] at h

/-- After the lazy allocation the buffer is there, with one of the two sizes. -/
theorem EncodeBufferInv.allocate {track track₁ : EncodeBuffer} {mallocOk : Bool}
    (hinv : EncodeBufferInv track) (halloc : allocateEncodeBuffer track mallocOk = some track₁) :
    track₁.allocated = true ∧ EncodeBufferInv track₁ := by
  unfold allocateEncodeBuffer at halloc
  by_cases hallocated : track.allocated
  · simp only [hallocated, ↓reduceIte, Option.some.injEq] at halloc
    subst halloc
    exact ⟨hallocated, hinv⟩
  · have hsize : track.size = 0 := hinv.unallocated (by simpa using hallocated)
    cases mallocOk
    · simp [hallocated] at halloc
    · simp only [hallocated, Bool.false_eq_true, ↓reduceIte, Option.some.injEq] at halloc
      subst halloc
      refine ⟨rfl, ⟨fun h ↦ by simp at h, fun _ ↦ ?_⟩⟩
      simp [hsize]

@[simp] theorem growEncodeBuffer_allocated (track : EncodeBuffer) (size : ℕ) (reallocOk : Bool) :
    (growEncodeBuffer track size reallocOk).allocated = track.allocated := by
  unfold growEncodeBuffer
  dsimp only
  split_ifs <;> rfl

/-- The growth keeps the size, or replaces it by `grownSize` after a result that reaches it. -/
theorem growEncodeBuffer_size (track : EncodeBuffer) (size : ℕ) (reallocOk : Bool) :
    (growEncodeBuffer track size reallocOk).size = track.size ∨
      (track.size ≤ size ∧ (growEncodeBuffer track size reallocOk).size = grownSize track.size) := by
  unfold growEncodeBuffer
  dsimp only
  split_ifs with hfull
  · exact .inr ⟨hfull, rfl⟩
  · exact .inl rfl
  · exact .inl rfl
  · exact .inl rfl

theorem grownSize_SUB_BUF_SIZE : grownSize SUB_BUF_SIZE = 2 * SUB_BUF_SIZE := by
  decide

/-- One call keeps the invariant, for every encoder that fits its capacity: the only growth is
from `SUB_BUF_SIZE` to twice that, since no result reaches `2 * SUB_BUF_SIZE`. -/
theorem encodeAndWriteSubtitle_inv {track : EncodeBuffer} {a : EncodeAction}
    (hinv : EncodeBufferInv track) (hfits : EncoderFits a) :
    EncodeBufferInv (encodeAndWriteSubtitle track a).2 := by
  unfold encodeAndWriteSubtitle
  split_ifs
  · split
    · exact hinv
    · next track₁ halloc =>
      obtain ⟨hallocated, hinv₁⟩ := hinv.allocate halloc
      have hresult := hfits SUB_BUF_SIZE
      dsimp only
      split_ifs
      · exact hinv₁
      · refine ⟨fun h ↦ by simp_all, fun _ ↦ ?_⟩
        rcases hinv₁.allocated hallocated with hsize | hsize <;>
          rcases growEncodeBuffer_size track₁ (a.encode SUB_BUF_SIZE).toNat a.reallocOk with
            hgrow | ⟨hreach, hgrow⟩
        · exact .inl (hgrow.trans hsize)
        · exact .inr (by rw [hgrow, hsize, grownSize_SUB_BUF_SIZE])
        · exact .inr (hgrow.trans hsize)
        · simp only [hsize, SUB_BUF_SIZE] at hreach hresult
          omega
  · exact hinv

/-- The encoder call of one call is given `SUB_BUF_SIZE`, against an allocation of
`SUB_BUF_SIZE` or twice that. -/
theorem encodeAndWriteSubtitle_call {track : EncodeBuffer} {a : EncodeAction} {call : EncodeCall}
    (hinv : EncodeBufferInv track) (hcall : (encodeAndWriteSubtitle track a).1 = some call) :
    call.capacity = SUB_BUF_SIZE ∧
      (call.allocation = SUB_BUF_SIZE ∨ call.allocation = 2 * SUB_BUF_SIZE) := by
  unfold encodeAndWriteSubtitle at hcall
  split_ifs at hcall
  · split at hcall
    · cases hcall
    · next track₁ halloc =>
      obtain ⟨hallocated, hinv₁⟩ := hinv.allocate halloc
      have hcall_eq : call = ⟨SUB_BUF_SIZE, track₁.size⟩ := by
        dsimp only at hcall
        split_ifs at hcall <;> exact (Option.some.inj hcall).symm
      subst hcall_eq
      exact ⟨rfl, hinv₁.allocated hallocated⟩

/-! ### Every run -/

/-- Every run of calls on a track, for encoders that write at most the capacity they are given:
the run has a result, every encoder call is given `SUB_BUF_SIZE` while the allocation is
`SUB_BUF_SIZE` or `2 * SUB_BUF_SIZE`, and the final buffer keeps `EncodeBufferInv`. -/
theorem encodeAndWriteSubtitle_fixedCapacity (as : List EncodeAction)
    (hfits : ∀ a ∈ as, EncoderFits a) :
    ∃ tr track, Lib.execRun encodeStep EncodeBuffer.init as = some (tr, track) ∧
      (∀ e ∈ tr, ∀ call, e.2 = some call → call.capacity = SUB_BUF_SIZE ∧
        (call.allocation = SUB_BUF_SIZE ∨ call.allocation = 2 * SUB_BUF_SIZE)) ∧
      EncodeBufferInv track := by
  obtain ⟨tr, track, hrun⟩ := Lib.execRun_isSome
    (fun _ _ ↦ rfl : ∀ s a, (encodeStep s a).isSome) EncodeBuffer.init as
  have hallowed : Lib.Allowed encodeStep (fun _ a ↦ EncoderFits a) EncodeBuffer.init as :=
    Lib.allowed_of_forall_mem _ hfits
  have hstep : ∀ {s a o s₁}, EncodeBufferInv s → EncoderFits a →
      encodeStep s a = some (o, s₁) → EncodeBufferInv s₁ := by
    intro s a o s₁ hs hfit hst
    have hs₁ : (encodeAndWriteSubtitle s a).2 = s₁ := congrArg Prod.snd (Option.some.inj hst)
    exact hs₁ ▸ encodeAndWriteSubtitle_inv hs hfit
  refine ⟨tr, track, hrun, ?_, Lib.execRun_inv EncodeBufferInv hstep encodeBufferInv_init
    hallowed hrun⟩
  refine Lib.execRun_answers EncodeBufferInv _ hstep ?_ encodeBufferInv_init hallowed hrun
  intro s a o s₁ hs _ hst call hcall
  have ho : (encodeAndWriteSubtitle s a).1 = o := congrArg Prod.fst (Option.some.inj hst)
  exact encodeAndWriteSubtitle_call hs (ho.trans hcall)

/-- Three calls whose encoder fills whatever capacity it is given: the second doubles the
buffer, and the third still gives the encoder `SUB_BUF_SIZE` bytes of a buffer of twice that. -/
theorem encodeAndWriteSubtitle_fixedCapacity_fullTwice :
    (Lib.execRun encodeStep EncodeBuffer.init (List.replicate 3 ⟨true, true, fun c ↦ c, true⟩)).map
        (fun r ↦ r.1.map Prod.snd) =
      some [some ⟨SUB_BUF_SIZE, SUB_BUF_SIZE⟩, some ⟨SUB_BUF_SIZE, SUB_BUF_SIZE⟩,
        some ⟨SUB_BUF_SIZE, 2 * SUB_BUF_SIZE⟩] ∧
    ∃ tr track, Lib.execRun encodeStep EncodeBuffer.init
        (List.replicate 3 ⟨true, true, fun c ↦ c, true⟩) = some (tr, track) ∧
      (∀ e ∈ tr, ∀ call, e.2 = some call → call.capacity = SUB_BUF_SIZE ∧
        (call.allocation = SUB_BUF_SIZE ∨ call.allocation = 2 * SUB_BUF_SIZE)) ∧
      EncodeBufferInv track :=
  ⟨by decide, encodeAndWriteSubtitle_fixedCapacity _ fun _ ha _ ↦ by
    obtain rfl := List.eq_of_mem_replicate ha
    exact Int.le_refl _⟩

end Srt2Dvbsub.Mux
