import Srt2Dvbsub.Lib.Refinement

/-!
# The string vector of the batch driver

`StrVec` (`batch_encode.c`) is a growable array of string pointers: `data` has `cap` slots, of
which the first `len` are the vector's items. `strvec_reserve` grows the capacity to 8 and then
by doubling, `strvec_push` writes slot `len` and counts it, `strvec_push_null` writes a `NULL`
into slot `len` without counting it (the terminator of an `argv`), `strvec_pop` uncounts the
last item, and `strvec_detach` and `strvec_free` leave the vector empty.

What a `StrVec` is for is a list of pointers that grows at the end (`listAct`). The model runs
the operations as a transition system (`strvecStep`), with the outcome of every `realloc` and
`strdup` as part of the operation, and `strvecRefinement` shows that the items of the vector
follow the list: a successful push appends, a pop removes the last item, a detach hands the
items over, and a failed operation or a `NULL` terminator leaves the items as they were. Along
the way the capacity stays 0 or 8 times a power of two, and never below `len`
(`StrVecInv`); `strvec_run` collects the result for every run of operations.

Scope. The slots that `realloc` adds hold indeterminate pointers in C; the model fills them
with `none`, and no operation reads a slot before writing it. `strvec_join` is modelled on the
items (`Batch.strvecJoin`); its `malloc` is left out.
-/

set_option autoImplicit false
set_option relaxedAutoImplicit false

namespace Srt2Dvbsub.Batch

/-! ### The operations -/

/-- A `StrVec`: its `cap` slots (`none` for `NULL`, and for a slot not yet written), and
`len`. -/
structure StrVec where
  data : List (Option (List Char))
  len : ℕ
  cap : ℕ
  deriving DecidableEq, Repr

/-- `strvec_init`, and the vector `strvec_free` and `strvec_detach` leave. -/
def StrVec.empty : StrVec := ⟨[], 0, 0⟩

/-- The items of the vector: its first `len` slots. -/
def StrVec.items (sv : StrVec) : List (Option (List Char)) := sv.data.take sv.len

/-- The loop `while (new_cap < need) new_cap *= 2` of `strvec_reserve`, from a positive
capacity (the loop does not end from 0, which `strvec_reserve` never starts from). -/
def doubleUntil (c need : ℕ) : ℕ :=
  if 0 < c ∧ c < need then doubleUntil (2 * c) need else c
termination_by need - c

/-- `strvec_reserve(sv, need)`: `none` for `-1`, when `realloc` fails. -/
def StrVec.reserve (sv : StrVec) (need : ℕ) (reallocOk : Bool) : Option StrVec :=
  if need ≤ sv.cap then some sv
  else
    let newCap := doubleUntil (if sv.cap = 0 then 8 else sv.cap * 2) need
    if reallocOk then some ⟨sv.data ++ List.replicate (newCap - sv.cap) none, sv.len, newCap⟩
    else none

/-- `strvec_push(sv, value)`: the vector takes the pointer into slot `len`. -/
def StrVec.push (sv : StrVec) (value : Option (List Char)) (reallocOk : Bool) : Option StrVec :=
  (sv.reserve (sv.len + 1) reallocOk).map fun sv ↦
    { sv with data := sv.data.set sv.len value, len := sv.len + 1 }

/-- `strvec_push_dup(sv, value)`: `-1` for a `NULL` value or a failed `strdup`. -/
def StrVec.pushDup (sv : StrVec) (value : Option (List Char)) (dupOk reallocOk : Bool) :
    Option StrVec :=
  match value with
  | none => none
  | some v => if dupOk then sv.push (some v) reallocOk else none

/-- `strvec_push_null(sv)`: a `NULL` in slot `len`, which is not counted. -/
def StrVec.pushNull (sv : StrVec) (reallocOk : Bool) : Option StrVec :=
  (sv.reserve (sv.len + 1) reallocOk).map fun sv ↦ { sv with data := sv.data.set sv.len none }

/-- An operation on a vector, with the outcome of its allocations. -/
inductive StrVecOp where
  | push (value : Option (List Char)) (reallocOk : Bool)
  | pushDup (value : Option (List Char)) (dupOk reallocOk : Bool)
  | pushNull (reallocOk : Bool)
  | pop
  | detach
  | free
  deriving DecidableEq, Repr

/-- What an operation answers: a return code, the item `strvec_pop` hands out, or the array and
length `strvec_detach` hands out. -/
inductive StrVecAnswer where
  | rc (r : ℤ)
  | popped (v : Option (List Char))
  | detached (data : List (Option (List Char))) (len : ℕ)
  deriving DecidableEq, Repr

/-- A result `0` with the vector after a successful operation, and `-1` with the vector
unchanged after a failed one. -/
def rcOf (sv : StrVec) : Option StrVec → StrVecAnswer × StrVec
  | some sv' => (.rc 0, sv')
  | none => (.rc (-1), sv)

/-- One operation on the vector. -/
def strvecStep (sv : StrVec) : StrVecOp → Option (StrVecAnswer × StrVec)
  | .push value reallocOk => some (rcOf sv (sv.push value reallocOk))
  | .pushDup value dupOk reallocOk => some (rcOf sv (sv.pushDup value dupOk reallocOk))
  | .pushNull reallocOk => some (rcOf sv (sv.pushNull reallocOk))
  | .pop =>
    some (if sv.len = 0 then (.rc (-1), sv)
      else (.popped (sv.data.getD (sv.len - 1) none), { sv with len := sv.len - 1 }))
  | .detach => some (.detached sv.data sv.len, .empty)
  | .free => some (.rc 0, .empty)

/-! ### The list a vector stands for -/

/-- An operation on a list that grows at the end. -/
inductive ListAction where
  | append (v : Option (List Char))
  | removeLast
  | takeAll
  | clear
  deriving DecidableEq, Repr

/-- The list operations, answered with what they hand out. -/
def listAct (l : List (Option (List Char))) :
    ListAction → Option (List (Option (List Char)) × List (Option (List Char)))
  | .append v => some ([], l ++ [v])
  | .removeLast => some (l.getLast?.toList, l.dropLast)
  | .takeAll => some (l, [])
  | .clear => some ([], [])

/-- The list operation a vector operation performs, with its answer; a failed operation and a
`NULL` terminator perform none. -/
def observeStrVec : StrVecOp × StrVecAnswer →
    Option (ListAction × List (Option (List Char)))
  | (.push v _, .rc 0) => some (.append v, [])
  | (.pushDup v _ _, .rc 0) => some (.append v, [])
  | (.pop, .popped v) => some (.removeLast, [v])
  | (.detach, .detached data len) => some (.takeAll, data.take len)
  | (.free, _) => some (.clear, [])
  | _ => none

/-! ### Growth -/

/-- From a positive capacity the doubling ends at or above `need`, at the capacity times a power
of two. -/
theorem doubleUntil_spec {c : ℕ} (need : ℕ) (hc : 0 < c) :
    need ≤ doubleUntil c need ∧ ∃ k, doubleUntil c need = c * 2 ^ k := by
  fun_induction doubleUntil c need with
  | case1 c hgrow ih =>
    obtain ⟨hneed, k, hk⟩ := ih (by omega)
    exact ⟨hneed, k + 1, by rw [hk, pow_succ]; ring⟩
  | case2 c hstop => exact ⟨by omega, 0, by simp⟩

/-- What a vector keeps: `cap` slots, at least `len` of them, and a capacity of 0 or 8 times a
power of two. -/
structure StrVecInv (sv : StrVec) : Prop where
  length_data : sv.data.length = sv.cap
  len_le : sv.len ≤ sv.cap
  cap_shape : sv.cap = 0 ∨ ∃ k, sv.cap = 8 * 2 ^ k

theorem strVecInv_empty : StrVecInv .empty := ⟨rfl, le_rfl, .inl rfl⟩

section Reserve

variable {sv sv' : StrVec} {need : ℕ} {reallocOk : Bool}

/-- A successful reserve keeps the invariant and the items, and leaves room for `need`
slots. -/
theorem StrVecInv.reserve (hinv : StrVecInv sv) (h : sv.reserve need reallocOk = some sv') :
    StrVecInv sv' ∧ need ≤ sv'.cap ∧ sv'.len = sv.len ∧ sv'.data.take sv.len = sv.items := by
  dsimp only [StrVec.reserve] at h
  set start := if sv.cap = 0 then 8 else sv.cap * 2 with hstart_def
  by_cases hroom : need ≤ sv.cap
  · rw [if_pos hroom] at h
    obtain rfl := Option.some.inj h
    exact ⟨hinv, hroom, rfl, rfl⟩
  · rw [if_neg hroom] at h
    cases reallocOk
    · cases h
    obtain rfl := Option.some.inj h
    have hstart : 0 < start := by rw [hstart_def]; split_ifs <;> omega
    obtain ⟨hneed, k, hk⟩ := doubleUntil_spec need hstart
    have hshape : ∃ j, start = 8 * 2 ^ j := by
      rw [hstart_def]
      split_ifs with hzero
      · exact ⟨0, rfl⟩
      · obtain ⟨j, hj⟩ := hinv.cap_shape.resolve_left hzero
        exact ⟨j + 1, by rw [hj, pow_succ]; ring⟩
    obtain ⟨j, hj⟩ := hshape
    have hlen := hinv.len_le
    refine ⟨⟨?_, ?_, .inr ⟨j + k, ?_⟩⟩, hneed, rfl, ?_⟩
    · simp only [List.length_append, List.length_replicate, hinv.length_data]
      omega
    · show sv.len ≤ doubleUntil start need
      omega
    · show doubleUntil start need = 8 * 2 ^ (j + k)
      rw [hk, hj, pow_add]
      ring
    · show List.take sv.len (sv.data ++ _) = sv.items
      rw [List.take_append_of_le_length (by rw [hinv.length_data]; exact hlen)]
      rfl

end Reserve

/-- Writing slot `n` of a list longer than `n` and taking one more slot appends the value. -/
theorem take_succ_set {α : Type*} {l : List α} {n : ℕ} (hn : n < l.length) (v : α) :
    (l.set n v).take (n + 1) = l.take n ++ [v] := by
  rw [List.take_add_one, List.take_set_of_le le_rfl, List.getElem?_set_self hn, Option.toList_some]

section Operations

variable {sv sv' : StrVec}

/-- A successful push keeps the invariant and appends the value to the items. -/
theorem StrVecInv.push (hinv : StrVecInv sv) {value : Option (List Char)} {reallocOk : Bool}
    (h : sv.push value reallocOk = some sv') : StrVecInv sv' ∧ sv'.items = sv.items ++ [value] := by
  obtain ⟨sv₁, hres, rfl⟩ := Option.map_eq_some_iff.mp h
  obtain ⟨hinv₁, hroom, hlen, hitems⟩ := hinv.reserve hres
  have hslot : sv₁.len < sv₁.data.length := by rw [hinv₁.length_data]; omega
  refine ⟨⟨by simp [hinv₁.length_data], by simp only; omega, hinv₁.cap_shape⟩, ?_⟩
  simp only [StrVec.items]
  rw [take_succ_set hslot, hlen, hitems]
  rfl

/-- A successful `NULL` push keeps the invariant and the items, and leaves a `NULL` right after
them, within the capacity. -/
theorem StrVecInv.pushNull (hinv : StrVecInv sv) {reallocOk : Bool}
    (h : sv.pushNull reallocOk = some sv') :
    StrVecInv sv' ∧ sv'.items = sv.items ∧ sv'.len < sv'.cap ∧ sv'.data.getD sv'.len none = none := by
  obtain ⟨sv₁, hres, rfl⟩ := Option.map_eq_some_iff.mp h
  obtain ⟨hinv₁, hroom, hlen, hitems⟩ := hinv.reserve hres
  have hslot : sv₁.len < sv₁.data.length := by rw [hinv₁.length_data]; omega
  refine ⟨⟨by simp [hinv₁.length_data], hinv₁.len_le, hinv₁.cap_shape⟩, ?_, ?_, ?_⟩
  · simp only [StrVec.items]
    rw [List.take_set_of_le le_rfl, hlen, hitems]
    rfl
  · show sv₁.len < sv₁.cap
    omega
  · simp [List.getD_eq_getElem?_getD, List.getElem?_set_self hslot]

/-- A pop keeps the invariant, removes the last item, and hands it out. -/
theorem StrVecInv.pop (hinv : StrVecInv sv) (hlen : sv.len ≠ 0) :
    StrVecInv { sv with len := sv.len - 1 } ∧
      StrVec.items { sv with len := sv.len - 1 } = sv.items.dropLast ∧
      sv.items.getLast? = some (sv.data.getD (sv.len - 1) none) := by
  have hlt : sv.len - 1 < sv.data.length := by rw [hinv.length_data]; have := hinv.len_le; omega
  refine ⟨⟨hinv.length_data, Nat.sub_le_of_le_add (Nat.le_add_right_of_le hinv.len_le), hinv.cap_shape⟩, ?_, ?_⟩
  · simp only [StrVec.items]
    have hle := hinv.len_le
    rw [List.dropLast_eq_take, List.take_take, List.length_take, hinv.length_data]
    congr 1
    omega
  · simp only [StrVec.items]
    rw [List.getLast?_take, if_neg hlen, List.getElem?_eq_getElem hlt, Option.some_or,
      List.getD_eq_getElem?_getD, List.getElem?_eq_getElem hlt, Option.getD_some]

end Operations

/-! ### Allocations that succeed -/

section Succeed

variable {sv : StrVec}

/-- With `realloc` succeeding, `strvec_reserve` succeeds. -/
theorem StrVec.reserve_true_isSome (sv : StrVec) (need : ℕ) : (sv.reserve need true).isSome := by
  unfold StrVec.reserve
  by_cases hroom : need ≤ sv.cap
  · rw [if_pos hroom]
    rfl
  · rw [if_neg hroom]
    rfl

/-- The items of a vector that keeps the invariant are `len` slots. -/
theorem StrVecInv.length_items (hinv : StrVecInv sv) : sv.items.length = sv.len := by
  rw [StrVec.items, List.length_take, hinv.length_data]
  exact min_eq_left hinv.len_le

/-- A slot below `len` is the item there. -/
theorem StrVec.getD_data (sv : StrVec) {i : ℕ} (hi : i < sv.len) :
    sv.data.getD i none = sv.items.getD i none := by
  rw [StrVec.items, List.getD_eq_getElem?_getD, List.getD_eq_getElem?_getD, List.getElem?_take_of_lt hi]

/-- With `realloc` succeeding, a push succeeds and appends the value. -/
theorem StrVecInv.push_true (hinv : StrVecInv sv) (value : Option (List Char)) :
    ∃ sv', sv.push value true = some sv' ∧ StrVecInv sv' ∧ sv'.items = sv.items ++ [value] := by
  have hsome : (sv.push value true).isSome := by
    rw [StrVec.push, Option.isSome_map]
    exact sv.reserve_true_isSome _
  obtain ⟨sv', hpush⟩ := Option.isSome_iff_exists.mp hsome
  exact ⟨sv', hpush, hinv.push hpush⟩

/-- A `strvec_push_dup` whose `strdup` succeeds is a push of the value. -/
theorem StrVec.pushDup_some_true (sv : StrVec) (v : List Char) (reallocOk : Bool) :
    sv.pushDup (some v) true reallocOk = sv.push (some v) reallocOk := rfl

/-- With `realloc` succeeding, a `NULL` push succeeds and leaves the `NULL` after the items. -/
theorem StrVecInv.pushNull_true (hinv : StrVecInv sv) :
    ∃ sv', sv.pushNull true = some sv' ∧ StrVecInv sv' ∧ sv'.items = sv.items ∧
      sv'.data.getD sv'.len none = none := by
  have hsome : (sv.pushNull true).isSome := by
    rw [StrVec.pushNull, Option.isSome_map]
    exact sv.reserve_true_isSome _
  obtain ⟨sv', hnull⟩ := Option.isSome_iff_exists.mp hsome
  obtain ⟨hinv', hitems, -, hslot⟩ := hinv.pushNull hnull
  exact ⟨sv', hnull, hinv', hitems, hslot⟩

/-- With every allocation succeeding, `strvec_push_dup` of each argument in turn appends them
all. -/
theorem StrVecInv.foldlM_pushDup :
    ∀ (args : List (List Char)) {sv : StrVec}, StrVecInv sv →
      ∃ sv', args.foldlM (fun sv arg ↦ sv.pushDup (some arg) true true) sv = some sv' ∧
        StrVecInv sv' ∧ sv'.items = sv.items ++ args.map some
  | [], sv, hinv => ⟨sv, rfl, hinv, by simp⟩
  | arg :: args, sv, hinv => by
    obtain ⟨sv₁, hpush, hinv₁, hitems₁⟩ := hinv.push_true (some arg)
    obtain ⟨sv', hrest, hinv', hitems'⟩ := StrVecInv.foldlM_pushDup args hinv₁
    refine ⟨sv', ?_, hinv', by rw [hitems', hitems₁]; simp⟩
    rw [List.foldlM_cons, StrVec.pushDup_some_true, hpush]
    exact hrest

end Succeed

/-! ### The refinement -/

/-- What one operation does to the items: the list operation it is observed as, or nothing. -/
def StepMatches (sv : StrVec) (a : StrVecOp × StrVecAnswer) (sv₁ : StrVec) : Prop :=
  (observeStrVec a).elim (sv₁.items = sv.items) fun br ↦ listAct sv.items br.1 = some (br.2, sv₁.items)

/-- An operation that may fail answers `0` with its result or `-1` with the vector unchanged. -/
theorem rcOf_eq {sv sv₁ : StrVec} {r : Option StrVec} {o : StrVecAnswer} (h : rcOf sv r = (o, sv₁)) :
    (r = some sv₁ ∧ o = .rc 0) ∨ (r = none ∧ o = .rc (-1) ∧ sv₁ = sv) := by
  cases r with
  | some sv' =>
    obtain ⟨rfl, rfl⟩ := Prod.mk.inj h
    exact .inl ⟨rfl, rfl⟩
  | none =>
    obtain ⟨rfl, rfl⟩ := Prod.mk.inj h
    exact .inr ⟨rfl, rfl, rfl⟩

section Step

variable {sv sv₁ : StrVec} {o : StrVecAnswer}

/-- A push in either form: the items grow by the value, or the operation fails and changes
nothing. -/
theorem strvecStep_push_spec (hinv : StrVecInv sv) {value : Option (List Char)} {reallocOk : Bool}
    (h : rcOf sv (sv.push value reallocOk) = (o, sv₁)) :
    StrVecInv sv₁ ∧ ((o = .rc 0 ∧ sv₁.items = sv.items ++ [value]) ∨ (o = .rc (-1) ∧ sv₁ = sv)) := by
  rcases rcOf_eq h with ⟨hpush, rfl⟩ | ⟨-, rfl, rfl⟩
  · obtain ⟨hinv₁, hitems⟩ := hinv.push hpush
    exact ⟨hinv₁, .inl ⟨rfl, hitems⟩⟩
  · exact ⟨hinv, .inr ⟨rfl, rfl⟩⟩

/-- Each operation keeps the invariant and does to the items what it is observed as. -/
theorem strvecStep_spec (hinv : StrVecInv sv) {op : StrVecOp}
    (h : strvecStep sv op = some (o, sv₁)) : StrVecInv sv₁ ∧ StepMatches sv (op, o) sv₁ := by
  cases op with
  | push value reallocOk =>
    obtain ⟨hinv₁, ⟨rfl, hitems⟩ | ⟨rfl, rfl⟩⟩ := strvecStep_push_spec hinv (Option.some.inj h)
    · exact ⟨hinv₁, by simp [StepMatches, observeStrVec, listAct, hitems]⟩
    · exact ⟨hinv₁, rfl⟩
  | pushDup value dupOk reallocOk =>
    have hdup : sv.pushDup value dupOk reallocOk = none ∨
        ∃ v, value = some v ∧ sv.pushDup value dupOk reallocOk = sv.push (some v) reallocOk := by
      unfold StrVec.pushDup
      cases value with
      | none => exact .inl rfl
      | some v => split_ifs <;> simp
    replace h := Option.some.inj h
    rcases hdup with hnone | ⟨v, rfl, hpush⟩
    · rw [hnone] at h
      obtain ⟨rfl, rfl⟩ := Prod.mk.inj h
      exact ⟨hinv, rfl⟩
    · rw [hpush] at h
      obtain ⟨hinv₁, ⟨rfl, hitems⟩ | ⟨rfl, rfl⟩⟩ := strvecStep_push_spec hinv h
      · exact ⟨hinv₁, by simp [StepMatches, observeStrVec, listAct, hitems]⟩
      · exact ⟨hinv₁, rfl⟩
  | pushNull reallocOk =>
    rcases rcOf_eq (Option.some.inj h) with ⟨hnull, rfl⟩ | ⟨-, rfl, rfl⟩
    · obtain ⟨hinv₁, hitems, -⟩ := hinv.pushNull hnull
      exact ⟨hinv₁, hitems⟩
    · exact ⟨hinv, rfl⟩
  | pop =>
    simp only [strvecStep, Option.some.injEq] at h
    split_ifs at h with hlen
    · obtain ⟨rfl, rfl⟩ := Prod.mk.inj h
      exact ⟨hinv, rfl⟩
    · obtain ⟨rfl, rfl⟩ := Prod.mk.inj h
      obtain ⟨hinv₁, hitems, hlast⟩ := hinv.pop hlen
      exact ⟨hinv₁, by simp [StepMatches, observeStrVec, listAct, hitems, hlast]⟩
  | detach =>
    obtain ⟨rfl, rfl⟩ := Prod.mk.inj (Option.some.inj h)
    exact ⟨strVecInv_empty, rfl⟩
  | free =>
    obtain ⟨rfl, rfl⟩ := Prod.mk.inj (Option.some.inj h)
    exact ⟨strVecInv_empty, rfl⟩

end Step

/-- The vector refines the list: the invariant is kept, an observed operation is the list
operation on the items, and the other operations keep the items. -/
def strvecRefinement : Lib.Refinement strvecStep listAct fun _ _ ↦ True where
  inv := StrVecInv
  abs := StrVec.items
  observe := observeStrVec
  inv_step hinv _ h := (strvecStep_spec hinv h).1
  visible {sv op o sv₁ b r} hinv _ h hobs := by
    have hmatch := (strvecStep_spec hinv h).2
    rw [StepMatches, hobs] at hmatch
    exact hmatch
  internal {sv op o sv₁} hinv _ h hobs := by
    have hmatch := (strvecStep_spec hinv h).2
    rw [StepMatches, hobs] at hmatch
    exact hmatch

/-- Every run of vector operations from `strvec_init` runs to its end with a vector that keeps
the invariant, and the list operations it is observed to perform, run on the empty list, end
with the vector's items. -/
theorem strvec_run (ops : List StrVecOp) :
    ∃ tr sv, Lib.execRun strvecStep .empty ops = some (tr, sv) ∧ StrVecInv sv ∧
      Lib.execRun listAct [] ((tr.filterMap observeStrVec).map Prod.fst) =
        some (tr.filterMap observeStrVec, sv.items) := by
  have htotal : ∀ sv op, (strvecStep sv op).isSome := by
    intro sv op
    cases op <;> rfl
  obtain ⟨tr, sv, hrun⟩ := Lib.execRun_isSome htotal StrVec.empty ops
  have hallowed : Lib.Allowed strvecStep (fun _ _ ↦ True) StrVec.empty ops :=
    Lib.allowed_of_forall (fun _ _ ↦ trivial) StrVec.empty ops
  exact ⟨tr, sv, hrun, Lib.execRun_inv _ (fun hinv _ h ↦ (strvecStep_spec hinv h).1) strVecInv_empty
    hallowed hrun, strvecRefinement.execRun_abs strVecInv_empty hallowed hrun⟩

end Srt2Dvbsub.Batch
