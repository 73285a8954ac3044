import Mathlib

/-!
# Lists updated in place

`List.modify` is the update of one element of an array. A property every element has, and
that the update keeps, holds of every element afterwards. `List.getD` is the read of an array that stands in for
an index past its end.

`pushPair` is the body of a loop that fills two growable arrays side by side, pushing onto
both whenever the current item yields a pair; over a whole list the two arrays are the halves
of `List.filterMap` (`foldl_pushPair`).

A list of records with pairwise distinct keys is a keyed store: a lookup by key finds the one
record of that key (`find?_key_getElem`), and replacing a record by one of the same key
changes the lookup of that key only (`find?_key_set`). Replacing one element changes the image
of a `filterMap` by the images of the old and the new element (`filterMap_set_perm`).

A list of indices into a growing array stays duplicate-free and in bounds when the index of a
new last element is appended (`nodup_append_fresh`, `lt_succ_of_mem_append_fresh`). A fact
about every index of an array after a push or a write splits into the old indices and the new
element (`forall_getElem_append_singleton`, `forall_getElem_set`).

`updateFirst` is the update in place of the first element that a search finds: the list is
cut around that element, and only it changes (`updateFirst_of_find?_eq_some`). Moving that
element to the front permutes the list (`find?_cons_eraseP_perm`).

Modifying, in turn, the indices of a duplicate-free list is a pointwise map of the list
(`foldl_modify_eq_mapIdx`); so is writing each of them with the value an update gives it, or not
at all (`foldl_setSome_eq_mapIdx`): a loop that reads one buffer and writes another computes a
function of the buffer it reads. A loop over items that each name at most one index to modify is
the same map over the named indices (`foldl_modify_targets_eq_mapIdx`).

Dropping the end of a list while a test passes (`List.rdropWhile`) ignores a tail that
passes it throughout (`rdropWhile_append_of_forall`); keeping it (`List.rtakeWhile`) keeps such a
tail after an element that fails the test (`rtakeWhile_append_of_forall`). A loop over the indices
of an array that reads each entry is a loop over the array (`flatMap_range_getD`).

Splitting a list at a separator and joining the pieces with another separator are stated one
front element at a time (`splitOn_cons_self`, `splitOn_cons_of_ne`, `intercalate_modifyHead_cons`,
`intercalate_nil_cons`), the way a loop that rewrites the separator walks the list.

The mean of a list of non-negative integers, truncated as C's `/` truncates, lies between any
bounds of its elements (`tdiv_length_mem_bounds`).
-/

set_option autoImplicit false
set_option relaxedAutoImplicit false

namespace Lib

variable {α β : Type*}

theorem forall_mem_modify {P : α → Prop} {f : α → α} (hf : ∀ a, P a → P (f a)) :
    ∀ {l : List α} (i : ℕ), (∀ a ∈ l, P a) → ∀ a ∈ l.modify i f, P a
  | [], _, _ => by simp
  | b :: l, 0, hl => by
    intro a ha
    rw [List.modify_zero_cons, List.mem_cons] at ha
    rcases ha with rfl | ha
    · exact hf b (hl b List.mem_cons_self)
    · exact hl a (List.mem_cons_of_mem b ha)
  | b :: l, i + 1, hl => by
    intro a ha
    rw [List.modify_succ_cons, List.mem_cons] at ha
    rcases ha with rfl | ha
    · exact hl a List.mem_cons_self
    · exact forall_mem_modify hf i (fun c hc ↦ hl c (List.mem_cons_of_mem b hc)) a ha

theorem getD_replicate_self (n i : ℕ) (x : α) : (List.replicate n x).getD i x = x := by
  by_cases hi : i < n
  · exact List.getD_replicate x hi
  · exact List.getD_eq_default _ _ (by simpa using hi)

/-- Push the two halves of a pair, when there is one, onto two arrays. -/
def pushPair {γ : Type*} : List β × List γ → Option (β × γ) → List β × List γ
  | (s, t), some (b, c) => (s ++ [b], t ++ [c])
  | acc, none => acc

theorem foldl_pushPair {γ : Type*} (f : α → Option (β × γ)) :
    ∀ (l : List α) (s : List β) (t : List γ),
      l.foldl (fun acc x ↦ pushPair acc (f x)) (s, t) =
        (s ++ (l.filterMap f).map Prod.fst, t ++ (l.filterMap f).map Prod.snd)
  | [], s, t => by simp
  | x :: l, s, t => by
    rw [List.foldl_cons, List.filterMap_cons]
    cases hx : f x with
    | none => exact foldl_pushPair f l s t
    | some p =>
      rw [pushPair, foldl_pushPair f l]
      simp

/-! ### Keyed lookups and in-place updates -/

section Keyed

variable {κ : Type*} [DecidableEq κ] {f : α → κ} {l : List α}

theorem filterMap_cons_eq_toList_append (g : α → Option β) (a : α) (l : List α) :
    (a :: l).filterMap g = (g a).toList ++ l.filterMap g := by
  cases h : g a <;> simp [h]

theorem filterMap_set_perm (g : α → Option β) :
    ∀ {l : List α} {i : ℕ} (hi : i < l.length) (x : α),
      ((l.set i x).filterMap g ++ (g l[i]).toList).Perm ((g x).toList ++ l.filterMap g)
  | [], _, hi, _ => absurd hi (Nat.not_lt_zero _)
  | a :: l, 0, _, x => by
    simp only [List.set_cons_zero, List.getElem_cons_zero, filterMap_cons_eq_toList_append,
      List.append_assoc]
    exact List.perm_append_comm.append_left _
  | a :: l, i + 1, hi, x => by
    have ih := filterMap_set_perm g (Nat.lt_of_succ_lt_succ hi) x
    simp only [List.set_cons_succ, List.getElem_cons_succ, filterMap_cons_eq_toList_append,
      List.append_assoc]
    exact (ih.append_left _).trans (List.perm_append_comm_assoc _ _ _)

/-- With distinct keys, the lookup of a record's key finds that record. -/
theorem find?_key_getElem (hnodup : (l.map f).Nodup) {i : ℕ} (hi : i < l.length) :
    l.find? (fun y ↦ f y = f l[i]) = some l[i] := by
  rw [List.find?_eq_some_iff_getElem]
  refine ⟨by simp, i, hi, rfl, fun j hj ↦ ?_⟩
  have hne := List.pairwise_iff_getElem.mp hnodup j i (by simp; omega) (by simpa using hi) hj
  simpa using hne

/-- Replacing an element that fails a test by another that fails it leaves the first element
that passes it. -/
theorem find?_set_of_not {p : α → Bool} {x : α} (hx : p x = false) :
    ∀ {l : List α} {i : ℕ} (hi : i < l.length), p l[i] = false → (l.set i x).find? p = l.find? p
  | [], _, hi, _ => absurd hi (Nat.not_lt_zero _)
  | a :: l, 0, _, ha => by
    simp only [List.getElem_cons_zero] at ha
    simp [ha, hx]
  | a :: l, i + 1, hi, hl => by
    simp only [List.getElem_cons_succ] at hl
    simp only [List.set_cons_succ, List.find?_cons,
      find?_set_of_not hx (Nat.lt_of_succ_lt_succ hi) hl]

/-- An entry of a list after one element is replaced: the new element, or an old entry. -/
theorem getElem?_set_eq_some {i j : ℕ} {a b : α} (h : (l.set i a)[j]? = some b) :
    (i = j ∧ a = b) ∨ (i ≠ j ∧ l[j]? = some b) := by
  rw [List.getElem?_set] at h
  split_ifs at h with hij
  · exact .inl ⟨hij, Option.some.inj h⟩
  · exact .inr ⟨hij, h⟩

/-- An entry of a list after one update was there before, or is the new element. -/
theorem getElem?_set_eq_some_or {i j : ℕ} {a b : α} (h : (l.set i a)[j]? = some b) :
    l[j]? = some b ∨ b = a := by
  rcases getElem?_set_eq_some h with ⟨-, rfl⟩ | ⟨-, hold⟩
  · exact .inr rfl
  · exact .inl hold

omit [DecidableEq κ] in
/-- Replacing an element by one with the same image leaves the image of the list. -/
theorem map_set_of_eq {i : ℕ} (hi : i < l.length) {x : α} (hx : f x = f l[i]) :
    (l.set i x).map f = l.map f := by
  apply List.ext_getElem (by simp)
  intro j hj _
  by_cases hji : i = j
  · subst hji
    simp [hx]
  · simp [List.getElem_set_ne hji]

/-- With distinct keys, replacing a record by one of the same key changes the lookup of that
key only. -/
theorem find?_key_set (hnodup : (l.map f).Nodup) {i : ℕ} (hi : i < l.length) {x : α}
    (hx : f x = f l[i]) (k : κ) :
    (l.set i x).find? (fun y ↦ f y = k) = if f l[i] = k then some x else l.find? (fun y ↦ f y = k) := by
  by_cases hk : f l[i] = k
  · subst hk
    have hnodup' : ((l.set i x).map f).Nodup := (map_set_of_eq hi hx) ▸ hnodup
    have hlen : i < (l.set i x).length := by simpa using hi
    have := find?_key_getElem hnodup' hlen
    simp only [List.getElem_set_self] at this
    rw [if_pos rfl, ← hx]
    exact this
  · rw [if_neg hk]
    exact find?_set_of_not (by simpa [hx] using hk) hi (by simpa using hk)

end Keyed

/-! ### Fresh indices -/

section Fresh

variable {l : List ℕ} {n : ℕ}

/-- Appending an index above every index of a list keeps its indices distinct. -/
theorem nodup_append_fresh (hl : l.Nodup) (hlt : ∀ j ∈ l, j < n) : (l ++ [n]).Nodup := by
  refine List.nodup_append.mpr ⟨hl, List.nodup_singleton n, ?_⟩
  intro j hj new hnew
  rw [List.mem_singleton] at hnew
  exact hnew ▸ Nat.ne_of_lt (hlt j hj)

/-- Appending the index `n` to a list of indices below `n` keeps them below `n + 1`. -/
theorem lt_succ_of_mem_append_fresh (hlt : ∀ j ∈ l, j < n) : ∀ j ∈ l ++ [n], j < n + 1 := by
  intro j hj
  rw [List.mem_append, List.mem_singleton] at hj
  rcases hj with hj | hj
  · exact Nat.lt_succ_of_lt (hlt j hj)
  · exact hj ▸ Nat.lt_succ_self n

end Fresh

/-! ### Statements at every index -/

section EveryIndex

variable {P : ℕ → α → Prop} {l : List α}

/-- What holds at every index of a list with one element appended: what holds at each old
index, and at the new one. -/
theorem forall_getElem_append_singleton {x : α} (hold : ∀ i (hi : i < l.length), P i l[i])
    (hnew : P l.length x) : ∀ i (hi : i < (l ++ [x]).length), P i (l ++ [x])[i] := by
  intro i hi
  rw [List.length_append, List.length_singleton] at hi
  rcases Nat.lt_succ_iff_lt_or_eq.mp hi with hlt | rfl
  · rw [List.getElem_append_left hlt]
    exact hold i hlt
  · simpa using hnew

/-- What holds at every index of a list with one index written: what holds at each other
index, and the value written at its index. -/
theorem forall_getElem_set {j : ℕ} {y : α} (hold : ∀ i (hi : i < l.length), i ≠ j → P i l[i])
    (hnew : j < l.length → P j y) : ∀ i (hi : i < (l.set j y).length), P i (l.set j y)[i] := by
  intro i hi
  rw [List.length_set] at hi
  rw [List.getElem_set]
  split_ifs with hji
  · subst hji
    exact hnew hi
  · exact hold i hi (Ne.symm hji)

end EveryIndex

/-! ### Updating the first match -/

section UpdateFirst

variable {p : α → Bool} {f : α → α}

/-- The first element that passes `p` is replaced by its image under `f`. -/
def updateFirst (p : α → Bool) (f : α → α) : List α → List α
  | [] => []
  | a :: l => if p a then f a :: l else a :: updateFirst p f l

theorem updateFirst_cons_of_pos {a : α} (l : List α) (h : p a = true) :
    updateFirst p f (a :: l) = f a :: l := by
  simp [updateFirst, h]

/-- Elements before the first match are kept. -/
theorem updateFirst_append_of_forall (pre l : List α) (h : ∀ a ∈ pre, p a = false) :
    updateFirst p f (pre ++ l) = pre ++ updateFirst p f l := by
  induction pre with
  | nil => rfl
  | cons a pre ih =>
    have ha : p a = false := h a List.mem_cons_self
    rw [List.cons_append, updateFirst, if_neg (by simp [ha]),
      ih fun b hb ↦ h b (List.mem_cons_of_mem a hb), List.cons_append]

/-- The list cut around the element the search finds: only that element changes. -/
theorem updateFirst_of_find?_eq_some {l : List α} {a : α} (h : l.find? p = some a) :
    ∃ pre post, l = pre ++ a :: post ∧ updateFirst p f l = pre ++ f a :: post := by
  obtain ⟨hpa, pre, post, rfl, hpre⟩ := List.find?_eq_some_iff_append.mp h
  refine ⟨pre, post, rfl, ?_⟩
  rw [updateFirst_append_of_forall pre _ fun b hb ↦ by simpa using hpre b hb,
    updateFirst_cons_of_pos post hpa]

section Found

variable {l : List α} {a : α} (h : l.find? p = some a)
include h

/-- After the update, an element is the image of the one found or was there before. -/
theorem mem_updateFirst {x : α} (hx : x ∈ updateFirst p f l) : x = f a ∨ x ∈ l := by
  obtain ⟨pre, post, rfl, hupd⟩ := updateFirst_of_find?_eq_some (f := f) h
  rw [hupd] at hx
  simp only [List.mem_append, List.mem_cons] at hx ⊢
  tauto

/-- An update that keeps the key of the element found keeps the keys of the list. -/
theorem map_updateFirst (g : α → β) (hg : g (f a) = g a) :
    (updateFirst p f l).map g = l.map g := by
  obtain ⟨pre, post, rfl, hupd⟩ := updateFirst_of_find?_eq_some (f := f) h
  simp [hupd, hg]

/-- What the elements hold, summed over the list: the update trades the part of the element
found for the part of its image. -/
theorem flatMap_updateFirst_perm (g : α → List β) :
    ((updateFirst p f l).flatMap g ++ g a).Perm (l.flatMap g ++ g (f a)) := by
  obtain ⟨pre, post, rfl, hupd⟩ := updateFirst_of_find?_eq_some (f := f) h
  rw [hupd]
  simp only [List.flatMap_append, List.flatMap_cons, List.append_assoc]
  refine List.Perm.append_left _ ?_
  have hfront : (g (f a) ++ (post.flatMap g ++ g a)).Perm (g (f a) ++ (g a ++ post.flatMap g)) :=
    List.perm_append_comm.append_left _
  exact hfront.trans ((List.perm_append_comm_assoc _ _ _).trans
    (List.perm_append_comm.append_left _))

end Found

end UpdateFirst

/-- Moving the first element that passes a test to the front of the list permutes the list. -/
theorem find?_cons_eraseP_perm {p : α → Bool} {l : List α} {a : α} (h : l.find? p = some a) :
    (a :: l.eraseP p).Perm l := by
  obtain ⟨hpa, pre, post, rfl, hpre⟩ := List.find?_eq_some_iff_append.mp h
  rw [List.eraseP_append_right _ fun b hb ↦ by simpa using hpre b hb,
    List.eraseP_cons_of_pos hpa]
  exact List.perm_middle.symm

/-- Modifying, in turn, the indices of a duplicate-free list, each by an update of the value it
finds there, is a pointwise map of the list: no index reads a value another index wrote. -/
theorem foldl_modify_eq_mapIdx (upd : ℕ → α → α) :
    ∀ (is : List ℕ) (l : List α), is.Nodup →
      is.foldl (fun l i ↦ l.modify i (upd i)) l = l.mapIdx fun i v ↦ if i ∈ is then upd i v else v
  | [], l, _ => List.ext_getElem (by simp) (by simp)
  | j :: js, l, hnodup => by
    obtain ⟨hj, hjs⟩ := List.nodup_cons.mp hnodup
    rw [List.foldl_cons, foldl_modify_eq_mapIdx upd js _ hjs]
    apply List.ext_getElem (by simp)
    intro i h₁ h₂
    simp only [List.getElem_mapIdx, List.getElem_modify, List.mem_cons]
    by_cases hij : i = j
    · subst hij
      simp [hj]
    · simp [hij, Ne.symm hij]

/-- Setting each index of a duplicate-free list, in turn, to the value `upd` gives it (and
leaving it when `upd` gives none) changes exactly those indices, each to its own value. -/
theorem foldl_setSome_eq_mapIdx (upd : ℕ → Option α) (is : List ℕ) (l : List α)
    (hnodup : is.Nodup) :
    is.foldl (fun l i ↦ (upd i).elim l (l.set i)) l =
      l.mapIdx fun i v ↦ if i ∈ is then (upd i).getD v else v := by
  have hstep : (fun l i ↦ (upd i).elim l (l.set i)) =
      fun (l : List α) i ↦ l.modify i fun v ↦ (upd i).getD v := by
    funext l i
    cases upd i with
    | none => exact (List.modify_id i l).symm
    | some v => exact List.set_eq_modify v i l
  rw [hstep, foldl_modify_eq_mapIdx _ is l hnodup]

/-- A loop that modifies, for each element that names an index, the entry at that index is the
pointwise map of `foldl_modify_eq_mapIdx` over the named indices, when no index is named twice. -/
theorem foldl_modify_targets_eq_mapIdx {γ : Type*} (target : γ → Option ℕ) (upd : ℕ → α → α)
    (ps : List γ) (l : List α) (hnodup : (ps.filterMap target).Nodup) :
    ps.foldl (fun l p ↦ (target p).elim l fun i ↦ l.modify i (upd i)) l =
      l.mapIdx fun i v ↦ if i ∈ ps.filterMap target then upd i v else v := by
  rw [← foldl_modify_eq_mapIdx upd _ l hnodup, List.foldl_filterMap]
  congr
  funext l p
  cases target p <;> rfl

/-- A tail whose every element passes the test is dropped whole. -/
theorem rdropWhile_append_of_forall {p : α → Bool} (l t : List α) (h : ∀ a ∈ t, p a = true) :
    List.rdropWhile p (l ++ t) = List.rdropWhile p l := by
  unfold List.rdropWhile
  rw [List.reverse_append, List.dropWhile_append_of_pos fun a ha ↦ h a (List.mem_reverse.mp ha)]

/-- Keeping the end of a list while a test passes (`List.rtakeWhile`) keeps exactly a tail that
passes it throughout after a part that is empty or ends with an element that fails it. -/
theorem rtakeWhile_append_of_forall {p : α → Bool} (l t : List α) (ht : ∀ a ∈ t, p a = true)
    (hl : ∀ x, l.getLast? = some x → p x = false) : List.rtakeWhile p (l ++ t) = t := by
  unfold List.rtakeWhile
  rw [List.reverse_append, List.takeWhile_append_of_pos fun a ha ↦ ht a (List.mem_reverse.mp ha)]
  have hfront : List.takeWhile p l.reverse = [] := by
    rcases List.eq_nil_or_concat l with rfl | ⟨init, x, rfl⟩
    · rfl
    · rw [List.concat_eq_append, List.reverse_append, List.reverse_singleton, List.singleton_append,
        List.takeWhile_cons_of_neg (by simp [hl x (by simp)])]
  rw [hfront, List.append_nil, List.reverse_reverse]

/-- A `flatMap` over the indices of a list that reads each entry with `getD` is the `flatMap`
over the list. -/
theorem flatMap_range_getD (g : α → List β) (d : α) :
    ∀ l : List α, (List.range l.length).flatMap (fun i ↦ g (l.getD i d)) = l.flatMap g
  | [] => rfl
  | a :: l => by
    rw [List.length_cons, List.range_succ_eq_map, List.flatMap_cons, List.flatMap_map,
      List.getD_cons_zero, List.flatMap_cons]
    simp only [Nat.succ_eq_add_one, List.getD_cons_succ]
    rw [flatMap_range_getD g d l]

/-! ### Splitting at a separator -/

section SplitOn

variable [BEq α]

theorem splitOn_ne_nil (a : α) (l : List α) : l.splitOn a ≠ [] :=
  List.splitOnP_ne_nil _ _

variable [LawfulBEq α]

/-- A separator at the front opens an empty first piece. -/
theorem splitOn_cons_self (a : α) (l : List α) : (a :: l).splitOn a = [] :: l.splitOn a := by
  simp [List.splitOn, List.splitOnP_cons_eq_if_modifyHead]

/-- Any other element at the front joins the first piece. -/
theorem splitOn_cons_of_ne {a b : α} (h : b ≠ a) (l : List α) :
    (b :: l).splitOn a = (l.splitOn a).modifyHead (b :: ·) := by
  simp [List.splitOn, List.splitOnP_cons_eq_if_modifyHead, h]

end SplitOn

/-- Joining pieces whose first one grew by an element in front is joining them and putting the
element in front. -/
theorem intercalate_modifyHead_cons (sep : List α) (x : α) {L : List (List α)} (hL : L ≠ []) :
    sep.intercalate (L.modifyHead (x :: ·)) = x :: sep.intercalate L := by
  obtain ⟨l, L', rfl⟩ := List.exists_cons_of_ne_nil hL
  rw [List.modifyHead_cons, List.intercalate_cons_cons_left]

/-- An empty first piece leaves only the separator before the rest. -/
theorem intercalate_nil_cons (sep : List α) {L : List (List α)} (hL : L ≠ []) :
    sep.intercalate ([] :: L) = sep ++ sep.intercalate L := by
  obtain ⟨l, L', rfl⟩ := List.exists_cons_of_ne_nil hL
  rw [List.intercalate_cons_cons, List.nil_append]

/-! ### The truncated mean -/

/-- The mean of a non-empty list of non-negative integers, truncated toward zero, lies between
any lower and upper bound of its elements. -/
theorem tdiv_length_mem_bounds {l : List ℤ} (hne : l ≠ []) (hnonneg : ∀ x ∈ l, 0 ≤ x)
    {lo hi : ℤ} (hlo : ∀ x ∈ l, lo ≤ x) (hhi : ∀ x ∈ l, x ≤ hi) :
    lo ≤ l.sum.tdiv l.length ∧ l.sum.tdiv l.length ≤ hi := by
  have hlen : (0 : ℤ) < l.length := by exact_mod_cast List.length_pos_iff.mpr hne
  rw [Int.tdiv_eq_ediv_of_nonneg (List.sum_nonneg hnonneg)]
  have hlower : l.length • lo ≤ l.sum := List.card_nsmul_le_sum l lo hlo
  have hupper : l.sum ≤ l.length • hi := List.sum_le_card_nsmul l hi hhi
  rw [Int.nsmul_eq_mul] at hlower hupper
  constructor
  · exact Int.le_ediv_of_mul_le hlen (by rw [Int.mul_comm]; exact hlower)
  · exact Int.ediv_le_of_le_mul hlen (by rw [Int.mul_comm]; exact hupper)

end Lib
