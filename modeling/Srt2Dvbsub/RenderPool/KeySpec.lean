import Srt2Dvbsub.Lib.Refinement

/-!
# What the render pool promises for one key

The contract of the asynchronous render pool, stated for a single key `(track_id, cue_index)`
and free of the threads, queues and lists that carry it out. A key goes through four phases:
nothing submitted, a job pending, a result published and not yet taken, and the result handed
over. `keyStep` is that machine, and `absPoolStep` runs one such machine for every key.

* `keyHistory_of_execRun`: every run of the machine from "nothing submitted" is a history of
  the shape the pool promises (`KeyHistory`): `render_pool_try_get` finds nothing until the
  job is submitted, finds it busy until it is published, hands over the job's own bitmap at
  the first call after that, and finds nothing from then on.
* `keyHistory_of_absPoolStep`: the same for every key of a run of the whole abstract pool.
-/

set_option autoImplicit false
set_option relaxedAutoImplicit false

namespace Srt2Dvbsub.RenderPool

variable {K P B : Type*}

/-- The phase of one key: nothing submitted, a job with these inputs pending, this bitmap
published and not yet taken, or the bitmap handed over. -/
inductive KeyPhase (P B : Type*) where
  | absent
  | pending (params : P)
  | published (bm : B)
  | taken

/-- What can happen to a key: a job is submitted under it, a worker publishes its result, or a
caller asks for it. -/
inductive KeyAction (K P : Type*) where
  | submit (key : K) (params : P)
  | publish (key : K)
  | tryGet (key : K)

def KeyAction.key : KeyAction K P → K
  | .submit key _ => key
  | .publish key => key
  | .tryGet key => key

/-- The answer to an action: the job was accepted (`render_pool_submit_async` returns 0), the
result was stored, or one of the three returns of `render_pool_try_get`: still running (0),
no such job (-1), and done (1, with the bitmap handed over). -/
inductive KeyReply (B : Type*) where
  | accepted
  | stored
  | busy
  | missing
  | got (bm : B)

/-- The machine of one key. A worker stores the bitmap that `render` draws from the job's own
inputs. -/
def keyStep (render : P → B) : KeyPhase P B → KeyAction K P → Option (KeyReply B × KeyPhase P B)
  | .absent, .submit _ params => some (.accepted, .pending params)
  | .pending params, .publish _ => some (.stored, .published (render params))
  | .absent, .tryGet _ => some (.missing, .absent)
  | .pending params, .tryGet _ => some (.busy, .pending params)
  | .published bm, .tryGet _ => some (.got bm, .taken)
  | .taken, .tryGet _ => some (.missing, .taken)
  | _, _ => none

/-- The abstract pool: one machine per key, each run on the actions of its key. -/
def absPoolStep [DecidableEq K] (render : P → B) :
    (K → KeyPhase P B) → KeyAction K P → Option (KeyReply B × (K → KeyPhase P B)) :=
  Lib.keyedStep KeyAction.key (keyStep render)

/-! ### The promised histories -/

/-- `n` calls of `render_pool_try_get` under `key` that find nothing. -/
def missingCalls (key : K) (n : ℕ) : List (KeyAction K P × KeyReply B) :=
  List.replicate n (.tryGet key, .missing)

/-- `n` calls of `render_pool_try_get` under `key` that find the job still running. -/
def busyCalls (key : K) (n : ℕ) : List (KeyAction K P × KeyReply B) :=
  List.replicate n (.tryGet key, .busy)

/-- The histories of one key that the pool promises: calls that find nothing, the submission,
calls that find the job running, the publication of the bitmap drawn from the submitted inputs,
the one call that hands it over, and calls that find nothing again; each history stops
somewhere along that line. -/
inductive KeyHistory (render : P → B) (key : K) : List (KeyAction K P × KeyReply B) → Prop
  | unsubmitted (n : ℕ) : KeyHistory render key (missingCalls key n)
  | pending (n m : ℕ) (params : P) :
      KeyHistory render key
        (missingCalls key n ++ (.submit key params, .accepted) :: busyCalls key m)
  | published (n m : ℕ) (params : P) :
      KeyHistory render key
        (missingCalls key n ++ (.submit key params, .accepted) ::
          (busyCalls key m ++ [(.publish key, .stored)]))
  | delivered (n m c : ℕ) (params : P) :
      KeyHistory render key
        (missingCalls key n ++ (.submit key params, .accepted) ::
          (busyCalls key m ++ (.publish key, .stored) :: (.tryGet key, .got (render params)) ::
            missingCalls key c))

section Machine

variable {render : P → B} {key : K}

/-- A call that finds nothing before the submission keeps a history promised. -/
theorem KeyHistory.missing_cons {h : List (KeyAction K P × KeyReply B)}
    (hist : KeyHistory render key h) : KeyHistory render key ((.tryGet key, .missing) :: h) := by
  cases hist with
  | unsubmitted n => exact .unsubmitted (n + 1)
  | pending n m params => exact .pending (n + 1) m params
  | published n m params => exact .published (n + 1) m params
  | delivered n m c params => exact .delivered (n + 1) m c params

/-- The actions of a run of one key all carry that key. -/
def KeyOnly (key : K) (es : List (KeyAction K P)) : Prop := ∀ e ∈ es, e.key = key

theorem KeyOnly.head {e : KeyAction K P} {es : List (KeyAction K P)}
    (h : KeyOnly key (e :: es)) : e.key = key :=
  h e List.mem_cons_self

theorem KeyOnly.tail {e : KeyAction K P} {es : List (KeyAction K P)}
    (h : KeyOnly key (e :: es)) : KeyOnly key es :=
  fun e' he' ↦ h e' (List.mem_cons_of_mem e he')

/-! #### What one action of the key can do from each phase -/

section Inversion

variable {e : KeyAction K P} {o : KeyReply B} {ph : KeyPhase P B}

theorem keyStep_absent_eq_some (hkey : e.key = key)
    (hstep : keyStep render .absent e = some (o, ph)) :
    (e = .tryGet key ∧ o = .missing ∧ ph = .absent) ∨
      ∃ params, e = .submit key params ∧ o = .accepted ∧ ph = .pending params := by
  cases e with
  | tryGet k =>
    obtain rfl : key = k := hkey.symm
    obtain ⟨rfl, rfl⟩ := Prod.mk.inj (Option.some.inj hstep)
    exact .inl ⟨rfl, rfl, rfl⟩
  | submit k params =>
    obtain rfl : key = k := hkey.symm
    obtain ⟨rfl, rfl⟩ := Prod.mk.inj (Option.some.inj hstep)
    exact .inr ⟨params, rfl, rfl, rfl⟩
  | publish _ => cases hstep

theorem keyStep_pending_eq_some {params : P} (hkey : e.key = key)
    (hstep : keyStep render (.pending params) e = some (o, ph)) :
    (e = .tryGet key ∧ o = .busy ∧ ph = .pending params) ∨
      (e = .publish key ∧ o = .stored ∧ ph = .published (render params)) := by
  cases e with
  | tryGet k =>
    obtain rfl : key = k := hkey.symm
    obtain ⟨rfl, rfl⟩ := Prod.mk.inj (Option.some.inj hstep)
    exact .inl ⟨rfl, rfl, rfl⟩
  | publish k =>
    obtain rfl : key = k := hkey.symm
    obtain ⟨rfl, rfl⟩ := Prod.mk.inj (Option.some.inj hstep)
    exact .inr ⟨rfl, rfl, rfl⟩
  | submit _ _ => cases hstep

theorem keyStep_published_eq_some {bm : B} (hkey : e.key = key)
    (hstep : keyStep render (.published bm) e = some (o, ph)) :
    e = .tryGet key ∧ o = .got bm ∧ ph = .taken := by
  cases e with
  | tryGet k =>
    obtain rfl : key = k := hkey.symm
    obtain ⟨rfl, rfl⟩ := Prod.mk.inj (Option.some.inj hstep)
    exact ⟨rfl, rfl, rfl⟩
  | submit _ _ => cases hstep
  | publish _ => cases hstep

theorem keyStep_taken_eq_some (hkey : e.key = key)
    (hstep : keyStep render .taken e = some (o, ph)) :
    e = .tryGet key ∧ o = .missing ∧ ph = .taken := by
  cases e with
  | tryGet k =>
    obtain rfl : key = k := hkey.symm
    obtain ⟨rfl, rfl⟩ := Prod.mk.inj (Option.some.inj hstep)
    exact ⟨rfl, rfl, rfl⟩
  | submit _ _ => cases hstep
  | publish _ => cases hstep

end Inversion

/-! #### The runs from each phase -/

/-- Once the bitmap is handed over, every call finds nothing. -/
theorem execRun_keyStep_taken :
    ∀ {es : List (KeyAction K P)} {h : List (KeyAction K P × KeyReply B)} {ph : KeyPhase P B},
      KeyOnly key es →
      Lib.execRun (keyStep render) .taken es = some (h, ph) → ∃ c, h = missingCalls key c
  | [], _, _, _, hrun => ⟨0, (Prod.mk.inj (Option.some.inj hrun)).1.symm⟩
  | _ :: _, _, _, hkey, hrun => by
    obtain ⟨o, ph₁, h₁, hstep, hrest, rfl⟩ := Lib.execRun_cons_eq_some.mp hrun
    obtain ⟨rfl, rfl, rfl⟩ := keyStep_taken_eq_some hkey.head hstep
    obtain ⟨c, rfl⟩ := execRun_keyStep_taken hkey.tail hrest
    exact ⟨c + 1, rfl⟩

/-- A published bitmap goes to the first call, and every later call finds nothing. -/
theorem execRun_keyStep_published {bm : B} :
    ∀ {es : List (KeyAction K P)} {h : List (KeyAction K P × KeyReply B)} {ph : KeyPhase P B},
      KeyOnly key es →
      Lib.execRun (keyStep render) (.published bm) es = some (h, ph) →
        h = [] ∨ ∃ c, h = (.tryGet key, .got bm) :: missingCalls key c
  | [], _, _, _, hrun => .inl (Prod.mk.inj (Option.some.inj hrun)).1.symm
  | _ :: _, _, _, hkey, hrun => by
    obtain ⟨o, ph₁, h₁, hstep, hrest, rfl⟩ := Lib.execRun_cons_eq_some.mp hrun
    obtain ⟨rfl, rfl, rfl⟩ := keyStep_published_eq_some hkey.head hstep
    obtain ⟨c, rfl⟩ := execRun_keyStep_taken hkey.tail hrest
    exact .inr ⟨c, rfl⟩

/-- A pending job is found running until its result is published, and then delivered once. -/
theorem execRun_keyStep_pending {params : P} :
    ∀ {es : List (KeyAction K P)} {h : List (KeyAction K P × KeyReply B)} {ph : KeyPhase P B},
      KeyOnly key es →
      Lib.execRun (keyStep render) (.pending params) es = some (h, ph) →
        ∃ m, h = busyCalls key m ∨ h = busyCalls key m ++ [(.publish key, .stored)] ∨
          ∃ c, h = busyCalls key m ++ (.publish key, .stored) ::
            (.tryGet key, .got (render params)) :: missingCalls key c
  | [], _, _, _, hrun => ⟨0, .inl (Prod.mk.inj (Option.some.inj hrun)).1.symm⟩
  | _ :: _, _, _, hkey, hrun => by
    obtain ⟨o, ph₁, h₁, hstep, hrest, rfl⟩ := Lib.execRun_cons_eq_some.mp hrun
    rcases keyStep_pending_eq_some hkey.head hstep with ⟨rfl, rfl, rfl⟩ | ⟨rfl, rfl, rfl⟩
    · obtain ⟨m, hshape⟩ := execRun_keyStep_pending hkey.tail hrest
      refine ⟨m + 1, ?_⟩
      rcases hshape with rfl | rfl | ⟨c, rfl⟩
      · exact .inl rfl
      · exact .inr (.inl rfl)
      · exact .inr (.inr ⟨c, rfl⟩)
    · refine ⟨0, ?_⟩
      rcases execRun_keyStep_published hkey.tail hrest with rfl | ⟨c, rfl⟩
      · exact .inr (.inl rfl)
      · exact .inr (.inr ⟨c, rfl⟩)

/-- Every run of one key's machine from "nothing submitted" is a promised history. -/
theorem keyHistory_of_execRun :
    ∀ {es : List (KeyAction K P)} {h : List (KeyAction K P × KeyReply B)} {ph : KeyPhase P B},
      KeyOnly key es →
      Lib.execRun (keyStep render) .absent es = some (h, ph) → KeyHistory render key h
  | [], _, _, _, hrun => by
    obtain ⟨rfl, -⟩ := Prod.mk.inj (Option.some.inj hrun)
    exact .unsubmitted 0
  | _ :: _, _, _, hkey, hrun => by
    obtain ⟨o, ph₁, h₁, hstep, hrest, rfl⟩ := Lib.execRun_cons_eq_some.mp hrun
    rcases keyStep_absent_eq_some hkey.head hstep with ⟨rfl, rfl, rfl⟩ | ⟨params, rfl, rfl, rfl⟩
    · exact (keyHistory_of_execRun hkey.tail hrest).missing_cons
    · obtain ⟨m, hshape⟩ := execRun_keyStep_pending hkey.tail hrest
      rcases hshape with rfl | rfl | ⟨c, rfl⟩
      · exact .pending 0 m params
      · exact .published 0 m params
      · exact .delivered 0 m c params

end Machine

/-- In every run of the abstract pool from "nothing submitted", the history of each key is a
promised one. -/
theorem keyHistory_of_absPoolStep [DecidableEq K] {render : P → B} {es : List (KeyAction K P)}
    {tr : List (KeyAction K P × KeyReply B)} {m : K → KeyPhase P B}
    (hrun : Lib.execRun (absPoolStep render) (fun _ ↦ .absent) es = some (tr, m)) (key : K) :
    KeyHistory render key (tr.filter fun e ↦ e.1.key = key) := by
  have hkey : KeyOnly key (es.filter fun e ↦ e.key = key) := by
    intro e he
    simpa using (List.mem_filter.mp he).2
  exact keyHistory_of_execRun hkey (Lib.execRun_keyedStep hrun key)

end Srt2Dvbsub.RenderPool
