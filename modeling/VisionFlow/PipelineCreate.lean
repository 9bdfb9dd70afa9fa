-- vf_pipeline_create (vf-pipeline-mgr.c) with the units (vf-processing-unit.c) and their
-- notifiers (vf-notifier.c). Whichever part fails, all that was initialised is given back,
-- but for the notifier of a unit without an init operation.
import VisionFlow.BufQueue
import VisionFlow.PipelineFailures

namespace vision_flow.pipeline_create

open buf_queue
open units (Frame)
open pipeline_failures (Pipeline VF_PIPELINE_MAX_UNITS first_failure)

/-! ## Notifiers and units -/

structure vf_notifier_t where
  initialized : Nat

/-- `mutex_ok` says if `pthread_mutex_init` succeeds. -/
def vf_notifier_init (mutex_ok : Bool) : vf_err_t × vf_notifier_t :=
  if !mutex_ok then (.VF_SYNC_ERROR, ⟨0⟩) else (.VF_SUCCESS, ⟨1⟩)

/-- The result of `pthread_mutex_destroy` is only logged. -/
def vf_notifier_deinit (notifier : vf_notifier_t) : vf_notifier_t :=
  if notifier.initialized = 0 then notifier else ⟨0⟩

variable {D : Type}

/-- `init` is `none` for NULL, or the code that it returns and what it leaves in
`internal_data`. `deinit` says if that operation is not NULL. -/
structure vf_unit_operations_t (D : Type) where
  init : Option (vf_err_t × Option D)
  deinit : Bool

/-- A queue is its index in `pipeline->queues`. The last two fields are no data of the code:
how often `init` succeeded, and how often `deinit` was called. -/
structure vf_unit_t (D : Type) where
  initialized : Nat
  operations : vf_unit_operations_t D
  internal_data : Option D
  in_queue : Option Nat
  out_queue : Option Nat
  notifier : vf_notifier_t
  inits : Nat
  deinits : Nat

/-- A unit that has its operations and its configuration, and is not created yet. -/
def vf_unit_t.configured (operations : vf_unit_operations_t D) (cfg : Option D) : vf_unit_t D :=
  { initialized := 0, operations := operations, internal_data := cfg, in_queue := none,
    out_queue := none, notifier := ⟨0⟩, inits := 0, deinits := 0 }

def vf_unit_create (unit : vf_unit_t D) (mutex_ok : Bool) : vf_err_t × vf_unit_t D :=
  let (err, notifier) := vf_notifier_init mutex_ok
  let unit := { unit with notifier := notifier }
  if err ≠ .VF_SUCCESS then
    (err, unit)
  else
    match unit.operations.init with
    | none => (.VF_INIT_FAILED, unit)
    | some (err, data) =>
      let unit := { unit with internal_data := data }
      if err ≠ .VF_SUCCESS then
        (err, { unit with notifier := vf_notifier_deinit unit.notifier })
      else
        (.VF_SUCCESS, { unit with initialized := 1, inits := unit.inits + 1 })

def vf_unit_destroy (unit : vf_unit_t D) : vf_unit_t D :=
  if unit.initialized = 0 then
    unit
  else
    { unit with
      deinits := if unit.operations.deinit then unit.deinits + 1 else unit.deinits
      initialized := 0
      in_queue := none
      out_queue := none
      internal_data := none
      notifier := vf_notifier_deinit unit.notifier }

def vf_unit_connect_input (unit : vf_unit_t D) (queue : Nat) : vf_unit_t D :=
  { unit with in_queue := some queue }

def vf_unit_connect_output (unit : vf_unit_t D) (queue : Nat) : vf_unit_t D :=
  { unit with out_queue := some queue }

/-! ## Pipelines -/

/-- `units` has the length `unit_count`. -/
structure vf_pipeline_t (U : Type) where
  units : List U
  queues : Nat → vf_buf_queue_t Frame
  initialized : Nat

variable {U : Type}

/-- `memset` leaves queues that are all zero. -/
def vf_pipeline_init : vf_pipeline_t U := ⟨[], fun _ => zeroed, 0⟩

def vf_pipeline_add_unit (pipeline : vf_pipeline_t U) (unit : U) : vf_err_t × vf_pipeline_t U :=
  if pipeline.units.length ≥ VF_PIPELINE_MAX_UNITS then
    (.VF_INVALID_PARAMETER, pipeline)
  else
    (.VF_SUCCESS, { pipeline with units := pipeline.units ++ [unit] })

/-- A pipeline and its units. -/
structure Mem (U D : Type) where
  pipeline : vf_pipeline_t U
  unit : U → vf_unit_t D

/-- Which pthread calls succeed: the two inits of a queue, the destroy of its mutex, and the
init of a notifier's mutex. -/
structure Pthread (U : Type) where
  queue_mutex : Nat → Bool
  queue_cond : Nat → Bool
  queue_destroy : Nat → Bool
  notifier : U → Bool

variable [DecidableEq U]

def Mem.set_queue (m : Mem U D) (i : Nat) (queue : vf_buf_queue_t Frame) : Mem U D :=
  { m with pipeline := { m.pipeline with queues := Function.update m.pipeline.queues i queue } }

def Mem.set_unit (m : Mem U D) (u : U) (unit : vf_unit_t D) : Mem U D :=
  { m with unit := Function.update m.unit u unit }

/-- The loop that initialises the queues and wires the units, from queue `i` on. The first
unit of the list is `units[i]`. -/
def init_queues (p : Pthread U) : Nat → List U → Mem U D → vf_err_t × Mem U D
  | i, u :: v :: rest, m =>
    let (err, queue) := vf_buf_queue_init (m.pipeline.queues i) VF_BUF_QUEUE_MAX_CAPACITY
      (p.queue_mutex i) (p.queue_cond i)
    let m := m.set_queue i queue
    if err ≠ .VF_SUCCESS then
      (err, m)
    else
      let m := m.set_unit u (vf_unit_connect_output (m.unit u) i)
      let m := m.set_unit v (vf_unit_connect_input (m.unit v) i)
      init_queues p (i + 1) (v :: rest) m
  | _, _, m => (.VF_SUCCESS, m)

/-- The loop that creates the units. `created` are those before, the last one first. -/
def create_units (p : Pthread U) : List U → List U → Mem U D → vf_err_t × List U × Mem U D
  | created, [], m => (.VF_SUCCESS, created, m)
  | created, u :: rest, m =>
    let (err, unit) := vf_unit_create (m.unit u) (p.notifier u)
    let m := m.set_unit u unit
    if err ≠ .VF_SUCCESS then
      (err, created, m)
    else
      create_units p (u :: created) rest m

def cleanup_units : List U → Mem U D → Mem U D
  | [], m => m
  | u :: rest, m => cleanup_units rest (m.set_unit u (vf_unit_destroy (m.unit u)))

/-- The loop that gives the queues back, over `n` queues from queue `i` on. -/
def cleanup_queues (p : Pthread U) : Nat → Nat → Mem U D → Mem U D
  | _, 0, m => m
  | i, n + 1, m =>
    cleanup_queues p (i + 1) n
      (m.set_queue i (vf_buf_queue_deinit (m.pipeline.queues i) (p.queue_destroy i)))

def vf_pipeline_create (p : Pthread U) (m : Mem U D) : vf_err_t × Mem U D :=
  if m.pipeline.units.length < 2 then
    (.VF_INVALID_PARAMETER, m)
  else
    let q_count := m.pipeline.units.length - 1
    let (err, m) := init_queues p 0 m.pipeline.units m
    if err ≠ .VF_SUCCESS then
      (err, cleanup_queues p 0 q_count m)
    else
      let (err, created, m) := create_units p [] m.pipeline.units m
      if err ≠ .VF_SUCCESS then
        (err, cleanup_queues p 0 q_count (cleanup_units created m))
      else
        (.VF_SUCCESS, { m with pipeline := { m.pipeline with initialized := 1 } })

/-! ## One unit -/

/-- Nothing of the unit is initialised. -/
structure Fresh (x : vf_unit_t D) : Prop where
  initialized : x.initialized = 0
  notifier : x.notifier.initialized = 0
  inits : x.inits = 0
  deinits : x.deinits = 0

/-- The unit and its notifier are initialised, and `init` succeeded once. -/
structure Made (x : vf_unit_t D) : Prop where
  initialized : x.initialized = 1
  notifier : x.notifier.initialized = 1
  inits : x.inits = 1
  deinits : x.deinits = 0

/-- Nothing of the unit is initialised, and `deinit` was called once if `init` succeeded. -/
structure Unwound (x : vf_unit_t D) : Prop where
  initialized : x.initialized = 0
  notifier : x.notifier.initialized = 0
  once : x.inits ≤ 1
  deinits : x.deinits = if x.operations.deinit then x.inits else 0

/-- The unit is created: its notifier is, and its `init` succeeds. -/
def Creates (x : vf_unit_t D) (mutex_ok : Bool) : Prop :=
  mutex_ok = true ∧ ∃ data, x.operations.init = some (.VF_SUCCESS, data)

theorem vf_unit_create.made {x : vf_unit_t D} {mutex_ok : Bool} (h : Fresh x)
    (hc : Creates x mutex_ok) :
    (vf_unit_create x mutex_ok).1 = .VF_SUCCESS ∧ Made (vf_unit_create x mutex_ok).2 := by
  obtain ⟨rfl, data, hinit⟩ := hc
  unfold vf_unit_create vf_notifier_init
  simp only [Bool.not_true, Bool.false_eq_true, if_false, ne_eq, not_true_eq_false, hinit]
  exact ⟨trivial, rfl, rfl, by simp [h.inits], h.deinits⟩

/-- A unit that is not created leaves its notifier just where it has no `init`. -/
theorem vf_unit_create.fails {x : vf_unit_t D} {mutex_ok : Bool} (h : Fresh x)
    (hc : ¬ Creates x mutex_ok) :
    (vf_unit_create x mutex_ok).1 ≠ .VF_SUCCESS ∧
      (Unwound (vf_unit_create x mutex_ok).2 ↔
        (mutex_ok = true → x.operations.init ≠ none)) := by
  have hdeinits : x.deinits = if x.operations.deinit then x.inits else 0 := by
    simp [h.deinits, h.inits]
  have honce : x.inits ≤ 1 := by simp [h.inits]
  unfold vf_unit_create vf_notifier_init
  rcases mutex_ok with _ | _
  · refine ⟨by simp, iff_of_true ?_ (by simp)⟩
    exact ⟨h.initialized, rfl, honce, hdeinits⟩
  · rcases hinit : x.operations.init with _ | ⟨err, data⟩
    · simp only [Bool.not_true, Bool.false_eq_true, if_false, ne_eq, not_true_eq_false, hinit]
      refine ⟨by decide, iff_of_false (fun hu => ?_) (by simp)⟩
      exact absurd hu.notifier (by simp)
    · have herr : err ≠ .VF_SUCCESS := fun he => hc ⟨rfl, data, by rw [hinit, he]⟩
      simp only [Bool.not_true, Bool.false_eq_true, if_false, ne_eq, not_true_eq_false, hinit,
        herr, not_false_eq_true, if_true]
      refine ⟨trivial, iff_of_true ?_ (by simp)⟩
      refine ⟨h.initialized, ?_, honce, hdeinits⟩
      simp [vf_notifier_deinit]

theorem vf_unit_destroy.made {x : vf_unit_t D} (h : Made x) : Unwound (vf_unit_destroy x) := by
  unfold vf_unit_destroy
  rw [if_neg (by simp [h.initialized])]
  refine ⟨rfl, ?_, by simp [h.inits], by simp [h.deinits, h.inits]⟩
  simp [vf_notifier_deinit, h.notifier]

theorem Fresh.unwound {x : vf_unit_t D} (h : Fresh x) : Unwound x :=
  ⟨h.initialized, h.notifier, by simp [h.inits], by simp [h.deinits, h.inits]⟩

/-- Only the connections of a unit differ. -/
def SameButQueues (x y : vf_unit_t D) : Prop :=
  ∃ a b, y = { x with in_queue := a, out_queue := b }

theorem SameButQueues.refl (x : vf_unit_t D) : SameButQueues x x := ⟨_, _, rfl⟩

theorem SameButQueues.trans {x y z : vf_unit_t D} (h : SameButQueues x y)
    (h' : SameButQueues y z) : SameButQueues x z := by
  obtain ⟨a, b, rfl⟩ := h
  obtain ⟨c, d, rfl⟩ := h'
  exact ⟨c, d, rfl⟩

theorem SameButQueues.fresh {x y : vf_unit_t D} (h : SameButQueues x y) (hx : Fresh x) :
    Fresh y := by
  obtain ⟨a, b, rfl⟩ := h
  exact ⟨hx.initialized, hx.notifier, hx.inits, hx.deinits⟩

theorem SameButQueues.operations {x y : vf_unit_t D} (h : SameButQueues x y) :
    y.operations = x.operations := by
  obtain ⟨a, b, rfl⟩ := h
  rfl

/-- Creating a unit does not touch its connections. -/
theorem vf_unit_create.queues (x : vf_unit_t D) (mutex_ok : Bool) :
    (vf_unit_create x mutex_ok).2.in_queue = x.in_queue ∧
      (vf_unit_create x mutex_ok).2.out_queue = x.out_queue := by
  unfold vf_unit_create vf_notifier_init
  rcases mutex_ok with _ | _
  · exact ⟨rfl, rfl⟩
  · rcases hinit : x.operations.init with _ | ⟨err, data⟩
    · simp [hinit]
    · by_cases herr : err = .VF_SUCCESS <;> simp [hinit, herr]

/-! ## The queues -/

/-- Both pthread inits of the queue succeed. -/
def Pthread.queue_ok (p : Pthread U) (i : Nat) : Prop :=
  p.queue_mutex i = true ∧ p.queue_cond i = true

section
variable (p : Pthread U)

instance (p : Pthread U) (i : Nat) : Decidable (p.queue_ok i) := by
  unfold Pthread.queue_ok
  infer_instance

/-- A queue that is initialised, and empty. -/
def ready : vf_buf_queue_t Frame :=
  { zeroed with capacity := VF_BUF_QUEUE_MAX_CAPACITY, initialized := 1 }

omit [DecidableEq U] in
theorem queue_init (i : Nat) (queue : vf_buf_queue_t Frame) :
    vf_buf_queue_init queue VF_BUF_QUEUE_MAX_CAPACITY (p.queue_mutex i) (p.queue_cond i) =
      if p.queue_ok i then (.VF_SUCCESS, ready) else (.VF_SYNC_ERROR, zeroed) := by
  unfold vf_buf_queue_init Pthread.queue_ok
  rw [if_neg (by decide)]
  by_cases h1 : p.queue_mutex i = true <;> by_cases h2 : p.queue_cond i = true <;>
    simp [h1, h2, ready, zeroed]

omit [DecidableEq U] in
theorem queue_deinit (i : Nat) (queue : vf_buf_queue_t Frame) :
    (vf_buf_queue_deinit queue (p.queue_destroy i)).initialized = 0 ↔
      (queue.initialized = 0 ∨ p.queue_destroy i = true) := by
  unfold vf_buf_queue_deinit
  by_cases hq : queue.initialized = 0
  · simp [hq]
  · rcases p.queue_destroy i with _ | _ <;> simp [hq, zeroed]

omit [DecidableEq U] in
/-- A list without two units has no queue. -/
theorem length_of_short {l : List U} (h : ∀ u v rest, l = u :: v :: rest → False) :
    l.length ≤ 1 := by
  rcases l with _ | ⟨u, _ | ⟨v, rest⟩⟩
  · exact Nat.zero_le 1
  · exact Nat.le_refl 1
  · exact absurd rfl (h u v rest)

/-- The loop stops at the first queue that fails: it initialises the queues before this one,
and leaves all other queues. -/
theorem init_queues.queues (l : List U) (i : Nat) (m : Mem U D)
    (hzero : ∀ j, i ≤ j → (m.pipeline.queues j).initialized = 0) :
    ((init_queues p i l m).1 = .VF_SUCCESS ↔ ∀ j, i ≤ j → j + 1 < i + l.length → p.queue_ok j) ∧
      (∀ j, i ≤ j → (((init_queues p i l m).2.pipeline.queues j).initialized ≠ 0 ↔
        j + 1 < i + l.length ∧ ∀ k, i ≤ k → k ≤ j → p.queue_ok k)) ∧
      ∀ j < i, (init_queues p i l m).2.pipeline.queues j = m.pipeline.queues j := by
  fun_induction init_queues p i l m with
  | case1 i u v rest m err queue hinit m' herr =>
    have hok : ¬ p.queue_ok i := fun hok => by
      rw [queue_init p i, if_pos hok] at hinit
      exact herr (Prod.mk.inj hinit).1.symm
    obtain rfl : queue = zeroed := by
      rw [queue_init p i, if_neg hok] at hinit
      exact (Prod.mk.inj hinit).2.symm
    refine ⟨iff_of_false herr fun h => hok (h i (Nat.le_refl i) ?_), ?_, ?_⟩
    · simp only [List.length_cons]
      omega
    · intro j hj
      refine iff_of_false (fun h => ?_) fun h => hok (h.2 i (Nat.le_refl i) hj)
      by_cases hji : j = i
      · subst hji
        exact h (by simp [m', Mem.set_queue, zeroed])
      · exact h (by simpa [m', Mem.set_queue, hji] using hzero j hj)
    · intro j hj
      have hne : j ≠ i := by omega
      simp [m', Mem.set_queue, hne]
  | case2 i u v rest m err queue hinit m1 herr m2 m3 ih =>
    have hok : p.queue_ok i := by
      by_contra hok
      rw [queue_init p i, if_neg hok] at hinit
      exact herr (fun he => by simp [← (Prod.mk.inj hinit).1] at he)
    obtain rfl : queue = ready := by
      rw [queue_init p i, if_pos hok] at hinit
      exact (Prod.mk.inj hinit).2.symm
    have hold : ∀ j, j ≠ i → m3.pipeline.queues j = m.pipeline.queues j := fun j hj => by
      simp [m3, m2, m1, Mem.set_unit, Mem.set_queue, hj]
    have hlen : i + (u :: v :: rest).length = i + 1 + (v :: rest).length := by
      simp only [List.length_cons]
      omega
    obtain ⟨h1, h2, h3⟩ := ih fun j hj => by
      rw [hold j (by omega)]
      exact hzero j (by omega)
    rw [hlen]
    refine ⟨h1.trans ⟨fun h j hj hj' => ?_, fun h j hj hj' => h j (by omega) hj'⟩, ?_, ?_⟩
    · by_cases hji : j = i
      · exact hji ▸ hok
      · exact h j (by omega) hj'
    · intro j hj
      by_cases hji : j = i
      · subst hji
        rw [h3 j (Nat.lt_succ_self j)]
        refine iff_of_true (by simp [m3, m2, m1, Mem.set_unit, Mem.set_queue, ready]) ⟨?_, ?_⟩
        · simp only [List.length_cons]
          omega
        · intro k hk hk'
          have hkj : k = j := by omega
          exact hkj ▸ hok
      · rw [h2 j (by omega)]
        refine and_congr_right fun _ => ⟨fun h k hk hk' => ?_, fun h k hk hk' => ?_⟩
        · by_cases hki : k = i
          · exact hki ▸ hok
          · exact h k (by omega) hk'
        · exact h k (by omega) hk'
    · intro j hj
      rw [h3 j (by omega), hold j (by omega)]
  | case3 l i m hshort =>
    have hlen := length_of_short hshort
    refine ⟨iff_of_true rfl fun j h1 h2 => by omega, fun j hj => ?_, fun _ _ => rfl⟩
    rw [hzero j hj]
    exact iff_of_false (by simp) fun h => by omega

/-- The loop changes nothing of a unit but its connections, and nothing else of the pipeline. -/
theorem init_queues.frame (l : List U) (i : Nat) (m : Mem U D) :
    (∀ u, SameButQueues (m.unit u) ((init_queues p i l m).2.unit u)) ∧
      (init_queues p i l m).2.pipeline.units = m.pipeline.units ∧
      (init_queues p i l m).2.pipeline.initialized = m.pipeline.initialized := by
  fun_induction init_queues p i l m with
  | case1 i u v rest m err queue hinit m' herr =>
    exact ⟨fun w => SameButQueues.refl _, rfl, rfl⟩
  | case2 i u v rest m err queue hinit m1 herr m2 m3 ih =>
    refine ⟨fun w => SameButQueues.trans ?_ (ih.1 w), ih.2.1, ih.2.2⟩
    have hu : SameButQueues (m.unit w) (m2.unit w) := by
      by_cases hw : w = u
      · subst hw
        simp only [m2, Mem.set_unit, Function.update_self]
        exact ⟨_, _, rfl⟩
      · simp only [m2, Mem.set_unit, Function.update_of_ne hw]
        exact SameButQueues.refl _
    have hv : SameButQueues (m2.unit w) (m3.unit w) := by
      by_cases hw : w = v
      · subst hw
        simp only [m3, Mem.set_unit, Function.update_self]
        exact ⟨_, _, rfl⟩
      · simp only [m3, Mem.set_unit, Function.update_of_ne hw]
        exact SameButQueues.refl _
    exact hu.trans hv
  | case3 l i m hshort => exact ⟨fun w => SameButQueues.refl _, rfl, rfl⟩

/-- Each queue from `i` on lies between two units of the list that follow each other. -/
def Wired (unit : U → vf_unit_t D) : Nat → List U → Prop
  | i, u :: v :: rest =>
    (unit u).out_queue = some i ∧ (unit v).in_queue = some i ∧ Wired unit (i + 1) (v :: rest)
  | _, _ => True

omit [DecidableEq U] in
theorem Wired.get {unit : U → vf_unit_t D} {i : Nat} {l : List U} (h : Wired unit i l) (j : Nat)
    (hj : j + 1 < l.length) :
    (unit l[j]).out_queue = some (i + j) ∧ (unit l[j + 1]).in_queue = some (i + j) := by
  fun_induction Wired unit i l generalizing j with
  | case1 i u v rest ih =>
    obtain ⟨hout, hin, hrest⟩ := h
    rcases j with _ | j
    · exact ⟨hout, hin⟩
    · have := ih hrest j (by simpa using hj)
      rw [show i + (j + 1) = i + 1 + j by omega]
      exact this
  | case2 l i hshort =>
    have := length_of_short hshort
    omega

/-- The loop leaves the units that are not in the list, and the input of the first one and
the output of the last one. -/
theorem init_queues.others (l : List U) (i : Nat) (m : Mem U D) (hl : l.Nodup) :
    (∀ u, u ∉ l.tail → ((init_queues p i l m).2.unit u).in_queue = (m.unit u).in_queue) ∧
      ∀ u, u ∉ l → ((init_queues p i l m).2.unit u).out_queue = (m.unit u).out_queue := by
  fun_induction init_queues p i l m with
  | case1 i u v rest m err queue hinit m' herr => exact ⟨fun _ _ => rfl, fun _ _ => rfl⟩
  | case2 i u v rest m err queue hinit m1 herr m2 m3 ih =>
    obtain ⟨hin, hout⟩ := ih (List.nodup_cons.mp hl).2
    refine ⟨fun w hw => ?_, fun w hw => ?_⟩
    · obtain ⟨hwv, hwr⟩ : w ≠ v ∧ w ∉ rest := by simpa using hw
      rw [hin w (by simpa using hwr)]
      by_cases hwu : w = u
      · simp [m3, m2, m1, Mem.set_unit, Mem.set_queue, hwv, ← hwu, vf_unit_connect_output]
      · simp [m3, m2, m1, Mem.set_unit, Mem.set_queue, hwv, hwu]
    · obtain ⟨hwu, hwv, hwr⟩ : w ≠ u ∧ w ≠ v ∧ w ∉ rest := by simpa using hw
      rw [hout w (by simp [hwv, hwr])]
      simp [m3, m2, m1, Mem.set_unit, Mem.set_queue, hwv, hwu]
  | case3 l i m hshort => exact ⟨fun _ _ => rfl, fun _ _ => rfl⟩

theorem init_queues.wired (l : List U) (i : Nat) (m : Mem U D) (hl : l.Nodup)
    (h : (init_queues p i l m).1 = .VF_SUCCESS) : Wired (init_queues p i l m).2.unit i l := by
  fun_induction init_queues p i l m with
  | case1 i u v rest m err queue hinit m' herr => exact absurd h herr
  | case2 i u v rest m err queue hinit m1 herr m2 m3 ih =>
    obtain ⟨hu, hrest⟩ := List.nodup_cons.mp hl
    obtain ⟨huv, hur⟩ : u ≠ v ∧ u ∉ rest := by simpa using hu
    obtain ⟨hin, hout⟩ := init_queues.others p (v :: rest) (i + 1) m3 hrest
    refine ⟨?_, ?_, ih hrest h⟩
    · rw [hout u (by simp [huv, hur])]
      simp [m3, m2, m1, Mem.set_unit, Mem.set_queue, huv, vf_unit_connect_output]
    · rw [hin v (List.nodup_cons.mp hrest).1]
      simp [m3, m2, m1, Mem.set_unit, Mem.set_queue, vf_unit_connect_input]
  | case3 l i m hshort =>
    rcases l with _ | ⟨u, _ | ⟨v, rest⟩⟩
    · trivial
    · trivial
    · exact absurd rfl (hshort u v rest)

omit [DecidableEq U] in
theorem cleanup_queues.spec (i n : Nat) (m : Mem U D) :
    (∀ j, (cleanup_queues p i n m).pipeline.queues j =
        if i ≤ j ∧ j < i + n then vf_buf_queue_deinit (m.pipeline.queues j) (p.queue_destroy j)
        else m.pipeline.queues j) ∧
      (cleanup_queues p i n m).unit = m.unit ∧
      (cleanup_queues p i n m).pipeline.units = m.pipeline.units ∧
      (cleanup_queues p i n m).pipeline.initialized = m.pipeline.initialized := by
  induction n generalizing i m with
  | zero => exact ⟨fun j => by rw [if_neg (by omega)]; rfl, rfl, rfl, rfl⟩
  | succ n ih =>
    obtain ⟨hqueues, hunit, hunits, hinit⟩ := ih (i + 1)
      (m.set_queue i (vf_buf_queue_deinit (m.pipeline.queues i) (p.queue_destroy i)))
    refine ⟨fun j => ?_, hunit, hunits, hinit⟩
    rw [cleanup_queues, hqueues j]
    by_cases hji : j = i
    · subst hji
      rw [if_neg (by omega), if_pos (by omega)]
      simp [Mem.set_queue]
    · have hiff : (i + 1 ≤ j ∧ j < i + 1 + n) ↔ (i ≤ j ∧ j < i + (n + 1)) := by omega
      simp only [hiff, Mem.set_queue, Function.update_of_ne hji]

/-! ## The units -/

/-- The units of the list, created. -/
def create_all (units : List U) (m : Mem U D) : Mem U D :=
  units.foldl (fun m u => m.set_unit u (vf_unit_create (m.unit u) (p.notifier u)).2) m

theorem create_all.unit {units : List U} (h : units.Nodup) (m : Mem U D) (v : U) :
    (create_all p units m).unit v =
      if v ∈ units then (vf_unit_create (m.unit v) (p.notifier v)).2 else m.unit v := by
  induction units generalizing m with
  | nil => simp [create_all]
  | cons u rest ih =>
    obtain ⟨hu, hrest⟩ := List.nodup_cons.mp h
    have hstep : create_all p (u :: rest) m =
        create_all p rest (m.set_unit u (vf_unit_create (m.unit u) (p.notifier u)).2) := rfl
    rw [hstep, ih hrest]
    by_cases hv : v = u
    · subst hv
      simp [Mem.set_unit, hu]
    · simp [Mem.set_unit, hv]

theorem create_all.pipeline (units : List U) (m : Mem U D) :
    (create_all p units m).pipeline = m.pipeline := by
  induction units generalizing m with
  | nil => rfl
  | cons u rest ih =>
    exact ih (m.set_unit u (vf_unit_create (m.unit u) (p.notifier u)).2)

/-- The units that are created before the first failure. -/
theorem create_units.creates (created before rest : List U) (m : Mem U D)
    (hnodup : before.Nodup) (hfresh : ∀ v ∈ before, Fresh (m.unit v))
    (h : ∀ v ∈ before, Creates (m.unit v) (p.notifier v)) :
    create_units p created (before ++ rest) m =
      create_units p (before.reverse ++ created) rest (create_all p before m) := by
  induction before generalizing created m with
  | nil => rfl
  | cons u before ih =>
    obtain ⟨hu, hbefore⟩ := List.nodup_cons.mp hnodup
    have hmade := vf_unit_create.made (hfresh u List.mem_cons_self) (h u List.mem_cons_self)
    have hsame : ∀ v ∈ before,
        (m.set_unit u (vf_unit_create (m.unit u) (p.notifier u)).2).unit v = m.unit v := by
      intro v hv
      have hvu : v ≠ u := fun he => hu (he ▸ hv)
      simp [Mem.set_unit, hvu]
    have hrun := ih (u :: created)
      (m.set_unit u (vf_unit_create (m.unit u) (p.notifier u)).2) hbefore
      (fun v hv => by rw [hsame v hv]; exact hfresh v (List.mem_cons_of_mem u hv))
      (fun v hv => by rw [hsame v hv]; exact h v (List.mem_cons_of_mem u hv))
    rw [List.cons_append, create_units]
    simp only [hmade.1, ne_eq, not_true_eq_false, if_false, hrun]
    simp [create_all]

theorem vf_unit_destroy_twice (x : vf_unit_t D) :
    vf_unit_destroy (vf_unit_destroy x) = vf_unit_destroy x := by
  by_cases h : x.initialized = 0 <;> simp [vf_unit_destroy, h]

theorem cleanup_units.spec (l : List U) (m : Mem U D) :
    (∀ v, (cleanup_units l m).unit v = if v ∈ l then vf_unit_destroy (m.unit v) else m.unit v) ∧
      (cleanup_units l m).pipeline = m.pipeline := by
  induction l generalizing m with
  | nil => exact ⟨by simp [cleanup_units], rfl⟩
  | cons u rest ih =>
    obtain ⟨hunit, hpipeline⟩ := ih (m.set_unit u (vf_unit_destroy (m.unit u)))
    refine ⟨fun v => ?_, hpipeline⟩
    rw [cleanup_units, hunit v]
    by_cases hv : v = u
    · subst hv
      simp [Mem.set_unit, vf_unit_destroy_twice]
    · simp [Mem.set_unit, hv]

end

/-! ## All or nothing -/

/-- Nothing is initialised, and each unit whose `init` succeeded was deinitialised once. -/
structure NothingLeft (P : Pipeline U) (m : Mem U D) : Prop where
  queues : ∀ i, (m.pipeline.queues i).initialized = 0
  units : ∀ u ∈ P.units, Unwound (m.unit u)
  pipeline : m.pipeline.initialized = 0

/-- All is initialised, and the `i`-th queue lies between the units `i` and `i + 1`. -/
structure AllReady (P : Pipeline U) (m : Mem U D) : Prop where
  queues : ∀ i, i + 1 < P.units.length → (m.pipeline.queues i).initialized ≠ 0
  units : ∀ u ∈ P.units, Made (m.unit u)
  wired : ∀ i (h : i + 1 < P.units.length),
    (m.unit P.units[i]).out_queue = some i ∧ (m.unit P.units[i + 1]).in_queue = some i
  pipeline : m.pipeline.initialized = 1

structure AllOrNothing (P : Pipeline U) (err : vf_err_t) (m : Mem U D) : Prop where
  nothing : err ≠ .VF_SUCCESS → NothingLeft P m
  all : err = .VF_SUCCESS → AllReady P m

/-- The pipeline before `vf_pipeline_create`. -/
def set_up (P : Pipeline U) (config : U → vf_unit_operations_t D × Option D) : Mem U D :=
  ⟨P.units.foldl (fun pipeline u => (vf_pipeline_add_unit pipeline u).2) vf_pipeline_init,
    fun u => .configured (config u).1 (config u).2⟩

/-- Where a part fails, the mutexes of the initialised queues can be destroyed, and the unit
that fails has an `init` or no notifier. -/
structure Unwinds (P : Pipeline U) (config : U → vf_unit_operations_t D × Option D)
    (p : Pthread U) : Prop where
  queues : (∃ i, i + 1 < P.units.length ∧ ¬ p.queue_ok i) →
    ∀ i, i + 1 < P.units.length → (∀ k ≤ i, p.queue_ok k) → p.queue_destroy i = true
  units : (∀ i, i + 1 < P.units.length → p.queue_ok i) →
    ∀ before u after, P.units = before ++ u :: after →
      (∀ v ∈ before, Creates (.configured (config v).1 (config v).2) (p.notifier v)) →
      ¬ Creates (.configured (config u).1 (config u).2) (p.notifier u) →
        (∀ i, i + 1 < P.units.length → p.queue_destroy i = true) ∧
          (p.notifier u = true → (config u).1.init ≠ none)

omit [DecidableEq U] in
theorem add_units (units : List U) (pipeline : vf_pipeline_t U)
    (h : pipeline.units.length + units.length ≤ VF_PIPELINE_MAX_UNITS) :
    units.foldl (fun pipeline u => (vf_pipeline_add_unit pipeline u).2) pipeline =
      { pipeline with units := pipeline.units ++ units } := by
  induction units generalizing pipeline with
  | nil => simp
  | cons u rest ih =>
    simp only [List.length_cons] at h
    have hroom : ¬ pipeline.units.length ≥ VF_PIPELINE_MAX_UNITS := by omega
    rw [List.foldl_cons, vf_pipeline_add_unit, if_neg hroom, ih]
    · simp
    · simp only [List.length_append, List.length_cons, List.length_nil]
      omega

omit [DecidableEq U] in
theorem set_up.eq (P : Pipeline U) (config : U → vf_unit_operations_t D × Option D) :
    set_up P config =
      ⟨⟨P.units, fun _ => zeroed, 0⟩, fun u => .configured (config u).1 (config u).2⟩ := by
  unfold set_up
  rw [add_units _ _ (by simpa [vf_pipeline_init] using P.fits)]
  rfl

omit [DecidableEq U] in
/-- There is one first failure. -/
theorem first_failure_unique {ok : U → Prop} {before before' after after' : List U} {u u' : U}
    (heq : before ++ u :: after = before' ++ u' :: after') (h : ∀ v ∈ before, ok v)
    (hu : ¬ ok u) (h' : ∀ v ∈ before', ok v) (hu' : ¬ ok u') : u = u' := by
  induction before generalizing before' with
  | nil =>
    rcases before' with _ | ⟨w, before'⟩
    · exact (List.cons.inj heq).1
    · rw [(List.cons.inj heq).1] at hu
      exact absurd (h' w List.mem_cons_self) hu
  | cons w before ih =>
    rcases before' with _ | ⟨w', before'⟩
    · rw [← (List.cons.inj heq).1] at hu'
      exact absurd (h w List.mem_cons_self) hu'
    · exact ih (List.cons.inj heq).2 (fun v hv => h v (List.mem_cons_of_mem w hv))
        fun v hv => h' v (List.mem_cons_of_mem w' hv)

section
variable (P : Pipeline U) (config : U → vf_unit_operations_t D × Option D) (p : Pthread U)

/-- The pipeline after its first loop. -/
abbrev queued : Mem U D := (init_queues p 0 P.units (set_up P config)).2

theorem queued.success : (init_queues p 0 P.units (set_up P config)).1 = .VF_SUCCESS ↔
    ∀ i, i + 1 < P.units.length → p.queue_ok i := by
  have h := (init_queues.queues p P.units 0 (set_up P config) fun j _ => by
    rw [set_up.eq]
    rfl).1
  simpa using h

theorem queued.queues (i : Nat) : ((queued P config p).pipeline.queues i).initialized ≠ 0 ↔
    i + 1 < P.units.length ∧ ∀ k ≤ i, p.queue_ok k := by
  have h := (init_queues.queues p P.units 0 (set_up P config) fun j _ => by
    rw [set_up.eq]
    rfl).2.1 i (Nat.zero_le i)
  simpa using h

theorem queued.unit (u : U) :
    SameButQueues (.configured (config u).1 (config u).2) ((queued P config p).unit u) := by
  have h := (init_queues.frame p P.units 0 (set_up P config)).1 u
  have hstart : (set_up P config).unit u = .configured (config u).1 (config u).2 := rfl
  rwa [hstart] at h

theorem queued.fresh (u : U) : Fresh ((queued P config p).unit u) :=
  (queued.unit P config p u).fresh ⟨rfl, rfl, rfl, rfl⟩

theorem queued.creates (u : U) :
    Creates ((queued P config p).unit u) (p.notifier u) ↔
      Creates (.configured (config u).1 (config u).2) (p.notifier u) := by
  unfold Creates
  rw [(queued.unit P config p u).operations]

theorem queued.pipeline : (queued P config p).pipeline.units = P.units ∧
    (queued P config p).pipeline.initialized = 0 := by
  obtain ⟨-, hunits, hinit⟩ := init_queues.frame p P.units 0 (set_up P config)
  refine ⟨hunits.trans ?_, hinit.trans ?_⟩ <;> rw [set_up.eq]

/-- What the last loop leaves: the queues whose mutex cannot be destroyed. -/
theorem nothing_left {m : Mem U D}
    (hqueues : m.pipeline.queues = (queued P config p).pipeline.queues)
    (hinit : m.pipeline.initialized = 0) :
    NothingLeft P (cleanup_queues p 0 (P.units.length - 1) m) ↔
      (∀ i, i + 1 < P.units.length → (∀ k ≤ i, p.queue_ok k) → p.queue_destroy i = true) ∧
        ∀ u ∈ P.units, Unwound (m.unit u) := by
  obtain ⟨hclean, hunit, -, hpipeline⟩ := cleanup_queues.spec p 0 (P.units.length - 1) m
  have htwo := P.at_least_two
  have hqueue : ∀ i, ((cleanup_queues p 0 (P.units.length - 1) m).pipeline.queues i).initialized
      = 0 ↔ (i + 1 < P.units.length → (∀ k ≤ i, p.queue_ok k) → p.queue_destroy i = true) := by
    intro i
    have hstate := queued.queues P config p i
    rw [hclean i, hqueues]
    by_cases hi : i + 1 < P.units.length
    · rw [if_pos (by omega), queue_deinit]
      constructor
      · intro h _ hok
        exact h.resolve_left (hstate.mpr ⟨hi, hok⟩)
      · intro h
        by_contra hno
        push Not at hno
        exact hno.2 (h hi (hstate.mp hno.1).2)
    · rw [if_neg (by omega)]
      refine iff_of_true ?_ fun h => absurd h hi
      by_contra hne
      exact hi (hstate.mp hne).1
  constructor
  · intro h
    refine ⟨fun i => (hqueue i).mp (h.queues i), fun u hu => ?_⟩
    rw [← hunit]
    exact h.units u hu
  · rintro ⟨hq, hu⟩
    refine ⟨fun i => (hqueue i).mpr (hq i), fun u h => ?_, hpipeline.trans hinit⟩
    rw [hunit]
    exact hu u h

/-- A unit fails: what was created is destroyed, and only the failing unit may keep
something. -/
theorem nothing_left_of_units {before after : List U} {u : U}
    (heq : P.units = before ++ u :: after)
    (hbefore : ∀ v ∈ before, Creates (.configured (config v).1 (config v).2) (p.notifier v))
    (hu : ¬ Creates (.configured (config u).1 (config u).2) (p.notifier u)) :
    ∃ err m, create_units p [] P.units (queued P config p) = (err, before.reverse, m) ∧
      err ≠ .VF_SUCCESS ∧ m.pipeline = (queued P config p).pipeline ∧
      ((∀ v ∈ P.units, Unwound ((cleanup_units before.reverse m).unit v)) ↔
        (p.notifier u = true → (config u).1.init ≠ none)) := by
  have hnodup : (before ++ u :: after).Nodup := heq ▸ P.distinct
  have hbnodup : before.Nodup := hnodup.of_append_left
  have hub : u ∉ before := fun h =>
    (List.nodup_append.mp hnodup).2.2 u h u List.mem_cons_self rfl
  have hrun := create_units.creates p [] before (u :: after) (queued P config p) hbnodup
    (fun v _ => queued.fresh P config p v)
    fun v hv => (queued.creates P config p v).mpr (hbefore v hv)
  have hunit : (create_all p before (queued P config p)).unit u = (queued P config p).unit u := by
    rw [create_all.unit p hbnodup, if_neg hub]
  obtain ⟨herr, hleft⟩ := vf_unit_create.fails (queued.fresh P config p u)
    fun hc => hu ((queued.creates P config p u).mp hc)
  have hops := (queued.unit P config p u).operations
  rw [hops] at hleft
  rw [heq, hrun, create_units]
  simp only [hunit, herr, ne_eq, not_false_eq_true, if_true, List.append_nil]
  refine ⟨_, _, rfl, herr, create_all.pipeline p before (queued P config p), ?_⟩
  refine Iff.trans ?_ hleft
  obtain ⟨hclean, -⟩ := cleanup_units.spec before.reverse
    ((create_all p before (queued P config p)).set_unit u
      (vf_unit_create ((queued P config p).unit u) (p.notifier u)).2)
  have hnotrev : u ∉ before.reverse := by simpa using hub
  constructor
  · intro h
    have hlast := h u (by simp)
    rw [hclean u, if_neg hnotrev] at hlast
    simpa [Mem.set_unit] using hlast
  · intro h v hv
    rw [hclean v]
    by_cases hvu : v = u
    · rw [hvu, if_neg hnotrev]
      simpa [Mem.set_unit] using h
    · have hsame : ((create_all p before (queued P config p)).set_unit u
          (vf_unit_create ((queued P config p).unit u) (p.notifier u)).2).unit v =
          (create_all p before (queued P config p)).unit v := by
        simp [Mem.set_unit, hvu]
      have hfresh := queued.fresh P config p v
      rw [hsame, create_all.unit p hbnodup]
      by_cases hvb : v ∈ before
      · rw [if_pos (List.mem_reverse.mpr hvb), if_pos hvb]
        exact vf_unit_destroy.made (vf_unit_create.made hfresh
          ((queued.creates P config p v).mpr (hbefore v hvb))).2
      · rw [if_neg (by simpa using hvb), if_neg hvb]
        exact hfresh.unwound

/-- All parts succeed. -/
theorem all_ready (hok : ∀ i, i + 1 < P.units.length → p.queue_ok i)
    (hall : ∀ v ∈ P.units, Creates (.configured (config v).1 (config v).2) (p.notifier v)) :
    ∃ created m, create_units p [] P.units (queued P config p) = (.VF_SUCCESS, created, m) ∧
      AllReady P { m with pipeline := { m.pipeline with initialized := 1 } } := by
  have hrun := create_units.creates p [] P.units [] (queued P config p) P.distinct
    (fun v _ => queued.fresh P config p v)
    fun v hv => (queued.creates P config p v).mpr (hall v hv)
  rw [List.append_nil] at hrun
  rw [hrun]
  have hwired := init_queues.wired p P.units 0 (set_up P config) P.distinct
    ((queued.success P config p).mpr hok)
  have hunit : ∀ v ∈ P.units, (create_all p P.units (queued P config p)).unit v =
      (vf_unit_create ((queued P config p).unit v) (p.notifier v)).2 := fun v hv => by
    rw [create_all.unit p P.distinct, if_pos hv]
  refine ⟨_, _, rfl, ?_, fun v hv => ?_, fun i hi => ?_, rfl⟩
  · intro i hi
    change ((create_all p P.units (queued P config p)).pipeline.queues i).initialized ≠ 0
    rw [create_all.pipeline]
    exact (queued.queues P config p i).mpr ⟨hi, fun k hk => hok k (by omega)⟩
  · change Made ((create_all p P.units (queued P config p)).unit v)
    rw [hunit v hv]
    exact (vf_unit_create.made (queued.fresh P config p v)
      ((queued.creates P config p v).mpr (hall v hv))).2
  · change ((create_all p P.units (queued P config p)).unit P.units[i]).out_queue = some i ∧
      ((create_all p P.units (queued P config p)).unit P.units[i + 1]).in_queue = some i
    rw [hunit _ (List.getElem_mem _), hunit _ (List.getElem_mem _), (vf_unit_create.queues _ _).2,
      (vf_unit_create.queues _ _).1]
    have := hwired.get i hi
    rwa [Nat.zero_add] at this

theorem vf_pipeline_create.spec :
    AllOrNothing P (vf_pipeline_create p (set_up P config)).1
      (vf_pipeline_create p (set_up P config)).2 ↔ Unwinds P config p := by
  have hsuccess := queued.success P config p
  obtain ⟨hunits, hinit⟩ := queued.pipeline P config p
  have hstart : (set_up P config).pipeline.units = P.units := by rw [set_up.eq]
  have htwo := P.at_least_two
  unfold vf_pipeline_create
  rw [hstart, if_neg (by omega)]
  dsimp only
  by_cases hok : ∀ i, i + 1 < P.units.length → p.queue_ok i
  · rw [if_neg (by rw [hsuccess.mpr hok]; simp), hunits]
    rcases first_failure
      (fun v => Creates (.configured (config v).1 (config v).2) (p.notifier v)) P.units with
      hall | ⟨before, u, after, heq, hbefore, hu⟩
    · obtain ⟨created, m, hrun, hready⟩ := all_ready P config p hok hall
      rw [hrun]
      refine iff_of_true ⟨fun h => absurd rfl h, fun _ => hready⟩ ⟨?_, ?_⟩
      · rintro ⟨i, hi, hno⟩
        exact absurd (hok i hi) hno
      · intro _ before u after heq _ hno
        exact absurd (hall u (by simp [heq])) hno
    · obtain ⟨err, m, hrun, herr, hpipeline, hleft⟩ :=
        nothing_left_of_units P config p heq hbefore hu
      have hclean := (cleanup_units.spec before.reverse m).2
      rw [hrun]
      simp only [herr, ne_eq, not_false_eq_true, if_true]
      have hnothing := nothing_left P config p (m := cleanup_units before.reverse m)
        (by rw [hclean, hpipeline]) (by rw [hclean, hpipeline, hinit])
      rw [hleft] at hnothing
      constructor
      · rintro ⟨h, -⟩
        obtain ⟨hq, hi⟩ := hnothing.mp (h herr)
        have hq' : ∀ i, i + 1 < P.units.length → p.queue_destroy i = true :=
          fun i hlt => hq i hlt fun k hk => hok k (by omega)
        refine ⟨fun _ i hlt _ => hq' i hlt, ?_⟩
        intro _ before' u' after' heq' hbefore' hu'
        obtain rfl := first_failure_unique (heq.symm.trans heq') hbefore hu hbefore' hu'
        exact ⟨hq', hi⟩
      · intro h
        obtain ⟨hq, hi⟩ := h.units hok before u after heq hbefore hu
        refine ⟨fun _ => hnothing.mpr ⟨fun i hlt _ => hq i hlt, hi⟩, fun he => absurd he herr⟩
  · have herr : (init_queues p 0 P.units (set_up P config)).1 ≠ .VF_SUCCESS :=
      fun h => hok (hsuccess.mp h)
    rw [if_pos herr]
    have hnothing := nothing_left P config p (m := queued P config p) rfl hinit
    have hfresh : ∀ u ∈ P.units, Unwound ((queued P config p).unit u) :=
      fun u _ => (queued.fresh P config p u).unwound
    have hsome : ∃ i, i + 1 < P.units.length ∧ ¬ p.queue_ok i := by
      push Not at hok
      exact hok
    constructor
    · rintro ⟨h, -⟩
      exact ⟨fun _ => (hnothing.mp (h herr)).1, fun hall => absurd hall hok⟩
    · intro h
      exact ⟨fun _ => hnothing.mpr ⟨h.queues hsome, hfresh⟩, fun he => absurd he herr⟩

end

/-- Whatever fails, `vf_pipeline_create` leaves all or nothing, just if the unit that fails is
not one whose notifier is initialised and that has no `init`, and the mutexes of the queues
can be destroyed again. -/
theorem a_pipeline_is_created_all_or_nothing (P : Pipeline U)
    (config : U → vf_unit_operations_t D × Option D) (p : Pthread U) :
    AllOrNothing P (vf_pipeline_create p (set_up P config)).1
      (vf_pipeline_create p (set_up P config)).2 ↔ Unwinds P config p :=
  vf_pipeline_create.spec P config p

/-- The second of two units has no `init`. It is not created, but its notifier stays
initialised. -/
theorem a_notifier_is_left :
    ∃ (P : Pipeline Bool) (config : Bool → vf_unit_operations_t Unit × Option Unit)
      (p : Pthread Bool),
      (vf_pipeline_create p (set_up P config)).1 = .VF_INIT_FAILED ∧
      ((vf_pipeline_create p (set_up P config)).2.unit false).notifier.initialized = 1 ∧
      ¬ AllOrNothing P (vf_pipeline_create p (set_up P config)).1
        (vf_pipeline_create p (set_up P config)).2 := by
  refine ⟨⟨[true, false], by simp, by simp [VF_PIPELINE_MAX_UNITS], by simp⟩,
    fun u => (⟨if u then some (.VF_SUCCESS, none) else none, true⟩, none),
    ⟨fun _ => true, fun _ => true, fun _ => true, fun _ => true⟩, rfl, rfl, ?_⟩
  intro h
  have hleft := ((h.nothing (by decide)).units false (by simp)).notifier
  revert hleft
  decide

end vision_flow.pipeline_create
