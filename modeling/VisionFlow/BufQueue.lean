-- The buffer queue (vf-buff-queue.c): a ring of 16 frame pointers. For any sequence
-- of calls, the ring gives what a bounded list of frames gives. The pthread calls
-- succeed, and a call is one critical section.
import VisionFlow.Common
import VisionFlow.Lib.Ring
import VisionFlow.Lib.Runs

namespace vision_flow.buf_queue

open ring

/-! ## The code -/

def VF_BUF_QUEUE_MAX_CAPACITY : Nat := 16

/-- A `vf_framebuffer_t *` is an `Option α`: `none` is NULL. -/
structure vf_buf_queue_t (α : Type) where
  slots : Nat → Option α
  head : Nat
  tail : Nat
  count : Nat
  capacity : Nat
  initialized : Nat
  shutdown : Bool

variable {α : Type}

/-- The queue after the `memset` to 0. -/
def zeroed : vf_buf_queue_t α :=
  { slots := fun _ => none, head := 0, tail := 0, count := 0, capacity := 0,
    initialized := 0, shutdown := false }

/-- `mutex_ok` and `cond_ok` say if the two pthread inits succeed. -/
def vf_buf_queue_init (queue : vf_buf_queue_t α) (capacity : Nat) (mutex_ok cond_ok : Bool) :
    vf_err_t × vf_buf_queue_t α :=
  if capacity = 0 ∨ capacity > VF_BUF_QUEUE_MAX_CAPACITY then
    (.VF_INVALID_PARAMETER, queue)
  else if !mutex_ok then
    (.VF_SYNC_ERROR, zeroed)
  else if !cond_ok then
    (.VF_SYNC_ERROR, zeroed)
  else
    (.VF_SUCCESS, { (zeroed : vf_buf_queue_t α) with
      capacity := capacity, head := 0, tail := 0, count := 0, initialized := 1,
      shutdown := false })

def vf_buf_queue_push (queue : vf_buf_queue_t α) (fb : Option α) :
    vf_err_t × vf_buf_queue_t α :=
  if fb.isNone then
    (.VF_INVALID_PARAMETER, queue)
  else if queue.initialized = 0 then
    (.VF_INIT_FAILED, queue)
  else if queue.count ≥ queue.capacity then
    (.VF_OOM, queue)
  else
    (.VF_SUCCESS, { queue with
      slots := Function.update queue.slots queue.tail fb
      tail := u32 (queue.tail + 1) % queue.capacity
      count := u32 (queue.count + 1) })

/-- The end of both pops: the frame of the head, and the queue without it. -/
def take_head (queue : vf_buf_queue_t α) : Option α × vf_buf_queue_t α :=
  (queue.slots queue.head, { queue with
    slots := Function.update queue.slots queue.head none
    head := u32 (queue.head + 1) % queue.capacity
    count := u32_sub queue.count 1 })

/-- The value of `*out_fb` goes in, and comes out after the return code. -/
def vf_buf_queue_pop (queue : vf_buf_queue_t α) (out_fb : Option α) :
    vf_err_t × Option α × vf_buf_queue_t α :=
  if queue.initialized = 0 then
    (.VF_INIT_FAILED, out_fb, queue)
  else if queue.count = 0 then
    (.VF_FILE_ERR, none, queue)
  else
    (.VF_SUCCESS, take_head queue)

def vf_buf_queue_shutdown (queue : vf_buf_queue_t α) : vf_buf_queue_t α :=
  { queue with shutdown := true }

/-- `none`: the caller waits in `pthread_cond_wait`. -/
def vf_buf_queue_pop_blocking (queue : vf_buf_queue_t α) (out_fb : Option α) :
    Option (vf_err_t × Option α × vf_buf_queue_t α) :=
  if queue.initialized = 0 then
    some (.VF_INIT_FAILED, out_fb, queue)
  else if queue.count = 0 then
    if queue.shutdown then some (.VF_QUEUE_SHUTDOWN, none, queue) else none
  else
    some (.VF_SUCCESS, take_head queue)

def vf_buf_queue_reset (queue : vf_buf_queue_t α) : vf_buf_queue_t α :=
  { queue with shutdown := false }

/-- `mutex_ok` says if `pthread_mutex_destroy` succeeds. The result of `pthread_cond_destroy`
is only logged. -/
def vf_buf_queue_deinit (queue : vf_buf_queue_t α) (mutex_ok : Bool) : vf_buf_queue_t α :=
  if queue.initialized = 0 then queue
  else if !mutex_ok then queue
  else zeroed

def vf_buf_queue_count (queue : vf_buf_queue_t α) : Nat :=
  if queue.initialized = 0 then 0 else queue.count

def vf_buf_queue_is_full (queue : vf_buf_queue_t α) : Nat :=
  if queue.initialized = 0 then 0
  else if queue.count ≥ queue.capacity then 1 else 0

def vf_buf_queue_is_empty (queue : vf_buf_queue_t α) : Nat :=
  if queue.initialized = 0 then 1
  else if queue.count = 0 then 1 else 0

/-! ## The abstract queue -/

/-- A list of at most `capacity` frames, oldest first, and the shutdown flag. -/
structure Fifo (α : Type) where
  items : List α
  capacity : Nat
  shutdown : Bool
  fits : items.length ≤ capacity

namespace Fifo

def empty (capacity : Nat) : Fifo α := ⟨[], capacity, false, Nat.zero_le _⟩

/-- A frame goes to the end of the list, when there is room. -/
def push (f : Fifo α) (x : α) : vf_err_t × Fifo α :=
  if h : f.items.length < f.capacity then
    (.VF_SUCCESS, { f with items := f.items ++ [x], fits := by simp; omega })
  else (.VF_OOM, f)

/-- The first frame leaves the list. -/
def pop (f : Fifo α) : vf_err_t × Option α × Fifo α :=
  match h : f.items with
  | [] => (.VF_FILE_ERR, none, f)
  | x :: rest => (.VF_SUCCESS, some x, { f with
      items := rest, fits := by have := f.fits; simp [h] at this; omega })

/-- As `pop`, but an empty list says "shut down", or lets the caller wait. -/
def popBlocking (f : Fifo α) : Option (vf_err_t × Option α × Fifo α) :=
  if f.items = [] then
    if f.shutdown then some (.VF_QUEUE_SHUTDOWN, none, f) else none
  else some f.pop

theorem pop_nil (f : Fifo α) (h : f.items = []) : f.pop = (.VF_FILE_ERR, none, f) := by
  obtain ⟨items, capacity, shutdown, fits⟩ := f
  subst h
  rfl

theorem pop_cons (f : Fifo α) (x : α) (rest : List α) (h : f.items = x :: rest) :
    ∃ hfit : rest.length ≤ f.capacity,
      f.pop = (.VF_SUCCESS, some x, { f with items := rest, fits := hfit }) := by
  obtain ⟨items, capacity, shutdown, fits⟩ := f
  subst h
  exact ⟨Nat.le_of_succ_le fits, rfl⟩

end Fifo

/-! ## Calls, and what they answer -/

/-- The calls of the claim about sequences. A pop names the old value of `*out_fb`. -/
inductive Call (α : Type)
  | push (fb : Option α)
  | pop (out_fb : Option α)
  | pop_blocking (out_fb : Option α)
  | shutdown
  | reset
  | count
  | is_full
  | is_empty

inductive Answer (α : Type)
  | err (e : vf_err_t)
  | popped (e : vf_err_t) (out_fb : Option α)
  | num (n : Nat)
  | unit

/-- A call on the queue of the code, with its answer. `none`: the call waits. -/
def call (queue : vf_buf_queue_t α) : Call α → Option (Answer α × vf_buf_queue_t α)
  | .push fb => let r := vf_buf_queue_push queue fb; some (.err r.1, r.2)
  | .pop out => let r := vf_buf_queue_pop queue out; some (.popped r.1 r.2.1, r.2.2)
  | .pop_blocking out =>
    (vf_buf_queue_pop_blocking queue out).map fun r => (.popped r.1 r.2.1, r.2.2)
  | .shutdown => some (.unit, vf_buf_queue_shutdown queue)
  | .reset => some (.unit, vf_buf_queue_reset queue)
  | .count => some (.num (vf_buf_queue_count queue), queue)
  | .is_full => some (.num (vf_buf_queue_is_full queue), queue)
  | .is_empty => some (.num (vf_buf_queue_is_empty queue), queue)

/-- The same call on the abstract queue. -/
def Fifo.call (f : Fifo α) : Call α → Option (Answer α × Fifo α)
  | .push none => some (.err .VF_INVALID_PARAMETER, f)
  | .push (some x) => let r := f.push x; some (.err r.1, r.2)
  | .pop _ => let r := f.pop; some (.popped r.1 r.2.1, r.2.2)
  | .pop_blocking _ => f.popBlocking.map fun r => (.popped r.1 r.2.1, r.2.2)
  | .shutdown => some (.unit, { f with shutdown := true })
  | .reset => some (.unit, { f with shutdown := false })
  | .count => some (.num f.items.length, f)
  | .is_full => some (.num (if f.items.length < f.capacity then 0 else 1), f)
  | .is_empty => some (.num (if f.items = [] then 1 else 0), f)

/-- The answers of a sequence of calls, and the queue at its end. -/
def calls {κ : Type} (step : κ → Call α → Option (Answer α × κ)) (q : κ) :
    List (Call α) → Option (List (Answer α) × κ)
  | [] => some ([], q)
  | c :: rest => (step q c).bind fun r =>
      (calls step r.2 rest).map fun t => (r.1 :: t.1, t.2)

/-! ## The simulation -/

/-- The ring holds the list: its occupied cells, from the head on, are the items, and
every other cell is NULL. -/
structure Sim (queue : vf_buf_queue_t α) (f : Fifo α) : Prop where
  initialized : queue.initialized = 1
  capacity : queue.capacity = f.capacity
  cap_pos : 0 < queue.capacity
  cap_le : queue.capacity ≤ VF_BUF_QUEUE_MAX_CAPACITY
  head_lt : queue.head < queue.capacity
  tail_lt : queue.tail < queue.capacity
  count_le : queue.count ≤ queue.capacity
  tail_eq : queue.tail = (queue.head + queue.count) % queue.capacity
  items : around queue.slots queue.head queue.capacity queue.count = f.items.map some
  free : ∀ i, ¬ Occupied queue.head queue.capacity queue.count i → queue.slots i = none
  shutdown : queue.shutdown = f.shutdown

/-- Two results agree: both wait, or both give the same answer and queues that simulate. -/
def Agree {ρ : Type} : Option (ρ × vf_buf_queue_t α) → Option (ρ × Fifo α) → Prop
  | none, none => True
  | some a, some b => a.1 = b.1 ∧ Sim a.2 b.2
  | _, _ => False

theorem Sim.count {queue : vf_buf_queue_t α} {f : Fifo α} (h : Sim queue f) :
    queue.count = f.items.length := by
  have := congrArg List.length h.items
  simpa using this

/-- A capacity fits 32 bits, so no index of the ring wraps. -/
theorem Sim.small {queue : vf_buf_queue_t α} {f : Fifo α} (h : Sim queue f) :
    queue.capacity ≤ 16 := h.cap_le

theorem vf_buf_queue_init.spec (queue : vf_buf_queue_t α) (capacity : Nat)
    (h1 : 1 ≤ capacity) (h2 : capacity ≤ VF_BUF_QUEUE_MAX_CAPACITY) :
    (vf_buf_queue_init queue capacity true true).1 = .VF_SUCCESS ∧
      Sim (vf_buf_queue_init queue capacity true true).2 (Fifo.empty capacity) := by
  have hbad : ¬ (capacity = 0 ∨ capacity > VF_BUF_QUEUE_MAX_CAPACITY) := by omega
  simp only [vf_buf_queue_init, hbad, if_false, Bool.not_true, Bool.false_eq_true, true_and]
  exact ⟨rfl, rfl, h1, h2, h1, h1, Nat.zero_le _, by simp, rfl, fun _ _ => rfl, rfl⟩

theorem vf_buf_queue_push.spec {queue : vf_buf_queue_t α} {f : Fifo α} (h : Sim queue f)
    (x : α) :
    (vf_buf_queue_push queue (some x)).1 = (f.push x).1 ∧
      Sim (vf_buf_queue_push queue (some x)).2 (f.push x).2 := by
  have hcount := h.count
  have hcap := h.capacity
  have hsmall := h.small
  have hroom := h.count_le
  unfold vf_buf_queue_push Fifo.push
  by_cases hlt : f.items.length < f.capacity
  · have hfull : ¬ queue.count ≥ queue.capacity := by omega
    have htail : u32 (queue.tail + 1) = queue.tail + 1 := u32_of_lt (by have := h.tail_lt; omega)
    have hsucc : u32 (queue.count + 1) = queue.count + 1 := u32_of_lt (by omega)
    simp only [Option.isNone_some, Bool.false_eq_true, if_false, h.initialized, one_ne_zero,
      hfull, hlt, dif_pos, htail, hsucc, true_and]
    refine ⟨rfl, hcap, h.cap_pos, h.cap_le, h.head_lt, Nat.mod_lt _ h.cap_pos, by simp only; omega,
      ?_, ?_, ?_, h.shutdown⟩
    · simp only [h.tail_eq, Nat.mod_add_mod, Nat.add_assoc]
    · simp only [h.tail_eq, List.map_append, List.map_cons, List.map_nil]
      rw [around_push _ _ (by omega), h.items]
    · intro i hi
      simp only [occupied_push, not_or, ← h.tail_eq] at hi
      simp only [Function.update_of_ne hi.2]
      exact h.free i hi.1
  · have hfull : queue.count ≥ queue.capacity := by omega
    simp only [Option.isNone_some, Bool.false_eq_true, if_false, h.initialized, one_ne_zero,
      hfull, if_true, hlt, dif_neg, not_false_eq_true, true_and]
    exact h

/-- The head of a ring that holds a list is the first item, and the ring without it
holds the rest. -/
theorem take_head.spec {queue : vf_buf_queue_t α} {f : Fifo α} (h : Sim queue f) (x : α)
    (rest : List α) (hi : f.items = x :: rest) (hfit : rest.length ≤ f.capacity) :
    (take_head queue).1 = some x ∧
      Sim (take_head queue).2 { f with items := rest, fits := hfit } := by
  have hcount := h.count
  have hsmall := h.small
  have hroom := h.count_le
  have hn : queue.count = rest.length + 1 := by rw [hcount, hi]; rfl
  have hpop := around_pop queue.slots none h.head_lt (n := rest.length) (by omega)
  have hitems := h.items
  rw [hn, hpop, hi, List.map_cons, List.cons.injEq] at hitems
  have hhead : u32 (queue.head + 1) = queue.head + 1 := u32_of_lt (by have := h.head_lt; omega)
  have hpred : u32_sub queue.count 1 = rest.length := by
    rw [u32_sub_of_le (by omega) (by omega)]
    omega
  refine ⟨hitems.1, h.initialized, h.capacity, h.cap_pos, h.cap_le, ?_, h.tail_lt, ?_, ?_, ?_, ?_,
    h.shutdown⟩
  · exact Nat.mod_lt _ h.cap_pos
  · simp only [take_head, hpred]
    omega
  · simp only [take_head, hpred, hhead, h.tail_eq, step_from_next]
    rw [hn]
  · simp only [take_head, hpred, hhead]
    exact hitems.2
  · intro i hfree
    simp only [take_head, hpred, hhead] at hfree ⊢
    by_cases he : i = queue.head
    · rw [he, Function.update_self]
    · rw [Function.update_of_ne he]
      apply h.free
      rw [hn, occupied_pop h.head_lt]
      simp [he, hfree]

theorem vf_buf_queue_pop.spec {queue : vf_buf_queue_t α} {f : Fifo α} (h : Sim queue f)
    (out : Option α) :
    (vf_buf_queue_pop queue out).1 = f.pop.1 ∧ (vf_buf_queue_pop queue out).2.1 = f.pop.2.1 ∧
      Sim (vf_buf_queue_pop queue out).2.2 f.pop.2.2 := by
  have hcount := h.count
  unfold vf_buf_queue_pop
  rcases hitems : f.items with _ | ⟨x, rest⟩
  · have h0 : queue.count = 0 := by simp [hcount, hitems]
    simp only [h.initialized, one_ne_zero, if_false, h0, if_true, f.pop_nil hitems, true_and]
    exact h
  · have h0 : queue.count ≠ 0 := by simp [hcount, hitems]
    obtain ⟨hfit, hpop⟩ := f.pop_cons x rest hitems
    simp only [h.initialized, one_ne_zero, if_false, h0, hpop, true_and]
    exact take_head.spec h x rest hitems hfit

theorem vf_buf_queue_pop_blocking.spec {queue : vf_buf_queue_t α} {f : Fifo α}
    (h : Sim queue f) (out : Option α) :
    Agree ((vf_buf_queue_pop_blocking queue out).map fun r => ((r.1, r.2.1), r.2.2))
      (f.popBlocking.map fun r => ((r.1, r.2.1), r.2.2)) := by
  have hcount := h.count
  have hpop := vf_buf_queue_pop.spec h out
  unfold vf_buf_queue_pop_blocking Fifo.popBlocking
  unfold vf_buf_queue_pop at hpop
  by_cases hnil : f.items = []
  · have h0 : queue.count = 0 := by simp [hcount, hnil]
    simp only [h.initialized, one_ne_zero, if_false, h0, if_true, hnil, h.shutdown]
    cases f.shutdown
    · trivial
    · exact ⟨rfl, h⟩
  · have h0 : queue.count ≠ 0 := by simpa [hcount] using hnil
    simp only [h.initialized, one_ne_zero, if_false, h0, hnil] at hpop ⊢
    exact ⟨Prod.ext hpop.1 hpop.2.1, hpop.2.2⟩

/-- One call: the ring and the list answer the same, and still simulate. -/
theorem call_agrees {queue : vf_buf_queue_t α} {f : Fifo α} (h : Sim queue f) (c : Call α) :
    Agree (call queue c) (f.call c) := by
  have hcount := h.count
  have hcap := h.capacity
  cases c with
  | push fb =>
    cases fb with
    | none => exact ⟨rfl, h⟩
    | some x =>
      have hp := vf_buf_queue_push.spec h x
      exact ⟨congrArg Answer.err hp.1, hp.2⟩
  | pop out =>
    have hp := vf_buf_queue_pop.spec h out
    exact ⟨by rw [hp.1, hp.2.1], hp.2.2⟩
  | pop_blocking out =>
    have hp := vf_buf_queue_pop_blocking.spec h out
    simp only [call, Fifo.call]
    cases hq : vf_buf_queue_pop_blocking queue out <;> cases hf : f.popBlocking <;>
      simp only [hq, hf, Option.map_none, Option.map_some, Agree, Prod.mk.injEq] at hp ⊢
    exact ⟨by rw [hp.1.1, hp.1.2], hp.2⟩
  | shutdown => exact ⟨rfl, { h with shutdown := rfl }⟩
  | reset => exact ⟨rfl, { h with shutdown := rfl }⟩
  | count => exact ⟨by simp [vf_buf_queue_count, h.initialized, hcount], h⟩
  | is_full =>
    refine ⟨?_, h⟩
    by_cases hlt : f.items.length < f.capacity
    · have hfull : ¬ queue.capacity ≤ queue.count := by omega
      simp [vf_buf_queue_is_full, h.initialized, hfull, hlt]
    · have hfull : queue.capacity ≤ queue.count := by omega
      simp [vf_buf_queue_is_full, h.initialized, hfull, hlt]
  | is_empty =>
    refine ⟨?_, h⟩
    by_cases hnil : f.items = []
    · simp [vf_buf_queue_is_empty, h.initialized, hcount, hnil]
    · simp [vf_buf_queue_is_empty, h.initialized, hcount, hnil]

theorem calls_agree {queue : vf_buf_queue_t α} {f : Fifo α} (h : Sim queue f)
    (cs : List (Call α)) : Agree (calls call queue cs) (calls Fifo.call f cs) := by
  induction cs generalizing queue f with
  | nil => exact ⟨rfl, h⟩
  | cons c rest ih =>
    have hc := call_agrees h c
    simp only [calls]
    cases hq : call queue c <;> cases hf : f.call c <;>
      simp only [hq, hf, Agree, Option.bind_none, Option.bind_some] at hc ⊢
    rename_i a b
    have hrest := ih hc.2
    cases ha : calls call a.2 rest <;> cases hb : calls Fifo.call b.2 rest <;>
      simp only [ha, hb, Agree, Option.map_none, Option.map_some] at hrest ⊢
    exact ⟨by rw [hc.1, hrest.1], hrest.2⟩

/-! ## The law -/

/-- After `vf_buf_queue_init`, any sequence of calls gets the answers of a bounded list
of frames, waits where the list waits, and leaves a ring that holds the list. -/
theorem the_ring_is_a_bounded_list (queue : vf_buf_queue_t α) (capacity : Nat)
    (h1 : 1 ≤ capacity) (h2 : capacity ≤ VF_BUF_QUEUE_MAX_CAPACITY) (cs : List (Call α)) :
    (vf_buf_queue_init queue capacity true true).1 = .VF_SUCCESS ∧
      Agree (calls call (vf_buf_queue_init queue capacity true true).2 cs)
        (calls Fifo.call (Fifo.empty capacity) cs) := by
  obtain ⟨hs, hsim⟩ := vf_buf_queue_init.spec queue capacity h1 h2
  exact ⟨hs, calls_agree hsim cs⟩

/-- A ring of two cells: three pushes, a shutdown, and the pops that follow. -/
theorem a_ring_of_two_is_a_bounded_list :
    (vf_buf_queue_init (zeroed : vf_buf_queue_t Nat) 2 true true).1 = .VF_SUCCESS ∧
      Agree (calls call (vf_buf_queue_init (zeroed : vf_buf_queue_t Nat) 2 true true).2
          [.push (some 7), .push (some 8), .push (some 9), .shutdown, .pop (some 1),
            .pop_blocking none, .pop_blocking none, .count])
        (calls Fifo.call (Fifo.empty 2)
          [.push (some 7), .push (some 8), .push (some 9), .shutdown, .pop (some 1),
            .pop_blocking none, .pop_blocking none, .count]) :=
  the_ring_is_a_bounded_list zeroed 2 (by decide) (by decide) _

end vision_flow.buf_queue
