-- Wake-ups of the buffer manager: any number of threads on one queue, and on one pool.
-- Each operation is one critical section, and a thread that waits blocks until a signal,
-- a broadcast or nothing at all wakes it. No wake-up is lost.
import VisionFlow.BufPool
import VisionFlow.BufQueue
import VisionFlow.Lib.Monitor

namespace vision_flow.wake_ups

open monitor runs
open buf_pool (vf_buf_pool_t Accounted Kept)
open buf_queue (vf_buf_queue_t Fifo Sim)

/-! ## The operations of a queue -/

section
variable {α : Type}

/-- A thread that waits in `pthread_cond_wait` tests the loop of `pop_blocking` again, with
`*out_fb` at NULL. -/
def queue_body : buf_queue.Call α → vf_buf_queue_t α →
    Outcome (buf_queue.Call α) (vf_buf_queue_t α)
  | .push fb, queue =>
    let (err, queue) := buf_queue.vf_buf_queue_push queue fb
    .leaves queue (if err = .VF_SUCCESS then .one else .nobody)
  | .pop out, queue => .leaves (buf_queue.vf_buf_queue_pop queue out).2.2 .nobody
  | .pop_blocking out, queue =>
    match buf_queue.vf_buf_queue_pop_blocking queue out with
    | none => .waits (.pop_blocking none)
    | some (_, _, queue) => .leaves queue .nobody
  | .shutdown, queue => .leaves (buf_queue.vf_buf_queue_shutdown queue) .all
  | .reset, queue => .leaves (buf_queue.vf_buf_queue_reset queue) .nobody
  | .count, queue => .leaves queue .nobody
  | .is_full, queue => .leaves queue .nobody
  | .is_empty, queue => .leaves queue .nobody

/-- The operation may wait in `pthread_cond_wait`. -/
def Pops : buf_queue.Call α → Prop
  | .pop_blocking _ => True
  | _ => False

/-- The queue is a ring that holds a list of frames. -/
def Sound (queue : vf_buf_queue_t α) : Prop := ∃ f : Fifo α, Sim queue f

variable {queue queue' : vf_buf_queue_t α}

/-- What an operation leaves is what the call leaves. -/
theorem queue_body_call {op : buf_queue.Call α} {sig : Signal}
    (h : queue_body op queue = .leaves queue' sig) :
    ∃ answer, buf_queue.call queue op = some (answer, queue') := by
  cases op with
  | pop_blocking out =>
    simp only [queue_body] at h
    split at h <;> cases h
    rename_i err out' hpop
    exact ⟨.popped err out', by simp [buf_queue.call, hpop]⟩
  | _ =>
    cases h
    exact ⟨_, rfl⟩

theorem Sound.call (h : Sound queue) {op : buf_queue.Call α} {answer : buf_queue.Answer α}
    (hc : buf_queue.call queue op = some (answer, queue')) : Sound queue' := by
  obtain ⟨f, hsim⟩ := h
  have hagree := buf_queue.call_agrees hsim op
  rw [hc] at hagree
  cases hf : f.call op with
  | none => simp [hf, buf_queue.Agree] at hagree
  | some r =>
    rw [hf] at hagree
    exact ⟨r.2, hagree.2⟩

/-- A pop of a queue that is not empty takes one frame. -/
theorem take_head_count (h : Sound queue) (hcount : queue.count ≠ 0) :
    (buf_queue.take_head queue).2.count + 1 = queue.count := by
  obtain ⟨f, hsim⟩ := h
  have hle := hsim.count_le
  have hsmall := hsim.small
  unfold buf_queue.take_head
  simp only
  rw [u32_sub_of_le (by omega) (by omega)]
  omega

theorem Sound.initialized (h : Sound queue) : queue.initialized ≠ 0 := by
  obtain ⟨f, hsim⟩ := h
  rw [hsim.initialized]
  decide

/-- A blocking pop waits only at an empty queue that is not shut down. -/
theorem pop_blocking_waits (h : Sound queue) {out : Option α}
    (hw : buf_queue.vf_buf_queue_pop_blocking queue out = none) :
    queue.count = 0 ∧ queue.shutdown = false := by
  unfold buf_queue.vf_buf_queue_pop_blocking at hw
  rw [if_neg h.initialized] at hw
  split at hw
  · rename_i hzero
    split at hw
    · cases hw
    · rename_i hup
      exact ⟨hzero, by simpa using hup⟩
  · cases hw

/-- A blocking pop that ends takes a frame, or the queue is shut down. -/
theorem pop_blocking_takes (h : Sound queue) {out out' : Option α} {err : vf_err_t}
    (hd : buf_queue.vf_buf_queue_pop_blocking queue out = some (err, out', queue')) :
    queue'.shutdown = queue.shutdown ∧
      (queue.count = 0 ∧ queue' = queue ∧ queue.shutdown = true ∨
        queue'.count + 1 = queue.count) := by
  unfold buf_queue.vf_buf_queue_pop_blocking at hd
  rw [if_neg h.initialized] at hd
  split at hd
  · rename_i hzero
    split at hd <;> cases hd
    rename_i hdown
    exact ⟨rfl, Or.inl ⟨hzero, rfl, hdown⟩⟩
  · rename_i hcount
    cases hd
    exact ⟨rfl, Or.inr (take_head_count h hcount)⟩

theorem pop_takes (h : Sound queue) (out : Option α) :
    (buf_queue.vf_buf_queue_pop queue out).2.2.count ≤ queue.count ∧
      (buf_queue.vf_buf_queue_pop queue out).2.2.shutdown = queue.shutdown := by
  unfold buf_queue.vf_buf_queue_pop
  rw [if_neg h.initialized]
  split
  · exact ⟨Nat.le_refl _, rfl⟩
  · rename_i hcount
    have htook := take_head_count h hcount
    refine ⟨?_, rfl⟩
    simp only
    omega

theorem push_puts (queue : vf_buf_queue_t α) (fb : Option α) :
    ((buf_queue.vf_buf_queue_push queue fb).1 ≠ .VF_SUCCESS →
      (buf_queue.vf_buf_queue_push queue fb).2 = queue) ∧
      (buf_queue.vf_buf_queue_push queue fb).2.count ≤ queue.count + 1 ∧
      (buf_queue.vf_buf_queue_push queue fb).2.shutdown = queue.shutdown := by
  unfold buf_queue.vf_buf_queue_push
  split
  · simp
  · split
    · simp
    · split
      · simp
      · exact ⟨by simp, Nat.mod_le _ _, rfl⟩

theorem queue_counts : Counts (queue_body (α := α)) Sound vf_buf_queue_t.count
    vf_buf_queue_t.shutdown Pops := by
  refine ⟨?_, ?_, ?_, ?_, ?_⟩
  · intro op d d' sig hd hbody
    obtain ⟨answer, hcall⟩ := queue_body_call hbody
    exact hd.call hcall
  · intro op d rest hd hbody
    cases op with
    | pop_blocking out =>
      simp only [queue_body] at hbody
      split at hbody <;> cases hbody
      rename_i hwaits
      obtain ⟨hzero, hup⟩ := pop_blocking_waits hd hwaits
      exact ⟨hzero, hup, trivial⟩
    | _ => cases hbody
  · intro op d d' sig hd hop hbody
    cases op with
    | pop_blocking out =>
      simp only [queue_body] at hbody
      split at hbody <;> cases hbody
      rename_i err out' htakes
      refine ⟨rfl, ?_⟩
      rcases (pop_blocking_takes hd htakes).2 with ⟨-, -, hdown⟩ | htook
      · exact Or.inl hdown
      · exact Or.inr htook.le
    | _ => cases hop
  · intro op d d' hd hbody
    cases op with
    | push fb =>
      obtain ⟨hfail, -, -⟩ := push_puts d fb
      simp only [queue_body, Outcome.leaves.injEq] at hbody
      obtain ⟨rfl, hsig⟩ := hbody
      rw [hfail (by split at hsig <;> simp_all)]
      exact ⟨Nat.le_refl _, id⟩
    | pop out =>
      cases hbody
      obtain ⟨hle, hdown⟩ := pop_takes hd out
      exact ⟨hle, fun h => hdown.trans h⟩
    | pop_blocking out =>
      simp only [queue_body] at hbody
      split at hbody <;> cases hbody
      rename_i err out' htakes
      obtain ⟨hdown, hcount⟩ := pop_blocking_takes hd htakes
      refine ⟨?_, fun h => hdown.trans h⟩
      rcases hcount with ⟨-, rfl, -⟩ | htook
      · exact Nat.le_refl _
      · omega
    | shutdown => cases hbody
    | reset =>
      cases hbody
      exact ⟨Nat.le_refl _, fun _ => rfl⟩
    | _ =>
      cases hbody
      exact ⟨Nat.le_refl _, id⟩
  · intro op d d' hd hbody
    cases op with
    | push fb =>
      obtain ⟨-, hle, hdown⟩ := push_puts d fb
      simp only [queue_body, Outcome.leaves.injEq] at hbody
      obtain ⟨rfl, -⟩ := hbody
      exact ⟨hle, fun h => hdown.trans h⟩
    | pop_blocking out =>
      simp only [queue_body] at hbody
      split at hbody <;> cases hbody
    | _ => cases hbody

end

/-! ## The operations of a pool -/

section
variable {β : Type}

def pool_body [DecidableEq β] : buf_pool.Call β → vf_buf_pool_t β →
    Outcome (buf_pool.Call β) (vf_buf_pool_t β)
  | .acquire out, pool => .leaves (buf_pool.vf_buf_pool_acquire pool out).2.2 .nobody
  | .acquire_blocking out, pool =>
    match buf_pool.vf_buf_pool_acquire_blocking pool out with
    | none => .waits (.acquire_blocking none)
    | some (_, _, pool) => .leaves pool .nobody
  | .release fb, pool =>
    let (_, pool, signalled) := buf_pool.vf_buf_pool_release pool fb
    .leaves pool (if signalled then .one else .nobody)
  | .shutdown, pool => .leaves (buf_pool.vf_buf_pool_shutdown pool) .all
  | .reset, pool => .leaves (buf_pool.vf_buf_pool_reset pool) .nobody
  | .available, pool => .leaves pool .nobody

/-- The operation may wait in `pthread_cond_wait`. -/
def Acquires : buf_pool.Call β → Prop
  | .acquire_blocking _ => True
  | _ => False

/-- The counter and the flags of the pool agree. -/
def Counted (pool : vf_buf_pool_t β) : Prop :=
  ∃ base capacity ledger, Kept base capacity pool ledger

variable {pool pool' : vf_buf_pool_t β}

theorem take_slot_counted (h : Counted pool) (havail : pool.available ≠ 0) :
    (buf_pool.take_slot pool).2.available + 1 = pool.available ∧
      (buf_pool.take_slot pool).2.shutdown = pool.shutdown := by
  obtain ⟨base, capacity, ledger, hkept⟩ := h
  have hle := hkept.accounted.available_le
  have hcap : pool.capacity ≤ 16 := hkept.accounted.cap_le
  obtain ⟨i, -, -, hout, -, -, -, hdown, -⟩ := buf_pool.take_slot.spec hkept.accounted havail
  refine ⟨?_, hdown⟩
  unfold buf_pool.take_slot at hout ⊢
  cases hfind : buf_pool.find_free pool.in_use 0 pool.capacity with
  | none => simp [hfind] at hout
  | some k =>
    simp only
    rw [u32_sub_of_le (by omega) (by omega)]
    omega

theorem Counted.initialized (h : Counted pool) : pool.initialized ≠ 0 := by
  obtain ⟨base, capacity, ledger, hkept⟩ := h
  rw [hkept.accounted.initialized]
  decide

theorem acquire_blocking_waits (h : Counted pool) {out : Option (buf_pool.SlotPtr β)}
    (hw : buf_pool.vf_buf_pool_acquire_blocking pool out = none) :
    pool.available = 0 ∧ pool.shutdown = false := by
  unfold buf_pool.vf_buf_pool_acquire_blocking at hw
  rw [if_neg h.initialized] at hw
  split at hw
  · rename_i hzero
    split at hw
    · cases hw
    · rename_i hup
      exact ⟨hzero, by simpa using hup⟩
  · cases hw

theorem acquire_blocking_takes (h : Counted pool) {out out' : Option (buf_pool.SlotPtr β)}
    {err : vf_err_t}
    (hd : buf_pool.vf_buf_pool_acquire_blocking pool out = some (err, out', pool')) :
    pool'.shutdown = pool.shutdown ∧
      (pool.available = 0 ∧ pool' = pool ∧ pool.shutdown = true ∨
        pool'.available + 1 = pool.available) := by
  unfold buf_pool.vf_buf_pool_acquire_blocking at hd
  rw [if_neg h.initialized] at hd
  split at hd
  · rename_i hzero
    split at hd <;> cases hd
    rename_i hdown
    exact ⟨rfl, Or.inl ⟨hzero, rfl, hdown⟩⟩
  · rename_i havail
    simp only [Option.some.injEq, Prod.mk.injEq] at hd
    obtain rfl : (buf_pool.take_slot pool).2 = pool' := congrArg Prod.snd hd.2
    obtain ⟨htook, hdown⟩ := take_slot_counted h havail
    exact ⟨hdown, Or.inr htook⟩

theorem acquire_takes (h : Counted pool) (out : Option (buf_pool.SlotPtr β)) :
    (buf_pool.vf_buf_pool_acquire pool out).2.2.available ≤ pool.available ∧
      (buf_pool.vf_buf_pool_acquire pool out).2.2.shutdown = pool.shutdown := by
  unfold buf_pool.vf_buf_pool_acquire
  rw [if_neg h.initialized]
  split
  · exact ⟨Nat.le_refl _, rfl⟩
  · rename_i havail
    obtain ⟨htook, hdown⟩ := take_slot_counted h havail
    refine ⟨?_, hdown⟩
    simp only
    omega

variable [DecidableEq β]

theorem pool_body_call {op : buf_pool.Call β} {sig : Signal}
    (h : pool_body op pool = .leaves pool' sig) :
    ∃ answer, buf_pool.call pool op = some (answer, pool') := by
  cases op with
  | acquire_blocking out =>
    simp only [pool_body] at h
    split at h <;> cases h
    rename_i err out' hacq
    exact ⟨.acquired err out', by simp [buf_pool.call, hacq]⟩
  | _ =>
    cases h
    exact ⟨_, rfl⟩

theorem Counted.call (h : Counted pool) {op : buf_pool.Call β} {answer : buf_pool.Answer β}
    (hc : buf_pool.call pool op = some (answer, pool')) : Counted pool' := by
  obtain ⟨base, capacity, ledger, hkept⟩ := h
  exact ⟨base, capacity, _, (buf_pool.call_kept hkept op answer pool' hc).2⟩

/-- A release signals when it puts out a slot, and only then. -/
theorem release_puts (pool : vf_buf_pool_t β) (fb : Option (buf_pool.SlotPtr β)) :
    ((buf_pool.vf_buf_pool_release pool fb).2.2 = false →
      (buf_pool.vf_buf_pool_release pool fb).2.1 = pool) ∧
      (buf_pool.vf_buf_pool_release pool fb).2.1.available ≤ pool.available + 1 ∧
      (buf_pool.vf_buf_pool_release pool fb).2.1.shutdown = pool.shutdown := by
  unfold buf_pool.vf_buf_pool_release
  split
  · simp
  · split
    · simp
    · split
      · simp
      · split
        · simp
        · exact ⟨by simp, Nat.mod_le _ _, rfl⟩

theorem pool_counts : Counts (pool_body (β := β)) Counted vf_buf_pool_t.available
    vf_buf_pool_t.shutdown Acquires := by
  refine ⟨?_, ?_, ?_, ?_, ?_⟩
  · intro op d d' sig hd hbody
    obtain ⟨answer, hcall⟩ := pool_body_call hbody
    exact hd.call hcall
  · intro op d rest hd hbody
    cases op with
    | acquire_blocking out =>
      simp only [pool_body] at hbody
      split at hbody <;> cases hbody
      rename_i hwaits
      obtain ⟨hzero, hup⟩ := acquire_blocking_waits hd hwaits
      exact ⟨hzero, hup, trivial⟩
    | _ => cases hbody
  · intro op d d' sig hd hop hbody
    cases op with
    | acquire_blocking out =>
      simp only [pool_body] at hbody
      split at hbody <;> cases hbody
      rename_i err out' htakes
      refine ⟨rfl, ?_⟩
      rcases (acquire_blocking_takes hd htakes).2 with ⟨-, -, hdown⟩ | htook
      · exact Or.inl hdown
      · exact Or.inr htook.le
    | _ => cases hop
  · intro op d d' hd hbody
    cases op with
    | acquire out =>
      cases hbody
      obtain ⟨hle, hdown⟩ := acquire_takes hd out
      exact ⟨hle, fun h => hdown.trans h⟩
    | acquire_blocking out =>
      simp only [pool_body] at hbody
      split at hbody <;> cases hbody
      rename_i err out' htakes
      obtain ⟨hdown, hcount⟩ := acquire_blocking_takes hd htakes
      refine ⟨?_, fun h => hdown.trans h⟩
      rcases hcount with ⟨-, rfl, -⟩ | htook
      · exact Nat.le_refl _
      · omega
    | release fb =>
      obtain ⟨hnone, -, -⟩ := release_puts d fb
      simp only [pool_body, Outcome.leaves.injEq] at hbody
      obtain ⟨rfl, hsig⟩ := hbody
      rw [hnone (by split at hsig <;> simp_all)]
      exact ⟨Nat.le_refl _, id⟩
    | shutdown => cases hbody
    | reset =>
      cases hbody
      exact ⟨Nat.le_refl _, fun _ => rfl⟩
    | available =>
      cases hbody
      exact ⟨Nat.le_refl _, id⟩
  · intro op d d' hd hbody
    cases op with
    | acquire_blocking out =>
      simp only [pool_body] at hbody
      split at hbody <;> cases hbody
    | release fb =>
      obtain ⟨-, hle, hdown⟩ := release_puts d fb
      simp only [pool_body, Outcome.leaves.injEq] at hbody
      obtain ⟨rfl, -⟩ := hbody
      exact ⟨hle, fun h => hdown.trans h⟩
    | _ => cases hbody

end

/-! ## The law -/

section
variable {ι α κ β : Type}

theorem sound_of_init {queue queue' : vf_buf_queue_t α} {capacity : Nat}
    (h : buf_queue.vf_buf_queue_init queue capacity true true = (.VF_SUCCESS, queue')) :
    Sound queue' := by
  have hcap : 1 ≤ capacity ∧ capacity ≤ buf_queue.VF_BUF_QUEUE_MAX_CAPACITY := by
    unfold buf_queue.vf_buf_queue_init at h
    split at h
    · cases h
    · rename_i hbad
      omega
  obtain ⟨-, hsim⟩ := buf_queue.vf_buf_queue_init.spec queue capacity hcap.1 hcap.2
  rw [h] at hsim
  exact ⟨_, hsim⟩

variable [Fintype ι] [DecidableEq ι] [Fintype κ] [DecidableEq κ] [DecidableEq β]

/-- The threads `ι` use a queue, and the threads `κ` use a pool. No wake-up is lost, whatever
the order of their steps. -/
theorem no_wake_up_is_lost {queue queue' : vf_buf_queue_t α} {capacity : Nat}
    {pool pool' : vf_buf_pool_t β} {alloc : Nat → vf_err_t} {slot_count : Nat}
    {made : List buf_pool.Resource} {q_acts : List (Act ι (buf_queue.Call α))}
    {p_acts : List (Act κ (buf_pool.Call β))} {s : St ι (buf_queue.Call α) (vf_buf_queue_t α)}
    {t : St κ (buf_pool.Call β) (vf_buf_pool_t β)}
    (hqueue : buf_queue.vf_buf_queue_init queue capacity true true = (.VF_SUCCESS, queue'))
    (hpool : buf_pool.vf_buf_pool_init pool alloc slot_count true true = (.VF_SUCCESS, pool', made))
    (hs : run (step queue_body) (St.start queue') q_acts = some s)
    (ht : run (step pool_body) (St.start pool') p_acts = some t) :
    NoneLost vf_buf_queue_t.count vf_buf_queue_t.shutdown s ∧
      NoneLost vf_buf_pool_t.available vf_buf_pool_t.shutdown t := by
  refine ⟨?_, ?_⟩
  · exact run_loses_none queue_counts (sound_of_init hqueue) hs
  · obtain ⟨-, hle, hfresh⟩ := buf_pool.vf_buf_pool_init.spec pool alloc slot_count true true
      (by rw [hpool])
    rw [hpool] at hfresh
    have hcounted : Counted pool' := by
      simp only at hfresh
      rw [hfresh]
      exact ⟨_, _, _, buf_pool.fresh_kept pool.self slot_count hle⟩
    exact run_loses_none pool_counts hcounted ht

end

/-- Two threads wait for a frame, and a third one pushes one: the thread 0 is woken. -/
def a_frame_for_two : List (Act (Fin 3) (buf_queue.Call Nat)) :=
  [.enter 0 (.pop_blocking none) fun _ => false, .enter 1 (.pop_blocking none) fun _ => false,
    .enter 2 (.push (some 7)) (· = 0)]

/-- A pool with one slot: a thread takes it, two wait for it, and it is given back. -/
def a_slot_for_two : List (Act (Fin 3) (buf_pool.Call Unit)) :=
  [.enter 0 (.acquire none) fun _ => false, .enter 1 (.acquire_blocking none) fun _ => false,
    .enter 2 (.acquire_blocking none) fun _ => false, .enter 0 (.release (some ⟨(), 0⟩)) (· = 1)]

def two_frames : vf_buf_queue_t Nat :=
  (buf_queue.vf_buf_queue_init buf_queue.zeroed 2 true true).2

def one_slot : vf_buf_pool_t Unit :=
  (buf_pool.vf_buf_pool_init (buf_pool.zeroed ()) (fun _ => .VF_SUCCESS) 1 true true).2.1

theorem one_of_two_is_woken : ∃ s t,
    run (step queue_body) (St.start two_frames) a_frame_for_two = some s ∧
      run (step pool_body) (St.start one_slot) a_slot_for_two = some t ∧
      (s.status 1).is_blocked = true ∧ (t.status 2).is_blocked = true ∧
      NoneLost vf_buf_queue_t.count vf_buf_queue_t.shutdown s ∧
      NoneLost vf_buf_pool_t.available vf_buf_pool_t.shutdown t := by
  have hqueue : (run (step queue_body) (St.start two_frames) a_frame_for_two).map
      (fun s => (s.status 1).is_blocked) = some true := by
    decide
  have hpool : (run (step pool_body) (St.start one_slot) a_slot_for_two).map
      (fun t => (t.status 2).is_blocked) = some true := by
    decide
  obtain ⟨s, hs, hs1⟩ := Option.map_eq_some_iff.mp hqueue
  obtain ⟨t, ht, ht2⟩ := Option.map_eq_some_iff.mp hpool
  have hqueue_init : buf_queue.vf_buf_queue_init buf_queue.zeroed 2 true true =
      (.VF_SUCCESS, two_frames) := rfl
  have hpool_init : buf_pool.vf_buf_pool_init (buf_pool.zeroed ()) (fun _ => .VF_SUCCESS) 1 true
      true = (.VF_SUCCESS, one_slot, _) := rfl
  exact ⟨s, t, hs, ht, hs1, ht2, no_wake_up_is_lost hqueue_init hpool_init hs ht⟩

end vision_flow.wake_ups
