-- The camera service (vf-service.c): the memory that its threads share, the threads of
-- the units, and the thread that starts and stops them. A step of a thread is one
-- command, and the steps of the threads come in any order. The pthread calls succeed,
-- but `pthread_create` may fail.
import VisionFlow.BufQueue
import VisionFlow.Conversion
import VisionFlow.Lifecycle

namespace vision_flow.service

open programs units lifecycle
open buf_pool (vf_buf_pool_t)
open buf_queue (vf_buf_queue_t)
open framebuffer (vf_framebuffer_t vf_fb_params_t)
open conversion (vf_conversion_ctx_t)

/-! ## The shared memory -/

structure vf_service_cfg_t where
  width : Nat
  height : Nat
  src_fmt : vf_pixel_fmt_t
  dst_fmt : vf_pixel_fmt_t
  pool_slot_count : Nat

/-- `params_in` and `params_out` of `vf_service_init`. -/
def vf_service_cfg_t.params (cfg : vf_service_cfg_t) : PoolId → vf_fb_params_t
  | .pool_in => ⟨cfg.width, cfg.height, cfg.src_fmt⟩
  | .pool_out => ⟨cfg.width, cfg.height, cfg.dst_fmt⟩

/-- The last seven fields are no data of the code but its history: `number` is the number
of the captured picture in a frame, `owned` the frames that a unit took and did not hand
on or give back, as long as it points to them, `dropped` those it does not point to any
more, `carry` the number of the picture that a unit took from its queue or its camera and
did not pass on yet. `pushed` and `consumed` are the numbers that the camera unit pushed
and the file unit gave back since the last start, and `before` those that were in the
queues at that start. -/
structure Mem where
  initialized : Object UnitId → Bool
  pool : PoolId → vf_buf_pool_t PoolId
  queue : QueueId → vf_buf_queue_t Frame
  fb : Frame → vf_framebuffer_t
  conv_ctx : vf_conversion_ctx_t
  ptr : UnitId → Field → Option Frame
  captured : Nat
  number : Frame → Nat
  owned : UnitId → List Frame
  dropped : UnitId → List Frame
  carry : UnitId → Option Nat
  pushed : List Nat
  consumed : List Nat
  before : List Nat

/-- The allocations, the camera device and the pthread calls succeed. -/
def vf_service_init (cfg : vf_service_cfg_t) : Except vf_err_t Mem :=
  let slot (p : PoolId) := framebuffer.vf_framebuffer_alloc framebuffer.zeroed (cfg.params p) true
  let pool (p : PoolId) := buf_pool.vf_buf_pool_init (buf_pool.zeroed p) (fun _ => (slot p).1)
    cfg.pool_slot_count true true
  let queue := buf_queue.vf_buf_queue_init buf_queue.zeroed
    buf_queue.VF_BUF_QUEUE_MAX_CAPACITY true true
  let conv := conversion.vf_conversion_init cfg.src_fmt cfg.dst_fmt
  if (pool .pool_in).1 ≠ .VF_SUCCESS then
    .error (pool .pool_in).1
  else if (pool .pool_out).1 ≠ .VF_SUCCESS then
    .error (pool .pool_out).1
  else if queue.1 ≠ .VF_SUCCESS then
    .error queue.1
  else if conv.1 ≠ .VF_SUCCESS then
    .error conv.1
  else
    .ok {
      initialized := fun _ => true
      pool := fun p => (pool p).2.1
      queue := fun _ => queue.2
      fb := fun f => if f.idx < cfg.pool_slot_count then (slot f.pool).2 else framebuffer.zeroed
      conv_ctx := conv.2
      ptr := fun _ _ => none
      captured := 0
      number := fun _ => 0
      owned := fun _ => []
      dropped := fun _ => []
      carry := fun _ => none
      pushed := []
      consumed := []
      before := [] }

/-- `data->p = o`. -/
def Mem.put (m : Mem) (u : UnitId) (p : Field) (o : Option Frame) : Mem :=
  { m with ptr := Function.update m.ptr u (Function.update (m.ptr u) p o) }

def Mem.set_pool (m : Mem) (p : PoolId) (pool : vf_buf_pool_t PoolId) : Mem :=
  { m with pool := Function.update m.pool p pool }

def Mem.set_queue (m : Mem) (q : QueueId) (queue : vf_buf_queue_t Frame) : Mem :=
  { m with queue := Function.update m.queue q queue }

def Mem.set_fb (m : Mem) (f : Frame) (fb : vf_framebuffer_t) : Mem :=
  { m with fb := Function.update m.fb f fb }

/-- The frames in a queue, the oldest first. -/
def entries (queue : vf_buf_queue_t Frame) : List Frame :=
  (ring.around queue.slots queue.head queue.capacity queue.count).filterMap id

/-! ## The history of a command -/

/-- The unit takes a frame from a pool. -/
def Mem.take (m : Mem) (u : UnitId) (f : Frame) : Mem :=
  { m with owned := Function.update m.owned u (f :: m.owned u) }

/-- The unit takes a frame from its queue. -/
def Mem.receive (m : Mem) (u : UnitId) (f : Frame) : Mem :=
  { m.take u f with carry := Function.update m.carry u (some (m.number f)) }

/-- The unit does not own the frame any more. -/
def Mem.part_with (m : Mem) (u : UnitId) (f : Frame) : Mem :=
  { m with
    owned := Function.update m.owned u ((m.owned u).filter (· ≠ f))
    carry := Function.update m.carry u none }

def Mem.hand_on (m : Mem) (u : UnitId) (f : Frame) : Mem :=
  { m.part_with u f with
    pushed := if u = .camera then m.pushed ++ [m.number f] else m.pushed }

def Mem.give_back (m : Mem) (u : UnitId) (f : Frame) : Mem :=
  { m.part_with u f with
    consumed := if u = .file_out then m.consumed ++ [m.number f] else m.consumed }

/-- `*out_fb = NULL`, where the unit may point to a frame that it owns. -/
def Mem.forget (m : Mem) (u : UnitId) (p : Field) : Mem :=
  { m.put u p none with
    owned := Function.update m.owned u ((m.owned u).filter (some · ≠ m.ptr u p))
    dropped := Function.update m.dropped u
      ((m.owned u).filter (some · = m.ptr u p) ++ m.dropped u) }

/-- A picture is captured into the frame. -/
def Mem.capture (m : Mem) (u : UnitId) (f : Frame) : Mem :=
  { m with
    captured := m.captured + 1
    number := Function.update m.number f m.captured
    carry := Function.update m.carry u (some m.captured) }

/-! ## The commands of the units -/

/-- The condition variables: `not_empty` of a queue, and `slot_available` of a pool. -/
inductive Cond
  | not_empty (q : QueueId)
  | slot_available (p : PoolId)
  deriving DecidableEq

/-- A command is done, with its answer, and may signal a condition. Or its thread waits. -/
inductive Outcome (R : Type)
  | done (r : R) (m : Mem) (signal : Option Cond)
  | waits (m : Mem) (on : Cond)

/-- What the world outside decides: the error code of the camera, of the notifier or of a
file, the bytes that the camera gives, and the threads that a signal wakes. -/
structure Oracle where
  err : vf_err_t
  bytes : Nat → UInt8
  wakes : Nat → Bool

def exec_acquire_blocking (u : UnitId) (p : PoolId) (fd : Field) (m : Mem) : Outcome vf_err_t :=
  let m := if (m.pool p).initialized = 0 then m else m.forget u fd
  match buf_pool.vf_buf_pool_acquire_blocking (m.pool p) (m.ptr u fd) with
  | none => .waits m (.slot_available p)
  | some (err, out, pool) =>
    let m := (m.set_pool p pool).put u fd out
    match err, out with
    | .VF_SUCCESS, some f => .done err (m.take u f) none
    | _, _ => .done err m none

def exec_release (u : UnitId) (p : PoolId) (fd : Field) (m : Mem) : Outcome vf_err_t :=
  let (err, pool, signalled) := buf_pool.vf_buf_pool_release (m.pool p) (m.ptr u fd)
  let signal := if signalled then some (.slot_available p) else none
  match m.ptr u fd with
  | some f => .done err ((m.set_pool p pool).give_back u f) signal
  | none => .done err (m.set_pool p pool) signal

def exec_pop_blocking (u : UnitId) (q : QueueId) (fd : Field) (m : Mem) : Outcome vf_err_t :=
  let m := if (m.queue q).initialized = 0 then m else m.forget u fd
  match buf_queue.vf_buf_queue_pop_blocking (m.queue q) (m.ptr u fd) with
  | none => .waits m (.not_empty q)
  | some (err, out, queue) =>
    let m := (m.set_queue q queue).put u fd out
    match err, out with
    | .VF_SUCCESS, some f => .done err (m.receive u f) none
    | _, _ => .done err m none

def exec_push (u : UnitId) (q : QueueId) (fd : Field) (m : Mem) : Outcome vf_err_t :=
  let (err, queue) := buf_queue.vf_buf_queue_push (m.queue q) (m.ptr u fd)
  match err, m.ptr u fd with
  | .VF_SUCCESS, some f => .done err ((m.set_queue q queue).hand_on u f) (some (.not_empty q))
  | _, _ => .done err (m.set_queue q queue) none

/-- An atomic operation on the counter of a frame. It answers the old value. -/
def exec_fetch (u : UnitId) (fd : Field) (change : Nat → Nat) (m : Mem) : Outcome (Option Nat) :=
  match m.ptr u fd with
  | none => .done none m none
  | some f =>
    let fb := m.fb f
    .done (some fb.ref_count) (m.set_fb f { fb with ref_count := change fb.ref_count }) none

/-- The bytes of the frame are the camera's, also when it reports an error. -/
def exec_acquire_frame (u : UnitId) (fd : Field) (o : Oracle) (m : Mem) : Outcome vf_err_t :=
  match m.ptr u fd with
  | none => .done .VF_INVALID_PARAMETER m none
  | some f =>
    let m := m.set_fb f ((m.fb f).holding o.bytes)
    if o.err = .VF_SUCCESS then .done o.err (m.capture u f) none else .done o.err m none

def exec_convert (u : UnitId) (src dst : Field) (m : Mem) : Outcome vf_err_t :=
  match m.ptr u src, m.ptr u dst with
  | some s, some d =>
    let (err, fb, _) := conversion.vf_conversion_process m.conv_ctx (m.fb s) (m.fb d)
    let m := m.set_fb d fb
    .done err { m with number := Function.update m.number d (m.number s) } none
  | _, _ => .done .VF_INVALID_PARAMETER m none

def exec (u : UnitId) (o : Oracle) (m : Mem) : (c : UnitCmd) → Outcome c.Res
  | .initialized => .done (m.initialized (.unit u)) m none
  | .load p => .done (m.ptr u p) m none
  | .set_null p => .done () (m.put u p none) none
  | .acquire_blocking pool p => exec_acquire_blocking u pool p m
  | .release pool p => exec_release u pool p m
  | .pop_blocking q p => exec_pop_blocking u q p m
  | .push q p => exec_push u q p m
  | .fetch_add p => exec_fetch u p (fun n => u32 (n + 1)) m
  | .fetch_sub p => exec_fetch u p (fun n => u32_sub n 1) m
  | .acquire_frame p => exec_acquire_frame u p o m
  | .convert src dst => exec_convert u src dst m
  | .publish _ => .done o.err m none
  | .open_output => .done o.err m none
  | .write p => .done (if m.ptr u p = none then .VF_INVALID_PARAMETER else o.err) m none

/-! ## Threads -/

/-- `pc` is what is left of `vf_unit_run`, or `none` at the test of the loop in
`vf_unit_thread_fn`. `wait` is the condition that the thread sleeps on. -/
structure Thread where
  tid : Nat
  pc : Option (Code vf_err_t)
  wait : Option Cond

/-- History too: the unit has no thread since the last start, or it has one that is not
joined yet, or the thread is joined. -/
inductive Phase
  | fresh
  | created
  | joined
  deriving DecidableEq

/-- `thread u` is `unit->thread`, and `threads u` are the live threads of a unit.
`calling` is the call that the controlling thread is in, with what is left of it, and
`response` is what this call sent to its client. -/
structure St where
  mem : Mem
  running : UnitId → Bool
  thread : UnitId → Nat
  threads : UnitId → List Thread
  next_tid : Nat
  phase : UnitId → Phase
  calling : Option (Call × ServiceCode vf_err_t)
  response : Option String

/-- The service after `vf_service_init`. -/
def St.init (m : Mem) : St :=
  { mem := m, running := fun _ => false, thread := fun _ => 0, threads := fun _ => [],
    next_tid := 0, phase := fun _ => .joined, calling := none, response := none }

/-- The sleepers on a condition that `wakes` names are awake. -/
def wake (threads : UnitId → List Thread) (on : Cond) (wakes : Nat → Bool) (u : UnitId) :
    List Thread :=
  (threads u).map fun th =>
    if th.wait = some on ∧ wakes th.tid = true then { th with wait := none } else th

/-- A signal wakes a sleeper, if there is one. -/
def SomeWoken (threads : UnitId → List Thread) (on : Cond) (wakes : Nat → Bool) : Prop :=
  (∃ u, ∃ th ∈ threads u, th.wait = some on) →
    ∃ u, ∃ th ∈ threads u, th.wait = some on ∧ wakes th.tid = true

instance (threads : UnitId → List Thread) (on : Cond) (wakes : Nat → Bool) :
    Decidable (SomeWoken threads on wakes) := by
  unfold SomeWoken
  infer_instance

/-- `none`: the signal would wake nobody, though somebody sleeps. -/
def St.signal (s : St) (on : Option Cond) (wakes : Nat → Bool) : Option St :=
  match on with
  | none => some s
  | some on =>
    if SomeWoken s.threads on wakes then some { s with threads := wake s.threads on wakes }
    else none

def St.broadcast (s : St) (on : Cond) : St :=
  { s with threads := wake s.threads on fun _ => true }

/-- The threads of a unit, with another thread of the id `new.tid`. -/
def St.set_thread (s : St) (u : UnitId) (new : Thread) : St :=
  { s with
    threads := Function.update s.threads u
      ((s.threads u).map fun th => if th.tid = new.tid then new else th) }

def St.exit (s : St) (u : UnitId) (tid : Nat) : St :=
  { s with threads := Function.update s.threads u ((s.threads u).filter (·.tid ≠ tid)) }

/-- A step of a thread in `vf_unit_thread_fn`. `none`: the thread sleeps. -/
def worker (s : St) (u : UnitId) (th : Thread) (o : Oracle) : Option St :=
  if th.wait ≠ none then
    none
  else
    match th.pc with
    | none =>
      if s.running u then some (s.set_thread u { th with pc := some u.run })
      else some (s.exit u th.tid)
    | some (.ret err) =>
      if err = .VF_QUEUE_SHUTDOWN then some (s.exit u th.tid)
      else if err ≠ .VF_SUCCESS ∧ s.running u = false then some (s.exit u th.tid)
      else some (s.set_thread u { th with pc := none })
    | some (.op c k) =>
      match exec u o s.mem c with
      | .waits m on => some ({ s with mem := m }.set_thread u { th with wait := some on })
      | .done r m on =>
        ({ s with mem := m }.set_thread u { th with pc := some (k r) }).signal on o.wakes

/-! ## The controlling thread -/

/-- A command of the controlling thread. `ok` says if `pthread_create` succeeds.
`none`: the thread waits in `pthread_join`. -/
def control (s : St) (ok : Bool) : (c : CtlCmd UnitId QueueId) → Option (c.Res × St)
  | .initialized o => some (s.mem.initialized o, s)
  | .set_running u b => some ((), { s with running := Function.update s.running u b })
  | .load_running u => some (s.running u, s)
  | .pthread_create u =>
    if ok then
      some (true, { s with
        threads := Function.update s.threads u (s.threads u ++ [⟨s.next_tid, none, none⟩])
        thread := Function.update s.thread u s.next_tid
        next_tid := s.next_tid + 1
        phase := Function.update s.phase u .created })
    else some (false, s)
  | .pthread_join u =>
    if (s.threads u).any (·.tid = s.thread u) then none
    else some (true, { s with phase := Function.update s.phase u .joined })
  | .pool_reset p =>
    some ((), { s with mem := s.mem.set_pool p (buf_pool.vf_buf_pool_reset (s.mem.pool p)) })
  | .pool_shutdown p =>
    let m := s.mem.set_pool p (buf_pool.vf_buf_pool_shutdown (s.mem.pool p))
    some ((), { s with mem := m }.broadcast (.slot_available p))
  | .queue_reset q =>
    some ((), { s with mem := s.mem.set_queue q (buf_queue.vf_buf_queue_reset (s.mem.queue q)) })
  | .queue_shutdown q =>
    let m := s.mem.set_queue q (buf_queue.vf_buf_queue_shutdown (s.mem.queue q))
    some ((), { s with mem := m }.broadcast (.not_empty q))
  | .send_response response => some ((), { s with response := some response })
  | .send_stats => some ((), s)

/-- The numbers of the pictures in a queue. -/
def Mem.numbers (m : Mem) (q : QueueId) : List Nat := (entries (m.queue q)).map m.number

/-- The history of the pictures begins anew. -/
def St.begin (s : St) : St :=
  { s with
    mem := { s.mem with
      carry := fun _ => none, pushed := [], consumed := []
      before := s.mem.numbers .queue2 ++ s.mem.numbers .queue1 ++ s.mem.numbers .queue0 }
    phase := fun _ => .fresh }

/-! ## Steps -/

inductive Act
  /-- The thread `tid` of the unit runs. -/
  | worker (u : UnitId) (tid : Nat) (o : Oracle)
  /-- It wakes up without a signal. -/
  | wake_up (u : UnitId) (tid : Nat)
  /-- The controlling thread begins a call. -/
  | call (c : Call)
  /-- It goes on with its call. -/
  | control (ok : Bool)

/-- `none`: the step does not happen in this state. -/
def step (s : St) : Act → Option St
  | .worker u tid o => ((s.threads u).find? (·.tid = tid)).bind fun th => worker s u th o
  | .wake_up u tid =>
    ((s.threads u).find? (·.tid = tid)).map fun th => s.set_thread u { th with wait := none }
  | .call c =>
    match s.calling with
    | some _ => none
    | none =>
      let s := if c.starts then s.begin else s
      some { s with calling := some (c, c.code), response := none }
  | .control ok =>
    match s.calling with
    | none => none
    | some (_, .ret _) => some { s with calling := none }
    | some (call, .op c k) =>
      (control s ok c).map fun r => { r.2 with calling := some (call, k r.1) }

end vision_flow.service
