-- The code of the camera (vf-camera.c), with each access to the array `buffers[]` checked,
-- and each use of a mapped buffer. The driver answers each call as it likes. The loops over
-- the buffers keep the mapped buffers and the addresses in the array the same.
import VisionFlow.Camera
import VisionFlow.Lib.CMemory

namespace vision_flow.camera_memory

open c_memory oracle framebuffer
open vf_camera (Call Request v4l2_arg_t Mapped Answer DriverEvent vf_camera_t vf_camera_cfg_t
  vf_camera_buffer_t vf_camera_state_t NULL MAP_FAILED VF_CAMERA_MAX_BUFFERS pixel_fmt_to_v4l2
  V4L2_CAP_VIDEO_CAPTURE V4L2_CAP_STREAMING memcpy)

/-! ## The memory -/

/-- The buffers that are mapped after these calls, each with its address and its length. -/
def mapped : List DriverEvent → Finset (Int × Nat) :=
  List.foldl (fun bs e =>
    match e.call with
    | .mmap _ length _ => if e.answer.rc = MAP_FAILED then bs else insert (e.answer.rc, length) bs
    | .munmap start length => bs.erase (start, length)
    | _ => bs) ∅

/-- How many buffers the driver has granted. -/
def granted : List DriverEvent → Nat :=
  List.foldl (fun n e =>
    match e.call with
    | .ioctl _ .VIDIOC_REQBUFS _ => if e.answer.rc = -1 then n else e.answer.arg.count
    | _ => n) 0

/-- The camera, and the calls so far. -/
structure Mem where
  camera : vf_camera_t
  log : List DriverEvent

abbrev Code (α : Type) := Checked Mem α

/-- The driver answers a call by all calls before it. -/
abbrev Driver := List DriverEvent → Call → Answer

/-- An element of `buffers[]`. -/
def load (i : Nat) : Code vf_camera_buffer_t :=
  reads fun m => if i < VF_CAMERA_MAX_BUFFERS then some (m.camera.buffers i) else none

def store (i : Nat) (f : vf_camera_buffer_t → vf_camera_buffer_t) : Code Unit :=
  writes fun m =>
    if i < VF_CAMERA_MAX_BUFFERS then
      some { m with camera := { m.camera with
        buffers := Function.update m.camera.buffers i (f (m.camera.buffers i)) } }
    else none

/-- `*camera`, and a change of it that is not to `buffers[]`. -/
def get : Code vf_camera_t := reads fun m => some m.camera
def put (f : vf_camera_t → vf_camera_t) : Code Unit :=
  writes fun m => some { m with camera := f m.camera }

/-- The access is allowed to a buffer that is mapped. -/
def need_mapped (start : Int) : Code Unit :=
  reads fun m => if ∃ b ∈ mapped m.log, b.1 = start then some () else none

section
variable (driver : Driver)

def sys (c : Call) : Code Answer := fun m =>
  some (driver m.log c, { m with log := m.log ++ [⟨c, driver m.log c⟩] })

/-- A buffer that is not mapped cannot be unmapped. -/
def munmap (b : vf_camera_buffer_t) : Code Unit := do
  reads fun m => if (b.start, b.length) ∈ mapped m.log then some () else none
  let _ ← sys driver (.munmap b.start b.length)

/-! ## The code -/

/-- With the answer of the last `ioctl`, which was not interrupted. -/
def camera_ioctl (fd : Int) (request : Request) (arg : v4l2_arg_t) :
    Code (vf_err_t × v4l2_arg_t × Mapped) := do
  let a ← sys driver (.ioctl fd request arg)
  if a.rc = -1 then
    return (.VF_ERROR_MIN, arg, a.mapped)
  else
    return (.VF_SUCCESS, a.arg, a.mapped)

/-- The loop after `unmap_buffers:`, with `n` buffers to go. -/
def unmap_from : Nat → Nat → Code Unit
  | _, 0 => return ()
  | i, n + 1 => do
    let b ← load i
    if b.start ≠ NULL ∧ b.start ≠ MAP_FAILED then
      munmap driver b
      store i fun b => { b with start := NULL }
      unmap_from (i + 1) n
    else
      unmap_from (i + 1) n

/-- What follows `close_fd:`. -/
def close_fd (err : vf_err_t) : Code vf_err_t := do
  let camera ← get
  let _ ← sys driver (.close camera.fd)
  put fun camera => { camera with fd := -1, state := .VF_CAMERA_STATE_ERROR }
  return err

/-- What follows `unmap_buffers:`. -/
def unmap_buffers (err : vf_err_t) : Code vf_err_t := do
  let camera ← get
  unmap_from driver 0 camera.buffer_count
  close_fd driver err

/-- The loop that maps the buffers, with `n` buffers to go. -/
def map_from : Nat → Nat → Code vf_err_t
  | _, 0 => return .VF_SUCCESS
  | i, n + 1 => do
    let camera ← get
    let (err, mmap_buf, _) ←
      camera_ioctl driver camera.fd .VIDIOC_QUERYBUF { v4l2_arg_t.zeroed with index := i }
    if err ≠ .VF_SUCCESS then
      return err
    else
      store i fun b => { b with length := mmap_buf.length }
      let start ← sys driver (.mmap camera.fd mmap_buf.length mmap_buf.offset)
      store i fun b => { b with start := start.rc }
      if start.rc = MAP_FAILED then
        return .VF_OOM
      else
        map_from (i + 1) n

/-- The loop that queues the buffers, with `n` buffers to go. -/
def queue_from (fd : Int) : v4l2_arg_t → Nat → Nat → Code vf_err_t
  | _, _, 0 => return .VF_SUCCESS
  | buf, i, n + 1 => do
    let (err, buf, _) ← camera_ioctl driver fd .VIDIOC_QBUF { buf with index := i }
    if err ≠ .VF_SUCCESS then
      return err
    else
      queue_from fd buf (i + 1) n

/-- The part of `vf_camera_init` after `camera->buffer_count = req.count`. -/
def map_and_queue : Code vf_err_t := do
  let camera ← get
  let err ← map_from driver 0 camera.buffer_count
  if err ≠ .VF_SUCCESS then
    unmap_buffers driver err
  else
    let err ← queue_from driver camera.fd .zeroed 0 camera.buffer_count
    if err ≠ .VF_SUCCESS then
      unmap_buffers driver err
    else
      return .VF_SUCCESS

/-- The part of `vf_camera_init` from `VIDIOC_REQBUFS` on. -/
def request_buffers (fd : Int) (cfg : vf_camera_cfg_t) : Code vf_err_t := do
  let (err, req, _) ←
    camera_ioctl driver fd .VIDIOC_REQBUFS { v4l2_arg_t.zeroed with count := cfg.buffer_count }
  if err ≠ .VF_SUCCESS then
    close_fd driver err
  else if req.count = 0 then
    close_fd driver .VF_OOM
  else
    put fun camera => { camera with buffer_count := req.count }
    map_and_queue driver

def vf_camera_init (cfg : vf_camera_cfg_t) : Code vf_err_t := do
  if cfg.buffer_count > VF_CAMERA_MAX_BUFFERS then
    return .VF_INVALID_PARAMETER
  else
    let fd ← sys driver (.open_device cfg.device_path)
    put fun _ => { vf_camera_t.zeroed with
      cfg := cfg, state := .VF_CAMERA_STATE_STOPPED, fd := fd.rc }
    if fd.rc = -1 then
      return .VF_INIT_FAILED
    else
      let (err, cap, _) ← camera_ioctl driver fd.rc .VIDIOC_QUERYCAP .zeroed
      if err ≠ .VF_SUCCESS then
        close_fd driver err
      else if cap.capabilities &&& V4L2_CAP_VIDEO_CAPTURE = 0 then
        close_fd driver .VF_INIT_FAILED
      else if cap.capabilities &&& V4L2_CAP_STREAMING = 0 then
        close_fd driver .VF_INIT_FAILED
      else
        let (err, _) ← camera_ioctl driver fd.rc .VIDIOC_S_FMT
          { v4l2_arg_t.zeroed with
            width := cfg.width, height := cfg.height, pixelformat := pixel_fmt_to_v4l2 cfg.format }
        if err ≠ .VF_SUCCESS then
          close_fd driver err
        else
          request_buffers driver fd.rc cfg

def vf_camera_start : Code vf_err_t := do
  let camera ← get
  if camera.state ≠ .VF_CAMERA_STATE_STOPPED then
    return .VF_INIT_FAILED
  else
    let (err, _) ← camera_ioctl driver camera.fd .VIDIOC_STREAMON .zeroed
    if err ≠ .VF_SUCCESS then
      put fun camera => { camera with state := .VF_CAMERA_STATE_ERROR }
      return .VF_ERROR_MIN
    else
      put fun camera => { camera with state := .VF_CAMERA_STATE_RUNNING }
      return .VF_SUCCESS

def vf_camera_stop : Code vf_err_t := do
  let camera ← get
  if camera.state ≠ .VF_CAMERA_STATE_RUNNING then
    return .VF_SUCCESS
  else
    let (err, _) ← camera_ioctl driver camera.fd .VIDIOC_STREAMOFF .zeroed
    if err ≠ .VF_SUCCESS then
      put fun camera => { camera with state := .VF_CAMERA_STATE_ERROR }
      return .VF_ERROR_MIN
    else
      put fun camera => { camera with state := .VF_CAMERA_STATE_STOPPED }
      return .VF_SUCCESS

def vf_camera_acquire_frame (fb : vf_framebuffer_t) : Code (vf_err_t × vf_framebuffer_t) := do
  let camera ← get
  if camera.state ≠ .VF_CAMERA_STATE_RUNNING then
    return (.VF_CAMERA_INIT_ERR, fb)
  else
    let ready ← sys driver (.select camera.fd)
    if ready.rc = -1 then
      return (.VF_ERROR_MIN, fb)
    else if ready.rc = 0 then
      return (.VF_ERROR_MIN, fb)
    else
      let (err, buf, bytes) ← camera_ioctl driver camera.fd .VIDIOC_DQBUF .zeroed
      if err ≠ .VF_SUCCESS then
        return (.VF_ERROR_MIN, fb)
      else
        let copy_size := if buf.bytesused < fb.total_size then buf.bytesused else fb.total_size
        let b ← load buf.index
        need_mapped b.start
        let fb := memcpy fb (bytes b.start) copy_size
        put fun camera => { camera with frame_id := u32 (camera.frame_id + 1) }
        let (err, _) ← camera_ioctl driver camera.fd .VIDIOC_QBUF buf
        if err ≠ .VF_SUCCESS then
          return (.VF_ERROR_MIN, fb)
        else
          return (.VF_SUCCESS, fb)

/-- The stop that `vf_camera_deinit` begins with. -/
def stop_if_running : Code vf_err_t := do
  let camera ← get
  if camera.state = .VF_CAMERA_STATE_RUNNING then
    vf_camera_stop driver
  else
    return .VF_SUCCESS

def vf_camera_deinit : Code vf_err_t := do
  let camera ← get
  if camera.fd = -1 then
    return .VF_SUCCESS
  else
    let err ← stop_if_running driver
    if err ≠ .VF_SUCCESS then
      return err
    else
      let camera ← get
      unmap_from driver 0 camera.buffer_count
      let _ ← sys driver (.close camera.fd)
      put fun camera => { camera with fd := -1, state := .VF_CAMERA_STATE_STOPPED }
      return .VF_SUCCESS

/-! ## Runs -/

inductive Act
  | start
  | acquire_frame (fb : vf_framebuffer_t)
  | stop
  | deinit

def perform : Act → Code Unit
  | .start => do
    let _ ← vf_camera_start driver
  | .acquire_frame fb => do
    let _ ← vf_camera_acquire_frame driver fb
  | .stop => do
    let _ ← vf_camera_stop driver
  | .deinit => do
    let _ ← vf_camera_deinit driver

def run : List Act → Code Unit
  | [] => return ()
  | a :: rest => do
    perform driver a
    run rest

/-! ## The driver -/

/-- What a driver keeps to. A new mapping has an address of its own, which is not NULL. A
buffer that is dequeued was granted. No call succeeds on a file that is closed. -/
structure Lawful : Prop where
  mmap : ∀ log fd length offset, (driver log (.mmap fd length offset)).rc ≠ MAP_FAILED →
    (driver log (.mmap fd length offset)).rc ≠ NULL ∧
      ∀ b ∈ mapped log, b.1 ≠ (driver log (.mmap fd length offset)).rc
  dequeue : ∀ log fd arg, (driver log (.ioctl fd .VIDIOC_DQBUF arg)).rc ≠ -1 →
    (driver log (.ioctl fd .VIDIOC_DQBUF arg)).arg.index < granted log
  closed : ∀ log, (driver log (.select (-1))).rc = -1 ∨ (driver log (.select (-1))).rc = 0

end

/-! ## The log -/

theorem mapped_append (log : List DriverEvent) (e : DriverEvent) :
    mapped (log ++ [e]) = match e.call with
      | .mmap _ length _ =>
        if e.answer.rc = MAP_FAILED then mapped log
        else insert (e.answer.rc, length) (mapped log)
      | .munmap start length => (mapped log).erase (start, length)
      | _ => mapped log := by
  simp only [mapped, List.foldl_append, List.foldl_cons, List.foldl_nil]

theorem granted_append (log : List DriverEvent) (e : DriverEvent) :
    granted (log ++ [e]) = match e.call with
      | .ioctl _ .VIDIOC_REQBUFS _ => if e.answer.rc = -1 then granted log else e.answer.arg.count
      | _ => granted log := by
  simp only [granted, List.foldl_append, List.foldl_cons, List.foldl_nil]

/-- The calls that neither map a buffer nor grant one. -/
def Plain : Call → Prop
  | .mmap _ _ _ => False
  | .munmap _ _ => False
  | .ioctl _ .VIDIOC_REQBUFS _ => False
  | _ => True

theorem mapped_plain {log : List DriverEvent} {e : DriverEvent} (h : Plain e.call) :
    mapped (log ++ [e]) = mapped log := by
  rw [mapped_append]
  split
  · simp_all [Plain]
  · simp_all [Plain]
  · rfl

theorem granted_plain {log : List DriverEvent} {e : DriverEvent} (h : Plain e.call) :
    granted (log ++ [e]) = granted log := by
  rw [granted_append]
  split
  · simp_all [Plain]
  · rfl

section
variable {driver : Driver} {m : Mem}

/-! ## The parts of a call -/

/-- The memory after a call of the driver. -/
def Mem.called (driver : Driver) (m : Mem) (c : Call) : Mem :=
  { m with log := m.log ++ [⟨c, driver m.log c⟩] }

@[simp] theorem Mem.called_camera (c : Call) : (m.called driver c).camera = m.camera := rfl

@[simp] theorem Mem.called_log (c : Call) :
    (m.called driver c).log = m.log ++ [⟨c, driver m.log c⟩] := rfl

theorem sys.spec (c : Call) : sys driver c m = some (driver m.log c, m.called driver c) := rfl

theorem get.spec : get m = some (m.camera, m) := rfl

theorem put.spec (f : vf_camera_t → vf_camera_t) :
    put f m = some ((), { m with camera := f m.camera }) := rfl

/-- What an `ioctl` leaves in its argument. -/
def left (a : Answer) (arg : v4l2_arg_t) : v4l2_arg_t := if a.rc = -1 then arg else a.arg

/-- Its callers see no failure. -/
theorem camera_ioctl.spec (fd : Int) (request : Request) (arg : v4l2_arg_t) :
    camera_ioctl driver fd request arg m =
      some ((.VF_SUCCESS, left (driver m.log (.ioctl fd request arg)) arg,
        (driver m.log (.ioctl fd request arg)).mapped),
        m.called driver (.ioctl fd request arg)) := by
  unfold camera_ioctl left
  rw [run_bind_of (sys.spec _)]
  split
  · rfl
  · rfl

theorem load.spec {i : Nat} (hi : i < VF_CAMERA_MAX_BUFFERS) :
    load i m = some (m.camera.buffers i, m) := by
  simp [load, reads, hi]

theorem load.fault {i : Nat} (hi : VF_CAMERA_MAX_BUFFERS ≤ i) : load i m = none := by
  simp [load, reads, hi]

/-- The memory with another buffer `i`. -/
def Mem.set_buffer (m : Mem) (i : Nat) (b : vf_camera_buffer_t) : Mem :=
  { m with camera := { m.camera with buffers := Function.update m.camera.buffers i b } }

theorem store.spec {i : Nat} (hi : i < VF_CAMERA_MAX_BUFFERS)
    (f : vf_camera_buffer_t → vf_camera_buffer_t) :
    store i f m = some ((), m.set_buffer i (f (m.camera.buffers i))) := by
  simp [store, writes, hi, Mem.set_buffer]

theorem store.fault {i : Nat} (hi : VF_CAMERA_MAX_BUFFERS ≤ i)
    (f : vf_camera_buffer_t → vf_camera_buffer_t) : store i f m = none := by
  simp [store, writes, hi]

theorem munmap.spec (driver : Driver) {b : vf_camera_buffer_t}
    (h : (b.start, b.length) ∈ mapped m.log) :
    munmap driver b m = some ((), m.called driver (.munmap b.start b.length)) := by
  have hmem : reads (fun m : Mem =>
      if (b.start, b.length) ∈ mapped m.log then some () else none) m = some ((), m) :=
    reads_of (if_pos h)
  unfold munmap
  rw [run_bind_of hmem]
  rfl

/-! ## One round of each loop -/

/-- The buffer holds an address. -/
def Usable (b : vf_camera_buffer_t) : Prop := b.start ≠ NULL ∧ b.start ≠ MAP_FAILED

instance (b : vf_camera_buffer_t) : Decidable (Usable b) :=
  inferInstanceAs (Decidable (_ ∧ _))

/-- The memory after `VIDIOC_QUERYBUF` of the buffer `i`, and its description. -/
def query_call (m : Mem) (i : Nat) : Call :=
  .ioctl m.camera.fd .VIDIOC_QUERYBUF { v4l2_arg_t.zeroed with index := i }

def described (driver : Driver) (m : Mem) (i : Nat) : v4l2_arg_t :=
  left (driver m.log (query_call m i)) { v4l2_arg_t.zeroed with index := i }

/-- The `mmap` of the buffer `i`. -/
def map_call (driver : Driver) (m : Mem) (i : Nat) : Call :=
  .mmap m.camera.fd (described driver m i).length (described driver m i).offset

/-- What it returns. -/
def new_start (driver : Driver) (m : Mem) (i : Nat) : Int :=
  (driver (m.called driver (query_call m i)).log (map_call driver m i)).rc

/-- The memory after the round of `map_from` for the buffer `i`. -/
def map_one (driver : Driver) (m : Mem) (i : Nat) : Mem :=
  ((m.called driver (query_call m i)).called driver (map_call driver m i)).set_buffer i
    ⟨new_start driver m i, (described driver m i).length⟩

theorem map_from_step {i : Nat} (hi : i < VF_CAMERA_MAX_BUFFERS) (n : Nat) :
    map_from driver i (n + 1) m =
      if new_start driver m i = MAP_FAILED then some (.VF_OOM, map_one driver m i)
      else map_from driver (i + 1) n (map_one driver m i) := by
  -- the length is stored before the call of `mmap`, and stays when the address is stored
  have hlength := store.spec (m := m.called driver (query_call m i)) hi
    fun b => { b with length := (described driver m i).length }
  have hmap : sys driver (map_call driver m i) ((m.called driver (query_call m i)).set_buffer i
        { m.camera.buffers i with length := (described driver m i).length }) =
      some (driver (m.called driver (query_call m i)).log (map_call driver m i),
        ((m.called driver (query_call m i)).called driver (map_call driver m i)).set_buffer i
          { m.camera.buffers i with length := (described driver m i).length }) := rfl
  have hstart : store i (fun b => { b with start := new_start driver m i })
      (((m.called driver (query_call m i)).called driver (map_call driver m i)).set_buffer i
        { m.camera.buffers i with length := (described driver m i).length }) =
        some ((), map_one driver m i) := by
    rw [store.spec hi]
    simp [map_one, Mem.set_buffer]
  rw [map_from, run_bind_of get.spec, run_bind_of (camera_ioctl.spec _ _ _)]
  simp only [ne_eq, not_true_eq_false, if_false]
  refine (run_bind_of hlength).trans ((run_bind_of hmap).trans ((run_bind_of hstart).trans ?_))
  exact apply_ite (fun p : Code vf_err_t => p (map_one driver m i)) _ _ _

theorem map_from_fault {i : Nat} (hi : VF_CAMERA_MAX_BUFFERS ≤ i) (n : Nat) :
    map_from driver i (n + 1) m = none := by
  rw [map_from, run_bind_of get.spec, run_bind_of (camera_ioctl.spec _ _ _)]
  simp only [ne_eq, not_true_eq_false, if_false]
  rw [run_bind, store.fault hi]
  rfl

/-- The memory after the round of `unmap_from` for the buffer `i`. -/
def unmap_one (driver : Driver) (m : Mem) (i : Nat) : Mem :=
  let b := m.camera.buffers i
  if Usable b then
    (m.called driver (.munmap b.start b.length)).set_buffer i { b with start := NULL }
  else m

theorem unmap_from_step {i : Nat} (hi : i < VF_CAMERA_MAX_BUFFERS) (n : Nat)
    (h : Usable (m.camera.buffers i) →
      ((m.camera.buffers i).start, (m.camera.buffers i).length) ∈ mapped m.log) :
    unmap_from driver i (n + 1) m = unmap_from driver (i + 1) n (unmap_one driver m i) := by
  rw [unmap_from, run_bind_of (load.spec hi)]
  unfold unmap_one
  by_cases hb : Usable (m.camera.buffers i)
  · have hunmap := munmap.spec driver (h hb)
    simp only
    rw [if_pos hb, if_pos (show _ ∧ _ from hb), run_bind_of hunmap, run_bind_of (store.spec hi _)]
    rfl
  · simp only
    rw [if_neg hb, if_neg (show ¬ (_ ∧ _) from hb)]

theorem unmap_from_fault {i : Nat} (hi : VF_CAMERA_MAX_BUFFERS ≤ i) (n : Nat) :
    unmap_from driver i (n + 1) m = none := by
  rw [unmap_from, run_bind, load.fault hi]
  rfl

/-! ## What stays -/

/-- The loops change no more than the buffers. -/
structure Frame (m m' : Mem) : Prop where
  fd : m'.camera.fd = m.camera.fd
  buffer_count : m'.camera.buffer_count = m.camera.buffer_count
  granted : granted m'.log = granted m.log

theorem Frame.refl (m : Mem) : Frame m m := ⟨rfl, rfl, rfl⟩

theorem Frame.trans {a b c : Mem} (h : Frame a b) (h' : Frame b c) : Frame a c :=
  ⟨h'.fd.trans h.fd, h'.buffer_count.trans h.buffer_count, h'.granted.trans h.granted⟩

/-- The other calls do not change the buffers either. -/
structure Same (m m' : Mem) : Prop extends Frame m m' where
  buffers : m'.camera.buffers = m.camera.buffers
  mapped : mapped m'.log = mapped m.log

theorem Same.refl (m : Mem) : Same m m := ⟨Frame.refl m, rfl, rfl⟩

theorem Same.trans {a b c : Mem} (h : Same a b) (h' : Same b c) : Same a c :=
  ⟨h.toFrame.trans h'.toFrame, h'.buffers.trans h.buffers, h'.mapped.trans h.mapped⟩

theorem Same.called (driver : Driver) {c : Call} (h : Plain c) : Same m (m.called driver c) :=
  ⟨⟨rfl, rfl, granted_plain h⟩, rfl, mapped_plain h⟩

theorem map_one_frame (i : Nat) : Frame m (map_one driver m i) := by
  refine ⟨rfl, rfl, ?_⟩
  exact (granted_append (m.called driver (query_call m i)).log _).trans (granted_plain trivial)

theorem unmap_one_frame (i : Nat) : Frame m (unmap_one driver m i) := by
  unfold unmap_one
  simp only
  split
  · exact ⟨rfl, rfl, granted_append _ _⟩
  · exact Frame.refl m

/-! ## The mapped buffers -/

/-- Where a buffer is mapped. -/
def place (b : vf_camera_buffer_t) : Int × Nat := (b.start, b.length)

/-- The mapped buffers are the ones of the `n` that hold an address, and no two hold the
same. -/
structure Matches (n : Nat) (buffers : Nat → vf_camera_buffer_t) (bs : Finset (Int × Nat)) :
    Prop where
  held : ∀ i < n, Usable (buffers i) → place (buffers i) ∈ bs
  owner : ∀ b ∈ bs, ∃ i < n, Usable (buffers i) ∧ b = place (buffers i)
  apart : ∀ i < n, ∀ j < n, Usable (buffers i) → (buffers i).start = (buffers j).start → i = j

section
variable {n i : Nat} {buffers : Nat → vf_camera_buffer_t} {bs : Finset (Int × Nat)}
  {b : vf_camera_buffer_t}

theorem Usable.of_start {b b' : vf_camera_buffer_t} (h : Usable b) (heq : b.start = b'.start) :
    Usable b' := by
  unfold Usable at h ⊢
  rwa [← heq]

theorem Matches.none_mapped (h : Matches n buffers bs) (hnone : ∀ i < n, ¬ Usable (buffers i)) :
    bs = ∅ := by
  refine Finset.eq_empty_of_forall_notMem fun b hb => ?_
  obtain ⟨i, hi, husable, -⟩ := h.owner b hb
  exact hnone i hi husable

/-- A buffer that is usable after the change of a buffer to one that is not. -/
theorem usable_of_update {j : Nat} (hb : ¬ Usable b)
    (hj : Usable (Function.update buffers i b j)) : j ≠ i ∧ Usable (buffers j) := by
  by_cases hji : j = i
  · rw [hji, Function.update_self] at hj
    exact absurd hj hb
  · rw [Function.update_of_ne hji] at hj
    exact ⟨hji, hj⟩

/-- The buffer `i` loses its address and its mapping. -/
theorem Matches.clear (h : Matches n buffers bs) (hi : i < n) (hb : ¬ Usable b) :
    Matches n (Function.update buffers i b) (bs.erase (place (buffers i))) := by
  refine ⟨?_, ?_, ?_⟩
  · intro j hj husable
    obtain ⟨hji, husable⟩ := usable_of_update hb husable
    rw [Function.update_of_ne hji]
    refine Finset.mem_erase.mpr ⟨fun heq => hji ?_, h.held j hj husable⟩
    exact h.apart j hj i hi husable (congrArg Prod.fst heq)
  · intro c hc
    obtain ⟨hne, hc⟩ := Finset.mem_erase.mp hc
    obtain ⟨j, hj, husable, rfl⟩ := h.owner c hc
    have hji : j ≠ i := fun heq => hne (heq ▸ rfl)
    exact ⟨j, hj, by rwa [Function.update_of_ne hji], by rw [Function.update_of_ne hji]⟩
  · intro j hj k hk husable hstart
    obtain ⟨hki, -⟩ := usable_of_update hb (husable.of_start hstart)
    obtain ⟨hji, husable⟩ := usable_of_update hb husable
    rw [Function.update_of_ne hji, Function.update_of_ne hki] at hstart
    exact h.apart j hj k hk husable hstart

/-- A buffer without an address is not mapped. -/
theorem Matches.not_mapped (h : Matches n buffers bs) (hb : ¬ Usable b) : place b ∉ bs := by
  intro hmem
  obtain ⟨i, -, husable, heq⟩ := h.owner _ hmem
  exact hb (husable.of_start (congrArg Prod.fst heq).symm)

/-- The buffer `i` gets an address that no other buffer has. -/
theorem Matches.add (h : Matches n buffers bs) (hi : i < n) (hnot : ¬ Usable (buffers i))
    (hb : Usable b) (hfresh : ∀ c ∈ bs, c.1 ≠ b.start) :
    Matches n (Function.update buffers i b) (insert (place b) bs) := by
  have hother : ∀ j < n, Usable (buffers j) → (buffers j).start ≠ b.start := fun j hj husable =>
    hfresh _ (h.held j hj husable)
  refine ⟨?_, ?_, ?_⟩
  · intro j hj husable
    by_cases hji : j = i
    · rw [hji, Function.update_self]
      exact Finset.mem_insert_self _ _
    · rw [Function.update_of_ne hji] at husable ⊢
      exact Finset.mem_insert_of_mem (h.held j hj husable)
  · intro c hc
    rcases Finset.mem_insert.mp hc with rfl | hc
    · exact ⟨i, hi, by rwa [Function.update_self], by rw [Function.update_self]⟩
    · obtain ⟨j, hj, husable, rfl⟩ := h.owner c hc
      have hji : j ≠ i := fun heq => hnot (heq ▸ husable)
      exact ⟨j, hj, by rwa [Function.update_of_ne hji], by rw [Function.update_of_ne hji]⟩
  · intro j hj k hk husable hstart
    have husable' := husable.of_start hstart
    by_cases hji : j = i
    · by_cases hki : k = i
      · rw [hji, hki]
      · rw [hji, Function.update_self, Function.update_of_ne hki] at hstart
        rw [Function.update_of_ne hki] at husable'
        exact absurd hstart.symm (hother k hk husable')
    · rw [Function.update_of_ne hji] at hstart husable
      by_cases hki : k = i
      · rw [hki, Function.update_self] at hstart
        exact absurd hstart (hother j hj husable)
      · rw [Function.update_of_ne hki] at hstart
        exact h.apart j hj k hk husable hstart

end

/-- The mapped buffers are the ones of the camera. -/
def Kept (m : Mem) : Prop := Matches m.camera.buffer_count m.camera.buffers (mapped m.log)

theorem Kept.same {m' : Mem} (h : Kept m) (hs : Same m m') : Kept m' := by
  unfold Kept
  rw [hs.buffer_count, hs.buffers, hs.mapped]
  exact h

/-! ## What a round does to the mapped buffers -/

theorem mapped_query (i : Nat) : mapped (m.called driver (query_call m i)).log = mapped m.log :=
  mapped_plain trivial

theorem mapped_map_one (i : Nat) : mapped (map_one driver m i).log =
    if new_start driver m i = MAP_FAILED then mapped m.log
    else insert (new_start driver m i, (described driver m i).length) (mapped m.log) := by
  have hlog : (map_one driver m i).log = (m.called driver (query_call m i)).log ++
      [⟨map_call driver m i,
        driver (m.called driver (query_call m i)).log (map_call driver m i)⟩] := rfl
  rw [hlog, mapped_append, mapped_query]
  rfl

theorem map_one_kept (hd : Lawful driver) (h : Kept m) {i : Nat}
    (hi : i < m.camera.buffer_count) (hnot : ¬ Usable (m.camera.buffers i)) :
    Kept (map_one driver m i) := by
  have hbuffers : (map_one driver m i).camera.buffers = Function.update m.camera.buffers i
    ⟨new_start driver m i, (described driver m i).length⟩ := rfl
  unfold Kept
  rw [mapped_map_one, hbuffers, (map_one_frame i).buffer_count]
  by_cases hf : new_start driver m i = MAP_FAILED
  · rw [if_pos hf, ← Finset.erase_eq_of_notMem (h.not_mapped hnot)]
    exact h.clear hi fun husable => husable.2 hf
  · rw [if_neg hf]
    obtain ⟨hnull, hfresh⟩ := hd.mmap (m.called driver (query_call m i)).log m.camera.fd
      (described driver m i).length (described driver m i).offset hf
    rw [mapped_query] at hfresh
    exact h.add hi hnot ⟨hnull, hf⟩ hfresh

theorem unmap_one_kept (h : Kept m) {i : Nat} (hi : i < m.camera.buffer_count) :
    Kept (unmap_one driver m i) := by
  unfold unmap_one
  simp only
  split
  · have hlog : mapped (m.called driver (.munmap (m.camera.buffers i).start
        (m.camera.buffers i).length)).log = (mapped m.log).erase (place (m.camera.buffers i)) :=
      mapped_append _ _
    unfold Kept Mem.set_buffer
    simp only [hlog]
    exact h.clear hi fun husable => husable.1 rfl
  · exact h

theorem map_one_other {i j : Nat} (h : j ≠ i) :
    (map_one driver m i).camera.buffers j = m.camera.buffers j :=
  Function.update_of_ne h ..

theorem map_one_self (i : Nat) : (map_one driver m i).camera.buffers i =
    ⟨new_start driver m i, (described driver m i).length⟩ :=
  Function.update_self ..

theorem unmap_one_other {i j : Nat} (h : j ≠ i) :
    (unmap_one driver m i).camera.buffers j = m.camera.buffers j := by
  unfold unmap_one
  simp only
  split
  · exact Function.update_of_ne h ..
  · rfl

theorem unmap_one_self (i : Nat) : ¬ Usable ((unmap_one driver m i).camera.buffers i) := by
  unfold unmap_one
  simp only
  split
  · have hself : ((m.called driver (.munmap (m.camera.buffers i).start
        (m.camera.buffers i).length)).set_buffer i
          { m.camera.buffers i with start := NULL }).camera.buffers i =
        { m.camera.buffers i with start := NULL } := Function.update_self ..
    rw [hself]
    exact fun husable => husable.1 rfl
  · assumption

/-! ## The loops -/

theorem unmap_from.spec (driver : Driver) (n : Nat) {i : Nat} (h : Kept m)
    (hn : m.camera.buffer_count = i + n) (hmax : m.camera.buffer_count ≤ VF_CAMERA_MAX_BUFFERS)
    (hdone : ∀ j < i, ¬ Usable (m.camera.buffers j)) :
    ∃ m', unmap_from driver i n m = some ((), m') ∧ Frame m m' ∧ mapped m'.log = ∅ := by
  induction n generalizing i m with
  | zero => exact ⟨m, rfl, Frame.refl m, h.none_mapped fun j hj => hdone j (by omega)⟩
  | succ n ih =>
    have hi : i < m.camera.buffer_count := by omega
    have hframe : Frame m (unmap_one driver m i) := unmap_one_frame i
    have hdone' : ∀ j < i + 1, ¬ Usable ((unmap_one driver m i).camera.buffers j) := by
      intro j hj
      by_cases hji : j = i
      · rw [hji]
        exact unmap_one_self i
      · rw [unmap_one_other hji]
        exact hdone j (by omega)
    rw [unmap_from_step (Nat.lt_of_lt_of_le hi hmax) n (h.held i hi)]
    obtain ⟨m', hrun, hframe', hnone⟩ := ih (unmap_one_kept h hi)
      (by rw [hframe.buffer_count]; omega) (by rw [hframe.buffer_count]; exact hmax) hdone'
    exact ⟨m', hrun, hframe.trans hframe', hnone⟩

theorem map_from.spec (hd : Lawful driver) (n : Nat) {i : Nat} (h : Kept m)
    (hn : m.camera.buffer_count = i + n) (hmax : m.camera.buffer_count ≤ VF_CAMERA_MAX_BUFFERS)
    (hdone : ∀ j < i, Usable (m.camera.buffers j))
    (hrest : ∀ j, i ≤ j → ¬ Usable (m.camera.buffers j)) :
    ∃ err m', map_from driver i n m = some (err, m') ∧ Frame m m' ∧ Kept m' ∧
      (err = .VF_SUCCESS → ∀ j < m'.camera.buffer_count, Usable (m'.camera.buffers j)) := by
  induction n generalizing i m with
  | zero => exact ⟨_, m, rfl, Frame.refl m, h, fun _ j hj => hdone j (by omega)⟩
  | succ n ih =>
    have hi : i < m.camera.buffer_count := by omega
    have hframe : Frame m (map_one driver m i) := map_one_frame i
    have hkept := map_one_kept hd h hi (hrest i (Nat.le_refl i))
    rw [map_from_step (Nat.lt_of_lt_of_le hi hmax)]
    by_cases hf : new_start driver m i = MAP_FAILED
    · rw [if_pos hf]
      exact ⟨_, _, rfl, hframe, hkept, nofun⟩
    · rw [if_neg hf]
      have hdone' : ∀ j < i + 1, Usable ((map_one driver m i).camera.buffers j) := by
        intro j hj
        by_cases hji : j = i
        · rw [hji, map_one_self]
          exact ⟨(hd.mmap _ _ _ _ hf).1, hf⟩
        · rw [map_one_other hji]
          exact hdone j (by omega)
      have hrest' : ∀ j, i + 1 ≤ j → ¬ Usable ((map_one driver m i).camera.buffers j) := by
        intro j hj
        rw [map_one_other (by omega)]
        exact hrest j (by omega)
      obtain ⟨err, m', hrun, hframe', hend⟩ := ih hkept (by rw [hframe.buffer_count]; omega)
        (by rw [hframe.buffer_count]; exact hmax) hdone' hrest'
      exact ⟨err, m', hrun, hframe.trans hframe', hend⟩

theorem queue_from.spec (driver : Driver) (fd : Int) (n : Nat) (buf : v4l2_arg_t) (i : Nat) :
    ∃ m', queue_from driver fd buf i n m = some (.VF_SUCCESS, m') ∧ Same m m' := by
  induction n generalizing buf i m with
  | zero => exact ⟨m, rfl, Same.refl m⟩
  | succ n ih =>
    rw [queue_from, run_bind_of (camera_ioctl.spec _ _ _)]
    simp only [ne_eq, not_true_eq_false, if_false]
    have hcall : Same m (m.called driver (.ioctl fd .VIDIOC_QBUF { buf with index := i })) :=
      Same.called driver trivial
    obtain ⟨m', hrun, hsame⟩ := ih _ (i + 1)
    exact ⟨m', hrun, hcall.trans hsame⟩

theorem unmap_from_past (driver : Driver) (n : Nat) {i : Nat} (hi : i ≤ VF_CAMERA_MAX_BUFFERS)
    (hn : VF_CAMERA_MAX_BUFFERS < i + n) : unmap_from driver i n m = none := by
  induction n generalizing i m with
  | zero => omega
  | succ n ih =>
    by_cases h : i = VF_CAMERA_MAX_BUFFERS
    · exact unmap_from_fault (by omega) n
    · have hnext : ∀ m', unmap_from driver (i + 1) n m' = none := fun m' =>
        ih (by omega) (by omega)
      rw [unmap_from, run_bind_of (load.spec (by omega))]
      split
      · rw [run_bind]
        rcases hunmap : munmap driver (m.camera.buffers i) m with _ | ⟨-, m1⟩
        · rfl
        · simp only [Option.bind_some]
          rw [run_bind_of (store.spec (by omega) _)]
          exact hnext _
      · exact hnext m

theorem map_from_past (driver : Driver) (n : Nat) {i : Nat} (hi : i ≤ VF_CAMERA_MAX_BUFFERS)
    (hn : VF_CAMERA_MAX_BUFFERS < i + n) : map_from driver i n m = none ∨
      ∃ m', map_from driver i n m = some (.VF_OOM, m') ∧
        m'.camera.buffer_count = m.camera.buffer_count := by
  induction n generalizing i m with
  | zero => omega
  | succ n ih =>
    by_cases h : i = VF_CAMERA_MAX_BUFFERS
    · exact .inl (map_from_fault (by omega) n)
    · have hlt : i < VF_CAMERA_MAX_BUFFERS := by omega
      rw [map_from_step hlt]
      by_cases hf : new_start driver m i = MAP_FAILED
      · rw [if_pos hf]
        exact .inr ⟨_, rfl, rfl⟩
      · rw [if_neg hf]
        exact ih (m := map_one driver m i) (by omega) (by omega)

end
end vision_flow.camera_memory
