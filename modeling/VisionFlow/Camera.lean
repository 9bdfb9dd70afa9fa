-- The camera layer (vf-camera.c) over a V4L2 driver, and the part of the camera unit that
-- takes a frame and passes it on (vf-camera-unit.c). The system calls are calls of an
-- environment that answers as it likes. The pointers that the C code checks for NULL
-- once, its logging, and the metadata of a frame are left out.
import VisionFlow.Lib.Oracle
import VisionFlow.Framebuffer

namespace vision_flow.vf_camera

open oracle framebuffer

/-! ## The system calls -/

inductive Request
  | VIDIOC_QUERYCAP
  | VIDIOC_S_FMT
  | VIDIOC_REQBUFS
  | VIDIOC_QUERYBUF
  | VIDIOC_QBUF
  | VIDIOC_DQBUF
  | VIDIOC_STREAMON
  | VIDIOC_STREAMOFF
  deriving DecidableEq

inductive v4l2_pix_fmt_t
  | V4L2_PIX_FMT_YUYV
  | V4L2_PIX_FMT_MJPEG
  deriving DecidableEq

/-- The fields of the argument structures that the code sets or reads. -/
structure v4l2_arg_t where
  capabilities : Nat
  width : Nat
  height : Nat
  pixelformat : v4l2_pix_fmt_t
  count : Nat
  index : Nat
  length : Nat
  offset : Nat
  bytesused : Nat
  deriving DecidableEq

/-- An argument after `= {0}`. -/
def v4l2_arg_t.zeroed : v4l2_arg_t := ⟨0, 0, 0, .V4L2_PIX_FMT_YUYV, 0, 0, 0, 0, 0⟩

def V4L2_CAP_VIDEO_CAPTURE : Nat := 1
def V4L2_CAP_STREAMING : Nat := 0x04000000

/-- An `ioctl` on a file descriptor, with the argument as the code passes it. -/
inductive Call
  | open_device (device_path : String)
  | ioctl (fd : Int) (request : Request) (arg : v4l2_arg_t)
  | select (fd : Int)
  | mmap (fd : Int) (length offset : Nat)
  | munmap (start : Int) (length : Nat)
  | close (fd : Int)
  deriving DecidableEq

/-- What the memory at an address holds. -/
abbrev Mapped := Int → Nat → UInt8

/-- What a call returns, and `errno` after it. A successful `ioctl` leaves `arg` in its
argument. `mapped` is what the buffers hold after the call. -/
structure Answer where
  rc : Int
  errno : Nat
  arg : v4l2_arg_t
  mapped : Mapped

def EINTR : Nat := 4

abbrev Driver := Prog Call Answer
abbrev DriverEvent := Event Call Answer

/-! ## The code -/

def VF_CAMERA_MAX_BUFFERS : Nat := 16

inductive vf_camera_state_t
  | VF_CAMERA_STATE_STOPPED
  | VF_CAMERA_STATE_RUNNING
  | VF_CAMERA_STATE_ERROR
  deriving DecidableEq

structure vf_camera_cfg_t where
  device_path : String
  width : Nat
  height : Nat
  format : vf_pixel_fmt_t
  buffer_count : Nat

/-- `start` is an address, NULL or `MAP_FAILED`. -/
structure vf_camera_buffer_t where
  start : Int
  length : Nat

def NULL : Int := 0
def MAP_FAILED : Int := -1

structure vf_camera_t where
  cfg : vf_camera_cfg_t
  state : vf_camera_state_t
  fd : Int
  buffers : Nat → vf_camera_buffer_t
  buffer_count : Nat
  frame_id : Nat

/-- A camera after the `memset` to 0. -/
def vf_camera_t.zeroed : vf_camera_t :=
  { cfg := ⟨"", 0, 0, .VF_PIXEL_FMT_UNKNOWN, 0⟩, state := .VF_CAMERA_STATE_STOPPED, fd := 0,
    buffers := fun _ => ⟨NULL, 0⟩, buffer_count := 0, frame_id := 0 }

def pixel_fmt_to_v4l2 : vf_pixel_fmt_t → v4l2_pix_fmt_t
  | .VF_PIXEL_FMT_YUYV => .V4L2_PIX_FMT_YUYV
  | .VF_PIXEL_FMT_MJPEG => .V4L2_PIX_FMT_MJPEG
  | _ => .V4L2_PIX_FMT_YUYV

/-- `-1 == rc && EINTR == errno`. -/
def interrupted (a : Answer) : Bool := a.rc = -1 ∧ a.errno = EINTR

/-- The error code, and the argument and the mapped memory after the call. -/
def camera_ioctl (fd : Int) (request : Request) (arg : v4l2_arg_t) :
    Driver (vf_err_t × v4l2_arg_t × Mapped) := do
  let a ← ask_until interrupted (.ioctl fd request arg)
  if a.rc = -1 then
    return (.VF_ERROR_MIN, arg, a.mapped)
  else
    return (.VF_SUCCESS, a.arg, a.mapped)

/-- The loop after `unmap_buffers:`, from buffer `i` on. -/
def unmap_from (buffers : Nat → vf_camera_buffer_t) :
    Nat → Nat → Driver (Nat → vf_camera_buffer_t)
  | _, 0 => return buffers
  | i, n + 1 => do
    let b := buffers i
    if b.start ≠ NULL ∧ b.start ≠ MAP_FAILED then
      let _ ← ask (.munmap b.start b.length)
      unmap_from (Function.update buffers i ⟨NULL, b.length⟩) (i + 1) n
    else
      unmap_from buffers (i + 1) n

/-- What follows `close_fd:`. -/
def close_fd (camera : vf_camera_t) (err : vf_err_t) : Driver (vf_err_t × vf_camera_t) := do
  let _ ← ask (.close camera.fd)
  return (err, { camera with fd := -1, state := .VF_CAMERA_STATE_ERROR })

/-- What follows `unmap_buffers:`. -/
def unmap_buffers (camera : vf_camera_t) (err : vf_err_t) :
    Driver (vf_err_t × vf_camera_t) := do
  let buffers ← unmap_from camera.buffers 0 camera.buffer_count
  close_fd { camera with buffers := buffers } err

/-- The loop that maps the buffers, from buffer `i` on. -/
def map_from (fd : Int) (buffers : Nat → vf_camera_buffer_t) :
    Nat → Nat → Driver (vf_err_t × (Nat → vf_camera_buffer_t))
  | _, 0 => return (.VF_SUCCESS, buffers)
  | i, n + 1 => do
    let (err, mmap_buf, _) ← camera_ioctl fd .VIDIOC_QUERYBUF { v4l2_arg_t.zeroed with index := i }
    if err ≠ .VF_SUCCESS then
      return (err, buffers)
    else
      let start ← ask (.mmap fd mmap_buf.length mmap_buf.offset)
      let buffers := Function.update buffers i ⟨start.rc, mmap_buf.length⟩
      if start.rc = MAP_FAILED then
        return (.VF_OOM, buffers)
      else
        map_from fd buffers (i + 1) n

/-- The loop that queues the buffers, from buffer `i` on. `buf` is one variable, which the
driver may write to. -/
def queue_from (fd : Int) (buf : v4l2_arg_t) : Nat → Nat → Driver vf_err_t
  | _, 0 => return .VF_SUCCESS
  | i, n + 1 => do
    let (err, buf, _) ← camera_ioctl fd .VIDIOC_QBUF { buf with index := i }
    if err ≠ .VF_SUCCESS then
      return err
    else
      queue_from fd buf (i + 1) n

def vf_camera_init (camera : vf_camera_t) (cfg : vf_camera_cfg_t) :
    Driver (vf_err_t × vf_camera_t) := do
  if cfg.buffer_count > VF_CAMERA_MAX_BUFFERS then
    return (.VF_INVALID_PARAMETER, camera)
  else
    let fd ← ask (.open_device cfg.device_path)
    let camera := { vf_camera_t.zeroed with
      cfg := cfg, state := .VF_CAMERA_STATE_STOPPED, fd := fd.rc }
    if fd.rc = -1 then
      return (.VF_INIT_FAILED, camera)
    else
      let (err, cap, _) ← camera_ioctl camera.fd .VIDIOC_QUERYCAP .zeroed
      if err ≠ .VF_SUCCESS then
        close_fd camera err
      else if cap.capabilities &&& V4L2_CAP_VIDEO_CAPTURE = 0 then
        close_fd camera .VF_INIT_FAILED
      else if cap.capabilities &&& V4L2_CAP_STREAMING = 0 then
        close_fd camera .VF_INIT_FAILED
      else
        let (err, _) ← camera_ioctl camera.fd .VIDIOC_S_FMT
          { v4l2_arg_t.zeroed with
            width := cfg.width, height := cfg.height, pixelformat := pixel_fmt_to_v4l2 cfg.format }
        if err ≠ .VF_SUCCESS then
          close_fd camera err
        else
          let (err, req, _) ← camera_ioctl camera.fd .VIDIOC_REQBUFS
            { v4l2_arg_t.zeroed with count := cfg.buffer_count }
          if err ≠ .VF_SUCCESS then
            close_fd camera err
          else if req.count = 0 then
            close_fd camera .VF_OOM
          else
            let camera := { camera with buffer_count := req.count }
            let (err, buffers) ← map_from camera.fd camera.buffers 0 camera.buffer_count
            let camera := { camera with buffers := buffers }
            if err ≠ .VF_SUCCESS then
              unmap_buffers camera err
            else
              let err ← queue_from camera.fd .zeroed 0 camera.buffer_count
              if err ≠ .VF_SUCCESS then
                unmap_buffers camera err
              else
                return (.VF_SUCCESS, camera)

def vf_camera_start (camera : vf_camera_t) : Driver (vf_err_t × vf_camera_t) := do
  if camera.state ≠ .VF_CAMERA_STATE_STOPPED then
    return (.VF_INIT_FAILED, camera)
  else
    let (err, _) ← camera_ioctl camera.fd .VIDIOC_STREAMON .zeroed
    if err ≠ .VF_SUCCESS then
      return (.VF_ERROR_MIN, { camera with state := .VF_CAMERA_STATE_ERROR })
    else
      return (.VF_SUCCESS, { camera with state := .VF_CAMERA_STATE_RUNNING })

def vf_camera_stop (camera : vf_camera_t) : Driver (vf_err_t × vf_camera_t) := do
  if camera.state ≠ .VF_CAMERA_STATE_RUNNING then
    return (.VF_SUCCESS, camera)
  else
    let (err, _) ← camera_ioctl camera.fd .VIDIOC_STREAMOFF .zeroed
    if err ≠ .VF_SUCCESS then
      return (.VF_ERROR_MIN, { camera with state := .VF_CAMERA_STATE_ERROR })
    else
      return (.VF_SUCCESS, { camera with state := .VF_CAMERA_STATE_STOPPED })

/-- `memcpy(fb->data, src, n)`. -/
def memcpy (fb : vf_framebuffer_t) (src : Nat → UInt8) (n : Nat) : vf_framebuffer_t :=
  { fb with data := fb.data.map fun d a => if a < n then src a else d a }

/-- The error code, the camera and the framebuffer after the call. -/
def vf_camera_acquire_frame (camera : vf_camera_t) (fb : vf_framebuffer_t) :
    Driver (vf_err_t × vf_camera_t × vf_framebuffer_t) := do
  if camera.state ≠ .VF_CAMERA_STATE_RUNNING then
    return (.VF_CAMERA_INIT_ERR, camera, fb)
  else
    let ready ← ask (.select camera.fd)
    if ready.rc = -1 then
      return (.VF_ERROR_MIN, camera, fb)
    else if ready.rc = 0 then
      return (.VF_ERROR_MIN, camera, fb)
    else
      let (err, buf, mapped) ← camera_ioctl camera.fd .VIDIOC_DQBUF .zeroed
      if err ≠ .VF_SUCCESS then
        return (.VF_ERROR_MIN, camera, fb)
      else
        let copy_size := if buf.bytesused < fb.total_size then buf.bytesused else fb.total_size
        let fb := memcpy fb (mapped (camera.buffers buf.index).start) copy_size
        let camera := { camera with frame_id := u32 (camera.frame_id + 1) }
        let (err, _) ← camera_ioctl camera.fd .VIDIOC_QBUF buf
        if err ≠ .VF_SUCCESS then
          return (.VF_ERROR_MIN, camera, fb)
        else
          return (.VF_SUCCESS, camera, fb)

/-- The stop that `vf_camera_deinit` begins with. -/
def stop_if_running (camera : vf_camera_t) : Driver (vf_err_t × vf_camera_t) :=
  if camera.state = .VF_CAMERA_STATE_RUNNING then vf_camera_stop camera
  else return (.VF_SUCCESS, camera)

def vf_camera_deinit (camera : vf_camera_t) : Driver (vf_err_t × vf_camera_t) := do
  if camera.fd = -1 then
    return (.VF_SUCCESS, camera)
  else
    let (err, camera) ← stop_if_running camera
    if err ≠ .VF_SUCCESS then
      return (err, camera)
    else
      let buffers ← unmap_from camera.buffers 0 camera.buffer_count
      let _ ← ask (.close camera.fd)
      return (.VF_SUCCESS, { camera with
        buffers := buffers, fd := -1, state := .VF_CAMERA_STATE_STOPPED })

/-- The camera unit, with the frame of its `current_fb`. -/
structure vf_camera_unit_data_t where
  camera : vf_camera_t
  current_fb : Option vf_framebuffer_t

/-- `acquired` is the answer of `vf_buf_pool_acquire_blocking`, and `fb` the frame of its
slot. On an error of the camera the frame goes back to the pool. -/
def vf_camera_unit_get_data (data : vf_camera_unit_data_t) (acquired : vf_err_t)
    (fb : vf_framebuffer_t) : Driver (vf_err_t × vf_camera_unit_data_t) := do
  if acquired ≠ .VF_SUCCESS then
    return (acquired, { data with current_fb := none })
  else
    let (err, camera, fb) ← vf_camera_acquire_frame data.camera fb
    if err ≠ .VF_SUCCESS then
      return (err, ⟨camera, none⟩)
    else
      return (.VF_SUCCESS, ⟨camera, some fb⟩)

/-- `pushed` is the answer of `vf_buf_queue_push`. On an error the frame goes back to the
pool. The last component is the frame that went into the queue. -/
def vf_camera_unit_send_data (data : vf_camera_unit_data_t) (pushed : vf_err_t) :
    vf_err_t × vf_camera_unit_data_t × Option vf_framebuffer_t :=
  match data.current_fb with
  | none => (.VF_INVALID_PARAMETER, data, none)
  | some fb =>
    if pushed ≠ .VF_SUCCESS then
      (pushed, { data with current_fb := none }, none)
    else
      (.VF_SUCCESS, { data with current_fb := none }, some fb)

end vision_flow.vf_camera
