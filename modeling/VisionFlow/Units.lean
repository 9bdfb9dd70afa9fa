-- The four units of the camera service (vf-camera-unit.c, vf-stream-provider-unit.c,
-- vf-conversion-unit.c, vf-file-unit.c) and vf_unit_run, as programs. A command is one
-- critical section of a pool or a queue, one atomic operation, or private work of the
-- unit. The pointers that the C code has checked for NULL once, and its logging, are
-- left out.
import VisionFlow.BufPool
import VisionFlow.Lib.Programs

namespace vision_flow.units

open programs buf_pool

/-! ## The service's objects -/

inductive UnitId
  | camera
  | stream_provider
  | conversion
  | file_out
  deriving DecidableEq

inductive PoolId
  | pool_in
  | pool_out
  deriving DecidableEq

/-- `pipeline.queues[0]` to `pipeline.queues[2]`. -/
inductive QueueId
  | queue0
  | queue1
  | queue2
  deriving DecidableEq

/-- The address of a slot of one of the two pools. -/
abbrev Frame := SlotPtr PoolId

/-- The names of the framebuffer pointers in the internal data of the units. -/
inductive Field
  | current_fb
  | in_fb
  | out_fb
  deriving DecidableEq

/-- The pointers of a unit's internal data. -/
def UnitId.fields : UnitId → List Field
  | .conversion => [.in_fb, .out_fb]
  | _ => [.current_fb]

instance : Fintype UnitId :=
  ⟨{.camera, .stream_provider, .conversion, .file_out}, fun u => by cases u <;> decide⟩

instance : Fintype QueueId := ⟨{.queue0, .queue1, .queue2}, fun q => by cases q <;> decide⟩

/-! ## Commands -/

/-- What a unit's thread does in one step. A `Field` is the pointer that the C code
passes, or whose address it passes. -/
inductive UnitCmd
  /-- Read `unit->initialized`. -/
  | initialized
  /-- Read a pointer. -/
  | load (p : Field)
  | set_null (p : Field)
  | acquire_blocking (pool : PoolId) (p : Field)
  | release (pool : PoolId) (p : Field)
  | pop_blocking (q : QueueId) (p : Field)
  | push (q : QueueId) (p : Field)
  /-- `atomic_fetch_add(&fb->ref_count, 1U)`, with the NULL check before it. -/
  | fetch_add (p : Field)
  /-- `atomic_fetch_sub(&fb->ref_count, 1U)`, with the NULL check before it. -/
  | fetch_sub (p : Field)
  /-- `vf_camera_acquire_frame`. -/
  | acquire_frame (p : Field)
  /-- `vf_conversion_process`. -/
  | convert (src dst : Field)
  /-- `vf_notifier_publish`. -/
  | publish (p : Field)
  /-- Close the last output file, and open the one of this frame. -/
  | open_output
  /-- `vf_framebuffer_write_to_fptr`. -/
  | write (p : Field)
  deriving DecidableEq

/-- The answers to a command. `none` of a `fetch` is the NULL pointer. -/
abbrev UnitCmd.Res : UnitCmd → Type
  | .initialized => Bool
  | .load _ => Option Frame
  | .set_null _ => Unit
  | .fetch_add _ => Option Nat
  | .fetch_sub _ => Option Nat
  | _ => vf_err_t

abbrev Code := Prog UnitCmd UnitCmd.Res

/-- The program of one command. -/
abbrev cmd (c : UnitCmd) : Code c.Res := perform c

abbrev initialized := cmd .initialized
abbrev load (p : Field) := cmd (.load p)
abbrev set_null (p : Field) := cmd (.set_null p)
abbrev acquire_blocking (pool : PoolId) (p : Field) := cmd (.acquire_blocking pool p)
abbrev release (pool : PoolId) (p : Field) := cmd (.release pool p)
abbrev pop_blocking (q : QueueId) (p : Field) := cmd (.pop_blocking q p)
abbrev fetch_add (p : Field) := cmd (.fetch_add p)
abbrev fetch_sub (p : Field) := cmd (.fetch_sub p)
abbrev acquire_frame (p : Field) := cmd (.acquire_frame p)
abbrev convert (src dst : Field) := cmd (.convert src dst)
abbrev publish (p : Field) := cmd (.publish p)
abbrev open_output := cmd .open_output
abbrev write (p : Field) := cmd (.write p)

/-- A push to a queue that may be NULL. -/
def push (q : Option QueueId) (p : Field) : Code vf_err_t :=
  match q with
  | none => return .VF_INVALID_PARAMETER
  | some q => cmd (.push q p)

/-! ## The code -/

def vf_framebuffer_ref (p : Field) : Code Unit := do
  let _ ← fetch_add p

/-- `vf_framebuffer_unref` with `vf_buf_pool_release`, and a pool that may be NULL. -/
def vf_framebuffer_unref (p : Field) (pool : Option PoolId) : Code vf_err_t := do
  let prev ← fetch_sub p
  match prev with
  | none => return .VF_INVALID_PARAMETER
  | some prev =>
    if prev = 0 then
      -- ref counting not used: undo, and release
      let _ ← fetch_add p
      match pool with
      | some pool => release pool p
      | none => return .VF_SUCCESS
    else if prev = 1 then
      match pool with
      | some pool => release pool p
      | none => return .VF_SUCCESS
    else
      return .VF_SUCCESS

/-- The queues of a unit. -/
structure vf_unit_t where
  in_queue : Option QueueId
  out_queue : Option QueueId

def vf_camera_unit_get_data (pool : PoolId) : Code vf_err_t := do
  let err ← acquire_blocking pool .current_fb
  if err ≠ .VF_SUCCESS then
    return err
  let err ← acquire_frame .current_fb
  if err ≠ .VF_SUCCESS then
    let _ ← release pool .current_fb
    set_null .current_fb
    return err
  return .VF_SUCCESS

def vf_camera_unit_process_data : Code vf_err_t := return .VF_SUCCESS

def vf_camera_unit_send_data (unit : vf_unit_t) (pool : PoolId) : Code vf_err_t := do
  let fb ← load .current_fb
  if fb = none then
    return .VF_INVALID_PARAMETER
  let err ← push unit.out_queue .current_fb
  if err ≠ .VF_SUCCESS then
    let _ ← release pool .current_fb
    set_null .current_fb
    return err
  let _ ← publish .current_fb
  set_null .current_fb
  return .VF_SUCCESS

/-- The loop of `vf_framebuffer_ref`, `n` times. -/
def ref_each (p : Field) : Nat → Code Unit
  | 0 => return ()
  | n + 1 => do
    vf_framebuffer_ref p
    ref_each p n

def vf_stream_provider_unit_get_data (unit : vf_unit_t) (consumer_count : Nat) :
    Code vf_err_t := do
  match unit.in_queue with
  | none => return .VF_INVALID_PARAMETER
  | some in_queue =>
    let err ← pop_blocking in_queue .current_fb
    if err ≠ .VF_SUCCESS then
      return err
    ref_each .current_fb consumer_count
    return .VF_SUCCESS

def vf_stream_provider_unit_process_data : Code vf_err_t := return .VF_SUCCESS

def vf_stream_provider_unit_send_data (unit : vf_unit_t) (src_pool : Option PoolId) :
    Code vf_err_t := do
  let fb ← load .current_fb
  if fb = none then
    return .VF_INVALID_PARAMETER
  if unit.out_queue = none then
    let _ ← vf_framebuffer_unref .current_fb src_pool
    set_null .current_fb
    return .VF_INVALID_PARAMETER
  let err ← push unit.out_queue .current_fb
  if err ≠ .VF_SUCCESS then
    let _ ← vf_framebuffer_unref .current_fb src_pool
    set_null .current_fb
    return err
  set_null .current_fb
  return .VF_SUCCESS

def vf_conversion_unit_get_data (unit : vf_unit_t) : Code vf_err_t := do
  match unit.in_queue with
  | none => return .VF_INVALID_PARAMETER
  | some in_queue =>
    let err ← pop_blocking in_queue .in_fb
    if err ≠ .VF_SUCCESS then
      return err
    return .VF_SUCCESS

def vf_conversion_unit_process_data (pool : PoolId) : Code vf_err_t := do
  let in_fb ← load .in_fb
  if in_fb = none then
    return .VF_INVALID_PARAMETER
  let err ← acquire_blocking pool .out_fb
  if err ≠ .VF_SUCCESS then
    return err
  let err ← convert .in_fb .out_fb
  if err ≠ .VF_SUCCESS then
    let _ ← release pool .out_fb
    set_null .out_fb
    return err
  return .VF_SUCCESS

def vf_conversion_unit_send_data (unit : vf_unit_t) (pool : PoolId)
    (src_pool : Option PoolId) : Code vf_err_t := do
  let out_fb ← load .out_fb
  if out_fb = none then
    return .VF_INVALID_PARAMETER
  if unit.out_queue = none then
    let _ ← release pool .out_fb
    set_null .out_fb
    return .VF_INVALID_PARAMETER
  let err ← push unit.out_queue .out_fb
  if err ≠ .VF_SUCCESS then
    let _ ← release pool .out_fb
    set_null .out_fb
    return err
  let in_fb ← load .in_fb
  if in_fb ≠ none then
    if src_pool ≠ none then
      let _ ← vf_framebuffer_unref .in_fb src_pool
    set_null .in_fb
  set_null .out_fb
  return .VF_SUCCESS

/-- The unit of mode `VF_FILE_UNIT_MODE_OUT`. -/
def vf_file_unit_get_data (unit : vf_unit_t) : Code vf_err_t := do
  match unit.in_queue with
  | none => return .VF_INVALID_PARAMETER
  | some in_queue =>
    let err ← pop_blocking in_queue .current_fb
    if err ≠ .VF_SUCCESS then
      return err
    return .VF_SUCCESS

def vf_file_unit_process_data : Code vf_err_t := return .VF_SUCCESS

/-- The unit of mode `VF_FILE_UNIT_MODE_OUT`, with `split_output`. -/
def vf_file_unit_send_data (pool : Option PoolId) : Code vf_err_t := do
  let fb ← load .current_fb
  if fb = none then
    return .VF_INVALID_PARAMETER
  let err ← open_output
  if err ≠ .VF_SUCCESS then
    if let some pool := pool then
      let _ ← release pool .current_fb
    set_null .current_fb
    return err
  let err ← write .current_fb
  if let some pool := pool then
    let _ ← release pool .current_fb
  set_null .current_fb
  return err

/-- The statistics that the C code sums up at the end are left out. -/
def vf_unit_run (get_data process_data send_data : Code vf_err_t) : Code vf_err_t := do
  let init ← initialized
  if !init then
    return .VF_INIT_FAILED
  let err ← get_data
  if err ≠ .VF_SUCCESS then
    return err
  let err ← process_data
  if err ≠ .VF_SUCCESS then
    return err
  let err ← send_data
  if err ≠ .VF_SUCCESS then
    return err
  return .VF_SUCCESS

/-! ## The pipeline of the service -/

/-- The queues as `vf_pipeline_create` connects them. -/
def UnitId.unit : UnitId → vf_unit_t
  | .camera => ⟨none, some .queue0⟩
  | .stream_provider => ⟨some .queue0, some .queue1⟩
  | .conversion => ⟨some .queue1, some .queue2⟩
  | .file_out => ⟨some .queue2, none⟩

/-- `vf_unit_run` with the operations of the unit, and the pools and the consumer count
that `vf_service_init` gives it. -/
def UnitId.run (u : UnitId) : Code vf_err_t :=
  match u with
  | .camera => vf_unit_run (vf_camera_unit_get_data .pool_in) vf_camera_unit_process_data
      (vf_camera_unit_send_data u.unit .pool_in)
  | .stream_provider => vf_unit_run (vf_stream_provider_unit_get_data u.unit 1)
      vf_stream_provider_unit_process_data
      (vf_stream_provider_unit_send_data u.unit (some .pool_in))
  | .conversion => vf_unit_run (vf_conversion_unit_get_data u.unit)
      (vf_conversion_unit_process_data .pool_out)
      (vf_conversion_unit_send_data u.unit .pool_out (some .pool_in))
  | .file_out => vf_unit_run (vf_file_unit_get_data u.unit) vf_file_unit_process_data
      (vf_file_unit_send_data (some .pool_out))

end vision_flow.units
