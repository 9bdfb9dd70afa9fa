-- The units of the file scenarios (vf-file-unit.c in both modes, vf-conversion-unit.c) and
-- the files that they open (vf-file.c). One thread runs the units in turn, so a command
-- that waits waits for ever, and one that leaves the block of a frame ends the program. A
-- stream that is open takes what is written, which reaches its file when it is closed.
import VisionFlow.BufQueue
import VisionFlow.Conversion
import VisionFlow.FrameBlocks
import VisionFlow.Lib.Paths
import VisionFlow.Parser
import VisionFlow.Units

namespace vision_flow.file_units

open programs units
open buf_pool (vf_buf_pool_t)
open buf_queue (vf_buf_queue_t)
open framebuffer (vf_framebuffer_t FILE)
open conversion (vf_conversion_ctx_t)
open parser (Text vf_frame_info_t vf_frame_set_t)

/-! ## Files -/

/-- A file, by the directories from the root on and its own name. -/
abbrev Place := List paths.Name

/-- What the system makes of a path. Two paths of one place are one file: `.` and `..`, the
links and the working directory are the system's. What is a directory, or would be in one
that does not exist, is not writable. The program makes no directory and no link, so this
stays as it is while the program runs. -/
class Disk where
  place : Text → Place
  readable : Place → Bool
  writable : Place → Bool

/-- A disk without links, whose files can all be read and written. -/
@[reducible] def plain (cwd : Place) : Disk :=
  ⟨paths.resolve cwd, fun _ => true, fun _ => true⟩

@[reducible] def at_root : Disk := plain []

/-- What each place holds, or `none` where there is no file. -/
abbrev Files := Place → Option (List UInt8)

/-- An open stream. `writes` is the mode `"wb"`, and otherwise the mode is `"rb"`. -/
structure Stream where
  place : Place
  writes : Bool
  file : FILE

def fopen [Disk] (files : Files) (path : Text) (writes : Bool) : Option (Stream × Files) :=
  let place := Disk.place path
  if writes then
    if Disk.writable place then
      some (⟨place, true, ⟨[], 0, none⟩⟩, Function.update files place (some []))
    else none
  else if Disk.readable place then
    (files place).map fun bytes => (⟨place, false, ⟨bytes, 0, none⟩⟩, files)
  else none

def fclose (files : Files) (stream : Stream) : Files :=
  if stream.writes then Function.update files stream.place (some stream.file.bytes) else files

structure vf_file_t where
  fp : Option Stream
  is_open : Bool

/-- A file after the `calloc` of the unit's data. -/
def vf_file_t.zeroed : vf_file_t := ⟨none, false⟩

def vf_file_open [Disk] (files : Files) (file : vf_file_t) (path : Text) (writes : Bool) :
    vf_err_t × vf_file_t × Files :=
  if file.is_open then
    (.VF_FILE_ERR, file, files)
  else
    match fopen files path writes with
    | none => (.VF_FILE_ERR, { file with fp := none }, files)
    | some (fp, files) => (.VF_SUCCESS, ⟨some fp, true⟩, files)

def vf_file_close (files : Files) (file : vf_file_t) : vf_err_t × vf_file_t × Files :=
  if !file.is_open then
    (.VF_SUCCESS, file, files)
  else
    match file.fp with
    | none => (.VF_FILE_ERR, file, files)
    | some fp => (.VF_SUCCESS, ⟨none, false⟩, fclose files fp)

/-! ## The units' memory -/

inductive FileUnit
  | file_in
  | conversion
  | file_out
  deriving DecidableEq

/-- What `run_scenario` gives to the two file units. The frame set is not NULL. -/
structure vf_file_unit_cfg_t where
  frame_set : vf_frame_set_t
  output_dir : Text
  output_extension : Text
  split_output : Bool

structure Mem where
  files : Files
  initialized : FileUnit → Bool
  pipeline_initialized : Bool
  pool : PoolId → vf_buf_pool_t PoolId
  queue : QueueId → vf_buf_queue_t Frame
  fb : Frame → vf_framebuffer_t
  conv_ctx : vf_conversion_ctx_t
  ptr : FileUnit → Field → Option Frame
  file : FileUnit → vf_file_t
  frame_idx : FileUnit → Nat

def Mem.put (m : Mem) (u : FileUnit) (p : Field) (o : Option Frame) : Mem :=
  { m with ptr := Function.update m.ptr u (Function.update (m.ptr u) p o) }

def Mem.set_pool (m : Mem) (p : PoolId) (pool : vf_buf_pool_t PoolId) : Mem :=
  { m with pool := Function.update m.pool p pool }

def Mem.set_queue (m : Mem) (q : QueueId) (queue : vf_buf_queue_t Frame) : Mem :=
  { m with queue := Function.update m.queue q queue }

def Mem.set_fb (m : Mem) (f : Frame) (fb : vf_framebuffer_t) : Mem :=
  { m with fb := Function.update m.fb f fb }

def Mem.set_file (m : Mem) (u : FileUnit) (file : vf_file_t) (files : Files) : Mem :=
  { m with file := Function.update m.file u file, files := files }

/-- The stream of the unit's file after a read or a write. -/
def Mem.set_stream (m : Mem) (u : FileUnit) (fp : Stream) (file : FILE) : Mem :=
  { m with file := Function.update m.file u { m.file u with fp := some { fp with file := file } } }

def Mem.next_frame (m : Mem) (u : FileUnit) : Mem :=
  { m with frame_idx := Function.update m.frame_idx u (m.frame_idx u + 1) }

/-! ## Commands -/

/-- What only the file unit of mode `VF_FILE_UNIT_MODE_IN` does. -/
inductive InputCmd
  /-- Close the last input file, and open the one of this frame. -/
  | open_input
  /-- `vf_framebuffer_read_from_fptr`. -/
  | read (p : Field)
  /-- `data->frame_idx++`. -/
  | next_frame
  deriving DecidableEq

abbrev InputCmd.Res : InputCmd → Type
  | .next_frame => Unit
  | _ => vf_err_t

abbrev FileCmd := UnitCmd ⊕ InputCmd
abbrev FileCmd.Res : FileCmd → Type := Sum.elim UnitCmd.Res InputCmd.Res
abbrev FileCode := Prog FileCmd FileCmd.Res

def open_input : FileCode vf_err_t := .op (.inr .open_input) .ret
def read (p : Field) : FileCode vf_err_t := .op (.inr (.read p)) .ret
def next_frame : FileCode Unit := .op (.inr .next_frame) .ret

/-! ## The code -/

/-- The unit of mode `VF_FILE_UNIT_MODE_IN`. The meta data of the frame, which no unit
reads, is left out. -/
def vf_file_unit_get_data_in (pool : PoolId) : FileCode vf_err_t := do
  let err ← open_input
  if err ≠ .VF_SUCCESS then
    return err
  let err ← (acquire_blocking pool .current_fb).inl
  if err ≠ .VF_SUCCESS then
    return err
  let err ← read .current_fb
  if err ≠ .VF_SUCCESS then
    let _ ← (release pool .current_fb).inl
    (set_null .current_fb).inl
    return err
  next_frame
  return .VF_SUCCESS

/-- The unit of mode `VF_FILE_UNIT_MODE_IN`. -/
def vf_file_unit_send_data_in (unit : vf_unit_t) (pool : PoolId) : Code vf_err_t := do
  let fb ← load .current_fb
  if fb = none then
    return .VF_INVALID_PARAMETER
  if unit.out_queue = none then
    let _ ← release pool .current_fb
    set_null .current_fb
    return .VF_INVALID_PARAMETER
  let err ← push unit.out_queue .current_fb
  if err ≠ .VF_SUCCESS then
    let _ ← release pool .current_fb
    set_null .current_fb
    return err
  let _ ← publish .current_fb
  set_null .current_fb
  return err

/-- `vf_unit_run`, where an operation may have the commands of the input. -/
def vf_unit_run (get_data process_data send_data : FileCode vf_err_t) : FileCode vf_err_t := do
  let init ← (initialized).inl
  if !init then
    return .VF_INIT_FAILED
  let err ← get_data
  if err ≠ .VF_SUCCESS then
    return err
  let err ← process_data
  if err ≠ .VF_SUCCESS then
    return err
  let err ← send_data
  if err ≠ .VF_SUCCESS then
    return err
  return .VF_SUCCESS

/-- The queues as `vf_pipeline_create` connects them. -/
def FileUnit.unit : FileUnit → vf_unit_t
  | .file_in => ⟨none, some .queue0⟩
  | .conversion => ⟨some .queue0, some .queue1⟩
  | .file_out => ⟨some .queue1, none⟩

/-- `vf_unit_run` with the operations of the unit, and the pools that `run_scenario` gives
it. -/
def FileUnit.run (u : FileUnit) : FileCode vf_err_t :=
  match u with
  | .file_in => vf_unit_run (vf_file_unit_get_data_in .pool_in) vf_file_unit_process_data.inl
      (vf_file_unit_send_data_in u.unit .pool_in).inl
  | .conversion => vf_unit_run (vf_conversion_unit_get_data u.unit).inl
      (vf_conversion_unit_process_data .pool_out).inl
      (vf_conversion_unit_send_data u.unit .pool_out (some .pool_in)).inl
  | .file_out => vf_unit_run (vf_file_unit_get_data u.unit).inl vf_file_unit_process_data.inl
      (vf_file_unit_send_data (some .pool_out)).inl

/-! ## What a command does -/

/-- The frame of the set that a unit is at. A unit is never past the last one, which stands
for any frame there. -/
def frame_at (set : vf_frame_set_t) (i : Nat) : vf_frame_info_t :=
  set.frames[i]?.getD (set.frames.getLastD ⟨[], [], 0, 0⟩)

/-- The name up to its last `.`, or all of it. -/
def base_name (file_name : Text) : Text :=
  if file_name.contains '.' then ((file_name.reverse.dropWhile (· ≠ '.')).drop 1).reverse
  else file_name

/-- The path of the output file of a frame. No `snprintf` cuts it: the array is longer than
the parts together. -/
def out_path (cfg : vf_file_unit_cfg_t) (file_name : Text) : Text :=
  cfg.output_dir ++ '/' :: base_name file_name ++ cfg.output_extension

/-- The lines that close the unit's file, if it is open, and open another one. -/
def reopen [Disk] (u : FileUnit) (path : Text) (writes : Bool) (m : Mem) : vf_err_t × Mem :=
  let (file, files) := if (m.file u).is_open then (vf_file_close m.files (m.file u)).2
    else (m.file u, m.files)
  let (err, file, files) := vf_file_open files file path writes
  (err, m.set_file u file files)

/-- `vf_framebuffer_read_from_fptr(data->current_fb, data->file.fp, &read)`. `none`: a byte
is stored past the block of the frame. -/
def do_read (u : FileUnit) (p : Field) (m : Mem) : Option (vf_err_t × Mem) :=
  match m.ptr u p, (m.file u).fp with
  | some f, some fp =>
    (frame_blocks.vf_framebuffer_read_from_fptr (m.fb f) fp.file 0).map fun r =>
      (r.1, (m.set_fb f r.2.1).set_stream u fp r.2.2.1)
  | _, _ => some (.VF_INVALID_PARAMETER, m)

/-- `vf_framebuffer_write_to_fptr(data->current_fb, data->file.fp, &written)`. `none`: a row
leaves the block of the frame. -/
def do_write (u : FileUnit) (p : Field) (m : Mem) : Option (vf_err_t × Mem) :=
  match m.ptr u p, (m.file u).fp with
  | some f, some fp =>
    (frame_blocks.vf_framebuffer_write_to_fptr (m.fb f) fp.file 0).map fun r =>
      (r.1, m.set_stream u fp r.2.1)
  | _, _ => some (.VF_INVALID_PARAMETER, m)

/-- The byte is in the block of its frame. -/
def in_block (src dst : vf_framebuffer_t) : access.Access UInt8 → Bool
  | .read a => a < src.total_size
  | .write _ a _ => a < dst.total_size

/-- `vf_conversion_process(&data->conv_ctx, data->in_fb, data->out_fb)`. `none`: an access
leaves the block of its frame. -/
def do_convert (u : FileUnit) (src dst : Field) (m : Mem) : Option (vf_err_t × Mem) :=
  match m.ptr u src, m.ptr u dst with
  | some s, some d =>
    let (err, fb, accs) := conversion.vf_conversion_process m.conv_ctx (m.fb s) (m.fb d)
    if accs.all (in_block (m.fb s) (m.fb d)) then some (err, m.set_fb d fb) else none
  | _, _ => some (.VF_INVALID_PARAMETER, m)

/-- An atomic operation on the counter of a frame. It answers the old value. -/
def do_fetch (u : FileUnit) (p : Field) (change : Nat → Nat) (m : Mem) : Option Nat × Mem :=
  match m.ptr u p with
  | none => (none, m)
  | some f =>
    let fb := m.fb f
    (some fb.ref_count, m.set_fb f { fb with ref_count := change fb.ref_count })

/-- A command of the unit `u`. `none`: the thread waits, or leaves a block. In concat mode
`open_output` does nothing, and the file unit counts its frame after it has written it. There
is no camera. -/
def do_unit [Disk] (cfg : vf_file_unit_cfg_t) (u : FileUnit) :
    (c : UnitCmd) → Mem → Option (c.Res × Mem)
  | .initialized, m => some (m.initialized u, m)
  | .load p, m => some (m.ptr u p, m)
  | .set_null p, m => some ((), m.put u p none)
  | .acquire_blocking pool p, m =>
    (buf_pool.vf_buf_pool_acquire_blocking (m.pool pool) (m.ptr u p)).map fun r =>
      (r.1, (m.set_pool pool r.2.2).put u p r.2.1)
  | .release pool p, m =>
    let r := buf_pool.vf_buf_pool_release (m.pool pool) (m.ptr u p)
    some (r.1, m.set_pool pool r.2.1)
  | .pop_blocking q p, m =>
    (buf_queue.vf_buf_queue_pop_blocking (m.queue q) (m.ptr u p)).map fun r =>
      (r.1, (m.set_queue q r.2.2).put u p r.2.1)
  | .push q p, m =>
    let r := buf_queue.vf_buf_queue_push (m.queue q) (m.ptr u p)
    some (r.1, m.set_queue q r.2)
  | .fetch_add p, m => some (do_fetch u p (fun n => u32 (n + 1)) m)
  | .fetch_sub p, m => some (do_fetch u p (fun n => u32_sub n 1) m)
  | .acquire_frame _, _ => none
  | .convert src dst, m => do_convert u src dst m
  | .publish _, m => some (.VF_SUCCESS, m)
  | .open_output, m =>
    if cfg.split_output then
      some (reopen u (out_path cfg (frame_at cfg.frame_set (m.frame_idx u)).file_name) true m)
    else some (.VF_SUCCESS, m)
  | .write p, m => (do_write u p m).map fun r => (r.1, r.2.next_frame u)

def do_input [Disk] (cfg : vf_file_unit_cfg_t) (u : FileUnit) :
    (c : InputCmd) → Mem → Option (c.Res × Mem)
  | .open_input, m =>
    some (reopen u (frame_at cfg.frame_set (m.frame_idx u)).full_path false m)
  | .read p, m => do_read u p m
  | .next_frame, m => some ((), m.next_frame u)

def step [Disk] (cfg : vf_file_unit_cfg_t) (u : FileUnit) :
    (c : FileCmd) → Mem → Option (FileCmd.Res c × Mem)
  | .inl c, m => do_unit cfg u c m
  | .inr c, m => do_input cfg u c m

end vision_flow.file_units
