-- The file scenarios (vf-core.c, vf-pipeline-mgr.c): the table, and the run of a scenario.
-- One thread runs the three units of the pipeline in turn, once for each frame of the set.
-- What it allocates before that may be refused.
import VisionFlow.FileUnits

namespace vision_flow.scenarios

open programs units file_units
open buf_pool (vf_buf_pool_t)
open buf_queue (vf_buf_queue_t)
open framebuffer (vf_framebuffer_t vf_fb_params_t)
open parser (Text vf_frame_info_t vf_frame_set_t vf_frames_cfg_t)

/-! ## The table -/

def POOL_SLOT_COUNT : Nat := 4

/-- The flag and the name, which choose a scenario and name it in the log, are left out. -/
structure vf_scenario_t where
  input_set : Text
  src_fmt : vf_pixel_fmt_t
  dst_fmt : vf_pixel_fmt_t
  output_dir : Text
  output_extension : Text
  split_output : Bool
  deriving DecidableEq

def g_scenarios : List vf_scenario_t :=
  [⟨"rgb".toList, .VF_PIXEL_FMT_RGB888, .VF_PIXEL_FMT_YUV420P,
      "vf_frames/out/rgb_to_yuv_concat".toList, ".yuv".toList, false⟩,
    ⟨"rgb".toList, .VF_PIXEL_FMT_RGB888, .VF_PIXEL_FMT_YUV420P,
      "vf_frames/out/rgb_to_yuv_split".toList, ".yuv".toList, true⟩,
    ⟨"yuv".toList, .VF_PIXEL_FMT_YUV420P, .VF_PIXEL_FMT_RGB888,
      "vf_frames/out/yuv_to_rgb_concat".toList, ".rgb".toList, false⟩,
    ⟨"yuv".toList, .VF_PIXEL_FMT_YUV420P, .VF_PIXEL_FMT_RGB888,
      "vf_frames/out/yuv_to_rgb_split".toList, ".rgb".toList, true⟩,
    ⟨"raw".toList, .VF_PIXEL_FMT_RAW8, .VF_PIXEL_FMT_RGB888,
      "vf_frames/out/raw_to_rgb_concat".toList, ".rgb".toList, false⟩,
    ⟨"raw".toList, .VF_PIXEL_FMT_RAW8, .VF_PIXEL_FMT_RGB888,
      "vf_frames/out/raw_to_rgb_split".toList, ".rgb".toList, true⟩,
    ⟨"raw".toList, .VF_PIXEL_FMT_RAW8, .VF_PIXEL_FMT_YUV420P,
      "vf_frames/out/raw_to_yuv_concat".toList, ".yuv".toList, false⟩,
    ⟨"raw".toList, .VF_PIXEL_FMT_RAW8, .VF_PIXEL_FMT_YUV420P,
      "vf_frames/out/raw_to_yuv_split".toList, ".yuv".toList, true⟩]

def CONCAT_FILE_NAME : Text := "frame_out".toList

/-- The path of the output file of the concat mode. No `snprintf` cuts it. -/
def concat_path (scenario : vf_scenario_t) : Text :=
  scenario.output_dir ++ '/' :: CONCAT_FILE_NAME ++ scenario.output_extension

/-! ## The code -/

def find_frame_set (cfg : vf_frames_cfg_t) (name : Text) : Option vf_frame_set_t :=
  cfg.frame_sets.find? (·.name = name)

/-- What `run_scenario` allocates, or initialises with pthread. -/
inductive Resource
  | slot (pool : PoolId) (i : Nat)
  | pool_mutex (pool : PoolId)
  | pool_cond (pool : PoolId)
  | queue_mutex (q : QueueId)
  | queue_cond (q : QueueId)
  | notifier (u : FileUnit)
  | unit_data (u : FileUnit)

section
variable [Disk] (granted : Resource → Bool) (scenario : vf_scenario_t)
  (frame_set : vf_frame_set_t)

/-- `params_in` and `params_out` of `run_scenario`. A set of the parser has a first frame. -/
def params (pool : PoolId) : vf_fb_params_t :=
  ⟨(frame_at frame_set 0).width, (frame_at frame_set 0).height,
    match pool with
    | .pool_in => scenario.src_fmt
    | .pool_out => scenario.dst_fmt⟩

/-- `file_in_cfg` and `file_out_cfg` of `run_scenario`. -/
def unit_cfg : vf_file_unit_cfg_t :=
  ⟨frame_set, scenario.output_dir, scenario.output_extension, scenario.split_output⟩

/-- The slots of a pool. -/
def slot (pool : PoolId) : vf_err_t × vf_framebuffer_t :=
  framebuffer.vf_framebuffer_alloc framebuffer.zeroed (params scenario frame_set pool) true

/-- The allocation of one of them. -/
def slot_alloc (pool : PoolId) (i : Nat) : vf_err_t :=
  (framebuffer.vf_framebuffer_alloc framebuffer.zeroed (params scenario frame_set pool)
    (granted (.slot pool i))).1

def init_pool (pool : PoolId) : vf_err_t × vf_buf_pool_t PoolId × List buf_pool.Resource :=
  buf_pool.vf_buf_pool_init (buf_pool.zeroed pool) (slot_alloc granted scenario frame_set pool)
    POOL_SLOT_COUNT (granted (.pool_mutex pool)) (granted (.pool_cond pool))

def init_queue (q : QueueId) : vf_err_t × vf_buf_queue_t Frame :=
  buf_queue.vf_buf_queue_init buf_queue.zeroed buf_queue.VF_BUF_QUEUE_MAX_CAPACITY
    (granted (.queue_mutex q)) (granted (.queue_cond q))

/-- `vf_unit_create`, with `init` for what the unit's `init` returns behind its `calloc`. -/
def vf_unit_create (u : FileUnit) (init : vf_err_t) : vf_err_t :=
  if !granted (.notifier u) then .VF_SYNC_ERROR
  else if !granted (.unit_data u) then .VF_OOM
  else init

/-- `vf_file_unit_init` of the output: in concat mode it opens the only file. -/
def open_concat (files : Files) : vf_err_t × vf_file_t × Files :=
  if scenario.split_output then (.VF_SUCCESS, .zeroed, files)
  else vf_file_open files .zeroed (concat_path scenario) true

/-- What `run_scenario` does up to the end of `vf_pipeline_create`. What fails leaves the
files: the output is opened last. -/
def create (files : Files) : Except vf_err_t Mem :=
  let pool := init_pool granted scenario frame_set
  let queue := init_queue granted
  let file_in := vf_file_open files .zeroed (frame_at frame_set 0).full_path false
  let conv := conversion.vf_conversion_init scenario.src_fmt scenario.dst_fmt
  let file_out := open_concat scenario file_in.2.2
  if (pool .pool_in).1 ≠ .VF_SUCCESS then
    .error (pool .pool_in).1
  else if (pool .pool_out).1 ≠ .VF_SUCCESS then
    .error (pool .pool_out).1
  else if (queue .queue0).1 ≠ .VF_SUCCESS then
    .error (queue .queue0).1
  else if (queue .queue1).1 ≠ .VF_SUCCESS then
    .error (queue .queue1).1
  else if vf_unit_create granted .file_in file_in.1 ≠ .VF_SUCCESS then
    .error (vf_unit_create granted .file_in file_in.1)
  else if vf_unit_create granted .conversion conv.1 ≠ .VF_SUCCESS then
    .error (vf_unit_create granted .conversion conv.1)
  else if vf_unit_create granted .file_out file_out.1 ≠ .VF_SUCCESS then
    .error (vf_unit_create granted .file_out file_out.1)
  else
    .ok {
      files := file_out.2.2
      initialized := fun _ => true
      pipeline_initialized := true
      pool := fun p => (pool p).2.1
      queue := fun q => if q = .queue2 then buf_queue.zeroed else (queue q).2
      fb := fun f => if f.idx < POOL_SLOT_COUNT then (slot scenario frame_set f.pool).2
        else framebuffer.zeroed
      conv_ctx := conv.2
      ptr := fun _ _ => none
      file := fun u => match u with
        | .file_in => file_in.2.1
        | .conversion => .zeroed
        | .file_out => file_out.2.1
      frame_idx := fun _ => 0 }

end

section
variable [Disk]

/-- The loop of `vf_pipeline_run_once` over the units. `none`: a unit waits for ever. -/
def run_units (cfg : vf_file_unit_cfg_t) : List FileUnit → Mem → Option (vf_err_t × Mem)
  | [], m => some (.VF_SUCCESS, m)
  | u :: rest, m => (exec (step cfg u) u.run m).bind fun r =>
    if r.1 ≠ .VF_SUCCESS then some r else run_units cfg rest r.2

def vf_pipeline_run_once (cfg : vf_file_unit_cfg_t) (m : Mem) : Option (vf_err_t × Mem) :=
  if !m.pipeline_initialized then some (.VF_INIT_FAILED, m)
  else run_units cfg [.file_in, .conversion, .file_out] m

/-- The loop of `run_pipeline_for_frames`, `n` times. -/
def run_frames (cfg : vf_file_unit_cfg_t) : Nat → Mem → Option (vf_err_t × Mem)
  | 0, m => some (.VF_SUCCESS, m)
  | n + 1, m => (vf_pipeline_run_once cfg m).bind fun r =>
    if r.1 ≠ .VF_SUCCESS then some r else run_frames cfg n r.2

def run_pipeline_for_frames (cfg : vf_file_unit_cfg_t) (m : Mem) : Option (vf_err_t × Mem) :=
  run_frames cfg cfg.frame_set.frames.length m

/-- `vf_file_unit_deinit` closes the unit's file. What is freed is left out. -/
def vf_file_unit_deinit (u : FileUnit) (m : Mem) : Mem :=
  let r := vf_file_close m.files (m.file u)
  { m.set_file u r.2.1 r.2.2 with initialized := Function.update m.initialized u false }

def vf_pipeline_destroy (m : Mem) : Mem :=
  { vf_file_unit_deinit .file_out (vf_file_unit_deinit .file_in m) with
    pipeline_initialized := false }

/-- The error code, and the files after the scenario. `none`: the scenario never ends, or dies
where it leaves the block of a frame. -/
def run_scenario (granted : Resource → Bool) (scenario : vf_scenario_t) (cfg : vf_frames_cfg_t)
    (files : Files) : Option (vf_err_t × Files) :=
  match find_frame_set cfg scenario.input_set with
  | none => some (.VF_FILE_ERR, files)
  | some frame_set =>
    match create granted scenario frame_set files with
    | .error err => some (err, files)
    | .ok m => (run_pipeline_for_frames (unit_cfg scenario frame_set) m).map fun r =>
      (r.1, (vf_pipeline_destroy r.2).files)

end

end vision_flow.scenarios
