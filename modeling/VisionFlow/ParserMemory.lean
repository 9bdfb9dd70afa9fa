-- The parser of the frames config (vf-parser.c) with its blocks, its arrays and its pointers
-- into the file data. A run stops at an access past the end of a string, of an array or of a
-- block, and at a `free` of a block that is not live. The logging is left out.
import VisionFlow.Parser
import VisionFlow.Lib.CMemory

namespace vision_flow.parser_memory

open c_memory
open parser (Text Alloc Key vf_pixel_format_t VF_PARSER_MAX_NAME_LEN VF_PARSER_MAX_BASE_PATH_LEN
  VF_PARSER_MAX_FILE_NAME_LEN VF_PARSER_MAX_FULL_PATH_LEN MAX_FILE_SIZE vf_parser_str_to_format
  is_blank)

deriving instance DecidableEq for Alloc

/-! ## The memory -/

structure vf_frame_info_t where
  file_name : Text
  full_path : Text
  width : Nat
  height : Nat

/-- `frames` is NULL, or what its block holds. -/
structure vf_frame_set_t where
  name : Text
  base_path : Text
  format : vf_pixel_format_t
  frames : Option (List vf_frame_info_t)
  frame_count : Nat

/-- `frame_sets` are the elements of their block, and `block (.frames i)` is the block of the
frames of the set `i`. A pointer into `file_data` is its offset. -/
structure Mem where
  block : Alloc → Block
  file_data : Text
  frame_sets : List vf_frame_set_t
  /-- `cfg->frame_sets` and `cfg->frame_set_count`. -/
  cfg : Option Alloc × Nat
  fmt_str : Text
  out_cfg : Option Alloc

/-- What the parser gets from outside. `file` is what `fread` finds in the file, or `none` if
the file does not open, and `junk` is what `malloc` leaves in its block. -/
structure Env where
  file : Option Text
  alloc : Alloc → Bool
  atoi : Text → BitVec 32
  junk : Text
  junk_size : junk.length = MAX_FILE_SIZE

/-- Before the call: no block of it is in use. -/
def Mem.start (out_cfg : Option Alloc) : Mem := ⟨fun _ => .unused, [], [], (none, 0), [], out_cfg⟩

/-- The elements of a block that `calloc` returns. -/
def zero_frame : vf_frame_info_t :=
  ⟨padded VF_PARSER_MAX_FILE_NAME_LEN [], padded VF_PARSER_MAX_FULL_PATH_LEN [], 0, 0⟩

def zero_set : vf_frame_set_t :=
  ⟨padded VF_PARSER_MAX_NAME_LEN [], padded VF_PARSER_MAX_BASE_PATH_LEN [],
    .VF_PIXEL_FORMAT_INVALID, none, 0⟩

/-! ## Accesses -/

abbrev Code (α : Type) := Checked Mem α

variable (env : Env)

/-- A block that holds what `init` says, or NULL. -/
def allocate (a : Alloc) (init : Mem → Mem) : Code Bool := fun m =>
  if m.block a ≠ .unused then none
  else if env.alloc a then
    some (true, { init m with block := Function.update m.block a .live })
  else some (false, m)

def free (p : Option Alloc) : Code Unit :=
  writes fun m => (release p m.block).map fun block => { m with block := block }

/-- What `p` holds, if it is live. -/
def Mem.at_block {α : Type} (m : Mem) (a : Alloc) (value : Option α) : Option α :=
  if m.block a = .live then value else none

/-- The string at the offset `p` of the file data, where `p` does not lie behind its NUL. -/
def Mem.string (m : Mem) (p : Nat) : Option Text :=
  m.at_block .buffer <|
    if p ≤ (cstr m.file_data).length ∧ (cstr m.file_data).length < m.file_data.length then
      some ((cstr m.file_data).drop p)
    else none

/-- The elements of arrays that the parser writes to. -/
inductive Array
  | file_data
  | fmt_str
  | name (i : Nat)
  | base_path (i : Nat)
  | file_name (i j : Nat)
  | full_path (i j : Nat)

/-- `cfg->frame_sets[i]`. -/
def Mem.set (m : Mem) (i : Nat) : Option vf_frame_set_t := m.at_block .frame_sets m.frame_sets[i]?

/-- `set->frames[j]`. -/
def Mem.frame (m : Mem) (i j : Nat) : Option vf_frame_info_t :=
  (m.set i).bind fun set => set.frames.bind fun frames => m.at_block (.frames i) frames[j]?

/-- What an array holds, if it may be accessed. -/
def Mem.array (m : Mem) : Array → Option Text
  | .file_data => m.at_block .buffer (some m.file_data)
  | .fmt_str => some m.fmt_str
  | .name i => (m.set i).map (·.name)
  | .base_path i => (m.set i).map (·.base_path)
  | .file_name i j => (m.frame i j).map (·.file_name)
  | .full_path i j => (m.frame i j).map (·.full_path)

def Mem.update_set (m : Mem) (i : Nat) (f : vf_frame_set_t → vf_frame_set_t) : Mem :=
  { m with frame_sets := m.frame_sets.modify i f }

def Mem.update_frame (m : Mem) (i j : Nat) (f : vf_frame_info_t → vf_frame_info_t) : Mem :=
  m.update_set i fun set => { set with frames := set.frames.map fun frames => frames.modify j f }

def Mem.set_array (m : Mem) (a : Text) : Array → Mem
  | .file_data => { m with file_data := a }
  | .fmt_str => { m with fmt_str := a }
  | .name i => m.update_set i fun set => { set with name := a }
  | .base_path i => m.update_set i fun set => { set with base_path := a }
  | .file_name i j => m.update_frame i j fun frame => { frame with file_name := a }
  | .full_path i j => m.update_frame i j fun frame => { frame with full_path := a }

/-- The characters are stored in the array from the index `i` on. -/
def put (d : Array) (i : Nat) (s : Text) : Code Unit :=
  writes fun m => (m.array d).bind fun a => (store a i s).map fun a => m.set_array a d

def put_set (i : Nat) (f : vf_frame_set_t → vf_frame_set_t) : Code Unit :=
  writes fun m => (m.set i).map fun _ => m.update_set i f

def put_frame (i j : Nat) (f : vf_frame_info_t → vf_frame_info_t) : Code Unit :=
  writes fun m => (m.frame i j).map fun _ => m.update_frame i j f

def put_cfg (frame_sets : Option Alloc) (frame_set_count : Nat) : Code Unit :=
  writes fun m => m.at_block .cfg (some { m with cfg := (frame_sets, frame_set_count) })

def put_out (p : Option Alloc) : Code Unit := writes fun m => some { m with out_cfg := p }

/-! ## The C library -/

def strstr (p : Nat) (needle : Text) : Code (Option Nat) := do
  let s ← reads (·.string p)
  return (parser.strstr s needle).map fun t => p + (s.length - t.length)

def strchr (p : Nat) (c : Char) : Code (Option Nat) := strstr p [c]

/-- `*p`. -/
def char_at (p : Nat) : Code Char := do
  let s ← reads (·.string p)
  return s.headD '\x00'

def atoi (p : Nat) : Code Int := do
  let s ← reads (·.string p)
  return (env.atoi s).toInt

/-- At most `n` characters, with NULs if the string is shorter. -/
def strncpy (out : Array) (p n : Nat) : Code Unit := do
  let s ← reads (·.string p)
  put out 0 (padded n (s.take n))

/-- The string in an array that ends in it. -/
def Mem.string_in (m : Mem) (d : Array) : Option Text :=
  (m.array d).bind fun a => if '\x00' ∈ a then some (cstr a) else none

/-! ## The code -/

def vf_parser_read_file : Code Bool := do
  match env.file with
  | none => return false
  | some content =>
    if !(← allocate env .buffer fun m => { m with file_data := env.junk }) then
      return false
    let read := content.take (MAX_FILE_SIZE - 1)
    put .file_data 0 read
    put .file_data read.length ['\x00']
    return true

/-- The loop that skips blanks. -/
def skip_blanks : Nat → Nat → Code Nat
  | 0, _ => fault
  | fuel + 1, start => do
    if is_blank (← char_at start) then
      skip_blanks fuel (start + 1)
    else
      return start

/-- `true` is the return code 0, and `false` is -1. -/
def vf_parser_extract_string (src : Nat) (out : Array) (max_len : Nat) : Code Bool := do
  let some colon ← strchr src ':' | return false
  let start ← skip_blanks MAX_FILE_SIZE (colon + 1)
  if (← char_at start) ≠ '"' then
    return false
  let some quote ← strchr (start + 1) '"' | return false
  let len := quote - (start + 1)
  if len ≥ max_len then
    return false
  strncpy out (start + 1) len
  put out len ['\x00']
  return true

/-- `none` is the return code -1. -/
def vf_parser_extract_int (src : Nat) : Code (Option Int) := do
  let some colon ← strchr src ':' | return none
  return some (← atoi env (colon + 1))

/-- The loop that counts a key, up to the pointer `stop` if there is one. -/
def count_keys (key : Key) (stop : Option Nat) : Nat → Nat → Nat → Code Nat
  | 0, _, _ => fault
  | fuel + 1, p, count => do
    let some p ← strstr p key.quoted | return count
    if stop.all (p < ·) then
      count_keys key stop fuel (p + 1) (count + 1)
    else
      return count

/-- The loop of `vf_parser_free_frames_cfg`, with `n` sets to go. -/
def free_frames : Nat → Nat → Code Unit
  | _, 0 => return ()
  | i, n + 1 => do
    let set ← reads (·.set i)
    free (set.frames.map fun _ => .frames i)
    free_frames (i + 1) n

def vf_parser_free_frames_cfg : Code Unit := do
  let cfg ← reads fun m => m.at_block .cfg (some m.cfg)
  free_frames 0 cfg.2
  free cfg.1
  free (some .cfg)

/-- How the loops give up. -/
def fail {α : Type} (err : vf_err_t) : Code (Except vf_err_t α) := do
  vf_parser_free_frames_cfg
  free (some .buffer)
  return .error err

/-- One turn of the loop over the frames of a set, with the new cursor. -/
def load_frame (i j cursor : Nat) : Code (Except vf_err_t Nat) := do
  let some file ← strstr cursor Key.file.quoted | fail .VF_FILE_ERR
  if !(← vf_parser_extract_string file (.file_name i j) VF_PARSER_MAX_FILE_NAME_LEN) then
    return ← fail .VF_FILE_ERR
  let some at_width ← strstr file Key.width.quoted | fail .VF_FILE_ERR
  let some width ← vf_parser_extract_int env at_width | fail .VF_FILE_ERR
  if width ≤ 0 then
    return ← fail .VF_FILE_ERR
  let some at_height ← strstr at_width Key.height.quoted | fail .VF_FILE_ERR
  let some height ← vf_parser_extract_int env at_height | fail .VF_FILE_ERR
  if height ≤ 0 then
    return ← fail .VF_FILE_ERR
  put_frame i j fun frame => { frame with width := width.toNat, height := height.toNat }
  let base_path ← reads (·.string_in (.base_path i))
  let file_name ← reads (·.string_in (.file_name i j))
  let full_path := (base_path ++ '/' :: file_name).take (VF_PARSER_MAX_FULL_PATH_LEN - 1)
  put (.full_path i j) 0 (full_path ++ ['\x00'])
  return .ok at_height

/-- The loop over the frames of a set, with `n` frames to go. -/
def load_frames (i : Nat) : Nat → Nat → Nat → Code (Except vf_err_t Nat)
  | _, 0, cursor => return .ok cursor
  | j, n + 1, cursor => do
    match ← load_frame env i j cursor with
    | .error err => return .error err
    | .ok cursor => load_frames i (j + 1) n cursor

/-- One turn of the loop over the sets, with the new cursor. -/
def load_set (i cursor : Nat) : Code (Except vf_err_t Nat) := do
  writes fun m => some { m with fmt_str := padded 32 [] }
  let some at_name ← strstr cursor Key.name.quoted | fail .VF_FILE_ERR
  if !(← vf_parser_extract_string at_name (.name i) VF_PARSER_MAX_NAME_LEN) then
    return ← fail .VF_FILE_ERR
  let some at_base_path ← strstr at_name Key.base_path.quoted | fail .VF_FILE_ERR
  if !(← vf_parser_extract_string at_base_path (.base_path i) VF_PARSER_MAX_BASE_PATH_LEN) then
    return ← fail .VF_FILE_ERR
  let some at_format ← strstr at_base_path Key.format.quoted | fail .VF_FILE_ERR
  if !(← vf_parser_extract_string at_format .fmt_str 32) then
    return ← fail .VF_FILE_ERR
  let fmt_str ← reads (·.string_in .fmt_str)
  put_set i fun set => { set with format := vf_parser_str_to_format fmt_str }
  if vf_parser_str_to_format fmt_str = .VF_PIXEL_FORMAT_INVALID then
    return ← fail .VF_FILE_ERR
  let some frames_start ← strstr at_format Key.frames.quoted | fail .VF_FILE_ERR
  let some frames_end ← strchr frames_start ']' | fail .VF_FILE_ERR
  let frame_count ← count_keys .file (some frames_end) MAX_FILE_SIZE frames_start 0
  if frame_count = 0 then
    return ← fail .VF_FILE_ERR
  if !(← allocate env (.frames i) fun m => m.update_set i fun set =>
      { set with frames := some (List.replicate frame_count zero_frame) }) then
    return ← fail .VF_OOM
  put_set i fun set => { set with frame_count := frame_count }
  load_frames env i 0 frame_count at_format

/-- The loop over the sets, with `n` sets to go. -/
def load_sets : Nat → Nat → Nat → Code (Except vf_err_t Unit)
  | _, 0, _ => return .ok ()
  | i, n + 1, cursor => do
    match ← load_set env i cursor with
    | .error err => return .error err
    | .ok cursor => load_sets (i + 1) n cursor

def vf_parser_load_frames_cfg : Code vf_err_t := do
  put_out none
  if !(← vf_parser_read_file env) then
    return .VF_FILE_ERR
  if !(← allocate env .cfg fun m => { m with cfg := (none, 0) }) then
    free (some .buffer)
    return .VF_OOM
  let set_count ← count_keys .name none MAX_FILE_SIZE 0 0
  if set_count = 0 then
    free (some .buffer)
    free (some .cfg)
    return .VF_FILE_ERR
  if !(← allocate env .frame_sets fun m =>
      { m with frame_sets := List.replicate set_count zero_set }) then
    free (some .buffer)
    free (some .cfg)
    return .VF_OOM
  put_cfg (some .frame_sets) set_count
  match ← load_sets env 0 set_count 0 with
  | .error err => return err
  | .ok () =>
    free (some .buffer)
    put_out (some .cfg)
    return .VF_SUCCESS

end vision_flow.parser_memory
