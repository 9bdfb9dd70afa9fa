-- The parser of the frames config (vf-parser.c): a chain of substring searches with one
-- cursor over the text of the file. A byte of the file is a `Char`, and a pointer into the
-- text is what the text has from there on, up to its NUL.
import VisionFlow.Common
import VisionFlow.Lib.Search

namespace vision_flow.parser

open search

/-! ## C strings -/

abbrev Text := List Char

def strstr (haystack needle : Text) : Option Text := find needle haystack

def strchr (s : Text) (c : Char) : Option Text := find [c] s

/-- `p < q`, for two pointers into one text. -/
def before (p q : Text) : Bool := q.length < p.length

def isspace (c : Char) : Bool :=
  c = ' ' || c = '\t' || c = '\n' || c = '\x0b' || c = '\x0c' || c = '\r'

def isdigit (c : Char) : Bool := '0'.toNat ≤ c.toNat && c.toNat ≤ '9'.toNat

/-- The sign, and what follows it. -/
def sign : Text → Int × Text
  | '-' :: rest => (-1, rest)
  | '+' :: rest => (1, rest)
  | rest => (1, rest)

def number (digits : Text) : Nat := digits.foldl (fun n c => 10 * n + (c.toNat - '0'.toNat)) 0

/-- `(int) strtol(s, NULL, 10)`: a value out of the range of `long` stops at its ends, and
an `int` keeps the low 32 bits. -/
def atoi (s : Text) : Int :=
  let (sgn, rest) := sign (s.dropWhile isspace)
  let value := sgn * number (rest.takeWhile isdigit)
  Int.bmod (max (-2 ^ 63) (min (2 ^ 63 - 1) value)) (2 ^ 32)

/-! ## The data -/

def VF_PARSER_MAX_NAME_LEN : Nat := 64
def VF_PARSER_MAX_BASE_PATH_LEN : Nat := 256
def VF_PARSER_MAX_FILE_NAME_LEN : Nat := 128

def VF_PARSER_MAX_FULL_PATH_LEN : Nat :=
  VF_PARSER_MAX_BASE_PATH_LEN + VF_PARSER_MAX_FILE_NAME_LEN + 2

def MAX_FILE_SIZE : Nat := 65536

inductive vf_pixel_format_t
  | VF_PIXEL_FORMAT_INVALID
  | VF_PIXEL_FORMAT_RAW8
  | VF_PIXEL_FORMAT_RGB888
  | VF_PIXEL_FORMAT_YUV420
  deriving DecidableEq

structure vf_frame_info_t where
  file_name : Text
  full_path : Text
  width : Nat
  height : Nat
  deriving DecidableEq

/-- `frame_count` is the length of `frames`. -/
structure vf_frame_set_t where
  name : Text
  base_path : Text
  format : vf_pixel_format_t
  frames : List vf_frame_info_t
  deriving DecidableEq

/-- `frame_set_count` is the length of `frame_sets`. -/
structure vf_frames_cfg_t where
  frame_sets : List vf_frame_set_t
  deriving DecidableEq

/-- The keys that the parser looks for. -/
inductive Key
  | name
  | base_path
  | format
  | frames
  | file
  | width
  | height
  deriving DecidableEq

def Key.text : Key → Text
  | .name => "name".toList
  | .base_path => "base_path".toList
  | .format => "format".toList
  | .frames => "frames".toList
  | .file => "file".toList
  | .width => "width".toList
  | .height => "height".toList

/-- The key as it is searched, such as `"\"name\""`. -/
def Key.quoted (key : Key) : Text := '"' :: key.text ++ ['"']

/-- History: where the keys of a frame were found. -/
structure FramePlaces where
  file : Text
  width : Text
  height : Text
  deriving DecidableEq

/-- History: where the keys of a set were found, and the ends of its array. -/
structure SetPlaces where
  name : Text
  base_path : Text
  format : Text
  frames_start : Text
  frames_end : Text
  frames : List FramePlaces
  deriving DecidableEq

/-! ## The code -/

def vf_parser_str_to_format (str : Text) : vf_pixel_format_t :=
  if str = "RAW8".toList then .VF_PIXEL_FORMAT_RAW8
  else if str = "RGB888".toList then .VF_PIXEL_FORMAT_RGB888
  else if str = "YUV420".toList then .VF_PIXEL_FORMAT_YUV420
  else .VF_PIXEL_FORMAT_INVALID

/-- The allocations of a load. -/
inductive Alloc
  | buffer
  | cfg
  | frame_sets
  | frames (i : Nat)

/-- `file` is what the file holds, or `none` if it does not open. -/
def vf_parser_read_file (file : Option Text) (alloc : Alloc → Bool) : Option Text :=
  file.bind fun content =>
    if alloc .buffer then some ((content.take (MAX_FILE_SIZE - 1)).takeWhile (· ≠ '\x00'))
    else none

/-- The test of the loop that skips blanks before a string. -/
def is_blank (c : Char) : Bool := c = ' ' || c = '\t' || c = '\n' || c = '\r'

/-- The string, with the place of its closing quote. `none` is the return code -1. -/
def string_at (src : Text) (max_len : Nat) : Option (Text × Text) :=
  (strchr src ':').bind fun colon =>
    match (colon.drop 1).dropWhile is_blank with
    | '"' :: start =>
      (strchr start '"').bind fun quote =>
        let len := start.length - quote.length
        if len ≥ max_len then none else some (start.take len, quote)
    | _ => none

def vf_parser_extract_string (src : Text) (max_len : Nat) : Option Text :=
  (string_at src max_len).map (·.1)

def vf_parser_extract_int (src : Text) : Option Int :=
  (strchr src ':').map fun colon => atoi (colon.drop 1)

/-- The loop that counts a key with `strstr`, as long as it finds it before `stop`. The
search and the loop are one recursion. -/
def count_keys (key : Key) (stop : Text) : Text → Nat
  | [] => 0
  | c :: rest =>
    if key.quoted <+: c :: rest then
      if before (c :: rest) stop then count_keys key stop rest + 1 else 0
    else count_keys key stop rest

/-- What must be there for the load to go on. -/
def need {α : Type} : Option α → Except vf_err_t α
  | some a => .ok a
  | none => .error .VF_FILE_ERR

def require (b : Bool) (err : vf_err_t) : Except vf_err_t Unit := if b then .ok () else .error err

/-- `snprintf(frame->full_path, sizeof(frame->full_path), "%s/%s", ...)`. -/
def full_path (base_path file_name : Text) : Text :=
  (base_path ++ '/' :: file_name).take (VF_PARSER_MAX_FULL_PATH_LEN - 1)

/-- One turn of the loop over the frames of a set. -/
def load_frame (base_path cursor : Text) : Except vf_err_t (vf_frame_info_t × FramePlaces) := do
  let file ← need (strstr cursor Key.file.quoted)
  let file_name ← need (vf_parser_extract_string file VF_PARSER_MAX_FILE_NAME_LEN)
  let at_width ← need (strstr file Key.width.quoted)
  let width ← need (vf_parser_extract_int at_width)
  require (0 < width) .VF_FILE_ERR
  let at_height ← need (strstr at_width Key.height.quoted)
  let height ← need (vf_parser_extract_int at_height)
  require (0 < height) .VF_FILE_ERR
  return (⟨file_name, full_path base_path file_name, width.toNat, height.toNat⟩,
    ⟨file, at_width, at_height⟩)

/-- The loop over the frames of a set, and where it leaves the cursor. -/
def load_frames (base_path : Text) : Nat → Text →
    Except vf_err_t (List (vf_frame_info_t × FramePlaces) × Text)
  | 0, cursor => .ok ([], cursor)
  | n + 1, cursor => do
    let frame ← load_frame base_path cursor
    let (rest, cursor) ← load_frames base_path n frame.2.height
    return (frame :: rest, cursor)

/-- One turn of the loop over the sets. -/
def load_set (alloc : Alloc → Bool) (i : Nat) (cursor : Text) :
    Except vf_err_t ((vf_frame_set_t × SetPlaces) × Text) := do
  let at_name ← need (strstr cursor Key.name.quoted)
  let name ← need (vf_parser_extract_string at_name VF_PARSER_MAX_NAME_LEN)
  let at_base_path ← need (strstr at_name Key.base_path.quoted)
  let base_path ← need (vf_parser_extract_string at_base_path VF_PARSER_MAX_BASE_PATH_LEN)
  let at_format ← need (strstr at_base_path Key.format.quoted)
  let fmt_str ← need (vf_parser_extract_string at_format 32)
  let format := vf_parser_str_to_format fmt_str
  require (format ≠ .VF_PIXEL_FORMAT_INVALID) .VF_FILE_ERR
  let frames_start ← need (strstr at_format Key.frames.quoted)
  let frames_end ← need (strchr frames_start ']')
  let frame_count := count_keys .file frames_end frames_start
  require (frame_count ≠ 0) .VF_FILE_ERR
  require (alloc (.frames i)) .VF_OOM
  let (frames, cursor) ← load_frames base_path frame_count at_format
  return ((⟨name, base_path, format, frames.map (·.1)⟩,
    ⟨at_name, at_base_path, at_format, frames_start, frames_end, frames.map (·.2)⟩), cursor)

/-- The loop over the sets, from the set `i` on. -/
def load_sets (alloc : Alloc → Bool) : Nat → Nat → Text →
    Except vf_err_t (List (vf_frame_set_t × SetPlaces))
  | _, 0, _ => .ok []
  | i, n + 1, cursor => do
    let (set, cursor) ← load_set alloc i cursor
    let rest ← load_sets alloc (i + 1) n cursor
    return set :: rest

/-- `vf_parser_load_frames_cfg`, with the places where it found what it read. -/
def load_places (file : Option Text) (alloc : Alloc → Bool) :
    Except vf_err_t (List (vf_frame_set_t × SetPlaces)) := do
  let file_data ← need (vf_parser_read_file file alloc)
  require (alloc .cfg) .VF_OOM
  let set_count := count_keys .name [] file_data
  require (set_count ≠ 0) .VF_FILE_ERR
  require (alloc .frame_sets) .VF_OOM
  load_sets alloc 0 set_count file_data

def vf_parser_load_frames_cfg (file : Option Text) (alloc : Alloc → Bool) :
    Except vf_err_t vf_frames_cfg_t := do
  let sets ← load_places file alloc
  return ⟨sets.map (·.1)⟩

/-! ## The file -/

/-- The file is read whole, up to the size of the buffer, if no NUL is in it. -/
theorem read_whole {text : Text} {alloc : Alloc → Bool} (halloc : alloc .buffer = true)
    (hnul : '\x00' ∉ text) : vf_parser_read_file (some text) alloc =
      some (text.take (MAX_FILE_SIZE - 1)) := by
  have hall : ∀ c ∈ text.take (MAX_FILE_SIZE - 1), decide (c ≠ '\x00') = true := by
    intro c hc
    rw [decide_eq_true_eq]
    rintro rfl
    exact hnul (List.mem_of_mem_take hc)
  unfold vf_parser_read_file
  rw [Option.bind_some, if_pos halloc, List.takeWhile_eq_self_iff.mpr hall]

/-! ## Keys -/

section
variable {key k : Key}

theorem key_no_quote (key : Key) : '"' ∉ key.text := by
  cases key <;> decide

theorem key_text_inj (h : key.text = k.text) : key = k := by
  cases key <;> cases k <;> first | rfl | exact absurd h (by decide)

theorem key_no_colon (key : Key) : ':' ∉ key.quoted := by
  cases key <;> decide

/-- The loop counts the places before its end. -/
theorem count_keys_eq (key : Key) (stop l : Text) :
    count_keys key stop l = ((places key.quoted l).filter (before · stop)).length := by
  induction l with
  | nil =>
    have hno : ¬ key.quoted <+: [] := fun hp => by simpa [Key.quoted] using hp.length_le
    simp [count_keys, places, hno]
  | cons c l ih =>
    unfold count_keys places
    split
    · cases hbefore : before (c :: l) stop with
      | true => rw [if_pos rfl, ih, List.filter_cons_of_pos (by exact hbefore), List.length_cons]
      | false =>
        -- what comes later does not lie before the end either
        rw [if_neg (by simp), List.filter_cons_of_neg (by simp [hbefore])]
        symm
        rw [List.length_eq_zero_iff, List.filter_eq_nil_iff]
        intro s hs
        have hle := (mem_places.mp hs).1.length_le
        unfold before at hbefore ⊢
        simp only [List.length_cons, decide_eq_false_iff_not, decide_eq_true_eq] at hbefore ⊢
        omega
    · exact ih

end

end vision_flow.parser
