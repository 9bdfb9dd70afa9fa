-- The stdio streams of vf-file.c, and of the two functions of vf-framebuffer.c that open a
-- file. In four places a stream is not closed, or its file stays marked as open. Each live
-- stream has one open file that owns it just if no call comes to one of them.
import VisionFlow.FrameFile
import VisionFlow.Lib.Runs

namespace vision_flow.file_streams

open runs
open framebuffer (vf_framebuffer_t FILE VF_FB_MAX_PLANE_COUNT)

variable {ι P : Type}

/-! ## vf-file.c -/

/-- `P` are the streams, and `none` is NULL. The path, which only the log shows, is left
out. -/
structure vf_file_t (P : Type) where
  fp : Option P
  is_open : Nat

/-- The calls of stdio, each with its stream. -/
inductive Call (P : Type)
  | fopen (fp : Option P)
  | fclose (fp : Option P)
  | uses (fp : Option P)
  deriving DecidableEq

section
variable (file : vf_file_t P)

/-- A `Bool` for a pointer says that it is not NULL. `opened` is what `fopen` returns. -/
def vf_file_open (path mode : Bool) (opened : Option P) :
    vf_err_t × vf_file_t P × List (Call P) :=
  if !path || !mode then
    (.VF_INVALID_PARAMETER, file, [])
  else if file.is_open = 1 then
    (.VF_FILE_ERR, file, [])
  else
    match opened with
    | none => (.VF_FILE_ERR, { file with fp := none }, [.fopen none])
    | some fp => (.VF_SUCCESS, { file with fp := some fp, is_open := 1 }, [.fopen (some fp)])

/-- `closed` says if `fclose` succeeds. -/
def vf_file_close (closed : Bool) : vf_err_t × vf_file_t P × List (Call P) :=
  if file.is_open = 0 then
    (.VF_SUCCESS, file, [])
  else if !closed then
    (.VF_FILE_ERR, file, [.fclose file.fp])
  else
    (.VF_SUCCESS, { file with fp := none, is_open := 0 }, [.fclose file.fp])

/-- `ret_size` is what `fread` returns. The second value is what `*bytes_read` becomes. -/
def vf_file_read (buf : Bool) (size ret_size : Nat) (ferror : Bool) :
    vf_err_t × Option Nat × List (Call P) :=
  if !buf || size = 0 then
    (.VF_INVALID_PARAMETER, none, [])
  else if file.is_open = 0 then
    (.VF_FILE_ERR, none, [])
  else if ret_size ≠ size then
    (if ferror then .VF_FILE_ERR else .VF_SUCCESS, some ret_size, [.uses file.fp, .uses file.fp])
  else
    (.VF_SUCCESS, some ret_size, [.uses file.fp])

/-- `ret_size` is what `fwrite` returns. -/
def vf_file_write (buf : Bool) (size ret_size : Nat) : vf_err_t × Option Nat × List (Call P) :=
  if !buf || size = 0 then
    (.VF_INVALID_PARAMETER, none, [])
  else if file.is_open = 0 then
    (.VF_FILE_ERR, none, [])
  else if ret_size ≠ size then
    (.VF_FILE_ERR, some ret_size, [.uses file.fp])
  else
    (.VF_SUCCESS, some ret_size, [.uses file.fp])

/-- The arguments after the pointer are what its four calls return. -/
def vf_file_size (out_size : Bool) (current : Int) (to_end : Bool) (size : Int)
    (restored : Bool) : vf_err_t × Option Nat × List (Call P) :=
  if !out_size then
    (.VF_INVALID_PARAMETER, none, [])
  else if file.is_open = 0 then
    (.VF_FILE_ERR, none, [])
  else if current < 0 then
    (.VF_FILE_ERR, none, [.uses file.fp])
  else if !to_end then
    (.VF_FILE_ERR, none, [.uses file.fp, .uses file.fp])
  else if size < 0 then
    (.VF_FILE_ERR, none, [.uses file.fp, .uses file.fp, .uses file.fp])
  else if !restored then
    (.VF_FILE_ERR, none, [.uses file.fp, .uses file.fp, .uses file.fp, .uses file.fp])
  else
    (.VF_SUCCESS, some size.toNat, [.uses file.fp, .uses file.fp, .uses file.fp, .uses file.fp])

/-- `sought` says if `fseek` succeeds. -/
def vf_file_seek (sought : Bool) : vf_err_t × List (Call P) :=
  if file.is_open = 0 then
    (.VF_FILE_ERR, [])
  else
    (if sought then .VF_SUCCESS else .VF_FILE_ERR, [.uses file.fp])

/-- `pos` is what `ftell` returns. -/
def vf_file_tell (out_pos : Bool) (pos : Int) : vf_err_t × Option Int × List (Call P) :=
  if !out_pos then
    (.VF_INVALID_PARAMETER, none, [])
  else if file.is_open = 0 then
    (.VF_FILE_ERR, none, [])
  else if pos < 0 then
    (.VF_FILE_ERR, none, [.uses file.fp])
  else
    (.VF_SUCCESS, some pos, [.uses file.fp])

end

/-- `out_exists` is NULL, or what the pointer points to. -/
def vf_file_exists (path : Bool) (out_exists : Option Int) (opened : Option P) :
    vf_err_t × Option Int × List (Call P) :=
  if !path || out_exists.isNone then
    (.VF_INVALID_PARAMETER, out_exists, [])
  -- the source takes a stream for an error
  else if opened.isSome then
    (.VF_FILE_ERR, out_exists, [.fopen opened])
  else
    let out_exists := if opened.isSome then 1 else 0
    (.VF_SUCCESS, some out_exists,
      .fopen opened :: if opened.isSome then [.fclose opened] else [])

/-! ## vf-framebuffer.c -/

def FB_FILENAME_MAX_LEN : Nat := 256

def vf_pixel_fmt_str : vf_pixel_fmt_t → String
  | .VF_PIXEL_FMT_RGB888 => "RGB888"
  | .VF_PIXEL_FMT_BGR888 => "BGR888"
  | .VF_PIXEL_FMT_RGBA8888 => "RGBA8888"
  | .VF_PIXEL_FMT_YUV420P => "YUV420P"
  | .VF_PIXEL_FMT_YUYV => "YUYV"
  | .VF_PIXEL_FMT_MJPEG => "MJPEG"
  | .VF_PIXEL_FMT_NV12 => "NV12"
  | .VF_PIXEL_FMT_RAW8 => "RAW8"
  | _ => "UNKNOWN"

/-- `"%s_%s_%ux%u.raw"`. -/
def filename (fb : vf_framebuffer_t) (stem : List Char) : List Char :=
  stem ++ '_' :: (vf_pixel_fmt_str fb.params.format).toList ++
    '_' :: Nat.toDigits 10 fb.params.width ++ 'x' :: Nat.toDigits 10 fb.params.height ++
    ".raw".toList

/-- `f` is the file that `fopen` opens. -/
def vf_framebuffer_write_to_file (fb : vf_framebuffer_t) (stem : Option (List Char))
    (opened : Option P) (f : FILE) : vf_err_t × List (Call P) :=
  match stem with
  | none => (.VF_INVALID_PARAMETER, [])
  | some stem =>
    if (filename fb stem).length ≥ FB_FILENAME_MAX_LEN then
      (.VF_INVALID_PARAMETER, [])
    else
      match opened with
      | none => (.VF_FILE_ERR, [.fopen none])
      | some fptr =>
        let (rc, _, _) := framebuffer.vf_framebuffer_write_to_fptr fb f 0
        if rc ≠ .VF_SUCCESS then
          (rc, [.fopen (some fptr), .uses (some fptr)])
        else
          (rc, [.fopen (some fptr), .uses (some fptr), .fclose (some fptr)])

def vf_framebuffer_read_from_file (fb : vf_framebuffer_t) (filename : Bool) (opened : Option P)
    (f : FILE) : vf_err_t × vf_framebuffer_t × List (Call P) :=
  if !filename then
    (.VF_INVALID_PARAMETER, fb, [])
  else
    match opened with
    | none => (.VF_FILE_ERR, fb, [.fopen none])
    | some fptr =>
      let (rc, fb, _, _) := framebuffer.vf_framebuffer_read_from_fptr fb f 0
      if rc ≠ .VF_SUCCESS then
        (rc, fb, [.fopen (some fptr), .uses (some fptr)])
      else
        (rc, fb, [.fopen (some fptr), .uses (some fptr), .fclose (some fptr)])

/-! ## Runs -/

/-- A call of the library, with what stdio answers. -/
inductive Act (ι P : Type)
  | open_file (i : ι) (path mode : Bool) (opened : Option P)
  | close (i : ι) (closed : Bool)
  | read (i : ι) (buf : Bool) (size ret_size : Nat) (ferror : Bool)
  | write (i : ι) (buf : Bool) (size ret_size : Nat)
  | size (i : ι) (out_size : Bool) (current : Int) (to_end : Bool) (size : Int) (restored : Bool)
  | seek (i : ι) (sought : Bool)
  | tell (i : ι) (out_pos : Bool) (pos : Int)
  | file_exists (path : Bool) (out_exists : Option Int) (opened : Option P)
  | write_to_file (fb : vf_framebuffer_t) (stem : Option (List Char))
    (opened : Option P) (f : FILE)
  | read_from_file (fb : vf_framebuffer_t) (filename : Bool) (opened : Option P) (f : FILE)

/-- The files, and the streams that are open. -/
structure St (ι P : Type) where
  file : ι → vf_file_t P
  live : Finset P

/-- The files are zeroed. -/
def St.start : St ι P := ⟨fun _ => ⟨none, 0⟩, ∅⟩

section
variable [DecidableEq ι] [DecidableEq P]

/-- The files after an act, and its calls. -/
def perform (file : ι → vf_file_t P) : Act ι P → (ι → vf_file_t P) × List (Call P)
  | .open_file i path mode opened =>
    let (_, f, calls) := vf_file_open (file i) path mode opened
    (Function.update file i f, calls)
  | .close i closed =>
    let (_, f, calls) := vf_file_close (file i) closed
    (Function.update file i f, calls)
  | .read i buf size ret_size ferror =>
    (file, (vf_file_read (file i) buf size ret_size ferror).2.2)
  | .write i buf size ret_size => (file, (vf_file_write (file i) buf size ret_size).2.2)
  | .size i out_size current to_end size restored =>
    (file, (vf_file_size (file i) out_size current to_end size restored).2.2)
  | .seek i sought => (file, (vf_file_seek (file i) sought).2)
  | .tell i out_pos pos => (file, (vf_file_tell (file i) out_pos pos).2.2)
  | .file_exists path out_exists opened => (file, (vf_file_exists path out_exists opened).2.2)
  | .write_to_file fb stem opened f =>
    (file, (vf_framebuffer_write_to_file fb stem opened f).2)
  | .read_from_file fb filename opened f =>
    (file, (vf_framebuffer_read_from_file fb filename opened f).2.2)

/-- What a call does to the open streams. A `fclose` ends the stream, also if it fails. -/
def call_streams (live : Finset P) : Call P → Finset P
  | .fopen (some p) => insert p live
  | .fclose (some p) => live.erase p
  | _ => live

def after (s : St ι P) (a : Act ι P) : St ι P :=
  let (file, calls) := perform s.file a
  ⟨file, calls.foldl call_streams s.live⟩

/-- A stream that is opened is not open yet. -/
def Possible (s : St ι P) (a : Act ι P) : Prop :=
  ∀ p ∈ s.live, .fopen (some p) ∉ (perform s.file a).2

instance (s : St ι P) (a : Act ι P) : Decidable (Possible s a) :=
  inferInstanceAs (Decidable (∀ p ∈ s.live, _))

/-- `none`: the act does not happen in this state. -/
def step (s : St ι P) (a : Act ι P) : Option (St ι P) :=
  if Possible s a then some (after s a) else none

end

/-! ## What a caller may rely on -/

/-- The live streams are the ones of the open files, and each has one owner. -/
structure Owned (s : St ι P) : Prop where
  flag : ∀ i, (s.file i).is_open ≤ 1
  held : ∀ i, (s.file i).is_open = 1 → ∃ p ∈ s.live, (s.file i).fp = some p
  owner : ∀ p ∈ s.live, ∃! i, (s.file i).is_open = 1 ∧ (s.file i).fp = some p

/-- A call on a stream finds it live. -/
def OnLive (live : Finset P) : Call P → Prop
  | .fopen _ => True
  | .fclose fp => ∃ p ∈ live, fp = some p
  | .uses fp => ∃ p ∈ live, fp = some p

/-- Each call, where `live` are the streams before the first one. -/
def Clean [DecidableEq P] (live : Finset P) : List (Call P) → Prop
  | [] => True
  | c :: rest => OnLive live c ∧ Clean (call_streams live c) rest

/-- `vf_file_exists` says 1 just if the file can be opened. -/
def Answered : Act ι P → Prop
  | .file_exists true (some out_exists) opened =>
    (vf_file_exists true (some out_exists) opened).1 = .VF_SUCCESS ∧
      (vf_file_exists true (some out_exists) opened).2.1 = some 1 ↔ opened.isSome
  | _ => True

/-- What the library owes to its caller at an act. -/
structure Kept [DecidableEq ι] [DecidableEq P] (s : St ι P) (a : Act ι P) : Prop where
  owned : Owned (after s a)
  clean : Clean s.live (perform s.file a).2
  answered : Answered a

/-- The planes that the loop over `n` planes from plane `i` on reaches. -/
def walked (fb : vf_framebuffer_t) (i n : Nat) : List Nat :=
  (List.range' i n).takeWhile fun i => fb.plane_size i ≠ 0

def frame_planes (fb : vf_framebuffer_t) : List Nat := walked fb 0 VF_FB_MAX_PLANE_COUNT

/-- A row without bytes is a failure of `fread` and `fwrite`. -/
def Rows (fb : vf_framebuffer_t) (planes : List Nat) : Prop :=
  ∀ i ∈ planes, fb.plane_height i = 0 ∨ fb.plane_line_size i ≠ 0

/-- The bytes of the rows of some planes. -/
def row_bytes (fb : vf_framebuffer_t) (planes : List Nat) : Nat :=
  (planes.map fun i => fb.plane_line_size i * fb.plane_height i).sum

/-- There is room for `n` bytes. -/
def Fits (room : Option Nat) (n : Nat) : Prop := ∀ r ∈ room, n ≤ r

/-- A close of an open file succeeds, a file that is looked for does not exist, and a frame is
read from a file that holds it, and written to one that takes it. -/
def Sound (s : St ι P) : Act ι P → Prop
  | .close i closed => (s.file i).is_open = 1 → closed = true
  | .file_exists path out_exists opened =>
    path = true → out_exists.isSome → opened = none
  | .write_to_file fb stem opened f =>
    (∃ p, stem = some p ∧ (filename fb p).length < FB_FILENAME_MAX_LEN) →
      opened.isSome →
        fb.data.isSome ∧ Rows fb (frame_planes fb) ∧
          Fits f.room (row_bytes fb (frame_planes fb))
  | .read_from_file fb filename opened f => filename = true → opened.isSome →
      fb.data.isSome ∧ Rows fb (frame_planes fb) ∧
        row_bytes fb (frame_planes fb) ≤ f.bytes.length - f.pos
  | _ => True

/-! ## The frames -/

theorem Fits.sub_iff {room : Option Nat} {a b : Nat} :
    Fits room (a + b) ↔ Fits room a ∧ Fits (room.map (· - a)) b := by
  cases room with
  | none => simp [Fits]
  | some r =>
    simp only [Fits, Option.mem_def, Option.some.injEq, forall_eq', Option.map_some]
    omega

/-- One row is written. -/
theorem fwrite_one (line : List UInt8) (f : FILE) :
    ((framebuffer.fwrite line f).1 = framebuffer.ONE_LINE ↔
        line.length ≠ 0 ∧ Fits f.room line.length) ∧
      (Fits f.room line.length →
        (framebuffer.fwrite line f).2.room = f.room.map (· - line.length)) := by
  obtain ⟨bytes, pos, room⟩ := f
  cases room with
  | none =>
    simp only [framebuffer.fwrite, framebuffer.ONE_LINE, Fits]
    simp
  | some r =>
    simp only [framebuffer.fwrite, framebuffer.ONE_LINE, Fits, Option.mem_def, Option.some.injEq,
      forall_eq', Option.map_some]
    refine ⟨?_, fun h => by rw [Nat.min_eq_left h]⟩
    split
    · refine iff_of_true rfl ?_
      omega
    · refine iff_of_false (by decide) ?_
      omega

theorem write_lines_success (data : Nat → UInt8) (l st n p : Nat) (f : FILE) (w : Nat) :
    ((framebuffer.write_lines data l st n p f w).1 = .VF_SUCCESS ↔
        (n = 0 ∨ l ≠ 0) ∧ Fits f.room (l * n)) ∧
      ((framebuffer.write_lines data l st n p f w).1 = .VF_SUCCESS →
        (framebuffer.write_lines data l st n p f w).2.1.room = f.room.map (· - l * n)) := by
  induction n generalizing p f w with
  | zero =>
    simp [framebuffer.write_lines, Fits]
  | succ n ih =>
    obtain ⟨hone, hroom⟩ := fwrite_one ((List.range' p l).map data) f
    rw [List.length_map, List.length_range'] at hone hroom
    simp only [framebuffer.write_lines]
    rcases hw : framebuffer.fwrite ((List.range' p l).map data) f with ⟨written, f'⟩
    rw [hw] at hone hroom
    rw [Nat.mul_succ, Nat.add_comm (l * n), Fits.sub_iff]
    by_cases h1 : written = framebuffer.ONE_LINE
    · obtain ⟨hl, hfits⟩ := hone.mp h1
      rw [if_neg (not_not.mpr h1)]
      obtain ⟨hiff, hrest⟩ := ih (p + st) f' (w + l)
      rw [hroom hfits] at hiff hrest
      refine ⟨?_, ?_⟩
      · rw [hiff]
        simp [hl, hfits]
      · intro h
        rw [hrest h]
        simp [Function.comp_def, Nat.sub_sub]
    · have hfailed : vf_err_t.VF_FILE_ERR ≠ .VF_SUCCESS := by decide
      rw [if_pos h1]
      refine ⟨iff_of_false hfailed fun h => h1 (hone.mpr ⟨?_, h.2.1⟩), fun h => absurd h hfailed⟩
      exact h.1.resolve_left (Nat.succ_ne_zero n)

theorem walked_stop {fb : vf_framebuffer_t} {i : Nat} (h : fb.plane_size i = 0) (n : Nat) :
    walked fb i (n + 1) = [] := by
  simp [walked, List.range'_succ, h]

theorem walked_next {fb : vf_framebuffer_t} {i : Nat} (h : fb.plane_size i ≠ 0) (n : Nat) :
    walked fb i (n + 1) = i :: walked fb (i + 1) n := by
  simp [walked, List.range'_succ, h]

theorem rows_cons {fb : vf_framebuffer_t} {i : Nat} {is : List Nat} :
    Rows fb (i :: is) ↔ (fb.plane_height i = 0 ∨ fb.plane_line_size i ≠ 0) ∧ Rows fb is :=
  List.forall_mem_cons

theorem row_bytes_cons (fb : vf_framebuffer_t) (i : Nat) (is : List Nat) :
    row_bytes fb (i :: is) = fb.plane_line_size i * fb.plane_height i + row_bytes fb is :=
  List.sum_cons

theorem write_planes_success (fb : vf_framebuffer_t) (data : Nat → UInt8) (n i p : Nat) (f : FILE)
    (w : Nat) :
    (framebuffer.write_planes fb data n i p f w).1 = .VF_SUCCESS ↔
      Rows fb (walked fb i n) ∧ Fits f.room (row_bytes fb (walked fb i n)) := by
  induction n generalizing i p f w with
  | zero => simp [framebuffer.write_planes, walked, Rows, Fits, row_bytes]
  | succ n ih =>
    simp only [framebuffer.write_planes]
    by_cases hsize : fb.plane_size i = 0
    · rw [if_pos hsize, walked_stop hsize]
      simp [Rows, Fits, row_bytes]
    · rw [if_neg hsize, walked_next hsize, rows_cons, row_bytes_cons, Fits.sub_iff]
      obtain ⟨hiff, hroom⟩ := write_lines_success data (fb.plane_line_size i) (fb.plane_stride i)
        (fb.plane_height i) p f w
      rcases hlines : framebuffer.write_lines data (fb.plane_line_size i) (fb.plane_stride i)
        (fb.plane_height i) p f w with ⟨rc, f', w'⟩
      rw [hlines] at hiff hroom
      by_cases hrc : rc = .VF_SUCCESS
      · simp only [ne_eq, hrc, not_true_eq_false, if_false]
        obtain ⟨hrows, hfits⟩ := hiff.mp hrc
        rw [ih, hroom hrc]
        simp [hrows, hfits]
      · simp only [ne_eq, hrc, not_false_eq_true, if_true]
        exact iff_of_false id fun h => hrc (hiff.mpr ⟨h.1.1, h.2.1⟩)

/-- One row is read. -/
theorem fread_one (size : Nat) (f : FILE) :
    ((framebuffer.fread size f).1 = framebuffer.ONE_LINE ↔
        size ≠ 0 ∧ size ≤ f.bytes.length - f.pos) ∧
      (size ≤ f.bytes.length - f.pos →
        (framebuffer.fread size f).2.2 = { f with pos := f.pos + size }) := by
  obtain ⟨bytes, pos, room⟩ := f
  simp only [framebuffer.fread, framebuffer.ONE_LINE, List.length_take, List.length_drop]
  refine ⟨?_, fun h => by rw [Nat.min_eq_left h]⟩
  split
  · refine iff_of_true rfl ?_
    omega
  · refine iff_of_false (by decide) ?_
    omega

theorem read_lines_success (l st n p : Nat) (data : Nat → UInt8) (f : FILE) (w : Nat) :
    ((framebuffer.read_lines l st n p data f w).1 = .VF_SUCCESS ↔
        (n = 0 ∨ l ≠ 0) ∧ l * n ≤ f.bytes.length - f.pos) ∧
      ((framebuffer.read_lines l st n p data f w).1 = .VF_SUCCESS →
        (framebuffer.read_lines l st n p data f w).2.2.1 = { f with pos := f.pos + l * n }) := by
  induction n generalizing p data f w with
  | zero => simp [framebuffer.read_lines]
  | succ n ih =>
    obtain ⟨hone, hpos⟩ := fread_one l f
    simp only [framebuffer.read_lines]
    rcases hr : framebuffer.fread l f with ⟨count, got, f'⟩
    rw [hr] at hone hpos
    simp only at hone hpos ⊢
    rw [Nat.mul_succ]
    by_cases h1 : count = framebuffer.ONE_LINE
    · obtain ⟨hl, hfits⟩ := hone.mp h1
      rw [if_neg (not_not.mpr h1)]
      obtain ⟨hiff, hrest⟩ := ih (p + st)
        (memory.write_all data ((List.range' p l).zip got)) f' (w + l)
      rw [hpos hfits] at hiff hrest
      refine ⟨?_, ?_⟩
      · rw [hpos hfits, hiff]
        simp only
        omega
      · intro h
        rw [hpos hfits] at h ⊢
        rw [hrest h]
        simp [Nat.add_assoc, Nat.add_comm l]
    · have hfailed : vf_err_t.VF_FILE_ERR ≠ .VF_SUCCESS := by decide
      rw [if_pos h1]
      refine ⟨iff_of_false hfailed fun h => h1 (hone.mpr ?_), fun h => absurd h hfailed⟩
      omega

theorem read_planes_success (fb : vf_framebuffer_t) (n i p : Nat) (data : Nat → UInt8) (f : FILE)
    (w : Nat) :
    (framebuffer.read_planes fb n i p data f w).1 = .VF_SUCCESS ↔
      Rows fb (walked fb i n) ∧ row_bytes fb (walked fb i n) ≤ f.bytes.length - f.pos := by
  induction n generalizing i p data f w with
  | zero => simp [framebuffer.read_planes, walked, Rows, row_bytes]
  | succ n ih =>
    simp only [framebuffer.read_planes]
    by_cases hsize : fb.plane_size i = 0
    · rw [if_pos hsize, walked_stop hsize]
      simp [Rows, row_bytes]
    · rw [if_neg hsize, walked_next hsize, rows_cons, row_bytes_cons]
      obtain ⟨hiff, hpos⟩ := read_lines_success (fb.plane_line_size i) (fb.plane_stride i)
        (fb.plane_height i) p data f w
      rcases hlines : framebuffer.read_lines (fb.plane_line_size i) (fb.plane_stride i)
        (fb.plane_height i) p data f w with ⟨rc, data', f', w'⟩
      rw [hlines] at hiff hpos
      by_cases hrc : rc = .VF_SUCCESS
      · simp only [ne_eq, hrc, not_true_eq_false, if_false]
        have hf : f' = _ := hpos hrc
        obtain ⟨hrows, hfits⟩ := hiff.mp hrc
        rw [ih, hf, ← Nat.sub_sub, Nat.le_sub_iff_add_le' hfits]
        simp only [hrows, true_and]
      · simp only [ne_eq, hrc, not_false_eq_true, if_true]
        refine iff_of_false id fun h => hrc (hiff.mpr ⟨h.1.1, ?_⟩)
        omega

theorem write_to_fptr_success (fb : vf_framebuffer_t) (f : FILE) (w : Nat) :
    (framebuffer.vf_framebuffer_write_to_fptr fb f w).1 = .VF_SUCCESS ↔
      fb.data.isSome ∧ Rows fb (frame_planes fb) ∧
        Fits f.room (row_bytes fb (frame_planes fb)) := by
  unfold framebuffer.vf_framebuffer_write_to_fptr
  cases hdata : fb.data with
  | none => simp
  | some data => simp [write_planes_success, frame_planes]

theorem read_from_fptr_success (fb : vf_framebuffer_t) (f : FILE) (r : Nat) :
    (framebuffer.vf_framebuffer_read_from_fptr fb f r).1 = .VF_SUCCESS ↔
      fb.data.isSome ∧ Rows fb (frame_planes fb) ∧
        row_bytes fb (frame_planes fb) ≤ f.bytes.length - f.pos := by
  unfold framebuffer.vf_framebuffer_read_from_fptr
  cases hdata : fb.data with
  | none => simp
  | some data => simp [read_planes_success, frame_planes]

/-! ## The owners -/

section
variable [DecidableEq ι] [DecidableEq P] {s : St ι P} {i : ι} {p : P}

/-- A stream that is opened for a file that is closed. -/
theorem owned_open (h : Owned s) (hclosed : (s.file i).is_open = 0) (hp : p ∉ s.live) :
    Owned ⟨Function.update s.file i ⟨some p, 1⟩, insert p s.live⟩ := by
  refine ⟨?_, ?_, ?_⟩
  · intro j
    by_cases hj : j = i
    · simp [hj]
    · simpa [hj] using h.flag j
  · intro j hopen
    by_cases hj : j = i
    · exact ⟨p, Finset.mem_insert_self p _, by simp [hj]⟩
    · simp only [Function.update_of_ne hj] at hopen ⊢
      obtain ⟨q, hq, hfp⟩ := h.held j hopen
      exact ⟨q, Finset.mem_insert_of_mem hq, hfp⟩
  · intro q hq
    by_cases hqp : q = p
    · subst hqp
      refine ⟨i, by simp, ?_⟩
      rintro j ⟨hopen, hfp⟩
      by_contra hj
      simp only [Function.update_of_ne hj] at hopen hfp
      obtain ⟨r, hr, hfp'⟩ := h.held j hopen
      rw [hfp] at hfp'
      exact hp (Option.some.inj hfp' ▸ hr)
    · obtain ⟨j, ⟨hopen, hfp⟩, hone⟩ := h.owner q (Finset.mem_of_mem_insert_of_ne hq hqp)
      have hj : j ≠ i := by
        intro hj
        rw [hj, hclosed] at hopen
        cases hopen
      refine ⟨j, by simpa [hj] using ⟨hopen, hfp⟩, ?_⟩
      rintro k ⟨hopen', hfp'⟩
      by_cases hk : k = i
      · simp only [hk, Function.update_self, Option.some.injEq] at hfp'
        exact absurd hfp'.symm hqp
      · simp only [Function.update_of_ne hk] at hopen' hfp'
        exact hone k ⟨hopen', hfp'⟩

/-- A file that is closed with its stream. -/
theorem owned_close (h : Owned s) (hopen : (s.file i).is_open = 1)
    (hfp : (s.file i).fp = some p) :
    Owned ⟨Function.update s.file i ⟨none, 0⟩, s.live.erase p⟩ := by
  obtain ⟨q, hq, hfp'⟩ := h.held i hopen
  have hp : p ∈ s.live := Option.some.inj (hfp.symm.trans hfp') ▸ hq
  have hone : ∀ j, (s.file j).is_open = 1 → (s.file j).fp = some p → j = i :=
    fun j h1 h2 => (h.owner p hp).unique ⟨h1, h2⟩ ⟨hopen, hfp⟩
  refine ⟨?_, ?_, ?_⟩
  · intro j
    by_cases hj : j = i
    · simp [hj]
    · simpa [hj] using h.flag j
  · intro j hopen'
    by_cases hj : j = i
    · simp [hj] at hopen'
    · simp only [Function.update_of_ne hj] at hopen' ⊢
      obtain ⟨r, hr, hfp''⟩ := h.held j hopen'
      have hne : r ≠ p := fun heq => hj (hone j hopen' (heq ▸ hfp''))
      exact ⟨r, Finset.mem_erase.mpr ⟨hne, hr⟩, hfp''⟩
  · intro r hr
    obtain ⟨hne, hr⟩ := Finset.mem_erase.mp hr
    obtain ⟨j, ⟨hopen', hfp''⟩, hone'⟩ := h.owner r hr
    have hj : j ≠ i := by
      intro hj
      rw [hj, hfp] at hfp''
      exact hne (Option.some.inj hfp'').symm
    refine ⟨j, by simpa [hj] using ⟨hopen', hfp''⟩, ?_⟩
    rintro k ⟨hopen₂, hfp₂⟩
    by_cases hk : k = i
    · simp [hk] at hopen₂
    · simp only [Function.update_of_ne hk] at hopen₂ hfp₂
      exact hone' k ⟨hopen₂, hfp₂⟩

omit [DecidableEq P] in
/-- The pointer of a file that is closed does not matter. -/
theorem owned_null (h : Owned s) (hclosed : (s.file i).is_open = 0) :
    Owned ⟨Function.update s.file i { s.file i with fp := none }, s.live⟩ := by
  have hsame : ∀ j q, ((Function.update s.file i { s.file i with fp := none }) j).is_open = 1 ∧
      ((Function.update s.file i { s.file i with fp := none }) j).fp = some q ↔
      (s.file j).is_open = 1 ∧ (s.file j).fp = some q := by
    intro j q
    by_cases hj : j = i
    · simp [hj, hclosed]
    · simp [hj]
  refine ⟨?_, ?_, ?_⟩
  · intro j
    by_cases hj : j = i
    · simp [hj, hclosed]
    · simpa [hj] using h.flag j
  · intro j hopen
    by_cases hj : j = i
    · simp [hj, hclosed] at hopen
    · simp only [Function.update_of_ne hj] at hopen ⊢
      exact h.held j hopen
  · intro q hq
    simp only [hsame]
    exact h.owner q hq

omit [DecidableEq ι] in
/-- A stream without a file has no owner. -/
theorem not_owned_leak (h : Owned s) (hp : p ∉ s.live) : ¬ Owned ⟨s.file, insert p s.live⟩ := by
  intro h'
  obtain ⟨i, ⟨hopen, hfp⟩, -⟩ := h'.owner p (Finset.mem_insert_self p _)
  obtain ⟨q, hq, hfp'⟩ := h.held i hopen
  simp only at hfp
  rw [hfp] at hfp'
  exact hp (Option.some.inj hfp' ▸ hq)

omit [DecidableEq ι] in
/-- An open file whose stream has ended. -/
theorem not_owned_dangling (hopen : (s.file i).is_open = 1) (hfp : (s.file i).fp = some p) :
    ¬ Owned ⟨s.file, s.live.erase p⟩ := by
  intro h'
  obtain ⟨q, hq, hfp'⟩ := h'.held i hopen
  simp only at hfp'
  rw [hfp] at hfp'
  exact (Finset.mem_erase.mp hq).1 (Option.some.inj hfp').symm

/-! ## One act -/

/-- The files do not change, and each call uses the stream of an open file. -/
theorem kept_uses (h : Owned s) {a : Act ι P} {calls : List (Call P)}
    (hperform : perform s.file a = (s.file, calls))
    (hcalls : ∀ c ∈ calls, c = .uses (s.file i).fp ∧ (s.file i).is_open ≠ 0)
    (hanswered : Answered a) : Kept s a := by
  have hlive : ∀ l : List (Call P), (∀ c ∈ l, c = .uses (s.file i).fp ∧ (s.file i).is_open ≠ 0) →
      l.foldl call_streams s.live = s.live ∧ Clean s.live l := by
    intro l hl
    induction l with
    | nil => exact ⟨rfl, trivial⟩
    | cons c rest ih =>
      obtain ⟨hc, hrest⟩ := List.forall_mem_cons.mp hl
      obtain ⟨rfl, hopen⟩ := hc
      obtain ⟨hfold, hclean⟩ := ih hrest
      have hflag := h.flag i
      exact ⟨hfold, h.held i (by omega), hclean⟩
  obtain ⟨hfold, hclean⟩ := hlive calls hcalls
  have hafter : after s a = s := by
    unfold after
    rw [hperform]
    simp only [hfold]
  refine ⟨?_, ?_, hanswered⟩
  · rw [hafter]
    exact h
  · rw [hperform]
    exact hclean

theorem kept_read (h : Owned s) (buf : Bool) (size ret_size : Nat) (ferror : Bool) :
    Kept s (.read i buf size ret_size ferror) := by
  refine kept_uses (i := i) h rfl (fun c hc => ?_) trivial
  unfold vf_file_read at hc
  split at hc
  · cases hc
  · split at hc
    · cases hc
    · rename_i hopen
      split at hc
      · exact ⟨by simpa using hc, hopen⟩
      · exact ⟨by simpa using hc, hopen⟩

theorem kept_write (h : Owned s) (buf : Bool) (size ret_size : Nat) :
    Kept s (.write i buf size ret_size) := by
  refine kept_uses (i := i) h rfl (fun c hc => ?_) trivial
  unfold vf_file_write at hc
  split at hc
  · cases hc
  · split at hc
    · cases hc
    · rename_i hopen
      split at hc
      · exact ⟨by simpa using hc, hopen⟩
      · exact ⟨by simpa using hc, hopen⟩

theorem kept_size (h : Owned s) (out_size : Bool) (current : Int) (to_end : Bool) (size : Int)
    (restored : Bool) : Kept s (.size i out_size current to_end size restored) := by
  refine kept_uses (i := i) h rfl (fun c hc => ?_) trivial
  unfold vf_file_size at hc
  split at hc
  · cases hc
  · split at hc
    · cases hc
    · rename_i hopen
      refine ⟨?_, hopen⟩
      split at hc
      · simpa using hc
      · split at hc
        · simpa using hc
        · split at hc
          · simpa using hc
          · split at hc <;> simpa using hc

theorem kept_seek (h : Owned s) (sought : Bool) : Kept s (.seek i sought) := by
  refine kept_uses (i := i) h rfl (fun c hc => ?_) trivial
  unfold vf_file_seek at hc
  split at hc
  · cases hc
  · exact ⟨by simpa using hc, ‹_›⟩

theorem kept_tell (h : Owned s) (out_pos : Bool) (pos : Int) : Kept s (.tell i out_pos pos) := by
  refine kept_uses (i := i) h rfl (fun c hc => ?_) trivial
  unfold vf_file_tell at hc
  split at hc
  · cases hc
  · split at hc
    · cases hc
    · rename_i hopen
      split at hc
      · exact ⟨by simpa using hc, hopen⟩
      · exact ⟨by simpa using hc, hopen⟩

omit [DecidableEq P] in
/-- A stream that an act opens is not live before it. -/
theorem Possible.fresh {a : Act ι P} (h : Possible s a)
    (hopens : .fopen (some p) ∈ (perform s.file a).2) : p ∉ s.live :=
  fun hp => h p hp hopens

theorem kept_open (h : Owned s) (path mode : Bool) (opened : Option P)
    (hpossible : Possible s (.open_file i path mode opened)) :
    Kept s (.open_file i path mode opened) := by
  have hself : Function.update s.file i (s.file i) = s.file := Function.update_eq_self i _
  have hflag := h.flag i
  by_cases hargs : (!path || !mode) = true
  · have hperform : perform s.file (.open_file i path mode opened) = (s.file, []) := by
      simp only [perform, vf_file_open, hargs, if_true, hself]
    exact kept_uses (i := i) h hperform nofun trivial
  · by_cases hopen : (s.file i).is_open = 1
    · have hperform : perform s.file (.open_file i path mode opened) = (s.file, []) := by
        simp only [perform, vf_file_open, hargs, hopen, if_true, if_false, hself,
          Bool.false_eq_true]
      exact kept_uses (i := i) h hperform nofun trivial
    · have hclosed : (s.file i).is_open = 0 := by omega
      cases opened with
      | none =>
        have hperform : perform s.file (.open_file i path mode none) =
            (Function.update s.file i { s.file i with fp := none }, [.fopen none]) := by
          simp only [perform, vf_file_open, hargs, hopen, if_false, Bool.false_eq_true]
        refine ⟨?_, ?_, trivial⟩
        · unfold after
          rw [hperform]
          exact owned_null h hclosed
        · rw [hperform]
          exact ⟨trivial, trivial⟩
      | some p =>
        have hperform : perform s.file (.open_file i path mode (some p)) =
            (Function.update s.file i ⟨some p, 1⟩, [.fopen (some p)]) := by
          simp only [perform, vf_file_open, hargs, hopen, if_false, Bool.false_eq_true]
        have hp : p ∉ s.live := hpossible.fresh (hperform ▸ List.mem_singleton_self _)
        refine ⟨?_, ?_, trivial⟩
        · unfold after
          rw [hperform]
          exact owned_open h hclosed hp
        · rw [hperform]
          exact ⟨trivial, trivial⟩

/-- A failed `fclose` leaves the file open, and its stream has ended. -/
theorem kept_close (h : Owned s) (closed : Bool) :
    Kept s (.close i closed) ↔ Sound s (.close i closed) := by
  have hself : Function.update s.file i (s.file i) = s.file := Function.update_eq_self i _
  have hflag := h.flag i
  by_cases hclosed : (s.file i).is_open = 0
  · have hperform : perform s.file (.close i closed) = (s.file, []) := by
      simp only [perform, vf_file_close, hclosed, if_true, hself]
    refine iff_of_true (kept_uses (i := i) h hperform nofun trivial) fun hopen => ?_
    rw [hclosed] at hopen
    cases hopen
  · have hopen : (s.file i).is_open = 1 := by omega
    obtain ⟨p, hp, hfp⟩ := h.held i hopen
    cases closed with
    | false =>
      have hperform : perform s.file (.close i false) = (s.file, [.fclose (some p)]) := by
        simp only [perform, vf_file_close, hclosed, if_false, Bool.not_false, if_true, hself, hfp]
      refine iff_of_false (fun hkept => ?_) fun hsound => nomatch hsound hopen
      have howned := hkept.owned
      unfold after at howned
      rw [hperform] at howned
      exact not_owned_dangling hopen hfp howned
    | true =>
      have hperform : perform s.file (.close i true) =
          (Function.update s.file i ⟨none, 0⟩, [.fclose (some p)]) := by
        simp only [perform, vf_file_close, hclosed, if_false, Bool.not_true, Bool.false_eq_true,
          hfp]
      refine iff_of_true ⟨?_, ?_, trivial⟩ fun _ => rfl
      · unfold after
        rw [hperform]
        exact owned_close h hopen hfp
      · rw [hperform]
        exact ⟨⟨p, hp, rfl⟩, trivial⟩

section
variable {a : Act ι P}

/-- No stream is opened. -/
theorem kept_without (h : Owned s) {calls : List (Call P)}
    (hcalls : calls = [] ∨ calls = [.fopen none]) (hperform : perform s.file a = (s.file, calls))
    (hanswered : Answered a) : Kept s a := by
  have hafter : after s a = s := by
    unfold after
    rw [hperform]
    rcases hcalls with rfl | rfl <;> rfl
  refine ⟨?_, ?_, hanswered⟩
  · rw [hafter]
    exact h
  · rw [hperform]
    rcases hcalls with rfl | rfl
    · trivial
    · exact ⟨trivial, trivial⟩

/-- A stream that is opened, and not closed. -/
theorem not_kept_leak (h : Owned s) (hpossible : Possible s a) {uses : List (Call P)}
    (hperform : perform s.file a = (s.file, .fopen (some p) :: uses))
    (huses : uses = [] ∨ uses = [.uses (some p)]) : ¬ Kept s a := by
  intro hkept
  have hp : p ∉ s.live := hpossible.fresh (hperform ▸ List.mem_cons_self)
  have howned := hkept.owned
  unfold after at howned
  rw [hperform] at howned
  rcases huses with rfl | rfl
  · exact not_owned_leak h hp howned
  · exact not_owned_leak h hp howned

/-- A stream that is opened, used and closed. -/
theorem kept_moved (h : Owned s) (hpossible : Possible s a)
    (hperform : perform s.file a =
      (s.file, [.fopen (some p), .uses (some p), .fclose (some p)]))
    (hanswered : Answered a) : Kept s a := by
  have hp : p ∉ s.live := hpossible.fresh (hperform ▸ List.mem_cons_self)
  have hafter : after s a = s := by
    unfold after
    rw [hperform]
    simp [call_streams, Finset.erase_insert hp]
  refine ⟨?_, ?_, hanswered⟩
  · rw [hafter]
    exact h
  · rw [hperform]
    have hmem := Finset.mem_insert_self p s.live
    exact ⟨trivial, ⟨p, hmem, rfl⟩, ⟨p, hmem, rfl⟩, trivial⟩

end

theorem kept_exists (h : Owned s) (path : Bool) (out_exists : Option Int) (opened : Option P)
    (hpossible : Possible s (.file_exists path out_exists opened)) :
    Kept s (.file_exists path out_exists opened) ↔
      Sound s (.file_exists path out_exists opened) := by
  cases path with
  | false => exact iff_of_true (kept_without h (.inl rfl) rfl trivial) nofun
  | true =>
    cases out_exists with
    | none => exact iff_of_true (kept_without h (.inl rfl) rfl trivial) nofun
    | some v =>
      cases opened with
      | none =>
        refine iff_of_true (kept_without h (.inr rfl) rfl ?_) fun _ _ => rfl
        simp [Answered, vf_file_exists]
      | some p =>
        refine iff_of_false (not_kept_leak h hpossible rfl (.inl rfl)) fun hsound => ?_
        cases hsound rfl rfl

theorem kept_write_to_file (h : Owned s) (fb : vf_framebuffer_t)
    (stem : Option (List Char)) (opened : Option P) (f : FILE)
    (hpossible : Possible s (.write_to_file fb stem opened f)) :
    Kept s (.write_to_file fb stem opened f) ↔
      Sound s (.write_to_file fb stem opened f) := by
  cases stem with
  | none => exact iff_of_true (kept_without h (.inl rfl) rfl trivial) nofun
  | some pre =>
    by_cases hlong : (filename fb pre).length ≥ FB_FILENAME_MAX_LEN
    · refine iff_of_true (kept_without h (.inl rfl) ?_ trivial) ?_
      · simp only [perform, vf_framebuffer_write_to_file, hlong, if_true]
      · rintro ⟨p, hp, hshort⟩
        cases hp
        omega
    · cases opened with
      | none =>
        refine iff_of_true (kept_without h (.inr rfl) ?_ trivial) nofun
        simp only [perform, vf_framebuffer_write_to_file, hlong, if_false]
      | some p =>
        have hgoes : ∃ q, some pre = some q ∧ (filename fb q).length < FB_FILENAME_MAX_LEN :=
          ⟨pre, rfl, by omega⟩
        have hwhole := write_to_fptr_success fb f 0
        rcases hrc : framebuffer.vf_framebuffer_write_to_fptr fb f 0 with ⟨rc, f', w⟩
        rw [hrc] at hwhole
        by_cases hok : rc = .VF_SUCCESS
        · refine iff_of_true (kept_moved (p := p) h hpossible ?_ trivial) fun _ _ => hwhole.mp hok
          simp only [perform, vf_framebuffer_write_to_file, hlong, if_false, hrc, hok, ne_eq,
            not_true_eq_false]
        · refine iff_of_false (not_kept_leak (p := p) h hpossible ?_ (.inr rfl)) fun hsound =>
            hok (hwhole.mpr (hsound hgoes rfl))
          simp only [perform, vf_framebuffer_write_to_file, hlong, if_false, hrc, hok, ne_eq,
            not_false_eq_true, if_true]

theorem kept_read_from_file (h : Owned s) (fb : vf_framebuffer_t) (filename : Bool)
    (opened : Option P) (f : FILE) (hpossible : Possible s (.read_from_file fb filename opened f)) :
    Kept s (.read_from_file fb filename opened f) ↔
      Sound s (.read_from_file fb filename opened f) := by
  cases filename with
  | false => exact iff_of_true (kept_without h (.inl rfl) rfl trivial) nofun
  | true =>
    cases opened with
    | none => exact iff_of_true (kept_without h (.inr rfl) rfl trivial) nofun
    | some p =>
      have hwhole := read_from_fptr_success fb f 0
      rcases hrc : framebuffer.vf_framebuffer_read_from_fptr fb f 0 with ⟨rc, fb', f', r⟩
      rw [hrc] at hwhole
      by_cases hok : rc = .VF_SUCCESS
      · refine iff_of_true (kept_moved (p := p) h hpossible ?_ trivial) fun _ _ => hwhole.mp hok
        simp only [perform, vf_framebuffer_read_from_file, hrc, hok, ne_eq, not_true_eq_false,
          if_false, Bool.not_true, Bool.false_eq_true]
      · refine iff_of_false (not_kept_leak (p := p) h hpossible ?_ (.inr rfl)) fun hsound =>
          hok (hwhole.mpr (hsound rfl rfl))
        simp only [perform, vf_framebuffer_read_from_file, hrc, hok, ne_eq, not_false_eq_true,
          if_true, Bool.not_true, Bool.false_eq_true, if_false]

/-- An act keeps the streams just if it is sound. -/
theorem kept_iff_sound (h : Owned s) {a : Act ι P} (hpossible : Possible s a) :
    Kept s a ↔ Sound s a := by
  cases a with
  | open_file i path mode opened =>
    exact iff_of_true (kept_open h path mode opened hpossible) trivial
  | close i closed => exact kept_close h closed
  | read i buf size ret_size ferror =>
    exact iff_of_true (kept_read h buf size ret_size ferror) trivial
  | write i buf size ret_size => exact iff_of_true (kept_write h buf size ret_size) trivial
  | size i out_size current to_end size restored =>
    exact iff_of_true (kept_size h out_size current to_end size restored) trivial
  | seek i sought => exact iff_of_true (kept_seek h sought) trivial
  | tell i out_pos pos => exact iff_of_true (kept_tell h out_pos pos) trivial
  | file_exists path out_exists opened => exact kept_exists h path out_exists opened hpossible
  | write_to_file fb stem opened f =>
    exact kept_write_to_file h fb stem opened f hpossible
  | read_from_file fb filename opened f =>
    exact kept_read_from_file h fb filename opened f hpossible

theorem step_possible {a : Act ι P} {s' : St ι P} (h : step s a = some s') :
    Possible s a ∧ s' = after s a := by
  unfold step at h
  split at h
  · exact ⟨‹_›, (Option.some.inj h).symm⟩
  · cases h

omit [DecidableEq ι] [DecidableEq P] in
theorem owned_start : Owned (St.start : St ι P) := by
  refine ⟨fun _ => Nat.zero_le 1, fun _ h => ?_, fun p hp => ?_⟩
  · cases h
  · cases Finset.notMem_empty p hp

end

/-! ## The law -/

section
variable [DecidableEq ι] [DecidableEq P]

/-- Over any run, no stream is lost, no stream is closed twice and each file is reported as it
is, just if each act is sound. -/
theorem each_stream_has_one_owner_just_if_each_call_is_sound {acts : List (Act ι P)} {t : St ι P}
    (hrun : run step St.start acts = some t) :
    Along step Kept St.start acts ↔ Along step Sound St.start acts := by
  refine along_iff (I := Owned) (fun s a s' howned hstep => ?_) (fun s a s' _ hok hstep => ?_)
    owned_start hrun
  · exact kept_iff_sound howned (step_possible hstep).1
  · obtain ⟨-, rfl⟩ := step_possible hstep
    exact hok.owned

end

/-- A frame of four pixels. -/
def four_pixels : vf_framebuffer_t :=
  (framebuffer.vf_framebuffer_alloc framebuffer.zeroed ⟨2, 2, .VF_PIXEL_FMT_YUV420P⟩ true).2

/-- Two files are open at once, while a frame is written to a third and read from a fourth. -/
def two_files : List (Act Bool Nat) :=
  [.open_file false true true (some 3), .open_file true true true (some 4),
    .write_to_file four_pixels (some "frame".toList) (some 5) ⟨[], 0, none⟩, .close false true,
    .read_from_file four_pixels true (some 3) ⟨[1, 2, 3, 4, 5, 6], 0, none⟩,
    .file_exists true (some 0) none, .close true true]

theorem four_pixels_rows : Rows four_pixels (frame_planes four_pixels) ∧
    row_bytes four_pixels (frame_planes four_pixels) = 6 := by
  have hplanes : frame_planes four_pixels = [0, 1, 2] := by decide +kernel
  rw [hplanes]
  exact ⟨by unfold Rows; decide +kernel, by decide +kernel⟩

theorem two_files_have_their_streams : ∃ t,
    run step (St.start : St Bool Nat) two_files = some t ∧ Along step Kept St.start two_files := by
  have hsome : (run step (St.start : St Bool Nat) two_files).isSome = true := by decide +kernel
  obtain ⟨t, hrun⟩ := Option.isSome_iff_exists.mp hsome
  obtain ⟨hrows, hbytes⟩ := four_pixels_rows
  have hsound : ∀ (s : St Bool Nat), ∀ a ∈ two_files, Sound s a := by
    intro s a ha
    simp only [two_files, List.mem_cons, List.not_mem_nil, or_false] at ha
    rcases ha with rfl | rfl | rfl | rfl | rfl | rfl | rfl
    · trivial
    · trivial
    · exact fun _ _ => ⟨rfl, hrows, by simp [Fits]⟩
    · exact fun _ => rfl
    · exact fun _ _ => ⟨rfl, hrows, hbytes.le⟩
    · exact fun _ _ => rfl
    · exact fun _ => rfl
  exact ⟨t, hrun,
    (each_stream_has_one_owner_just_if_each_call_is_sound hrun).mpr (along_of_mem hsound)⟩

/-- The file can be opened, so `vf_file_exists` returns an error and keeps the stream. -/
theorem a_file_that_exists_is_an_error :
    ¬ ∀ (acts : List (Act Bool Nat)) (t : St Bool Nat), run step St.start acts = some t →
      Along step Kept St.start acts := by
  intro h
  have hall := h [.file_exists true (some 0) (some 3)] _ rfl
  have hanswer : vf_file_exists true (some 0) (some 3) =
      (.VF_FILE_ERR, some 0, [.fopen (some 3)]) := rfl
  have hexists := hall.1.answered.mpr rfl
  rw [hanswer] at hexists
  cases hexists.1

end vision_flow.file_streams
