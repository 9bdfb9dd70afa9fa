-- The output files of the split mode (vf-file-unit.c). Each frame of a set goes to a file of
-- its own, which is named after the text before the last dot of the frame's name. Two frames
-- with one such text, or whose paths lead to one file, have one file, and the later frame takes
-- the place of the earlier one.
import VisionFlow.ParserLayouts
import VisionFlow.ParserPlaces
import VisionFlow.ScenarioRuns

namespace vision_flow.split_output

open programs units file_units
open framebuffer (vf_framebuffer_t at_end)
open parser (Text vf_frame_set_t vf_frame_info_t VF_PARSER_MAX_FULL_PATH_LEN
  VF_PARSER_MAX_FILE_NAME_LEN)
open scenarios (closed DistinctNames)

/-! ## The code -/

def VF_FILE_UNIT_OUT_PATH_MAX : Nat := 1024
def VF_FILE_UNIT_EXT_MAX_LEN : Nat := 16
def VF_FILE_BASE_PATH_MAX_LEN : Nat := 128

/-- `snprintf` of a text into an array of this size: what does not fit is lost. -/
def snprintf (size : Nat) (text : Text) : Text := text.take (size - 1)

/-- What `vf_file_unit_init` keeps of its configuration. -/
def vf_file_unit_init (cfg : vf_file_unit_cfg_t) : vf_file_unit_cfg_t :=
  { cfg with
    output_dir := snprintf VF_PARSER_MAX_FULL_PATH_LEN cfg.output_dir
    output_extension := snprintf VF_FILE_UNIT_EXT_MAX_LEN cfg.output_extension }

/-- The lines of `vf_file_unit_send_data` that make the path of an output file. -/
def split_path (data : vf_file_unit_cfg_t) (frame_name : Text) : Text :=
  let base := snprintf VF_FILE_BASE_PATH_MAX_LEN frame_name
  snprintf VF_FILE_UNIT_OUT_PATH_MAX
    (data.output_dir ++ '/' :: base_name base ++ data.output_extension)

/-- The output files of the frames, in their order. -/
def split_paths (data : vf_file_unit_cfg_t) : List Text :=
  data.frame_set.frames.map fun frame => split_path data frame.file_name

/-! ## Runs of the output unit -/

/-- The bytes of a frame in a file, if it can be written at all. -/
def shown (fb : vf_framebuffer_t) : List UInt8 :=
  match frame_blocks.vf_framebuffer_write_to_fptr fb (at_end []) 0 with
  | some (_, out, _) => out.bytes
  | none => []

/-- The other units have run, and `fb` is the frame that the output unit got. They have no
part in its file and its counter. -/
structure Handed (m m' : Mem) (fb : vf_framebuffer_t) : Prop where
  files : m'.files = m.files
  file : m'.file .file_out = m.file .file_out
  frame_idx : m'.frame_idx .file_out = m.frame_idx .file_out
  frame : ∃ f, m'.ptr .file_out .current_fb = some f ∧ m'.fb f = fb

/-- The output unit has got these frames one after another, and has sent each with success. -/
inductive Sent [Disk] (data : vf_file_unit_cfg_t) (pool : Option PoolId) :
    Mem → List vf_framebuffer_t → Mem → Prop
  | nil {m : Mem} : Sent data pool m [] m
  | cons {m m1 m2 m3 : Mem} {fb : vf_framebuffer_t} {rest : List vf_framebuffer_t} :
      Handed m m1 fb →
      exec (do_unit data .file_out) (vf_file_unit_send_data pool) m1 = some (.VF_SUCCESS, m2) →
      Sent data pool m2 rest m3 → Sent data pool m (fb :: rest) m3

/-- The output unit after its `vf_file_unit_init` in split mode. -/
structure Fresh (m : Mem) : Prop where
  file : m.file .file_out = .zeroed
  frame_idx : m.frame_idx .file_out = 0

/-- After each run over the frames of the set, each frame is in its file. -/
def KeepsEachFrame [Disk] (data : vf_file_unit_cfg_t) : Prop :=
  ∀ (pool : Option PoolId) (m m' : Mem) (fbs : List vf_framebuffer_t), Fresh m →
    Sent data pool m fbs m' → fbs.length = data.frame_set.frames.length →
    ∀ (k : Nat) (path : Text) (fb : vf_framebuffer_t), (split_paths data)[k]? = some path →
      fbs[k]? = some fb → closed .file_out m' (Disk.place path) = some (shown fb)

/-! ## One frame -/

/-- The unit's file is as it was allocated, or open. -/
def Openable (m : Mem) : Prop :=
  m.file .file_out = .zeroed ∨ ∃ fp, m.file .file_out = ⟨some fp, true⟩

/-- The file of the frame that the output unit is at. -/
def path_at (data : vf_file_unit_cfg_t) (i : Nat) : Text :=
  out_path data (frame_at data.frame_set i).file_name

def place_at [Disk] (data : vf_file_unit_cfg_t) (i : Nat) : Place := Disk.place (path_at data i)

section
variable [Disk] {data : vf_file_unit_cfg_t} {pool : Option PoolId} {m m' : Mem} {f : Frame}

/-- The output file of the frame is opened, and is empty. -/
theorem open_output.spec (hsplit : data.split_output = true) (hfile : Openable m)
    (hopen : Disk.writable (place_at data (m.frame_idx .file_out)) = true) :
    do_unit data .file_out .open_output m = some (.VF_SUCCESS, m.set_file .file_out
      ⟨some ⟨place_at data (m.frame_idx .file_out), true, at_end []⟩, true⟩
      (Function.update (closed .file_out m) (place_at data (m.frame_idx .file_out))
        (some []))) := by
  have hfopen : fopen (closed .file_out m) (path_at data (m.frame_idx .file_out)) true =
      some (⟨place_at data (m.frame_idx .file_out), true, at_end []⟩,
        Function.update (closed .file_out m) (place_at data (m.frame_idx .file_out))
          (some [])) := by
    unfold place_at at hopen ⊢
    simp only [fopen, if_true, hopen]
    rfl
  have hreopen := scenarios.reopen.spec hfile hfopen
  unfold path_at at hreopen
  simp only [do_unit, hsplit, if_true, hreopen]

variable (pool) in
/-- The frame is in its file, and the other files are as they were. -/
theorem vf_file_unit_send_data.spec (hsplit : data.split_output = true) (hfile : Openable m)
    (hptr : m.ptr .file_out .current_fb = some f)
    (hopen : Disk.writable (place_at data (m.frame_idx .file_out)) = true)
    {rc : vf_err_t} {out : framebuffer.FILE} {n : Nat}
    (hw : frame_blocks.vf_framebuffer_write_to_fptr (m.fb f) (at_end []) 0 = some (rc, out, n)) :
    ∃ m', exec (do_unit data .file_out) (vf_file_unit_send_data pool) m = some (rc, m') ∧
      Openable m' ∧ m'.frame_idx .file_out = m.frame_idx .file_out + 1 ∧
      closed .file_out m' = Function.update (closed .file_out m)
        (place_at data (m.frame_idx .file_out)) (some (shown (m.fb f))) ∧
      m'.file .file_in = m.file .file_in := by
  -- the stream to the new file
  let fp : Stream := ⟨place_at data (m.frame_idx .file_out), true, at_end []⟩
  let files := Function.update (closed .file_out m) fp.place (some [])
  let m1 := m.set_file .file_out ⟨some fp, true⟩ files
  have hopen : do_unit data .file_out .open_output m = some (.VF_SUCCESS, m1) :=
    open_output.spec hsplit hfile hopen
  let m2 := (m1.set_stream .file_out fp out).next_frame .file_out
  have hwrite : do_unit data .file_out (.write .current_fb) m1 = some (rc, m2) := by
    have hptr1 : m1.ptr .file_out .current_fb = some f := hptr
    have hfp : (m1.file .file_out).fp = some fp := by simp [m1, Mem.set_file]
    have hfb : m1.fb f = m.fb f := rfl
    have hone : do_write .file_out .current_fb m1 = some (rc, m1.set_stream .file_out fp out) := by
      simp only [do_write, hptr1, hfp, hfb, fp, hw, Option.map_some]
    simp only [do_unit, hone, Option.map_some]
    rfl
  have hload : do_unit data .file_out (.load .current_fb) m = some (some f, m) :=
    congrArg (fun o => some (o, m)) hptr
  -- what is left of the run leaves the file and the counter alone
  have hlast : ∀ m3 : Mem, m3.file = m2.file → m3.files = m2.files →
      m3.frame_idx = m2.frame_idx → Openable m3 ∧
      m3.frame_idx .file_out = m.frame_idx .file_out + 1 ∧
      closed .file_out m3 = Function.update (closed .file_out m)
        (place_at data (m.frame_idx .file_out)) (some (shown (m.fb f))) ∧
      m3.file .file_in = m.file .file_in := by
    intro m3 hfile3 hfiles3 hidx3
    have hstream : m3.file .file_out = ⟨some { fp with file := out }, true⟩ := by
      simp [hfile3, m2, m1, Mem.next_frame, Mem.set_stream, Mem.set_file]
    have hfiles : m3.files = files := hfiles3
    refine ⟨Or.inr ⟨_, hstream⟩, ?_, ?_, ?_⟩
    · simp [hidx3, m2, m1, Mem.next_frame, Mem.set_stream, Mem.set_file]
    · unfold closed
      rw [hstream, hfiles]
      simp only [vf_file_close, fclose, Bool.not_true, Bool.false_eq_true, if_false, fp, if_true,
        files, Function.update_idem, shown, hw, closed]
    · simp [hfile3, m2, m1, Mem.next_frame, Mem.set_stream, Mem.set_file]
  unfold vf_file_unit_send_data
  cases pool with
  | none =>
    refine ⟨m2.put .file_out .current_fb none, ?_, hlast _ rfl rfl rfl⟩
    simp [hload, hopen, hwrite]
    rfl
  | some p =>
    let released := buf_pool.vf_buf_pool_release (m2.pool p) (m2.ptr .file_out .current_fb)
    refine ⟨(m2.set_pool p released.2.1).put .file_out .current_fb none, ?_,
      hlast _ rfl rfl rfl⟩
    have hrelease : do_unit data .file_out (.release p .current_fb) m2 =
        some (released.1, m2.set_pool p released.2.1) := rfl
    simp [hload, hopen, hwrite, hrelease]
    rfl

/-- A file that does not open is an error. -/
theorem reopen.refused {u : FileUnit} {path : Text} {writes : Bool}
    (h : m.file u = .zeroed ∨ ∃ fp, m.file u = ⟨some fp, true⟩)
    (hopen : fopen (closed u m) path writes = none) :
    ∃ m', reopen u path writes m = (.VF_FILE_ERR, m') := by
  unfold closed at hopen
  unfold reopen
  rcases h with hz | ⟨old, hold⟩
  · rw [hz] at hopen ⊢
    simp only [vf_file_t.zeroed, vf_file_close, Bool.not_false, if_true] at hopen
    simp [vf_file_t.zeroed, vf_file_open, hopen]
  · rw [hold] at hopen ⊢
    simp only [vf_file_close, Bool.not_true, Bool.false_eq_true, if_false] at hopen
    simp [vf_file_close, vf_file_open, hopen]

/-- A frame that is sent with success was written, to a file that opened. -/
theorem vf_file_unit_send_data.opened (hsplit : data.split_output = true) (hfile : Openable m)
    (hptr : m.ptr .file_out .current_fb = some f)
    (h : exec (do_unit data .file_out) (vf_file_unit_send_data pool) m = some (.VF_SUCCESS, m')) :
    Disk.writable (place_at data (m.frame_idx .file_out)) = true ∧
      ∃ rc out n, frame_blocks.vf_framebuffer_write_to_fptr (m.fb f) (at_end []) 0 =
        some (rc, out, n) := by
  have hload : do_unit data .file_out (.load .current_fb) m = some (some f, m) :=
    congrArg (fun o => some (o, m)) hptr
  by_cases hopen : Disk.writable (place_at data (m.frame_idx .file_out)) = true
  · refine ⟨hopen, ?_⟩
    rcases hw : frame_blocks.vf_framebuffer_write_to_fptr (m.fb f) (at_end []) 0 with
      _ | ⟨rc, out, n⟩
    · -- a write that leaves the block has no result
      let fp : Stream := ⟨place_at data (m.frame_idx .file_out), true, at_end []⟩
      let m1 := m.set_file .file_out ⟨some fp, true⟩
        (Function.update (closed .file_out m) fp.place (some []))
      have hopened : do_unit data .file_out .open_output m = some (.VF_SUCCESS, m1) :=
        open_output.spec hsplit hfile hopen
      have hptr1 : m1.ptr .file_out .current_fb = some f := hptr
      have hfp : (m1.file .file_out).fp = some fp := by simp [m1, Mem.set_file]
      have hfb : m1.fb f = m.fb f := rfl
      have hwrite : do_unit data .file_out (.write .current_fb) m1 = none := by
        simp only [do_unit, do_write, hptr1, hfp, hfb, fp, hw, Option.map_none]
      unfold vf_file_unit_send_data at h
      simp [hload, hopened, hwrite] at h
    · exact ⟨rc, out, n, rfl⟩
  · obtain ⟨m1, hrefused⟩ : ∃ m1, reopen .file_out (path_at data (m.frame_idx .file_out)) true m =
        (.VF_FILE_ERR, m1) := by
      apply reopen.refused hfile
      unfold place_at at hopen
      simp [fopen, hopen]
    have hopened : do_unit data .file_out .open_output m = some (.VF_FILE_ERR, m1) := by
      unfold path_at at hrefused
      simp only [do_unit, hsplit, if_true, hrefused]
    have hnull : ∀ m2, do_unit data .file_out (.set_null .current_fb) m2 =
        some ((), m2.put .file_out .current_fb none) := fun _ => rfl
    unfold vf_file_unit_send_data at h
    cases pool with
    | none => simp [hload, hopened, hnull] at h
    | some p =>
      let released := buf_pool.vf_buf_pool_release (m1.pool p) (m1.ptr .file_out .current_fb)
      have hrelease : do_unit data .file_out (.release p .current_fb) m1 =
          some (released.1, m1.set_pool p released.2.1) := rfl
      simp [hload, hopened, hrelease, hnull] at h

end

/-! ## Files one after another -/

/-- The files after these were written. -/
def stored : Files → List (Place × List UInt8) → Files
  | files, [] => files
  | files, (place, out) :: rest => stored (Function.update files place (some out)) rest

theorem stored_of_not_named {files : Files} {ws : List (Place × List UInt8)} {place : Place}
    (h : place ∉ ws.map (·.1)) : stored files ws place = files place := by
  induction ws generalizing files with
  | nil => rfl
  | cons w rest ih =>
    simp only [List.map_cons, List.mem_cons, not_or] at h
    rw [stored, ih h.2, Function.update_of_ne h.1]

/-- A file that is written once keeps what was written. -/
theorem stored_once {files : Files} {ws : List (Place × List UInt8)} {place : Place}
    {out : List UInt8} (hnodup : (ws.map (·.1)).Nodup) (hmem : (place, out) ∈ ws) :
    stored files ws place = some out := by
  induction ws generalizing files with
  | nil => cases hmem
  | cons w rest ih =>
    rw [List.map_cons, List.nodup_cons] at hnodup
    rcases List.mem_cons.mp hmem with rfl | hmem
    · rw [stored, stored_of_not_named hnodup.1, Function.update_self]
    · exact ih hnodup.2 hmem

section
variable [Disk] {data : vf_file_unit_cfg_t} {pool : Option PoolId} {m m' : Mem}
  {fbs : List vf_framebuffer_t}

/-- A frame that is handed over and sent with success is in its file, which opened. -/
theorem Handed.sent {m1 m2 : Mem} {fb : vf_framebuffer_t} (hand : Handed m m1 fb)
    (hsplit : data.split_output = true) (hfile : Openable m)
    (hsend : exec (do_unit data .file_out) (vf_file_unit_send_data pool) m1 =
      some (.VF_SUCCESS, m2)) :
    Disk.writable (place_at data (m.frame_idx .file_out)) = true ∧ Openable m2 ∧
      m2.frame_idx .file_out = m.frame_idx .file_out + 1 ∧
      closed .file_out m2 = Function.update (closed .file_out m)
        (place_at data (m.frame_idx .file_out)) (some (shown fb)) ∧
      m2.file .file_in = m1.file .file_in := by
  obtain ⟨f, hptr, hfb⟩ := hand.frame
  have hfile1 : Openable m1 := by
    unfold Openable
    rw [hand.file]
    exact hfile
  have hclosed1 : closed .file_out m1 = closed .file_out m := by
    unfold closed
    rw [hand.file, hand.files]
  obtain ⟨hopen, rc, out, n, hwrite⟩ := vf_file_unit_send_data.opened hsplit hfile1 hptr hsend
  obtain ⟨m2', hrun, hspec⟩ :=
    vf_file_unit_send_data.spec pool hsplit hfile1 hptr hopen hwrite
  obtain rfl : m2' = m2 := by
    rw [hsend, Option.some.injEq, Prod.mk.injEq] at hrun
    exact hrun.2.symm
  rw [hclosed1, hand.frame_idx, hfb] at hspec
  rw [hand.frame_idx] at hopen
  exact ⟨hopen, hspec⟩

/-- A run stores each frame in its turn. -/
theorem Sent.stores (hsplit : data.split_output = true) (h : Sent data pool m fbs m')
    (hfile : Openable m) : closed .file_out m' = stored (closed .file_out m)
      (((List.range' (m.frame_idx .file_out) fbs.length).map (place_at data)).zip
        (fbs.map shown)) := by
  induction h with
  | nil => rfl
  | @cons m m1 m2 m3 fb rest hand hsend _ ih =>
    obtain ⟨-, hfile2, hidx2, hclosed2, -⟩ := hand.sent hsplit hfile hsend
    rw [ih hfile2, hclosed2, hidx2, List.length_cons, List.range'_succ, List.map_cons,
      List.map_cons, List.zip_cons_cons, stored]

/-- The file of each frame that was sent has opened. -/
theorem Sent.opens (hsplit : data.split_output = true) (h : Sent data pool m fbs m')
    (hfile : Openable m) : ∀ i, m.frame_idx .file_out ≤ i →
      i < m.frame_idx .file_out + fbs.length → Disk.writable (place_at data i) = true := by
  induction h with
  | nil =>
    intro i hle hlt
    simp only [List.length_nil] at hlt
    omega
  | @cons m m1 m2 m3 fb rest hand hsend _ ih =>
    obtain ⟨hopen, hfile2, hidx2, -, -⟩ := hand.sent hsplit hfile hsend
    intro i hle hlt
    rw [List.length_cons] at hlt
    by_cases hi : i = m.frame_idx .file_out
    · rw [hi]
      exact hopen
    · exact ih hfile2 i (by omega) (by omega)

/-- Frames that can be written to files that open can be sent. -/
theorem can_be_sent (hsplit : data.split_output = true) (pool : Option PoolId)
    (hwrites : ∀ fb ∈ fbs, ∃ out n,
      frame_blocks.vf_framebuffer_write_to_fptr fb (at_end []) 0 = some (.VF_SUCCESS, out, n))
    (hopens : ∀ i < m.frame_idx .file_out + fbs.length, Disk.writable (place_at data i) = true)
    (hfile : Openable m) : ∃ m', Sent data pool m fbs m' := by
  induction fbs generalizing m with
  | nil => exact ⟨m, .nil⟩
  | cons fb rest ih =>
    -- the frame is in some slot
    let f : Frame := ⟨.pool_out, 0⟩
    let m1 := (m.set_fb f fb).put .file_out .current_fb (some f)
    have hptr : m1.ptr .file_out .current_fb = some f := by simp [m1, Mem.put]
    have hfb : m1.fb f = fb := by simp [m1, Mem.put, Mem.set_fb]
    have hand : Handed m m1 fb := ⟨rfl, rfl, rfl, f, hptr, hfb⟩
    have hfile1 : Openable m1 := hfile
    obtain ⟨out, n, hwrite⟩ := hwrites fb List.mem_cons_self
    have hopen : Disk.writable (place_at data (m1.frame_idx .file_out)) = true :=
      hopens (m.frame_idx .file_out) (by simp)
    obtain ⟨m2, hrun, hfile2, hidx2, -, -⟩ :=
      vf_file_unit_send_data.spec pool hsplit hfile1 hptr hopen (by rw [hfb]; exact hwrite)
    have hidx : m2.frame_idx .file_out = m.frame_idx .file_out + 1 := hidx2
    obtain ⟨m', hsent⟩ := ih (fun r hr => hwrites r (List.mem_cons_of_mem _ hr))
      (fun i hi => hopens i (by rw [List.length_cons]; omega)) hfile2
    exact ⟨m', .cons hand hrun hsent⟩

end

/-! ## Paths -/

theorem base_name_length (frame_name : Text) :
    (base_name frame_name).length ≤ frame_name.length := by
  unfold base_name
  split
  · have hdrop := (List.dropWhile_suffix (l := frame_name.reverse) (· ≠ '.')).length_le
    rw [List.length_reverse, List.length_drop]
    rw [List.length_reverse] at hdrop
    omega
  · exact Nat.le_refl _

/-- The arrays of the output unit are large enough for each name of the parser. -/
theorem split_path_eq {cfg : vf_file_unit_cfg_t} {frame_name : Text}
    (hshort : frame_name.length < VF_PARSER_MAX_FILE_NAME_LEN) :
    split_path (vf_file_unit_init cfg) frame_name =
      out_path (vf_file_unit_init cfg) frame_name := by
  have hname : snprintf VF_FILE_BASE_PATH_MAX_LEN frame_name = frame_name :=
    List.take_of_length_le (Nat.le_sub_one_of_lt hshort)
  have hbase := base_name_length frame_name
  unfold VF_PARSER_MAX_FILE_NAME_LEN at hshort
  unfold split_path out_path
  simp only [hname]
  refine List.take_of_length_le ?_
  simp only [vf_file_unit_init, snprintf, VF_FILE_UNIT_OUT_PATH_MAX, VF_FILE_UNIT_EXT_MAX_LEN,
    VF_PARSER_MAX_FULL_PATH_LEN, parser.VF_PARSER_MAX_BASE_PATH_LEN, VF_PARSER_MAX_FILE_NAME_LEN,
    List.length_append, List.length_cons, List.length_take]
  omega

/-- The directory and the extension are the same for all frames. -/
theorem around_injective (dir ext : Text) :
    Function.Injective fun base : Text => dir ++ '/' :: base ++ ext := by
  intro a b h
  have hpath : dir ++ '/' :: a = dir ++ '/' :: b := (List.append_left_inj ext).mp h
  exact (List.cons.inj ((List.append_right_inj dir).mp hpath)).2

theorem extracted_short {src out : Text} {max_len : Nat}
    (h : parser.vf_parser_extract_string src max_len = some out) : out.length < max_len := by
  unfold parser.vf_parser_extract_string parser.string_at at h
  simp only [Option.map_eq_some_iff, Option.bind_eq_some_iff] at h
  obtain ⟨⟨text, place⟩, ⟨colon, -, htext⟩, rfl⟩ := h
  split at htext
  · obtain ⟨quote, -, hlen⟩ := Option.bind_eq_some_iff.mp htext
    split at hlen
    · cases hlen
    · cases hlen
      rename_i hshort
      rw [List.length_take]
      omega
  · cases htext

section
variable {file : Option Text} {alloc : parser.Alloc → Bool} {cfg : parser.vf_frames_cfg_t}
  {set : vf_frame_set_t}

/-- The names of a set of the parser fit in their arrays. -/
theorem names_fit (h : parser.vf_parser_load_frames_cfg file alloc = .ok cfg)
    (hset : set ∈ cfg.frame_sets) :
    ∀ frame ∈ set.frames, frame.file_name.length < VF_PARSER_MAX_FILE_NAME_LEN := by
  unfold parser.vf_parser_load_frames_cfg at h
  obtain ⟨sets, hload, hcfg⟩ := parser.bind_ok.mp h
  cases hcfg
  obtain ⟨text, -, hfound, -⟩ := parser.load_places.spec hload
  obtain ⟨found, hmem, rfl⟩ := List.mem_map.mp hset
  obtain ⟨c, c', hturn⟩ := hfound.turn hmem
  obtain ⟨frames, hframes, -, -, hrun⟩ := hturn.frames
  intro frame hframe
  rw [hframes] at hframe
  obtain ⟨found, hmem, rfl⟩ := List.mem_map.mp hframe
  obtain ⟨c, hfound⟩ := hrun.turn hmem
  exact extracted_short hfound.file_name

theorem split_paths_eq {data : vf_file_unit_cfg_t}
    (hpaths : ∀ frame ∈ data.frame_set.frames,
      split_path data frame.file_name = out_path data frame.file_name) :
    split_paths data =
      (List.range' 0 data.frame_set.frames.length).map (path_at data) := by
  refine List.ext_getElem (by simp [split_paths]) fun i hi hi' => ?_
  have hlt : i < data.frame_set.frames.length := by simpa [split_paths] using hi
  have hat : frame_at data.frame_set i = data.frame_set.frames[i] := by
    simp [frame_at, List.getElem?_eq_getElem hlt]
  simp only [split_paths, List.getElem_map, List.getElem_range', path_at, Nat.zero_add,
    Nat.one_mul, hat]
  exact hpaths _ (List.getElem_mem hlt)

/-- The paths are pairwise distinct just if the names are before their last dots. -/
theorem split_paths_nodup_just_if {data : vf_file_unit_cfg_t}
    (hpaths : ∀ frame ∈ data.frame_set.frames,
      split_path data frame.file_name = out_path data frame.file_name) :
    (split_paths data).Nodup ↔ DistinctNames data.frame_set := by
  have hmap : split_paths data =
      (data.frame_set.frames.map fun frame => base_name frame.file_name).map fun base =>
        data.output_dir ++ '/' :: base ++ data.output_extension := by
    rw [List.map_map]
    exact List.map_congr_left hpaths
  unfold DistinctNames
  rw [hmap, List.nodup_map_iff (around_injective _ _)]

end

/-! ## The law -/

/-- A grey frame of one pixel. -/
def grey_pixel (b : UInt8) : vf_framebuffer_t :=
  (framebuffer.vf_framebuffer_alloc framebuffer.zeroed ⟨1, 1, .VF_PIXEL_FMT_RAW8⟩ true).2.holding
    fun _ => b

theorem grey_pixel_written (b : UInt8) :
    (∃ out n, frame_blocks.vf_framebuffer_write_to_fptr (grey_pixel b) (at_end []) 0 =
      some (.VF_SUCCESS, out, n)) ∧ shown (grey_pixel b) = [b] := ⟨⟨_, _, rfl⟩, rfl⟩

/-- The memory of an output unit that has run its `vf_file_unit_init`. -/
def fresh : Mem where
  files := fun _ => none
  initialized := fun _ => true
  pipeline_initialized := true
  pool := fun p => buf_pool.zeroed p
  queue := fun _ => buf_queue.zeroed
  fb := fun _ => framebuffer.zeroed
  conv_ctx := (conversion.vf_conversion_init .VF_PIXEL_FMT_RAW8 .VF_PIXEL_FMT_RGB888).2
  ptr := fun _ _ => none
  file := fun _ => .zeroed
  frame_idx := fun _ => 0

section
variable [Disk] {data : vf_file_unit_cfg_t}

/-- With files of their own the frames are each stored once. -/
theorem keeps_each_frame (hsplit : data.split_output = true)
    (hpaths : split_paths data =
      (List.range' 0 data.frame_set.frames.length).map (path_at data))
    (hnodup : ((split_paths data).map Disk.place).Nodup) : KeepsEachFrame data := by
  intro pool m m' fbs hfresh hsent hlen k path fb hpath hfb
  have hplaces : (split_paths data).map Disk.place =
      (List.range' 0 data.frame_set.frames.length).map (place_at data) := by
    rw [hpaths, List.map_map]
    rfl
  have hstores := hsent.stores hsplit (Or.inl hfresh.file)
  rw [hfresh.frame_idx, hlen, ← hplaces] at hstores
  rw [hstores]
  have hsame : ((split_paths data).map Disk.place).length = (fbs.map shown).length := by
    rw [hplaces, List.length_map, List.length_map, List.length_range', hlen]
  refine stored_once ?_ ?_
  · have hkeys : (((split_paths data).map Disk.place).zip (fbs.map shown)).map (·.1) =
        (split_paths data).map Disk.place := List.map_fst_zip hsame.le
    rwa [hkeys]
  · refine List.mem_of_getElem? (i := k) ?_
    rw [List.getElem?_zip_eq_some, List.getElem?_map, List.getElem?_map, hfb, hpath]
    exact ⟨rfl, rfl⟩

/-- Two frames of one file are not both kept: the run does not depend on what they show. -/
theorem kept_places_nodup (hsplit : data.split_output = true)
    (hpaths : split_paths data =
      (List.range' 0 data.frame_set.frames.length).map (path_at data))
    (hopens : ∀ path ∈ split_paths data, Disk.writable (Disk.place path) = true)
    (h : KeepsEachFrame data) : ((split_paths data).map Disk.place).Nodup := by
  rw [List.nodup_iff_getElem?_ne_getElem?]
  intro i j hij hj hsame
  rw [List.getElem?_map, List.getElem?_map] at hsame
  -- frame `i` is white, and all others are black
  let fbs := (List.range data.frame_set.frames.length).map fun k =>
    grey_pixel (if k = i then 255 else 0)
  have hlen : (split_paths data).length = data.frame_set.frames.length := List.length_map _
  have hfbs : fbs.length = data.frame_set.frames.length := by simp [fbs]
  have hwrites : ∀ fb ∈ fbs, ∃ out n,
      frame_blocks.vf_framebuffer_write_to_fptr fb (at_end []) 0 =
        some (.VF_SUCCESS, out, n) := by
    intro fb hfb
    obtain ⟨k, -, rfl⟩ := List.mem_map.mp hfb
    exact (grey_pixel_written _).1
  have hwritable : ∀ k < fresh.frame_idx .file_out + fbs.length,
      Disk.writable (place_at data k) = true := by
    intro k hk
    refine hopens (path_at data k) ?_
    rw [hpaths]
    refine List.mem_map_of_mem (List.mem_range'_1.mpr ⟨Nat.zero_le k, ?_⟩)
    simpa [fresh, hfbs] using hk
  obtain ⟨m', hsent⟩ :=
    can_be_sent hsplit none hwrites hwritable (Or.inl rfl : Openable fresh)
  have hkept : ∀ k < data.frame_set.frames.length, ∀ path, (split_paths data)[k]? = some path →
      closed .file_out m' (Disk.place path) = some [if k = i then 255 else 0] := by
    intro k hk path hpath
    rw [← (grey_pixel_written _).2]
    refine h none fresh m' fbs ⟨rfl, rfl⟩ hsent hfbs k path _ hpath ?_
    simp [fbs, hk]
  rw [List.length_map, hlen] at hj
  have hpathi := List.getElem?_eq_getElem (show i < (split_paths data).length by omega)
  have hpathj := List.getElem?_eq_getElem (show j < (split_paths data).length by omega)
  have hfirst := hkept i (by omega) _ hpathi
  have hsecond := hkept j hj _ hpathj
  rw [hpathi, hpathj, Option.map_some, Option.map_some, Option.some.injEq] at hsame
  rw [hsame, hsecond, if_pos rfl, if_neg (by omega)] at hfirst
  exact absurd hfirst (by decide)

/-- Different entries of the directory are different files, which open. -/
structure Unlinked (dir : Text) : Prop where
  apart : ∀ a b, paths.Entry a → paths.Entry b →
    Disk.place (dir ++ '/' :: a) = Disk.place (dir ++ '/' :: b) → a = b
  opens : ∀ a, paths.Entry a → Disk.writable (Disk.place (dir ++ '/' :: a)) = true

omit [Disk] in
/-- Each output is an entry of the directory, if the names are entries. -/
theorem output_entry (hpaths : ∀ frame ∈ data.frame_set.frames,
      split_path data frame.file_name = out_path data frame.file_name)
    (hentry : ∀ frame ∈ data.frame_set.frames,
      paths.Entry (base_name frame.file_name ++ data.output_extension))
    {path : Text} (hpath : path ∈ split_paths data) :
    ∃ entry, paths.Entry entry ∧ path = data.output_dir ++ '/' :: entry := by
  obtain ⟨frame, hframe, rfl⟩ := List.mem_map.mp hpath
  refine ⟨_, hentry frame hframe, ?_⟩
  rw [hpaths frame hframe, out_path, List.append_assoc]
  rfl

/-- In such a directory the files of entries are distinct just if the paths are. -/
theorem Unlinked.places_nodup (hdir : Unlinked data.output_dir)
    (hpaths : ∀ frame ∈ data.frame_set.frames,
      split_path data frame.file_name = out_path data frame.file_name)
    (hentry : ∀ frame ∈ data.frame_set.frames,
      paths.Entry (base_name frame.file_name ++ data.output_extension)) :
    ((split_paths data).map Disk.place).Nodup ↔ (split_paths data).Nodup := by
  refine ⟨List.Nodup.of_map _, List.Nodup.map_on ?_⟩
  intro a ha b hb hsame
  obtain ⟨x, hx, rfl⟩ := output_entry hpaths hentry ha
  obtain ⟨y, hy, rfl⟩ := output_entry hpaths hentry hb
  rw [hdir.apart x y hx hy hsame]

/-- Each frame is kept just if the files are different, unless one of them does not open. -/
theorem keeps_each_frame_just_if (hsplit : data.split_output = true)
    (hpaths : split_paths data =
      (List.range' 0 data.frame_set.frames.length).map (path_at data)) :
    KeepsEachFrame data ↔
      ((∀ path ∈ split_paths data, Disk.writable (Disk.place path) = true) →
        ((split_paths data).map Disk.place).Nodup) := by
  refine ⟨fun h hopens => kept_places_nodup hsplit hpaths hopens h, ?_⟩
  intro h pool m m' fbs hfresh hsent hlen
  have hopens : ∀ path ∈ split_paths data, Disk.writable (Disk.place path) = true := by
    intro path hpath
    rw [hpaths] at hpath
    obtain ⟨i, hi, rfl⟩ := List.mem_map.mp hpath
    have hlt := (List.mem_range'_1.mp hi).2
    refine hsent.opens hsplit (Or.inl hfresh.file) i ?_ ?_
    · rw [hfresh.frame_idx]
      exact Nat.zero_le i
    · rw [hfresh.frame_idx, hlen]
      exact hlt
  exact keeps_each_frame hsplit hpaths (h hopens) pool m m' fbs hfresh hsent hlen

end

/-- A disk without links. -/
theorem plain_unlinked (cwd : Place) {dir : Text} (hdir : dir ≠ []) :
    @Unlinked (plain cwd) dir :=
  @Unlinked.mk (plain cwd) dir (fun _ _ ha hb h => paths.entries_apart cwd hdir ha hb h)
    fun _ _ => rfl

/-- For each set of the parser, each directory and each extension: the output paths are
pairwise distinct just if the names of the frames are distinct before their last dots. Each
frame is in its file after each run just if the paths lead to different files, unless one of
them does not open. For entries of a directory without links this is one condition. -/
theorem each_frame_is_kept_just_if_the_files_differ [Disk] {file : Option Text}
    {alloc : parser.Alloc → Bool} {cfg : parser.vf_frames_cfg_t} {set : vf_frame_set_t}
    (h : parser.vf_parser_load_frames_cfg file alloc = .ok cfg) (hset : set ∈ cfg.frame_sets)
    (output_dir output_extension : Text) :
    let data := vf_file_unit_init ⟨set, output_dir, output_extension, true⟩
    ((split_paths data).Nodup ↔ DistinctNames set) ∧
      (KeepsEachFrame data ↔
        ((∀ path ∈ split_paths data, Disk.writable (Disk.place path) = true) →
          ((split_paths data).map Disk.place).Nodup)) ∧
      (Unlinked data.output_dir →
        (∀ frame ∈ set.frames,
          paths.Entry (base_name frame.file_name ++ data.output_extension)) →
        (KeepsEachFrame data ↔ DistinctNames set)) := by
  let data := vf_file_unit_init ⟨set, output_dir, output_extension, true⟩
  have hpaths : ∀ frame ∈ data.frame_set.frames,
      split_path data frame.file_name = out_path data frame.file_name :=
    fun frame hframe => split_path_eq (names_fit h hset frame hframe)
  have hnodup := split_paths_nodup_just_if hpaths
  have hsplit : data.split_output = true := rfl
  have hkeeps := keeps_each_frame_just_if hsplit (split_paths_eq hpaths)
  refine ⟨hnodup, hkeeps, fun hdir hentry => ?_⟩
  have hopens : ∀ path ∈ split_paths data, Disk.writable (Disk.place path) = true := by
    intro path hpath
    obtain ⟨entry, he, rfl⟩ := output_entry hpaths hentry hpath
    exact hdir.opens entry he
  have hplaces := (hdir.places_nodup hpaths hentry).trans hnodup
  exact ⟨fun hk => hplaces.mp (hkeeps.mp hk hopens),
    fun hn => hkeeps.mpr fun _ => hplaces.mpr hn⟩

/-- A set of two frames. -/
def two_frames (name name' : Text) : parser.SetCfg :=
  ⟨['s'], ['b'], .VF_PIXEL_FORMAT_RAW8, [⟨name, 1, 1⟩, ⟨name', 1, 1⟩]⟩

/-- A config of one such set. -/
def two_frames_file (name name' : Text) : Text :=
  parser.compact id (parser.config_tokens [two_frames name name'])

theorem two_frames_load {name name' : Text} (hfits : (two_frames name name').Fits)
    (hshort : (two_frames_file name name').length ≤ parser.MAX_FILE_SIZE - 1) :
    parser.vf_parser_load_frames_cfg (some (two_frames_file name name')) (fun _ => true) =
      .ok ⟨[(two_frames name name').loaded]⟩ :=
  parser.compact_loads (by simp) (by simpa using hfits) hshort

section
attribute [local instance] at_root

/-- Two frames with different names before the dot. -/
theorem two_named_frames_are_kept :
    KeepsEachFrame (vf_file_unit_init
      ⟨(two_frames "a.raw".toList "b.raw".toList).loaded, "out".toList, ".rgb".toList, true⟩) := by
  have hfits : (two_frames "a.raw".toList "b.raw".toList).Fits := by decide
  refine ((each_frame_is_kept_just_if_the_files_differ
    (two_frames_load hfits (by decide +kernel)) (List.mem_singleton.mpr rfl) "out".toList
    ".rgb".toList).2.2 (plain_unlinked [] (by decide)) (by decide)).mpr ?_
  unfold DistinctNames
  decide

/-- `shot.001` and `shot.002` are one file. -/
theorem numbered_frames_share_a_file :
    ¬ ∀ file alloc cfg set output_dir output_extension,
      parser.vf_parser_load_frames_cfg file alloc = .ok cfg → set ∈ cfg.frame_sets →
      (set.frames.map (·.file_name)).Nodup →
      (split_paths (vf_file_unit_init ⟨set, output_dir, output_extension, true⟩)).Nodup ∧
        KeepsEachFrame (vf_file_unit_init ⟨set, output_dir, output_extension, true⟩) := by
  intro h
  have hfits : (two_frames "shot.001".toList "shot.002".toList).Fits := by decide
  obtain ⟨hnodup, -⟩ := h _ _ _ _ "out".toList ".rgb".toList
    (two_frames_load hfits (by decide +kernel)) (List.mem_singleton.mpr rfl) (by decide)
  revert hnodup
  decide

end

end vision_flow.split_output
