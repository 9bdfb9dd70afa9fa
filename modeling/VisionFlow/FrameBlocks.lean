-- The same walks over a block of memory. A frame has the `total_size` bytes that its
-- allocation asked for, and no more, so a row that is written from or read to must lie in
-- them. The plane sizes are added up in 32 bits: where the sum wraps, the block is smaller
-- than the planes, and the first plane already leaves it.
import VisionFlow.FrameFile
import VisionFlow.ConversionBounds

open memory

namespace vision_flow.frame_blocks

open framebuffer

/-! ## The code -/

/-- The row loop of the writer, or `none` where a row leaves the block. -/
def write_lines (total_size : Nat) (data : Nat → UInt8) (line_size stride : Nat) :
    Nat → Nat → FILE → Nat → Option (vf_err_t × FILE × Nat)
  | 0, _, f, written_bytes => some (.VF_SUCCESS, f, written_bytes)
  | n + 1, line_ptr, f, written_bytes =>
    if total_size < line_ptr + line_size then
      none
    else
      let (written, f) := fwrite ((List.range' line_ptr line_size).map data) f
      if written ≠ ONE_LINE then
        some (.VF_FILE_ERR, f, written_bytes)
      else
        write_lines total_size data line_size stride n (line_ptr + stride) f
          (written_bytes + line_size)

/-- The plane loop of the writer. -/
def write_planes (fb : vf_framebuffer_t) (data : Nat → UInt8) :
    Nat → Nat → Nat → FILE → Nat → Option (vf_err_t × FILE × Nat)
  | 0, _, _, f, written_bytes => some (.VF_SUCCESS, f, written_bytes)
  | n + 1, i, plane_ptr, f, written_bytes =>
    if fb.plane_size i = 0 then
      some (.VF_SUCCESS, f, written_bytes)
    else
      match write_lines fb.total_size data (fb.plane_line_size i) (fb.plane_stride i)
        (fb.plane_height i) plane_ptr f written_bytes with
      | none => none
      | some (rc, f, written_bytes) =>
        if rc ≠ .VF_SUCCESS then
          some (rc, f, written_bytes)
        else
          write_planes fb data n (i + 1) (plane_ptr + fb.plane_size i) f written_bytes

def vf_framebuffer_write_to_fptr (fb : vf_framebuffer_t) (f : FILE) (written_bytes : Nat) :
    Option (vf_err_t × FILE × Nat) :=
  match fb.data with
  | none => some (.VF_INVALID_PARAMETER, f, written_bytes)
  | some data => write_planes fb data VF_FB_MAX_PLANE_COUNT 0 0 f 0

/-- The row loop of the reader, or `none` where a byte is stored past the block. -/
def read_lines (total_size line_size stride : Nat) :
    Nat → Nat → (Nat → UInt8) → FILE → Nat → Option (vf_err_t × (Nat → UInt8) × FILE × Nat)
  | 0, _, data, f, read_bytes => some (.VF_SUCCESS, data, f, read_bytes)
  | n + 1, line_ptr, data, f, read_bytes =>
    let (count, got, f) := fread line_size f
    if total_size < line_ptr + got.length then
      none
    else
      let data := write_all data ((List.range' line_ptr line_size).zip got)
      if count ≠ ONE_LINE then
        some (.VF_FILE_ERR, data, f, read_bytes)
      else
        read_lines total_size line_size stride n (line_ptr + stride) data f
          (read_bytes + line_size)

/-- The plane loop of the reader. -/
def read_planes (fb : vf_framebuffer_t) :
    Nat → Nat → Nat → (Nat → UInt8) → FILE → Nat → Option (vf_err_t × (Nat → UInt8) × FILE × Nat)
  | 0, _, _, data, f, read_bytes => some (.VF_SUCCESS, data, f, read_bytes)
  | n + 1, i, plane_ptr, data, f, read_bytes =>
    if fb.plane_size i = 0 then
      some (.VF_SUCCESS, data, f, read_bytes)
    else
      match read_lines fb.total_size (fb.plane_line_size i) (fb.plane_stride i)
        (fb.plane_height i) plane_ptr data f read_bytes with
      | none => none
      | some (rc, data, f, read_bytes) =>
        if rc ≠ .VF_SUCCESS then
          some (rc, data, f, read_bytes)
        else
          read_planes fb n (i + 1) (plane_ptr + fb.plane_size i) data f read_bytes

def vf_framebuffer_read_from_fptr (fb : vf_framebuffer_t) (f : FILE) (read_bytes : Nat) :
    Option (vf_err_t × vf_framebuffer_t × FILE × Nat) :=
  match fb.data with
  | none => some (.VF_INVALID_PARAMETER, fb, f, read_bytes)
  | some data =>
    match read_planes fb VF_FB_MAX_PLANE_COUNT 0 0 data f 0 with
    | none => none
    | some (rc, data, f, read_bytes) => some (rc, { fb with data := some data }, f, read_bytes)

/-- The frames written one after another, with what each call reports. -/
def write_frames : List vf_framebuffer_t → FILE → Option (List (vf_err_t × Nat) × FILE)
  | [], f => some ([], f)
  | fb :: rest, f =>
    match vf_framebuffer_write_to_fptr fb f 0 with
    | none => none
    | some (rc, f, written_bytes) =>
      (write_frames rest f).map fun (reports, f) => ((rc, written_bytes) :: reports, f)

/-- The frames read one after another, with what each call reports. -/
def read_frames :
    List vf_framebuffer_t → FILE → Option (List (vf_err_t × Nat) × List vf_framebuffer_t × FILE)
  | [], f => some ([], [], f)
  | fb :: rest, f =>
    match vf_framebuffer_read_from_fptr fb f 0 with
    | none => none
    | some (rc, fb, f, read_bytes) =>
      (read_frames rest f).map fun (reports, fbs, f) => ((rc, read_bytes) :: reports, fb :: fbs, f)

/-! ## Frames that fit in their block -/

/-- Each row of each plane lies in the block. -/
def Fits (fb : vf_framebuffer_t) : Prop :=
  ∀ i < VF_FB_MAX_PLANE_COUNT, ∀ y < fb.plane_height i,
    byte_at fb i y 0 + fb.plane_line_size i ≤ fb.total_size

/-- Planes whose sizes add up without a wrap fit. -/
theorem Fits.of_laid {fb : vf_framebuffer_t} {ps : List Plane} (hl : Laid fb ps)
    (hsum : (ps.map Plane.size).sum < 2 ^ 32) : Fits fb := by
  intro i _ y hy
  have hi : i < ps.length := by
    by_contra hge
    rw [hl.height, plane_at_past ps (by omega)] at hy
    exact absurd hy (Nat.not_lt_zero _)
  have hrow : (y + 1) * fb.plane_stride i ≤ fb.plane_size i := by
    rw [hl.size_eq]
    exact Nat.mul_le_mul_right _ hy
  have hline : fb.plane_line_size i ≤ fb.plane_stride i := by
    rw [hl.line_size, hl.stride]
    exact (plane_at ps i).line_le
  have hnext := plane_start_succ fb i
  have hend := plane_start_mono fb (show i + 1 ≤ ps.length from hi)
  have hlast := plane_start_length hl.toArrays
  rw [Nat.succ_mul] at hrow
  rw [hl.total_size, u32_of_lt hsum, byte_at]
  omega

theorem Fits.holding {fb : vf_framebuffer_t} (h : Fits fb) (data : Nat → UInt8) :
    Fits (fb.holding data) := h

/-! ## In the block, the walks are the plain ones -/

theorem write_lines.inside (total_size : Nat) (data : Nat → UInt8) (l s n p : Nat) (f : FILE)
    (w : Nat) (h : ∀ y < n, p + y * s + l ≤ total_size) :
    write_lines total_size data l s n p f w = some (framebuffer.write_lines data l s n p f w) := by
  induction n generalizing p f w with
  | zero => rfl
  | succ n ih =>
    have h0 := h 0 (Nat.succ_pos n)
    have hnext : ∀ y < n, p + s + y * s + l ≤ total_size := by
      intro y hy
      have := h (y + 1) (by omega)
      rw [Nat.succ_mul] at this
      omega
    simp only [write_lines, framebuffer.write_lines, if_neg (show ¬ total_size < p + l by omega)]
    split
    · rfl
    · exact ih _ _ _ hnext

theorem write_planes.inside {fb : vf_framebuffer_t} (hf : Fits fb) (data : Nat → UInt8)
    (n i : Nat) (hn : i + n ≤ VF_FB_MAX_PLANE_COUNT) (f : FILE) (w : Nat) :
    write_planes fb data n i (plane_start fb i) f w =
      some (framebuffer.write_planes fb data n i (plane_start fb i) f w) := by
  induction n generalizing i f w with
  | zero => rfl
  | succ n ih =>
    have hrows : ∀ y < fb.plane_height i,
        plane_start fb i + y * fb.plane_stride i + fb.plane_line_size i ≤ fb.total_size :=
      hf i (by omega)
    simp only [write_planes, framebuffer.write_planes, write_lines.inside _ _ _ _ _ _ _ _ hrows]
    split
    · rfl
    · split
      · rfl
      · rw [← plane_start_succ]
        exact ih (i + 1) (by omega) _ _

theorem vf_framebuffer_write_to_fptr.inside {fb : vf_framebuffer_t} (hf : Fits fb) (f : FILE)
    (w : Nat) : vf_framebuffer_write_to_fptr fb f w =
      some (framebuffer.vf_framebuffer_write_to_fptr fb f w) := by
  unfold vf_framebuffer_write_to_fptr framebuffer.vf_framebuffer_write_to_fptr
  cases fb.data with
  | none => rfl
  | some data => exact write_planes.inside hf data VF_FB_MAX_PLANE_COUNT 0 (by omega) f 0

theorem length_fread (size : Nat) (f : FILE) : (fread size f).2.1.length ≤ size := by
  simp only [fread, List.length_take]
  omega

theorem read_lines.inside (total_size l s n p : Nat) (data : Nat → UInt8) (f : FILE) (w : Nat)
    (h : ∀ y < n, p + y * s + l ≤ total_size) :
    read_lines total_size l s n p data f w = some (framebuffer.read_lines l s n p data f w) := by
  induction n generalizing p data f w with
  | zero => rfl
  | succ n ih =>
    have h0 := h 0 (Nat.succ_pos n)
    have hgot := length_fread l f
    have hnext : ∀ y < n, p + s + y * s + l ≤ total_size := by
      intro y hy
      have := h (y + 1) (by omega)
      rw [Nat.succ_mul] at this
      omega
    simp only [read_lines, framebuffer.read_lines,
      if_neg (show ¬ total_size < p + (fread l f).2.1.length by omega)]
    split
    · rfl
    · exact ih _ _ _ _ hnext

theorem read_planes.inside {fb : vf_framebuffer_t} (hf : Fits fb) (n i : Nat)
    (hn : i + n ≤ VF_FB_MAX_PLANE_COUNT) (data : Nat → UInt8) (f : FILE) (w : Nat) :
    read_planes fb n i (plane_start fb i) data f w =
      some (framebuffer.read_planes fb n i (plane_start fb i) data f w) := by
  induction n generalizing i data f w with
  | zero => rfl
  | succ n ih =>
    have hrows : ∀ y < fb.plane_height i,
        plane_start fb i + y * fb.plane_stride i + fb.plane_line_size i ≤ fb.total_size :=
      hf i (by omega)
    simp only [read_planes, framebuffer.read_planes, read_lines.inside _ _ _ _ _ _ _ _ hrows]
    split
    · rfl
    · split
      · rfl
      · rw [← plane_start_succ]
        exact ih (i + 1) (by omega) _ _ _

theorem vf_framebuffer_read_from_fptr.inside {fb : vf_framebuffer_t} (hf : Fits fb) (f : FILE)
    (r : Nat) : vf_framebuffer_read_from_fptr fb f r =
      some (framebuffer.vf_framebuffer_read_from_fptr fb f r) := by
  unfold vf_framebuffer_read_from_fptr framebuffer.vf_framebuffer_read_from_fptr
  cases fb.data with
  | none => rfl
  | some data =>
    have h := read_planes.inside hf VF_FB_MAX_PLANE_COUNT 0 (by omega) data f 0
    simp only [show plane_start fb 0 = 0 from rfl] at h
    simp only [h]

theorem write_frames.inside (fbs : List vf_framebuffer_t) (hf : ∀ fb ∈ fbs, Fits fb) (f : FILE) :
    write_frames fbs f = some (framebuffer.write_frames fbs f) := by
  induction fbs generalizing f with
  | nil => rfl
  | cons fb rest ih =>
    have hrest := ih fun fb' hmem => hf fb' (List.mem_cons_of_mem _ hmem)
    simp only [write_frames, framebuffer.write_frames,
      vf_framebuffer_write_to_fptr.inside (hf fb (List.mem_cons_self ..)), hrest, Option.map_some]

theorem read_frames.inside (fbs : List vf_framebuffer_t) (hf : ∀ fb ∈ fbs, Fits fb) (f : FILE) :
    read_frames fbs f = some (framebuffer.read_frames fbs f) := by
  induction fbs generalizing f with
  | nil => rfl
  | cons fb rest ih =>
    have hrest := ih fun fb' hmem => hf fb' (List.mem_cons_of_mem _ hmem)
    simp only [read_frames, framebuffer.read_frames,
      vf_framebuffer_read_from_fptr.inside (hf fb (List.mem_cons_self ..)), hrest, Option.map_some]

/-! ## A frame that is written lies in its block -/

/-- A writer that comes to its end has had all its rows in the block. -/
theorem write_lines.rows {total_size : Nat} {data : Nat → UInt8} {l s n p w : Nat}
    {b : List UInt8} {out : vf_err_t × FILE × Nat} (hl : 0 < l)
    (h : write_lines total_size data l s n p (at_end b) w = some out) :
    ∀ y < n, p + y * s + l ≤ total_size := by
  induction n generalizing p b w with
  | zero =>
    intro y hy
    exact absurd hy (Nat.not_lt_zero y)
  | succ n ih =>
    have hw := fwrite.spec b ((List.range' p l).map data) (by simpa using hl)
    simp only [write_lines, hw, ne_eq, not_true_eq_false, if_false] at h
    split at h
    · cases h
    · rename_i hrow
      intro y hy
      cases y with
      | zero => omega
      | succ y =>
        have := ih h y (by omega)
        rw [Nat.succ_mul]
        omega

/-- So the first plane of a frame that is written is in the block. -/
theorem vf_framebuffer_write_to_fptr.first_plane {fb : vf_framebuffer_t} {data : Nat → UInt8}
    {b : List UInt8} {w : Nat} {out : vf_err_t × FILE × Nat} (hline : 0 < fb.plane_line_size 0)
    (hsize : fb.plane_size 0 ≠ 0)
    (h : vf_framebuffer_write_to_fptr (fb.holding data) (at_end b) w = some out) :
    ∀ y < fb.plane_height 0, y * fb.plane_stride 0 + fb.plane_line_size 0 ≤ fb.total_size := by
  simp only [vf_framebuffer_write_to_fptr, vf_framebuffer_t.holding, VF_FB_MAX_PLANE_COUNT,
    write_planes, hsize, if_false] at h
  split at h
  · cases h
  · rename_i hrows
    simpa using write_lines.rows hline hrows

/-- The luma of a planar frame is in the block only where the sum does not wrap. -/
theorem sum_of_luma {fb : vf_framebuffer_t} {w h : Nat} {rest : List Plane}
    (hl : Laid fb (⟨w, h, w⟩ :: rest)) (hw : 1 ≤ w) (hh : 1 ≤ h)
    (hsz : (⟨w, h, w⟩ : Plane).size < 2 ^ 32)
    (hle : (rest.map Plane.size).sum ≤ (⟨w, h, w⟩ : Plane).size)
    (h16 : (rest.map Plane.size).sum % 16 = 0)
    (hrows : ∀ y < fb.plane_height 0,
      y * fb.plane_stride 0 + fb.plane_line_size 0 ≤ fb.total_size) :
    (((⟨w, h, w⟩ : Plane) :: rest).map Plane.size).sum < 2 ^ 32 := by
  by_contra hge
  have hheight : fb.plane_height 0 = h := hl.height 0
  have hline : fb.plane_line_size 0 = w := hl.line_size 0
  have hst : fb.plane_stride 0 = (⟨w, h, w⟩ : Plane).stride := hl.stride 0
  have hpast := conversion.luma_past_total hw hh rfl hsz hle h16
    (by simpa using Nat.le_of_not_lt hge)
  have hlast := hrows (h - 1) (by omega)
  rw [hline, hl.total_size, hst] at hlast
  simp only [List.map_cons, List.sum_cons] at hlast
  omega

/-- A frame of an allocation that is written has plane sizes that add up in 32 bits. -/
theorem sum_of_written {fb : vf_framebuffer_t} {params : vf_fb_params_t}
    (hl : Laid fb (code_planes params)) (hw : 1 ≤ params.width) (hh : 1 ≤ params.height)
    (hacc : Accepted params.format) (hfit : PlaneSizesFit params) {data : Nat → UInt8}
    {b : List UInt8} {n : Nat} {out : vf_err_t × FILE × Nat}
    (hout : vf_framebuffer_write_to_fptr (fb.holding data) (at_end b) n = some out) :
    ((planes params).map Plane.size).sum < 2 ^ 32 := by
  obtain ⟨w, h, format⟩ := params
  have luma (rest : List Plane) (hl : Laid fb (⟨w, h, w⟩ :: rest)) :
      ∀ y < fb.plane_height 0,
        y * fb.plane_stride 0 + fb.plane_line_size 0 ≤ fb.total_size := by
    have hline : fb.plane_line_size 0 = w := hl.line_size 0
    have hsize : fb.plane_size 0 = (⟨w, h, w⟩ : Plane).size := hl.size 0
    have hpos : 0 < (⟨w, h, w⟩ : Plane).size :=
      Nat.mul_pos (Nat.lt_of_lt_of_le hw (⟨w, h, w⟩ : Plane).line_le) hh
    refine vf_framebuffer_write_to_fptr.first_plane ?_ ?_ hout
    · rwa [hline]
    · rw [hsize]
      exact Nat.ne_of_gt hpos
  cases format with
  | VF_PIXEL_FMT_UNKNOWN => exact absurd rfl hacc.1
  | VF_PIXEL_FMT_MJPEG => exact absurd rfl hacc.2.1
  | VF_PIXEL_FMT_LAST => exact absurd rfl hacc.2.2
  | VF_PIXEL_FMT_YUV420P =>
    have hle := conversion.chroma_le w h
    have h16 := conversion.size_mod_16 ⟨w / 2, h / 2, w / 2⟩
    refine sum_of_luma hl hw hh (hfit _ (List.mem_cons_self ..)) ?_ ?_ (luma _ hl)
    · simpa using hle
    · simp only [List.map_cons, List.map_nil, List.sum_cons, List.sum_nil]
      omega
  | VF_PIXEL_FMT_NV12 =>
    have h16 := conversion.size_mod_16 ⟨w, h / 2, w⟩
    refine sum_of_luma hl hw hh (hfit _ (List.mem_cons_self ..)) ?_ ?_ (luma _ hl)
    · simpa using Plane.size_mono (p := ⟨w, h / 2, w⟩) (q := ⟨w, h, w⟩) (Nat.le_refl w)
        (Nat.div_le_self h 2)
    · simpa using h16
  | _ =>
    -- one plane, whose size fits
    have hone := hfit _ (List.mem_cons_self ..)
    simpa [planes, planes_with, vf_pixel_fmt_bpp] using hone

/-! ## The law -/

/-- Frames laid out as `fb` are written one after another, and read back in order into
frames of the same layout, all inside their blocks. Each call reports the bytes of a frame's
pixels. Each pixel is the one that was written, and the padding of the rows is what it was.
The other way, bytes that fill whole frames are read, and writing the frames gives the same
bytes. -/
def ComeBack (fb : vf_framebuffer_t) : Prop :=
  (∀ (written : List UInt8) (srcs dsts : List (Nat → UInt8)), srcs.length = dsts.length →
    ∃ w r, write_frames (srcs.map fb.holding) (at_end written) = some w ∧
      read_frames (dsts.map fb.holding) { w.2 with pos := written.length } = some r ∧
      w.1 = srcs.map (fun _ => (.VF_SUCCESS, frame_bytes fb)) ∧
      r.1 = dsts.map (fun _ => (.VF_SUCCESS, frame_bytes fb)) ∧
      ∃ outs : List (Nat → UInt8), r.2.1 = outs.map fb.holding ∧ outs.length = dsts.length ∧
        ∀ (k : Nat) (s d o : Nat → UInt8), srcs[k]? = some s → dsts[k]? = some d →
          outs[k]? = some o → ∀ i < fb.num_planes, ∀ y < fb.plane_height i,
            (∀ x < fb.plane_line_size i, o (byte_at fb i y x) = s (byte_at fb i y x)) ∧
            (∀ x, fb.plane_line_size i ≤ x → x < fb.plane_stride i →
              o (byte_at fb i y x) = d (byte_at fb i y x))) ∧
  (∀ (bytes : List UInt8) (dsts : List (Nat → UInt8)),
    bytes.length = dsts.length * frame_bytes fb →
    ∃ r, read_frames (dsts.map fb.holding) ⟨bytes, 0, none⟩ = some r ∧
      r.1 = dsts.map (fun _ => (.VF_SUCCESS, frame_bytes fb)) ∧
      write_frames r.2.1 (at_end []) =
        some (dsts.map fun _ => (.VF_SUCCESS, frame_bytes fb), at_end bytes))

section Laid

variable {fb : vf_framebuffer_t} {ps : List Plane} (hl : Laid fb ps) (hs : Shrinking ps)
  (hn : ps.length ≤ VF_FB_MAX_PLANE_COUNT) (hf : Fits fb)

include hl hs hn hf

theorem write_frames.spec (ds : List (Nat → UInt8)) (b : List UInt8) :
    write_frames (ds.map fb.holding) (at_end b) =
      some (ds.map fun _ => (.VF_SUCCESS, (cells ps 0).length),
        at_end (b ++ ds.flatMap fun d => (cells ps 0).map d)) := by
  rw [write_frames.inside _ (by simpa using fun d _ => hf.holding d),
    framebuffer.write_frames.spec hl.toArrays hs hn]

theorem read_frames.spec (ds : List (Nat → UInt8)) (parts : List (List UInt8))
    (hparts : ∀ p ∈ parts, p.length = (cells ps 0).length) (hlen : ds.length = parts.length)
    (b : List UInt8) :
    read_frames (ds.map fb.holding) ⟨b ++ parts.flatten, b.length, none⟩ =
      some (ds.map fun _ => (.VF_SUCCESS, (cells ps 0).length),
        (ds.zipWith (fun d p => write_all d ((cells ps 0).zip p)) parts).map fb.holding,
        ⟨b ++ parts.flatten, (b ++ parts.flatten).length, none⟩) := by
  have hr := framebuffer.read_frames.spec hl.toArrays hs hn ds parts hparts hlen b [] none
  rw [List.append_nil] at hr
  rw [read_frames.inside _ (by simpa using fun d _ => hf.holding d), hr]

theorem ComeBack.of_fits : ComeBack fb := by
  unfold ComeBack
  simp only [frame_bytes_laid hl]
  refine ⟨?_, ?_⟩
  · intro written srcs dsts hlen
    have hr := read_frames.spec hl hs hn hf dsts (srcs.map fun s => (cells ps 0).map s)
      (by simp) (by simpa using hlen.symm) written
    rw [← List.flatMap_def] at hr
    refine ⟨_, _, write_frames.spec hl hs hn hf srcs written, hr, rfl, rfl, _, rfl,
      by simp [hlen], ?_⟩
    intro k s d o hks hkd hko
    obtain rfl : write_all d ((cells ps 0).zip ((cells ps 0).map s)) = o := by
      simpa [List.getElem?_zipWith, hks, hkd] using hko
    intro i hi y hy
    refine ⟨?_, ?_⟩
    · intro x hx
      have hmem := (mem_cells_laid hl).mpr ⟨i, hi, y, hy, x, hx, rfl⟩
      exact write_all_zip_map_of_mem d s (nodup_cells ps 0) hmem
    · intro x hx hxs
      exact write_all_zip_of_notMem _ _ _ _ (padding_not_mem hl hy hx hxs)
  · intro bytes dsts hlen
    obtain ⟨parts, h1, h2, rfl⟩ := cut_in_parts _ _ _ hlen
    have hr := read_frames.spec hl hs hn hf dsts parts h2 h1.symm []
    refine ⟨_, hr, rfl, ?_⟩
    have hw := write_frames.spec hl hs hn hf
      (dsts.zipWith (fun d p => write_all d ((cells ps 0).zip p)) parts) []
    rw [hw, refill ps dsts parts h2 h1.symm, List.map_const', List.map_const',
      List.length_zipWith, h1, Nat.min_self, List.nil_append]

end Laid

/-- Frames that come back have been written, so the sizes of their planes add up. -/
theorem ComeBack.sum {fb : vf_framebuffer_t} {params : vf_fb_params_t}
    (hl : Laid fb (code_planes params)) (hw : 1 ≤ params.width) (hh : 1 ≤ params.height)
    (hacc : Accepted params.format) (hfit : PlaneSizesFit params) (h : ComeBack fb) :
    ((planes params).map Plane.size).sum < 2 ^ 32 := by
  obtain ⟨w, r, hw', -⟩ := h.1 [] [fun _ => 0] [fun _ => 0] rfl
  simp only [List.map_cons, List.map_nil, write_frames] at hw'
  split at hw'
  · cases hw'
  · rename_i hout
    exact sum_of_written hl hw hh hacc hfit hout

/-- The code's planes are no larger than the exact ones. -/
theorem code_sum_le (params : vf_fb_params_t) :
    ((code_planes params).map Plane.size).sum ≤ ((planes params).map Plane.size).sum := by
  obtain ⟨w, h, format⟩ := params
  have packed (n : Nat) : (⟨w, h, u32 (w * n) / 8⟩ : Plane).size ≤
      (⟨w, h, w * n / 8⟩ : Plane).size :=
    Plane.size_mono (Nat.div_le_div_right (u32_le _)) (Nat.le_refl h)
  cases format with
  | VF_PIXEL_FMT_RAW8 =>
    simpa [code_planes, planes, planes_with, vf_pixel_fmt_bpp] using packed 8
  | _ => simp [code_planes, planes, planes_with, vf_pixel_fmt_bpp, packed]

/-- Frames of one allocation come back from a file just if the sizes of their planes add up
in 32 bits. -/
theorem frames_come_back_just_if_the_sizes_add_up (fb0 : vf_framebuffer_t)
    (params : vf_fb_params_t) (hacc : Accepted params.format) (hw : 1 ≤ params.width)
    (hh : 1 ≤ params.height) (hfit : PlaneSizesFit params) :
    (vf_framebuffer_alloc fb0 params true).1 = .VF_SUCCESS ∧
      (ComeBack (vf_framebuffer_alloc fb0 params true).2 ↔
        ((planes params).map Plane.size).sum < 2 ^ 32) := by
  obtain ⟨hrc, -, -, hl⟩ := vf_framebuffer_alloc.spec fb0 params hacc hw hh hfit
  refine ⟨hrc, ?_, ?_⟩
  · exact ComeBack.sum hl hw hh hacc hfit
  · intro hsum
    have hcode := Nat.lt_of_le_of_lt (code_sum_le params) hsum
    exact ComeBack.of_fits hl (fun i => code_planes_stop params) (code_planes_length params)
      (Fits.of_laid hl hcode)

/-- A 2×2 frame has four bytes of luma and one of each chroma. -/
theorem a_yuv420p_frame_comes_back_from_a_file :
    ComeBack (vf_framebuffer_alloc zeroed ⟨2, 2, .VF_PIXEL_FMT_YUV420P⟩ true).2 :=
  (frames_come_back_just_if_the_sizes_add_up zeroed ⟨2, 2, .VF_PIXEL_FMT_YUV420P⟩ (by decide)
    (by decide) (by decide) (by decide)).2.mpr (by decide)

/-- The planes of a frame of two columns and 2^27 rows fit one by one, and add up to 2^32: the
block has no byte, and the writer leaves it at the first row. -/
theorem a_tall_frame_does_not_come_back :
    let params : vf_fb_params_t := ⟨2, 134217728, .VF_PIXEL_FMT_YUV420P⟩
    let fb := (vf_framebuffer_alloc zeroed params true).2
    PlaneSizesFit params ∧ fb.total_size = 0 ∧
      write_frames [fb.holding fun _ => 7] (at_end []) = none ∧ ¬ ComeBack fb := by
  have hnone : write_frames
      [(vf_framebuffer_alloc zeroed ⟨2, 134217728, .VF_PIXEL_FMT_YUV420P⟩ true).2.holding
        fun _ => 7] (at_end []) = none := by
    rfl
  refine ⟨by decide, by decide, hnone, ?_⟩
  intro h
  obtain ⟨w, r, hw, -⟩ := h.1 [] [fun _ => 7] [fun _ => 0] rfl
  rw [List.map_cons, List.map_nil, hnone] at hw
  cases hw

end vision_flow.frame_blocks
