-- The copy of a frame (vf_framebuffer_copy). It compares the formats and the total sizes, but
-- not the sizes of the pictures: pictures of different sizes can have one total size, and then
-- the copy shows other bytes than its source, unless no row of either is padded.
import VisionFlow.FrameFile
import VisionFlow.FramebufferLayout

namespace vision_flow.framebuffer

/-! ## The code -/

def vf_framebuffer_copy (dst src : vf_framebuffer_t) : vf_err_t × vf_framebuffer_t :=
  match dst.data, src.data with
  | some d, some s =>
    if dst.total_size ≠ src.total_size then
      (.VF_INVALID_PARAMETER, dst)
    else if dst.params.format ≠ src.params.format then
      (.VF_INVALID_PARAMETER, dst)
    else
      -- `memcpy(dst->data, src->data, src->total_size)`
      (.VF_SUCCESS, { dst with data := some fun a => if a < src.total_size then s a else d a })
  | _, _ => (.VF_INVALID_PARAMETER, dst)

/-- Each call of the writer does the same to a stream for the one frame as for the other. -/
def WritesSame (a b : vf_framebuffer_t) : Prop := ∀ (f : FILE) (w : Nat),
  (vf_framebuffer_write_to_fptr a f w).1 = (vf_framebuffer_write_to_fptr b f w).1 ∧
    (vf_framebuffer_write_to_fptr a f w).2.1 = (vf_framebuffer_write_to_fptr b f w).2.1

/-- A copy that succeeds shows the picture of its source, whatever the frames held. -/
def CopiesThePicture (dst src : vf_framebuffer_t) : Prop := ∀ d s : Nat → UInt8,
  (vf_framebuffer_copy (dst.holding d) (src.holding s)).1 = .VF_SUCCESS →
    WritesSame (vf_framebuffer_copy (dst.holding d) (src.holding s)).2 (src.holding s)

/-- The length and the number of the rows of each plane. -/
def rows (params : vf_fb_params_t) : List (Nat × Nat) :=
  (code_planes params).map fun p => (p.line_size, p.height)

/-- The bytes of all planes. -/
def planes_size (params : vf_fb_params_t) : Nat := ((code_planes params).map Plane.size).sum

/-- No row of these planes has padding. -/
def Unpadded (ps : List Plane) : Prop := ∀ p ∈ ps, p.height ≠ 0 → 16 ∣ p.line_size

instance (ps : List Plane) : Decidable (Unpadded ps) :=
  inferInstanceAs (Decidable (∀ p ∈ ps, p.height ≠ 0 → 16 ∣ p.line_size))

/-- The memory of each frame holds its planes, and the two have the same rows or no padding. -/
structure SameRows (pd ps : vf_fb_params_t) : Prop where
  dst_size : planes_size pd < 2 ^ 32
  src_size : planes_size ps < 2 ^ 32
  rows : rows pd = rows ps ∨ Unpadded (code_planes pd) ∧ Unpadded (code_planes ps)

/-! ## Writes to any stream -/

/-- The stream has room for `n` more bytes. -/
def FILE.takes (f : FILE) (n : Nat) : Bool := f.room.all (n ≤ ·)

theorem takes_zero (f : FILE) : f.takes 0 = true := by
  unfold FILE.takes
  cases f.room <;> simp

theorem fwrite_nil (f : FILE) : (fwrite [] f).2 = f := by
  obtain ⟨bytes, pos, room⟩ := f
  cases room <;> simp [fwrite]

theorem fwrite_takes (line : List UInt8) (f : FILE) (h : 0 < line.length) :
    (fwrite line f).1 = if f.takes line.length then ONE_LINE else 0 := by
  obtain ⟨bytes, pos, room⟩ := f
  cases room with
  | none => simp [fwrite, FILE.takes, ONE_LINE, Nat.ne_of_gt h]
  | some r =>
    have hroom : line.length ≤ r ∧ r ≠ 0 ↔ line.length ≤ r := by omega
    simp [fwrite, FILE.takes, ONE_LINE, Nat.ne_of_gt h, hroom]

theorem takes_append (a b : List UInt8) (f : FILE) :
    f.takes (a ++ b).length = (f.takes a.length && (fwrite a f).2.takes b.length) := by
  obtain ⟨bytes, pos, room⟩ := f
  cases room with
  | none => rfl
  | some r =>
    simp only [FILE.takes, fwrite, Option.map_some, Option.all_some, List.length_append]
    rw [Bool.eq_iff_iff, Bool.and_eq_true, decide_eq_true_eq, decide_eq_true_eq,
      decide_eq_true_eq]
    omega

theorem fwrite_all (line : List UInt8) (f : FILE) (h : f.takes line.length = true) :
    (fwrite line f).2 = { f with
      bytes := f.bytes.take f.pos ++ line ++ f.bytes.drop (f.pos + line.length)
      pos := f.pos + line.length
      room := f.room.map (· - line.length) } := by
  obtain ⟨bytes, pos, room⟩ := f
  cases room with
  | none => simp [fwrite]
  | some r =>
    have hroom : min line.length r = line.length := Nat.min_eq_left (by simpa [FILE.takes] using h)
    simp [fwrite, hroom]

/-- What is written over the bytes of a stream, in two parts. -/
theorem overwrite_append (bytes a b : List UInt8) (pos : Nat) :
    (bytes.take pos ++ a ++ bytes.drop (pos + a.length)).take (pos + a.length) ++ b ++
        (bytes.take pos ++ a ++ bytes.drop (pos + a.length)).drop (pos + a.length + b.length) =
      bytes.take pos ++ (a ++ b) ++ bytes.drop (pos + (a ++ b).length) := by
  have hlen : (bytes.take pos ++ a).length = min pos bytes.length + a.length := by
    rw [List.length_append, List.length_take]
  rcases Nat.le_total pos bytes.length with hpos | hpos
  · rw [Nat.min_eq_left hpos] at hlen
    rw [List.take_left' hlen, ← List.drop_drop, List.drop_left' hlen, List.drop_drop,
      List.length_append]
    simp only [List.append_assoc, Nat.add_assoc]
  · -- behind the end of the stream
    have htake : bytes.take pos = bytes := List.take_of_length_le hpos
    rw [List.drop_eq_nil_of_le (by omega : bytes.length ≤ pos + a.length), List.append_nil,
      List.take_of_length_le (by omega), List.drop_eq_nil_of_le (by omega),
      List.drop_eq_nil_of_le (by rw [List.length_append]; omega)]
    simp only [List.append_assoc]

/-- Two writes one after the other are one write, also if the second does not fit. -/
theorem fwrite_append (a b : List UInt8) (f : FILE) (h : f.takes a.length = true) :
    (fwrite b (fwrite a f).2).2 = (fwrite (a ++ b) f).2 := by
  rw [fwrite_all a f h]
  obtain ⟨bytes, pos, room⟩ := f
  cases room with
  | none =>
    have hsplit := overwrite_append bytes a b pos
    simp only [fwrite, Option.map_none, List.take_length, FILE.mk.injEq]
    exact ⟨hsplit, by rw [List.length_append, Nat.add_assoc], trivial⟩
  | some r =>
    have hr : a.length ≤ r := by simpa [FILE.takes] using h
    have hmin : min (a ++ b).length r = a.length + min b.length (r - a.length) := by
      rw [List.length_append]
      omega
    have hsplit := overwrite_append bytes a (b.take (min b.length (r - a.length))) pos
    have htake : (a ++ b).take (a.length + min b.length (r - a.length)) =
        a ++ b.take (min b.length (r - a.length)) := by
      rw [List.take_append, List.take_of_length_le (by omega), Nat.add_sub_cancel_left]
    have hlen : (b.take (min b.length (r - a.length))).length = min b.length (r - a.length) := by
      rw [List.length_take]
      omega
    rw [List.length_append, hlen] at hsplit
    simp only [fwrite, Option.map_some, hmin, htake, FILE.mk.injEq, Option.some.injEq]
    exact ⟨hsplit, by omega, by omega⟩

/-- A write that does not fit leaves no room for a later part of it. -/
theorem fwrite_short (a b : List UInt8) (f : FILE) (h : f.takes a.length = false) :
    (fwrite (a ++ b) f).2 = (fwrite a f).2 := by
  obtain ⟨bytes, pos, room⟩ := f
  cases room with
  | none => cases h
  | some r =>
    have hr : r < a.length := by simpa [FILE.takes] using h
    have hmin : min (a ++ b).length r = r := Nat.min_eq_right (by rw [List.length_append]; omega)
    simp only [fwrite, hmin, Nat.min_eq_right hr.le, List.take_append_of_le_length hr.le]

/-! ## The writer on any stream -/

/-- The rows are written as one piece, until the stream is full. -/
theorem write_lines.any (data : Nat → UInt8) {l : Nat} (hl : 0 < l) (s n p : Nat) (f : FILE)
    (w : Nat) :
    (write_lines data l s n p f w).1 =
        (if f.takes ((row_cells l s n p).map data).length then .VF_SUCCESS else .VF_FILE_ERR) ∧
      (write_lines data l s n p f w).2.1 = (fwrite ((row_cells l s n p).map data) f).2 := by
  induction n generalizing p f w with
  | zero => simp [write_lines, row_cells, fwrite_nil, takes_zero]
  | succ n ih =>
    have hpos : 0 < ((List.range' p l).map data).length := by simpa using hl
    have hone := fwrite_takes _ f hpos
    rw [row_cells, List.map_append, takes_append]
    unfold write_lines
    cases htakes : f.takes ((List.range' p l).map data).length with
    | true =>
      rw [htakes, if_pos rfl] at hone
      simp only [hone, ne_eq, not_true_eq_false, if_false, Bool.true_and]
      rw [← fwrite_append _ _ f htakes]
      exact ih (p + s) (fwrite ((List.range' p l).map data) f).2 (w + l)
    | false =>
      rw [htakes, if_neg Bool.false_ne_true] at hone
      simp only [hone, ONE_LINE, ne_eq, zero_ne_one, not_false_eq_true, if_true, Bool.false_and,
        Bool.false_eq_true, if_false, true_and]
      exact (fwrite_short _ _ f htakes).symm

theorem write_planes.any {fb : vf_framebuffer_t} {ps : List Plane} (ha : Arrays fb ps)
    (hs : Shrinking ps) (data : Nat → UInt8) (n i : Nat) (hn : ps.length ≤ i + n) (p : Nat)
    (f : FILE) (w : Nat) :
    (write_planes fb data n i p f w).1 =
        (if f.takes ((cells (ps.drop i) p).map data).length then .VF_SUCCESS else .VF_FILE_ERR) ∧
      (write_planes fb data n i p f w).2.1 = (fwrite ((cells (ps.drop i) p).map data) f).2 := by
  induction n generalizing i p f w with
  | zero =>
    have hnil : ps.drop i = [] := List.drop_eq_nil_of_le hn
    simp [write_planes, hnil, cells, fwrite_nil, takes_zero]
  | succ n ih =>
    unfold write_planes
    rw [ha.size, ha.line_size, ha.stride, ha.height]
    by_cases h0 : (plane_at ps i).size = 0
    · simp [h0, hs.from h0, fwrite_nil, takes_zero]
    · have hi : i < ps.length := by
        by_contra hge
        rw [plane_at_past ps (by omega)] at h0
        exact h0 (by simp [Plane.size])
      obtain ⟨hrc, hfile⟩ := write_lines.any data (line_pos h0) (plane_at ps i).stride
        (plane_at ps i).height p f w
      rw [drop_plane_at ps hi, cells, List.map_append, takes_append]
      simp only [h0, if_false]
      cases htakes : f.takes ((row_cells (plane_at ps i).line_size (plane_at ps i).stride
          (plane_at ps i).height p).map data).length with
      | true =>
        rw [htakes, if_pos rfl] at hrc
        simp only [hrc, hfile, ne_eq, not_true_eq_false, if_false, Bool.true_and]
        rw [← fwrite_append _ _ f htakes]
        exact ih (i + 1) (by omega) _ _ _
      | false =>
        rw [htakes, if_neg Bool.false_ne_true] at hrc
        simp only [hrc, ne_eq, reduceCtorEq, not_false_eq_true, if_true, Bool.false_and,
          Bool.false_eq_true, if_false, true_and]
        rw [hfile]
        exact (fwrite_short _ _ f htakes).symm

/-- The writer gives the bytes of the pixels to the stream, until it is full. -/
theorem vf_framebuffer_write_to_fptr.any {fb : vf_framebuffer_t} {ps : List Plane}
    (ha : Arrays fb ps) (hs : Shrinking ps) (hn : ps.length ≤ VF_FB_MAX_PLANE_COUNT)
    (data : Nat → UInt8) (f : FILE) (w : Nat) :
    (vf_framebuffer_write_to_fptr (fb.holding data) f w).1 =
        (if f.takes ((cells ps 0).map data).length then .VF_SUCCESS else .VF_FILE_ERR) ∧
      (vf_framebuffer_write_to_fptr (fb.holding data) f w).2.1 =
        (fwrite ((cells ps 0).map data) f).2 := by
  have ha' : Arrays (fb.holding data) ps :=
    ⟨ha.width, ha.height, ha.line_size, ha.stride, ha.size⟩
  exact write_planes.any ha' hs data VF_FB_MAX_PLANE_COUNT 0 (by omega) 0 f 0

/-! ## Where the pixels lie -/

theorem map_plane_rows {ps qs : List Plane}
    (h : ps.map (fun p => (p.line_size, p.height)) = qs.map fun p => (p.line_size, p.height))
    (p : Nat) : cells ps p = cells qs p := by
  induction ps generalizing qs p with
  | nil =>
    rw [List.map_nil, eq_comm, List.map_eq_nil_iff] at h
    rw [h]
  | cons a rest ih =>
    cases qs with
    | nil => cases h
    | cons b qs =>
      obtain ⟨⟨hline, hheight⟩, hrest⟩ : (a.line_size = b.line_size ∧ a.height = b.height) ∧
          rest.map (fun p => (p.line_size, p.height)) =
            qs.map fun p => (p.line_size, p.height) := by simpa using h
      have hstride : a.stride = b.stride := by rw [Plane.stride, Plane.stride, hline]
      have hsize : a.size = b.size := by rw [Plane.size, Plane.size, hstride, hheight]
      rw [cells, cells, hline, hheight, hstride, hsize, ih hrest]

theorem full_stride {p : Plane} (h : 16 ∣ p.line_size) : p.stride = p.line_size := by
  unfold Plane.stride
  omega

/-- Rows without padding are one piece. -/
theorem full_rows (l n p : Nat) : row_cells l l n p = List.range' p (l * n) := by
  induction n generalizing p with
  | zero => rfl
  | succ n ih =>
    rw [row_cells, ih, Nat.mul_succ, Nat.add_comm (l * n), ← List.range'_append_1]

/-- Planes without padding are one piece. -/
theorem Unpadded.cells {ps : List Plane} (h : Unpadded ps) (p : Nat) :
    cells ps p = List.range' p (ps.map Plane.size).sum := by
  induction ps generalizing p with
  | nil => rfl
  | cons a rest ih =>
    have hrows : row_cells a.line_size a.stride a.height p = List.range' p a.size := by
      by_cases hheight : a.height = 0
      · rw [Plane.size, hheight, Nat.mul_zero]
        rfl
      · have hfull := full_stride (h a List.mem_cons_self hheight)
        rw [Plane.size, hfull, full_rows]
    rw [framebuffer.cells, hrows, ih fun q hq => h q (List.mem_cons_of_mem _ hq), List.map_cons,
      List.sum_cons, List.range'_append_1]

/-- Only planes without padding have as many pixels as bytes. -/
theorem unpadded_just_if {ps : List Plane} (p : Nat) :
    Unpadded ps ↔ (cells ps p).length = (ps.map Plane.size).sum := by
  constructor
  · intro h
    rw [h.cells, List.length_range']
  · induction ps generalizing p with
    | nil => exact fun _ a ha => absurd ha List.not_mem_nil
    | cons a rest ih =>
      intro h
      rw [framebuffer.cells, List.length_append, length_row_cells, List.map_cons,
        List.sum_cons] at h
      -- no plane has more pixels than bytes
      have hle : ∀ (qs : List Plane) (q : Nat),
          (cells qs q).length ≤ (qs.map Plane.size).sum := by
        intro qs q
        rw [length_cells]
        exact List.sum_le_sum fun b _ => Nat.mul_le_mul_right _ b.line_le
      have hrest := hle rest (p + a.size)
      have hfirst : a.line_size * a.height ≤ a.size := Nat.mul_le_mul_right _ a.line_le
      intro b hb hheight
      rcases List.mem_cons.mp hb with rfl | hb
      · have hsize : b.size = b.stride * b.height := rfl
        have heq : b.line_size * b.height = b.stride * b.height := by omega
        have hfull := Nat.eq_of_mul_eq_mul_right (Nat.pos_of_ne_zero hheight) heq
        rw [hfull]
        exact Nat.dvd_mul_left 16 _
      · exact ih (p + a.size) (by omega) b hb hheight

/-- The pixels from `p` on are one piece up to `g`, where the first padding is. -/
structure FirstGap (ps : List Plane) (p g : Nat) : Prop where
  start : p ≤ g
  below : ∀ a, p ≤ a → a < g → a ∈ cells ps p
  gap : g ∉ cells ps p

theorem FirstGap.unique {ps qs : List Plane} {p g k : Nat} (h : FirstGap ps p g)
    (h' : FirstGap qs p k) (hcells : cells ps p = cells qs p) : g = k := by
  rcases Nat.lt_trichotomy g k with hlt | heq | hlt
  · exact absurd (hcells ▸ h'.below g h.start hlt) h.gap
  · exact heq
  · exact absurd (hcells ▸ h.below k h'.start hlt) h'.gap

/-- A padded row ends in a gap. -/
theorem FirstGap.row {a : Plane} {rest : List Plane} (h : ¬ 16 ∣ a.line_size)
    (hheight : a.height ≠ 0) (p : Nat) : FirstGap (a :: rest) p (p + a.line_size) := by
  have hstride : a.line_size < a.stride := by
    unfold Plane.stride
    omega
  have hsize : a.stride ≤ a.size := Plane.stride_le_size (Nat.pos_of_ne_zero hheight)
  refine ⟨Nat.le_add_right _ _, fun b hb hlt => ?_, fun hmem => ?_⟩
  · refine List.mem_append_left _ (mem_row_cells.mpr ?_)
    exact ⟨0, Nat.pos_of_ne_zero hheight, b - p, by omega, by omega⟩
  · rcases List.mem_append.mp hmem with hrow | hrest
    · obtain ⟨y, -, x, hx, he⟩ := mem_row_cells.mp hrow
      cases y with
      | zero => omega
      | succ y =>
        rw [Nat.succ_mul] at he
        omega
    · have := (cells_bound hrest).1
      omega

/-- A plane without padding has no gap. -/
theorem FirstGap.after_full {a : Plane} {rest : List Plane} {p g : Nat} (h : 16 ∣ a.line_size)
    (hgap : FirstGap rest (p + a.size) g) : FirstGap (a :: rest) p g := by
  have hrows : row_cells a.line_size a.stride a.height p = List.range' p a.size := by
    rw [Plane.size, full_stride h, full_rows]
  have hstart := hgap.start
  refine ⟨by omega, fun b hb hlt => ?_, fun hmem => ?_⟩
  · rw [framebuffer.cells, hrows, List.mem_append, List.mem_range'_1]
    by_cases hfirst : b < p + a.size
    · exact Or.inl ⟨hb, hfirst⟩
    · exact Or.inr (hgap.below b (by omega) hlt)
  · rw [framebuffer.cells, hrows, List.mem_append, List.mem_range'_1] at hmem
    rcases hmem with hfirst | hrest
    · omega
    · exact hgap.gap hrest

/-! ## Padded layouts -/

theorem packed_rows_eq {a b : Plane} (ha : ¬ Unpadded [a]) (hb : ¬ Unpadded [b])
    (hcells : cells [a] 0 = cells [b] 0) (hsize : a.size = b.size) :
    a.line_size = b.line_size ∧ a.height = b.height := by
  unfold Unpadded at ha hb
  simp only [List.mem_singleton, forall_eq, Classical.not_imp] at ha hb
  have hgap : FirstGap [a] 0 (0 + a.line_size) := FirstGap.row ha.2 ha.1 0
  have hline := hgap.unique (FirstGap.row hb.2 hb.1 0) hcells
  rw [Nat.zero_add, Nat.zero_add] at hline
  have hstride : a.stride = b.stride := by rw [Plane.stride, Plane.stride, hline]
  have hpos : 0 < b.stride := by
    unfold Plane.stride
    omega
  rw [Plane.size, Plane.size, hstride] at hsize
  exact ⟨hline, Nat.eq_of_mul_eq_mul_left hpos hsize⟩

/-- Two planes of one row length: the second has half the rows. -/
theorem nv12_rows_eq {w h w' h' : Nat}
    (hpad : ¬ Unpadded (code_planes ⟨w, h, .VF_PIXEL_FMT_NV12⟩))
    (hpad' : ¬ Unpadded (code_planes ⟨w', h', .VF_PIXEL_FMT_NV12⟩))
    (hcells : cells (code_planes ⟨w, h, .VF_PIXEL_FMT_NV12⟩) 0 =
      cells (code_planes ⟨w', h', .VF_PIXEL_FMT_NV12⟩) 0)
    (hsize : planes_size ⟨w, h, .VF_PIXEL_FMT_NV12⟩ = planes_size ⟨w', h', .VF_PIXEL_FMT_NV12⟩) :
    w = w' ∧ h = h' := by
  have padded : ∀ u k : Nat, ¬ Unpadded (code_planes ⟨u, k, .VF_PIXEL_FMT_NV12⟩) →
      ¬ 16 ∣ u ∧ k ≠ 0 := by
    intro u k hno
    by_contra hnot
    refine hno fun p hp => ?_
    simp only [code_planes, planes_with, List.mem_cons, List.not_mem_nil, or_false] at hp
    rcases hp with rfl | rfl <;> simp only <;> omega
  have hline := (FirstGap.row (padded w h hpad).1 (padded w h hpad).2 0).unique
    (FirstGap.row (padded w' h' hpad').1 (padded w' h' hpad').2 0) hcells
  have hw : w = w' := by simpa using hline
  subst hw
  have hstride : 0 < (w + 15) / 16 * 16 := by
    have := (padded w h hpad).1
    omega
  have hheights : (w + 15) / 16 * 16 * (h + h / 2) = (w + 15) / 16 * 16 * (h' + h' / 2) := by
    simpa [planes_size, code_planes, planes_with, Plane.size, Plane.stride, Nat.mul_add]
      using hsize
  have := Nat.eq_of_mul_eq_mul_left hstride hheights
  exact ⟨rfl, by omega⟩

section
variable {w h w' h' : Nat}

/-- The first gap of three planes: in the first row, or behind the first row of the second
plane. -/
theorem yuv420p_gap (hpad : ¬ Unpadded (code_planes ⟨w, h, .VF_PIXEL_FMT_YUV420P⟩)) :
    ∃ g, FirstGap (code_planes ⟨w, h, .VF_PIXEL_FMT_YUV420P⟩) 0 g ∧
      (¬ 16 ∣ w ∧ h ≠ 0 ∧ g = w ∨ 16 ∣ w ∧ ¬ 16 ∣ w / 2 ∧ h / 2 ≠ 0 ∧ g = w * h + w / 2) := by
  by_cases hw : 16 ∣ w
  · have hchroma : ¬ 16 ∣ w / 2 ∧ h / 2 ≠ 0 := by
      by_contra hnot
      refine hpad fun p hp => ?_
      simp only [code_planes, planes_with, List.mem_cons, List.not_mem_nil, or_false] at hp
      rcases hp with rfl | rfl | rfl <;> simp only <;> omega
    have hluma : (⟨w, h, w⟩ : Plane).size = w * h := by rw [Plane.size, full_stride hw]
    refine ⟨w * h + w / 2, FirstGap.after_full hw ?_, Or.inr ⟨hw, hchroma.1, hchroma.2, rfl⟩⟩
    rw [hluma, Nat.zero_add]
    exact FirstGap.row hchroma.1 hchroma.2 _
  · have hh : h ≠ 0 := by
      rintro rfl
      refine hpad fun p hp => ?_
      simp only [code_planes, planes_with, List.mem_cons, List.not_mem_nil, or_false] at hp
      rcases hp with rfl | rfl | rfl <;> simp
    have hrow : FirstGap (code_planes ⟨w, h, .VF_PIXEL_FMT_YUV420P⟩) 0 (0 + w) :=
      FirstGap.row hw hh 0
    rw [Nat.zero_add] at hrow
    exact ⟨w, hrow, Or.inl ⟨hw, hh, rfl⟩⟩

theorem yuv420p_size : planes_size ⟨w, h, .VF_PIXEL_FMT_YUV420P⟩ =
    (w + 15) / 16 * 16 * h + 2 * ((w / 2 + 15) / 16 * 16 * (h / 2)) := by
  unfold planes_size code_planes planes_with
  simp only [List.map_cons, List.map_nil, List.sum_cons, List.sum_nil, Plane.size, Plane.stride]
  omega

/-- More rows need more bytes. -/
theorem heights_eq {s c : Nat} (hs : 0 < s)
    (heq : s * h + 2 * (c * (h / 2)) = s * h' + 2 * (c * (h' / 2))) : h = h' := by
  have hmono : StrictMono fun n => s * n + 2 * (c * (n / 2)) := by
    intro m n hmn
    have hluma : s * m < s * n := Nat.mul_lt_mul_of_pos_left hmn hs
    have hchroma : c * (m / 2) ≤ c * (n / 2) :=
      Nat.mul_le_mul_left c (Nat.div_le_div_right hmn.le)
    simp only
    omega
  exact hmono.injective heq

/-- Two layouts whose first plane is full, with the gap, the size and the pixels of each other,
where `u` is the row of the chroma planes. -/
theorem full_luma_eq {u u' k k' : Nat} (hu : 0 < u) (hk : k ≠ 0)
    (hgap : 2 * u * h + u = 2 * u' * h' + u')
    (hsize : 2 * u * h + 2 * ((u + 8) * k) = 2 * u' * h' + 2 * ((u' + 8) * k'))
    (hlen : 2 * u * h + 2 * (u * k) = 2 * u' * h' + 2 * (u' * k')) : u = u' ∧ h = h' := by
  -- the padding gives the rows of the chroma planes
  rw [Nat.add_mul, Nat.add_mul] at hsize
  obtain rfl : k = k' := by omega
  have hrows : u * (h + k) = u' * (h' + k) := by
    rw [Nat.mul_add, Nat.mul_add]
    rw [Nat.mul_assoc, Nat.mul_assoc] at hlen
    omega
  have hfirst : u * (2 * h + 1) = u' * (2 * h' + 1) := by
    calc u * (2 * h + 1) = 2 * u * h + u := by ring
      _ = 2 * u' * h' + u' := hgap
      _ = u' * (2 * h' + 1) := by ring
  have hcross : u * ((h + k) * (2 * h' + 1)) = u * ((2 * h + 1) * (h' + k)) := by
    calc u * ((h + k) * (2 * h' + 1)) = u * (h + k) * (2 * h' + 1) := by ring
      _ = u' * (h' + k) * (2 * h' + 1) := by rw [hrows]
      _ = u' * (2 * h' + 1) * (h' + k) := by ring
      _ = u * (2 * h + 1) * (h' + k) := by rw [hfirst]
      _ = u * ((2 * h + 1) * (h' + k)) := by ring
  have hprod := Nat.eq_of_mul_eq_mul_left hu hcross
  obtain ⟨j, rfl⟩ := Nat.exists_eq_succ_of_ne_zero hk
  have hheight : (2 * j + 1) * h' = (2 * j + 1) * h := by linarith
  obtain rfl := Nat.eq_of_mul_eq_mul_left (Nat.succ_pos _) hheight
  exact ⟨Nat.eq_of_mul_eq_mul_right (Nat.succ_pos _) hfirst, rfl⟩

/-- A layout with its gap in the first row has another size than one with the same gap in the
second plane: it is larger with two rows, and smaller with one. -/
theorem gaps_differ (hh : h ≠ 0) (hw' : 16 ∣ w') (hu : ¬ 16 ∣ w' / 2)
    (hk : h' / 2 ≠ 0) (hgap : w = w' * h' + w' / 2) :
    planes_size ⟨w, h, .VF_PIXEL_FMT_YUV420P⟩ ≠ planes_size ⟨w', h', .VF_PIXEL_FMT_YUV420P⟩ := by
  rw [yuv420p_size, yuv420p_size]
  have hluma : (w' + 15) / 16 * 16 = w' := by omega
  have hchroma : (w' / 2 + 15) / 16 * 16 = w' / 2 + 8 := by omega
  have hfull : 16 ∣ w' * h' := hw'.mul_right h'
  have hstride : (w + 15) / 16 * 16 = w + 8 := by omega
  rw [hluma, hchroma, hstride]
  have hone : w' / 2 + 8 ≤ (w' / 2 + 8) * (h' / 2) := Nat.le_mul_of_pos_right _ (by omega)
  have htwo : (w' / 2 + 8) * (h' / 2 * 2) ≤ w' * h' := Nat.mul_le_mul (by omega) (by omega)
  rw [← Nat.mul_assoc] at htwo
  rcases Nat.lt_or_ge h 2 with hrow | hrows
  · obtain rfl : h = 1 := by omega
    simp only [Nat.mul_one, Nat.reduceDiv, Nat.mul_zero]
    omega
  · have hmore : (w + 8) * 2 ≤ (w + 8) * h := Nat.mul_le_mul_left _ hrows
    have hhalf : w / 2 * 1 ≤ (w / 2 + 15) / 16 * 16 * (h / 2) :=
      Nat.mul_le_mul (by omega) (by omega)
    omega

/-- Three planes: the second and the third have half the rows, of half the length. -/
theorem yuv420p_rows_eq (hpad : ¬ Unpadded (code_planes ⟨w, h, .VF_PIXEL_FMT_YUV420P⟩))
    (hpad' : ¬ Unpadded (code_planes ⟨w', h', .VF_PIXEL_FMT_YUV420P⟩))
    (hcells : cells (code_planes ⟨w, h, .VF_PIXEL_FMT_YUV420P⟩) 0 =
      cells (code_planes ⟨w', h', .VF_PIXEL_FMT_YUV420P⟩) 0)
    (hsize : planes_size ⟨w, h, .VF_PIXEL_FMT_YUV420P⟩ =
      planes_size ⟨w', h', .VF_PIXEL_FMT_YUV420P⟩) : w = w' ∧ h = h' := by
  obtain ⟨g, hfirst, hg⟩ := yuv420p_gap hpad
  obtain ⟨g', hfirst', hg'⟩ := yuv420p_gap hpad'
  obtain rfl := hfirst.unique hfirst' hcells
  rcases hg with ⟨hw, hh, rfl⟩ | ⟨hw, hu, hk, rfl⟩ <;>
    rcases hg' with ⟨hw', hh', he⟩ | ⟨hw', hu', hk', he⟩
  · subst he
    rw [yuv420p_size, yuv420p_size] at hsize
    exact ⟨rfl, heights_eq (by omega) hsize⟩
  · exact absurd hsize (gaps_differ hh hw' hu' hk' he)
  · exact absurd hsize.symm (gaps_differ hh' hw hu hk he.symm)
  · have hlen := congrArg List.length hcells
    rw [length_cells, length_cells] at hlen
    simp only [code_planes, planes_with, List.map_cons, List.map_nil, List.sum_cons,
      List.sum_nil] at hlen
    rw [yuv420p_size, yuv420p_size] at hsize
    obtain ⟨u, hu2⟩ : ∃ u, w = 2 * u := ⟨w / 2, by omega⟩
    obtain ⟨u', hu2'⟩ : ∃ u', w' = 2 * u' := ⟨w' / 2, by omega⟩
    subst hu2 hu2'
    have hhalf : 2 * u / 2 = u := by omega
    have hhalf' : 2 * u' / 2 = u' := by omega
    have hs : (2 * u + 15) / 16 * 16 = 2 * u := by omega
    have hs' : (2 * u' + 15) / 16 * 16 = 2 * u' := by omega
    rw [hhalf] at hu he
    rw [hhalf'] at hu' he
    have hc : (u + 15) / 16 * 16 = u + 8 := by omega
    have hc' : (u' + 15) / 16 * 16 = u' + 8 := by omega
    rw [hhalf, hhalf', hs, hs', hc, hc'] at hsize
    rw [hhalf, hhalf'] at hlen
    obtain ⟨rfl, rfl⟩ := full_luma_eq (by omega) hk he hsize (by omega)
    exact ⟨rfl, rfl⟩

end

section
variable {pd ps : vf_fb_params_t}

/-- Padded frames of one format and one size have their pixels at the same places only if
they have the same rows. -/
theorem padded_rows_eq (hacc : Accepted pd.format) (hfmt : pd.format = ps.format)
    (hpad : ¬ Unpadded (code_planes pd)) (hpad' : ¬ Unpadded (code_planes ps))
    (hcells : cells (code_planes pd) 0 = cells (code_planes ps) 0)
    (hsize : planes_size pd = planes_size ps) : rows pd = rows ps := by
  obtain ⟨w, h, format⟩ := pd
  obtain ⟨w', h', format'⟩ := ps
  simp only at hfmt hacc
  subst hfmt
  have packed (a b : Plane) (ha : code_planes ⟨w, h, format⟩ = [a])
      (hb : code_planes ⟨w', h', format⟩ = [b]) :
      rows ⟨w, h, format⟩ = rows ⟨w', h', format⟩ := by
    unfold planes_size at hsize
    rw [ha] at hpad
    rw [hb] at hpad'
    rw [ha, hb] at hcells hsize
    obtain ⟨hline, hheight⟩ := packed_rows_eq hpad hpad' hcells (by simpa using hsize)
    rw [rows, rows, ha, hb, List.map_singleton, List.map_singleton, hline, hheight]
  cases format with
  | VF_PIXEL_FMT_UNKNOWN => exact absurd rfl hacc.1
  | VF_PIXEL_FMT_MJPEG => exact absurd rfl hacc.2.1
  | VF_PIXEL_FMT_LAST => exact absurd rfl hacc.2.2
  | VF_PIXEL_FMT_YUV420P =>
    obtain ⟨rfl, rfl⟩ := yuv420p_rows_eq hpad hpad' hcells hsize
    rfl
  | VF_PIXEL_FMT_NV12 =>
    obtain ⟨rfl, rfl⟩ := nv12_rows_eq hpad hpad' hcells hsize
    rfl
  | _ => exact packed _ _ rfl rfl

/-- Where the memory of two frames holds their planes, the pixels lie at the same places just
if the rows are the same, or none has padding. -/
theorem cells_eq_just_if (hacc : Accepted pd.format) (hfmt : pd.format = ps.format)
    (hsize : planes_size pd = planes_size ps) :
    cells (code_planes pd) 0 = cells (code_planes ps) 0 ↔
      rows pd = rows ps ∨ Unpadded (code_planes pd) ∧ Unpadded (code_planes ps) := by
  constructor
  · intro hcells
    have hlen := congrArg List.length hcells
    have hd : Unpadded (code_planes pd) ↔ (cells (code_planes pd) 0).length = planes_size pd :=
      unpadded_just_if 0
    have hs : Unpadded (code_planes ps) ↔ (cells (code_planes ps) 0).length = planes_size ps :=
      unpadded_just_if 0
    rw [hlen, hsize] at hd
    by_cases hpad : Unpadded (code_planes pd)
    · exact Or.inr ⟨hpad, hs.mpr (hd.mp hpad)⟩
    · have hpad' : ¬ Unpadded (code_planes ps) := fun h => hpad (hd.mpr (hs.mp h))
      exact Or.inl (padded_rows_eq hacc hfmt hpad hpad' hcells hsize)
  · rintro (hrows | ⟨hd, hs⟩)
    · exact map_plane_rows hrows 0
    · rw [hd.cells, hs.cells, ← planes_size, ← planes_size, hsize]

/-- Planes that are larger than 32 bits have a pixel behind the size that is left of them. -/
theorem a_late_pixel {qs : List Plane} (hfit : ∀ q ∈ qs, q.size < 2 ^ 32) (p : Nat)
    (hsome : 0 < (qs.map Plane.size).sum) :
    ∃ a ∈ cells qs p, p + (qs.map Plane.size).sum < a + 2 ^ 32 := by
  induction qs generalizing p with
  | nil => exact absurd hsome (Nat.lt_irrefl 0)
  | cons q rest ih =>
    rw [List.map_cons, List.sum_cons] at hsome ⊢
    by_cases hrest : 0 < (rest.map Plane.size).sum
    · have hfits : ∀ r ∈ rest, r.size < 2 ^ 32 := fun r hr => hfit r (List.mem_cons_of_mem _ hr)
      obtain ⟨a, ha, hlate⟩ := ih hfits (p + q.size) hrest
      exact ⟨a, List.mem_append_right _ ha, by omega⟩
    · -- the first pixel of the last row of this plane
      have hq : q.size ≠ 0 := by omega
      have hline := line_pos hq
      have hheight : 0 < q.height := by
        refine Nat.pos_of_ne_zero fun h0 => hq ?_
        rw [Plane.size, h0, Nat.mul_zero]
      have hrow : q.stride ≤ q.size := Plane.stride_le_size hheight
      have hlast : (q.height - 1) * q.stride + q.stride = q.size := by
        rw [← Nat.succ_mul, Nat.succ_eq_add_one, Nat.sub_add_cancel hheight, Nat.mul_comm,
          Plane.size]
      have hlt := hfit q List.mem_cons_self
      refine ⟨p + (q.height - 1) * q.stride + 0, List.mem_append_left _ ?_, by omega⟩
      exact mem_row_cells.mpr ⟨q.height - 1, by omega, 0, hline, rfl⟩

/-- All pixels lie in the memory just if it holds the planes. -/
theorem pixels_below_just_if (hfit : ∀ q ∈ code_planes ps, q.size < 2 ^ 32) :
    (∀ a ∈ cells (code_planes ps) 0, a < u32 (planes_size ps)) ↔ planes_size ps < 2 ^ 32 := by
  constructor
  · intro hall
    by_contra hwrap
    rw [not_lt] at hwrap
    obtain ⟨a, ha, hlate⟩ := a_late_pixel hfit 0 (Nat.lt_of_lt_of_le (Nat.two_pow_pos 32) hwrap)
    have hlt := hall a ha
    have hleft : u32 (planes_size ps) + 2 ^ 32 ≤ planes_size ps := by
      unfold u32
      omega
    unfold planes_size at *
    omega
  · intro hsize a ha
    rw [u32_of_lt hsize]
    have hbound := (cells_bound ha).2
    rwa [Nat.zero_add] at hbound

end

/-! ## The law -/

/-- Only where the two lists name the same places, all of them in the first `n`, a copy of `n`
bytes shows the same bytes whatever they are. -/
theorem copied_eq_just_if {as bs : List Nat} {n : Nat} :
    (∀ d s : Nat → UInt8, as.map (fun a => if a < n then s a else d a) = bs.map s) ↔
      as = bs ∧ ∀ a ∈ bs, a < n := by
  constructor
  · intro h
    have hlen := congrArg List.length (h (fun _ => 0) fun _ => 0)
    rw [List.length_map, List.length_map] at hlen
    have hsame : as = bs := by
      refine List.ext_getElem hlen fun k hk hk' => ?_
      -- the source marks the place that it shows
      have hmark := h (fun _ => 0) fun a => if a = bs[k] then 1 else 0
      have hbyte := congrArg (·[k]?) hmark
      simp only [List.getElem?_map, List.getElem?_eq_getElem hk, List.getElem?_eq_getElem hk',
        Option.map_some, if_true, Option.some.injEq] at hbyte
      by_contra hne
      simp [hne] at hbyte
    refine ⟨hsame, fun a ha => ?_⟩
    obtain ⟨k, hk, rfl⟩ := List.mem_iff_getElem.mp ha
    have hmark := h (fun _ => 1) fun _ => 0
    rw [hsame] at hmark
    have hbyte := congrArg (·[k]?) hmark
    simp only [List.getElem?_map, List.getElem?_eq_getElem hk, Option.map_some,
      Option.some.injEq] at hbyte
    by_contra hfar
    simp [hfar] at hbyte
  · rintro ⟨rfl, hbelow⟩ d s
    exact List.map_congr_left fun a ha => if_pos (hbelow a ha)

theorem vf_framebuffer_copy.spec (dst src : vf_framebuffer_t) (d s : Nat → UInt8) :
    ((vf_framebuffer_copy (dst.holding d) (src.holding s)).1 = .VF_SUCCESS ↔
        dst.total_size = src.total_size ∧ dst.params.format = src.params.format) ∧
      ((vf_framebuffer_copy (dst.holding d) (src.holding s)).1 = .VF_SUCCESS →
        (vf_framebuffer_copy (dst.holding d) (src.holding s)).2 =
          dst.holding fun a => if a < src.total_size then s a else d a) := by
  unfold vf_framebuffer_copy vf_framebuffer_t.holding
  simp only
  by_cases hsize : dst.total_size = src.total_size
  · by_cases hfmt : dst.params.format = src.params.format <;> simp [hsize, hfmt]
  · simp [hsize]

section
variable {fb0 fb1 dst src : vf_framebuffer_t} {pd ps : vf_fb_params_t}

/-- Two frames are written as the same just if they show the same bytes. -/
theorem writes_same_just_if (hd : Laid dst (code_planes pd)) (hs : Laid src (code_planes ps))
    (d s : Nat → UInt8) : WritesSame (dst.holding d) (src.holding s) ↔
      (cells (code_planes pd) 0).map d = (cells (code_planes ps) 0).map s := by
  have hstop : ∀ params, Shrinking (code_planes params) := fun params _ =>
    code_planes_stop params
  constructor
  · intro h
    obtain ⟨-, hfile⟩ := h (at_end []) 0
    rw [vf_framebuffer_write_to_fptr.spec hd.toArrays (hstop pd) (code_planes_length pd),
      vf_framebuffer_write_to_fptr.spec hs.toArrays (hstop ps) (code_planes_length ps)] at hfile
    exact congrArg FILE.bytes hfile
  · intro h f w
    obtain ⟨hrc, hfile⟩ := vf_framebuffer_write_to_fptr.any hd.toArrays (hstop pd)
      (code_planes_length pd) d f w
    obtain ⟨hrc', hfile'⟩ := vf_framebuffer_write_to_fptr.any hs.toArrays (hstop ps)
      (code_planes_length ps) s f w
    rw [hrc, hfile, hrc', hfile', h]
    exact ⟨rfl, rfl⟩

theorem code_planes_fit (hacc : Accepted ps.format) (hfit : PlaneSizesFit ps) :
    ∀ q ∈ code_planes ps, q.size < 2 ^ 32 := by
  obtain ⟨w, h, format⟩ := ps
  have packed (n : Nat) (hexact : (⟨w, h, w * n / 8⟩ : Plane).size < 2 ^ 32) :
      ∀ q ∈ [(⟨w, h, u32 (w * n) / 8⟩ : Plane)], q.size < 2 ^ 32 := by
    intro q hq
    rw [List.mem_singleton.mp hq]
    have hrow : u32 (w * n) / 8 ≤ w * n / 8 := Nat.div_le_div_right (u32_le _)
    exact Nat.lt_of_le_of_lt (Plane.size_mono hrow (Nat.le_refl h)) hexact
  cases format with
  | VF_PIXEL_FMT_UNKNOWN => exact absurd rfl hacc.1
  | VF_PIXEL_FMT_MJPEG => exact absurd rfl hacc.2.1
  | VF_PIXEL_FMT_LAST => exact absurd rfl hacc.2.2
  | VF_PIXEL_FMT_YUV420P => exact hfit
  | VF_PIXEL_FMT_NV12 => exact hfit
  | _ => exact packed _ (hfit _ List.mem_cons_self)

/-- The copy between two allocated frames shows the picture of its source just if it is
refused, or the memories hold their planes and these have the same rows or no padding. -/
theorem a_copy_shows_its_source_just_if_the_rows_agree
    (hd : vf_framebuffer_alloc fb0 pd true = (.VF_SUCCESS, dst))
    (hs : vf_framebuffer_alloc fb1 ps true = (.VF_SUCCESS, src))
    (hfd : PlaneSizesFit pd) (hfs : PlaneSizesFit ps) :
    CopiesThePicture dst src ↔
      (dst.total_size = src.total_size → pd.format = ps.format → SameRows pd ps) := by
  obtain ⟨haccd, hwd, hhd⟩ := vf_framebuffer_alloc.accepted (congrArg Prod.fst hd)
  obtain ⟨haccs, hws, hhs⟩ := vf_framebuffer_alloc.accepted (congrArg Prod.fst hs)
  obtain ⟨-, hpd, -, hld⟩ := vf_framebuffer_alloc.spec fb0 pd haccd hwd hhd hfd
  obtain ⟨-, hps, -, hls⟩ := vf_framebuffer_alloc.spec fb1 ps haccs hws hhs hfs
  rw [hd] at hpd hld
  rw [hs] at hps hls
  simp only at hpd hld hps hls
  have hbelow := pixels_below_just_if (code_planes_fit haccd hfd)
  have hbelow' := pixels_below_just_if (code_planes_fit haccs hfs)
  have htotal : dst.total_size = u32 (planes_size pd) := hld.total_size
  have htotal' : src.total_size = u32 (planes_size ps) := hls.total_size
  constructor
  · intro hcopy hsize hfmt
    -- the copy succeeds for all bytes, so it shows the same places
    have hshown : ∀ d s : Nat → UInt8,
        (cells (code_planes pd) 0).map (fun a => if a < src.total_size then s a else d a) =
          (cells (code_planes ps) 0).map s := by
      intro d s
      obtain ⟨hok, hcopied⟩ := vf_framebuffer_copy.spec dst src d s
      have hrc := hok.mpr ⟨hsize, by rw [hpd, hps, hfmt]⟩
      have hsame := hcopy d s hrc
      rw [hcopied hrc] at hsame
      exact (writes_same_just_if hld hls _ s).mp hsame
    obtain ⟨hcells, hplaces⟩ := copied_eq_just_if.mp hshown
    rw [htotal'] at hplaces
    have hsmall' := hbelow'.mp hplaces
    rw [← htotal', ← hsize, htotal, ← hcells] at hplaces
    have hsmall := hbelow.mp hplaces
    rw [htotal, htotal', u32_of_lt hsmall, u32_of_lt hsmall'] at hsize
    exact ⟨hsmall, hsmall', (cells_eq_just_if haccd hfmt hsize).mp hcells⟩
  · intro hrows d s hrc
    obtain ⟨hok, hcopied⟩ := vf_framebuffer_copy.spec dst src d s
    obtain ⟨hsize, hfmt⟩ := hok.mp hrc
    rw [hpd, hps] at hfmt
    obtain ⟨hsmall, hsmall', hagree⟩ := hrows hsize hfmt
    have hplaces := hbelow'.mpr hsmall'
    rw [← htotal'] at hplaces
    rw [htotal, htotal', u32_of_lt hsmall, u32_of_lt hsmall'] at hsize
    have hcells := (cells_eq_just_if haccd hfmt hsize).mpr hagree
    rw [hcopied hrc, writes_same_just_if hld hls]
    exact copied_eq_just_if.mpr ⟨hcells, hplaces⟩ d s

end

/-- Two grey frames without padding: 16 by 2 and 32 by 1. -/
theorem a_wide_grey_frame_is_copied_to_a_high_one :
    CopiesThePicture (vf_framebuffer_alloc zeroed ⟨16, 2, .VF_PIXEL_FMT_RAW8⟩ true).2
      (vf_framebuffer_alloc zeroed ⟨32, 1, .VF_PIXEL_FMT_RAW8⟩ true).2 := by
  have hd : vf_framebuffer_alloc zeroed ⟨16, 2, .VF_PIXEL_FMT_RAW8⟩ true =
    (.VF_SUCCESS, (vf_framebuffer_alloc zeroed ⟨16, 2, .VF_PIXEL_FMT_RAW8⟩ true).2) := rfl
  have hs : vf_framebuffer_alloc zeroed ⟨32, 1, .VF_PIXEL_FMT_RAW8⟩ true =
    (.VF_SUCCESS, (vf_framebuffer_alloc zeroed ⟨32, 1, .VF_PIXEL_FMT_RAW8⟩ true).2) := rfl
  refine (a_copy_shows_its_source_just_if_the_rows_agree hd hs (by decide) (by decide)).mpr ?_
  intro _ _
  exact ⟨by decide, by decide, Or.inr ⟨by decide, by decide⟩⟩

/-- A copy from two grey pixels to a frame of one succeeds, and shows one of them. -/
theorem a_copy_loses_a_pixel :
    ¬ ∀ fb0 fb1 dst src pd ps, vf_framebuffer_alloc fb0 pd true = (.VF_SUCCESS, dst) →
      vf_framebuffer_alloc fb1 ps true = (.VF_SUCCESS, src) → PlaneSizesFit pd →
      PlaneSizesFit ps → CopiesThePicture dst src := by
  intro h
  have hcopy := h zeroed zeroed _ _ ⟨1, 1, .VF_PIXEL_FMT_RAW8⟩ ⟨2, 1, .VF_PIXEL_FMT_RAW8⟩ rfl rfl
    (by decide) (by decide) (fun _ => 0) (fun _ => 7) (by decide)
  have hwritten := congrArg FILE.bytes (hcopy (at_end []) 0).2
  exact absurd hwritten (by decide)

end vision_flow.framebuffer
