-- Frames in a file (vf_framebuffer_write_to_fptr and vf_framebuffer_read_from_fptr).
-- Both walk the planes and the rows, and move the bytes of a row that are pixels. What
-- is written is read back, byte for byte, and the padding of a row is left alone.
import VisionFlow.Lib.Memory
import VisionFlow.Framebuffer

open memory

namespace vision_flow.framebuffer

/-! ## The code -/

/-- A stdio stream: its bytes, the position, and how many more bytes it takes. With
`room := none` no write fails. -/
structure FILE where
  bytes : List UInt8
  pos : Nat
  room : Option Nat

/-- `fwrite(ptr, size, 1, fptr)`, where `line` is the `size` bytes at `ptr`. What does not
fit is lost. A size of 0 gives 0. -/
def fwrite (line : List UInt8) (f : FILE) : Nat × FILE :=
  let n := match f.room with
    | none => line.length
    | some r => min line.length r
  (if n = line.length ∧ n ≠ 0 then 1 else 0, { f with
    bytes := f.bytes.take f.pos ++ line.take n ++ f.bytes.drop (f.pos + n)
    pos := f.pos + n
    room := f.room.map (· - n) })

/-- `fread(ptr, size, 1, fptr)`: the bytes that are there, at most `size`. -/
def fread (size : Nat) (f : FILE) : Nat × List UInt8 × FILE :=
  let got := (f.bytes.drop f.pos).take size
  (if got.length = size ∧ size ≠ 0 then 1 else 0, got, { f with pos := f.pos + got.length })

def ONE_LINE : Nat := 1

/-- The row loop of the writer, over `n` rows from `line_ptr` on. -/
def write_lines (data : Nat → UInt8) (line_size stride : Nat) :
    Nat → Nat → FILE → Nat → vf_err_t × FILE × Nat
  | 0, _, f, written_bytes => (.VF_SUCCESS, f, written_bytes)
  | n + 1, line_ptr, f, written_bytes =>
    let (written, f) := fwrite ((List.range' line_ptr line_size).map data) f
    if written ≠ ONE_LINE then
      (.VF_FILE_ERR, f, written_bytes)
    else
      write_lines data line_size stride n (line_ptr + stride) f (written_bytes + line_size)

/-- The plane loop of the writer, over `n` planes from plane `i` on. -/
def write_planes (fb : vf_framebuffer_t) (data : Nat → UInt8) :
    Nat → Nat → Nat → FILE → Nat → vf_err_t × FILE × Nat
  | 0, _, _, f, written_bytes => (.VF_SUCCESS, f, written_bytes)
  | n + 1, i, plane_ptr, f, written_bytes =>
    if fb.plane_size i = 0 then
      (.VF_SUCCESS, f, written_bytes)
    else
      let (rc, f, written_bytes) := write_lines data (fb.plane_line_size i) (fb.plane_stride i)
        (fb.plane_height i) plane_ptr f written_bytes
      if rc ≠ .VF_SUCCESS then
        (rc, f, written_bytes)
      else
        write_planes fb data n (i + 1) (plane_ptr + fb.plane_size i) f written_bytes

def vf_framebuffer_write_to_fptr (fb : vf_framebuffer_t) (f : FILE) (written_bytes : Nat) :
    vf_err_t × FILE × Nat :=
  match fb.data with
  | none => (.VF_INVALID_PARAMETER, f, written_bytes)
  | some data => write_planes fb data VF_FB_MAX_PLANE_COUNT 0 0 f 0

/-- The row loop of the reader, over `n` rows from `line_ptr` on. -/
def read_lines (line_size stride : Nat) :
    Nat → Nat → (Nat → UInt8) → FILE → Nat → vf_err_t × (Nat → UInt8) × FILE × Nat
  | 0, _, data, f, read_bytes => (.VF_SUCCESS, data, f, read_bytes)
  | n + 1, line_ptr, data, f, read_bytes =>
    let (count, got, f) := fread line_size f
    let data := write_all data ((List.range' line_ptr line_size).zip got)
    if count ≠ ONE_LINE then
      (.VF_FILE_ERR, data, f, read_bytes)
    else
      read_lines line_size stride n (line_ptr + stride) data f (read_bytes + line_size)

/-- The plane loop of the reader, over `n` planes from plane `i` on. -/
def read_planes (fb : vf_framebuffer_t) :
    Nat → Nat → Nat → (Nat → UInt8) → FILE → Nat → vf_err_t × (Nat → UInt8) × FILE × Nat
  | 0, _, _, data, f, read_bytes => (.VF_SUCCESS, data, f, read_bytes)
  | n + 1, i, plane_ptr, data, f, read_bytes =>
    if fb.plane_size i = 0 then
      (.VF_SUCCESS, data, f, read_bytes)
    else
      let (rc, data, f, read_bytes) := read_lines (fb.plane_line_size i) (fb.plane_stride i)
        (fb.plane_height i) plane_ptr data f read_bytes
      if rc ≠ .VF_SUCCESS then
        (rc, data, f, read_bytes)
      else
        read_planes fb n (i + 1) (plane_ptr + fb.plane_size i) data f read_bytes

def vf_framebuffer_read_from_fptr (fb : vf_framebuffer_t) (f : FILE) (read_bytes : Nat) :
    vf_err_t × vf_framebuffer_t × FILE × Nat :=
  match fb.data with
  | none => (.VF_INVALID_PARAMETER, fb, f, read_bytes)
  | some data =>
    let (rc, data, f, read_bytes) := read_planes fb VF_FB_MAX_PLANE_COUNT 0 0 data f 0
    (rc, { fb with data := some data }, f, read_bytes)

/-- The frames written one after another, with what each call reports. -/
def write_frames : List vf_framebuffer_t → FILE → List (vf_err_t × Nat) × FILE
  | [], f => ([], f)
  | fb :: rest, f =>
    let (rc, f, written_bytes) := vf_framebuffer_write_to_fptr fb f 0
    let (reports, f) := write_frames rest f
    ((rc, written_bytes) :: reports, f)

/-- The frames read one after another, with what each call reports. -/
def read_frames :
    List vf_framebuffer_t → FILE → List (vf_err_t × Nat) × List vf_framebuffer_t × FILE
  | [], f => ([], [], f)
  | fb :: rest, f =>
    let (rc, fb, f, read_bytes) := vf_framebuffer_read_from_fptr fb f 0
    let (reports, fbs, f) := read_frames rest f
    ((rc, read_bytes) :: reports, fb :: fbs, f)

/-! ## The pixels of a frame -/

/-- The addresses of `n` rows from `p` on, row by row. -/
def row_cells (line_size stride : Nat) : Nat → Nat → List Nat
  | 0, _ => []
  | n + 1, p => List.range' p line_size ++ row_cells line_size stride n (p + stride)

/-- The addresses of the pixels of the planes from `p` on, plane by plane. -/
def cells : List Plane → Nat → List Nat
  | [], _ => []
  | pl :: rest, p => row_cells pl.line_size pl.stride pl.height p ++ cells rest (p + pl.size)

theorem length_row_cells (l s n p : Nat) : (row_cells l s n p).length = l * n := by
  induction n generalizing p with
  | zero => rfl
  | succ n ih => simp [row_cells, ih, Nat.mul_succ, Nat.add_comm]

theorem mem_row_cells {l s n p a : Nat} :
    a ∈ row_cells l s n p ↔ ∃ y < n, ∃ x < l, a = p + y * s + x := by
  induction n generalizing p with
  | zero => simp [row_cells]
  | succ n ih =>
    simp only [row_cells, List.mem_append, List.mem_range'_1, ih]
    constructor
    · rintro (h | ⟨y, hy, x, hx, rfl⟩)
      · exact ⟨0, by omega, a - p, by omega, by omega⟩
      · exact ⟨y + 1, by omega, x, hx, by rw [Nat.succ_mul]; omega⟩
    · rintro ⟨y, hy, x, hx, rfl⟩
      cases y with
      | zero => exact Or.inl (by omega)
      | succ y => exact Or.inr ⟨y, by omega, x, hx, by rw [Nat.succ_mul]; omega⟩

/-- The rows of a plane end where the plane ends. -/
theorem row_cells_bound {l s n p a : Nat} (hls : l ≤ s) (h : a ∈ row_cells l s n p) :
    p ≤ a ∧ a < p + s * n := by
  obtain ⟨y, hy, x, hx, rfl⟩ := mem_row_cells.mp h
  have hrow : (y + 1) * s ≤ n * s := Nat.mul_le_mul_right s hy
  rw [Nat.succ_mul] at hrow
  rw [Nat.mul_comm s n]
  omega

theorem cells_bound {ps : List Plane} {p a : Nat} (h : a ∈ cells ps p) :
    p ≤ a ∧ a < p + (ps.map Plane.size).sum := by
  induction ps generalizing p with
  | nil => simp [cells] at h
  | cons pl rest ih =>
    simp only [List.map_cons, List.sum_cons]
    rcases List.mem_append.mp h with h | h
    · have := row_cells_bound pl.line_le h
      unfold Plane.size
      omega
    · have := ih h
      omega

/-- No address is moved twice. -/
theorem nodup_row_cells {l s n p : Nat} (hls : l ≤ s) : (row_cells l s n p).Nodup := by
  induction n generalizing p with
  | zero => exact List.nodup_nil
  | succ n ih =>
    refine List.nodup_append.mpr ⟨List.nodup_range', ih, ?_⟩
    intro a ha b hb
    have hbnd := row_cells_bound hls hb
    have := List.mem_range'_1.mp ha
    omega

theorem nodup_cells (ps : List Plane) (p : Nat) : (cells ps p).Nodup := by
  induction ps generalizing p with
  | nil => exact List.nodup_nil
  | cons pl rest ih =>
    refine List.nodup_append.mpr ⟨nodup_row_cells pl.line_le, ih _, ?_⟩
    intro a ha b hb
    have hbnd := cells_bound hb
    have := row_cells_bound pl.line_le ha
    unfold Plane.size at hbnd
    omega

theorem plane_at_past (ps : List Plane) {i : Nat} (h : ps.length ≤ i) :
    plane_at ps i = ⟨0, 0, 0⟩ := by
  simp [plane_at, List.getElem?_eq_none h]

theorem drop_plane_at (ps : List Plane) {i : Nat} (h : i < ps.length) :
    ps.drop i = plane_at ps i :: ps.drop (i + 1) := by
  rw [List.drop_eq_getElem_cons h]
  simp [plane_at, List.getElem?_eq_getElem h]

/-- A plane with bytes has pixels in its rows. -/
theorem line_pos {pl : Plane} (h : pl.size ≠ 0) : 0 < pl.line_size := by
  by_contra h0
  have hz : pl.line_size = 0 := by omega
  simp [Plane.size, Plane.stride, hz] at h

/-- No plane after an empty one has bytes. -/
def Shrinking (ps : List Plane) : Prop :=
  ∀ i, (plane_at ps i).size = 0 → (plane_at ps (i + 1)).size = 0

theorem Shrinking.from {ps : List Plane} (h : Shrinking ps) {i : Nat}
    (h0 : (plane_at ps i).size = 0) (p : Nat) : cells (ps.drop i) p = [] := by
  by_cases hi : i < ps.length
  · have hrow : row_cells (plane_at ps i).line_size (plane_at ps i).stride
        (plane_at ps i).height p = [] := by
      apply List.eq_nil_of_length_eq_zero
      rw [length_row_cells]
      have hle := Nat.mul_le_mul_right (plane_at ps i).height (plane_at ps i).line_le
      unfold Plane.size at h0
      omega
    rw [drop_plane_at ps hi, cells, hrow, h.from (h i h0)]
    rfl
  · rw [List.drop_eq_nil_of_le (by omega), cells]
termination_by ps.length - i

theorem length_cells (ps : List Plane) (p : Nat) :
    (cells ps p).length = (ps.map fun pl => pl.line_size * pl.height).sum := by
  induction ps generalizing p with
  | nil => rfl
  | cons pl rest ih => simp [cells, length_row_cells, ih]

theorem mem_cells {ps : List Plane} {p a : Nat} :
    a ∈ cells ps p ↔ ∃ i < ps.length, ∃ y < (plane_at ps i).height,
      ∃ x < (plane_at ps i).line_size,
        a = p + ((List.range i).map fun j => (plane_at ps j).size).sum +
          y * (plane_at ps i).stride + x := by
  induction ps generalizing p with
  | nil => simp [cells]
  | cons pl rest ih =>
    have h0 : plane_at (pl :: rest) 0 = pl := rfl
    have hsucc : ∀ j, plane_at (pl :: rest) (j + 1) = plane_at rest j := fun _ => rfl
    simp only [cells, List.mem_append, mem_row_cells, ih]
    constructor
    · rintro (⟨y, hy, x, hx, rfl⟩ | ⟨i, hi, y, hy, x, hx, rfl⟩)
      · exact ⟨0, by simp, y, hy, x, hx, by simp [h0]⟩
      · refine ⟨i + 1, by simpa using hi, y, hy, x, hx, ?_⟩
        simp [List.range_succ_eq_map, Function.comp_def, h0, hsucc, Nat.add_assoc]
    · rintro ⟨i, hi, y, hy, x, hx, rfl⟩
      cases i with
      | zero => exact Or.inl ⟨y, hy, x, hx, by simp [h0]⟩
      | succ i =>
        refine Or.inr ⟨i, by simpa using hi, y, hy, x, hx, ?_⟩
        simp [List.range_succ_eq_map, Function.comp_def, h0, hsucc, Nat.add_assoc]

/-- The pixels of a frame that is laid out as `ps`, by plane, row and column. -/
theorem mem_cells_laid {fb : vf_framebuffer_t} {ps : List Plane} (hl : Laid fb ps) {a : Nat} :
    a ∈ cells ps 0 ↔ ∃ i < fb.num_planes, ∃ y < fb.plane_height i,
      ∃ x < fb.plane_line_size i, a = byte_at fb i y x := by
  have hsz : fb.plane_size = fun j => (plane_at ps j).size := funext hl.size
  simp only [mem_cells, hl.num_planes, hl.height, hl.line_size, byte_at, plane_start, hsz,
    hl.stride, Nat.zero_add]

/-- The padding of a row is no pixel. -/
theorem padding_not_mem {fb : vf_framebuffer_t} {ps : List Plane} (hl : Laid fb ps)
    {i y x : Nat} (hy : y < fb.plane_height i)
    (hx : fb.plane_line_size i ≤ x) (hxs : x < fb.plane_stride i) :
    byte_at fb i y x ∉ cells ps 0 := by
  intro hmem
  obtain ⟨i', hi', y', hy', x', hx', he⟩ := (mem_cells_laid hl).mp hmem
  have hx's : x' < fb.plane_stride i' :=
    Nat.lt_of_lt_of_le hx' (hl.line_size i' ▸ hl.stride i' ▸ (plane_at ps i').line_le)
  obtain ⟨rfl, rfl, rfl⟩ := byte_at_inj hl.toArrays hy hxs hy' hx's he
  omega

/-! ## The specs -/

/-- A stream at its end, that takes any number of bytes. -/
def at_end (bytes : List UInt8) : FILE := ⟨bytes, bytes.length, none⟩

theorem fwrite.spec (b line : List UInt8) (h : 0 < line.length) :
    fwrite line (at_end b) = (ONE_LINE, at_end (b ++ line)) := by
  simp [fwrite, at_end, ONE_LINE, Nat.ne_of_gt h, List.drop_eq_nil_of_le]

theorem write_lines.spec (data : Nat → UInt8) {l : Nat} (hl : 0 < l) (s n p : Nat)
    (b : List UInt8) (w : Nat) :
    write_lines data l s n p (at_end b) w =
      (.VF_SUCCESS, at_end (b ++ (row_cells l s n p).map data), w + l * n) := by
  induction n generalizing p b w with
  | zero => simp [write_lines, row_cells]
  | succ n ih =>
    have hw := fwrite.spec b ((List.range' p l).map data) (by simpa using hl)
    simp only [write_lines, hw, ne_eq, not_true_eq_false, if_false]
    rw [ih]
    simp [row_cells, Nat.mul_succ, Nat.add_assoc, Nat.add_comm l]

theorem write_planes.spec {fb : vf_framebuffer_t} {ps : List Plane} (ha : Arrays fb ps)
    (hs : Shrinking ps) (data : Nat → UInt8) (n i : Nat) (hn : ps.length ≤ i + n) (p : Nat)
    (b : List UInt8) (w : Nat) :
    write_planes fb data n i p (at_end b) w =
      (.VF_SUCCESS, at_end (b ++ (cells (ps.drop i) p).map data),
        w + (cells (ps.drop i) p).length) := by
  induction n generalizing i p b w with
  | zero =>
    have hnil : ps.drop i = [] := List.drop_eq_nil_of_le hn
    simp [write_planes, hnil, cells]
  | succ n ih =>
    simp only [write_planes, ha.size]
    by_cases h0 : (plane_at ps i).size = 0
    · simp [h0, hs.from h0]
    · have hi : i < ps.length := by
        by_contra hge
        rw [plane_at_past ps (by omega)] at h0
        exact h0 (by simp [Plane.size])
      simp only [h0, if_false, ha.line_size, ha.stride, ha.height,
        write_lines.spec data (line_pos h0), ne_eq, not_true_eq_false]
      rw [ih (i + 1) (by omega), drop_plane_at ps hi]
      simp [cells, length_row_cells, Nat.add_assoc]

theorem fread.spec (b line rest : List UInt8) (room : Option Nat) (h : 0 < line.length) :
    fread line.length ⟨b ++ (line ++ rest), b.length, room⟩ =
      (ONE_LINE, line, ⟨b ++ (line ++ rest), (b ++ line).length, room⟩) := by
  simp [fread, ONE_LINE, Nat.ne_of_gt h]

/-- The reader takes the bytes of the rows from the stream, in order. `b` is what was read
before, and `rest` is what stays. -/
theorem read_lines.spec {l : Nat} (hl : 0 < l) (s n p : Nat) (data : Nat → UInt8)
    (b bs rest : List UInt8) (room : Option Nat) (w : Nat)
    (hlen : bs.length = (row_cells l s n p).length) :
    read_lines l s n p data ⟨b ++ (bs ++ rest), b.length, room⟩ w =
      (.VF_SUCCESS, write_all data ((row_cells l s n p).zip bs),
        ⟨b ++ (bs ++ rest), (b ++ bs).length, room⟩, w + l * n) := by
  induction n generalizing p data b bs w with
  | zero =>
    have : bs = [] := List.eq_nil_of_length_eq_zero (by simpa [row_cells] using hlen)
    simp [read_lines, row_cells, this]
  | succ n ih =>
    simp only [row_cells, List.length_append, List.length_range'] at hlen
    obtain ⟨line, tail, rfl, hline⟩ : ∃ line tail, bs = line ++ tail ∧ line.length = l :=
      ⟨bs.take l, bs.drop l, (List.take_append_drop l bs).symm, by simp; omega⟩
    have hr := fread.spec b line (tail ++ rest) room (by omega)
    rw [hline] at hr
    have htail : tail.length = (row_cells l s n (p + s)).length := by
      simp only [List.length_append] at hlen
      omega
    have hrest := ih (p + s) (write_all data ((List.range' p l).zip line)) (b ++ line) tail
      (w + l) htail
    simp only [List.append_assoc] at hr hrest ⊢
    simp only [read_lines, hr, ne_eq, not_true_eq_false, if_false, hrest, row_cells]
    rw [List.zip_append (by simpa using hline.symm), write_all_append]
    simp [Nat.mul_succ, Nat.add_assoc, Nat.add_comm l]

theorem read_planes.spec {fb : vf_framebuffer_t} {ps : List Plane} (ha : Arrays fb ps)
    (hs : Shrinking ps) (n i : Nat) (hn : ps.length ≤ i + n) (p : Nat) (data : Nat → UInt8)
    (b bs rest : List UInt8) (room : Option Nat) (w : Nat)
    (hlen : bs.length = (cells (ps.drop i) p).length) :
    read_planes fb n i p data ⟨b ++ (bs ++ rest), b.length, room⟩ w =
      (.VF_SUCCESS, write_all data ((cells (ps.drop i) p).zip bs),
        ⟨b ++ (bs ++ rest), (b ++ bs).length, room⟩, w + (cells (ps.drop i) p).length) := by
  induction n generalizing i p data b bs w with
  | zero =>
    have hnil : ps.drop i = [] := List.drop_eq_nil_of_le hn
    rw [hnil] at hlen ⊢
    have : bs = [] := List.eq_nil_of_length_eq_zero (by simpa [cells] using hlen)
    simp [read_planes, cells, this]
  | succ n ih =>
    simp only [read_planes, ha.size]
    by_cases h0 : (plane_at ps i).size = 0
    · rw [hs.from h0] at hlen ⊢
      have : bs = [] := List.eq_nil_of_length_eq_zero (by simpa using hlen)
      simp [h0, this]
    · have hi : i < ps.length := by
        by_contra hge
        rw [plane_at_past ps (by omega)] at h0
        exact h0 (by simp [Plane.size])
      rw [drop_plane_at ps hi] at hlen ⊢
      simp only [cells, List.length_append] at hlen
      generalize hrow : row_cells (plane_at ps i).line_size (plane_at ps i).stride
        (plane_at ps i).height p = row at hlen
      obtain ⟨head, tail, rfl, hhead⟩ : ∃ head tail, bs = head ++ tail ∧
          head.length = row.length :=
        ⟨bs.take row.length, bs.drop row.length, (List.take_append_drop _ bs).symm,
          by simp; omega⟩
      have hr := read_lines.spec (line_pos h0) (plane_at ps i).stride (plane_at ps i).height p
        data b head (tail ++ rest) room w (by rw [hrow, hhead])
      have htail : tail.length =
          (cells (ps.drop (i + 1)) (p + (plane_at ps i).size)).length := by
        simp only [List.length_append] at hlen
        omega
      have hrest := ih (i + 1) (by omega) (p + (plane_at ps i).size)
        (write_all data (row.zip head)) (b ++ head) tail
        (w + (plane_at ps i).line_size * (plane_at ps i).height) htail
      simp only [List.append_assoc] at hr hrest ⊢
      simp only [h0, if_false, ha.line_size, ha.stride, ha.height, hr, ne_eq, not_true_eq_false,
        hrow, hrest, cells]
      rw [List.zip_append hhead.symm, write_all_append]
      simp [← hrow, length_row_cells, Nat.add_assoc]

theorem vf_framebuffer_write_to_fptr.spec {fb : vf_framebuffer_t} {ps : List Plane}
    (ha : Arrays fb ps) (hs : Shrinking ps) (hn : ps.length ≤ VF_FB_MAX_PLANE_COUNT)
    (data : Nat → UInt8) (b : List UInt8) (w : Nat) :
    vf_framebuffer_write_to_fptr (fb.holding data) (at_end b) w =
      (.VF_SUCCESS, at_end (b ++ (cells ps 0).map data), (cells ps 0).length) := by
  have ha' : Arrays (fb.holding data) ps :=
    ⟨ha.width, ha.height, ha.line_size, ha.stride, ha.size⟩
  have h := write_planes.spec ha' hs data VF_FB_MAX_PLANE_COUNT 0 (by omega) 0 b 0
  simpa [vf_framebuffer_write_to_fptr, vf_framebuffer_t.holding] using h

theorem vf_framebuffer_read_from_fptr.spec {fb : vf_framebuffer_t} {ps : List Plane}
    (ha : Arrays fb ps) (hs : Shrinking ps) (hn : ps.length ≤ VF_FB_MAX_PLANE_COUNT)
    (data : Nat → UInt8) (b bs rest : List UInt8) (room : Option Nat) (r : Nat)
    (hlen : bs.length = (cells ps 0).length) :
    vf_framebuffer_read_from_fptr (fb.holding data)
        ⟨b ++ (bs ++ rest), b.length, room⟩ r =
      (.VF_SUCCESS, fb.holding (write_all data ((cells ps 0).zip bs)),
        ⟨b ++ (bs ++ rest), (b ++ bs).length, room⟩, (cells ps 0).length) := by
  have ha' : Arrays (fb.holding data) ps :=
    ⟨ha.width, ha.height, ha.line_size, ha.stride, ha.size⟩
  have h := read_planes.spec ha' hs VF_FB_MAX_PLANE_COUNT 0 (by omega) 0 data b bs rest room 0
    (by simpa using hlen)
  simp only [List.drop_zero, Nat.zero_add] at h
  simp only [vf_framebuffer_t.holding] at h
  simp only [vf_framebuffer_read_from_fptr, vf_framebuffer_t.holding, h]

section Frames

variable {fb : vf_framebuffer_t} {ps : List Plane} (ha : Arrays fb ps) (hs : Shrinking ps)
  (hn : ps.length ≤ VF_FB_MAX_PLANE_COUNT)

include ha hs hn

/-- Frames of one layout, written one after another: their pixels, in order. -/
theorem write_frames.spec (ds : List (Nat → UInt8)) (b : List UInt8) :
    write_frames (ds.map fb.holding) (at_end b) =
      (ds.map fun _ => (.VF_SUCCESS, (cells ps 0).length),
        at_end (b ++ ds.flatMap fun d => (cells ps 0).map d)) := by
  induction ds generalizing b with
  | nil => simp [write_frames]
  | cons d rest ih =>
    simp only [List.map_cons, write_frames,
      vf_framebuffer_write_to_fptr.spec ha hs hn, ih]
    simp

/-- Frames of one layout, read one after another: each takes its part of the stream. -/
theorem read_frames.spec (ds : List (Nat → UInt8)) (parts : List (List UInt8))
    (hparts : ∀ p ∈ parts, p.length = (cells ps 0).length) (hlen : ds.length = parts.length)
    (b rest : List UInt8) (room : Option Nat) :
    read_frames (ds.map fb.holding)
        ⟨b ++ (parts.flatten ++ rest), b.length, room⟩ =
      (ds.map fun _ => (.VF_SUCCESS, (cells ps 0).length),
        (ds.zipWith (fun d p => write_all d ((cells ps 0).zip p)) parts).map
          fb.holding,
        ⟨b ++ (parts.flatten ++ rest), (b ++ parts.flatten).length, room⟩) := by
  induction ds generalizing b parts with
  | nil =>
    have : parts = [] := List.eq_nil_of_length_eq_zero hlen.symm
    simp [read_frames, this]
  | cons d ds ih =>
    cases parts with
    | nil => simp at hlen
    | cons p parts =>
      simp only [List.length_cons, Nat.add_right_cancel_iff] at hlen
      have hp := hparts p (by simp)
      have h1 := vf_framebuffer_read_from_fptr.spec ha hs hn d b p (parts.flatten ++ rest) room 0 hp
      have h2 := ih parts (fun q hq => hparts q (by simp [hq])) hlen (b ++ p)
      simp only [List.append_assoc] at h1 h2
      simp only [List.map_cons, read_frames, List.flatten_cons, List.append_assoc, h1, h2,
        List.zipWith_cons_cons]

end Frames

/-- Bytes that fill `n` frames are `n` parts of one frame each. -/
theorem cut_in_parts (size n : Nat) (bytes : List UInt8) (h : bytes.length = n * size) :
    ∃ parts : List (List UInt8), parts.length = n ∧ (∀ p ∈ parts, p.length = size) ∧
      parts.flatten = bytes := by
  induction n generalizing bytes with
  | zero =>
    have hnil : bytes = [] := List.eq_nil_of_length_eq_zero (by simpa using h)
    exact ⟨[], rfl, by simp, hnil.symm⟩
  | succ n ih =>
    rw [Nat.succ_mul] at h
    obtain ⟨parts, h1, h2, h3⟩ := ih (bytes.drop size) (by simp; omega)
    refine ⟨bytes.take size :: parts, by simp [h1], ?_, by simp [h3]⟩
    intro p hp
    rcases List.mem_cons.mp hp with rfl | hp
    · simp
      omega
    · exact h2 p hp

/-! ## Files of whole frames -/

/-- The pixels' bytes of a frame, by its planes. -/
def frame_bytes (fb : vf_framebuffer_t) : Nat :=
  ((List.range fb.num_planes).map fun i => fb.plane_line_size i * fb.plane_height i).sum

theorem frame_bytes_laid {fb : vf_framebuffer_t} {ps : List Plane} (hl : Laid fb ps) :
    frame_bytes fb = (cells ps 0).length := by
  rw [length_cells, ← map_plane_at ps fun pl => pl.line_size * pl.height]
  simp only [frame_bytes, hl.num_planes, hl.line_size, hl.height]

theorem code_planes_length (params : vf_fb_params_t) :
    (code_planes params).length ≤ VF_FB_MAX_PLANE_COUNT := by
  obtain ⟨w, h, format⟩ := params
  cases format <;> simp [code_planes, planes_with, vf_pixel_fmt_bpp, VF_FB_MAX_PLANE_COUNT]

/-- The pixels of frames that were filled from `parts` are `parts`. -/
theorem refill (ps : List Plane) (ds : List (Nat → UInt8)) (parts : List (List UInt8))
    (hparts : ∀ p ∈ parts, p.length = (cells ps 0).length) (hlen : ds.length = parts.length) :
    (ds.zipWith (fun d p => write_all d ((cells ps 0).zip p)) parts).flatMap
      (fun d => (cells ps 0).map d) = parts.flatten := by
  induction ds generalizing parts with
  | nil =>
    have : parts = [] := List.eq_nil_of_length_eq_zero hlen.symm
    simp [this]
  | cons d ds ih =>
    cases parts with
    | nil => simp at hlen
    | cons p parts =>
      simp only [List.length_cons, Nat.add_right_cancel_iff] at hlen
      have hp := map_write_all_zip d (cells ps 0) p (nodup_cells ps 0) (hparts p (by simp)).symm
      have hrest := ih parts (fun q hq => hparts q (by simp [hq])) hlen
      rw [List.zipWith_cons_cons, List.flatMap_cons, hp, hrest, List.flatten_cons]

end vision_flow.framebuffer
