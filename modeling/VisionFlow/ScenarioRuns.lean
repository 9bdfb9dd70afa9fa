-- Runs of the file scenarios. Between two frames all slots are free and both queues are
-- empty. A frame takes one slot of each pool and one place of each queue, and gives them
-- back, so no unit ever waits.
import VisionFlow.FramebufferLayout
import VisionFlow.PackedFrames
import VisionFlow.Scenarios

namespace vision_flow.scenarios

open programs units file_units
open buf_pool (Kept)
open buf_queue (Fifo Sim)
open conversion (NoWrap SafeSize)
open frame_blocks (Fits)
open framebuffer (vf_framebuffer_t at_end)
open packed_frames (WrittenAs ConvertsTo TurnsInto frame_size converted)
open parser (Text vf_frame_set_t vf_frames_cfg_t)

/-! ## Slots and queues -/

section
variable (scenario : vf_scenario_t) (frame_set : vf_frame_set_t)

/-- What `create` gives the units and they keep. `busy` are the slots that are handed out,
and `items` the frames in the queues. -/
structure Slots (busy : PoolId → Finset Nat) (items : QueueId → List Frame) (m : Mem) : Prop where
  initialized : ∀ u, m.initialized u = true
  pipeline : m.pipeline_initialized = true
  conv_ctx : m.conv_ctx = (conversion.vf_conversion_init scenario.src_fmt scenario.dst_fmt).2
  pool : ∀ p, Kept p POOL_SLOT_COUNT (m.pool p) ⟨busy p, false⟩
  queue : ∀ q, q ≠ .queue2 →
    ∃ f : Fifo Frame, Sim (m.queue q) f ∧ f.items = items q ∧ f.capacity = 16
  fb : ∀ p, ∀ i < POOL_SLOT_COUNT, ∃ data,
    m.fb ⟨p, i⟩ = (slot scenario frame_set p).2.holding data

end

section
variable {scenario : vf_scenario_t} {frame_set : vf_frame_set_t} {busy : PoolId → Finset Nat}
  {items : QueueId → List Frame} {m : Mem}

/-- The pointers and the files are none of the slots. -/
theorem Slots.beside (h : Slots scenario frame_set busy items m)
    (ptr : FileUnit → Field → Option Frame) (file : FileUnit → vf_file_t) (files : Files)
    (frame_idx : FileUnit → Nat) : Slots scenario frame_set busy items
      { m with ptr := ptr, file := file, files := files, frame_idx := frame_idx } :=
  ⟨h.initialized, h.pipeline, h.conv_ctx, h.pool, h.queue, h.fb⟩

theorem Slots.set_fb (h : Slots scenario frame_set busy items m) (f : Frame)
    (data : Nat → UInt8) : Slots scenario frame_set busy items
      (m.set_fb f ((slot scenario frame_set f.pool).2.holding data)) := by
  refine ⟨h.initialized, h.pipeline, h.conv_ctx, h.pool, h.queue, ?_⟩
  intro p i hi
  by_cases hf : (⟨p, i⟩ : Frame) = f
  · subst hf
    exact ⟨data, Function.update_self ..⟩
  · obtain ⟨old, hold⟩ := h.fb p i hi
    exact ⟨old, (Function.update_of_ne hf ..).trans hold⟩

/-- With no slot handed out, an acquire does not wait. -/
theorem Slots.acquire (h : Slots scenario frame_set busy items m) {p : PoolId}
    (hfree : busy p = ∅) (out : Option Frame) :
    ∃ i < POOL_SLOT_COUNT, ∃ pool,
      buf_pool.vf_buf_pool_acquire_blocking (m.pool p) out = some (.VF_SUCCESS, some ⟨p, i⟩, pool) ∧
      Slots scenario frame_set (Function.update busy p {i}) items (m.set_pool p pool) := by
  have hk := h.pool p
  have ha : (m.pool p).available ≠ 0 := by
    intro h0
    have hall := (buf_pool.available_zero_iff hk).mp h0
    rw [hfree] at hall
    exact absurd hall (by decide)
  obtain ⟨i, hi, -, hout, hk'⟩ := buf_pool.take_slot_kept hk ha
  refine ⟨i, hi, (buf_pool.take_slot (m.pool p)).2, ?_, ?_⟩
  · unfold buf_pool.vf_buf_pool_acquire_blocking
    simp only [hk.accounted.initialized, one_ne_zero, ha, if_false]
    rw [← hout]
  · refine ⟨h.initialized, h.pipeline, h.conv_ctx, ?_, h.queue, h.fb⟩
    intro p'
    by_cases hp : p' = p
    · subst hp
      simpa [Mem.set_pool, hfree] using hk'
    · simpa [Mem.set_pool, hp] using h.pool p'

/-- The only slot that is handed out is given back. -/
theorem Slots.release (h : Slots scenario frame_set busy items m) {p : PoolId} {i : Nat}
    (hbusy : busy p = {i}) :
    ∃ pool signal,
      buf_pool.vf_buf_pool_release (m.pool p) (some ⟨p, i⟩) = (.VF_SUCCESS, pool, signal) ∧
      Slots scenario frame_set (Function.update busy p ∅) items (m.set_pool p pool) := by
  have hk := h.pool p
  have hheld : i ∈ buf_pool.held (m.pool p) := by simp [hk.held, hbusy]
  have hrel := buf_pool.release_held hk.accounted hheld
  have hk' := buf_pool.release_kept hk (some ⟨p, i⟩) .VF_SUCCESS
  rw [hk.at_base] at hrel
  rw [hrel] at hk'
  refine ⟨_, true, hrel, h.initialized, h.pipeline, h.conv_ctx, ?_, h.queue, h.fb⟩
  intro p'
  by_cases hp : p' = p
  · subst hp
    simpa [Mem.set_pool, buf_pool.Ledger.note, hbusy] using hk'
  · simpa [Mem.set_pool, hp] using h.pool p'

theorem Slots.set_queue (h : Slots scenario frame_set busy items m) {q : QueueId}
    {queue : buf_queue.vf_buf_queue_t Frame} {f : Fifo Frame} (hsim : Sim queue f)
    (hcap : f.capacity = 16) : Slots scenario frame_set busy (Function.update items q f.items)
      (m.set_queue q queue) := by
  refine ⟨h.initialized, h.pipeline, h.conv_ctx, h.pool, ?_, h.fb⟩
  intro q' hq'
  by_cases hq : q' = q
  · subst hq
    simp only [Mem.set_queue, Function.update_self]
    exact ⟨f, hsim, rfl, hcap⟩
  · simpa [Mem.set_queue, hq] using h.queue q' hq'

/-- A push to an empty queue has room. -/
theorem Slots.push (h : Slots scenario frame_set busy items m) {q : QueueId} (hq : q ≠ .queue2)
    (hempty : items q = []) (x : Frame) :
    ∃ queue, buf_queue.vf_buf_queue_push (m.queue q) (some x) = (.VF_SUCCESS, queue) ∧
      Slots scenario frame_set busy (Function.update items q [x]) (m.set_queue q queue) := by
  obtain ⟨f, hsim, hitems, hcap⟩ := h.queue q hq
  have hlt : f.items.length < f.capacity := by simp [hitems, hempty, hcap]
  obtain ⟨herr, hsim'⟩ := buf_queue.vf_buf_queue_push.spec hsim x
  have hpush : f.push x = (.VF_SUCCESS, { f with
      items := f.items ++ [x], fits := by simp; omega }) := by
    simp only [Fifo.push, hlt, dif_pos]
  rw [hpush] at herr hsim'
  have hset := h.set_queue (q := q) hsim' hcap
  simp only [hitems, hempty, List.nil_append] at hset
  exact ⟨_, Prod.ext herr rfl, hset⟩

/-- A pop of the only frame of a queue does not wait. -/
theorem Slots.pop (h : Slots scenario frame_set busy items m) {q : QueueId} (hq : q ≠ .queue2)
    {x : Frame} (hone : items q = [x]) (out : Option Frame) :
    ∃ queue, buf_queue.vf_buf_queue_pop_blocking (m.queue q) out =
        some (.VF_SUCCESS, some x, queue) ∧
      Slots scenario frame_set busy (Function.update items q []) (m.set_queue q queue) := by
  obtain ⟨f, hsim, hitems, hcap⟩ := h.queue q hq
  have h0 : (m.queue q).count ≠ 0 := by simp [hsim.count, hitems, hone]
  obtain ⟨hout, hsim'⟩ :=
    buf_queue.take_head.spec hsim x [] (hitems.trans hone) (Nat.zero_le _)
  refine ⟨(buf_queue.take_head (m.queue q)).2, ?_, h.set_queue hsim' hcap⟩
  unfold buf_queue.vf_buf_queue_pop_blocking
  simp only [hsim.initialized, one_ne_zero, h0, if_false]
  rw [← hout]

end

/-! ## Safe sizes -/

section
variable (scenario : vf_scenario_t) (frame_set : vf_frame_set_t)

/-- The reads, the writes and the conversion stay in the blocks of the slots. -/
structure Sound : Prop where
  fits : ∀ p, Fits (slot scenario frame_set p).2
  converts : ∀ s d : Nat → UInt8,
    (conversion.vf_conversion_process
      (conversion.vf_conversion_init scenario.src_fmt scenario.dst_fmt).2
      ((slot scenario frame_set .pool_in).2.holding s)
      ((slot scenario frame_set .pool_out).2.holding d)).2.2.all
        (in_block ((slot scenario frame_set .pool_in).2.holding s)
          ((slot scenario frame_set .pool_out).2.holding d)) = true

/-- The layouts of the frames do not wrap, and the conversion can take their size. -/
structure Safe : Prop where
  no_wrap : ∀ p, NoWrap (params scenario frame_set p)
  size : SafeSize scenario.src_fmt scenario.dst_fmt (frame_at frame_set 0).width
    (frame_at frame_set 0).height

end

section
variable {scenario : vf_scenario_t} {frame_set : vf_frame_set_t}

theorem supported_scenario (hmem : scenario ∈ g_scenarios) :
    conversion.Supported scenario.src_fmt scenario.dst_fmt := by
  have hall : ∀ scenario ∈ g_scenarios,
      conversion.Supported scenario.src_fmt scenario.dst_fmt := by decide
  exact hall scenario hmem

/-- A slot of a pool is laid out as its parameters say. -/
theorem slot_laid {p : PoolId} (hno : NoWrap (params scenario frame_set p))
    (hslot : (slot scenario frame_set p).1 = .VF_SUCCESS) :
    (slot scenario frame_set p).2.params = params scenario frame_set p ∧
      framebuffer.Laid (slot scenario frame_set p).2
        (framebuffer.code_planes (params scenario frame_set p)) := by
  obtain ⟨hacc, hw, hh⟩ := framebuffer.vf_framebuffer_alloc.accepted hslot
  obtain ⟨-, hparams, -, hlaid⟩ := framebuffer.vf_framebuffer_alloc.spec framebuffer.zeroed
    (params scenario frame_set p) hacc hw hh hno.fits
  exact ⟨hparams, hlaid⟩

/-- A safe size keeps the scenario in its blocks. -/
theorem Safe.sound (h : Safe scenario frame_set)
    (hsup : conversion.Supported scenario.src_fmt scenario.dst_fmt)
    (hslots : ∀ p, (slot scenario frame_set p).1 = .VF_SUCCESS) :
    Sound scenario frame_set := by
  have hlaid := fun p => slot_laid (h.no_wrap p) (hslots p)
  refine ⟨?_, ?_⟩
  · intro p
    refine Fits.of_laid (hlaid p).2 ?_
    exact Nat.lt_of_le_of_lt (frame_blocks.code_sum_le _) (h.no_wrap p).2
  · intro s d
    obtain ⟨-, hw, hh⟩ := framebuffer.vf_framebuffer_alloc.accepted (hslots .pool_in)
    have hin := (conversion.vf_conversion_process.inside_iff hsup hw hh
      (h.no_wrap .pool_in).fits (h.no_wrap .pool_out).fits (hlaid .pool_in).1 (hlaid .pool_out).1
      (hlaid .pool_in).2 (hlaid .pool_out).2 s d).mpr
        ⟨h.no_wrap .pool_in, h.no_wrap .pool_out, h.size⟩
    rw [List.all_eq_true]
    intro acc hacc
    cases acc with
    | read a => exact decide_eq_true (hin.1 a hacc)
    | write i a v => exact decide_eq_true (hin.2 i a v hacc).1

end

/-! ## Streams -/

/-- The files, if the unit's file were closed now. -/
def closed (u : FileUnit) (m : Mem) : Files := (vf_file_close m.files (m.file u)).2.2

/-- No two names of the frames are the same up to the extension. -/
def DistinctNames (frame_set : vf_frame_set_t) : Prop :=
  (frame_set.frames.map fun f => base_name f.file_name).Nodup

section
variable [Disk] (scenario : vf_scenario_t) (frame_set : vf_frame_set_t)

/-- The input file and the output file of a frame, and the only output of the concat mode. -/
def frame_in (i : Nat) : Place := Disk.place (frame_at frame_set i).full_path
def frame_out (i : Nat) : Place :=
  Disk.place (out_path (unit_cfg scenario frame_set) (frame_at frame_set i).file_name)
def concat_out : Place := Disk.place (concat_path scenario)

/-- In split mode no two frames have one output file. -/
def DistinctOutputs : Prop :=
  scenario.split_output = true → ∀ i < frame_set.frames.length, ∀ j < frame_set.frames.length,
    frame_out scenario frame_set i = frame_out scenario frame_set j → i = j

/-- No output file of the scenario is an input file. -/
def Apart : Prop :=
  ∀ i < frame_set.frames.length,
    if scenario.split_output then
      ∀ j < frame_set.frames.length, frame_in frame_set i ≠ frame_out scenario frame_set j
    else frame_in frame_set i ≠ concat_out scenario

/-- The inputs can be read, and the outputs written. -/
structure Accessible : Prop where
  inputs : ∀ i < frame_set.frames.length, Disk.readable (frame_in frame_set i) = true
  concat : scenario.split_output = false → Disk.writable (concat_out scenario) = true
  split : scenario.split_output = true → ∀ j < frame_set.frames.length,
    Disk.writable (frame_out scenario frame_set j) = true

end

section
variable [Disk] (scenario : vf_scenario_t) (frame_set : vf_frame_set_t)
  (contents : Nat → List UInt8)

/-- The inputs are as they were, the next frame to read is `next`, and each output is in
its file, or in the stream to it. -/
structure Streams (next : Nat) (written : List (List UInt8)) (m : Mem) : Prop where
  idx_in : m.frame_idx .file_in = next
  idx_out : m.frame_idx .file_out = written.length
  input : ∀ i < frame_set.frames.length, m.files (frame_in frame_set i) = some (contents i)
  file_in : ∃ fp, m.file .file_in = ⟨some fp, true⟩ ∧ fp.writes = false
  concat : scenario.split_output = false →
    m.file .file_out = ⟨some ⟨concat_out scenario, true, at_end written.flatten⟩, true⟩
  split : scenario.split_output = true →
    (m.file .file_out = .zeroed ∨ ∃ j < frame_set.frames.length, ∃ file,
      m.file .file_out = ⟨some ⟨frame_out scenario frame_set j, true, file⟩, true⟩) ∧
    ∀ (j : Nat) (out : List UInt8), written[j]? = some out →
      closed .file_out m (frame_out scenario frame_set j) = some out

end

theorem reopen.spec [Disk] {u : FileUnit} {m : Mem} {path : Text} {writes : Bool} {fp : Stream}
    {files : Files} (h : m.file u = .zeroed ∨ ∃ fp, m.file u = ⟨some fp, true⟩)
    (hopen : fopen (closed u m) path writes = some (fp, files)) :
    reopen u path writes m = (.VF_SUCCESS, m.set_file u ⟨some fp, true⟩ files) := by
  unfold closed at hopen
  unfold reopen
  rcases h with hz | ⟨old, hold⟩
  · rw [hz] at hopen ⊢
    simp only [vf_file_t.zeroed, vf_file_close, Bool.not_false, if_true] at hopen
    simp [vf_file_t.zeroed, vf_file_open, hopen]
  · rw [hold] at hopen ⊢
    simp only [vf_file_close, Bool.not_true, Bool.false_eq_true, if_false] at hopen
    simp [vf_file_close, vf_file_open, hopen]

/-! ## The units -/

section
variable [Disk] {scenario : vf_scenario_t} {frame_set : vf_frame_set_t}
  {contents : Nat → List UInt8} {busy : PoolId → Finset Nat} {items : QueueId → List Frame} {m : Mem}

@[simp] theorem exec_unit (cfg : vf_file_unit_cfg_t) (u : FileUnit) {α : Type} (p : Code α) (m : Mem) :
    exec (step cfg u) p.inl m = exec (do_unit cfg u) p m :=
  exec_inl p m

/-- The input unit changes its own stream and its own counter. -/
theorem Streams.next_input {k : Nat} {written : List (List UInt8)} {m' : Mem} {fp : Stream}
    (hs : Streams scenario frame_set contents k written m) (hfiles : m'.files = m.files)
    (hidx : m'.frame_idx = Function.update m.frame_idx .file_in (k + 1))
    (hfile : m'.file = Function.update m.file .file_in ⟨some fp, true⟩) (hr : fp.writes = false) :
    Streams scenario frame_set contents (k + 1) written m' := by
  have hout : m'.file .file_out = m.file .file_out := by simp [hfile]
  refine ⟨by simp [hidx], ?_, ?_, ⟨fp, by simp [hfile], hr⟩, ?_, ?_⟩
  · simpa [hidx] using hs.idx_out
  · rw [hfiles]
    exact hs.input
  · rw [hout]
    exact hs.concat
  · unfold closed
    rw [hout, hfiles]
    exact hs.split

/-- The three operations of a unit, one after another. -/
theorem vf_unit_run.spec {cfg : vf_file_unit_cfg_t} {u : FileUnit} {m m1 m2 m3 : Mem}
    {get_data process_data send_data : FileCode vf_err_t} (hinit : m.initialized u = true)
    (hget : exec (step cfg u) get_data m = some (.VF_SUCCESS, m1))
    (hprocess : exec (step cfg u) process_data m1 = some (.VF_SUCCESS, m2))
    (hsend : exec (step cfg u) send_data m2 = some (.VF_SUCCESS, m3)) :
    exec (step cfg u) (file_units.vf_unit_run get_data process_data send_data) m =
      some (.VF_SUCCESS, m3) := by
  unfold file_units.vf_unit_run
  simp [do_unit, hinit, hget, hprocess, hsend]

theorem file_in.spec {k : Nat} {written : List (List UInt8)} {Out : List UInt8 → Prop}
    (h : Slots scenario frame_set busy items m)
    (hs : Streams scenario frame_set contents k written m) (hsound : Sound scenario frame_set)
    (hread : ∀ i < frame_set.frames.length, Disk.readable (frame_in frame_set i) = true)
    (hk : k < frame_set.frames.length) (hfree : busy .pool_in = ∅) (hempty : items .queue0 = [])
    (hturns : TurnsInto scenario.src_fmt scenario.dst_fmt (slot scenario frame_set .pool_in).2
      (slot scenario frame_set .pool_out).2 (contents k) Out) :
    ∃ i < POOL_SLOT_COUNT, ∃ s m',
      exec (step (unit_cfg scenario frame_set) .file_in) FileUnit.file_in.run m =
        some (.VF_SUCCESS, m') ∧
      Slots scenario frame_set (Function.update busy .pool_in {i})
        (Function.update items .queue0 [⟨.pool_in, i⟩]) m' ∧
      Streams scenario frame_set contents (k + 1) written m' ∧
      m'.fb ⟨.pool_in, i⟩ = (slot scenario frame_set .pool_in).2.holding s ∧
      ConvertsTo scenario.src_fmt scenario.dst_fmt (slot scenario frame_set .pool_in).2
        (slot scenario frame_set .pool_out).2 s Out := by
  obtain ⟨fp, hfp, hreads⟩ := hs.file_in
  have hclosed : closed .file_in m = m.files := by
    simp [closed, hfp, vf_file_close, fclose, hreads]
  -- the file of this frame is opened
  let fp1 : Stream := ⟨frame_in frame_set k, false, ⟨contents k, 0, none⟩⟩
  let m1 := m.set_file .file_in ⟨some fp1, true⟩ m.files
  have hopen : reopen .file_in (frame_at frame_set (m.frame_idx .file_in)).full_path false m =
      (.VF_SUCCESS, m1) := by
    apply reopen.spec (Or.inr ⟨fp, hfp⟩)
    have hinput := hs.input k hk
    have hreadable := hread k hk
    rw [hs.idx_in]
    unfold frame_in at hinput hreadable
    simp [hclosed, fopen, hinput, hreadable, fp1, frame_in]
  have h1 : Slots scenario frame_set busy items m1 := h.beside _ _ _ _
  obtain ⟨i, hi, pool, hacq, h2⟩ := h1.acquire hfree (m1.ptr .file_in .current_fb)
  let m2 := (m1.set_pool .pool_in pool).put .file_in .current_fb (some ⟨.pool_in, i⟩)
  -- it is read into the slot, over what was there
  obtain ⟨s0, hs0⟩ := h.fb .pool_in i hi
  obtain ⟨s, f, r, hread, hconv⟩ := hturns s0
  have hinside := frame_blocks.vf_framebuffer_read_from_fptr.inside
    ((hsound.fits .pool_in).holding s0) ⟨contents k, 0, none⟩ 0
  rw [hread] at hinside
  let m3 := (m2.set_fb ⟨.pool_in, i⟩ ((slot scenario frame_set .pool_in).2.holding s)).set_stream
    .file_in fp1 f
  have hdo_read : do_read .file_in .current_fb m2 = some (.VF_SUCCESS, m3) := by
    have hptr : m2.ptr .file_in .current_fb = some ⟨.pool_in, i⟩ := by simp [m2, Mem.put]
    have hfile : (m2.file .file_in).fp = some fp1 := by
      simp [m2, m1, Mem.put, Mem.set_pool, Mem.set_file]
    have hfb : m2.fb ⟨.pool_in, i⟩ = (slot scenario frame_set .pool_in).2.holding s0 := hs0
    simp only [do_read, hptr, hfile, hfb, fp1, hinside, Option.map_some]
    rfl
  let m4 := m3.next_frame .file_in
  have h4 : Slots scenario frame_set (Function.update busy .pool_in {i}) items m4 :=
    ((h2.beside _ _ _ _).set_fb ⟨.pool_in, i⟩ s).beside _ _ _ _
  have hget : exec (step (unit_cfg scenario frame_set) .file_in)
      (vf_file_unit_get_data_in .pool_in) m = some (.VF_SUCCESS, m4) := by
    unfold vf_file_unit_get_data_in open_input file_units.read next_frame
    simp [exec, step, do_unit, do_input, unit_cfg, hopen, hacq, hdo_read, m2]
    rfl
  -- the slot goes to the conversion unit
  obtain ⟨queue, hpush, h5⟩ := h4.push (by decide) hempty ⟨.pool_in, i⟩
  let m5 := (m4.set_queue .queue0 queue).put .file_in .current_fb none
  have hsend : exec (step (unit_cfg scenario frame_set) .file_in)
      (vf_file_unit_send_data_in FileUnit.file_in.unit .pool_in).inl m4 =
        some (.VF_SUCCESS, m5) := by
    have hptr : m4.ptr .file_in .current_fb = some ⟨.pool_in, i⟩ := by
      simp [m4, m3, m2, Mem.next_frame, Mem.set_stream, Mem.set_fb, Mem.put]
    unfold vf_file_unit_send_data_in units.push FileUnit.unit
    simp [do_unit, hptr, hpush]
    rfl
  refine ⟨i, hi, s, m5, vf_unit_run.spec (h.initialized _) hget rfl hsend, h5.beside _ _ _ _, ?_,
    ?_, hconv⟩
  · have hfiles : m5.files = m.files := by
      simp only [m5, m4, m3, m2, m1, Mem.next_frame, Mem.set_stream, Mem.set_fb, Mem.put,
        Mem.set_queue, Mem.set_pool, Mem.set_file]
    have hidx : m5.frame_idx = Function.update m.frame_idx .file_in (k + 1) := by
      simp only [m5, m4, m3, m2, m1, Mem.next_frame, Mem.set_stream, Mem.set_fb, Mem.put,
        Mem.set_queue, Mem.set_pool, Mem.set_file, hs.idx_in]
    have hfile : m5.file = Function.update m.file .file_in ⟨some ⟨fp1.place, false, f⟩, true⟩ := by
      simp only [m5, m4, m3, m2, m1, fp1, Mem.next_frame, Mem.set_stream, Mem.set_fb, Mem.put,
        Mem.set_queue, Mem.set_pool, Mem.set_file, Function.update_idem, Function.update_self]
    exact hs.next_input hfiles hidx hfile rfl
  · simp [m5, m4, m3, Mem.next_frame, Mem.set_stream, Mem.set_fb, Mem.put, Mem.set_queue]

/-- The conversion unit does not use the files. -/
theorem Streams.same {k : Nat} {written : List (List UInt8)} {m' : Mem}
    (hs : Streams scenario frame_set contents k written m) (hfiles : m'.files = m.files)
    (hidx : m'.frame_idx = m.frame_idx) (hfile : m'.file = m.file) :
    Streams scenario frame_set contents k written m' := by
  refine ⟨?_, ?_, ?_, ?_, ?_, ?_⟩
  · rw [hidx]
    exact hs.idx_in
  · rw [hidx]
    exact hs.idx_out
  · rw [hfiles]
    exact hs.input
  · rw [hfile]
    exact hs.file_in
  · rw [hfile]
    exact hs.concat
  · unfold closed
    rw [hfile, hfiles]
    exact hs.split

omit [Disk] in
/-- The counter of a frame that is not counted is 0: the unref takes it below 0, and undoes
it. -/
theorem fetch_undone {u : FileUnit} {p : Field} {f : Frame} (hptr : m.ptr u p = some f)
    (h0 : (m.fb f).ref_count = 0) :
    ∃ m1 n, do_fetch u p (fun n => u32_sub n 1) m = (some 0, m1) ∧
      do_fetch u p (fun n => u32 (n + 1)) m1 = (some n, m) := by
  have hsub : u32_sub 0 1 = 2 ^ 32 - 1 := by decide
  have hadd : u32 (2 ^ 32 - 1 + 1) = 0 := by decide
  have hfb : { m.fb f with ref_count := 0 } = m.fb f := by rw [← h0]
  refine ⟨m.set_fb f { m.fb f with ref_count := 2 ^ 32 - 1 }, 2 ^ 32 - 1, ?_, ?_⟩
  · simp only [do_fetch, hptr, h0, hsub]
  · simp only [do_fetch, Mem.set_fb, hptr, Function.update_self, hadd, hfb, Function.update_idem,
      Function.update_eq_self]

theorem conversion.spec {k i : Nat} {s : Nat → UInt8} {written : List (List UInt8)}
    {Out : List UInt8 → Prop} (h : Slots scenario frame_set busy items m)
    (hs : Streams scenario frame_set contents k written m) (hsound : Sound scenario frame_set)
    (hin : busy .pool_in = {i}) (hone : items .queue0 = [⟨.pool_in, i⟩]) (hfree : busy .pool_out = ∅)
    (hempty : items .queue1 = [])
    (hcount : (slot scenario frame_set .pool_in).2.ref_count = 0)
    (hsrc : m.fb ⟨.pool_in, i⟩ = (slot scenario frame_set .pool_in).2.holding s)
    (hconv : ConvertsTo scenario.src_fmt scenario.dst_fmt (slot scenario frame_set .pool_in).2
      (slot scenario frame_set .pool_out).2 s Out) :
    ∃ j d out m',
      exec (step (unit_cfg scenario frame_set) .conversion) FileUnit.conversion.run m =
        some (.VF_SUCCESS, m') ∧
      Slots scenario frame_set (Function.update (Function.update busy .pool_out {j}) .pool_in ∅)
        (Function.update (Function.update items .queue0 []) .queue1 [⟨.pool_out, j⟩]) m' ∧
      Streams scenario frame_set contents k written m' ∧
      m'.fb ⟨.pool_out, j⟩ = (slot scenario frame_set .pool_out).2.holding d ∧
      WrittenAs (slot scenario frame_set .pool_out).2 d out ∧ Out out := by
  obtain ⟨queue, hpop, h1⟩ := h.pop (by decide) hone (m.ptr .conversion .in_fb)
  let m1 := (m.set_queue .queue0 queue).put .conversion .in_fb (some ⟨.pool_in, i⟩)
  have hget : exec (step (unit_cfg scenario frame_set) .conversion)
      (vf_conversion_unit_get_data FileUnit.conversion.unit).inl m = some (.VF_SUCCESS, m1) := by
    unfold vf_conversion_unit_get_data FileUnit.unit
    simp [do_unit, hpop]
    rfl
  -- the picture goes to a slot of the other pool, over what was there
  have h1' : Slots scenario frame_set busy (Function.update items .queue0 []) m1 :=
    h1.beside _ _ _ _
  obtain ⟨j, hj, pool, hacq, h2⟩ := h1'.acquire hfree (m1.ptr .conversion .out_fb)
  let m2 := (m1.set_pool .pool_out pool).put .conversion .out_fb (some ⟨.pool_out, j⟩)
  obtain ⟨d0, hd0⟩ := h.fb .pool_out j hj
  obtain ⟨d, accs, out, hrun, hwritten, hout⟩ := hconv d0
  have hinside := hsound.converts s d0
  rw [hrun] at hinside
  let m3 := m2.set_fb ⟨.pool_out, j⟩ ((slot scenario frame_set .pool_out).2.holding d)
  have hdo_convert : do_convert .conversion .in_fb .out_fb m2 = some (.VF_SUCCESS, m3) := by
    have hp1 : m2.ptr .conversion .in_fb = some ⟨.pool_in, i⟩ := by
      simp [m2, m1, Mem.put, Mem.set_pool]
    have hp2 : m2.ptr .conversion .out_fb = some ⟨.pool_out, j⟩ := by simp [m2, Mem.put]
    have hf1 : m2.fb ⟨.pool_in, i⟩ = (slot scenario frame_set .pool_in).2.holding s := hsrc
    have hf2 : m2.fb ⟨.pool_out, j⟩ = (slot scenario frame_set .pool_out).2.holding d0 := hd0
    have hctx : m2.conv_ctx = _ := h.conv_ctx
    simp only [do_convert, hp1, hp2, hf1, hf2, hctx, hrun, hinside, if_true]
    rfl
  have hprocess : exec (step (unit_cfg scenario frame_set) .conversion)
      (vf_conversion_unit_process_data .pool_out).inl m1 = some (.VF_SUCCESS, m3) := by
    have hp1 : m1.ptr .conversion .in_fb = some ⟨.pool_in, i⟩ := by simp [m1, Mem.put]
    unfold vf_conversion_unit_process_data
    simp [do_unit, hp1, hacq, hdo_convert, m2]
  have h3 : Slots scenario frame_set (Function.update busy .pool_out {j})
      (Function.update items .queue0 []) m3 :=
    (h2.beside _ _ _ _).set_fb ⟨.pool_out, j⟩ d
  -- the result goes to the output unit, and the source is released
  obtain ⟨queue', hpush, h4⟩ := h3.push (q := .queue1) (by decide) (by simpa using hempty)
    ⟨.pool_out, j⟩
  let m4 := m3.set_queue .queue1 queue'
  have hp4 : m4.ptr .conversion .in_fb = some ⟨.pool_in, i⟩ := by
    simp [m4, m3, m2, m1, Mem.put, Mem.set_pool, Mem.set_fb, Mem.set_queue]
  have hf4 : m4.fb ⟨.pool_in, i⟩ = (slot scenario frame_set .pool_in).2.holding s := by
    simpa [m4, m3, m2, m1, Mem.put, Mem.set_pool, Mem.set_fb, Mem.set_queue] using hsrc
  obtain ⟨m5, n, hsub, hadd⟩ := fetch_undone hp4 (by rw [hf4]; exact hcount)
  obtain ⟨pool', signal, hrel, h6⟩ := h4.release (p := .pool_in) (i := i) (by simpa using hin)
  let m6 := ((m4.set_pool .pool_in pool').put .conversion .in_fb none).put .conversion .out_fb none
  have hsend : exec (step (unit_cfg scenario frame_set) .conversion)
      (vf_conversion_unit_send_data FileUnit.conversion.unit .pool_out (some .pool_in)).inl m3 =
        some (.VF_SUCCESS, m6) := by
    have hp3 : m3.ptr .conversion .out_fb = some ⟨.pool_out, j⟩ := by
      simp [m3, m2, Mem.put, Mem.set_fb]
    unfold vf_conversion_unit_send_data vf_framebuffer_unref units.push FileUnit.unit
    simp [do_unit, hp3, hpush, hp4, hsub, hadd, hrel, m4]
    rfl
  refine ⟨j, d, out, m6, vf_unit_run.spec (h.initialized _) hget hprocess hsend,
    h6.beside _ _ _ _, ?_, ?_, hwritten, hout⟩
  · apply hs.same
    all_goals simp only [m6, m4, m3, m2, m1, Mem.put, Mem.set_pool, Mem.set_fb, Mem.set_queue]
  · simp [m6, m4, m3, Mem.put, Mem.set_pool, Mem.set_fb, Mem.set_queue]

/-- Closing the output leaves the inputs as they are. -/
theorem Streams.closed_input {k : Nat} {written : List (List UInt8)}
    (hs : Streams scenario frame_set contents k written m) (hapart : Apart scenario frame_set)
    {i : Nat} (hi : i < frame_set.frames.length) :
    closed .file_out m (frame_in frame_set i) = some (contents i) := by
  have hin := hs.input i hi
  have hne := hapart i hi
  unfold closed
  cases hsplit : scenario.split_output with
  | false =>
    simp only [hsplit, Bool.false_eq_true, if_false] at hne
    simpa [hs.concat hsplit, vf_file_close, fclose, hne] using hin
  | true =>
    simp only [hsplit, if_true] at hne
    rcases (hs.split hsplit).1 with hz | ⟨j, hj, file, hfile⟩
    · simpa [hz, vf_file_t.zeroed, vf_file_close] using hin
    · simpa [hfile, vf_file_close, fclose, hne j hj] using hin

/-- The file unit has a stream to the output file, and after a write to it the outputs are
one more. -/
theorem Streams.open_output {k : Nat} {written : List (List UInt8)}
    (hs : Streams scenario frame_set contents k written m) (hapart : Apart scenario frame_set)
    (hopens : Accessible scenario frame_set) (houts : DistinctOutputs scenario frame_set)
    (hk : written.length < frame_set.frames.length) :
    ∃ place b files,
      do_unit (unit_cfg scenario frame_set) .file_out .open_output m = some (.VF_SUCCESS,
        m.set_file .file_out ⟨some ⟨place, true, at_end b⟩, true⟩ files) ∧
      ∀ (out : List UInt8) (m' : Mem), m'.files = files →
        m'.file = Function.update m.file .file_out ⟨some ⟨place, true, at_end (b ++ out)⟩, true⟩ →
        m'.frame_idx = Function.update m.frame_idx .file_out (written.length + 1) →
        Streams scenario frame_set contents k (written ++ [out]) m' := by
  have hidx := hs.idx_in
  have hidx' := hs.idx_out
  cases hsplit : scenario.split_output with
  | false =>
    have hfile := hs.concat hsplit
    refine ⟨concat_out scenario, written.flatten, m.files, ?_, ?_⟩
    · simp [do_unit, unit_cfg, hsplit, Mem.set_file, ← hfile]
    · intro out m' hfiles' hfile' hidx'
      refine ⟨by simpa [hidx'] using hidx, by simp [hidx'], ?_, ?_, ?_, ?_⟩
      · rw [hfiles']
        exact hs.input
      · simpa [hfile'] using hs.file_in
      · intro _
        simp [hfile']
      · intro h
        simp [hsplit] at h
  | true =>
    obtain ⟨hstate, hdone⟩ := hs.split hsplit
    refine ⟨frame_out scenario frame_set written.length, [],
      Function.update (closed .file_out m) (frame_out scenario frame_set written.length) (some []),
      ?_, ?_⟩
    · have hopen : reopen .file_out (out_path (unit_cfg scenario frame_set)
          (frame_at frame_set written.length).file_name) true m =
          (.VF_SUCCESS, m.set_file .file_out
            ⟨some ⟨frame_out scenario frame_set written.length, true, at_end []⟩, true⟩
            (Function.update (closed .file_out m) (frame_out scenario frame_set written.length)
              (some []))) := by
        apply reopen.spec
        · exact hstate.imp id fun ⟨_, _, file, h⟩ => ⟨_, h⟩
        · have hwritable := hopens.split hsplit _ hk
          unfold frame_out at hwritable
          simp [fopen, hwritable, frame_out, at_end]
      rw [← hopen]
      simp [do_unit, unit_cfg, hsplit, hidx']
    · intro out m' hfiles' hfile' hidx''
      have hfile'' : m'.file .file_out =
          ⟨some ⟨frame_out scenario frame_set written.length, true, at_end out⟩, true⟩ := by
        simp [hfile']
      refine ⟨by simpa [hidx''] using hidx, by simp [hidx''], ?_, ?_, ?_, ?_⟩
      · intro i hi
        have hne := hapart i hi
        simp only [hsplit, if_true] at hne
        rw [hfiles', Function.update_of_ne (hne _ hk)]
        exact hs.closed_input hapart hi
      · simpa [hfile'] using hs.file_in
      · intro h
        simp [hsplit] at h
      · intro _
        refine ⟨Or.inr ⟨written.length, hk, _, hfile''⟩, ?_⟩
        intro j out' hj
        unfold closed
        simp only [hfile'', hfiles', vf_file_close, fclose, Bool.not_true, Bool.false_eq_true,
          if_false, if_true, Function.update_idem, at_end]
        by_cases hlast : j = written.length
        · subst hlast
          simpa using hj
        · have hlt : j < written.length := by
            have := (List.getElem?_eq_some_iff.mp hj).1
            simp only [List.length_append, List.length_singleton] at this
            omega
          rw [List.getElem?_append_left hlt] at hj
          rw [Function.update_of_ne]
          · exact hdone j out' hj
          · intro he
            exact hlast (houts hsplit j (by omega) _ hk he)

theorem file_out.spec {k j : Nat} {d : Nat → UInt8} {out : List UInt8}
    {written : List (List UInt8)} (h : Slots scenario frame_set busy items m)
    (hs : Streams scenario frame_set contents k written m) (hsound : Sound scenario frame_set)
    (hapart : Apart scenario frame_set) (hopens : Accessible scenario frame_set)
    (houts : DistinctOutputs scenario frame_set) (hk : written.length < frame_set.frames.length)
    (hout : busy .pool_out = {j}) (hone : items .queue1 = [⟨.pool_out, j⟩])
    (hdst : m.fb ⟨.pool_out, j⟩ = (slot scenario frame_set .pool_out).2.holding d)
    (hwritten : WrittenAs (slot scenario frame_set .pool_out).2 d out) :
    ∃ m', exec (step (unit_cfg scenario frame_set) .file_out) FileUnit.file_out.run m =
        some (.VF_SUCCESS, m') ∧
      Slots scenario frame_set (Function.update busy .pool_out ∅)
        (Function.update items .queue1 []) m' ∧
      Streams scenario frame_set contents k (written ++ [out]) m' := by
  obtain ⟨queue, hpop, h1⟩ := h.pop (by decide) hone (m.ptr .file_out .current_fb)
  let m1 := (m.set_queue .queue1 queue).put .file_out .current_fb (some ⟨.pool_out, j⟩)
  have hget : exec (step (unit_cfg scenario frame_set) .file_out)
      (vf_file_unit_get_data FileUnit.file_out.unit).inl m = some (.VF_SUCCESS, m1) := by
    unfold vf_file_unit_get_data FileUnit.unit
    simp [do_unit, hpop]
    rfl
  have hs1 : Streams scenario frame_set contents k written m1 := by
    apply hs.same
    all_goals simp only [m1, Mem.put, Mem.set_queue]
  -- the frame goes to the end of its output file
  obtain ⟨place, b, files, hopen, hstreams⟩ := hs1.open_output hapart hopens houts hk
  let fp : Stream := ⟨place, true, at_end b⟩
  let m2 := m1.set_file .file_out ⟨some fp, true⟩ files
  obtain ⟨n, hwrite⟩ := hwritten b 0
  have hinside := frame_blocks.vf_framebuffer_write_to_fptr.inside
    ((hsound.fits .pool_out).holding d) (at_end b) 0
  rw [hwrite] at hinside
  let m3 := (m2.set_stream .file_out fp (at_end (b ++ out))).next_frame .file_out
  have hdo_write : do_write .file_out .current_fb m2 = some (.VF_SUCCESS,
      m2.set_stream .file_out fp (at_end (b ++ out))) := by
    have hptr : m2.ptr .file_out .current_fb = some ⟨.pool_out, j⟩ := by
      simp [m2, m1, Mem.put, Mem.set_file]
    have hfile : (m2.file .file_out).fp = some fp := by
      simp [m2, Mem.set_file]
    have hfb : m2.fb ⟨.pool_out, j⟩ = (slot scenario frame_set .pool_out).2.holding d := hdst
    simp only [do_write, hptr, hfile, hfb, fp, hinside, Option.map_some]
  have h3 : Slots scenario frame_set busy (Function.update items .queue1 []) m3 :=
    h1.beside _ _ _ _
  obtain ⟨pool, signal, hrel, h4⟩ := h3.release (p := .pool_out) hout
  let m4 := (m3.set_pool .pool_out pool).put .file_out .current_fb none
  have hsend : exec (step (unit_cfg scenario frame_set) .file_out)
      (vf_file_unit_send_data (some .pool_out)).inl m1 = some (.VF_SUCCESS, m4) := by
    have hp1 : m1.ptr .file_out .current_fb = some ⟨.pool_out, j⟩ := by simp [m1, Mem.put]
    have hp3 : m3.ptr .file_out .current_fb = some ⟨.pool_out, j⟩ := hp1
    have hload : do_unit (unit_cfg scenario frame_set) .file_out (.load .current_fb) m1 =
        some (some ⟨.pool_out, j⟩, m1) := congrArg (fun o => some (o, m1)) hp1
    have hwrite : do_unit (unit_cfg scenario frame_set) .file_out (.write .current_fb) m2 =
        some (.VF_SUCCESS, m3) := by
      simp only [do_unit, hdo_write, Option.map_some]
      rfl
    have hrelease : do_unit (unit_cfg scenario frame_set) .file_out
        (.release .pool_out .current_fb) m3 = some (.VF_SUCCESS, m3.set_pool .pool_out pool) := by
      simp only [do_unit, hp3, hrel]
    have hopen' : do_unit (unit_cfg scenario frame_set) .file_out .open_output m1 =
        some (.VF_SUCCESS, m2) := hopen
    unfold vf_file_unit_send_data
    simp [hload, hopen', hwrite, hrelease]
    rfl
  refine ⟨m4, vf_unit_run.spec (h.initialized _) hget rfl hsend, h4.beside _ _ _ _, ?_⟩
  apply hstreams out
  · simp only [m4, m3, m2, fp, Mem.put, Mem.set_pool, Mem.next_frame, Mem.set_stream, Mem.set_file]
  · simp only [m4, m3, m2, fp, Mem.put, Mem.set_pool, Mem.next_frame, Mem.set_stream, Mem.set_file,
      Function.update_idem, Function.update_self]
  · have hidx : m1.frame_idx .file_out = written.length := hs1.idx_out
    simp only [m4, m3, m2, Mem.put, Mem.set_pool, Mem.next_frame, Mem.set_stream, Mem.set_file,
      hidx]

end

/-! ## Whole runs -/

section
variable [Disk] (scenario : vf_scenario_t) (frame_set : vf_frame_set_t)
  (contents : Nat → List UInt8) (Out : Nat → List UInt8 → Prop)

/-- What a scenario needs of its frames: each file becomes an output, and the output files
are different files, and no input. -/
structure Runnable : Prop where
  frames : frame_set.frames ≠ []
  supported : conversion.Supported scenario.src_fmt scenario.dst_fmt
  slots : ∀ p, (slot scenario frame_set p).1 = .VF_SUCCESS
  turns : ∀ k < frame_set.frames.length, TurnsInto scenario.src_fmt scenario.dst_fmt
    (slot scenario frame_set .pool_in).2 (slot scenario frame_set .pool_out).2 (contents k) (Out k)
  sound : Sound scenario frame_set
  apart : Apart scenario frame_set
  opens : Accessible scenario frame_set
  outputs : DistinctOutputs scenario frame_set

/-- Every slot is free, both queues are empty, and the first `k` frames are written. -/
structure Ready (k : Nat) (written : List (List UInt8)) (m : Mem) : Prop where
  slots : Slots scenario frame_set (fun _ => ∅) (fun _ => []) m
  streams : Streams scenario frame_set contents k written m
  length : written.length = k
  out : ∀ (j : Nat) (out : List UInt8), written[j]? = some out → Out j out

end

section
variable [Disk] {scenario : vf_scenario_t} {frame_set : vf_frame_set_t}
  {contents : Nat → List UInt8} {Out : Nat → List UInt8 → Prop} {m : Mem}

/-- One frame: no unit waits, and the next frame finds what this one found. -/
theorem vf_pipeline_run_once.spec (hrun : Runnable scenario frame_set contents Out) {k : Nat}
    {written : List (List UInt8)} (h : Ready scenario frame_set contents Out k written m)
    (hk : k < frame_set.frames.length) :
    ∃ out m', vf_pipeline_run_once (unit_cfg scenario frame_set) m = some (.VF_SUCCESS, m') ∧
      Ready scenario frame_set contents Out (k + 1) (written ++ [out]) m' := by
  have hcount := (framebuffer.vf_framebuffer_alloc.made (hrun.slots .pool_in)).2.2
  obtain ⟨i, -, s, m1, hrun1, h1, hs1, hsrc, hconv⟩ :=
    file_in.spec h.slots h.streams hrun.sound hrun.opens.inputs hk rfl rfl (hrun.turns k hk)
  obtain ⟨j, d, out, m2, hrun2, h2, hs2, hdst, hwritten, hout⟩ :=
    conversion.spec h1 hs1 hrun.sound (by simp) (by simp) (by simp) (by simp) hcount hsrc hconv
  obtain ⟨m3, hrun3, h3, hs3⟩ := file_out.spec h2 hs2 hrun.sound hrun.apart hrun.opens
    hrun.outputs (by rw [h.length]; exact hk) (by simp) (by simp) hdst hwritten
  refine ⟨out, m3, ?_, ?_, hs3, by simp [h.length], ?_⟩
  · simp [vf_pipeline_run_once, h.slots.pipeline, run_units, hrun1, hrun2, hrun3]
  · have hbusy : Function.update (Function.update (Function.update (Function.update
        (fun _ => ∅) .pool_in {i}) .pool_out {j}) .pool_in ∅) .pool_out ∅ =
        fun _ : PoolId => (∅ : Finset Nat) := by
      funext p
      cases p <;> simp
    have hitems : Function.update (Function.update (Function.update (Function.update
        (fun _ => []) .queue0 [⟨.pool_in, i⟩]) .queue0 []) .queue1 [⟨.pool_out, j⟩]) .queue1 [] =
        fun _ : QueueId => ([] : List Frame) := by
      funext q
      cases q <;> simp
    rw [hbusy, hitems] at h3
    exact h3
  · intro j' out' hj'
    by_cases hlast : j' = written.length
    · subst hlast
      obtain rfl : out = out' := by simpa using hj'
      rw [h.length]
      exact hout
    · have hlt : j' < written.length := by
        have := (List.getElem?_eq_some_iff.mp hj').1
        simp only [List.length_append, List.length_singleton] at this
        omega
      rw [List.getElem?_append_left hlt] at hj'
      exact h.out j' out' hj'

/-- Any number of the frames that are left. -/
theorem run_frames.spec (hrun : Runnable scenario frame_set contents Out) {k : Nat}
    {written : List (List UInt8)} (h : Ready scenario frame_set contents Out k written m) (n : Nat)
    (hn : k + n ≤ frame_set.frames.length) :
    ∃ written' m', run_frames (unit_cfg scenario frame_set) n m = some (.VF_SUCCESS, m') ∧
      Ready scenario frame_set contents Out (k + n) written' m' := by
  induction n generalizing k written m with
  | zero => exact ⟨written, m, rfl, h⟩
  | succ n ih =>
    obtain ⟨out, m1, hrun1, h1⟩ := vf_pipeline_run_once.spec hrun h (by omega)
    obtain ⟨written', m2, hrun2, h2⟩ := ih h1 (by omega)
    refine ⟨written', m2, ?_, ?_⟩
    · simp [run_frames, hrun1, hrun2]
    · rw [Nat.add_assoc, Nat.add_comm 1 n] at h2
      exact h2

/-- In concat mode the output is there from the start, and empty. -/
theorem open_concat.spec (hapart : Apart scenario frame_set)
    (hopens : Accessible scenario frame_set) {files : Files}
    (hfiles : ∀ i < frame_set.frames.length, files (frame_in frame_set i) = some (contents i)) :
    ∃ file files', open_concat scenario files = (.VF_SUCCESS, file, files') ∧
      (∀ i < frame_set.frames.length, files' (frame_in frame_set i) = some (contents i)) ∧
      (scenario.split_output = false →
        file = ⟨some ⟨concat_out scenario, true, at_end []⟩, true⟩) ∧
      (scenario.split_output = true → file = .zeroed) := by
  cases hsplit : scenario.split_output with
  | false =>
    refine ⟨⟨some ⟨concat_out scenario, true, at_end []⟩, true⟩,
      Function.update files (concat_out scenario) (some []), ?_, ?_, fun _ => rfl, by simp⟩
    · have hwritable := hopens.concat hsplit
      unfold concat_out at hwritable
      simp [open_concat, hsplit, vf_file_open, vf_file_t.zeroed, fopen, at_end, hwritable,
        concat_out]
    · intro i hi
      have hne := hapart i hi
      simp only [hsplit, Bool.false_eq_true, if_false] at hne
      rw [Function.update_of_ne hne]
      exact hfiles i hi
  | true =>
    exact ⟨.zeroed, files, by simp [open_concat, hsplit], hfiles, by simp, fun _ => rfl⟩

/-- Nothing is refused to the scenario. -/
def AllGranted (granted : Resource → Bool) : Prop := ∀ r, granted r = true

omit [Disk] in
/-- A pool that is granted has all its slots. -/
theorem init_pool.granted {granted : Resource → Bool} (hall : AllGranted granted)
    (hslots : ∀ p, (slot scenario frame_set p).1 = .VF_SUCCESS) (p : PoolId) :
    (init_pool granted scenario frame_set p).1 = .VF_SUCCESS ∧
      Kept p POOL_SLOT_COUNT (init_pool granted scenario frame_set p).2.1 ⟨∅, false⟩ := by
  have halloc : slot_alloc granted scenario frame_set p = fun _ => .VF_SUCCESS := by
    funext i
    rw [slot_alloc, hall]
    exact hslots p
  have hinit : (init_pool granted scenario frame_set p).1 = .VF_SUCCESS := by
    rw [init_pool, halloc, hall, hall]
    rfl
  refine ⟨hinit, ?_⟩
  rw [init_pool, (buf_pool.vf_buf_pool_init.spec _ _ _ _ _ hinit).2.2]
  exact buf_pool.fresh_kept p POOL_SLOT_COUNT (by decide)

omit [Disk] in
/-- A slot that is made holds something. -/
theorem slot_holds (hslots : ∀ p, (slot scenario frame_set p).1 = .VF_SUCCESS) (p : PoolId)
    {i : Nat} (hi : i < POOL_SLOT_COUNT) : ∃ data,
      (if i < POOL_SLOT_COUNT then (slot scenario frame_set p).2 else framebuffer.zeroed) =
        (slot scenario frame_set p).2.holding data := by
  obtain ⟨data, hdata⟩ := Option.isSome_iff_exists.mp
    (framebuffer.vf_framebuffer_alloc.made (hslots p)).1
  refine ⟨data, ?_⟩
  rw [if_pos hi, framebuffer.vf_framebuffer_t.holding, ← hdata]
  rfl

theorem create.spec (hrun : Runnable scenario frame_set contents Out)
    {granted : Resource → Bool} (hall : AllGranted granted) {files : Files}
    (hfiles : ∀ i < frame_set.frames.length, files (frame_in frame_set i) = some (contents i)) :
    ∃ m, create granted scenario frame_set files = .ok m ∧
      Ready scenario frame_set contents Out 0 [] m := by
  have hpos : 0 < frame_set.frames.length := List.length_pos_iff.mpr hrun.frames
  have hpool := init_pool.granted hall hrun.slots
  obtain ⟨hqueue, hsim⟩ := buf_queue.vf_buf_queue_init.spec (α := Frame) buf_queue.zeroed
    buf_queue.VF_BUF_QUEUE_MAX_CAPACITY (by decide) (Nat.le_refl _)
  have hqueues : ∀ q, init_queue granted q = buf_queue.vf_buf_queue_init buf_queue.zeroed
      buf_queue.VF_BUF_QUEUE_MAX_CAPACITY true true := by
    intro q
    rw [init_queue, hall, hall]
  have hunit : ∀ u, vf_unit_create granted u .VF_SUCCESS = .VF_SUCCESS := by
    intro u
    simp [vf_unit_create, hall _]
  have hin : vf_file_open files .zeroed (frame_at frame_set 0).full_path false = (.VF_SUCCESS,
      ⟨some ⟨frame_in frame_set 0, false, ⟨contents 0, 0, none⟩⟩, true⟩, files) := by
    have hfirst := hfiles 0 hpos
    have hread := hrun.opens.inputs 0 hpos
    unfold frame_in at hfirst hread ⊢
    simp [vf_file_open, vf_file_t.zeroed, fopen, hfirst, hread]
  have hconv : (conversion.vf_conversion_init scenario.src_fmt scenario.dst_fmt).1 =
      .VF_SUCCESS := by
    obtain ⟨fn, hfn⟩ := Option.isSome_iff_exists.mp hrun.supported
    simp [conversion.vf_conversion_init, hfn]
  obtain ⟨file, files', hout, hinput, hconcat, hsplit⟩ :=
    open_concat.spec hrun.apart hrun.opens hfiles
  have hok : ∃ m, create granted scenario frame_set files = .ok m := by
    unfold create
    simp [hpool, hqueues, hqueue, hunit, hin, hconv, hout]
  obtain ⟨m, hm⟩ := hok
  refine ⟨m, hm, ?_, ?_, rfl, by simp⟩
  all_goals
    unfold create at hm
    simp only [hpool, hqueues, hqueue, hunit, hin, hconv, hout, ne_eq, not_true_eq_false, if_false,
      Except.ok.injEq] at hm
    subst hm
  · refine ⟨fun _ => rfl, rfl, rfl, fun p => (hpool p).2, ?_, fun p i hi =>
      slot_holds hrun.slots p hi⟩
    intro q hq
    simp only [if_neg hq]
    exact ⟨_, hsim, rfl, rfl⟩
  · refine ⟨rfl, rfl, hinput, ⟨_, rfl, rfl⟩, hconcat, ?_⟩
    intro h
    exact ⟨Or.inl (hsplit h), by simp⟩

/-- The files at the end are those of the closed output. -/
theorem destroyed_files {k : Nat} {written : List (List UInt8)}
    (hs : Streams scenario frame_set contents k written m) :
    (vf_pipeline_destroy m).files = closed .file_out m := by
  obtain ⟨fp, hfp, hr⟩ := hs.file_in
  simp [vf_pipeline_destroy, vf_file_unit_deinit, Mem.set_file, closed, hfp, vf_file_close, fclose, hr]

/-- The whole scenario: it ends, and each frame's output is in its file. -/
theorem run_scenario.spec (hrun : Runnable scenario frame_set contents Out)
    {granted : Resource → Bool} (hall : AllGranted granted) {files : Files}
    (hfiles : ∀ i < frame_set.frames.length, files (frame_in frame_set i) = some (contents i))
    {cfg : vf_frames_cfg_t} (hset : find_frame_set cfg scenario.input_set = some frame_set) :
    ∃ (written : List (List UInt8)) (files' : Files),
      run_scenario granted scenario cfg files = some (.VF_SUCCESS, files') ∧
      written.length = frame_set.frames.length ∧
      (∀ (j : Nat) (out : List UInt8), written[j]? = some out → Out j out) ∧
      (scenario.split_output = false → files' (concat_out scenario) = some written.flatten) ∧
      (scenario.split_output = true → ∀ (j : Nat) (out : List UInt8), written[j]? = some out →
        files' (frame_out scenario frame_set j) = some out) := by
  obtain ⟨m, hm, h0⟩ := create.spec hrun hall hfiles
  obtain ⟨written, m', hrun', h⟩ := run_frames.spec hrun h0 frame_set.frames.length (by omega)
  rw [Nat.zero_add] at h
  refine ⟨written, closed .file_out m', ?_, h.length, h.out, ?_, ?_⟩
  · have hall : run_pipeline_for_frames (unit_cfg scenario frame_set) m =
        some (.VF_SUCCESS, m') := hrun'
    simp [run_scenario, hset, hm, hall, destroyed_files h.streams]
  · intro hsplit
    simp [closed, h.streams.concat hsplit, vf_file_close, fclose, at_end]
  · intro hsplit
    exact (h.streams.split hsplit).2

end

/-! ## The law -/

section
variable [Disk]

/-- A frame set for a scenario: each file holds one frame, all of one even size whose layouts
do not wrap. -/
structure FrameFiles (scenario : vf_scenario_t) (frame_set : vf_frame_set_t) (w h : Nat)
    (contents : Nat → List UInt8) (files : Files) : Prop where
  frames : frame_set.frames ≠ []
  size : ∀ frame ∈ frame_set.frames, frame.width = w ∧ frame.height = h
  width : 1 ≤ w ∧ w % 2 = 0
  height : 1 ≤ h ∧ h % 2 = 0
  no_wrap : ∀ fmt ∈ [scenario.src_fmt, scenario.dst_fmt], NoWrap ⟨w, h, fmt⟩
  one_frame : ∀ k < frame_set.frames.length, files (frame_in frame_set k) = some (contents k) ∧
    (contents k).length = frame_size ⟨w, h, scenario.src_fmt⟩

/-- The outputs are in the files: all in one file, or each in its own. -/
def Delivered (scenario : vf_scenario_t) (frame_set : vf_frame_set_t)
    (outputs : List (List UInt8)) (files : Files) : Prop :=
  if scenario.split_output then
    ∀ (k : Nat) (out : List UInt8), outputs[k]? = some out →
      files (frame_out scenario frame_set k) = some out
  else files (concat_out scenario) = some outputs.flatten

end

section
variable [Disk] {scenario : vf_scenario_t} {frame_set : vf_frame_set_t} {w h : Nat}
  {contents : Nat → List UInt8} {files : Files}

theorem FrameFiles.params_eq (hf : FrameFiles scenario frame_set w h contents files)
    (p : PoolId) :
    params scenario frame_set p = ⟨w, h, (params scenario frame_set p).format⟩ := by
  have hpos := List.length_pos_iff.mpr hf.frames
  have hmem : frame_at frame_set 0 ∈ frame_set.frames := by simp [frame_at, hpos]
  obtain ⟨hw, hh⟩ := hf.size _ hmem
  simp only [params, hw, hh]

/-- Even sizes without a wrap are safe. -/
theorem FrameFiles.safe (hf : FrameFiles scenario frame_set w h contents files) :
    Safe scenario frame_set := by
  have hpos := List.length_pos_iff.mpr hf.frames
  have hmem : frame_at frame_set 0 ∈ frame_set.frames := by simp [frame_at, hpos]
  obtain ⟨hw, hh⟩ := hf.size _ hmem
  refine ⟨?_, ?_⟩
  · intro p
    rw [hf.params_eq p]
    cases p with
    | pool_in => exact hf.no_wrap _ (by simp [params])
    | pool_out => exact hf.no_wrap _ (by simp [params])
  · have ew := hf.width.2
    have eh := hf.height.2
    rw [hw, hh]
    unfold SafeSize
    split
    · trivial
    all_goals omega

/-- The slots of a pool are laid out for the size of the frames. -/
theorem FrameFiles.slot_laid (hf : FrameFiles scenario frame_set w h contents files)
    (hmem : scenario ∈ g_scenarios) (p : PoolId) :
    (slot scenario frame_set p).1 = .VF_SUCCESS ∧
      (slot scenario frame_set p).2.params = ⟨w, h, (params scenario frame_set p).format⟩ ∧
      framebuffer.Laid (slot scenario frame_set p).2
        (framebuffer.code_planes ⟨w, h, (params scenario frame_set p).format⟩) := by
  have hacc := (supported_scenario hmem).accepted
  have hfmt : framebuffer.Accepted (params scenario frame_set p).format ∧
      framebuffer.PlaneSizesFit ⟨w, h, (params scenario frame_set p).format⟩ := by
    cases p with
    | pool_in => exact ⟨hacc.1, (hf.no_wrap _ (by simp [params])).fits⟩
    | pool_out => exact ⟨hacc.2, (hf.no_wrap _ (by simp [params])).fits⟩
  obtain ⟨h1, h2, -, h3⟩ := framebuffer.vf_framebuffer_alloc.spec framebuffer.zeroed
    ⟨w, h, (params scenario frame_set p).format⟩ hfmt.1 hf.width.1 hf.height.1 hfmt.2
  unfold slot
  rw [hf.params_eq p]
  exact ⟨h1, h2, h3⟩

/-- Frame files of a scenario can be run, and turn into their packed conversions. -/
theorem FrameFiles.runnable (hf : FrameFiles scenario frame_set w h contents files)
    (hmem : scenario ∈ g_scenarios) (hopens : Accessible scenario frame_set)
    (houts : DistinctOutputs scenario frame_set) (hapart : Apart scenario frame_set) :
    Runnable scenario frame_set contents fun k out =>
      out = converted scenario.src_fmt scenario.dst_fmt w h (contents k) := by
  have hsup := supported_scenario hmem
  have hin := hf.slot_laid hmem .pool_in
  have hout := hf.slot_laid hmem .pool_out
  have hsrc := hf.no_wrap scenario.src_fmt (by simp)
  have hdst := hf.no_wrap scenario.dst_fmt (by simp)
  have hslots := fun p => (hf.slot_laid hmem p).1
  refine ⟨hf.frames, hsup, hslots, ?_, hf.safe.sound hsup hslots, hapart, hopens, houts⟩
  intro k hk
  exact packed_frames.turns_into_converted hsup hf.height.1 hf.width.2 hf.height.2 hsrc.fits
    hdst.fits hsrc.1 hdst.1 hin.2.1 hout.2.1 hin.2.2 hout.2.2 (hf.one_frame k hk).2

/-- For every scenario of the table, and every frame set whose frames have one even size that
does not wrap, with one frame in each file, all files open, each output in a file of its own
and no output among the inputs: before each frame both queues are empty and every slot is
free, and each frame is processed with success, so no unit ever waits. At the end the outputs
are the packed conversions of the files, whatever the slots held from earlier frames. -/
theorem each_file_gets_its_packed_conversion (scenario : vf_scenario_t)
    (hmem : scenario ∈ g_scenarios) (cfg : vf_frames_cfg_t) (frame_set : vf_frame_set_t)
    (hset : find_frame_set cfg scenario.input_set = some frame_set) (w h : Nat)
    (contents : Nat → List UInt8) (files : Files)
    (hf : FrameFiles scenario frame_set w h contents files)
    (hopens : Accessible scenario frame_set) (houts : DistinctOutputs scenario frame_set)
    (hapart : Apart scenario frame_set) (granted : Resource → Bool) (hall : AllGranted granted) :
    (∃ m0, create granted scenario frame_set files = .ok m0 ∧
      ∀ k ≤ frame_set.frames.length, ∃ m,
        run_frames (unit_cfg scenario frame_set) k m0 = some (.VF_SUCCESS, m) ∧
        (∀ q, q ≠ .queue2 → buf_queue.vf_buf_queue_count (m.queue q) = 0) ∧
        ∀ p, buf_pool.vf_buf_pool_available (m.pool p) = POOL_SLOT_COUNT ∧
          ∀ i < POOL_SLOT_COUNT, (m.pool p).in_use i = 0) ∧
      ∃ files', run_scenario granted scenario cfg files = some (.VF_SUCCESS, files') ∧
        Delivered scenario frame_set ((List.range frame_set.frames.length).map fun k =>
          converted scenario.src_fmt scenario.dst_fmt w h (contents k)) files' := by
  have hrun := hf.runnable hmem hopens houts hapart
  have hfiles := fun k hk => (hf.one_frame k hk).1
  refine ⟨?_, ?_⟩
  · obtain ⟨m0, hm0, h0⟩ := create.spec hrun hall hfiles
    refine ⟨m0, hm0, ?_⟩
    intro k hk
    obtain ⟨written, m, hrun', hready⟩ := run_frames.spec hrun h0 k (by omega)
    refine ⟨m, hrun', ?_, ?_⟩
    · intro q hq
      obtain ⟨f, hsim, hitems, -⟩ := hready.slots.queue q hq
      simp [buf_queue.vf_buf_queue_count, hsim.initialized, hsim.count, hitems]
    · intro p
      exact buf_pool.none_held (hready.slots.pool p)
  · obtain ⟨written, files', hrun', hlen, hwritten, hconcat, hsplit⟩ :=
      run_scenario.spec hrun hall hfiles hset
    refine ⟨files', hrun', ?_⟩
    have hwhole : written = (List.range frame_set.frames.length).map fun k =>
        converted scenario.src_fmt scenario.dst_fmt w h (contents k) := by
      apply List.ext_getElem
      · simp [hlen]
      · intro j h1 h2
        rw [List.getElem_map, List.getElem_range]
        exact hwritten j _ (List.getElem?_eq_getElem h1)
    rw [← hwhole]
    unfold Delivered
    cases hs : scenario.split_output with
    | false => exact hconcat hs
    | true => exact hsplit hs

end

/-! ## Small sets -/

/-- The files of the frames, and no others. -/
def only_frames [Disk] (frame_set : vf_frame_set_t) (contents : Nat → List UInt8) : Files :=
  fun place => (frame_set.frames.findIdx? (Disk.place ·.full_path = place)).map contents

/-- A set of two grey frames. -/
def grey_set : vf_frame_set_t :=
  ⟨"raw".toList, "vf_frames/raw".toList, .VF_PIXEL_FORMAT_RAW8,
    [⟨"a.raw".toList, "vf_frames/raw/a.raw".toList, 2, 2⟩,
      ⟨"b.raw".toList, "vf_frames/raw/b.raw".toList, 2, 2⟩]⟩

def grey_bytes (k : Nat) : List UInt8 := [UInt8.ofNat k, 10, 20, 30]

section
attribute [local instance] at_root

/-- Two grey frames, each in its own RGB file. -/
theorem two_grey_files_are_converted :
    ∃ files', run_scenario (fun _ => true) g_scenarios[5] ⟨[grey_set]⟩
        (only_frames grey_set grey_bytes) = some (.VF_SUCCESS, files') ∧
      files' (Disk.place "vf_frames/out/raw_to_rgb_split/b.rgb".toList) =
        some [1, 1, 1, 10, 10, 10, 20, 20, 20, 30, 30, 30] := by
  have hf : FrameFiles g_scenarios[5] grey_set 2 2 grey_bytes (only_frames grey_set grey_bytes) :=
    ⟨by simp [grey_set], by decide, by decide, by decide, by unfold NoWrap; decide,
      by decide⟩
  obtain ⟨-, files', hrun, hall⟩ := each_file_gets_its_packed_conversion g_scenarios[5]
    (List.getElem_mem _) ⟨[grey_set]⟩ grey_set (by decide) 2 2 grey_bytes _ hf
    ⟨fun _ _ => rfl, fun _ => rfl, fun _ _ _ => rfl⟩ (by unfold DistinctOutputs; decide)
    (by unfold Apart; decide) (fun _ => true) (fun _ => rfl)
  refine ⟨files', hrun, ?_⟩
  exact hall 1 _ (by decide)

/-- A set whose second frame is in the output file of the first. -/
def shared_set : vf_frame_set_t :=
  ⟨"rgb".toList, "vf_frames/out".toList, .VF_PIXEL_FORMAT_RGB888,
    [⟨"a.rgb".toList, "vf_frames/out/a.rgb".toList, 2, 2⟩,
      ⟨"rgb_to_yuv_split/a.yuv".toList, "vf_frames/out/rgb_to_yuv_split/a.yuv".toList, 2, 2⟩]⟩

/-- A set of two files whose outputs are one file. -/
def dotted_set : vf_frame_set_t :=
  ⟨"raw".toList, "vf_frames/raw".toList, .VF_PIXEL_FORMAT_RAW8,
    [⟨"x.a".toList, "vf_frames/raw/x.a".toList, 2, 2⟩,
      ⟨"./x.b".toList, "vf_frames/raw/./x.b".toList, 2, 2⟩]⟩

/-- Distinct names are not enough. An output file may be the input file of a later frame: it
is empty when that frame is read. And the names `x` and `./x` lead to one output file, which
the later frame takes from the earlier one. -/
theorem an_output_overwrites_an_input_or_an_output :
    (find_frame_set ⟨[shared_set]⟩ g_scenarios[1].input_set = some shared_set ∧
      FrameFiles g_scenarios[1] shared_set 2 2 (fun _ => List.replicate 12 7)
        (only_frames shared_set fun _ => List.replicate 12 7) ∧
      DistinctNames shared_set ∧ Accessible g_scenarios[1] shared_set ∧
      ¬ ∃ files', run_scenario (fun _ => true) g_scenarios[1] ⟨[shared_set]⟩
          (only_frames shared_set fun _ => List.replicate 12 7) = some (.VF_SUCCESS, files')) ∧
    (find_frame_set ⟨[dotted_set]⟩ g_scenarios[5].input_set = some dotted_set ∧
      FrameFiles g_scenarios[5] dotted_set 2 2 grey_bytes (only_frames dotted_set grey_bytes) ∧
      DistinctNames dotted_set ∧ Accessible g_scenarios[5] dotted_set ∧
      ¬ ∃ files', run_scenario (fun _ => true) g_scenarios[5] ⟨[dotted_set]⟩
          (only_frames dotted_set grey_bytes) = some (.VF_SUCCESS, files') ∧
        Delivered g_scenarios[5] dotted_set ((List.range dotted_set.frames.length).map fun k =>
          converted .VF_PIXEL_FMT_RAW8 .VF_PIXEL_FMT_RGB888 2 2 (grey_bytes k)) files') := by
  refine ⟨⟨by decide, ?_, by unfold DistinctNames; decide, ?_, ?_⟩,
    by decide, ?_, by unfold DistinctNames; decide, ?_, ?_⟩
  · exact ⟨by simp [shared_set], by decide, by decide, by decide,
      by unfold NoWrap; decide, by decide⟩
  · exact ⟨fun _ _ => rfl, fun _ => rfl, fun _ _ _ => rfl⟩
  · rintro ⟨files', hrun⟩
    have herr : (run_scenario (fun _ => true) g_scenarios[1] ⟨[shared_set]⟩
        (only_frames shared_set fun _ => List.replicate 12 7)).map Prod.fst =
          some .VF_FILE_ERR := by decide
    rw [hrun] at herr
    cases herr
  · exact ⟨by simp [dotted_set], by decide, by decide, by decide,
      by unfold NoWrap; decide, by decide⟩
  · exact ⟨fun _ _ => rfl, fun _ => rfl, fun _ _ _ => rfl⟩
  · rintro ⟨files', -, hall⟩
    -- both outputs would be in the one file
    have h0 := hall 0 _ (List.getElem?_eq_getElem (by decide))
    have h1 := hall 1 _ (List.getElem?_eq_getElem (by decide))
    have hplace : frame_out g_scenarios[5] dotted_set 0 = frame_out g_scenarios[5] dotted_set 1 := by
      decide
    rw [hplace, h1] at h0
    revert h0
    decide

end

end vision_flow.scenarios
