-- A scenario whose sizes are safe comes to its end, whatever is in the files and whatever it
-- is refused. A frame that goes through the three units takes one slot of each pool and one
-- place of each queue. Or a unit fails, and then no unit runs any more. So no unit waits for a
-- slot or for a frame.
import VisionFlow.ScenarioRuns

namespace vision_flow.scenarios

open programs units file_units
open buf_pool (Kept)
open framebuffer (vf_framebuffer_t)
open parser (Text vf_frame_set_t vf_frames_cfg_t)

/-! ## Frames keep their layout -/

/-- A read changes the bytes of a frame, and nothing else of it. -/
theorem vf_framebuffer_read_from_fptr.holds (fb : vf_framebuffer_t) (data : Nat → UInt8)
    (f : framebuffer.FILE) (read_bytes : Nat) :
    ∃ data', (framebuffer.vf_framebuffer_read_from_fptr (fb.holding data) f read_bytes).2.1 =
      fb.holding data' :=
  ⟨_, rfl⟩

theorem convert.holds (body : vf_framebuffer_t → vf_framebuffer_t → conversion.Bytes Unit)
    (src dst : vf_framebuffer_t) (data : Nat → UInt8) :
    ∃ data', (conversion.convert body src (dst.holding data)).2.1 = dst.holding data' := by
  unfold conversion.convert
  split
  · exact ⟨data, rfl⟩
  · rcases src.data with _ | s
    · exact ⟨data, rfl⟩
    · exact ⟨_, rfl⟩

/-- So does a conversion, whatever the frames are. -/
theorem vf_conversion_process.holds (src_fmt dst_fmt : vf_pixel_fmt_t)
    (src dst : vf_framebuffer_t) (data : Nat → UInt8) :
    ∃ data', (conversion.vf_conversion_process (conversion.vf_conversion_init src_fmt dst_fmt).2
      src (dst.holding data)).2.1 = dst.holding data' := by
  have hall : ∀ e ∈ conversion.g_conversion_table, ∃ data',
      (e.fn src (dst.holding data)).2.1 = dst.holding data' := by
    simp only [conversion.g_conversion_table, List.mem_cons, List.not_mem_nil, or_false]
    rintro e (rfl | rfl | rfl | rfl | rfl | rfl | rfl | rfl) <;> exact convert.holds _ src dst data
  unfold conversion.vf_conversion_process conversion.vf_conversion_init
  rcases hfn : conversion.lookup_convert_fn src_fmt dst_fmt with _ | fn
  · exact ⟨data, rfl⟩
  · obtain ⟨e, hfind, rfl⟩ := Option.map_eq_some_iff.mp hfn
    simp only
    split
    · exact ⟨data, rfl⟩
    · split
      · exact ⟨data, rfl⟩
      · split
        · exact ⟨data, rfl⟩
        · exact hall e (List.mem_of_find?_eq_some hfind)

/-! ## The start -/

section
variable {granted : Resource → Bool} {scenario : vf_scenario_t} {frame_set : vf_frame_set_t}

/-- A slot that is allocated is one that can be. -/
theorem slot_alloc.made {p : PoolId} {i : Nat}
    (h : slot_alloc granted scenario frame_set p i = .VF_SUCCESS) :
    (slot scenario frame_set p).1 = .VF_SUCCESS := by
  unfold slot_alloc at h
  unfold slot
  cases hg : granted (.slot p i) with
  | true => rwa [hg] at h
  | false =>
    rw [hg] at h
    simp only [framebuffer.vf_framebuffer_alloc] at h
    split at h
    · cases h
    · split at h
      · cases h
      · split at h
        · contradiction
        · cases h

theorem init_queue.sim {q : QueueId} (h : (init_queue granted q).1 = .VF_SUCCESS) :
    ∃ f : buf_queue.Fifo Frame, buf_queue.Sim (init_queue granted q).2 f ∧ f.items = [] ∧
      f.capacity = 16 := by
  have hok : init_queue granted q = buf_queue.vf_buf_queue_init buf_queue.zeroed
      buf_queue.VF_BUF_QUEUE_MAX_CAPACITY true true := by
    unfold init_queue at h ⊢
    cases hm : granted (.queue_mutex q) with
    | false => simp [hm, buf_queue.vf_buf_queue_init, buf_queue.VF_BUF_QUEUE_MAX_CAPACITY] at h
    | true =>
      cases hc : granted (.queue_cond q) with
      | false =>
        simp [hm, hc, buf_queue.vf_buf_queue_init, buf_queue.VF_BUF_QUEUE_MAX_CAPACITY] at h
      | true => rfl
  obtain ⟨-, hsim⟩ := buf_queue.vf_buf_queue_init.spec (α := Frame) buf_queue.zeroed
    buf_queue.VF_BUF_QUEUE_MAX_CAPACITY (by decide) (Nat.le_refl _)
  exact ⟨_, hok ▸ hsim, rfl, rfl⟩

/-- A pipeline that is created has all slots free, and empty queues. -/
theorem create.slots [Disk] {files : Files} {m : Mem}
    (h : create granted scenario frame_set files = .ok m) :
    Slots scenario frame_set (fun _ => ∅) (fun _ => []) m ∧
      ∀ p, (slot scenario frame_set p).1 = .VF_SUCCESS := by
  unfold create at h
  simp only at h
  split at h
  · cases h
  · rename_i hin
    split at h
    · cases h
    · rename_i hout
      split at h
      · cases h
      · rename_i hqueue0
        split at h
        · cases h
        · rename_i hqueue1
          have hpool : ∀ p, (init_pool granted scenario frame_set p).1 = .VF_SUCCESS := by
            intro p
            cases p with
            | pool_in => exact not_not.mp hin
            | pool_out => exact not_not.mp hout
          have hslots : ∀ p, (slot scenario frame_set p).1 = .VF_SUCCESS :=
            fun p => slot_alloc.made (buf_pool.vf_buf_pool_init.first_slot (hpool p))
          have hkept : ∀ p, Kept p POOL_SLOT_COUNT (init_pool granted scenario frame_set p).2.1
              ⟨∅, false⟩ := by
            intro p
            rw [init_pool, (buf_pool.vf_buf_pool_init.spec _ _ _ _ _ (hpool p)).2.2]
            exact buf_pool.fresh_kept p POOL_SLOT_COUNT (by decide)
          have hqueue : ∀ q, q ≠ .queue2 → ∃ f : buf_queue.Fifo Frame,
              buf_queue.Sim (if q = .queue2 then buf_queue.zeroed else (init_queue granted q).2) f ∧
                f.items = [] ∧ f.capacity = 16 := by
            intro q hq
            rw [if_neg hq]
            cases q with
            | queue0 => exact init_queue.sim (not_not.mp hqueue0)
            | queue1 => exact init_queue.sim (not_not.mp hqueue1)
            | queue2 => contradiction
          split at h
          · cases h
          · split at h
            · cases h
            · split at h
              · cases h
              · cases h
                exact ⟨⟨fun _ => rfl, rfl, rfl, hkept, hqueue,
                  fun p _ hi => slot_holds hslots p hi⟩, hslots⟩

end

/-! ## Code that ends -/

section
variable [Disk] {cfg : vf_file_unit_cfg_t} {u : FileUnit} {m : Mem} {P Q : Mem → Prop}

/-- The code comes to its end, and with success it leads to `Q`. -/
def Ends (cfg : vf_file_unit_cfg_t) (u : FileUnit) (p : FileCode vf_err_t) (m : Mem)
    (Q : Mem → Prop) : Prop :=
  ∃ err m', exec (step cfg u) p m = some (err, m') ∧ (err = .VF_SUCCESS → Q m')

theorem Ends.success (h : Q m) : Ends cfg u (return .VF_SUCCESS) m Q := ⟨_, m, rfl, fun _ => h⟩

/-- Code that goes on only after a success. -/
theorem Ends.checked {p q : FileCode vf_err_t} (hp : Ends cfg u p m P)
    (hq : ∀ m1, P m1 → Ends cfg u q m1 Q) :
    Ends cfg u (do
      let err ← p
      if err ≠ .VF_SUCCESS then
        return err
      q) m Q := by
  obtain ⟨err, m1, hrun, hP⟩ := hp
  unfold Ends
  rw [exec_bind, hrun, Option.bind_some]
  by_cases herr : err = .VF_SUCCESS
  · rw [if_neg (by simp [herr])]
    exact hq m1 (hP herr)
  · rw [if_pos herr]
    exact ⟨err, m1, rfl, fun h => absurd h herr⟩

theorem vf_unit_run.ends {get_data process_data send_data : FileCode vf_err_t}
    (P1 P2 : Mem → Prop) (hinit : m.initialized u = true) (hget : Ends cfg u get_data m P1)
    (hprocess : ∀ m1, P1 m1 → Ends cfg u process_data m1 P2)
    (hsend : ∀ m2, P2 m2 → Ends cfg u send_data m2 Q) :
    Ends cfg u (file_units.vf_unit_run get_data process_data send_data) m Q := by
  unfold Ends file_units.vf_unit_run
  rw [exec_bind, exec_unit, exec_perform]
  have hload : do_unit cfg u .initialized m = some (true, m) := congrArg (fun b => some (b, m)) hinit
  rw [hload, Option.bind_some]
  exact hget.checked fun m1 h1 => (hprocess m1 h1).checked fun m2 h2 =>
    (hsend m2 h2).checked fun _ h3 => .success h3

end

/-! ## The units -/

section
variable {scenario : vf_scenario_t} {frame_set : vf_frame_set_t} {busy : PoolId → Finset Nat}
  {items : QueueId → List Frame} {m : Mem}

/-- A file is opened, or not: the slots do not change. -/
theorem reopen.slots [Disk] (h : Slots scenario frame_set busy items m) (u : FileUnit)
    (path : Text) (writes : Bool) : Slots scenario frame_set busy items (reopen u path writes m).2 ∧
      (reopen u path writes m).2.ptr = m.ptr :=
  ⟨h.beside _ _ _ _, rfl⟩

/-- A frame is read into its block, to its end or not. -/
theorem do_read.slots (h : Slots scenario frame_set busy items m)
    (hsound : Sound scenario frame_set) {u : FileUnit} {p : Field} {pool : PoolId} {i : Nat}
    (hi : i < POOL_SLOT_COUNT) (hptr : m.ptr u p = some ⟨pool, i⟩) :
    ∃ err m', do_read u p m = some (err, m') ∧ Slots scenario frame_set busy items m' ∧
      m'.ptr = m.ptr := by
  obtain ⟨data, hdata⟩ := h.fb pool i hi
  unfold do_read
  rw [hptr]
  rcases (m.file u).fp with _ | fp
  · exact ⟨_, _, rfl, h, rfl⟩
  · obtain ⟨data', hdata'⟩ := vf_framebuffer_read_from_fptr.holds
      (slot scenario frame_set pool).2 data fp.file 0
    simp only [hdata, frame_blocks.vf_framebuffer_read_from_fptr.inside
      ((hsound.fits pool).holding data), Option.map_some, hdata']
    exact ⟨_, _, rfl, (h.set_fb ⟨pool, i⟩ data').beside _ _ _ _, rfl⟩

/-- A frame is converted in its block, or not. -/
theorem do_convert.slots (h : Slots scenario frame_set busy items m)
    (hsound : Sound scenario frame_set) {u : FileUnit} {src dst : Field} {i j : Nat}
    (hi : i < POOL_SLOT_COUNT) (hj : j < POOL_SLOT_COUNT)
    (hsrc : m.ptr u src = some ⟨.pool_in, i⟩) (hdst : m.ptr u dst = some ⟨.pool_out, j⟩) :
    ∃ err m', do_convert u src dst m = some (err, m') ∧ Slots scenario frame_set busy items m' ∧
      m'.ptr = m.ptr := by
  obtain ⟨s, hs⟩ := h.fb .pool_in i hi
  obtain ⟨d, hd⟩ := h.fb .pool_out j hj
  obtain ⟨d', hd'⟩ := vf_conversion_process.holds scenario.src_fmt scenario.dst_fmt
    ((slot scenario frame_set .pool_in).2.holding s) (slot scenario frame_set .pool_out).2 d
  unfold do_convert
  simp only [hsrc, hdst, h.conv_ctx, hs, hd, hsound.converts, if_true, hd']
  exact ⟨_, _, rfl, h.set_fb ⟨.pool_out, j⟩ d', rfl⟩

/-- A frame is written from its block, also when that fails. -/
theorem do_write.slots (h : Slots scenario frame_set busy items m)
    (hsound : Sound scenario frame_set) {u : FileUnit} {p : Field} {pool : PoolId} {i : Nat}
    (hi : i < POOL_SLOT_COUNT) (hptr : m.ptr u p = some ⟨pool, i⟩) :
    ∃ err m', do_write u p m = some (err, m') ∧ Slots scenario frame_set busy items m' ∧
      m'.ptr = m.ptr := by
  obtain ⟨data, hdata⟩ := h.fb pool i hi
  unfold do_write
  rw [hptr]
  rcases (m.file u).fp with _ | fp
  · exact ⟨_, _, rfl, h, rfl⟩
  · simp only [hdata, frame_blocks.vf_framebuffer_write_to_fptr.inside
      ((hsound.fits pool).holding data), Option.map_some]
    exact ⟨_, _, rfl, h.beside _ _ _ _, rfl⟩

end

section
variable [Disk] {scenario : vf_scenario_t} {frame_set : vf_frame_set_t}
  {cfg : vf_file_unit_cfg_t} {busy : PoolId → Finset Nat} {items : QueueId → List Frame} {m : Mem}

/-- With a free slot the input unit does not wait, whatever it reads. -/
theorem file_in.ends (h : Slots scenario frame_set busy items m)
    (hsound : Sound scenario frame_set) (hfree : busy .pool_in = ∅) (hempty : items .queue0 = []) :
    Ends cfg .file_in FileUnit.file_in.run m fun m' => ∃ i < POOL_SLOT_COUNT,
      Slots scenario frame_set (Function.update busy .pool_in {i})
        (Function.update items .queue0 [⟨.pool_in, i⟩]) m' := by
  let P1 (m : Mem) := ∃ i < POOL_SLOT_COUNT, m.ptr .file_in .current_fb = some ⟨.pool_in, i⟩ ∧
    Slots scenario frame_set (Function.update busy .pool_in {i}) items m
  refine vf_unit_run.ends P1 P1 (h.initialized _) ?_ (fun m1 h1 => .success h1) ?_
  · unfold vf_file_unit_get_data_in
    have hopen : Ends cfg .file_in open_input m (Slots scenario frame_set busy items) :=
      ⟨_, _, rfl, fun _ => (reopen.slots h .file_in _ false).1⟩
    refine hopen.checked fun m1 h1 => ?_
    have hacquire : Ends cfg .file_in (acquire_blocking .pool_in .current_fb).inl m1 P1 := by
      obtain ⟨i, hi, pool, hacq, h2⟩ := h1.acquire hfree (m1.ptr .file_in .current_fb)
      refine ⟨.VF_SUCCESS, (m1.set_pool .pool_in pool).put .file_in .current_fb
        (some ⟨.pool_in, i⟩), by simp [do_unit, hacq], fun _ => ⟨i, hi, ?_, h2.beside _ _ _ _⟩⟩
      simp [Mem.put]
    refine hacquire.checked fun m2 h2 => ?_
    obtain ⟨i, hi, hptr, h2⟩ := h2
    obtain ⟨err, m3, hread, h3, hptr3⟩ := do_read.slots h2 hsound hi hptr
    -- an error gives the slot back, and a success keeps it
    unfold Ends file_units.read next_frame
    by_cases herr : err = .VF_SUCCESS
    · refine ⟨.VF_SUCCESS, m3.next_frame .file_in, ?_,
        fun _ => ⟨i, hi, hptr3 ▸ hptr, h3.beside _ _ _ _⟩⟩
      simp [exec, step, do_input, hread, herr]
    · simp [exec, step, do_input, do_unit, hread, herr]
  · rintro m2 ⟨i, hi, hptr, h2⟩
    obtain ⟨queue, hpush, h3⟩ := h2.push (by decide) hempty ⟨.pool_in, i⟩
    refine ⟨.VF_SUCCESS, (m2.set_queue .queue0 queue).put .file_in .current_fb none, ?_,
      fun _ => ⟨i, hi, h3.beside _ _ _ _⟩⟩
    unfold vf_file_unit_send_data_in units.push FileUnit.unit
    simp [do_unit, hptr, hpush]

/-- With a frame in its queue and a free slot the conversion unit does not wait. With success
it gives the source back. -/
theorem conversion.ends {i : Nat} (h : Slots scenario frame_set busy items m)
    (hsound : Sound scenario frame_set) (hi : i < POOL_SLOT_COUNT) (hin : busy .pool_in = {i})
    (hone : items .queue0 = [⟨.pool_in, i⟩]) (hfree : busy .pool_out = ∅)
    (hempty : items .queue1 = []) (hcount : (slot scenario frame_set .pool_in).2.ref_count = 0) :
    Ends cfg .conversion FileUnit.conversion.run m fun m' => ∃ j < POOL_SLOT_COUNT,
      Slots scenario frame_set (Function.update (Function.update busy .pool_out {j}) .pool_in ∅)
        (Function.update (Function.update items .queue0 []) .queue1 [⟨.pool_out, j⟩]) m' := by
  let P1 (m : Mem) := m.ptr .conversion .in_fb = some ⟨.pool_in, i⟩ ∧
    Slots scenario frame_set busy (Function.update items .queue0 []) m
  let P2 (m : Mem) := ∃ j < POOL_SLOT_COUNT, m.ptr .conversion .in_fb = some ⟨.pool_in, i⟩ ∧
    m.ptr .conversion .out_fb = some ⟨.pool_out, j⟩ ∧
    Slots scenario frame_set (Function.update busy .pool_out {j})
      (Function.update items .queue0 []) m
  refine vf_unit_run.ends P1 P2 (h.initialized _) ?_ ?_ ?_
  · obtain ⟨queue, hpop, h1⟩ := h.pop (by decide) hone (m.ptr .conversion .in_fb)
    refine ⟨.VF_SUCCESS, (m.set_queue .queue0 queue).put .conversion .in_fb (some ⟨.pool_in, i⟩),
      ?_, fun _ => ⟨by simp [Mem.put], h1.beside _ _ _ _⟩⟩
    unfold vf_conversion_unit_get_data FileUnit.unit
    simp [do_unit, hpop]
  · rintro m1 ⟨hptr, h1⟩
    obtain ⟨j, hj, pool, hacq, h2⟩ := h1.acquire hfree (m1.ptr .conversion .out_fb)
    let m2 := (m1.set_pool .pool_out pool).put .conversion .out_fb (some ⟨.pool_out, j⟩)
    have hptr2 : m2.ptr .conversion .in_fb = some ⟨.pool_in, i⟩ := by
      simp [m2, Mem.put, Mem.set_pool, hptr]
    have hout2 : m2.ptr .conversion .out_fb = some ⟨.pool_out, j⟩ := by simp [m2, Mem.put]
    have h2' : Slots scenario frame_set (Function.update busy .pool_out {j})
        (Function.update items .queue0 []) m2 := h2.beside _ _ _ _
    obtain ⟨err, m3, hconvert, h3, hptr3⟩ := do_convert.slots h2' hsound hi hj hptr2 hout2
    unfold Ends vf_conversion_unit_process_data
    by_cases herr : err = .VF_SUCCESS
    · refine ⟨.VF_SUCCESS, m3, ?_,
        fun _ => ⟨j, hj, by rw [hptr3]; exact hptr2, by rw [hptr3]; exact hout2, h3⟩⟩
      simp [do_unit, hptr, hacq, hconvert, herr, m2]
    · simp [do_unit, hptr, hacq, hconvert, herr, m2]
  · rintro m2 ⟨j, hj, hptr, hout, h2⟩
    obtain ⟨queue, hpush, h3⟩ := h2.push (q := .queue1) (by decide) (by simpa using hempty)
      ⟨.pool_out, j⟩
    let m3 := m2.set_queue .queue1 queue
    -- the counter of the source is 0, so the unref releases it
    obtain ⟨data, hdata⟩ := h3.fb .pool_in i hi
    obtain ⟨m4, n, hsub, hadd⟩ := fetch_undone (m := m3) hptr (by rw [hdata]; exact hcount)
    obtain ⟨pool, signal, hrel, h5⟩ := h3.release (p := .pool_in) (i := i) (by simpa using hin)
    refine ⟨.VF_SUCCESS, ((m3.set_pool .pool_in pool).put .conversion .in_fb none).put .conversion
      .out_fb none, ?_, fun _ => ⟨j, hj, h5.beside _ _ _ _⟩⟩
    have hptr3 : m3.ptr .conversion .in_fb = some ⟨.pool_in, i⟩ := hptr
    unfold vf_conversion_unit_send_data vf_framebuffer_unref units.push FileUnit.unit
    simp [do_unit, hout, hpush, hptr3, hsub, hadd, hrel, m3]

/-- With a frame in its queue the output unit does not wait, and it gives the frame back. -/
theorem file_out.ends {j : Nat} (h : Slots scenario frame_set busy items m)
    (hsound : Sound scenario frame_set) (hj : j < POOL_SLOT_COUNT) (hout : busy .pool_out = {j}) (hone : items .queue1 = [⟨.pool_out, j⟩]) :
    Ends cfg .file_out FileUnit.file_out.run m
      (Slots scenario frame_set (Function.update busy .pool_out ∅)
        (Function.update items .queue1 [])) := by
  let P1 (m : Mem) := m.ptr .file_out .current_fb = some ⟨.pool_out, j⟩ ∧
    Slots scenario frame_set busy (Function.update items .queue1 []) m
  refine vf_unit_run.ends P1 P1 (h.initialized _) ?_ (fun m1 h1 => .success h1) ?_
  · obtain ⟨queue, hpop, h1⟩ := h.pop (by decide) hone (m.ptr .file_out .current_fb)
    refine ⟨.VF_SUCCESS, (m.set_queue .queue1 queue).put .file_out .current_fb
      (some ⟨.pool_out, j⟩), ?_, fun _ => ⟨by simp [Mem.put], h1.beside _ _ _ _⟩⟩
    unfold vf_file_unit_get_data FileUnit.unit
    simp [do_unit, hpop]
  · rintro m1 ⟨hptr, h1⟩
    -- an output file that does not open, and one that does
    obtain ⟨err, m2, hopen, hptr2, h2⟩ : ∃ err m2,
        do_unit cfg .file_out .open_output m1 = some (err, m2) ∧ m2.ptr = m1.ptr ∧
          Slots scenario frame_set busy (Function.update items .queue1 []) m2 := by
      unfold do_unit
      split
      · obtain ⟨h2, hptr2⟩ := reopen.slots h1 .file_out
          (out_path cfg (frame_at cfg.frame_set (m1.frame_idx .file_out)).file_name) true
        exact ⟨_, _, rfl, hptr2, h2⟩
      · exact ⟨_, _, rfl, rfl, h1⟩
    have hload : do_unit cfg .file_out (.load .current_fb) m1 = some (some ⟨.pool_out, j⟩, m1) :=
      congrArg (fun o => some (o, m1)) hptr
    have hrelease : ∀ m3, Slots scenario frame_set busy (Function.update items .queue1 []) m3 →
        m3.ptr = m1.ptr → ∃ pool err, do_unit cfg .file_out (.release .pool_out .current_fb) m3 =
          some (err, m3.set_pool .pool_out pool) ∧ Slots scenario frame_set
            (Function.update busy .pool_out ∅) (Function.update items .queue1 [])
            (m3.set_pool .pool_out pool) := by
      intro m3 h3 hptr3
      obtain ⟨pool, signal, hrel, h4⟩ := h3.release (p := .pool_out) hout
      exact ⟨pool, .VF_SUCCESS, by simp only [do_unit, hptr3, hptr, hrel], h4⟩
    unfold Ends vf_file_unit_send_data
    by_cases herr : err = .VF_SUCCESS
    · subst herr
      obtain ⟨err, m3, hdo_write, h3, hptr3⟩ := do_write.slots h2 hsound hj (by rw [hptr2, hptr])
      let m4 := m3.next_frame .file_out
      have hwrite : do_unit cfg .file_out (.write .current_fb) m2 = some (err, m4) := by
        simp only [do_unit, hdo_write, Option.map_some]
        rfl
      obtain ⟨pool, rc, hrel, h5⟩ := hrelease m4 (h3.beside _ _ _ _) (hptr3.trans hptr2)
      refine ⟨err, (m4.set_pool .pool_out pool).put .file_out .current_fb none, ?_,
        fun _ => h5.beside _ _ _ _⟩
      simp [hload, hopen, hwrite, hrel]
      rfl
    · obtain ⟨pool, rc, hrel, -⟩ := hrelease m2 h2 hptr2
      refine ⟨err, (m2.set_pool .pool_out pool).put .file_out .current_fb none, ?_,
        fun h => absurd h herr⟩
      simp [hload, hopen, herr, hrel]
      rfl

end

/-! ## Whole runs -/

section
variable [Disk] {scenario : vf_scenario_t} {frame_set : vf_frame_set_t}
  {cfg : vf_file_unit_cfg_t} {m : Mem}

/-- Between two frames no slot is handed out, and no frame is in a queue. -/
def Idle (scenario : vf_scenario_t) (frame_set : vf_frame_set_t) : Mem → Prop :=
  Slots scenario frame_set (fun _ => ∅) (fun _ => [])

/-- A unit that fails ends the frame, and the units after it get what it left. -/
theorem run_units.cons {u : FileUnit} {rest : List FileUnit} {P Q : Mem → Prop}
    (hu : Ends cfg u u.run m P)
    (hrest : ∀ m1, P m1 → ∃ err m', run_units cfg rest m1 = some (err, m') ∧
      (err = .VF_SUCCESS → Q m')) :
    ∃ err m', run_units cfg (u :: rest) m = some (err, m') ∧ (err = .VF_SUCCESS → Q m') := by
  obtain ⟨err, m1, hrun, hP⟩ := hu
  rw [run_units, hrun, Option.bind_some]
  by_cases herr : err = .VF_SUCCESS
  · rw [if_neg (by simp [herr])]
    exact hrest m1 (hP herr)
  · rw [if_pos herr]
    exact ⟨err, m1, rfl, fun h => absurd h herr⟩

/-- One frame ends, and with success all is as before it. -/
theorem vf_pipeline_run_once.ends (cfg : vf_file_unit_cfg_t) (h : Idle scenario frame_set m)
    (hsound : Sound scenario frame_set)
    (hcount : (slot scenario frame_set .pool_in).2.ref_count = 0) :
    ∃ err m', vf_pipeline_run_once cfg m = some (err, m') ∧
      (err = .VF_SUCCESS → Idle scenario frame_set m') := by
  unfold vf_pipeline_run_once
  rw [h.pipeline, if_neg (by simp)]
  refine run_units.cons (file_in.ends h hsound rfl rfl) ?_
  rintro m1 ⟨i, hi, h1⟩
  refine run_units.cons
    (conversion.ends h1 hsound hi (by simp) (by simp) (by simp) (by simp) hcount) ?_
  rintro m2 ⟨j, hj, h2⟩
  refine run_units.cons (file_out.ends h2 hsound hj (by simp) (by simp)) fun m3 h3 => ?_
  refine ⟨.VF_SUCCESS, m3, rfl, fun _ => ?_⟩
  have hbusy : Function.update (Function.update (Function.update (Function.update
      (fun _ => ∅) .pool_in {i}) .pool_out {j}) .pool_in ∅) .pool_out ∅ =
      fun _ : PoolId => (∅ : Finset Nat) := by
    funext p
    cases p <;> simp
  have hitems : Function.update (Function.update (Function.update (Function.update
      (fun _ => []) .queue0 [⟨.pool_in, i⟩]) .queue0 []) .queue1 [⟨.pool_out, j⟩]) .queue1 [] =
      fun _ : QueueId => ([] : List Frame) := by
    funext q
    cases q <;> simp
  rw [hbusy, hitems] at h3
  exact h3

theorem run_frames.ends (cfg : vf_file_unit_cfg_t) (hsound : Sound scenario frame_set)
    (hcount : (slot scenario frame_set .pool_in).2.ref_count = 0) (n : Nat)
    (h : Idle scenario frame_set m) : ∃ r, run_frames cfg n m = some r := by
  induction n generalizing m with
  | zero => exact ⟨_, rfl⟩
  | succ n ih =>
    obtain ⟨err, m', hrun, hidle⟩ := vf_pipeline_run_once.ends cfg h hsound hcount
    rw [run_frames, hrun, Option.bind_some]
    by_cases herr : err = .VF_SUCCESS
    · rw [if_neg (by simp [herr])]
      exact ih (hidle herr)
    · rw [if_pos herr]
      exact ⟨_, rfl⟩

end

/-- A scenario of the table ends, whatever the files are and whatever it is refused, if the
size of its frames is safe. -/
theorem run_scenario.ends [Disk] (granted : Resource → Bool) {scenario : vf_scenario_t}
    (hmem : scenario ∈ g_scenarios) (cfg : vf_frames_cfg_t)
    (hsafe : ∀ frame_set, find_frame_set cfg scenario.input_set = some frame_set →
      Safe scenario frame_set) (files : Files) :
    ∃ r, run_scenario granted scenario cfg files = some r := by
  unfold run_scenario
  rcases hset : find_frame_set cfg scenario.input_set with _ | frame_set
  · exact ⟨_, rfl⟩
  · simp only
    rcases hcreate : create granted scenario frame_set files with err | m
    · exact ⟨_, rfl⟩
    · obtain ⟨hidle, hslots⟩ := create.slots hcreate
      have hsound := (hsafe frame_set hset).sound (supported_scenario hmem) hslots
      have hcount := (framebuffer.vf_framebuffer_alloc.made (hslots .pool_in)).2.2
      obtain ⟨r, hrun⟩ := run_frames.ends (unit_cfg scenario frame_set) hsound hcount
        (unit_cfg scenario frame_set).frame_set.frames.length hidle
      exact ⟨_, congrArg (Option.map _) hrun⟩

end vision_flow.scenarios
