-- Which files a scenario reads and writes. It changes its output files alone, and what it does
-- depends on its input files alone. So two scenarios with their own output files do not meddle
-- with each other, whichever fails.
import VisionFlow.Lib.Footprints
import VisionFlow.ScenarioEnds

namespace vision_flow.scenarios

open programs units file_units
open parser (Text vf_frame_set_t vf_frames_cfg_t)
open footprints (Agree Local)

/-! ## Inputs and outputs -/

section
variable [Disk] (cfg : vf_frames_cfg_t) (scenario : vf_scenario_t) (place : Place)

/-- An input file of the scenario. -/
def Reads : Prop :=
  ∃ frame_set, find_frame_set cfg scenario.input_set = some frame_set ∧
    ∃ frame ∈ frame_set.frames, Disk.place frame.full_path = place

/-- An output file of the scenario. -/
def Writes : Prop :=
  ∃ frame_set, find_frame_set cfg scenario.input_set = some frame_set ∧
    if scenario.split_output then
      ∃ frame ∈ frame_set.frames,
        Disk.place (out_path (unit_cfg scenario frame_set) frame.file_name) = place
    else concat_out scenario = place

end

theorem frame_at_mem {frame_set : vf_frame_set_t} (h : frame_set.frames ≠ []) (i : Nat) :
    frame_at frame_set i ∈ frame_set.frames := by
  unfold frame_at
  rcases hi : frame_set.frames[i]? with _ | frame
  · rw [Option.getD_none, List.getLastD_eq_getLast?, List.getLast?_eq_some_getLast h]
    exact List.getLast_mem h
  · exact List.mem_of_getElem? hi

/-- Without a frame there is no pool. -/
theorem no_frames {granted : Resource → Bool} {scenario : vf_scenario_t}
    {frame_set : vf_frame_set_t} (h : frame_set.frames = []) :
    (init_pool granted scenario frame_set .pool_in).1 ≠ .VF_SUCCESS := by
  intro hpool
  have hslot := slot_alloc.made (buf_pool.vf_buf_pool_init.first_slot hpool)
  obtain ⟨-, hw, -⟩ := framebuffer.vf_framebuffer_alloc.accepted hslot
  simp [params, frame_at, h] at hw

/-! ## What is written -/

/-- The files off `W` are those of `files`, and each stream that writes is to a place of `W`. -/
structure Confined (W : Place → Prop) (files : Files) (m : Mem) : Prop where
  streams : ∀ u fp, (m.file u).fp = some fp → fp.writes = true → W fp.place
  others : ∀ place, ¬ W place → m.files place = files place

section
variable {W : Place → Prop} {files : Files} {m : Mem}

theorem Confined.beside (h : Confined W files m) (pool : PoolId → buf_pool.vf_buf_pool_t PoolId)
    (queue : QueueId → buf_queue.vf_buf_queue_t Frame)
    (fb : Frame → framebuffer.vf_framebuffer_t) (ptr : FileUnit → Field → Option Frame)
    (frame_idx : FileUnit → Nat) : Confined W files
      { m with pool := pool, queue := queue, fb := fb, ptr := ptr, frame_idx := frame_idx } :=
  ⟨h.streams, h.others⟩

/-- A unit gets another file, and the files change. -/
theorem Confined.set_file (h : Confined W files m) (u : FileUnit) {file : vf_file_t}
    {files' : Files} (hfile : ∀ fp, file.fp = some fp → fp.writes = true → W fp.place)
    (hfiles : ∀ place, ¬ W place → files' place = m.files place) :
    Confined W files (m.set_file u file files') := by
  refine ⟨fun v fp hfp => ?_, fun place hplace =>
    (hfiles place hplace).trans (h.others place hplace)⟩
  by_cases hv : v = u
  · subst hv
    simp only [Mem.set_file, Function.update_self] at hfp
    exact hfile fp hfp
  · simp only [Mem.set_file, Function.update_of_ne hv] at hfp
    exact h.streams v fp hfp

/-- A file that is closed gets what was written to it. -/
theorem vf_file_close.confined (files : Files) {file : vf_file_t}
    (hfile : ∀ fp, file.fp = some fp → fp.writes = true → W fp.place) :
    (∀ place, ¬ W place → (vf_file_close files file).2.2 place = files place) ∧
      ∀ fp, (vf_file_close files file).2.1.fp = some fp → fp.writes = true → W fp.place := by
  unfold vf_file_close
  split
  · exact ⟨fun _ _ => rfl, hfile⟩
  · rcases hfp : file.fp with _ | fp
    · refine ⟨fun _ _ => rfl, fun fp h => ?_⟩
      rw [hfp] at h
      cases h
    · refine ⟨fun place hplace => ?_, fun _ h => by cases h⟩
      simp only [fclose]
      split
      · rename_i hwrites
        have hne : place ≠ fp.place := by
          rintro rfl
          exact hplace (hfile fp hfp hwrites)
        exact Function.update_of_ne hne ..
      · rfl

/-- The stream of a unit goes on, to its place. -/
theorem Confined.set_stream (h : Confined W files m) (u : FileUnit) {fp : Stream}
    (hfp : (m.file u).fp = some fp) (file : framebuffer.FILE) :
    Confined W files (m.set_stream u fp file) := by
  refine h.set_file u (fun fp' hfp' hwrites => ?_) fun _ _ => rfl
  obtain rfl : { fp with file := file } = fp' := Option.some.inj hfp'
  exact h.streams u fp hfp hwrites

/-- A part of a run, and what comes after it where it ends with success. -/
theorem Confined.checked {o : Option (vf_err_t × Mem)} {k : Mem → Option (vf_err_t × Mem)}
    {r : vf_err_t × Mem} (ho : ∀ r, o = some r → Confined W files r.2)
    (hk : ∀ m r, Confined W files m → k m = some r → Confined W files r.2)
    (hrun : (o.bind fun r => if r.1 ≠ .VF_SUCCESS then some r else k r.2) = some r) :
    Confined W files r.2 := by
  obtain ⟨r1, h1, h2⟩ := Option.bind_eq_some_iff.mp hrun
  split at h2
  · cases h2
    exact ho _ h1
  · exact hk r1.2 r (ho r1 h1) h2

/-- Each deinit closes the file of its unit. -/
theorem vf_pipeline_destroy.confined (h : Confined W files m) :
    Confined W files (vf_pipeline_destroy m) := by
  have hunit : ∀ (u : FileUnit) {m : Mem}, Confined W files m →
      Confined W files (vf_file_unit_deinit u m) := by
    intro u m h
    obtain ⟨hclosed, hclosed'⟩ := vf_file_close.confined m.files (h.streams u)
    have hset := h.set_file u hclosed' hclosed
    exact ⟨hset.streams, hset.others⟩
  have hboth := hunit .file_out (hunit .file_in h)
  exact ⟨hboth.streams, hboth.others⟩

end

section
variable [Disk] {W : Place → Prop} {files : Files} {m : Mem}

theorem vf_file_open.confined (files : Files) {file : vf_file_t} {path : Text} {writes : Bool}
    (hfile : ∀ fp, file.fp = some fp → fp.writes = true → W fp.place)
    (hpath : writes = true → W (Disk.place path)) :
    (∀ p, ¬ W p → (vf_file_open files file path writes).2.2 p = files p) ∧
      ∀ fp, (vf_file_open files file path writes).2.1.fp = some fp → fp.writes = true →
        W fp.place := by
  unfold vf_file_open
  split
  · exact ⟨fun _ _ => rfl, hfile⟩
  · split
    · exact ⟨fun _ _ => rfl, fun _ h => by cases h⟩
    · rename_i fp files' hopen
      unfold fopen at hopen
      cases writes with
      | true =>
        simp only [if_true] at hopen
        split at hopen
        · cases hopen
          refine ⟨fun p hp => ?_, ?_⟩
          · have hne : p ≠ Disk.place path := by
              rintro rfl
              exact hp (hpath rfl)
            exact Function.update_of_ne hne ..
          · rintro _ ⟨⟩ -
            exact hpath rfl
        · cases hopen
      | false =>
        simp only [Bool.false_eq_true, if_false] at hopen
        split at hopen
        · obtain ⟨bytes, -, hbytes⟩ := Option.map_eq_some_iff.mp hopen
          cases hbytes
          refine ⟨fun _ _ => rfl, ?_⟩
          rintro _ ⟨⟩ h
          cases h
        · cases hopen

theorem reopen.confined (h : Confined W files m) (u : FileUnit) {path : Text} {writes : Bool}
    (hpath : writes = true → W (Disk.place path)) : Confined W files (reopen u path writes m).2 := by
  obtain ⟨hclosed, hclosed'⟩ := vf_file_close.confined m.files (h.streams u)
  unfold reopen
  cases hstate : (m.file u).is_open with
  | true =>
    obtain ⟨hopen, hopen'⟩ := vf_file_open.confined (vf_file_close m.files (m.file u)).2.2
      hclosed' hpath
    exact h.set_file u hopen' fun p hp => (hopen p hp).trans (hclosed p hp)
  | false =>
    obtain ⟨hopen, hopen'⟩ := vf_file_open.confined m.files (h.streams u) hpath
    exact h.set_file u hopen' hopen

theorem Confined.unit {cfg : vf_file_unit_cfg_t} {u : FileUnit} (h : Confined W files m)
    (hout : ∀ i, cfg.split_output = true →
      W (Disk.place (out_path cfg (frame_at cfg.frame_set i).file_name))) (c : UnitCmd)
    {r : c.Res × Mem} (hrun : do_unit cfg u c m = some r) : Confined W files r.2 := by
  cases c with
  | open_output =>
    simp only [do_unit] at hrun
    split at hrun
    · cases hrun
      exact reopen.confined h u fun _ => hout _ ‹_›
    · cases hrun
      exact h
  | write p =>
    obtain ⟨r1, h1, rfl⟩ := Option.map_eq_some_iff.mp hrun
    refine Confined.beside ?_ _ _ _ _ _
    unfold do_write at h1
    split at h1
    · obtain ⟨_, -, rfl⟩ := Option.map_eq_some_iff.mp h1
      exact h.set_stream u ‹_› _
    · cases h1
      exact h
  | acquire_blocking pool p =>
    obtain ⟨_, -, rfl⟩ := Option.map_eq_some_iff.mp hrun
    exact h.beside _ _ _ _ _
  | pop_blocking q p =>
    obtain ⟨_, -, rfl⟩ := Option.map_eq_some_iff.mp hrun
    exact h.beside _ _ _ _ _
  | fetch_add p =>
    cases hrun
    unfold do_fetch
    split
    · exact h
    · exact h.beside _ _ _ _ _
  | fetch_sub p =>
    cases hrun
    unfold do_fetch
    split
    · exact h
    · exact h.beside _ _ _ _ _
  | convert src dst =>
    simp only [do_unit, do_convert] at hrun
    split at hrun
    · split at hrun
      · cases hrun
        exact h.beside _ _ _ _ _
      · cases hrun
    · cases hrun
      exact h
  | acquire_frame p => cases hrun
  | _ =>
    cases hrun
    exact h.beside _ _ _ _ _

theorem Confined.input {cfg : vf_file_unit_cfg_t} {u : FileUnit} (h : Confined W files m)
    (c : InputCmd) {r : c.Res × Mem} (hrun : do_input cfg u c m = some r) :
    Confined W files r.2 := by
  cases c with
  | open_input =>
    cases hrun
    exact reopen.confined h u fun hw => Bool.noConfusion hw
  | read p =>
    simp only [do_input, do_read] at hrun
    split at hrun
    · obtain ⟨_, -, rfl⟩ := Option.map_eq_some_iff.mp hrun
      exact (h.beside _ _ _ _ _).set_stream u ‹_› _
    · cases hrun
      exact h
  | next_frame =>
    cases hrun
    exact h.beside _ _ _ _ _

/-- The program of a unit keeps to `W`. -/
theorem Confined.exec {cfg : vf_file_unit_cfg_t} {u : FileUnit} {α : Type}
    (hout : ∀ i, cfg.split_output = true →
      W (Disk.place (out_path cfg (frame_at cfg.frame_set i).file_name))) {p : FileCode α}
    {r : α × Mem} (h : Confined W files m) (hrun : exec (step cfg u) p m = some r) :
    Confined W files r.2 := by
  refine exec_keeps (fun c m r _ hm hc => ?_) p.uses_any h hrun
  cases c with
  | inl c => exact hm.unit hout c hc
  | inr c => exact hm.input c hc

theorem run_units.confined {cfg : vf_file_unit_cfg_t}
    (hout : ∀ i, cfg.split_output = true →
      W (Disk.place (out_path cfg (frame_at cfg.frame_set i).file_name))) (units : List FileUnit)
    {r : vf_err_t × Mem} (h : Confined W files m) (hrun : run_units cfg units m = some r) :
    Confined W files r.2 := by
  induction units generalizing m r with
  | nil =>
    cases hrun
    exact h
  | cons u rest ih =>
    exact Confined.checked (fun r1 h1 => h.exec hout h1) (fun m1 r1 hm1 => ih hm1) hrun

theorem vf_pipeline_run_once.confined {cfg : vf_file_unit_cfg_t}
    (hout : ∀ i, cfg.split_output = true →
      W (Disk.place (out_path cfg (frame_at cfg.frame_set i).file_name))) {r : vf_err_t × Mem}
    (h : Confined W files m) (hrun : vf_pipeline_run_once cfg m = some r) :
    Confined W files r.2 := by
  unfold vf_pipeline_run_once at hrun
  split at hrun
  · cases hrun
    exact h
  · exact run_units.confined hout _ h hrun

theorem run_frames.confined {cfg : vf_file_unit_cfg_t}
    (hout : ∀ i, cfg.split_output = true →
      W (Disk.place (out_path cfg (frame_at cfg.frame_set i).file_name))) (n : Nat)
    {r : vf_err_t × Mem} (h : Confined W files m) (hrun : run_frames cfg n m = some r) :
    Confined W files r.2 := by
  induction n generalizing m r with
  | zero =>
    cases hrun
    exact h
  | succ n ih =>
    exact Confined.checked (fun r1 h1 => vf_pipeline_run_once.confined hout h h1)
      (fun m1 r1 hm1 => ih hm1) hrun

end

section
variable [Disk] {W : Place → Prop} {granted : Resource → Bool} {scenario : vf_scenario_t}
  {frame_set : vf_frame_set_t} {files : Files} {m : Mem}

/-- What is opened at the start is the input, and in concat mode the output. -/
theorem create.confined (hout : scenario.split_output = false → W (concat_out scenario))
    (h : create granted scenario frame_set files = .ok m) : Confined W files m := by
  have hzero : ∀ fp, vf_file_t.zeroed.fp = some fp → fp.writes = true → W fp.place :=
    fun fp hfp => by cases hfp
  have hread : false = true → W (Disk.place (frame_at frame_set 0).full_path) :=
    fun h => Bool.noConfusion h
  obtain ⟨hin, hin'⟩ := vf_file_open.confined files hzero hread
  obtain ⟨hopen, hopen'⟩ : (∀ place, ¬ W place →
      (open_concat scenario (vf_file_open files .zeroed (frame_at frame_set 0).full_path
        false).2.2).2.2 place = files place) ∧
      ∀ fp, (open_concat scenario (vf_file_open files .zeroed (frame_at frame_set 0).full_path
        false).2.2).2.1.fp = some fp → fp.writes = true → W fp.place := by
    unfold open_concat
    cases hsplit : scenario.split_output with
    | true => exact ⟨hin, hzero⟩
    | false =>
      obtain ⟨h1, h2⟩ := vf_file_open.confined
        (vf_file_open files .zeroed (frame_at frame_set 0).full_path false).2.2 hzero
        fun _ => hout hsplit
      exact ⟨fun place hplace => (h1 place hplace).trans (hin place hplace), h2⟩
  unfold create at h
  simp only at h
  repeat'
    split at h
    · cases h
  cases h
  refine ⟨fun u => ?_, hopen⟩
  cases u with
  | file_in => exact hin'
  | conversion => exact hzero
  | file_out => exact hopen'

/-- A scenario that ends has changed no file but its outputs, whether it failed or not. -/
theorem run_scenario.confined {cfg : vf_frames_cfg_t} {r : vf_err_t × Files}
    (hrun : run_scenario granted scenario cfg files = some r) (place : Place)
    (hplace : ¬ Writes cfg scenario place) : r.2 place = files place := by
  unfold run_scenario at hrun
  rcases hset : find_frame_set cfg scenario.input_set with _ | frame_set
  · rw [hset] at hrun
    cases hrun
    rfl
  · rw [hset] at hrun
    simp only at hrun
    rcases hcreate : create granted scenario frame_set files with err | m
    · rw [hcreate] at hrun
      cases hrun
      rfl
    · rw [hcreate] at hrun
      obtain ⟨r1, h1, rfl⟩ := Option.map_eq_some_iff.mp hrun
      have hframes : frame_set.frames ≠ [] := by
        intro hempty
        simp [create, no_frames hempty] at hcreate
      have hconcat : scenario.split_output = false → Writes cfg scenario (concat_out scenario) :=
        fun hsplit => ⟨frame_set, hset, by simp [hsplit]⟩
      have hsplit : ∀ i, scenario.split_output = true → Writes cfg scenario
          (Disk.place (out_path (unit_cfg scenario frame_set) (frame_at frame_set i).file_name)) :=
        fun i hsplit => ⟨frame_set, hset, by simpa [hsplit] using
          ⟨_, frame_at_mem hframes i, rfl⟩⟩
      have hconfined := run_frames.confined hsplit _ (create.confined hconcat hcreate) h1
      exact (vf_pipeline_destroy.confined hconfined).others place hplace

end

/-! ## What is read -/

/-- The memories differ in their files alone, and these agree on the places of `S`. -/
structure Alike (S : Place → Prop) (m m' : Mem) : Prop where
  same : m' = { m with files := m'.files }
  files : Agree S m.files m'.files

/-- Two runs that end alike: both wait, or both give one error code and alike memories. -/
abbrev EndAlike {α : Type} (S : Place → Prop) : Option (α × Mem) → Option (α × Mem) → Prop :=
  Option.Rel fun r r' => r.1 = r'.1 ∧ Alike S r.2 r'.2

section
variable {S : Place → Prop} {files files' : Files} {m m' : Mem}

theorem vf_file_close.alike (h : Agree S files files') (file : vf_file_t) :
    (vf_file_close files' file).2.1 = (vf_file_close files file).2.1 ∧
      Agree S (vf_file_close files file).2.2 (vf_file_close files' file).2.2 := by
  unfold vf_file_close
  split
  · exact ⟨rfl, h⟩
  · rcases file.fp with _ | fp
    · exact ⟨rfl, h⟩
    · refine ⟨rfl, ?_⟩
      simp only [fclose]
      split
      · exact h.update fp.place _
      · exact h

theorem Alike.set_file (h : Alike S m m') (u : FileUnit) (file : vf_file_t)
    (hfiles : Agree S files files') :
    Alike S (m.set_file u file files) (m'.set_file u file files') := by
  rw [h.same]
  exact ⟨rfl, hfiles⟩

/-- A command that does not open a file does not look at the files. -/
theorem EndAlike.beside {α : Type} {files : Files} (hfiles : Agree S m.files files)
    {f : Mem → Option (α × Mem)}
    (hf : f { m with files := files } = (f m).map fun r => (r.1, { r.2 with files := files }))
    (hm : ∀ r, f m = some r → r.2.files = m.files) :
    EndAlike S (f m) (f { m with files := files }) := by
  rw [hf]
  rcases hr : f m with _ | r
  · exact .none
  · refine .some ⟨rfl, rfl, ?_⟩
    rw [hm r hr]
    exact hfiles

/-- A part of a run, and what comes after it where it ends with success. -/
theorem EndAlike.checked {o o' : Option (vf_err_t × Mem)} {k : Mem → Option (vf_err_t × Mem)}
    (ho : EndAlike S o o') (hk : ∀ m m', Alike S m m' → EndAlike S (k m) (k m')) :
    EndAlike S (o.bind fun r => if r.1 ≠ .VF_SUCCESS then some r else k r.2)
      (o'.bind fun r => if r.1 ≠ .VF_SUCCESS then some r else k r.2) := by
  cases ho with
  | none => exact .none
  | some h =>
    rename_i r r'
    simp only [Option.bind_some, ← h.1]
    split
    · exact .some h
    · exact hk _ _ h.2

theorem vf_pipeline_destroy.alike (h : Alike S m m') :
    Agree S (vf_pipeline_destroy m).files (vf_pipeline_destroy m').files := by
  have hunit : ∀ (u : FileUnit) {m m' : Mem}, Alike S m m' →
      Alike S (vf_file_unit_deinit u m) (vf_file_unit_deinit u m') := by
    intro u m m' h
    have hfile : m'.file = m.file := by rw [h.same]
    have hinit : m'.initialized = m.initialized := by rw [h.same]
    obtain ⟨hclose, hclosed⟩ := vf_file_close.alike h.files (m.file u)
    have hset := h.set_file u (vf_file_close m.files (m.file u)).2.1 hclosed
    unfold vf_file_unit_deinit
    simp only [hfile, hclose, hinit]
    exact ⟨by rw [hset.same], hset.files⟩
  exact (hunit .file_out (hunit .file_in h)).files

/-- The files that a run leaves, when its pipeline is destroyed. -/
theorem EndAlike.destroyed {o o' : Option (vf_err_t × Mem)}
    (h : EndAlike S o o') : footprints.EndAlike S
      (o.map fun r => (r.1, (vf_pipeline_destroy r.2).files))
      (o'.map fun r => (r.1, (vf_pipeline_destroy r.2).files)) := by
  cases h with
  | none => exact .none
  | some h => exact .some ⟨h.1, vf_pipeline_destroy.alike h.2⟩

end

section
variable [Disk] {S : Place → Prop} {files files' : Files} {m m' : Mem}

/-- An input that is opened must be a place of `S`. -/
theorem vf_file_open.alike (h : Agree S files files') (file : vf_file_t) {path : Text}
    {writes : Bool} (hpath : writes = false → S (Disk.place path)) :
    (vf_file_open files' file path writes).1 = (vf_file_open files file path writes).1 ∧
      (vf_file_open files' file path writes).2.1 = (vf_file_open files file path writes).2.1 ∧
      Agree S (vf_file_open files file path writes).2.2
        (vf_file_open files' file path writes).2.2 := by
  unfold vf_file_open
  split
  · exact ⟨rfl, rfl, h⟩
  · cases writes with
    | true =>
      by_cases hw : Disk.writable (Disk.place path) = true
      · simp only [fopen, if_true, hw]
        exact ⟨trivial, trivial, h.update (Disk.place path) (some [])⟩
      · simp only [fopen, if_true, hw, Bool.false_eq_true, if_false, true_and]
        exact h
    | false =>
      by_cases hr : Disk.readable (Disk.place path) = true
      · simp only [fopen, Bool.false_eq_true, if_false, if_true, hr, h _ (hpath rfl)]
        rcases files (Disk.place path) with _ | bytes
        · exact ⟨rfl, rfl, h⟩
        · exact ⟨rfl, rfl, h⟩
      · simp only [fopen, Bool.false_eq_true, if_false, hr, true_and]
        exact h

theorem reopen.alike (h : Alike S m m') (u : FileUnit) {path : Text} {writes : Bool}
    (hpath : writes = false → S (Disk.place path)) :
    (reopen u path writes m).1 = (reopen u path writes m').1 ∧
      Alike S (reopen u path writes m).2 (reopen u path writes m').2 := by
  have hfile : m'.file = m.file := by rw [h.same]
  obtain ⟨hclose, hclosed⟩ := vf_file_close.alike h.files (m.file u)
  unfold reopen
  rw [hfile]
  cases hstate : (m.file u).is_open with
  | true =>
    obtain ⟨herr, hopen, hopened⟩ := vf_file_open.alike hclosed
      (vf_file_close m.files (m.file u)).2.1 hpath
    simp only [if_true, hclose]
    refine ⟨herr.symm, ?_⟩
    rw [hopen]
    exact h.set_file u _ hopened
  | false =>
    obtain ⟨herr, hopen, hopened⟩ := vf_file_open.alike h.files (m.file u) hpath
    simp only [Bool.false_eq_true, if_false]
    refine ⟨herr.symm, ?_⟩
    rw [hopen]
    exact h.set_file u _ hopened

theorem Alike.unit {cfg : vf_file_unit_cfg_t} {u : FileUnit} (h : Alike S m m') (c : UnitCmd) :
    EndAlike S (do_unit cfg u c m) (do_unit cfg u c m') := by
  obtain ⟨files', hfiles, rfl⟩ :
      ∃ files', Agree S m.files files' ∧ m' = { m with files := files' } :=
    ⟨m'.files, h.files, h.same⟩
  cases c with
  | open_output =>
    simp only [do_unit]
    split
    · exact .some (reopen.alike h u fun hw => Bool.noConfusion hw)
    · exact .some ⟨rfl, h⟩
  | acquire_blocking pool p =>
    refine EndAlike.beside hfiles (by simp only [do_unit, Option.map_map]; rfl) fun r hr => ?_
    obtain ⟨_, -, rfl⟩ := Option.map_eq_some_iff.mp hr
    rfl
  | pop_blocking q p =>
    refine EndAlike.beside hfiles (by simp only [do_unit, Option.map_map]; rfl) fun r hr => ?_
    obtain ⟨_, -, rfl⟩ := Option.map_eq_some_iff.mp hr
    rfl
  | fetch_add p =>
    simp only [do_unit, do_fetch]
    rcases m.ptr u p with _ | f
    · exact .some ⟨rfl, h⟩
    · exact .some ⟨rfl, rfl, hfiles⟩
  | fetch_sub p =>
    simp only [do_unit, do_fetch]
    rcases m.ptr u p with _ | f
    · exact .some ⟨rfl, h⟩
    · exact .some ⟨rfl, rfl, hfiles⟩
  | convert src dst =>
    simp only [do_unit, do_convert]
    rcases m.ptr u src with _ | s
    · exact .some ⟨rfl, h⟩
    · rcases m.ptr u dst with _ | d
      · exact .some ⟨rfl, h⟩
      · simp only
        rcases (conversion.vf_conversion_process m.conv_ctx (m.fb s) (m.fb d)).2.2.all
          (in_block (m.fb s) (m.fb d)) with _ | _
        · exact .none
        · exact .some ⟨rfl, rfl, hfiles⟩
  | write p =>
    simp only [do_unit, do_write]
    rcases m.ptr u p with _ | f
    · exact .some ⟨rfl, rfl, hfiles⟩
    · rcases (m.file u).fp with _ | fp
      · exact .some ⟨rfl, rfl, hfiles⟩
      · simp only
        rcases frame_blocks.vf_framebuffer_write_to_fptr (m.fb f) fp.file 0 with _ | r
        · exact .none
        · exact .some ⟨rfl, rfl, hfiles⟩
  | acquire_frame p => exact .none
  | _ => exact .some ⟨rfl, rfl, hfiles⟩

/-- The inputs are places of `S`. -/
theorem Alike.input {cfg : vf_file_unit_cfg_t} {u : FileUnit} (h : Alike S m m')
    (hin : ∀ i, S (Disk.place (frame_at cfg.frame_set i).full_path)) (c : InputCmd) :
    EndAlike S (do_input cfg u c m) (do_input cfg u c m') := by
  obtain ⟨files', hfiles, rfl⟩ :
      ∃ files', Agree S m.files files' ∧ m' = { m with files := files' } :=
    ⟨m'.files, h.files, h.same⟩
  cases c with
  | open_input => exact .some (reopen.alike h u fun _ => hin (m.frame_idx u))
  | read p =>
    simp only [do_input, do_read]
    rcases m.ptr u p with _ | f
    · exact .some ⟨rfl, h⟩
    · rcases (m.file u).fp with _ | fp
      · exact .some ⟨rfl, h⟩
      · simp only
        rcases frame_blocks.vf_framebuffer_read_from_fptr (m.fb f) fp.file 0 with _ | r
        · exact .none
        · exact .some ⟨rfl, rfl, hfiles⟩
  | next_frame => exact .some ⟨rfl, rfl, hfiles⟩

theorem Alike.exec {cfg : vf_file_unit_cfg_t} {u : FileUnit} {α : Type} (h : Alike S m m')
    (hin : ∀ i, S (Disk.place (frame_at cfg.frame_set i).full_path)) (p : FileCode α) :
    EndAlike S (exec (step cfg u) p m) (exec (step cfg u) p m') := by
  refine exec_rel (fun c m m' hm => ?_) p h
  cases c with
  | inl c => exact hm.unit c
  | inr c => exact hm.input hin c

theorem run_units.alike {cfg : vf_file_unit_cfg_t}
    (hin : ∀ i, S (Disk.place (frame_at cfg.frame_set i).full_path)) (units : List FileUnit)
    (h : Alike S m m') : EndAlike S (run_units cfg units m) (run_units cfg units m') := by
  induction units generalizing m m' with
  | nil => exact .some ⟨rfl, h⟩
  | cons u rest ih => exact (h.exec hin u.run).checked fun m m' hm => ih hm

theorem vf_pipeline_run_once.alike {cfg : vf_file_unit_cfg_t}
    (hin : ∀ i, S (Disk.place (frame_at cfg.frame_set i).full_path)) (h : Alike S m m') :
    EndAlike S (vf_pipeline_run_once cfg m) (vf_pipeline_run_once cfg m') := by
  have hinit : m'.pipeline_initialized = m.pipeline_initialized := by rw [h.same]
  unfold vf_pipeline_run_once
  rw [hinit]
  split
  · exact .some ⟨rfl, h⟩
  · exact run_units.alike hin _ h

theorem run_frames.alike {cfg : vf_file_unit_cfg_t}
    (hin : ∀ i, S (Disk.place (frame_at cfg.frame_set i).full_path)) (n : Nat) (h : Alike S m m') :
    EndAlike S (run_frames cfg n m) (run_frames cfg n m') := by
  induction n generalizing m m' with
  | zero => exact .some ⟨rfl, h⟩
  | succ n ih => exact (vf_pipeline_run_once.alike hin h).checked fun m m' hm => ih hm

end

section
variable [Disk] {S : Place → Prop} {granted : Resource → Bool} {frame_set : vf_frame_set_t}
  {files files' : Files}

/-- The first input, and then the output of the concat mode, are opened. -/
theorem open_both.alike (scenario : vf_scenario_t) (h : Agree S files files')
    (hin : S (Disk.place (frame_at frame_set 0).full_path)) :
    let opened (files : Files) := vf_file_open files .zeroed (frame_at frame_set 0).full_path false
    let out (files : Files) := open_concat scenario (opened files).2.2
    ((opened files').1 = (opened files).1 ∧ (opened files').2.1 = (opened files).2.1) ∧
      (out files').1 = (out files).1 ∧ (out files').2.1 = (out files).2.1 ∧
      Agree S (out files).2.2 (out files').2.2 := by
  have hread : false = false → S (Disk.place (frame_at frame_set 0).full_path) := fun _ => hin
  obtain ⟨hin1, hin2, hin3⟩ := vf_file_open.alike h .zeroed hread
  refine ⟨⟨hin1, hin2⟩, ?_⟩
  unfold open_concat
  split
  · exact ⟨rfl, rfl, hin3⟩
  · exact vf_file_open.alike hin3 .zeroed fun hw => Bool.noConfusion hw

/-- The start gives one error code, or alike memories. -/
theorem create.alike (scenario : vf_scenario_t) (h : Agree S files files')
    (hin : S (Disk.place (frame_at frame_set 0).full_path)) :
    ∃ g, create granted scenario frame_set files' =
        (create granted scenario frame_set files).map (fun m => { m with files := g }) ∧
      ∀ m, create granted scenario frame_set files = .ok m → Agree S m.files g := by
  obtain ⟨⟨hin1, hin2⟩, hout1, hout2, hout3⟩ := open_both.alike scenario h hin
  refine ⟨(open_concat scenario (vf_file_open files' .zeroed (frame_at frame_set 0).full_path
    false).2.2).2.2, ?_, fun m hm => ?_⟩
  · unfold create
    simp only at hin1 hin2 hout1 hout2 ⊢
    generalize vf_file_open files .zeroed _ false = file_in at *
    generalize vf_file_open files' .zeroed _ false = file_in' at *
    generalize open_concat scenario file_in.2.2 = file_out at *
    generalize open_concat scenario file_in'.2.2 = file_out' at *
    rw [hin1, hin2, hout1, hout2]
    simp only [apply_ite (Except.map fun m : Mem => { m with files := file_out'.2.2 })]
    rfl
  · unfold create at hm
    simp only at hm
    repeat'
      split at hm
      · cases hm
    cases hm
    exact hout3

/-- A scenario that finds the same inputs ends with the same code, and leaves the same in every
place where it found the same. -/
theorem run_scenario.alike {scenario : vf_scenario_t} {cfg : vf_frames_cfg_t}
    (h : Agree S files files') (hin : ∀ place, Reads cfg scenario place → S place) :
    footprints.EndAlike S (run_scenario granted scenario cfg files)
      (run_scenario granted scenario cfg files') := by
  unfold run_scenario
  rcases hset : find_frame_set cfg scenario.input_set with _ | frame_set
  · exact .some ⟨rfl, h⟩
  · by_cases hframes : frame_set.frames = []
    · simp only [create, no_frames hframes, ne_eq, not_false_eq_true, if_true]
      exact .some ⟨rfl, h⟩
    · have hinputs : ∀ i, S (Disk.place (frame_at frame_set i).full_path) :=
        fun i => hin _ ⟨frame_set, hset, _, frame_at_mem hframes i, rfl⟩
      obtain ⟨g, hcreate', hg⟩ := create.alike scenario h (hinputs 0)
      simp only
      rw [hcreate']
      rcases hcreate : create granted scenario frame_set files with err | m
      · exact .some ⟨rfl, h⟩
      · have hstart : Alike S m { m with files := g } := ⟨rfl, hg m hcreate⟩
        exact (run_frames.alike hinputs frame_set.frames.length hstart).destroyed

/-- So a scenario of a safe size ends, whatever the files are, reads its inputs and changes its
outputs. -/
theorem run_scenario.local (granted : Resource → Bool) {scenario : vf_scenario_t}
    (hmem : scenario ∈ g_scenarios) (cfg : vf_frames_cfg_t)
    (hsafe : ∀ frame_set, find_frame_set cfg scenario.input_set = some frame_set →
      Safe scenario frame_set) :
    Local (Reads cfg scenario) (Writes cfg scenario) (run_scenario granted scenario cfg) where
  ends := run_scenario.ends granted hmem cfg hsafe
  confined _ _ hrun := run_scenario.confined hrun
  alike _ _ _ hread h := run_scenario.alike h hread

end

end vision_flow.scenarios
