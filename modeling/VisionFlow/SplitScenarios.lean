-- The scenarios in split mode run the output unit as SplitOutput.lean says: the other units
-- have no part in its file and its counter. So a scenario that ends with success has sent each
-- frame, and keeps those that have a file of their own.
import VisionFlow.SplitOutput

namespace vision_flow.split_output

open programs units file_units
open framebuffer (vf_framebuffer_t)
open parser (Text vf_frame_set_t VF_PARSER_MAX_FULL_PATH_LEN)
open scenarios (closed DistinctNames)

/-! ## What the other units leave alone -/

/-- The commands that have no part in the output file. -/
def leaves_output : UnitCmd → Prop
  | .open_output => False
  | .write _ => False
  | _ => True

/-- The output unit's file and counter are those of `m0`, and the input file is not written. -/
structure OutputKept (m0 m : Mem) : Prop where
  files : m.files = m0.files
  file : m.file .file_out = m0.file .file_out
  frame_idx : m.frame_idx .file_out = m0.frame_idx .file_out
  reads : ∀ fp, (m.file .file_in).fp = some fp → fp.writes = false

theorem unref_uses (p : Field) (pool : Option PoolId) :
    (vf_framebuffer_unref p pool).Uses leaves_output := by
  unfold vf_framebuffer_unref Prog.Uses
  simp only [wp_bind, wp_perform, leaves_output, true_and]
  intro prev
  cases prev <;> cases pool <;> simp

theorem conversion_uses :
    FileUnit.conversion.run.Uses (Sum.elim leaves_output fun _ => False) := by
  have hunref := unref_uses .in_fb (some .pool_in)
  unfold Prog.Uses leaves_output at hunref
  unfold FileUnit.run file_units.vf_unit_run vf_conversion_unit_get_data
    vf_conversion_unit_process_data vf_conversion_unit_send_data FileUnit.unit units.push Prog.Uses
  simp [wp_inl, leaves_output, hunref]

theorem file_in_uses : FileUnit.file_in.run.Uses (Sum.elim leaves_output fun _ => True) := by
  unfold FileUnit.run file_units.vf_unit_run vf_file_unit_get_data_in vf_file_unit_process_data
    vf_file_unit_send_data_in FileUnit.unit open_input file_units.read next_frame units.push
    Prog.Uses
  simp [wp_inl, leaves_output]
  exact ⟨trivial, fun _ _ => ⟨trivial, fun _ _ => ⟨trivial, fun _ => trivial⟩⟩⟩

theorem get_data_uses : (vf_file_unit_get_data FileUnit.file_out.unit).Uses leaves_output := by
  unfold vf_file_unit_get_data FileUnit.unit Prog.Uses
  simp [leaves_output]

section
variable [Disk] {cfg : vf_file_unit_cfg_t} {u : FileUnit} {m0 m m' : Mem}

theorem OutputKept.unit {c : UnitCmd} {r : c.Res × Mem} (hc : leaves_output c)
    (hm : OutputKept m0 m) (h : do_unit cfg u c m = some r) : OutputKept m0 r.2 := by
  have hsame : r.2.files = m.files ∧ r.2.file = m.file ∧ r.2.frame_idx = m.frame_idx := by
    cases c with
    | open_output => exact hc.elim
    | write p => exact hc.elim
    | acquire_frame p => cases h
    | acquire_blocking pool p =>
      obtain ⟨_, -, rfl⟩ := Option.map_eq_some_iff.mp h
      exact ⟨rfl, rfl, rfl⟩
    | pop_blocking q p =>
      obtain ⟨_, -, rfl⟩ := Option.map_eq_some_iff.mp h
      exact ⟨rfl, rfl, rfl⟩
    | fetch_add p =>
      cases h
      unfold do_fetch
      split <;> exact ⟨rfl, rfl, rfl⟩
    | fetch_sub p =>
      cases h
      unfold do_fetch
      split <;> exact ⟨rfl, rfl, rfl⟩
    | convert src dst =>
      simp only [do_unit, do_convert] at h
      split at h
      · split at h
        · cases h
          exact ⟨rfl, rfl, rfl⟩
        · cases h
      · cases h
        exact ⟨rfl, rfl, rfl⟩
    | _ =>
      cases h
      exact ⟨rfl, rfl, rfl⟩
  obtain ⟨hfiles, hfile, hidx⟩ := hsame
  exact ⟨by rw [hfiles, hm.files], by rw [hfile, hm.file], by rw [hidx, hm.frame_idx],
    by rw [hfile]; exact hm.reads⟩

omit [Disk] in
/-- A file that was read is closed. -/
theorem vf_file_close.reads (hreads : ∀ fp, (m.file u).fp = some fp → fp.writes = false) :
    (vf_file_close m.files (m.file u)).2.2 = m.files ∧
      ∀ fp, (vf_file_close m.files (m.file u)).2.1.fp = some fp → fp.writes = false := by
  unfold vf_file_close
  split
  · exact ⟨rfl, hreads⟩
  · rcases hfp : (m.file u).fp with _ | fp
    · exact ⟨rfl, hreads⟩
    · have hno := hreads fp hfp
      simp [fclose, hno]

/-- A file that is opened to be read changes no file. -/
theorem reopen.reads {path : Text} (hreads : ∀ fp, (m.file u).fp = some fp → fp.writes = false) :
    ∃ file, (reopen u path false m).2 = m.set_file u file m.files ∧
      ∀ fp, file.fp = some fp → fp.writes = false := by
  have hclose := vf_file_close.reads hreads
  have hopen : ∀ file : vf_file_t, (∀ fp, file.fp = some fp → fp.writes = false) →
      (vf_file_open m.files file path false).2.2 = m.files ∧
      ∀ fp, (vf_file_open m.files file path false).2.1.fp = some fp → fp.writes = false := by
    intro file hfile
    unfold vf_file_open fopen
    split
    · exact ⟨rfl, hfile⟩
    · simp only [Bool.false_eq_true, if_false]
      split
      · exact ⟨rfl, fun _ h => by cases h⟩
      · rename_i hopen
        split at hopen
        · obtain ⟨bytes, -, hbytes⟩ := Option.map_eq_some_iff.mp hopen
          cases hbytes
          refine ⟨rfl, ?_⟩
          rintro _ ⟨⟩
          rfl
        · cases hopen
  unfold reopen
  cases hstate : (m.file u).is_open with
  | true =>
    have hlast := hopen _ hclose.2
    simp only [if_true, hclose.1]
    exact ⟨_, by rw [hlast.1], hlast.2⟩
  | false =>
    have hlast := hopen _ hreads
    simp only [Bool.false_eq_true, if_false]
    exact ⟨_, by rw [hlast.1], hlast.2⟩

theorem OutputKept.input {c : InputCmd} {r : c.Res × Mem} (hm : OutputKept m0 m)
    (h : do_input cfg .file_in c m = some r) : OutputKept m0 r.2 := by
  cases c with
  | open_input =>
    cases h
    obtain ⟨file, hsame, hfile⟩ : ∃ file : vf_file_t,
        (reopen .file_in (frame_at cfg.frame_set (m.frame_idx .file_in)).full_path false m).2 =
          m.set_file .file_in file m.files ∧ ∀ fp, file.fp = some fp → fp.writes = false :=
      reopen.reads hm.reads
    rw [hsame]
    refine ⟨hm.files, ?_, hm.frame_idx, ?_⟩
    · simpa [Mem.set_file] using hm.file
    · simpa [Mem.set_file] using hfile
  | read p =>
    simp only [do_input, do_read] at h
    split at h
    · rename_i f fp _ hfp
      obtain ⟨r', -, rfl⟩ := Option.map_eq_some_iff.mp h
      refine ⟨hm.files, ?_, hm.frame_idx, ?_⟩
      · simpa [Mem.set_stream, Mem.set_fb] using hm.file
      · intro fp' hfp'
        have hsame : fp'.writes = fp.writes := by
          simp only [Mem.set_stream, Function.update_self, Option.some.injEq] at hfp'
          rw [← hfp']
        rw [hsame]
        exact hm.reads fp hfp
    · cases h
      exact hm
  | next_frame =>
    cases h
    exact ⟨hm.files, hm.file, by simpa [Mem.next_frame] using hm.frame_idx, hm.reads⟩

theorem OutputKept.step {A : InputCmd → Prop} (hA : ∀ c, A c → u = .file_in) (c : FileCmd)
    (m : Mem) (r : FileCmd.Res c × Mem) (hc : Sum.elim leaves_output A c) (hm : OutputKept m0 m)
    (h : file_units.step cfg u c m = some r) : OutputKept m0 r.2 := by
  cases c with
  | inl c => exact hm.unit hc h
  | inr c =>
    obtain rfl := hA c hc
    exact hm.input h

/-- Code that goes on only after a success. -/
theorem checked.inv {p q : FileCode vf_err_t}
    (h : exec (file_units.step cfg u) (do
      let err ← p
      if err ≠ .VF_SUCCESS then
        return err
      q) m = some (.VF_SUCCESS, m')) :
    ∃ m1, exec (file_units.step cfg u) p m = some (.VF_SUCCESS, m1) ∧
      exec (file_units.step cfg u) q m1 = some (.VF_SUCCESS, m') := by
  rw [exec_bind] at h
  obtain ⟨⟨err, m1⟩, hp, hq⟩ := Option.bind_eq_some_iff.mp h
  by_cases herr : err = .VF_SUCCESS
  · subst herr
    rw [if_neg (by simp)] at hq
    exact ⟨m1, hp, hq⟩
  · rw [if_pos herr, exec_pure, Option.some.injEq, Prod.mk.injEq] at hq
    exact absurd hq.1 herr

/-! ## Runs that succeed -/

/-- A unit that is run with success has run its three operations with success. -/
theorem vf_unit_run.inv {get_data process_data send_data : FileCode vf_err_t}
    (h : exec (file_units.step cfg u) (file_units.vf_unit_run get_data process_data send_data) m =
      some (.VF_SUCCESS, m')) :
    ∃ m1 m2, exec (file_units.step cfg u) get_data m = some (.VF_SUCCESS, m1) ∧
      exec (file_units.step cfg u) process_data m1 = some (.VF_SUCCESS, m2) ∧
      exec (file_units.step cfg u) send_data m2 = some (.VF_SUCCESS, m') := by
  unfold file_units.vf_unit_run at h
  rw [exec_bind] at h
  obtain ⟨⟨init, m0⟩, hinit, h⟩ := Option.bind_eq_some_iff.mp h
  have hsame : m0 = m := by
    rw [scenarios.exec_unit, exec_perform] at hinit
    cases hinit
    rfl
  subst hsame
  cases init with
  | false => cases h
  | true =>
    obtain ⟨m1, hget, h⟩ := checked.inv h
    obtain ⟨m2, hprocess, h⟩ := checked.inv h
    obtain ⟨m3, hsend, h⟩ := checked.inv h
    cases h
    exact ⟨m1, m2, hget, hprocess, hsend⟩

/-- A send with success has a frame. -/
theorem send_has_a_frame {pool : Option PoolId}
    (h : exec (do_unit cfg .file_out) (vf_file_unit_send_data pool) m = some (.VF_SUCCESS, m')) :
    ∃ f, m.ptr .file_out .current_fb = some f := by
  rcases hptr : m.ptr .file_out .current_fb with _ | f
  · have hload : do_unit cfg .file_out (.load .current_fb) m = some (none, m) :=
      congrArg (fun o => some (o, m)) hptr
    unfold vf_file_unit_send_data at h
    simp [hload] at h
  · exact ⟨f, rfl⟩

/-- The units before the output unit, and its pop, hand it a frame. -/
theorem vf_pipeline_run_once.hands
    (hreads : ∀ fp, (m.file .file_in).fp = some fp → fp.writes = false)
    (h : scenarios.vf_pipeline_run_once cfg m = some (.VF_SUCCESS, m')) :
    ∃ m1 fb, Handed m m1 fb ∧ OutputKept m m1 ∧
      exec (do_unit cfg .file_out) (vf_file_unit_send_data (some .pool_out)) m1 =
        some (.VF_SUCCESS, m') := by
  unfold scenarios.vf_pipeline_run_once at h
  split at h
  · cases h
  · -- each unit has run with success
    have hunit : ∀ (u : FileUnit) (rest : List FileUnit) (m : Mem),
        scenarios.run_units cfg (u :: rest) m = some (.VF_SUCCESS, m') →
        ∃ m1, exec (file_units.step cfg u) u.run m = some (.VF_SUCCESS, m1) ∧
          scenarios.run_units cfg rest m1 = some (.VF_SUCCESS, m') := by
      intro u rest m h
      rw [scenarios.run_units] at h
      obtain ⟨⟨rc, m1⟩, hrun, h⟩ := Option.bind_eq_some_iff.mp h
      by_cases hrc : rc = .VF_SUCCESS
      · subst hrc
        rw [if_neg (by simp)] at h
        exact ⟨m1, hrun, h⟩
      · rw [if_pos hrc, Option.some.injEq, Prod.mk.injEq] at h
        exact absurd h.1 hrc
    obtain ⟨m1, hrun1, h⟩ := hunit _ _ _ h
    obtain ⟨m2, hrun2, h⟩ := hunit _ _ _ h
    obtain ⟨m3, hrun3, h⟩ := hunit _ _ _ h
    cases h
    have hkept : OutputKept m m := ⟨rfl, rfl, rfl, hreads⟩
    have hkept1 : OutputKept m m1 :=
      exec_keeps (fun c m r => OutputKept.step (fun _ _ => rfl) c m r) file_in_uses hkept hrun1
    have hkept2 : OutputKept m m2 :=
      exec_keeps (fun c m r => OutputKept.step (fun _ h => h.elim) c m r) conversion_uses hkept1
        hrun2
    obtain ⟨m4, m5, hget, hprocess, hsend⟩ := vf_unit_run.inv hrun3
    rw [scenarios.exec_unit] at hget hprocess hsend
    have hkept4 : OutputKept m m4 :=
      exec_keeps (fun _ _ _ hc hm h => hm.unit hc h) get_data_uses hkept2 hget
    cases hprocess
    obtain ⟨f, hptr⟩ := send_has_a_frame hsend
    exact ⟨m4, m4.fb f, ⟨hkept4.files, hkept4.file, hkept4.frame_idx, f, hptr, rfl⟩, hkept4, hsend⟩

/-- The pipeline that has run over `n` frames has sent `n` frames. -/
theorem run_frames.sent (hsplit : cfg.split_output = true) (hfile : Openable m)
    (hreads : ∀ fp, (m.file .file_in).fp = some fp → fp.writes = false) {n : Nat}
    (h : scenarios.run_frames cfg n m = some (.VF_SUCCESS, m')) :
    (∃ fbs, fbs.length = n ∧ Sent cfg (some .pool_out) m fbs m') ∧
      ∀ fp, (m'.file .file_in).fp = some fp → fp.writes = false := by
  induction n generalizing m with
  | zero =>
    cases h
    exact ⟨⟨[], rfl, .nil⟩, hreads⟩
  | succ n ih =>
    rw [scenarios.run_frames] at h
    obtain ⟨⟨rc, m2⟩, hrun, h⟩ := Option.bind_eq_some_iff.mp h
    by_cases hrc : rc = .VF_SUCCESS
    · subst hrc
      rw [if_neg (by simp)] at h
      obtain ⟨m1, fb, hand, hkept, hsend⟩ := vf_pipeline_run_once.hands hreads hrun
      obtain ⟨-, hfile2, -, -, hin⟩ := hand.sent hsplit hfile hsend
      obtain ⟨⟨fbs, hlen, hsent⟩, hlast⟩ := ih hfile2 (by rw [hin]; exact hkept.reads) h
      exact ⟨⟨fb :: fbs, by rw [List.length_cons, hlen], .cons hand hsend hsent⟩, hlast⟩
    · rw [if_pos hrc, Option.some.injEq, Prod.mk.injEq] at h
      exact absurd h.1 hrc

end

section
variable [Disk] {granted : scenarios.Resource → Bool} {scenario : scenarios.vf_scenario_t}
  {set : vf_frame_set_t} {files files' : Files} {m : Mem}

/-- A scenario in split mode starts with no output file, and reads its first input. -/
theorem create.fresh (hsplit : scenario.split_output = true)
    (h : scenarios.create granted scenario set files = .ok m) :
    Fresh m ∧ ∀ fp, (m.file .file_in).fp = some fp → fp.writes = false := by
  have hin : ∀ fp, (vf_file_open files .zeroed (frame_at set 0).full_path false).2.1.fp =
      some fp → fp.writes = false := by
    intro fp
    unfold vf_file_open fopen vf_file_t.zeroed
    simp only [Bool.false_eq_true, if_false]
    split
    · simp
    · rename_i hopen
      split at hopen
      · obtain ⟨bytes, -, hbytes⟩ := Option.map_eq_some_iff.mp hopen
        cases hbytes
        rintro ⟨⟩
        rfl
      · cases hopen
  unfold scenarios.create at h
  simp only [scenarios.open_concat, hsplit, if_true] at h
  repeat'
    split at h
    · cases h
  cases h
  exact ⟨⟨rfl, rfl⟩, hin⟩

theorem create.error {err : vf_err_t}
    (h : scenarios.create granted scenario set files = .error err) : err ≠ .VF_SUCCESS := by
  unfold scenarios.create at h
  simp only at h
  repeat'
    split at h
    · cases h
      assumption
  cases h

omit [Disk] in
theorem destroyed_reads (hreads : ∀ fp, (m.file .file_in).fp = some fp → fp.writes = false) :
    (scenarios.vf_pipeline_destroy m).files = closed .file_out m := by
  have hclose := (vf_file_close.reads hreads).1
  unfold scenarios.vf_pipeline_destroy scenarios.vf_file_unit_deinit closed
  simp [Mem.set_file, hclose]

/-- The files of a scenario in split mode that ends with success are those of a run. -/
theorem run_scenario.sent {cfg : parser.vf_frames_cfg_t} (hsplit : scenario.split_output = true)
    (hset : scenarios.find_frame_set cfg scenario.input_set = some set)
    (h : scenarios.run_scenario granted scenario cfg files = some (.VF_SUCCESS, files')) :
    ∃ m fbs m', Fresh m ∧ Sent (scenarios.unit_cfg scenario set) (some .pool_out) m fbs m' ∧
      fbs.length = set.frames.length ∧ files' = closed .file_out m' := by
  unfold scenarios.run_scenario at h
  rw [hset] at h
  simp only at h
  rcases hcreate : scenarios.create granted scenario set files with err | m
  · rw [hcreate, Option.some.injEq, Prod.mk.injEq] at h
    exact absurd h.1 (create.error hcreate)
  · rw [hcreate] at h
    obtain ⟨⟨rc, m'⟩, hrun, hend⟩ := Option.map_eq_some_iff.mp h
    rw [Prod.mk.injEq] at hend
    obtain ⟨rfl, hfiles⟩ := hend
    obtain ⟨hfresh, hreads⟩ := create.fresh hsplit hcreate
    obtain ⟨⟨fbs, hlen, hsent⟩, hlast⟩ := run_frames.sent hsplit (Or.inl hfresh.file) hreads hrun
    exact ⟨m, fbs, m', hfresh, hsent, hlen, hfiles.symm.trans (destroyed_reads hlast)⟩

end

/-! ## The law -/

/-- The arrays of the output unit are large enough for each scenario of the table. -/
theorem unit_cfg_kept {scenario : scenarios.vf_scenario_t} (hmem : scenario ∈ scenarios.g_scenarios)
    (set : vf_frame_set_t) :
    vf_file_unit_init (scenarios.unit_cfg scenario set) = scenarios.unit_cfg scenario set := by
  have hall : ∀ scenario ∈ scenarios.g_scenarios,
      scenario.output_dir.length ≤ VF_PARSER_MAX_FULL_PATH_LEN - 1 ∧
        scenario.output_extension.length ≤ VF_FILE_UNIT_EXT_MAX_LEN - 1 := by decide
  obtain ⟨hdir, hext⟩ := hall scenario hmem
  unfold vf_file_unit_init scenarios.unit_cfg snprintf
  simp only [List.take_of_length_le hdir, List.take_of_length_le hext]

/-- Two frames of one pixel each. -/
def two_cfg : parser.SetCfg :=
  ⟨"raw".toList, "b".toList, .VF_PIXEL_FORMAT_RAW8, [⟨"a.raw".toList, 1, 1⟩, ⟨"b.raw".toList, 1, 1⟩]⟩

def two_text : Text := parser.compact id (parser.config_tokens [two_cfg])

def two_set : vf_frame_set_t :=
  ⟨"raw".toList, "b".toList, .VF_PIXEL_FORMAT_RAW8,
    [⟨"a.raw".toList, "b/a.raw".toList, 1, 1⟩, ⟨"b.raw".toList, "b/b.raw".toList, 1, 1⟩]⟩

def two_files [Disk] : Files := fun place =>
  if place = Disk.place "b/a.raw".toList then some [5]
  else if place = Disk.place "b/b.raw".toList then some [6]
  else none

def raw_to_rgb_split : scenarios.vf_scenario_t :=
  ⟨"raw".toList, .VF_PIXEL_FMT_RAW8, .VF_PIXEL_FMT_RGB888,
    "vf_frames/out/raw_to_rgb_split".toList, ".rgb".toList, true⟩

section
attribute [local instance] at_root

end

end vision_flow.split_output
