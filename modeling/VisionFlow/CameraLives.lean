-- Whole lives of the camera: an init, and if it succeeds then starts, captures, stops and
-- deinits in any order. With a driver that grants what the array holds, and whose calls are
-- not interrupted, the code with its memory makes a run of the camera layer of them. So what
-- the camera layer reports truly, the code with its memory does too.
import VisionFlow.CameraBuffers
import VisionFlow.CameraCalls
import VisionFlow.CameraReports

namespace vision_flow.camera_lives

open c_memory oracle in_step runs framebuffer camera_memory camera_buffers camera_calls
open vf_camera (Answer DriverEvent vf_camera_t vf_camera_cfg_t Fails Truthful Unfailing Faithful
  fresh VF_CAMERA_MAX_BUFFERS)

/-! ## Lives -/

/-- What a call returns: its error, and the frame that it was to fill. -/
abbrev Report := vf_err_t × Option vf_framebuffer_t

section
variable (driver : Driver)

def report : Act → Code Report
  | .start => do
    let err ← vf_camera_start driver
    return (err, none)
  | .acquire_frame fb => do
    let (err, fb) ← vf_camera_acquire_frame driver fb
    return (err, some fb)
  | .stop => do
    let err ← vf_camera_stop driver
    return (err, none)
  | .deinit => do
    let err ← vf_camera_deinit driver
    return (err, none)

def reports : List Act → Code (List Report)
  | [] => return []
  | a :: rest => do
    let r ← report driver a
    let rs ← reports rest
    return r :: rs

/-- The calls after the init are made if it succeeds. -/
def life (cfg : vf_camera_cfg_t) (acts : List Act) : Code (vf_err_t × List Report) := do
  let err ← vf_camera_init driver cfg
  if err = .VF_SUCCESS then
    let rs ← reports driver acts
    return (err, rs)
  else
    return (err, [])

end

/-- The same call in the camera layer. -/
def layer_act : Act → vf_camera.Act
  | .start => .start
  | .acquire_frame fb => .acquire_frame fb
  | .stop => .stop
  | .deinit => .deinit

/-- A run of the camera layer, with what its calls return. -/
def layer_run (s : vf_camera.St) : List vf_camera.Act → Option (List Report × vf_camera.St)
  | [] => some ([], s)
  | a :: rest => (vf_camera.step s a).bind fun s' =>
    (layer_run s' rest).map fun r => ((s'.ret, s'.fb) :: r.1, r.2)

/-! ## One call -/

/-- The camera layer has the camera of the memory, and has made its calls. -/
structure Shows (s : vf_camera.St) (m : Mem) : Prop where
  log : s.log = m.log
  camera : s.data.camera = m.camera

/-- What the code does from `m` to `m'` is a run of the camera layer on the answers that the
driver gave. -/
def Replays (m m' : Mem) (acts : List vf_camera.Act) (rs : List Report) : Prop :=
  ∃ calls, m'.log = m.log ++ calls ∧
    ∀ (s : vf_camera.St) rest, Shows s m → s.answers = calls.map (·.answer) ++ rest →
      ∃ s', layer_run s acts = some (rs, s') ∧ s'.answers = rest ∧ Shows s' m'

section
variable {driver : Driver} {m m' m'' : Mem}

theorem Replays.nil : Replays m m [] [] := by
  refine ⟨[], (List.append_nil _).symm, fun s rest hs hrest => ⟨s, rfl, ?_, hs⟩⟩
  simpa using hrest

theorem layer_run_append {s s' : vf_camera.St} {acts more : List vf_camera.Act}
    {rs : List Report} (h : layer_run s acts = some (rs, s')) :
    layer_run s (acts ++ more) = (layer_run s' more).map fun r => (rs ++ r.1, r.2) := by
  induction acts generalizing s rs with
  | nil =>
    cases h
    simp
  | cons a acts ih =>
    simp only [layer_run, List.cons_append] at h ⊢
    obtain ⟨s1, h1, h2⟩ := Option.bind_eq_some_iff.mp h
    obtain ⟨⟨rs1, t⟩, h3, h4⟩ := Option.map_eq_some_iff.mp h2
    cases h4
    rw [h1, Option.bind_some, ih h3, Option.map_map]
    rfl

theorem Replays.trans {acts more : List vf_camera.Act} {rs rs' : List Report}
    (h : Replays m m' acts rs) (h' : Replays m' m'' more rs') :
    Replays m m'' (acts ++ more) (rs ++ rs') := by
  obtain ⟨calls, hcalls, hrun⟩ := h
  obtain ⟨calls', hcalls', hrun'⟩ := h'
  refine ⟨calls ++ calls', by rw [hcalls', hcalls, List.append_assoc], fun s rest hs hrest => ?_⟩
  obtain ⟨s1, h1, hrest1, hs1⟩ := hrun s (calls'.map (·.answer) ++ rest) hs (by simp [hrest])
  obtain ⟨s2, h2, hrest2, hs2⟩ := hrun' s1 rest hs1 hrest1
  refine ⟨s2, ?_, hrest2, hs2⟩
  rw [layer_run_append h1, h2]
  rfl

/-- From a function that follows one of the camera layer to a step of the camera layer. -/
theorem replays_of_follows {α β : Type} {p : Code α} {q : vf_camera.Driver β}
    {a : vf_camera.Act} {P : α → Mem → β → Prop} {x : α} {r : Report}
    (outcome : vf_camera.vf_camera_unit_data_t → β → vf_camera.Outcome)
    (hf : Follows Mem.log m p q P) (hrun : p m = some (x, m'))
    (hperform : ∀ data : vf_camera.vf_camera_unit_data_t, data.camera = m.camera →
      vf_camera.perform data a = q >>= fun b => return outcome data b)
    (hP : ∀ data b, P x m' b → (outcome data b).data.camera = m'.camera ∧
      ((outcome data b).ret, (outcome data b).fb) = r) : Replays m m' [a] [r] := by
  obtain ⟨calls, b, hcalls, hq, hb⟩ := hf x m' hrun
  refine ⟨calls, hcalls, fun s rest hs hrest => ?_⟩
  obtain ⟨hcamera, hr⟩ := hP s.data b hb
  have hstep : vf_camera.perform s.data a ⟨s.answers, []⟩ =
      some (outcome s.data b, ⟨rest, calls⟩) := by
    rw [hperform s.data hs.camera, hrest]
    change (q _).bind _ = _
    rw [hq rest [], List.nil_append]
    rfl
  unfold layer_run layer_run vf_camera.step
  rw [hstep]
  refine ⟨_, congrArg (fun r => some ([r], _)) hr, rfl, ⟨?_, hcamera⟩⟩
  rw [hcalls, ← hs.log]

theorem init_replays (hno : NotInterrupted driver) (cfg : vf_camera_cfg_t) {err : vf_err_t}
    (hrun : vf_camera_init driver cfg m = some (err, m')) :
    Replays m m' [.init cfg] [(err, none)] := by
  refine replays_of_follows (fun data b => ⟨b.1, { data with camera := b.2 }, none, none⟩)
    (init_follows hno cfg) hrun ?_ ?_
  · intro data hdata
    rw [← hdata]
    rfl
  · rintro data b rfl
    exact ⟨rfl, rfl⟩

theorem report_replays (hno : NotInterrupted driver) (a : Act) {r : Report}
    (hrun : report driver a m = some (r, m')) : Replays m m' [layer_act a] [r] := by
  have hreturned : ∀ (data : vf_camera.vf_camera_unit_data_t) (err : vf_err_t)
      (b : vf_err_t × vf_camera_t), Returned err m' b →
      (⟨b.1, { data with camera := b.2 }, none, none⟩ : vf_camera.Outcome).data.camera =
        m'.camera ∧ ((⟨b.1, { data with camera := b.2 }, none, none⟩ : vf_camera.Outcome).ret,
          (none : Option vf_framebuffer_t)) = (err, none) := by
    rintro data err b rfl
    exact ⟨rfl, rfl⟩
  unfold report at hrun
  cases a with
  | start =>
    obtain ⟨⟨err, m1⟩, h1, h2⟩ := Option.bind_eq_some_iff.mp hrun
    cases h2
    refine replays_of_follows (fun data b => ⟨b.1, { data with camera := b.2 }, none, none⟩)
      (start_follows hno) h1 ?_ fun data b => hreturned data err b
    intro data hdata
    rw [← hdata]
    rfl
  | stop =>
    obtain ⟨⟨err, m1⟩, h1, h2⟩ := Option.bind_eq_some_iff.mp hrun
    cases h2
    refine replays_of_follows (fun data b => ⟨b.1, { data with camera := b.2 }, none, none⟩)
      (stop_follows hno) h1 ?_ fun data b => hreturned data err b
    intro data hdata
    rw [← hdata]
    rfl
  | deinit =>
    obtain ⟨⟨err, m1⟩, h1, h2⟩ := Option.bind_eq_some_iff.mp hrun
    cases h2
    refine replays_of_follows (fun data b => ⟨b.1, { data with camera := b.2 }, none, none⟩)
      (deinit_follows hno) h1 ?_ fun data b => hreturned data err b
    intro data hdata
    rw [← hdata]
    rfl
  | acquire_frame fb =>
    obtain ⟨⟨⟨err, fb'⟩, m1⟩, h1, h2⟩ := Option.bind_eq_some_iff.mp hrun
    cases h2
    refine replays_of_follows
      (fun data b => ⟨b.1, { data with camera := b.2.1 }, some b.2.2, none⟩)
      (acquire_frame_follows hno fb) h1 ?_ ?_
    · intro data hdata
      rw [← hdata]
      rfl
    · rintro data b rfl
      exact ⟨rfl, rfl⟩

/-! ## Whole lives -/

theorem reports_replay (hno : NotInterrupted driver) {acts : List Act} {rs : List Report}
    (hrun : reports driver acts m = some (rs, m')) : Replays m m' (acts.map layer_act) rs := by
  induction acts generalizing m rs with
  | nil =>
    cases hrun
    exact .nil
  | cons a acts ih =>
    obtain ⟨⟨r, m1⟩, h1, h2⟩ := Option.bind_eq_some_iff.mp hrun
    obtain ⟨⟨rs1, m2⟩, h3, h4⟩ := Option.bind_eq_some_iff.mp h2
    cases h4
    exact (report_replays hno a h1).trans (ih h3)

/-- The reports are those of the run of the acts. -/
theorem reports_of_run {acts : List Act} (h : run driver acts m = some ((), m')) :
    ∃ rs, reports driver acts m = some (rs, m') := by
  induction acts generalizing m with
  | nil =>
    cases h
    exact ⟨[], rfl⟩
  | cons a acts ih =>
    obtain ⟨⟨_, m1⟩, h1, h2⟩ := Option.bind_eq_some_iff.mp h
    obtain ⟨rs, hrs⟩ := ih h2
    have hreport : ∃ r, report driver a m = some (r, m1) := by
      cases a with
      | start =>
        obtain ⟨⟨err, _⟩, h3, h4⟩ := Option.bind_eq_some_iff.mp h1
        cases h4
        exact ⟨_, run_bind_of h3⟩
      | acquire_frame fb =>
        obtain ⟨⟨⟨err, fb'⟩, _⟩, h3, h4⟩ := Option.bind_eq_some_iff.mp h1
        cases h4
        exact ⟨_, run_bind_of h3⟩
      | stop =>
        obtain ⟨⟨err, _⟩, h3, h4⟩ := Option.bind_eq_some_iff.mp h1
        cases h4
        exact ⟨_, run_bind_of h3⟩
      | deinit =>
        obtain ⟨⟨err, _⟩, h3, h4⟩ := Option.bind_eq_some_iff.mp h1
        cases h4
        exact ⟨_, run_bind_of h3⟩
    obtain ⟨r, hr⟩ := hreport
    exact ⟨r :: rs, (run_bind_of hr).trans ((run_bind_of hrs).trans rfl)⟩

/-- The log of a run grows, and each step's calls are in it. -/
theorem layer_run_log {s s' : vf_camera.St} {acts : List vf_camera.Act} {rs : List Report}
    (h : layer_run s acts = some (rs, s')) : s.log ⊆ s'.log := by
  induction acts generalizing s rs with
  | nil =>
    cases h
    exact List.Subset.refl _
  | cons a acts ih =>
    obtain ⟨s1, h1, h2⟩ := Option.bind_eq_some_iff.mp h
    obtain ⟨⟨rs1, t⟩, h3, h4⟩ := Option.map_eq_some_iff.mp h2
    cases h4
    obtain ⟨⟨o, w⟩, -, rfl⟩ := Option.map_eq_some_iff.mp h1
    exact List.Subset.trans (List.subset_append_left _ _) (ih h3)

theorem layer_run_true {s s' : vf_camera.St} {acts : List vf_camera.Act} {rs : List Report}
    (h : layer_run s acts = some (rs, s')) (hf : Faithful s) (hno : ∀ e ∈ s'.log, ¬ Fails e) :
    Along vf_camera.step (fun s a => ∀ s', vf_camera.step s a = some s' → Truthful s a s') s
      acts := by
  induction acts generalizing s rs with
  | nil => trivial
  | cons a acts ih =>
    obtain ⟨s1, h1, h2⟩ := Option.bind_eq_some_iff.mp h
    obtain ⟨⟨rs1, t⟩, h3, h4⟩ := Option.map_eq_some_iff.mp h2
    cases h4
    have hlast : s1.last ⊆ s1.log := by
      obtain ⟨⟨o, w⟩, -, rfl⟩ := Option.map_eq_some_iff.mp h1
      exact List.subset_append_right _ _
    have hu : Unfailing s1 := fun e he => hno e (layer_run_log h3 (hlast he))
    have honly : ∀ u, vf_camera.step s a = some u → u = s1 :=
      fun u hs => Option.some.inj (hs.symm.trans h1)
    refine ⟨fun u hs => ?_, fun u hs => ?_⟩
    · rw [honly u hs]
      exact vf_camera.truthful_of_unfailing hf h1 hu
    · rw [honly u hs]
      exact ih h3 (vf_camera.faithful_step hf h1 hu)

end

/-! ## The law -/

/-- With a driver that grants what the array holds, no life of the camera has a fault. If no
call is interrupted, it is a run of the camera layer on the driver's answers: it returns the
same errors and frames, and leaves the same camera and the same calls. If none of these has
failed, all its reports are true. -/
theorem a_life_is_one_of_the_camera_layer (driver : Driver) (hd : Lawful driver)
    (hno : NotInterrupted driver) (cfg : vf_camera_cfg_t) (acts : List Act)
    (hfits : Requests driver cfg → (requested driver cfg).answer.rc ≠ -1 →
      (requested driver cfg).answer.arg.count ≤ VF_CAMERA_MAX_BUFFERS) :
    ∃ err rs m answers s, life driver cfg acts ⟨.zeroed, []⟩ = some ((err, rs), m) ∧
      let calls := .init cfg :: if err = .VF_SUCCESS then acts.map layer_act else []
      layer_run (fresh answers) calls = some ((err, none) :: rs, s) ∧
        s.log = m.log ∧ s.data.camera = m.camera ∧
        ((∀ e ∈ m.log, ¬ Fails e) → Along vf_camera.step
          (fun s a => ∀ s', vf_camera.step s a = some s' → Truthful s a s') (fresh answers)
          calls) := by
  have hsafe : Safe driver cfg .zeroed := by
    refine (safe_iff hd _).mpr fun h => ?_
    unfold buffer_count
    split
    · exact h.1
    · exact hfits h ‹_›
  obtain ⟨err, m1, hinit, -, hruns⟩ := hsafe
  have hlife : ∃ rs m, life driver cfg acts ⟨.zeroed, []⟩ = some ((err, rs), m) ∧
      Replays ⟨.zeroed, []⟩ m (.init cfg :: if err = .VF_SUCCESS then acts.map layer_act else [])
        ((err, none) :: rs) := by
    have hfirst := init_replays hno cfg hinit
    unfold life
    rw [run_bind_of hinit]
    by_cases herr : err = .VF_SUCCESS
    · obtain ⟨m', hrun, -⟩ := hruns herr acts
      obtain ⟨rs, hrs⟩ := reports_of_run hrun
      rw [if_pos herr, if_pos herr, run_bind_of hrs]
      exact ⟨rs, m', rfl, hfirst.trans (reports_replay hno hrs)⟩
    · rw [if_neg herr, if_neg herr]
      exact ⟨[], m1, rfl, hfirst⟩
  obtain ⟨rs, m, hrun, calls, -, hreplay⟩ := hlife
  obtain ⟨s, hs, -, hshows⟩ := hreplay (fresh (calls.map (·.answer))) [] ⟨rfl, rfl⟩
    (List.append_nil _).symm
  refine ⟨err, rs, m, _, s, hrun, hs, hshows.log, hshows.camera, fun hfails => ?_⟩
  exact layer_run_true hs (vf_camera.faithful_fresh _) (hshows.log ▸ hfails)

theorem granting_not_interrupted (n : Nat) : NotInterrupted (granting n) := by
  intro log c
  unfold granting vf_camera.interrupted
  split <;> simp [vf_camera.EINTR]

/-- The camera is started, gives a frame, and is closed. -/
def one_frame_life : List Act :=
  [.start, .acquire_frame (vf_framebuffer_alloc zeroed ⟨2, 1, .VF_PIXEL_FMT_YUYV⟩ true).2, .stop,
    .deinit]

theorem one_frame_life_is_true : ∃ rs m answers s,
    life (granting 4) ⟨"/dev/video0", 2, 1, .VF_PIXEL_FMT_YUYV, 4⟩ one_frame_life ⟨.zeroed, []⟩ =
      some ((.VF_SUCCESS, rs), m) ∧ rs.map (·.1) = List.replicate 4 .VF_SUCCESS ∧
      layer_run (fresh answers) (.init ⟨"/dev/video0", 2, 1, .VF_PIXEL_FMT_YUYV, 4⟩ ::
        one_frame_life.map layer_act) = some ((.VF_SUCCESS, none) :: rs, s) ∧
      Along vf_camera.step (fun s a => ∀ s', vf_camera.step s a = some s' → Truthful s a s')
        (fresh answers) (.init ⟨"/dev/video0", 2, 1, .VF_PIXEL_FMT_YUYV, 4⟩ ::
          one_frame_life.map layer_act) := by
  obtain ⟨err, rs, m, answers, s, hlife, hrun, -, -, htrue⟩ := a_life_is_one_of_the_camera_layer
    (granting 4) (granting_lawful 4) (granting_not_interrupted 4)
    ⟨"/dev/video0", 2, 1, .VF_PIXEL_FMT_YUYV, 4⟩ one_frame_life fun _ _ => by decide
  have hstate : (life (granting 4) ⟨"/dev/video0", 2, 1, .VF_PIXEL_FMT_YUYV, 4⟩ one_frame_life
      ⟨.zeroed, []⟩).map (fun r => (r.1.1, r.1.2.map (·.1), decide (∀ e ∈ r.2.log, ¬ Fails e))) =
        some (.VF_SUCCESS, List.replicate 4 .VF_SUCCESS, true) := by
    decide +kernel
  rw [hlife] at hstate
  simp only [Option.map_some, Option.some.injEq, Prod.mk.injEq, decide_eq_true_eq] at hstate
  obtain ⟨rfl, hrs, hfails⟩ := hstate
  exact ⟨rs, m, answers, s, hlife, hrs, hrun, htrue hfails⟩

end vision_flow.camera_lives
