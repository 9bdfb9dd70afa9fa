-- The commands of the program for frame files (main.c, vf-core.c): an option that runs one
-- scenario of the table, and --all, which runs each in turn and goes on after a failure. Where
-- no scenario writes to the files of another one, --all does what the single options do.
import VisionFlow.ParserLayouts
import VisionFlow.ScenarioFiles

namespace vision_flow.all_scenarios

open file_units (Place Disk Files at_root frame_at out_path base_name fopen)
open parser (Text vf_frame_set_t vf_frames_cfg_t Alloc)
open packed_frames (converted frame_size)
open scenarios

/-! ## The code -/

def CFG_PATH : Text := "vf_frames/conf/vf_frames_cfg.json".toList

/-- The bytes of a file as the parser takes them. -/
def text_of (bytes : List UInt8) : Text := bytes.map fun b => Char.ofNat b.toNat

/-- `vf_parser_load_frames_cfg(CFG_PATH, &cfg)`. -/
def load_cfg [Disk] (alloc : Alloc → Bool) (files : Files) : Except vf_err_t vf_frames_cfg_t :=
  parser.vf_parser_load_frames_cfg
    ((fopen files CFG_PATH false).map fun r => text_of r.1.file.bytes) alloc

/-- The flags of `g_scenarios`, in its order. -/
def g_scenario_flags : List Text :=
  ["--rgb_to_yuv_concat".toList, "--rgb_to_yuv_split".toList, "--yuv_to_rgb_concat".toList,
    "--yuv_to_rgb_split".toList, "--raw_to_rgb_concat".toList, "--raw_to_rgb_split".toList,
    "--raw_to_yuv_concat".toList, "--raw_to_yuv_split".toList]

section
variable [Disk] (alloc : Alloc → Bool) (granted : vf_scenario_t → Resource → Bool)

/-- The loop of `vf_core_run_all`. `failed` are the failures so far. -/
def run_scenarios (cfg : vf_frames_cfg_t) :
    List vf_scenario_t → Nat → Files → Option (Nat × Files)
  | [], failed, files => some (failed, files)
  | scenario :: rest, failed, files =>
    (run_scenario (granted scenario) scenario cfg files).bind fun r =>
      run_scenarios cfg rest (if r.1 ≠ .VF_SUCCESS then failed + 1 else failed) r.2

def vf_core_run_all (files : Files) : Option (vf_err_t × Files) :=
  match load_cfg alloc files with
  | .error err => some (err, files)
  | .ok cfg => (run_scenarios granted cfg g_scenarios 0 files).map fun r =>
    (if r.1 ≠ 0 then .VF_FILE_ERR else .VF_SUCCESS, r.2)

def vf_core_run_by_flag (flag : Text) (files : Files) : Option (vf_err_t × Files) :=
  match (g_scenario_flags.zip g_scenarios).find? (·.1 = flag) with
  | none => some (.VF_INVALID_PARAMETER, files)
  | some (_, scenario) =>
    match load_cfg alloc files with
    | .error err => some (err, files)
    | .ok cfg => run_scenario (granted scenario) scenario cfg files

def OPT_ALL : Int := 1
def OPT_CAMERA : Int := 10

/-- The names of the options, and the values that `getopt_long` gives for them. -/
def g_long_options : List (Text × Int) :=
  [("all".toList, OPT_ALL), ("rgb_to_yuv_concat".toList, 2), ("rgb_to_yuv_split".toList, 3),
    ("yuv_to_rgb_concat".toList, 4), ("yuv_to_rgb_split".toList, 5),
    ("raw_to_rgb_concat".toList, 6), ("raw_to_rgb_split".toList, 7),
    ("raw_to_yuv_concat".toList, 8), ("raw_to_yuv_split".toList, 9),
    ("camera".toList, OPT_CAMERA)]

/-- The flags that the switch of `main` sets. -/
def flag_of : Int → Option Text
  | 2 => some "--rgb_to_yuv_concat".toList
  | 3 => some "--rgb_to_yuv_split".toList
  | 4 => some "--yuv_to_rgb_concat".toList
  | 5 => some "--yuv_to_rgb_split".toList
  | 6 => some "--raw_to_rgb_concat".toList
  | 7 => some "--raw_to_rgb_split".toList
  | 8 => some "--raw_to_yuv_concat".toList
  | 9 => some "--raw_to_yuv_split".toList
  | _ => none

def EXIT_SUCCESS : Nat := 0
def EXIT_FAILURE : Nat := 1

/-- The exit status at the end of `main`. -/
def exit (r : vf_err_t × Files) : Nat × Files :=
  (if r.1 ≠ .VF_SUCCESS then EXIT_FAILURE else EXIT_SUCCESS, r.2)

/-- The exit status and the files. `opt` is what `getopt_long` gives for the arguments, and
`camera` is the run of `vf_core_run_camera`. `none`: the program does not end, or dies where it
leaves the block of a frame. -/
def main (camera : Files → Option (vf_err_t × Files)) (logger_ok : Bool) (argc : Nat) (opt : Int)
    (files : Files) : Option (Nat × Files) :=
  if !logger_ok then
    some (EXIT_FAILURE, files)
  else if argc < 2 then
    some (EXIT_FAILURE, files)
  else if opt = OPT_ALL then
    (vf_core_run_all alloc granted files).map exit
  else if opt = OPT_CAMERA then
    (camera files).map exit
  else
    match flag_of opt with
    | some flag => (vf_core_run_by_flag alloc granted flag files).map exit
    | none => some (EXIT_FAILURE, files)

end

/-! ## Options and scenarios -/

/-- The options that run one scenario. -/
def scenario_options : List (Text × Int) :=
  g_long_options.filter fun o => o.2 ≠ OPT_ALL ∧ o.2 ≠ OPT_CAMERA

/-- The scenario of an option. -/
def scenario_of (opt : Int) : Option vf_scenario_t :=
  (flag_of opt).bind fun flag =>
    ((g_scenario_flags.zip g_scenarios).find? (·.1 = flag)).map (·.2)

/-- The options come in the order of the scenarios. -/
theorem options_in_order : scenario_options.map (fun o => scenario_of o.2) = g_scenarios.map some := by
  decide

/-- Each such option has a scenario of the table. -/
theorem an_option_has_its_scenario {o : Text × Int} (ho : o ∈ scenario_options) :
    ∃ scenario ∈ g_scenarios, scenario_of o.2 = some scenario := by
  have hmem : scenario_of o.2 ∈ g_scenarios.map some := by
    rw [← options_in_order]
    exact List.mem_map_of_mem ho
  obtain ⟨scenario, hs, heq⟩ := List.mem_map.mp hmem
  exact ⟨scenario, hs, heq.symm⟩

theorem a_scenario_has_its_option {scenario : vf_scenario_t} (hs : scenario ∈ g_scenarios) :
    ∃ o ∈ scenario_options, scenario_of o.2 = some scenario := by
  have hmem : some scenario ∈ scenario_options.map fun o => scenario_of o.2 := by
    rw [options_in_order]
    exact List.mem_map_of_mem hs
  exact List.mem_map.mp hmem

/-! ## The runs -/

theorem exit_success (r : vf_err_t × Files) : (exit r).1 = EXIT_SUCCESS ↔ r.1 = .VF_SUCCESS := by
  unfold exit
  by_cases h : r.1 = .VF_SUCCESS
  · simp [h]
  · simp [h, EXIT_SUCCESS, EXIT_FAILURE]

/-- The switch sets a flag for these options alone. -/
theorem an_option_of_a_flag {opt : Int} {flag : Text} (h : flag_of opt = some flag) :
    ∃ o ∈ scenario_options, o.2 = opt := by
  unfold flag_of at h
  split at h
  case h_9 => cases h
  all_goals exact by decide

section
variable [Disk] {alloc : Alloc → Bool} {granted : vf_scenario_t → Resource → Bool} {files : Files}

/-- The loop runs each scenario, and counts those that fail. -/
theorem run_scenarios.spec (cfg : vf_frames_cfg_t) (l : List vf_scenario_t) (failed : Nat)
    (files : Files) : run_scenarios granted cfg l failed files =
      (footprints.run_all (fun s => run_scenario (granted s) s cfg) l files).map fun r =>
        (failed + r.1.countP (· ≠ .VF_SUCCESS), r.2) := by
  induction l generalizing failed files with
  | nil => rfl
  | cons scenario rest ih =>
    unfold run_scenarios footprints.run_all
    rcases run_scenario (granted scenario) scenario cfg files with _ | r
    · rfl
    · simp only [Option.bind_some, ih, Option.map_map]
      congr 1
      funext q
      by_cases h : r.1 = .VF_SUCCESS
      · simp [h]
      · simp [h]
        omega

/-- An option loads the config and runs its scenario. -/
theorem main.option {o : Text × Int} (ho : o ∈ scenario_options) {scenario : vf_scenario_t}
    (hs : scenario_of o.2 = some scenario) (camera : Files → Option (vf_err_t × Files)) {argc : Nat}
    (hargc : 2 ≤ argc) : main alloc granted camera true argc o.2 files =
      match load_cfg alloc files with
      | .error err => some (exit (err, files))
      | .ok cfg => (run_scenario (granted scenario) scenario cfg files).map exit := by
  obtain ⟨hall, hcamera⟩ : o.2 ≠ OPT_ALL ∧ o.2 ≠ OPT_CAMERA := by
    simpa [scenario_options] using (List.mem_filter.mp ho).2
  obtain ⟨flag, hflag, hfind⟩ := Option.bind_eq_some_iff.mp hs
  obtain ⟨entry, hentry, rfl⟩ := Option.map_eq_some_iff.mp hfind
  unfold main vf_core_run_by_flag
  simp only [Bool.not_true, Bool.false_eq_true, if_false, Nat.not_lt.mpr hargc, hall, hcamera,
    hflag, hentry]
  rcases load_cfg alloc files with err | cfg
  · rfl
  · rfl

/-- What `--all` does, after the config is loaded. -/
theorem main.all (camera : Files → Option (vf_err_t × Files)) {argc : Nat} (hargc : 2 ≤ argc) :
    main alloc granted camera true argc OPT_ALL files =
      match load_cfg alloc files with
      | .error err => some (exit (err, files))
      | .ok cfg => (run_scenarios granted cfg g_scenarios 0 files).map fun r =>
        exit (if r.1 ≠ 0 then .VF_FILE_ERR else .VF_SUCCESS, r.2) := by
  unfold main vf_core_run_all
  simp only [Bool.not_true, Bool.false_eq_true, if_false, Nat.not_lt.mpr hargc, if_true]
  rcases load_cfg alloc files with err | cfg
  · rfl
  · simp only [Option.map_map]
    rfl

end

/-! ## The files of a scenario -/

/-- The sizes of the scenario's set are safe. -/
def SafeSet (cfg : vf_frames_cfg_t) (scenario : vf_scenario_t) : Prop :=
  ∀ frame_set, find_frame_set cfg scenario.input_set = some frame_set → Safe scenario frame_set

/-- The frames of the scenario's set are entries of a directory. -/
def PlainNames (cfg : vf_frames_cfg_t) (scenario : vf_scenario_t) : Prop :=
  ∀ frame_set, find_frame_set cfg scenario.input_set = some frame_set →
    ∀ frame ∈ frame_set.frames, '/' ∉ frame.file_name

/-- The command runs the scenario. -/
def Runs (opt : Int) (scenario : vf_scenario_t) : Prop :=
  scenario ∈ g_scenarios ∧ (opt = OPT_ALL ∨ scenario_of opt = some scenario)

theorem base_name_subset (name : Text) : base_name name ⊆ name := by
  unfold base_name
  split
  · intro c hc
    rw [List.mem_reverse] at hc
    have hdrop := (List.dropWhile_sublist _).subset (List.mem_of_mem_drop hc)
    exact List.mem_reverse.mp hdrop
  · exact List.Subset.refl name

section
variable [Disk] {cfg : vf_frames_cfg_t} {scenario : vf_scenario_t}

/-- An output is an entry of the output directory. -/
theorem an_output_is_an_entry (hmem : scenario ∈ g_scenarios) (hnames : PlainNames cfg scenario)
    {place : Place} (h : Writes cfg scenario place) :
    ∃ entry, paths.Entry entry ∧ place = Disk.place (scenario.output_dir ++ '/' :: entry) := by
  have hall : ∀ scenario ∈ g_scenarios, '/' ∉ scenario.output_extension ∧
      2 < scenario.output_extension.length ∧
      '/' ∉ CONCAT_FILE_NAME ++ scenario.output_extension := by decide
  obtain ⟨hext, hlen, hconcat⟩ := hall scenario hmem
  have entry : ∀ base : Text, '/' ∉ base ++ scenario.output_extension →
      paths.Entry (base ++ scenario.output_extension) := by
    intro base hslash
    refine ⟨hslash, fun hdots => ?_⟩
    have hshort : ∀ name ∈ ([[], ['.'], ['.', '.']] : List Text), name.length ≤ 2 := by decide
    have := hshort _ hdots
    rw [List.length_append] at this
    omega
  obtain ⟨frame_set, hset, h⟩ := h
  cases hsplit : scenario.split_output with
  | false =>
    rw [hsplit, if_neg Bool.false_ne_true] at h
    exact ⟨_, entry _ hconcat, by rw [← h, concat_out, concat_path, List.append_assoc]; rfl⟩
  | true =>
    rw [hsplit, if_pos rfl] at h
    obtain ⟨frame, hframe, rfl⟩ := h
    have hslash : '/' ∉ base_name frame.file_name ++ scenario.output_extension := by
      rw [List.mem_append, not_or]
      exact ⟨fun h => hnames frame_set hset frame hframe (base_name_subset _ h), hext⟩
    refine ⟨_, entry _ hslash, ?_⟩
    rw [out_path, unit_cfg, List.append_assoc]
    rfl

/-- What is delivered is in the output files. -/
theorem delivered_off {frame_set : vf_frame_set_t} {outputs : List (List UInt8)}
    {files files' : Files} (hset : find_frame_set cfg scenario.input_set = some frame_set)
    (hframes : frame_set.frames ≠ []) (h : Delivered scenario frame_set outputs files)
    (hsame : ∀ place, Writes cfg scenario place → files' place = files place) :
    Delivered scenario frame_set outputs files' := by
  unfold Delivered at h ⊢
  cases hs : scenario.split_output with
  | false =>
    rw [hs] at h
    exact (hsame _ ⟨frame_set, hset, by simp [hs]⟩).trans h
  | true =>
    rw [hs] at h
    intro k out hk
    have hwrites : Writes cfg scenario (frame_out scenario frame_set k) :=
      ⟨frame_set, hset, by simpa [hs] using ⟨_, frame_at_mem hframes k, rfl⟩⟩
    exact (hsame _ hwrites).trans (h k out hk)

end

/-! ## Small files -/

/-- A config of three sets, of one small frame each. -/
def small_cfg : List parser.SetCfg :=
  [⟨"raw".toList, "in".toList, .VF_PIXEL_FORMAT_RAW8, [⟨"a.raw".toList, 2, 2⟩]⟩,
    ⟨"rgb".toList, "in".toList, .VF_PIXEL_FORMAT_RGB888, [⟨"a.rgb".toList, 2, 2⟩]⟩,
    ⟨"yuv".toList, "in".toList, .VF_PIXEL_FORMAT_YUV420, [⟨"a.yuv".toList, 2, 2⟩]⟩]

def small_text : Text := parser.compact id (parser.config_tokens small_cfg)

def small_raw : vf_frame_set_t :=
  ⟨"raw".toList, "in".toList, .VF_PIXEL_FORMAT_RAW8, [⟨"a.raw".toList, "in/a.raw".toList, 2, 2⟩]⟩
def small_rgb : vf_frame_set_t :=
  ⟨"rgb".toList, "in".toList, .VF_PIXEL_FORMAT_RGB888, [⟨"a.rgb".toList, "in/a.rgb".toList, 2, 2⟩]⟩
def small_yuv : vf_frame_set_t :=
  ⟨"yuv".toList, "in".toList, .VF_PIXEL_FORMAT_YUV420, [⟨"a.yuv".toList, "in/a.yuv".toList, 2, 2⟩]⟩

/-- The set of a scenario, and the bytes of its frame. -/
def small_set (scenario : vf_scenario_t) : vf_frame_set_t × List UInt8 :=
  if scenario.input_set = "raw".toList then (small_raw, [1, 2, 3, 4])
  else if scenario.input_set = "rgb".toList then (small_rgb, List.replicate 12 7)
  else (small_yuv, [9, 9, 9, 9, 128, 128])

def small_files [Disk] : Files := fun place =>
  if place = Disk.place CFG_PATH then some (small_text.map fun c => UInt8.ofNat c.toNat)
  else if place = Disk.place "in/a.raw".toList then some [1, 2, 3, 4]
  else if place = Disk.place "in/a.rgb".toList then some (List.replicate 12 7)
  else if place = Disk.place "in/a.yuv".toList then some [9, 9, 9, 9, 128, 128]
  else none

/-- The bytes of a text whose characters are bytes. -/
theorem text_of_bytes {text : Text} (h : ∀ c ∈ text, c.toNat < 256) :
    text_of (text.map fun c => UInt8.ofNat c.toNat) = text := by
  unfold text_of
  rw [List.map_map]
  refine (List.map_congr_left fun c hc => ?_).trans (List.map_id text)
  simp only [Function.comp_apply, UInt8.toNat_ofNat', Nat.mod_eq_of_lt (h c hc), Char.ofNat_toNat]
  rfl

section
attribute [local instance] at_root

theorem small_cfg_loads :
    load_cfg (fun _ => true) small_files = .ok ⟨[small_raw, small_rgb, small_yuv]⟩ := by
  have hbytes : small_text.all (fun c => c.toNat < 256) = true := by decide +kernel
  have htext : text_of (small_text.map fun c => UInt8.ofNat c.toNat) = small_text :=
    text_of_bytes fun c hc => of_decide_eq_true (List.all_eq_true.mp hbytes c hc)
  have hfits : ∀ s ∈ small_cfg, s.Fits := by decide
  have hopen : (fopen small_files CFG_PATH false).map (fun r => text_of r.1.file.bytes) =
      some (text_of (small_text.map fun c => UInt8.ofNat c.toNat)) := by
    simp only [fopen, small_files, if_true]
    rfl
  rw [load_cfg, hopen, htext]
  exact parser.compact_loads (by simp [small_cfg]) hfits (by decide +kernel)

theorem small_sets_safe {cfg : vf_frames_cfg_t}
    (h : load_cfg (fun _ => true) small_files = .ok cfg) {scenario : vf_scenario_t}
    (hs : scenario ∈ g_scenarios) : SafeSet cfg scenario ∧ PlainNames cfg scenario := by
  obtain rfl : _ = cfg := Except.ok.inj (small_cfg_loads.symm.trans h)
  have hno : ∀ scenario ∈ g_scenarios, ∀ frame_set ∈ [small_raw, small_rgb, small_yuv],
      ∀ p ∈ [units.PoolId.pool_in, .pool_out],
        conversion.NoWrap (params scenario frame_set p) := by
    unfold conversion.NoWrap
    decide
  have hsize : ∀ frame_set ∈ [small_raw, small_rgb, small_yuv],
      (frame_at frame_set 0).width = 2 ∧ (frame_at frame_set 0).height = 2 := by decide
  have hnames : ∀ frame_set ∈ [small_raw, small_rgb, small_yuv], ∀ frame ∈ frame_set.frames,
      '/' ∉ frame.file_name := by decide
  refine ⟨fun frame_set hset => ⟨fun p => ?_, ?_⟩, fun frame_set hset =>
    hnames frame_set (List.mem_of_find?_eq_some hset)⟩
  · cases p with
    | pool_in => exact hno scenario hs frame_set (List.mem_of_find?_eq_some hset) _ (by simp)
    | pool_out => exact hno scenario hs frame_set (List.mem_of_find?_eq_some hset) _ (by simp)
  · obtain ⟨hw, hh⟩ := hsize frame_set (List.mem_of_find?_eq_some hset)
    rw [hw, hh]
    unfold conversion.SafeSize
    split
    · trivial
    all_goals omega

end

/-! ## The laws -/

section
attribute [local instance] at_root

end

/-- No scenario writes to an input or to an output of another one. -/
def OutputsApart [Disk] (cfg : vf_frames_cfg_t) : Prop :=
  ∀ scenario ∈ g_scenarios, ∀ other ∈ g_scenarios, scenario ≠ other →
    ∀ place, Writes cfg other place → ¬ Reads cfg scenario place ∧ ¬ Writes cfg scenario place

/-- The loop fails just if one of the scenarios fails alone. -/
theorem run_scenarios.apart [Disk] {granted : vf_scenario_t → Resource → Bool}
    {cfg : vf_frames_cfg_t} (hsafe : ∀ scenario ∈ g_scenarios, SafeSet cfg scenario)
    (hapart : OutputsApart cfg) {files : Files} {alone : vf_scenario_t → vf_err_t × Files}
    (halone : ∀ scenario ∈ g_scenarios,
      run_scenario (granted scenario) scenario cfg files = some (alone scenario)) :
    ∃ failed files', run_scenarios granted cfg g_scenarios 0 files = some (failed, files') ∧
      (failed = 0 ↔ ∀ scenario ∈ g_scenarios, (alone scenario).1 = .VF_SUCCESS) ∧
      (∀ scenario ∈ g_scenarios, ∀ place, Writes cfg scenario place →
        files' place = (alone scenario).2 place) ∧
      ∀ place, (∀ scenario ∈ g_scenarios, ¬ Writes cfg scenario place) →
        files' place = files place := by
  have hlocal := fun s hs => run_scenario.local (granted s) hs cfg (hsafe s hs)
  obtain ⟨files', hrun, hplaces⟩ :=
    footprints.run_all.apart hlocal (by decide) hapart halone
  obtain ⟨out, hout, hkeep⟩ := footprints.run_all.confined hlocal files
  obtain rfl : out.2 = files' := by rw [Option.some.inj (hout.symm.trans hrun)]
  refine ⟨_, out.2, by rw [run_scenarios.spec, hrun, Option.map_some], ?_, hplaces, hkeep⟩
  rw [Nat.zero_add, List.countP_eq_zero]
  simp

/-- Each safe scenario has a run of its own. -/
theorem alone_ends [Disk] (granted : vf_scenario_t → Resource → Bool) {cfg : vf_frames_cfg_t}
    (hsafe : ∀ scenario ∈ g_scenarios, SafeSet cfg scenario) (files : Files) :
    ∃ alone : vf_scenario_t → vf_err_t × Files, ∀ scenario ∈ g_scenarios,
      run_scenario (granted scenario) scenario cfg files = some (alone scenario) := by
  have hall : ∀ scenario, ∃ r, scenario ∈ g_scenarios →
      run_scenario (granted scenario) scenario cfg files = some r := by
    intro scenario
    by_cases hmem : scenario ∈ g_scenarios
    · obtain ⟨r, hr⟩ :=
        run_scenario.ends (granted scenario) hmem cfg (hsafe scenario hmem) files
      exact ⟨r, fun _ => hr⟩
    · exact ⟨(.VF_SUCCESS, files), fun h => absurd h hmem⟩
  choose alone halone using hall
  exact ⟨alone, halone⟩

/-- An output file of the scenario of an option. -/
def OutOf [Disk] (alloc : Alloc → Bool) (files : Files) (opt : Int) (place : Place) : Prop :=
  ∃ cfg scenario, load_cfg alloc files = .ok cfg ∧ scenario_of opt = some scenario ∧
    Writes cfg scenario place

section
attribute [local instance] at_root

theorem small_outputs_apart {cfg : vf_frames_cfg_t}
    (h : load_cfg (fun _ => true) small_files = .ok cfg) : OutputsApart cfg := by
  obtain rfl : _ = cfg := Except.ok.inj (small_cfg_loads.symm.trans h)
  have hwrites : ∀ {scenario place}, scenario ∈ g_scenarios →
      Writes ⟨[small_raw, small_rgb, small_yuv]⟩ scenario place →
        place.take 3 = paths.resolve [] scenario.output_dir ∧ place.length = 4 := by
    intro scenario place hmem h
    have hall : ∀ scenario ∈ g_scenarios,
        (paths.resolve [] scenario.output_dir).length = 3 ∧ scenario.output_dir ≠ [] := by
      decide
    obtain ⟨hthree, hdir⟩ := hall scenario hmem
    obtain ⟨entry, hentry, rfl⟩ :=
      an_output_is_an_entry hmem (small_sets_safe small_cfg_loads hmem).2 h
    rw [show Disk.place (scenario.output_dir ++ '/' :: entry) = paths.resolve []
      scenario.output_dir ++ [entry] from hentry.resolve [] hdir]
    refine ⟨?_, by simp [hthree]⟩
    rw [← hthree, List.take_left]
  intro scenario hs other ho hne place hplace
  obtain ⟨hdir, hlen⟩ := hwrites ho hplace
  refine ⟨?_, ?_⟩
  · rintro ⟨frame_set, hset, frame, hframe, rfl⟩
    have hall : ∀ frame_set ∈ [small_raw, small_rgb, small_yuv], ∀ frame ∈ frame_set.frames,
        (Disk.place frame.full_path).length ≠ 4 := by decide
    exact hall frame_set (List.mem_of_find?_eq_some hset) frame hframe hlen
  · intro hplace'
    have hall : ∀ s ∈ g_scenarios, ∀ s' ∈ g_scenarios, s ≠ s' →
        paths.resolve [] s.output_dir ≠ paths.resolve [] s'.output_dir := by decide
    exact hall _ hs _ ho hne ((hwrites hs hplace').1.symm.trans hdir)

end

/-- What a scenario needs to convert its set: frame files of one even size that does not wrap,
which open, outputs that open, each in a file of its own, and no input among them. -/
structure Convertible [Disk] (cfg : vf_frames_cfg_t) (files : Files) (scenario : vf_scenario_t)
    (frame_set : vf_frame_set_t) (w h : Nat) (contents : Nat → List UInt8) : Prop where
  found : find_frame_set cfg scenario.input_set = some frame_set
  frames : FrameFiles scenario frame_set w h contents files
  opens : Accessible scenario frame_set
  outputs : DistinctOutputs scenario frame_set
  apart : Apart scenario frame_set

/-- The packed conversions of the files. -/
def conversions (scenario : vf_scenario_t) (frame_set : vf_frame_set_t) (w h : Nat)
    (contents : Nat → List UInt8) : List (List UInt8) :=
  (List.range frame_set.frames.length).map fun k =>
    converted scenario.src_fmt scenario.dst_fmt w h (contents k)

section
variable [Disk] {cfg : vf_frames_cfg_t} {files : Files} {scenario : vf_scenario_t}
  {frame_set : vf_frame_set_t} {w h : Nat} {contents : Nat → List UInt8}

theorem Convertible.safe (hc : Convertible cfg files scenario frame_set w h contents) :
    SafeSet cfg scenario := by
  intro frame_set' hset
  obtain rfl : frame_set = frame_set' := Option.some.inj (hc.found.symm.trans hset)
  exact hc.frames.safe

/-- Such a scenario alone ends with success, and its conversions are in its files. -/
theorem Convertible.run_scenario (hmem : scenario ∈ g_scenarios)
    (hc : Convertible cfg files scenario frame_set w h contents) {granted : Resource → Bool}
    (hall : AllGranted granted) :
    ∃ files', scenarios.run_scenario granted scenario cfg files = some (.VF_SUCCESS, files') ∧
      Delivered scenario frame_set (conversions scenario frame_set w h contents) files' := by
  obtain ⟨written, files', hrun, hlen, hwritten, hconcat, hsplit⟩ := run_scenario.spec
    (hc.frames.runnable hmem hc.opens hc.outputs hc.apart) hall
    (fun k hk => (hc.frames.one_frame k hk).1) hc.found
  have hwhole : written = conversions scenario frame_set w h contents := by
    apply List.ext_getElem
    · simp [conversions, hlen]
    · intro j h1 h2
      simp only [conversions, List.getElem_map, List.getElem_range]
      exact hwritten j _ (List.getElem?_eq_getElem h1)
  refine ⟨files', hrun, ?_⟩
  rw [← hwhole]
  unfold Delivered
  cases hs : scenario.split_output with
  | false => exact hconcat hs
  | true => exact hsplit hs

end

/-- From the config and the frame files to the output files, through `--all`: if every set is
convertible, nothing is refused and no scenario writes to a file of another one, the program
ends with success, and the files of each scenario hold the conversions of its whole set. -/
theorem all_converts_every_set [Disk] (alloc : Alloc → Bool)
    (granted : vf_scenario_t → Resource → Bool) (hgranted : ∀ s, AllGranted (granted s))
    (camera : Files → Option (vf_err_t × Files)) (argc : Nat) (hargc : 2 ≤ argc) (files : Files)
    (cfg : vf_frames_cfg_t) (hcfg : load_cfg alloc files = .ok cfg) (hapart : OutputsApart cfg)
    (frame_set : vf_scenario_t → vf_frame_set_t) (w h : vf_scenario_t → Nat)
    (contents : vf_scenario_t → Nat → List UInt8)
    (hall : ∀ scenario ∈ g_scenarios, Convertible cfg files scenario (frame_set scenario)
      (w scenario) (h scenario) (contents scenario)) :
    ∃ files', main alloc granted camera true argc OPT_ALL files = some (EXIT_SUCCESS, files') ∧
      ∀ scenario ∈ g_scenarios, Delivered scenario (frame_set scenario)
        (conversions scenario (frame_set scenario) (w scenario) (h scenario)
          (contents scenario)) files' := by
  have hsafe := fun s hs => (hall s hs).safe
  obtain ⟨alone, halone⟩ := alone_ends granted hsafe files
  obtain ⟨failed, files', hrun, hfailed, hplaces, -⟩ := run_scenarios.apart hsafe hapart halone
  have hdone : ∀ scenario ∈ g_scenarios, (alone scenario).1 = .VF_SUCCESS ∧
      Delivered scenario (frame_set scenario) (conversions scenario (frame_set scenario)
        (w scenario) (h scenario) (contents scenario)) (alone scenario).2 := by
    intro scenario hmem
    obtain ⟨files1, hrun1, hdelivered⟩ :=
      (hall scenario hmem).run_scenario hmem (hgranted scenario)
    have hsame : alone scenario = (.VF_SUCCESS, files1) :=
      Option.some.inj ((halone scenario hmem).symm.trans hrun1)
    exact ⟨by rw [hsame], by rw [hsame]; exact hdelivered⟩
  obtain rfl : failed = 0 := hfailed.mpr fun scenario hmem => (hdone scenario hmem).1
  refine ⟨files', ?_, fun scenario hmem => delivered_off (hall scenario hmem).found
    (hall scenario hmem).frames.frames (hdone scenario hmem).2 (hplaces scenario hmem)⟩
  rw [main.all camera hargc, hcfg]
  simp only [hrun, Option.map_some]
  rfl

section
attribute [local instance] at_root

/-- The small files through all scenarios: the raw frame is in its RGB file. -/
theorem the_small_frame_is_converted : ∃ files',
    main (fun _ => true) (fun _ _ => true) (fun _ => none) true 2 OPT_ALL small_files =
        some (EXIT_SUCCESS, files') ∧
      files' (Disk.place "vf_frames/out/raw_to_rgb_split/a.rgb".toList) =
        some [1, 1, 1, 2, 2, 2, 3, 3, 3, 4, 4, 4] := by
  have houts : ∀ s ∈ g_scenarios, DistinctOutputs s (small_set s).1 := by
    unfold DistinctOutputs
    decide
  have hapart : ∀ s ∈ g_scenarios, Apart s (small_set s).1 := by
    unfold Apart
    decide
  have hsize : ∀ s ∈ g_scenarios, ∀ frame ∈ (small_set s).1.frames,
      frame.width = 2 ∧ frame.height = 2 := by decide
  have hno : ∀ s ∈ g_scenarios, ∀ fmt ∈ [s.src_fmt, s.dst_fmt],
      conversion.NoWrap ⟨2, 2, fmt⟩ := by
    unfold conversion.NoWrap
    decide
  have hframe : ∀ s ∈ g_scenarios, ∀ k < (small_set s).1.frames.length,
      small_files (frame_in (small_set s).1 k) = some (small_set s).2 ∧
        (small_set s).2.length = frame_size ⟨2, 2, s.src_fmt⟩ := by decide
  have hfound : ∀ s ∈ g_scenarios, find_frame_set ⟨[small_raw, small_rgb, small_yuv]⟩
      s.input_set = some (small_set s).1 ∧ (small_set s).1.frames ≠ [] := by decide
  have hconvertible : ∀ s ∈ g_scenarios, Convertible ⟨[small_raw, small_rgb, small_yuv]⟩
      small_files s (small_set s).1 2 2 fun _ => (small_set s).2 := fun s hs =>
    ⟨(hfound s hs).1, ⟨(hfound s hs).2, hsize s hs, by decide, by decide, hno s hs, hframe s hs⟩,
      ⟨fun _ _ => rfl, fun _ => rfl, fun _ _ _ => rfl⟩, houts s hs, hapart s hs⟩
  obtain ⟨files', hrun, hdelivered⟩ := all_converts_every_set (fun _ => true) (fun _ _ => true)
    (fun _ _ => rfl) (fun _ => none) 2 (by decide) small_files _ small_cfg_loads
    (small_outputs_apart small_cfg_loads) (fun s => (small_set s).1) (fun _ => 2) (fun _ => 2)
    (fun s _ => (small_set s).2) hconvertible
  refine ⟨files', hrun, ?_⟩
  exact hdelivered g_scenarios[5] (List.getElem_mem _) 0 _ (by decide)

end

end vision_flow.all_scenarios
