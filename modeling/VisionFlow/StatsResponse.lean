-- The answer to get_stats (handle_get_stats in vf-control-handler.c). The text of each unit is
-- cut to a buffer of 128 bytes, so the answer is whole just if the numbers of each unit are
-- short enough. The other two buffers are never full.
import VisionFlow.UnitStats
import VisionFlow.ParserLayouts

namespace vision_flow.stats_response

open parser (Text Token object array member Blank is_blank)
open unit_stats (vf_unit_t vf_unit_stats_t averages)

/-! ## The code -/

def VF_CONTROL_RESPONSE_MAX_LEN : Nat := 1024
def VF_CONTROL_UNIT_BUF_SIZE : Nat := 128
def VF_CONTROL_UNITS_JSON_SIZE : Nat := 768

def VF_CAMERA_IN_STR : Text := "camera_in".toList
def VF_STREAM_PROVIDER_STR : Text := "stream_provider".toList
def VF_CONVERSION_STR : Text := "conversion".toList
def VF_FILE_OUT_STR : Text := "file_out".toList

/-- The four units of the service. -/
structure vf_service_t where
  camera_unit : vf_unit_t
  sp_unit : vf_unit_t
  conv_unit : vf_unit_t
  file_out_unit : vf_unit_t

/-- The names that `vf_service_init` gives to the units. -/
def vf_service_t.named (svc : vf_service_t) : vf_service_t where
  camera_unit := { svc.camera_unit with name := some VF_CAMERA_IN_STR }
  sp_unit := { svc.sp_unit with name := some VF_STREAM_PROVIDER_STR }
  conv_unit := { svc.conv_unit with name := some VF_CONVERSION_STR }
  file_out_unit := { svc.file_out_unit with name := some VF_FILE_OUT_STR }

/-- The string that `snprintf` leaves in a buffer. -/
def snprintf (size : Nat) (text : Text) : Text := text.take (size - 1)

/-- At most `n` characters of `src` behind `dst`. -/
def strncat (dst src : Text) (n : Nat) : Text := dst ++ src.take n

/-- `%u` and `%llu`. -/
def digits (n : Nat) : Text := Nat.toDigits 10 n

/-- `unit->name ? unit->name : "unknown"`. -/
def unit_name (unit : vf_unit_t) : Text := unit.name.getD "unknown".toList

/-- The text for the unit `i`, before it is cut. -/
def unit_text (i : Nat) (unit : vf_unit_t) : Text :=
  let (avg_get, avg_process, avg_send) := averages unit.stats
  (if i > 0 then ",".toList else []) ++ "\x7b".toList ++
    ("\"name\":\"".toList ++ unit_name unit ++ "\",".toList) ++
    ("\"frames\":".toList ++ digits unit.stats.frames_processed ++ ",".toList) ++
    ("\"avg_get_ms\":".toList ++ digits avg_get ++ ",".toList) ++
    ("\"avg_process_ms\":".toList ++ digits avg_process ++ ",".toList) ++
    ("\"avg_send_ms\":".toList ++ digits avg_send) ++ "\x7d".toList

/-- The loop over the units from the unit `i` on. -/
def unit_loop : Nat → List vf_unit_t → Text → Text
  | _, [], units_json => units_json
  | i, unit :: rest, units_json =>
    let unit_buf := snprintf VF_CONTROL_UNIT_BUF_SIZE (unit_text i unit)
    unit_loop (i + 1) rest
      (strncat units_json unit_buf (VF_CONTROL_UNITS_JSON_SIZE - units_json.length - 1))

def response_start : Text := "\x7b\"status\":\"ok\",\"data\":\x7b\"units\":[".toList
def response_end : Text := "]\x7d\x7d\n".toList

/-- The text that is sent. -/
def handle_get_stats (svc : vf_service_t) : Text :=
  let units := [svc.camera_unit, svc.sp_unit, svc.conv_unit, svc.file_out_unit]
  let units_json := unit_loop 0 units []
  snprintf VF_CONTROL_RESPONSE_MAX_LEN (response_start ++ units_json ++ response_end)

/-! ## A complete answer -/

def unit_tokens (unit : vf_unit_t) : List Token :=
  object [member "name".toList [.str (unit_name unit)],
    member "frames".toList [.num unit.stats.frames_processed],
    member "avg_get_ms".toList
      [.num (unit.stats.total_get_data_ms / unit.stats.frames_processed)],
    member "avg_process_ms".toList
      [.num (unit.stats.total_process_data_ms / unit.stats.frames_processed)],
    member "avg_send_ms".toList
      [.num (unit.stats.total_send_data_ms / unit.stats.frames_processed)]]

/-- The JSON object of the answer. -/
def stats_tokens (units : List vf_unit_t) : List Token :=
  object [member "status".toList [.str "ok".toList],
    member "data".toList (object [member "units".toList (array (units.map unit_tokens))])]

def token_text : Token → Text
  | .punct c => [c]
  | .str s => '"' :: s ++ ['"']
  | .num n => digits n

/-- The text has these tokens, with any blanks between them. -/
inductive Layout : List Token → Text → Prop
  | nil {ws : Text} : Blank ws → Layout [] ws
  | cons {ws text : Text} {tok : Token} {toks : List Token} :
      Blank ws → Layout toks text → Layout (tok :: toks) (ws ++ token_text tok ++ text)

/-- The answer is the object of the four units, and a newline. -/
def Complete (svc : vf_service_t) (response : Text) : Prop :=
  ∃ body, response = body ++ ['\n'] ∧
    Layout (stats_tokens [svc.camera_unit, svc.sp_unit, svc.conv_unit, svc.file_out_unit]) body

/-- How many characters the numbers of a unit take. -/
def number_length (stats : vf_unit_stats_t) : Nat :=
  (digits stats.frames_processed).length +
    (digits (stats.total_get_data_ms / stats.frames_processed)).length +
    (digits (stats.total_process_data_ms / stats.frames_processed)).length +
    (digits (stats.total_send_data_ms / stats.frames_processed)).length

/-! ## The text of a unit -/

/-- Division by 0 is 0, which is what the code reports then. -/
theorem averages_eq (stats : vf_unit_stats_t) : averages stats =
    (stats.total_get_data_ms / stats.frames_processed,
      stats.total_process_data_ms / stats.frames_processed,
      stats.total_send_data_ms / stats.frames_processed) := by
  unfold averages
  split
  · rfl
  · have hzero : stats.frames_processed = 0 := by omega
    simp [hzero]

def compact (toks : List Token) : Text := toks.flatMap token_text

/-- The code writes the tokens of a unit without blanks. -/
theorem unit_text_eq (i : Nat) (unit : vf_unit_t) :
    unit_text i unit = (if i > 0 then [','] else []) ++ compact (unit_tokens unit) := by
  unfold unit_text
  rw [averages_eq]
  simp [compact, unit_tokens, object, member, parser.listed, token_text]

theorem unit_text_length (i : Nat) (unit : vf_unit_t) :
    (unit_text i unit).length =
      (if i > 0 then 1 else 0) + 68 + (unit_name unit).length + number_length unit.stats := by
  unfold unit_text number_length
  rw [averages_eq]
  by_cases hi : i > 0
  · simp [hi]
    omega
  · simp [hi]
    omega

/-! ## Braces -/

theorem no_brace_digits (n : Nat) : '\x7d' ∉ digits n := by
  intro hmem
  have hdigit := Nat.isDigit_of_mem_toDigits (by decide) (by decide) hmem
  exact absurd hdigit (by decide)

/-- The text of a unit ends in its only closing brace. -/
theorem unit_text_closed (i : Nat) {unit : vf_unit_t} (hname : '\x7d' ∉ unit_name unit) :
    ∃ inner, unit_text i unit = inner ++ ['\x7d'] ∧ '\x7d' ∉ inner := by
  unfold unit_text
  simp only
  refine ⟨_, rfl, ?_⟩
  have hcomma : '\x7d' ∉ (if i > 0 then ",".toList else []) := by
    split <;> decide
  simp only [List.mem_append, hcomma, hname, no_brace_digits, or_false, false_or]
  decide

/-- A cut unit loses its brace. -/
theorem unit_buf_braces (i : Nat) {unit : vf_unit_t} (hname : '\x7d' ∉ unit_name unit) :
    (snprintf VF_CONTROL_UNIT_BUF_SIZE (unit_text i unit)).count '\x7d' =
      if (unit_text i unit).length < VF_CONTROL_UNIT_BUF_SIZE then 1 else 0 := by
  obtain ⟨inner, htext, hnone⟩ := unit_text_closed i hname
  unfold snprintf
  rw [htext, List.length_append, List.length_singleton]
  split
  · rename_i hfits
    rw [List.take_of_length_le (by simp only [List.length_append, List.length_singleton]; omega),
      List.count_append, List.count_eq_zero.mpr hnone]
    rfl
  · rename_i hcut
    rw [List.take_append_of_le_length (by omega)]
    exact List.count_eq_zero.mpr fun hmem => hnone (List.mem_of_mem_take hmem)

/-- Blanks hold no brace, so a layout has the braces of its tokens. -/
theorem layout_braces {toks : List Token} {text : Text} (h : Layout toks text) :
    text.count '\x7d' = (compact toks).count '\x7d' := by
  have hblank : ∀ ws, Blank ws → ws.count '\x7d' = 0 := fun ws hws =>
    List.count_eq_zero.mpr fun hmem => absurd (hws _ hmem) (by decide)
  induction h with
  | nil hws => exact hblank _ hws
  | cons hws _ ih =>
    simp only [compact, List.flatMap_cons, List.count_append] at ih ⊢
    rw [hblank _ hws, ih, Nat.zero_add]

theorem layout_compact (toks : List Token) : Layout toks (compact toks) := by
  have hblank : Blank [] := fun _ h => absurd h List.not_mem_nil
  induction toks with
  | nil => exact .nil hblank
  | cons tok toks ih => exact .cons hblank ih

/-! ## The loop -/

/-- The texts of the units, each cut to its buffer. -/
def unit_bufs : Nat → List vf_unit_t → Text
  | _, [] => []
  | i, unit :: rest =>
    snprintf VF_CONTROL_UNIT_BUF_SIZE (unit_text i unit) ++ unit_bufs (i + 1) rest

/-- Four buffers of 128 bytes fit in `units_json`. -/
theorem unit_loop.spec (units : List vf_unit_t) (i : Nat) (units_json : Text)
    (h : units_json.length + 127 * units.length < VF_CONTROL_UNITS_JSON_SIZE) :
    unit_loop i units units_json = units_json ++ unit_bufs i units ∧
      (unit_bufs i units).length ≤ 127 * units.length := by
  induction units generalizing i units_json with
  | nil => exact ⟨(List.append_nil _).symm, Nat.le_refl 0⟩
  | cons unit rest ih =>
    have hbuf : (snprintf VF_CONTROL_UNIT_BUF_SIZE (unit_text i unit)).length ≤ 127 := by
      unfold snprintf VF_CONTROL_UNIT_BUF_SIZE
      exact List.length_take_le _ _
    rw [List.length_cons] at h
    have hcat : strncat units_json (snprintf VF_CONTROL_UNIT_BUF_SIZE (unit_text i unit))
        (VF_CONTROL_UNITS_JSON_SIZE - units_json.length - 1) =
        units_json ++ snprintf VF_CONTROL_UNIT_BUF_SIZE (unit_text i unit) := by
      unfold strncat
      rw [List.take_of_length_le (by omega)]
    unfold unit_loop unit_bufs
    simp only
    rw [hcat]
    obtain ⟨hloop, hlen⟩ := ih (i + 1)
      (units_json ++ snprintf VF_CONTROL_UNIT_BUF_SIZE (unit_text i unit))
      (by rw [List.length_append]; omega)
    refine ⟨by rw [hloop, List.append_assoc], ?_⟩
    rw [List.length_append, List.length_cons]
    omega

/-- Each unit fits in its buffer. -/
def AllFit : Nat → List vf_unit_t → Prop
  | _, [] => True
  | i, unit :: rest =>
    (unit_text i unit).length < VF_CONTROL_UNIT_BUF_SIZE ∧ AllFit (i + 1) rest

/-- The units are whole just if there is a brace for each. -/
theorem unit_bufs_braces (units : List vf_unit_t) (i : Nat)
    (hnames : ∀ unit ∈ units, '\x7d' ∉ unit_name unit) :
    (unit_bufs i units).count '\x7d' ≤ units.length ∧
      ((unit_bufs i units).count '\x7d' = units.length ↔ AllFit i units) := by
  induction units generalizing i with
  | nil => exact ⟨Nat.le_refl 0, iff_of_true rfl trivial⟩
  | cons unit rest ih =>
    obtain ⟨hname, hrest⟩ := List.forall_mem_cons.mp hnames
    obtain ⟨hle, hiff⟩ := ih (i + 1) hrest
    simp only [unit_bufs, AllFit, List.count_append, List.length_cons, unit_buf_braces i hname]
    rw [← hiff]
    split <;> omega

/-! ## The answer -/

section
variable {a b c d : vf_unit_t}

/-- The buffer of the answer is never full. -/
theorem handle_get_stats.spec (svc : vf_service_t) : handle_get_stats svc =
    response_start ++
      unit_bufs 0 [svc.camera_unit, svc.sp_unit, svc.conv_unit, svc.file_out_unit] ++
        response_end := by
  obtain ⟨hloop, hlen⟩ := unit_loop.spec
    [svc.camera_unit, svc.sp_unit, svc.conv_unit, svc.file_out_unit] 0 []
    (by simp only [List.length_cons, List.length_nil, VF_CONTROL_UNITS_JSON_SIZE]; decide)
  have hstart : response_start.length = 32 := by decide
  have hend : response_end.length = 4 := by decide
  simp only [List.length_cons, List.length_nil] at hlen
  unfold handle_get_stats snprintf
  simp only
  rw [hloop, List.nil_append, List.take_of_length_le]
  simp only [List.length_append, hstart, hend, VF_CONTROL_RESPONSE_MAX_LEN]
  omega

theorem compact_append (toks toks' : List Token) :
    compact (toks ++ toks') = compact toks ++ compact toks' :=
  List.flatMap_append

/-- The tokens around the units. -/
def start_tokens : List Token :=
  [.punct '\x7b', .str "status".toList, .punct ':', .str "ok".toList, .punct ',',
    .str "data".toList, .punct ':', .punct '\x7b', .str "units".toList, .punct ':', .punct '[']

def end_tokens : List Token := [.punct ']', .punct '\x7d', .punct '\x7d']

theorem stats_tokens_eq : stats_tokens [a, b, c, d] =
    start_tokens ++ unit_tokens a ++ ([.punct ','] ++ unit_tokens b) ++
      ([.punct ','] ++ unit_tokens c) ++ ([.punct ','] ++ unit_tokens d) ++ end_tokens := by
  simp [stats_tokens, object, member, array, parser.listed, start_tokens, end_tokens]

/-- The tokens of the answer without blanks. -/
theorem compact_stats : compact (stats_tokens [a, b, c, d]) ++ ['\n'] =
    response_start ++ (unit_text 0 a ++ unit_text 1 b ++ unit_text 2 c ++ unit_text 3 d) ++
      response_end := by
  have hstart : compact start_tokens = response_start := by decide
  have hend : compact end_tokens ++ ['\n'] = response_end := by decide
  have hcomma : compact [.punct ','] = [','] := rfl
  rw [stats_tokens_eq, ← hend, ← hstart]
  simp only [unit_text_eq, compact_append, hcomma, List.append_assoc]
  rfl

theorem whole_bufs (h : AllFit 0 [a, b, c, d]) : unit_bufs 0 [a, b, c, d] =
    unit_text 0 a ++ unit_text 1 b ++ unit_text 2 c ++ unit_text 3 d := by
  have hwhole : ∀ {i : Nat} {unit : vf_unit_t},
      (unit_text i unit).length < VF_CONTROL_UNIT_BUF_SIZE →
        snprintf VF_CONTROL_UNIT_BUF_SIZE (unit_text i unit) = unit_text i unit := by
    intro i unit hfits
    unfold snprintf
    exact List.take_of_length_le (by omega)
  obtain ⟨h0, h1, h2, h3, -⟩ := h
  simp only [unit_bufs, hwhole h0, hwhole h1, hwhole h2, hwhole h3, List.append_nil,
    List.append_assoc]

/-- Each unit has one brace, and the answer two more. -/
theorem stats_braces (hnames : ∀ unit ∈ [a, b, c, d], '\x7d' ∉ unit_name unit) :
    (compact (stats_tokens [a, b, c, d])).count '\x7d' = 6 := by
  have hone : ∀ unit ∈ [a, b, c, d], ∀ i, (unit_text i unit).count '\x7d' = 1 := by
    intro unit hunit i
    obtain ⟨inner, htext, hnone⟩ := unit_text_closed i (hnames unit hunit)
    rw [htext, List.count_append, List.count_eq_zero.mpr hnone]
    rfl
  have hall := congrArg (List.count '\x7d') (compact_stats (a := a) (b := b) (c := c) (d := d))
  have hstart : response_start.count '\x7d' = 0 := by decide
  have hend : response_end.count '\x7d' = 2 := by decide
  simp only [List.count_append, hstart, hend, hone a (by simp), hone b (by simp), hone c (by simp),
    hone d (by simp)] at hall
  exact hall

/-- The answer is complete just if no unit is cut. -/
theorem complete_iff_all_fit {svc : vf_service_t}
    (hnames : ∀ unit ∈ [svc.camera_unit, svc.sp_unit, svc.conv_unit, svc.file_out_unit],
      '\x7d' ∉ unit_name unit) :
    Complete svc (handle_get_stats svc) ↔
      AllFit 0 [svc.camera_unit, svc.sp_unit, svc.conv_unit, svc.file_out_unit] := by
  constructor
  · rintro ⟨body, hbody, hlayout⟩
    have hcount := congrArg (List.count '\x7d') hbody
    have hstart : response_start.count '\x7d' = 0 := by decide
    have hend : response_end.count '\x7d' = 2 := by decide
    have hnewline : ['\n'].count '\x7d' = 0 := by decide
    rw [handle_get_stats.spec] at hcount
    simp only [List.count_append, hstart, hend, hnewline, layout_braces hlayout,
      stats_braces hnames] at hcount
    refine (unit_bufs_braces _ 0 hnames).2.mp ?_
    simp only [List.length_cons, List.length_nil]
    omega
  · intro hfit
    refine ⟨compact _, ?_, layout_compact _⟩
    rw [handle_get_stats.spec, whole_bufs hfit, compact_stats]

end

/-! ## The law -/

section
variable (svc : vf_service_t)

theorem named_units :
    unit_name svc.named.camera_unit = VF_CAMERA_IN_STR ∧
      unit_name svc.named.sp_unit = VF_STREAM_PROVIDER_STR ∧
      unit_name svc.named.conv_unit = VF_CONVERSION_STR ∧
      unit_name svc.named.file_out_unit = VF_FILE_OUT_STR :=
  ⟨rfl, rfl, rfl, rfl⟩

theorem named_braces : ∀ unit ∈ [svc.named.camera_unit, svc.named.sp_unit, svc.named.conv_unit,
    svc.named.file_out_unit], '\x7d' ∉ unit_name unit := by
  obtain ⟨hcamera, hsp, hconv, hfile⟩ := named_units svc
  simp only [List.forall_mem_cons, hcamera, hsp, hconv, hfile]
  exact ⟨by decide, by decide, by decide, by decide, nofun⟩

/-- The answer is complete just if the numbers of each unit fit behind its name. -/
theorem the_stats_are_complete_just_if_the_numbers_are_short :
    Complete svc.named (handle_get_stats svc.named) ↔
      number_length svc.camera_unit.stats ≤ 50 ∧ number_length svc.sp_unit.stats ≤ 43 ∧
        number_length svc.conv_unit.stats ≤ 48 ∧ number_length svc.file_out_unit.stats ≤ 50 := by
  obtain ⟨hcamera, hsp, hconv, hfile⟩ := named_units svc
  have hlengths : VF_CAMERA_IN_STR.length = 9 ∧ VF_STREAM_PROVIDER_STR.length = 15 ∧
      VF_CONVERSION_STR.length = 10 ∧ VF_FILE_OUT_STR.length = 8 := by decide
  have hstats : svc.named.camera_unit.stats = svc.camera_unit.stats ∧
      svc.named.sp_unit.stats = svc.sp_unit.stats ∧
      svc.named.conv_unit.stats = svc.conv_unit.stats ∧
      svc.named.file_out_unit.stats = svc.file_out_unit.stats := ⟨rfl, rfl, rfl, rfl⟩
  have hcommas : (if 0 > 0 then 1 else 0) = 0 ∧ (if 0 + 1 > 0 then 1 else 0) = 1 ∧
      (if 0 + 1 + 1 > 0 then 1 else 0) = 1 ∧ (if 0 + 1 + 1 + 1 > 0 then 1 else 0) = 1 := by decide
  rw [complete_iff_all_fit (named_braces svc)]
  simp only [AllFit, unit_text_length, hcamera, hsp, hconv, hfile, hlengths, hstats, hcommas,
    VF_CONTROL_UNIT_BUF_SIZE, and_true]
  omega

end

/-- One frame, and the largest totals. -/
def largest : vf_unit_t :=
  ⟨none, 1, true, true, true, ⟨2 ^ 64 - 1, 2 ^ 64 - 1, 2 ^ 64 - 1, 2 ^ 64 - 3, 1⟩⟩

theorem large_averages_are_cut :
    ¬ ∀ svc : vf_service_t, Complete svc.named (handle_get_stats svc.named) := by
  intro h
  have hfit := (complete_iff_all_fit (named_braces ⟨largest, largest, largest, largest⟩)).mp (h _)
  have hcamera := hfit.1
  rw [unit_text_length] at hcamera
  exact absurd hcamera (by decide)

end vision_flow.stats_response
