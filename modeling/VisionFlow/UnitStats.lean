-- The latency statistics of a unit (vf-processing-unit.c): totals of 64 bits, and a counter of
-- frames of 32 bits. The totals are the sums over the runs that succeeded. The averages divide
-- by the counter, so they hold until it wraps, and after that for small totals only.
import VisionFlow.Common

namespace vision_flow.unit_stats

/-! ## The code -/

/-- A value cut to `uint64_t`, and a difference that wraps below 0. -/
def u64 (n : Nat) : Nat := n % 2 ^ 64
def u64_sub (a b : Nat) : Nat := u64 (a + (2 ^ 64 - b))

def NS_PER_MS : Nat := 1000000
def MS_PER_SEC : Nat := 1000

structure timespec where
  tv_sec : Nat
  tv_nsec : Nat

/-- `ts` is what the clock says. -/
def get_time_ms (ts : timespec) : Nat := u64 (ts.tv_sec * MS_PER_SEC + ts.tv_nsec / NS_PER_MS)

structure vf_unit_stats_t where
  total_get_data_ms : Nat
  total_process_data_ms : Nat
  total_send_data_ms : Nat
  total_ms : Nat
  frames_processed : Nat

/-- What the functions of this file read of a unit. An operation is NULL or not. -/
structure vf_unit_t where
  name : Option (List Char)
  initialized : Nat
  get_data : Bool
  process_data : Bool
  send_data : Bool
  stats : vf_unit_stats_t

/-- What an operation returns, and the clock before and after it. -/
structure Phase where
  err : vf_err_t
  start : timespec
  stop : timespec

/-- The time that the code takes for a phase. -/
def Phase.ms (p : Phase) : Nat := u64_sub (get_time_ms p.stop) (get_time_ms p.start)

/-- The outcomes of the three phases. A run that ends before a phase does not read it. -/
structure Run where
  get : Phase
  process : Phase
  send : Phase

/-- One of the three `if`s of `vf_unit_run`: the return code, and the time. -/
def run_phase (op : Bool) (p : Phase) : vf_err_t × Nat :=
  if op then (p.err, p.ms) else (.VF_SUCCESS, 0)

def vf_unit_run (unit : vf_unit_t) (r : Run) : vf_err_t × vf_unit_t :=
  if unit.initialized = 0 then
    (.VF_INIT_FAILED, unit)
  else
    let (err, get_ms) := run_phase unit.get_data r.get
    if err ≠ .VF_SUCCESS then
      (err, unit)
    else
      let (err, prc_ms) := run_phase unit.process_data r.process
      if err ≠ .VF_SUCCESS then
        (err, unit)
      else
        let (err, snd_ms) := run_phase unit.send_data r.send
        if err ≠ .VF_SUCCESS then
          (err, unit)
        else
          (.VF_SUCCESS, { unit with stats := {
            total_get_data_ms := u64 (unit.stats.total_get_data_ms + get_ms)
            total_process_data_ms := u64 (unit.stats.total_process_data_ms + prc_ms)
            total_send_data_ms := u64 (unit.stats.total_send_data_ms + snd_ms)
            total_ms := u64 (unit.stats.total_ms + u64 (u64 (get_ms + prc_ms) + snd_ms))
            frames_processed := u32 (unit.stats.frames_processed + 1) } })

/-- The averages of a unit in `handle_get_stats`. -/
def averages (stats : vf_unit_stats_t) : Nat × Nat × Nat :=
  if stats.frames_processed > 0 then
    (stats.total_get_data_ms / stats.frames_processed,
      stats.total_process_data_ms / stats.frames_processed,
      stats.total_send_data_ms / stats.frames_processed)
  else
    (0, 0, 0)

/-- The numbers that `vf_unit_destroy` logs. -/
structure Report where
  n : Nat
  avg_get : Nat
  avg_process : Nat
  avg_send : Nat
  avg_total : Nat

/-- With what it logs, if it logs anything. -/
def vf_unit_destroy (unit : vf_unit_t) : vf_unit_t × Option Report :=
  if unit.initialized = 0 then
    (unit, none)
  else
    let n := unit.stats.frames_processed
    let report := if 0 < n then
        some ⟨n, unit.stats.total_get_data_ms / n, unit.stats.total_process_data_ms / n,
          unit.stats.total_send_data_ms / n, unit.stats.total_ms / n⟩
      else none
    ({ unit with initialized := 0 }, report)

/-- Runs one after another: what each returns, and the unit after them. -/
def vf_unit_runs (unit : vf_unit_t) : List Run → List (Run × vf_err_t) × vf_unit_t
  | [] => ([], unit)
  | r :: rest =>
    let (err, unit) := vf_unit_run unit r
    let (log, unit) := vf_unit_runs unit rest
    ((r, err) :: log, unit)

/-! ## What the statistics tell -/

/-- A unit that nobody has run. -/
def vf_unit_t.fresh (unit : vf_unit_t) : vf_unit_t := { unit with stats := ⟨0, 0, 0, 0, 0⟩ }

/-- The runs that returned success. -/
def succeeded (unit : vf_unit_t) (rs : List Run) : List Run :=
  ((vf_unit_runs unit rs).1.filter fun p => p.2 = .VF_SUCCESS).map (·.1)

/-- The time of each phase of a run that succeeds. -/
def get_ms (unit : vf_unit_t) (r : Run) : Nat := (run_phase unit.get_data r.get).2
def process_ms (unit : vf_unit_t) (r : Run) : Nat := (run_phase unit.process_data r.process).2
def send_ms (unit : vf_unit_t) (r : Run) : Nat := (run_phase unit.send_data r.send).2

/-- A sum over runs. -/
def total (ms : Run → Nat) (rs : List Run) : Nat := (rs.map ms).sum

/-- The sum of all phases. -/
def total_of_all (unit : vf_unit_t) (rs : List Run) : Nat :=
  total (get_ms unit) rs + total (process_ms unit) rs + total (send_ms unit) rs

/-- The statistics of a unit after `rs` tell of the runs that succeeded. -/
structure Truthful (unit : vf_unit_t) (rs : List Run) : Prop where
  get : (vf_unit_runs unit rs).2.stats.total_get_data_ms =
    total (get_ms unit) (succeeded unit rs)
  process : (vf_unit_runs unit rs).2.stats.total_process_data_ms =
    total (process_ms unit) (succeeded unit rs)
  send : (vf_unit_runs unit rs).2.stats.total_send_data_ms =
    total (send_ms unit) (succeeded unit rs)
  all : (vf_unit_runs unit rs).2.stats.total_ms =
    (vf_unit_runs unit rs).2.stats.total_get_data_ms +
      (vf_unit_runs unit rs).2.stats.total_process_data_ms +
      (vf_unit_runs unit rs).2.stats.total_send_data_ms
  averages : averages (vf_unit_runs unit rs).2.stats =
    (total (get_ms unit) (succeeded unit rs) / (succeeded unit rs).length,
      total (process_ms unit) (succeeded unit rs) / (succeeded unit rs).length,
      total (send_ms unit) (succeeded unit rs) / (succeeded unit rs).length)
  report : ∀ r ∈ (vf_unit_destroy (vf_unit_runs unit rs).2).2,
    r.avg_get = total (get_ms unit) (succeeded unit rs) / (succeeded unit rs).length ∧
      r.avg_process = total (process_ms unit) (succeeded unit rs) / (succeeded unit rs).length ∧
      r.avg_send = total (send_ms unit) (succeeded unit rs) / (succeeded unit rs).length ∧
      r.avg_total = total_of_all unit (succeeded unit rs) / (succeeded unit rs).length

/-- Each operation that there is succeeds. -/
def Good (unit : vf_unit_t) (r : Run) : Prop :=
  unit.initialized ≠ 0 ∧ (unit.get_data = true → r.get.err = .VF_SUCCESS) ∧
    (unit.process_data = true → r.process.err = .VF_SUCCESS) ∧
    (unit.send_data = true → r.send.err = .VF_SUCCESS)

instance (unit : vf_unit_t) (r : Run) : Decidable (Good unit r) :=
  inferInstanceAs (Decidable (_ ∧ _ ∧ _ ∧ _))

def good (unit : vf_unit_t) (rs : List Run) : List Run := rs.filter fun r => Good unit r

/-- The counter has not wrapped, or each quotient is 0 with it and without the wrap. -/
def Counted (unit : vf_unit_t) (rs : List Run) : Prop :=
  let n := (good unit rs).length
  n < 2 ^ 32 ∨
    (n % 2 ^ 32 = 0 ∧ total (get_ms unit) (good unit rs) < n ∧
      total (process_ms unit) (good unit rs) < n ∧ total (send_ms unit) (good unit rs) < n) ∨
    total_of_all unit (good unit rs) < n % 2 ^ 32

/-! ## One run -/

/-- The statistics after one more run that succeeds. -/
def count (unit : vf_unit_t) (stats : vf_unit_stats_t) (r : Run) : vf_unit_stats_t where
  total_get_data_ms := u64 (stats.total_get_data_ms + get_ms unit r)
  total_process_data_ms := u64 (stats.total_process_data_ms + process_ms unit r)
  total_send_data_ms := u64 (stats.total_send_data_ms + send_ms unit r)
  total_ms :=
    u64 (stats.total_ms + u64 (u64 (get_ms unit r + process_ms unit r) + send_ms unit r))
  frames_processed := u32 (stats.frames_processed + 1)

theorem run_phase_success (op : Bool) (p : Phase) :
    (run_phase op p).1 = .VF_SUCCESS ↔ (op = true → p.err = .VF_SUCCESS) := by
  cases op <;> simp [run_phase]

/-- A run counts just if it is good. -/
theorem vf_unit_run.spec (unit : vf_unit_t) (r : Run) :
    ((vf_unit_run unit r).1 = .VF_SUCCESS ↔ Good unit r) ∧
      (vf_unit_run unit r).2 =
        if Good unit r then { unit with stats := count unit unit.stats r } else unit := by
  have hgood : Good unit r ↔ unit.initialized ≠ 0 ∧
      (run_phase unit.get_data r.get).1 = .VF_SUCCESS ∧
      (run_phase unit.process_data r.process).1 = .VF_SUCCESS ∧
      (run_phase unit.send_data r.send).1 = .VF_SUCCESS := by
    simp only [run_phase_success, Good]
  unfold vf_unit_run count get_ms process_ms send_ms
  rcases hget : run_phase unit.get_data r.get with ⟨err₁, t₁⟩
  rcases hprocess : run_phase unit.process_data r.process with ⟨err₂, t₂⟩
  rcases hsend : run_phase unit.send_data r.send with ⟨err₃, t₃⟩
  rw [hget, hprocess, hsend] at hgood
  by_cases hinit : unit.initialized = 0
  · simp [hgood, hinit]
  · by_cases h1 : err₁ = .VF_SUCCESS
    · by_cases h2 : err₂ = .VF_SUCCESS
      · by_cases h3 : err₃ = .VF_SUCCESS
        · simp [hgood, hinit, h1, h2, h3]
        · simp [hgood, hinit, h1, h2, h3]
      · simp [hgood, hinit, h1, h2]
    · simp [hgood, hinit, h1]

/-! ## All runs -/

/-- The statistics do not decide if a run succeeds. -/
theorem runs_count (rs : List Run) : ∀ unit : vf_unit_t,
    succeeded unit rs = good unit rs ∧
      (vf_unit_runs unit rs).2 =
        { unit with stats := (good unit rs).foldl (count unit) unit.stats } := by
  induction rs with
  | nil => exact fun unit => ⟨rfl, rfl⟩
  | cons r rest ih =>
    intro unit
    obtain ⟨hgood, hunit⟩ := vf_unit_run.spec unit r
    obtain ⟨hlog, hrest⟩ := ih (vf_unit_run unit r).2
    unfold succeeded at hlog ⊢
    simp only [vf_unit_runs, good, List.filter_cons] at hlog hrest ⊢
    by_cases h : Good unit r
    · rw [if_pos h] at hunit
      rw [hunit] at hlog hrest ⊢
      simp only [hgood.mpr h, h, decide_true, if_true, List.map_cons, List.foldl_cons]
      exact ⟨congrArg (r :: ·) hlog, hrest⟩
    · rw [if_neg h] at hunit
      rw [hunit] at hlog hrest ⊢
      simp only [mt hgood.mp h, h, decide_false, Bool.false_eq_true, if_false]
      exact ⟨hlog, hrest⟩

/-- A total of 64 bits over runs that fit in it. -/
theorem total_counts {unit : vf_unit_t} (field : vf_unit_stats_t → Nat) (ms : Run → Nat)
    (hfield : ∀ stats r, field (count unit stats r) = u64 (field stats + ms r)) (rs : List Run)
    (stats : vf_unit_stats_t) (h : field stats + total ms rs < 2 ^ 64) :
    field (rs.foldl (count unit) stats) = field stats + total ms rs := by
  induction rs generalizing stats with
  | nil => rfl
  | cons r rest ih =>
    have hcons : total ms (r :: rest) = ms r + total ms rest := List.sum_cons
    have hone : field (count unit stats r) = field stats + ms r := by
      rw [hfield]
      exact Nat.mod_eq_of_lt (by omega)
    rw [List.foldl_cons, ih _ (by omega), hone]
    omega

/-- The counter of 32 bits. -/
theorem frames_count (unit : vf_unit_t) (rs : List Run) (stats : vf_unit_stats_t)
    (h : stats.frames_processed < 2 ^ 32) :
    (rs.foldl (count unit) stats).frames_processed = u32 (stats.frames_processed + rs.length) := by
  induction rs generalizing stats with
  | nil => exact (u32_of_lt h).symm
  | cons r rest ih =>
    have hone : (count unit stats r).frames_processed = u32 (stats.frames_processed + 1) := rfl
    rw [List.foldl_cons, ih _ (hone ▸ u32_lt _), hone, List.length_cons]
    unfold u32
    omega

theorem total_add (f g : Run → Nat) (rs : List Run) :
    total (fun r => f r + g r) rs = total f rs + total g rs :=
  List.sum_map_add

theorem u64_sum (a b c d : Nat) : u64 (a + u64 (u64 (b + c) + d)) = u64 (a + (b + c + d)) := by
  unfold u64
  omega

/-- What the counters hold after runs that fit. -/
theorem fresh_count (unit : vf_unit_t) (rs : List Run) (h : total_of_all unit rs < 2 ^ 64) :
    rs.foldl (count unit) unit.fresh.stats =
      ⟨total (get_ms unit) rs, total (process_ms unit) rs, total (send_ms unit) rs,
        total_of_all unit rs, u32 rs.length⟩ := by
  have hall : total (fun r => get_ms unit r + process_ms unit r + send_ms unit r) rs =
      total_of_all unit rs := by
    rw [total_add, total_add, total_of_all]
  unfold total_of_all at h
  have hget := total_counts (·.total_get_data_ms) (get_ms unit) (fun _ _ => rfl) rs
    unit.fresh.stats (by simp only [vf_unit_t.fresh]; omega)
  have hprocess := total_counts (·.total_process_data_ms) (process_ms unit) (fun _ _ => rfl) rs
    unit.fresh.stats (by simp only [vf_unit_t.fresh]; omega)
  have hsend := total_counts (·.total_send_data_ms) (send_ms unit) (fun _ _ => rfl) rs
    unit.fresh.stats (by simp only [vf_unit_t.fresh]; omega)
  have htotal := total_counts (·.total_ms) _ (fun stats r => u64_sum stats.total_ms _ _ _) rs
    unit.fresh.stats (by rw [hall, total_of_all]; simp only [vf_unit_t.fresh]; omega)
  have hframes := frames_count unit rs unit.fresh.stats (Nat.two_pow_pos 32)
  rw [hall] at htotal
  simp only [vf_unit_t.fresh, Nat.zero_add] at hget hprocess hsend htotal hframes ⊢
  rcases hstats : rs.foldl (count unit) ⟨0, 0, 0, 0, 0⟩ with ⟨a, b, c, d, e⟩
  rw [hstats] at hget hprocess hsend htotal hframes
  simp only at hget hprocess hsend htotal hframes
  rw [hget, hprocess, hsend, htotal, hframes]

/-! ## The averages -/

/-- A quotient by a counter that has wrapped is right just if it is 0. -/
theorem div_wrapped (t : Nat) {n : Nat} (hwrap : 2 ^ 32 ≤ n) (hne : n % 2 ^ 32 ≠ 0) :
    t / (n % 2 ^ 32) = t / n ↔ t < n % 2 ^ 32 := by
  have hlt : n % 2 ^ 32 < 2 ^ 32 := Nat.mod_lt n (by decide)
  constructor
  · intro heq
    by_contra hge
    -- the wrapped counter goes more often into the total, by a factor of two at least
    have hq : 1 ≤ t / n := by
      rw [← heq]
      exact Nat.div_pos (by omega) (by omega)
    have hn : t / n * n ≤ t := Nat.div_mul_le_self t n
    have hdouble : 2 * (n % 2 ^ 32) ≤ n := by omega
    have hmul : t / n * (2 * (n % 2 ^ 32)) ≤ t / n * n := Nat.mul_le_mul_left _ hdouble
    have hle : 2 * (t / n) ≤ t / (n % 2 ^ 32) := by
      rw [Nat.le_div_iff_mul_le (by omega)]
      have hcomm : 2 * (t / n) * (n % 2 ^ 32) = t / n * (2 * (n % 2 ^ 32)) := by ring
      omega
    omega
  · intro hsmall
    rw [Nat.div_eq_of_lt hsmall, Nat.div_eq_of_lt (by omega)]

/-- What is reported with `n` runs counted, if it is right. -/
theorem reported_iff {unit : vf_unit_t} {n g p s : Nat} (hinit : n ≠ 0 → unit.initialized ≠ 0) :
    averages ⟨g, p, s, g + p + s, u32 n⟩ = (g / n, p / n, s / n) ∧
        (∀ r ∈ (vf_unit_destroy { unit with stats := ⟨g, p, s, g + p + s, u32 n⟩ }).2,
          r.avg_get = g / n ∧ r.avg_process = p / n ∧ r.avg_send = s / n ∧
            r.avg_total = (g + p + s) / n) ↔
      n < 2 ^ 32 ∨ (n % 2 ^ 32 = 0 ∧ g < n ∧ p < n ∧ s < n) ∨ g + p + s < n % 2 ^ 32 := by
  by_cases hsmall : n < 2 ^ 32
  · -- the counter is the number of runs
    refine iff_of_true ⟨?_, ?_⟩ (.inl hsmall)
    · rw [u32_of_lt hsmall, averages]
      split
      · rfl
      · have hzero : n = 0 := by
          simp only at *
          omega
        simp [hzero]
    · intro r hr
      rw [u32_of_lt hsmall] at hr
      simp only [vf_unit_destroy] at hr
      split at hr
      · cases hr
      · split at hr
        · cases hr
          exact ⟨rfl, rfl, rfl, rfl⟩
        · cases hr
  · have hne : unit.initialized ≠ 0 := hinit (by omega)
    by_cases hzero : n % 2 ^ 32 = 0
    · -- a counter of 0 reports zeros, and nothing in the log
      have hcounter : u32 n = 0 := hzero
      simp only [averages, vf_unit_destroy, hcounter, hne, hsmall, hzero, gt_iff_lt,
        Nat.lt_irrefl, if_false, Option.not_mem_none, false_imp_iff, implies_true, and_true,
        Prod.mk.injEq, false_or, true_and, eq_comm (a := 0), Nat.div_eq_zero_iff]
      omega
    · have hcounter : u32 n = n % 2 ^ 32 := rfl
      have hpos : 0 < n % 2 ^ 32 := by omega
      have hdiv := fun t => div_wrapped t (not_lt.mp hsmall) hzero
      simp only [averages, vf_unit_destroy, hcounter, hne, hsmall, hzero, hpos, if_true,
        if_false, Option.mem_def, Option.some.injEq, forall_eq', Prod.mk.injEq, hdiv, false_or,
        false_and]
      omega

/-! ## The law -/

/-- The statistics are right after any runs whose times fit in 64 bits, just if the counter has
not wrapped, or the wrapped counter gives the same quotients of 0. -/
theorem the_statistics_are_right_just_if_the_runs_are_counted (unit : vf_unit_t) (rs : List Run)
    (hfit : total_of_all unit.fresh (good unit.fresh rs) < 2 ^ 64) :
    Truthful unit.fresh rs ↔ Counted unit.fresh rs := by
  obtain ⟨hgood, hunit⟩ := runs_count rs unit.fresh
  have hstats := fresh_count unit.fresh (good unit.fresh rs) hfit
  change (good unit.fresh rs).foldl (count unit.fresh) unit.fresh.stats = _ at hstats
  rw [hstats] at hunit
  have hinit : (good unit.fresh rs).length ≠ 0 → unit.fresh.initialized ≠ 0 := by
    intro hlen
    obtain ⟨r, hr⟩ := List.exists_mem_of_length_pos (Nat.pos_of_ne_zero hlen)
    exact (of_decide_eq_true (List.mem_filter.mp hr).2).1
  have hreported := reported_iff (g := total (get_ms unit.fresh) (good unit.fresh rs))
    (p := total (process_ms unit.fresh) (good unit.fresh rs))
    (s := total (send_ms unit.fresh) (good unit.fresh rs)) hinit
  refine Iff.trans ?_ hreported
  constructor
  · rintro ⟨-, -, -, -, havg, hreport⟩
    rw [hgood, hunit] at havg hreport
    exact ⟨havg, hreport⟩
  · rintro ⟨havg, hreport⟩
    refine ⟨?_, ?_, ?_, ?_, ?_, ?_⟩
    · rw [hunit, hgood]
    · rw [hunit, hgood]
    · rw [hunit, hgood]
    · rw [hunit]
      rfl
    · rw [hunit, hgood]
      exact havg
    · rw [hunit, hgood]
      exact hreport

/-- An operation that takes 7 ms. -/
def seven_ms : Phase := ⟨.VF_SUCCESS, ⟨1, 999000000⟩, ⟨2, 6000000⟩⟩

def seven_ms_run : Run := ⟨seven_ms, seven_ms, seven_ms⟩

/-- The camera, which has all three operations. -/
def camera_unit : vf_unit_t := ⟨some "camera_in".toList, 1, true, true, true, ⟨0, 0, 0, 0, 0⟩⟩

theorem three_runs_are_counted :
    Truthful camera_unit.fresh (List.replicate 3 seven_ms_run) :=
  (the_statistics_are_right_just_if_the_runs_are_counted camera_unit _ (by decide)).mpr
    (.inl (by decide))

section
variable {unit : vf_unit_t} {r : Run} (n : Nat)

theorem good_replicate (h : Good unit r) :
    good unit (List.replicate n r) = List.replicate n r := by
  unfold good
  rw [List.filter_replicate, if_pos (decide_eq_true h)]

theorem total_replicate (ms : Run → Nat) : total ms (List.replicate n r) = n * ms r := by
  unfold total
  rw [List.map_replicate, List.sum_replicate, smul_eq_mul]

end

/-- After 2 ^ 32 runs of 7 ms, the average is reported as 0. -/
theorem a_wrapped_counter_reports_zero :
    ¬ ∀ (unit : vf_unit_t) (rs : List Run),
      total_of_all unit.fresh (good unit.fresh rs) < 2 ^ 64 → Truthful unit.fresh rs := by
  intro h
  have hgood : good camera_unit.fresh (List.replicate (2 ^ 32) seven_ms_run) = _ :=
    good_replicate _ (by decide)
  have hfit : total_of_all camera_unit.fresh (List.replicate (2 ^ 32) seven_ms_run) < 2 ^ 64 := by
    rw [total_of_all, total_replicate, total_replicate, total_replicate]
    decide
  obtain ⟨hlog, hunit⟩ := runs_count (List.replicate (2 ^ 32) seven_ms_run)
    camera_unit.fresh
  rw [hgood] at hlog hunit
  have hstats := fresh_count camera_unit.fresh _ hfit
  change List.foldl (count camera_unit.fresh) camera_unit.fresh.stats _ = _ at hstats
  have havg := (h camera_unit _ (hgood.symm ▸ hfit)).averages
  rw [hunit, hstats, hlog, List.length_replicate, total_replicate] at havg
  have hget := congrArg Prod.fst havg
  have hseven : get_ms camera_unit.fresh seven_ms_run = 7 := by decide
  rw [hseven] at hget
  exact absurd hget (by decide)

end vision_flow.unit_stats
