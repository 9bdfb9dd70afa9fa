-- Starts and stops of a pipeline (vf-pipeline-mgr.c) whose pthread calls fail. A start
-- that fails behind its first unit rolls back and forgets its error, and a stop forgets
-- each error and reads a unit that does not exist.
import VisionFlow.Lifecycle

namespace vision_flow.pipeline_failures

open programs units lifecycle

/-! ## Pipelines and their threads -/

def VF_PIPELINE_MAX_UNITS : Nat := 8

/-- The units of an initialised pipeline. -/
structure Pipeline (U : Type) where
  units : List U
  at_least_two : 2 ≤ units.length
  fits : units.length ≤ VF_PIPELINE_MAX_UNITS
  distinct : units.Nodup

theorem Pipeline.has_last {U : Type} (P : Pipeline U) : ∃ u, P.units.getLast? = some u := by
  have hne : P.units ≠ [] := fun h => by
    have := P.at_least_two
    simp [h] at this
  exact ⟨_, List.getLast?_eq_some_getLast hne⟩

/-- Which of the pthread calls succeed. -/
structure Pthread (U : Type) where
  create : U → Bool
  join : U → Bool

/-- `threads u` is the number of threads of the unit that are not joined. `created` are the
units that got a thread in this call, and `stops` those that `vf_unit_stop` was called for. -/
structure St (U : Type) where
  running : U → Bool
  threads : U → Nat
  created : List U
  stops : List U
  response : Option String

/-- Between two calls. A unit that runs has a thread. -/
structure Before (U : Type) where
  running : U → Bool
  threads : U → Nat
  live : ∀ u, running u = true → 0 < threads u

/-- Where a call begins. -/
def Before.state {U : Type} (b : Before U) : St U := ⟨b.running, b.threads, [], [], none⟩

/-- No unit was started yet. -/
def Before.fresh (U : Type) : Before U := ⟨fun _ => false, fun _ => 0, by simp⟩

variable {U Q : Type} [DecidableEq U]

/-- The command is done. `vf_unit_stop` is the only one to load `running`. -/
def answer (p : Pthread U) : (c : CtlCmd U Q) → St U → Option (c.Res × St U)
  | .initialized _, s => some (true, s)
  | .set_running u b, s => some ((), { s with running := Function.update s.running u b })
  | .load_running u, s => some (s.running u, { s with stops := s.stops ++ [u] })
  | .pthread_create u, s =>
    if p.create u then
      some (true, { s with
        threads := Function.update s.threads u (s.threads u + 1), created := s.created ++ [u] })
    else some (false, s)
  | .pthread_join u, s =>
    if p.join u then
      some (true, { s with threads := Function.update s.threads u (s.threads u - 1) })
    else some (false, s)
  | .pool_reset _, s => some ((), s)
  | .pool_shutdown _, s => some ((), s)
  | .queue_reset _, s => some ((), s)
  | .queue_shutdown _, s => some ((), s)
  | .send_response response, s => some ((), { s with response := some response })
  | .send_stats, s => some ((), s)

/-- The unit does not run, and each of its threads is joined. -/
def Stopped (s : St U) (u : U) : Prop := s.running u = false ∧ s.threads u = 0

/-! ## One unit -/

variable (p : Pthread U) (in_queue : U → Option Q)

/-- The unit gets a thread. -/
def launch (s : St U) (u : U) : St U :=
  { s with
    running := Function.update s.running u true
    threads := Function.update s.threads u (s.threads u + 1)
    created := s.created ++ [u] }

/-- A call of `vf_unit_stop`. -/
def halt (s : St U) (u : U) : St U :=
  { s with
    running := Function.update s.running u false
    threads := if s.running u ∧ p.join u then Function.update s.threads u (s.threads u - 1)
      else s.threads
    stops := s.stops ++ [u] }

/-- What that call returns. -/
def halt_err (s : St U) (u : U) : vf_err_t :=
  if s.running u ∧ p.join u = false then .VF_SYNC_ERROR else .VF_SUCCESS

theorem vf_unit_start.spec (u : U) (s : St U) :
    exec (answer p) (vf_unit_start u : CtlCode U Q vf_err_t) s =
      if p.create u then some (.VF_SUCCESS, launch s u)
      else some (.VF_SYNC_ERROR, { s with running := Function.update s.running u false }) := by
  unfold vf_unit_start
  by_cases h : p.create u = true <;> simp [answer, h, launch]

theorem vf_unit_stop.spec (u : U) (s : St U) :
    exec (answer p) (vf_unit_stop in_queue u) s = some (halt_err p s u, halt p s u) := by
  unfold vf_unit_stop halt_err halt
  by_cases hrun : s.running u = true
  · rcases hq : in_queue u with _ | q <;> by_cases h : p.join u = true <;>
      simp [answer, hrun, h]
  · have hsame : Function.update s.running u false = s.running := by
      rw [Function.update_eq_self_iff]
      simpa using hrun
    simp [answer, hrun, hsame]

/-! ## All units, one after the other -/

theorem launch_all.running (units : List U) (s : St U) (v : U) :
    (units.foldl launch s).running v = if v ∈ units then true else s.running v := by
  induction units generalizing s with
  | nil => simp
  | cons u rest ih =>
    rw [List.foldl_cons, ih]
    by_cases hv : v = u <;> simp [launch, hv]

theorem launch_all.threads {units : List U} (h : units.Nodup) (s : St U) (v : U) :
    (units.foldl launch s).threads v = if v ∈ units then s.threads v + 1 else s.threads v := by
  induction units generalizing s with
  | nil => simp
  | cons u rest ih =>
    obtain ⟨hu, hrest⟩ := List.nodup_cons.mp h
    rw [List.foldl_cons, ih hrest]
    by_cases hv : v = u
    · subst hv
      simp [launch, hu]
    · simp [launch, hv]

theorem launch_all.created (units : List U) (s : St U) :
    (units.foldl launch s).created = s.created ++ units := by
  induction units generalizing s with
  | nil => simp
  | cons u rest ih =>
    rw [List.foldl_cons, ih]
    simp [launch]

theorem halt_all.running (units : List U) (s : St U) (v : U) :
    (units.foldl (halt p) s).running v = if v ∈ units then false else s.running v := by
  induction units generalizing s with
  | nil => simp
  | cons u rest ih =>
    rw [List.foldl_cons, ih]
    by_cases hv : v = u <;> simp [halt, hv]

theorem halt_all.threads {units : List U} (h : units.Nodup) (s : St U) (v : U) :
    (units.foldl (halt p) s).threads v =
      if v ∈ units ∧ s.running v ∧ p.join v then s.threads v - 1 else s.threads v := by
  induction units generalizing s with
  | nil => simp
  | cons u rest ih =>
    obtain ⟨hu, hrest⟩ := List.nodup_cons.mp h
    rw [List.foldl_cons, ih hrest]
    by_cases hv : v = u
    · subst hv
      by_cases hj : s.running v = true ∧ p.join v = true <;> simp [halt, hu, hj]
    · have hthreads : (halt p s u).threads v = s.threads v := by
        unfold halt
        dsimp only
        split
        · rw [Function.update_of_ne hv]
        · rfl
      have hrunning : (halt p s u).running v = s.running v := Function.update_of_ne hv _ _
      simp [hthreads, hrunning, hv]

theorem halt_all.stops (units : List U) (s : St U) :
    (units.foldl (halt p) s).stops = s.stops ++ units := by
  induction units generalizing s with
  | nil => simp
  | cons u rest ih =>
    rw [List.foldl_cons, ih]
    simp [halt]

theorem halt_all.created (units : List U) (s : St U) :
    (units.foldl (halt p) s).created = s.created := by
  induction units generalizing s with
  | nil => rfl
  | cons u rest ih => exact ih (halt p s u)

/-! ## Between two calls -/

/-- What `Before` says of a state. -/
def Live (s : St U) : Prop := ∀ u, s.running u = true → 0 < s.threads u

theorem launch.live {s : St U} (h : Live s) (u : U) : Live (launch s u) := by
  intro v hv
  by_cases hvu : v = u
  · simp [launch, hvu]
  · simp only [launch, Function.update_of_ne hvu] at hv ⊢
    exact h v hv

/-- A unit that does not run is no matter here. -/
theorem live_without {s : St U} (h : Live s) (u : U) :
    Live { s with running := Function.update s.running u false } := by
  intro v hv
  by_cases hvu : v = u
  · simp [hvu] at hv
  · exact h v (by simpa [hvu] using hv)

theorem halt.live {s : St U} (h : Live s) (u : U) : Live (halt p s u) := by
  intro v hv
  by_cases hvu : v = u
  · simp [halt, hvu] at hv
  · have hrun : s.running v = true := by simpa [halt, hvu] using hv
    have hthreads : (halt p s u).threads v = s.threads v := by
      unfold halt
      split <;> simp [hvu]
    rw [hthreads]
    exact h v hrun

omit [DecidableEq U] in
theorem foldl_live {f : St U → U → St U} (hf : ∀ s u, Live s → Live (f s u)) (units : List U)
    {s : St U} (h : Live s) : Live (units.foldl f s) := by
  induction units generalizing s with
  | nil => exact h
  | cons u rest ih => exact ih (hf s u h)

/-! ## A start -/

theorem roll_back.spec (started : List U) (err : vf_err_t) (s : St U) :
    ∃ err', exec (answer p) (roll_back in_queue err started) s =
      some (err', started.foldl (halt p) s) := by
  induction started generalizing err s with
  | nil => exact ⟨err, rfl⟩
  | cons u rest ih =>
    unfold roll_back
    rw [exec_bind, vf_unit_stop.spec]
    exact ih (halt_err p s u) (halt p s u)

/-- Only the code of the last call is left. -/
theorem roll_back.forgets (started : List U) (u : U) (err : vf_err_t) (s : St U) :
    exec (answer p) (roll_back in_queue err (started ++ [u])) s =
      some (halt_err p (started.foldl (halt p) s) u,
        (started ++ [u]).foldl (halt p) s) := by
  induction started generalizing err s with
  | nil =>
    simp only [List.nil_append, roll_back, exec_bind, vf_unit_stop.spec]
    rfl
  | cons v rest ih =>
    rw [List.cons_append, roll_back, exec_bind, vf_unit_stop.spec]
    exact ih (halt_err p s v) (halt p s v)

/-- The units that are launched before the first failure. -/
theorem start_units.launches (started before rest : List U) (s : St U)
    (h : ∀ v ∈ before, p.create v = true) :
    exec (answer p) (start_units in_queue started (before ++ rest)) s =
      exec (answer p) (start_units in_queue (before.reverse ++ started) rest)
        (before.foldl launch s) := by
  induction before generalizing started s with
  | nil => rfl
  | cons u before ih =>
    obtain ⟨hu, hbefore⟩ := List.forall_mem_cons.mp h
    rw [List.cons_append, start_units, exec_bind, vf_unit_start.spec, if_pos hu]
    simp only [Option.bind_some, ne_eq, not_true_eq_false, if_false]
    rw [ih _ _ hbefore]
    simp

theorem start_units.all_created (units : List U) (s : St U)
    (h : ∀ v ∈ units, p.create v = true) :
    exec (answer p) (start_units in_queue [] units) s =
      some (.VF_SUCCESS, units.foldl launch s) := by
  have hrun := start_units.launches p in_queue [] units [] s h
  rw [List.append_nil] at hrun
  rw [hrun]
  rfl

theorem start_units.fails (before after : List U) (u : U) (s : St U)
    (h : ∀ v ∈ before, p.create v = true) (hu : p.create u = false) :
    exec (answer p) (start_units in_queue [] (before ++ u :: after)) s =
      exec (answer p) (roll_back in_queue .VF_SYNC_ERROR before.reverse)
        { before.foldl launch s with
          running := Function.update (before.foldl launch s).running u false } := by
  rw [start_units.launches p in_queue [] before (u :: after) s h]
  simp only [start_units, exec_bind, vf_unit_start.spec, hu, Bool.false_eq_true, if_false,
    Option.bind_some, List.append_nil]
  rfl

theorem vf_pipeline_start.eq_start_units (units : List U) (s : St U) :
    exec (answer p) (vf_pipeline_start in_queue units) s =
      exec (answer p) (start_units in_queue [] units) s := by
  unfold vf_pipeline_start
  simp [answer]

omit [DecidableEq U] in
/-- The first unit that fails, if there is one. -/
theorem first_failure (ok : U → Prop) (units : List U) :
    (∀ v ∈ units, ok v) ∨
      ∃ before u after, units = before ++ u :: after ∧ (∀ v ∈ before, ok v) ∧ ¬ ok u := by
  induction units with
  | nil => simp
  | cons u rest ih =>
    by_cases hu : ok u
    · rcases ih with hall | ⟨before, v, after, rfl, hbefore, hv⟩
      · exact Or.inl (List.forall_mem_cons.mpr ⟨hu, hall⟩)
      · exact Or.inr ⟨u :: before, v, after, rfl, List.forall_mem_cons.mpr ⟨hu, hbefore⟩, hv⟩
    · exact Or.inr ⟨[], u, rest, rfl, by simp, hu⟩

omit [DecidableEq U] in
/-- The first unit whose thread is not created, if there is one. -/
theorem first_not_created (p : Pthread U) (units : List U) :
    (∀ v ∈ units, p.create v = true) ∨
      ∃ before u after, units = before ++ u :: after ∧ (∀ v ∈ before, p.create v = true) ∧
        p.create u = false := by
  simpa using first_failure (fun v => p.create v = true) units

/-- A start leaves a state that another call may begin in. -/
theorem vf_pipeline_start.live (units : List U) {s s' : St U} {err : vf_err_t} (h : Live s)
    (hrun : exec (answer p) (vf_pipeline_start in_queue units) s = some (err, s')) : Live s' := by
  have hlaunched : ∀ before : List U, Live (before.foldl launch s) :=
    fun before => foldl_live (fun _ u h => launch.live h u) before h
  rw [vf_pipeline_start.eq_start_units] at hrun
  rcases first_not_created p units with hall | ⟨before, u, after, rfl, hbefore, hu⟩
  · rw [start_units.all_created p in_queue _ _ hall] at hrun
    cases hrun
    exact hlaunched units
  · rw [start_units.fails p in_queue before after u s hbefore hu] at hrun
    obtain ⟨err', hback⟩ := roll_back.spec p in_queue before.reverse .VF_SYNC_ERROR
      { before.foldl launch s with
        running := Function.update (before.foldl launch s).running u false }
    rw [hback] at hrun
    cases hrun
    exact foldl_live (fun _ u h => halt.live p h u) _ (live_without (hlaunched before) u)

/-- What a start must come to: it succeeds only with a thread for each unit, and where a
creation fails, the units before are stopped, none runs, and the caller hears of it. -/
structure Reported (P : Pipeline U) (p : Pthread U) (err : vf_err_t) (s : St U) : Prop where
  success : err = .VF_SUCCESS → ∀ u ∈ P.units, u ∈ s.created
  failure : ∀ before u after, P.units = before ++ u :: after →
    (∀ v ∈ before, p.create v = true) → p.create u = false →
      (∀ v ∈ before, Stopped s v) ∧ (∀ v ∈ P.units, s.running v = false) ∧ err ≠ .VF_SUCCESS

/-- Every creation succeeds, or that of the first unit fails and no other unit ran. -/
def NoRollBack (P : Pipeline U) (p : Pthread U) (b : Before U) : Prop :=
  (∀ u ∈ P.units, p.create u = true) ∨
    ∃ u after, P.units = u :: after ∧ p.create u = false ∧ ∀ v ∈ after, b.running v = false

section
variable (P : Pipeline U) (b : Before U)

theorem reported_all_created (h : ∀ v ∈ P.units, p.create v = true) (s : St U) :
    Reported P p .VF_SUCCESS (P.units.foldl launch s) := by
  refine ⟨fun _ u hu => ?_, ?_⟩
  · rw [launch_all.created]
    exact List.mem_append_right _ hu
  · intro before u after heq _ hu
    rw [h u (by simp [heq])] at hu
    cases hu

theorem reported_first_fails {u : U} {after : List U} (heq : P.units = u :: after)
    (hu : p.create u = false) (s : St U) :
    Reported P p .VF_SYNC_ERROR { s with running := Function.update s.running u false } ↔
      ∀ v ∈ after, s.running v = false := by
  have hnot : u ∉ after := (List.nodup_cons.mp (heq ▸ P.distinct)).1
  have hothers : ∀ v ∈ after, v ≠ u := fun v hv he => hnot (he ▸ hv)
  constructor
  · rintro ⟨-, hfail⟩ v hv
    have hstopped := (hfail [] u after heq (by simp) hu).2.1 v (by simp [heq, hv])
    simpa [hothers v hv] using hstopped
  · intro h
    refine ⟨fun he => (by cases he), ?_⟩
    intro before w after' heq' hbefore _
    -- the unit that fails is the first one
    have hnil : before = [] := by
      rcases before with _ | ⟨v, before⟩
      · rfl
      · have hv : v = u := by
          rw [heq, List.cons_append] at heq'
          exact (List.cons.inj heq').1.symm
        rw [← hv, hbefore v List.mem_cons_self] at hu
        cases hu
    refine ⟨by simp [hnil], ?_, by decide⟩
    intro v hv
    rw [heq] at hv
    rcases List.mem_cons.mp hv with rfl | hv
    · simp
    · simpa [hothers v hv] using h v hv

/-- A roll-back that joins its last thread returns success, and one that does not has left
this thread. -/
theorem roll_back_not_reported {first u : U} {more after : List U}
    (heq : P.units = first :: more ++ u :: after)
    (hbefore : ∀ v ∈ first :: more, p.create v = true) (hu : p.create u = false) :
    ∃ err s, exec (answer p) (start_units in_queue [] P.units) b.state =
      some (err, s) ∧ ¬ Reported P p err s := by
  have hnodup : (first :: more).Nodup := by
    have := P.distinct
    rw [heq] at this
    exact this.of_append_left
  have hreverse : (first :: more).reverse = more.reverse ++ [first] := by simp
  rw [heq, start_units.fails p in_queue _ _ _ _ hbefore hu, hreverse, roll_back.forgets]
  refine ⟨_, _, rfl, ?_⟩
  intro h
  obtain ⟨hstopped, -, herr⟩ := h.failure (first :: more) u after heq hbefore hu
  by_cases hjoin : p.join first = true
  · apply herr
    simp [halt_err, hjoin]
  · have hleft := (hstopped first List.mem_cons_self).2
    rw [← hreverse, halt_all.threads p (List.nodup_reverse.mpr hnodup),
      if_neg (fun hc => hjoin hc.2.2)] at hleft
    dsimp only at hleft
    rw [launch_all.threads hnodup, if_pos List.mem_cons_self] at hleft
    omega

theorem vf_pipeline_start.spec :
    ∃ err s, exec (answer p) (vf_pipeline_start in_queue P.units) b.state =
      some (err, s) ∧ (Reported P p err s ↔ NoRollBack P p b) := by
  rw [vf_pipeline_start.eq_start_units]
  rcases first_not_created p P.units with hall | ⟨before, u, after, heq, hbefore, hu⟩
  · rw [start_units.all_created p in_queue _ _ hall]
    refine ⟨_, _, rfl, ?_⟩
    exact iff_of_true (reported_all_created p P hall _) (Or.inl hall)
  · have hsome : ¬ ∀ v ∈ P.units, p.create v = true := fun h => by
      rw [h u (by simp [heq])] at hu
      cases hu
    rcases before with _ | ⟨first, more⟩
    · rw [heq, start_units.fails p in_queue [] after u _ hbefore hu]
      refine ⟨_, _, rfl, ?_⟩
      rw [List.nil_append] at heq
      refine (reported_first_fails p P heq hu b.state).trans ?_
      constructor
      · exact fun h => Or.inr ⟨u, after, heq, hu, h⟩
      · rintro (h | ⟨w, after', heq', -, h⟩)
        · exact absurd h hsome
        · rw [heq] at heq'
          obtain ⟨-, rfl⟩ := List.cons.inj heq'
          exact h
    · obtain ⟨err, s, hrun, hnot⟩ :=
        roll_back_not_reported p in_queue P b heq hbefore hu
      refine ⟨err, s, hrun, iff_of_false hnot ?_⟩
      rintro (h | ⟨w, after', heq', hw, -⟩)
      · exact hsome h
      · rw [heq, List.cons_append] at heq'
        rw [← (List.cons.inj heq').1, hbefore first List.mem_cons_self] at hw
        cases hw

end

/-! ## The service -/

def service_pipeline : Pipeline UnitId :=
  ⟨pipeline_units, by decide, by decide, by decide⟩

/-- The reply to a start request, which a client takes for the truth. -/
structure StartReplied (p : Pthread UnitId) (s : St UnitId) : Prop where
  success : s.response = some started_response → ∀ u ∈ pipeline_units, u ∈ s.created
  failure : (∃ u ∈ pipeline_units, p.create u = false) → s.response ≠ some started_response

section
variable (q : Pthread UnitId)

theorem vf_service_start.eq_pipeline_start (s : St UnitId) :
    exec (answer q) vf_service_start s =
      exec (answer q) (vf_pipeline_start (fun u => u.unit.in_queue) pipeline_units) s := by
  unfold vf_service_start
  simp only [exec_bind, exec_perform, answer, Option.bind_some, Bool.not_true,
    Bool.false_eq_true, if_false]
  rcases exec (answer q) (vf_pipeline_start _ pipeline_units) s with _ | ⟨err, s'⟩
  · rfl
  · by_cases herr : err = .VF_SUCCESS <;> simp [herr]

/-- The reply tells what `vf_service_start` returned. -/
theorem handle_start.spec {s s' : St UnitId} {err : vf_err_t}
    (h : exec (answer q) vf_service_start s = some (err, s')) :
    exec (answer q) handle_start s = some ((), { s' with
      response := some (if err = .VF_SUCCESS then started_response
        else error_response "failed to start service") }) := by
  unfold handle_start
  rw [exec_bind, h]
  by_cases herr : err = .VF_SUCCESS <;> simp [herr, send_error, answer]

theorem started_response_tells {err : vf_err_t} {message : String}
    (h : error_response message ≠ started_response) :
    some (if err = .VF_SUCCESS then started_response else error_response message) =
      some started_response ↔ err = .VF_SUCCESS := by
  by_cases herr : err = .VF_SUCCESS <;> simp [herr, h]

theorem start_replied {s : St UnitId} {err : vf_err_t} (h : Reported service_pipeline q err s) :
    StartReplied q { s with
      response := some (if err = .VF_SUCCESS then started_response
        else error_response "failed to start service") } := by
  have hother : error_response "failed to start service" ≠ started_response := by decide
  have htells : some (if err = .VF_SUCCESS then started_response
      else error_response "failed to start service") = some started_response ↔
        err = .VF_SUCCESS := started_response_tells hother
  refine ⟨fun hr => h.success (htells.mp hr), ?_⟩
  rintro ⟨w, hw, hfails⟩ hr
  rcases first_not_created q service_pipeline.units with hall | ⟨before, u, after, heq, hbefore, hu⟩
  · rw [hall w hw] at hfails
    cases hfails
  · exact (h.failure before u after heq hbefore hu).2.2 (htells.mp hr)

end

/-! ## A failed start is reported and undone just where nothing is rolled back -/

/-- A start does what its callers expect, also those that call the service or send a start
request, just if every thread is created, or the first one is not and no other unit ran. -/
theorem a_failed_start_is_reported_just_without_a_roll_back :
    (∀ (P : Pipeline U) (p : Pthread U) (in_queue : U → Option Q) (b : Before U), ∃ err s,
      exec (answer p) (vf_pipeline_start in_queue P.units) b.state =
        some (err, s) ∧ (Reported P p err s ↔ NoRollBack P p b)) ∧
    ∀ (p : Pthread UnitId) (b : Before UnitId), ∃ err s s',
      exec (answer p) vf_service_start b.state = some (err, s) ∧
      exec (answer p) handle_start b.state = some ((), s') ∧
      (Reported service_pipeline p err s ∧ StartReplied p s' ↔
        NoRollBack service_pipeline p b) := by
  refine ⟨fun P p in_queue b => vf_pipeline_start.spec p in_queue P b, ?_⟩
  intro p b
  obtain ⟨err, s, hrun, hiff⟩ :=
    vf_pipeline_start.spec p (fun u => u.unit.in_queue) service_pipeline b
  have hservice := (vf_service_start.eq_pipeline_start p b.state).trans hrun
  refine ⟨err, s, _, hservice, handle_start.spec p hservice, ?_⟩
  rw [← hiff]
  exact ⟨fun h => h.1, fun h => ⟨h, start_replied p h⟩⟩

/-- The thread of the stream provider is not created. The camera is stopped again, and the
client is told that the service has started. -/
theorem a_service_without_threads_has_started :
    ∃ s s', exec (answer ⟨fun u => decide (u ≠ .stream_provider), fun _ => true⟩)
        vf_service_start (Before.fresh UnitId).state = some (.VF_SUCCESS, s) ∧
      exec (answer ⟨fun u => decide (u ≠ .stream_provider), fun _ => true⟩)
        handle_start (Before.fresh UnitId).state = some ((), s') ∧
      s'.response = some started_response ∧ UnitId.stream_provider ∉ s'.created ∧
      ¬ Reported service_pipeline ⟨fun u => decide (u ≠ .stream_provider), fun _ => true⟩
        .VF_SUCCESS s := by
  refine ⟨_, _, rfl, rfl, rfl, by decide, ?_⟩
  intro h
  have hcreated := h.success rfl .stream_provider (by decide)
  revert hcreated
  decide

/-! ## A stop, with the entries of `units[]` that it reads -/

/-- `pipeline->units[i]` is read, and dereferenced. -/
inductive Read
  | unit (i : Nat)

abbrev Read.Res : Read → Type
  | .unit _ => Unit

abbrev StopCode (U Q : Type) :=
  Prog (CtlCmd U Q ⊕ Read) (Sum.elim CtlCmd.Res Read.Res)

def read (i : Nat) : StopCode U Q Unit := .op (.inr (.unit i)) .ret

/-- A unit that does not exist is NULL. -/
def stop_unit (units : List U) (i : Nat) : StopCode U Q vf_err_t := do
  read i
  match units[i]? with
  | some u => (vf_unit_stop in_queue u).inl
  | none => return .VF_INVALID_PARAMETER

/-- The loop of `vf_pipeline_stop`. The loop variable is `i + 1`: the unit `i` is stopped, and
the message of an error reads the name of `units[i + 1]`. -/
def stop_units (units : List U) : Nat → StopCode U Q Unit
  | 0 => return ()
  | i + 1 => do
    let err ← stop_unit in_queue units i
    if err ≠ .VF_SUCCESS then
      read (i + 1)
    stop_units units i

def vf_pipeline_stop (units : List U) : StopCode U Q vf_err_t := do
  let init ← (ctl (.initialized .pipeline)).inl
  if !init then
    return .VF_INIT_FAILED
  stop_units in_queue units units.length
  return .VF_SUCCESS

def vf_service_stop : StopCode UnitId QueueId vf_err_t := do
  let init ← (ctl (.initialized .service)).inl
  if !init then
    return .VF_INIT_FAILED
  (ctl (.pool_shutdown .pool_in)).inl
  (ctl (.pool_shutdown .pool_out)).inl
  let err ← vf_pipeline_stop (fun u => u.unit.in_queue) pipeline_units
  if err ≠ .VF_SUCCESS then
    return err
  return .VF_SUCCESS

def handle_stop : StopCode UnitId QueueId Unit := do
  let err ← vf_service_stop
  if err ≠ .VF_SUCCESS then
    (send_error "failed to stop service").inl
  else
    (ctl (.send_response stopped_response)).inl

/-- `n` is the number of units. `units[n]` is NULL, or past the array: the program dies. -/
def answer_read (n : Nat) : (c : CtlCmd U Q ⊕ Read) → St U →
    Option (Sum.elim CtlCmd.Res Read.Res c × St U)
  | .inl c, s => answer p c s
  | .inr (.unit i), s => if i < n then some ((), s) else none

/-! ## Without the reads, it is the plain stop -/

/-- The code without its reads. -/
abbrev without_reads {α : Type} (code : StopCode U Q α) : CtlCode U Q α :=
  code.skip fun | .unit _ => ()

omit [DecidableEq U] in
theorem stop_unit.plain {units : List U} {i : Nat} {u : U} (h : units[i]? = some u) :
    without_reads (stop_unit in_queue units i) = vf_unit_stop in_queue u := by
  unfold stop_unit
  rw [h]
  exact skip_inl _ _

omit [DecidableEq U] in
theorem stop_units.plain (units : List U) (i : Nat) (hi : i ≤ units.length) :
    without_reads (stop_units in_queue units i) =
      lifecycle.stop_units in_queue (units.take i).reverse := by
  induction i with
  | zero => rfl
  | succ i ih =>
    have hget : units[i]? = some units[i] := List.getElem?_eq_getElem (by omega)
    have htake : units.take (i + 1) = units.take i ++ [units[i]] := by simp
    rw [htake, List.reverse_append, List.reverse_singleton, List.singleton_append,
      lifecycle.stop_units, ← ih (by omega), ← stop_unit.plain in_queue hget, stop_units]
    unfold without_reads
    rw [skip_bind]
    congr 1
    funext err
    by_cases herr : err = .VF_SUCCESS
    · simp [herr]
    · simp only [herr, ne_eq, not_false_eq_true, if_true, skip_bind]
      rfl

omit [DecidableEq U] in
theorem vf_pipeline_stop.plain (units : List U) :
    without_reads (vf_pipeline_stop in_queue units) =
      lifecycle.vf_pipeline_stop in_queue units := by
  have hunits := stop_units.plain in_queue units units.length (Nat.le_refl _)
  rw [List.take_length] at hunits
  unfold vf_pipeline_stop lifecycle.vf_pipeline_stop
  simp only [skip_bind, skip_inl, ← hunits]
  congr 1
  funext init
  cases init <;> simp

/-- The stop request of the other modules is this one without the reads. -/
theorem handle_stop.plain :
    without_reads vf_service_stop = lifecycle.vf_service_stop ∧
      without_reads handle_stop = lifecycle.handle_stop := by
  have hservice : without_reads vf_service_stop = lifecycle.vf_service_stop := by
    unfold vf_service_stop lifecycle.vf_service_stop
    simp only [skip_bind, skip_inl, ← vf_pipeline_stop.plain]
    congr 1
    funext init
    cases init <;> simp [apply_ite]
  refine ⟨hservice, ?_⟩
  unfold handle_stop lifecycle.handle_stop
  unfold without_reads at hservice ⊢
  rw [skip_bind, hservice]
  congr 1
  funext err
  by_cases herr : err = .VF_SUCCESS <;> simp [herr]

/-! ## What a stop does -/

theorem exec_inl_answer {α : Type} (n : Nat) (code : CtlCode U Q α) (s : St U) :
    exec (answer_read p n) code.inl s = exec (answer p) code s :=
  exec_inl code s

/-- The stop of the unit `i`. Its error reads the entry behind it. -/
theorem stop_units.step {units : List U} {i : Nat} {u : U} (h : units[i]? = some u) (s : St U) :
    exec (answer_read p units.length) (stop_units in_queue units (i + 1)) s =
      if halt_err p s u = .VF_SUCCESS ∨ i + 1 < units.length then
        exec (answer_read p units.length) (stop_units in_queue units i) (halt p s u)
      else none := by
  have hlt : i < units.length := (List.getElem?_eq_some_iff.mp h).1
  have hread : ∀ j (s : St U), exec (answer_read p units.length) (read j : StopCode U Q Unit) s =
      if j < units.length then some ((), s) else none := by
    intro j s
    by_cases hj : j < units.length <;> simp [read, exec, answer_read, hj]
  have hstop : exec (answer_read p units.length) (stop_unit in_queue units i) s =
      some (halt_err p s u, halt p s u) := by
    unfold stop_unit
    simp only [h, exec_bind, hread, hlt, if_true, Option.bind_some]
    rw [exec_inl_answer, vf_unit_stop.spec]
  rw [stop_units, exec_bind, hstop]
  by_cases herr : halt_err p s u = .VF_SUCCESS
  · simp [herr]
  · by_cases hnext : i + 1 < units.length <;> simp [herr, hread, hnext]

/-- The stops of all units but the last one: an error reads a unit that was stopped before. -/
theorem stop_units.inside {units : List U} (i : Nat) (hi : i < units.length) (s : St U) :
    exec (answer_read p units.length) (stop_units in_queue units i) s =
      some ((), (units.take i).reverse.foldl (halt p) s) := by
  induction i generalizing s with
  | zero => rfl
  | succ i ih =>
    have hget : units[i]? = some units[i] := List.getElem?_eq_getElem (by omega)
    have htake : units.take (i + 1) = units.take i ++ [units[i]] := by simp
    rw [stop_units.step p in_queue hget, if_pos (Or.inr hi), ih (by omega), htake,
      List.reverse_append]
    rfl

/-- The stop ends just if the stop of the last unit, its first one, has no error. -/
theorem vf_pipeline_stop.halts {units : List U} {u : U} (h : units.getLast? = some u)
    (s : St U) :
    exec (answer_read p units.length) (vf_pipeline_stop in_queue units) s =
      if halt_err p s u = .VF_SUCCESS then
        some (.VF_SUCCESS, units.reverse.foldl (halt p) s)
      else none := by
  obtain ⟨before, rfl⟩ := List.getLast?_eq_some_iff.mp h
  have hlen : (before ++ [u]).length = before.length + 1 := by simp
  have hget : (before ++ [u])[before.length]? = some u := by simp
  have hunits : exec (answer_read p (before ++ [u]).length)
      (stop_units in_queue (before ++ [u]) (before ++ [u]).length) s =
        if halt_err p s u = .VF_SUCCESS then
          some ((), (before ++ [u]).reverse.foldl (halt p) s)
        else none := by
    have hstep := stop_units.step p in_queue hget s
    have hlt : before.length < (before ++ [u]).length := by omega
    have hbefore := stop_units.inside p in_queue before.length hlt (halt p s u)
    rw [← hlen] at hstep
    rw [hstep, hbefore]
    simp
  unfold vf_pipeline_stop
  have hinit : exec (answer_read p (before ++ [u]).length)
      (ctl (.initialized .pipeline) : CtlCode U Q Bool).inl s = some (true, s) := by
    rw [exec_inl_answer]
    rfl
  simp only [exec_bind, hinit, Option.bind_some, Bool.not_true, Bool.false_eq_true, if_false,
    hunits]
  by_cases herr : halt_err p s u = .VF_SUCCESS <;> simp [herr]

/-- A stop leaves a state that another call may begin in. -/
theorem vf_pipeline_stop.live {units : List U} {u : U} (hu : units.getLast? = some u)
    {s s' : St U} {err : vf_err_t} (h : Live s)
    (hrun : exec (answer_read p units.length) (vf_pipeline_stop in_queue units) s =
      some (err, s')) : Live s' := by
  rw [vf_pipeline_stop.halts p in_queue hu] at hrun
  split at hrun
  · cases hrun
    exact foldl_live (fun _ u h => halt.live p h u) _ h
  · cases hrun

/-- What a stop must come to: no read outside the units ends the program, each unit is tried
once, from the last one on, and a success means that all are stopped. -/
structure Orderly (P : Pipeline U) (out : Option (vf_err_t × St U)) : Prop where
  inside : out.isSome
  attempts : ∀ err s, out = some (err, s) → s.stops = P.units.reverse
  success : ∀ s, out = some (.VF_SUCCESS, s) → ∀ u ∈ P.units, Stopped s u

/-- Each running unit has one thread, whose join succeeds, and no other unit has one. -/
def NoStopFails (P : Pipeline U) (p : Pthread U) (b : Before U) : Prop :=
  ∀ u ∈ P.units, if b.running u then p.join u = true ∧ b.threads u = 1 else b.threads u = 0

section
variable (P : Pipeline U) (b : Before U)

/-- After all stops, a unit is stopped just if its own stop did all there was to do. -/
theorem stopped_after_halts {u : U} (hu : u ∈ P.units) :
    Stopped (P.units.reverse.foldl (halt p) b.state) u ↔
      if b.running u then p.join u = true ∧ b.threads u = 1 else b.threads u = 0 := by
  have hmem : u ∈ P.units.reverse := List.mem_reverse.mpr hu
  have hthreads := halt_all.threads p (List.nodup_reverse.mpr P.distinct) b.state u
  have hrunning := halt_all.running p P.units.reverse b.state u
  have hlive := b.live u
  unfold Stopped
  rw [hrunning, hthreads]
  simp only [Before.state, hmem, if_true, true_and]
  by_cases hrun : b.running u = true
  · have hpos := hlive hrun
    by_cases hjoin : p.join u = true
    · simp only [hrun, hjoin, and_self, if_true, true_and]
      omega
    · simp [hrun, hjoin]
      omega
  · simp [hrun]

theorem stopped_after_halts_all :
    (∀ u ∈ P.units, Stopped (P.units.reverse.foldl (halt p) b.state) u) ↔ NoStopFails P p b :=
  forall₂_congr fun _ hu => stopped_after_halts p P b hu

omit [DecidableEq U] in
/-- The stop of a unit has no error unless the unit runs and its thread is not joined. -/
theorem halt_err_iff (u : U) :
    halt_err p b.state u = .VF_SUCCESS ↔ ¬ (b.running u = true ∧ p.join u = false) := by
  unfold halt_err
  split <;> simp_all [Before.state]

omit [DecidableEq U] in
/-- Where no stop fails, the last unit's does not. -/
theorem NoStopFails.last {P : Pipeline U} {b : Before U} (h : NoStopFails P p b) {u : U}
    (hu : P.units.getLast? = some u) : halt_err p b.state u = .VF_SUCCESS := by
  rw [halt_err_iff]
  rintro ⟨hrun, hjoin⟩
  have := h u (List.mem_of_getLast? hu)
  simp [hrun, hjoin] at this

/-- A stop reads behind the units just if the stop of the last unit fails. -/
theorem a_stop_reads_inside_just_if_the_last_unit_stops {u : U}
    (hu : P.units.getLast? = some u) :
    (exec (answer_read p P.units.length) (vf_pipeline_stop in_queue P.units) b.state).isSome ↔
      ¬ (b.running u = true ∧ p.join u = false) := by
  rw [vf_pipeline_stop.halts p in_queue hu, ← halt_err_iff]
  by_cases herr : halt_err p b.state u = .VF_SUCCESS <;> simp [herr]

theorem vf_pipeline_stop.spec :
    Orderly P (exec (answer_read p P.units.length) (vf_pipeline_stop in_queue P.units) b.state) ↔
      NoStopFails P p b := by
  obtain ⟨u, hu⟩ := P.has_last
  rw [vf_pipeline_stop.halts p in_queue hu, ← stopped_after_halts_all p P b]
  constructor
  · intro h
    have hsome := h.inside
    split at hsome
    · rename_i herr
      exact h.success _ (if_pos herr)
    · cases hsome
  · intro hall
    have herr := NoStopFails.last p ((stopped_after_halts_all p P b).mp hall) hu
    rw [if_pos herr]
    refine ⟨rfl, ?_, ?_⟩
    · rintro err s ⟨⟩
      rw [halt_all.stops]
      rfl
    · rintro s ⟨⟩
      exact hall

end

/-- What a stop of the service and a stop request must come to: both end, and neither tells
of a stop that did not happen. -/
structure Truthful (out : Option (vf_err_t × St UnitId)) (reply : Option (Unit × St UnitId)) :
    Prop where
  stop_ends : out.isSome
  reply_ends : reply.isSome
  success : ∀ s, out = some (.VF_SUCCESS, s) → ∀ u ∈ pipeline_units, Stopped s u
  response : ∀ s, reply = some ((), s) → s.response = some stopped_response →
    ∀ u ∈ pipeline_units, Stopped s u

section
variable (q : Pthread UnitId)

theorem vf_service_stop.halts (s : St UnitId) :
    exec (answer_read q pipeline_units.length) vf_service_stop s =
      if halt_err q s .file_out = .VF_SUCCESS then
        some (.VF_SUCCESS, pipeline_units.reverse.foldl (halt q) s)
      else none := by
  have hpipeline := vf_pipeline_stop.halts q (fun u => u.unit.in_queue)
    (show pipeline_units.getLast? = some .file_out from rfl) s
  unfold vf_service_stop
  simp only [exec_bind, exec_inl_answer, exec_perform, answer, Option.bind_some, Bool.not_true,
    Bool.false_eq_true, if_false, hpipeline]
  by_cases herr : halt_err q s .file_out = .VF_SUCCESS <;> simp [herr]

/-- A client that asks for a stop is told of one, if it is told anything. -/
theorem handle_stop.halts (s : St UnitId) :
    exec (answer_read q pipeline_units.length) handle_stop s =
      if halt_err q s .file_out = .VF_SUCCESS then
        some ((), { pipeline_units.reverse.foldl (halt q) s with
          response := some stopped_response })
      else none := by
  unfold handle_stop
  rw [exec_bind, vf_service_stop.halts]
  by_cases herr : halt_err q s .file_out = .VF_SUCCESS
  · simp [herr, exec_inl_answer, answer]
  · simp [herr]

theorem handle_stop.spec (b : Before UnitId) :
    Truthful (exec (answer_read q pipeline_units.length) vf_service_stop b.state)
        (exec (answer_read q pipeline_units.length) handle_stop b.state) ↔
      NoStopFails service_pipeline q b := by
  rw [vf_service_stop.halts, handle_stop.halts, ← stopped_after_halts_all q service_pipeline b]
  constructor
  · intro h
    have hsome := h.stop_ends
    split at hsome
    · rename_i herr
      exact h.success _ (if_pos herr)
    · cases hsome
  · intro hall
    have herr := NoStopFails.last q ((stopped_after_halts_all q service_pipeline b).mp hall)
      (u := .file_out) rfl
    rw [if_pos herr, if_pos herr]
    refine ⟨rfl, rfl, ?_, ?_⟩
    · rintro s ⟨⟩
      exact hall
    · rintro s ⟨⟩ -
      exact hall

end

/-! ## A stop is orderly just where no unit fails to stop -/

/-- A stop tries each unit once, reads only units of the pipeline and reports only what
happened, also to those that stop the service or send a stop request, just if no stop of a
unit fails. -/
theorem a_stop_is_orderly_just_if_no_unit_fails :
    (∀ (P : Pipeline U) (p : Pthread U) (in_queue : U → Option Q) (b : Before U),
      Orderly P (exec (answer_read p P.units.length) (vf_pipeline_stop in_queue P.units)
        b.state) ↔ NoStopFails P p b) ∧
    ∀ (p : Pthread UnitId) (b : Before UnitId),
      Truthful (exec (answer_read p pipeline_units.length) vf_service_stop b.state)
        (exec (answer_read p pipeline_units.length) handle_stop b.state) ↔
      NoStopFails service_pipeline p b :=
  ⟨fun P p in_queue b => vf_pipeline_stop.spec p in_queue P b,
    fun p b => handle_stop.spec p b⟩

/-- All four units run. Where the thread of the conversion unit cannot be joined, the stop
returns success and the client is told of it, and the thread is still there. Where that of
the file unit cannot, the last one, the program dies at `units[4]`. -/
theorem a_failed_stop_is_reported_as_a_stop :
    ∃ b : Before UnitId,
      (∃ s s', exec (answer_read ⟨fun _ => true, fun u => decide (u ≠ .conversion)⟩ 4)
          (vf_pipeline_stop (fun u => u.unit.in_queue) pipeline_units) b.state =
            some (.VF_SUCCESS, s) ∧
        exec (answer_read ⟨fun _ => true, fun u => decide (u ≠ .conversion)⟩ 4) handle_stop
          b.state = some ((), s') ∧
        s'.response = some stopped_response ∧ ¬ Stopped s .conversion ∧
        ¬ Orderly service_pipeline (some (.VF_SUCCESS, s))) ∧
      exec (answer_read ⟨fun _ => true, fun u => decide (u ≠ .file_out)⟩ 4)
        (vf_pipeline_stop (fun u => u.unit.in_queue) pipeline_units) b.state = none := by
  refine ⟨⟨fun _ => true, fun _ => 1, by simp⟩, ⟨_, _, rfl, rfl, rfl, ?_, ?_⟩, rfl⟩
  · intro h
    exact absurd h.2 (by decide)
  · intro h
    have hstopped := h.success _ rfl .conversion (by decide)
    exact absurd hstopped.2 (by decide)

end vision_flow.pipeline_failures
