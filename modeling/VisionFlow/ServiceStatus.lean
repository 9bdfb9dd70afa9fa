-- The status that a client may ask for (`handle_get_status`). It is read off the flag
-- `svc->initialized`, which a stop leaves set, so the client always reads "running". This
-- is true just when the last start or stop that was asked for is a start.
import VisionFlow.ServiceShutdown

namespace vision_flow.service

open programs units lifecycle runs

/-! ## The real status -/

/-- Each unit has the thread that the last start made for it, and no stop has joined it. -/
def Started (s : St) : Prop := ∀ u, s.phase u = .created

instance (s : St) : Decidable (Started s) :=
  decidable_of_iff (∀ u ∈ pipeline_units, s.phase u = .created)
    ⟨fun h u => h u (by cases u <;> decide), fun h u _ => h u⟩

def status_response (service : String) : String :=
  "\x7b\"status\":\"ok\",\"data\":\x7b\"service\":\"" ++ service ++ "\"\x7d\x7d\n"

/-- The response tells if the service is started. -/
structure Real (s : St) (response : String) : Prop where
  running : response = status_response "running" ↔ Started s
  stopped : response = status_response "stopped" ↔ ¬ Started s

instance (s : St) (response : String) : Decidable (Real s response) :=
  decidable_of_iff (_ ∧ _) ⟨fun h => ⟨h.1, h.2⟩, fun h => ⟨h.1, h.2⟩⟩

/-- The controlling thread sends this response to a client that asks for the status. -/
def St.Tells (s : St) (response : String) : Prop :=
  s.order = some (.send_response response) ∧ (s.calling.any fun c => c.1.asks_status) = true

instance (s : St) (response : String) : Decidable (s.Tells response) :=
  inferInstanceAs (Decidable (_ ∧ _))

/-- A client asks for one of the four commands, or a thread goes on. No `pthread_create`
fails. -/
def Polls : Act → Prop
  | .call (.request text) => (command_of (read_request text)).isSome = true
  | .call _ => False
  | .control ok => ok = true
  | _ => True

instance : DecidablePred Polls
  | .call (.request _) => inferInstanceAs (Decidable (_ = _))
  | .call .service_start => isFalse id
  | .call .service_stop => isFalse id
  | .control _ => inferInstanceAs (Decidable (_ = _))
  | .worker _ _ _ => isTrue trivial
  | .wake_up _ _ => isTrue trivial

/-! ## What was asked for -/

def next_started (started : Bool) : Act → Bool
  | .call c => if c.starts then true else if c.stops then false else started
  | _ => started

/-- The last start or stop that was asked for is a start. -/
def started (acts : List Act) : Bool := acts.foldl next_started false

/-! ## What a call does with the threads of the units -/

structure UnitsView where
  running : UnitId → Bool
  phase : UnitId → Phase

def St.units_view (s : St) : UnitsView := ⟨s.running, s.phase⟩

def HasThread (K : UnitsView) (u : UnitId) : Prop := K.running u = true ∧ K.phase u = .created

def HasNone (K : UnitsView) (u : UnitId) : Prop := K.running u = false ∧ K.phase u ≠ .created

/-- All units are started, or all are stopped. -/
def Settled (started : Bool) (K : UnitsView) : Prop :=
  ∀ u, if started then HasThread K u else HasNone K u

/-- What a command does when the service is initialized and no pthread call fails. A call
that asks for the status leaves the units alone, and answers "running". -/
def Does (status : Bool) : (c : CtlCmd UnitId QueueId) → (c.Res → UnitsView → Prop) →
    UnitsView → Prop
  | .initialized _, Q, K => Q true K
  | .set_running u b, Q, K =>
    status = false ∧ Q () { K with running := Function.update K.running u b }
  | .load_running u, Q, K => Q (K.running u) K
  | .pthread_create u, Q, K =>
    status = false ∧ Q true { K with phase := Function.update K.phase u .created }
  | .pthread_join u, Q, K =>
    status = false ∧ Q true { K with phase := Function.update K.phase u .joined }
  | .pool_reset _, Q, K => Q () K
  | .pool_shutdown _, Q, K => Q () K
  | .queue_reset _, Q, K => Q () K
  | .queue_shutdown _, Q, K => Q () K
  | .send_response r, Q, K => (status = true → r = status_response "running") ∧ Q () K
  | .send_stats, Q, K => Q () K

section
variable {K : UnitsView} {Q : vf_err_t → UnitsView → Prop}

theorem vf_unit_start.does {u : UnitId}
    (hok : ∀ K', HasThread K' u → (∀ v, v ≠ u → HasThread K v → HasThread K' v) →
      Q .VF_SUCCESS K') : wp (Does false) (vf_unit_start u) Q K := by
  unfold vf_unit_start
  simp only [wp_bind, wp_ite, wp_pure, wp_perform, Does]
  rw [if_neg (by decide), if_neg (by decide)]
  refine ⟨trivial, trivial, ?_⟩
  apply hok
  · exact ⟨by simp, by simp⟩
  · intro v hv hK
    exact ⟨by simpa [hv] using hK.1, by simpa [hv] using hK.2⟩

theorem start_units.does {started rest : List UnitId}
    (hok : ∀ K', (∀ u, u ∈ rest ∨ HasThread K u → HasThread K' u) → Q .VF_SUCCESS K') :
    wp (Does false) (start_units (fun u => u.unit.in_queue) started rest) Q K := by
  induction rest generalizing started K with
  | nil => exact hok K fun u hu => hu.resolve_left (by simp)
  | cons u rest ih =>
    unfold start_units
    rw [wp_bind]
    apply vf_unit_start.does
    intro K' hK' hothers
    rw [wp_ite, if_neg (by decide)]
    apply ih
    intro K'' hK''
    apply hok
    intro v hv
    apply hK''
    by_cases hvu : v = u
    · exact Or.inr (hvu ▸ hK')
    · rcases hv with hv | hv
      · exact Or.inl ((List.mem_cons.mp hv).resolve_left hvu)
      · exact Or.inr (hothers v hvu hv)

/-- A unit without a running flag has no thread to join. -/
def Ordered (K : UnitsView) : Prop := ∀ u, K.running u = false → K.phase u ≠ .created

theorem vf_unit_stop.does {u : UnitId} (hK : Ordered K)
    (hok : ∀ K', Ordered K' → HasNone K' u → (∀ v, v ≠ u → HasNone K v → HasNone K' v) →
      Q .VF_SUCCESS K') :
    wp (Does false) (vf_unit_stop (fun u => u.unit.in_queue) u) Q K := by
  unfold vf_unit_stop
  simp only [wp_bind, wp_ite, wp_pure, wp_perform, Does]
  cases hrun : K.running u with
  | false =>
    rw [if_pos rfl]
    exact hok K hK ⟨hrun, hK u hrun⟩ fun _ _ h => h
  | true =>
    rw [if_neg (by simp)]
    have hjoin : Q .VF_SUCCESS ⟨Function.update K.running u false,
        Function.update K.phase u .joined⟩ := by
      apply hok
      · intro v hv
        by_cases hvu : v = u
        · simp [hvu]
        · simp only [Function.update_of_ne hvu] at hv ⊢
          exact hK v hv
      · exact ⟨by simp, by simp⟩
      · intro v hv h
        exact ⟨by simpa [hv] using h.1, by simpa [hv] using h.2⟩
    cases hin : u.unit.in_queue with
    | none => simpa [Does] using hjoin
    | some q => simpa [wp, Does] using hjoin

theorem stop_units.does {us : List UnitId} {Q : Unit → UnitsView → Prop} (hK : Ordered K)
    (hok : ∀ K', (∀ u, u ∈ us ∨ HasNone K u → HasNone K' u) → Q () K') :
    wp (Does false) (stop_units (fun u => u.unit.in_queue) us) Q K := by
  induction us generalizing K with
  | nil => exact hok K fun u hu => hu.resolve_left (by simp)
  | cons u us ih =>
    unfold stop_units
    rw [wp_bind]
    apply vf_unit_stop.does hK
    intro K' hord hK' hothers
    apply ih hord
    intro K'' hK''
    apply hok
    intro v hv
    apply hK''
    by_cases hvu : v = u
    · exact Or.inr (hvu ▸ hK')
    · rcases hv with hv | hv
      · exact Or.inl ((List.mem_cons.mp hv).resolve_left hvu)
      · exact Or.inr (hothers v hvu hv)

theorem Settled.ordered {started : Bool} (h : Settled started K) : Ordered K := by
  intro u hu
  have hu' := h u
  split at hu'
  · exact absurd (hu'.1.symm.trans hu) (by decide)
  · exact hu'.2

/-! ## The calls -/

/-- A start starts all units, also those that are started already. -/
theorem vf_service_start.does (hok : ∀ K', Settled true K' → Q .VF_SUCCESS K') :
    wp (Does false) vf_service_start Q K := by
  have hall : ∀ u, u ∈ pipeline_units := by
    intro u
    cases u <;> decide
  unfold vf_service_start vf_pipeline_start
  simp only [wp_bind, wp_ite, wp_pure, wp_perform, Does]
  rw [if_neg (by decide), if_neg (by decide)]
  apply start_units.does
  intro K' hK'
  rw [if_neg (by decide)]
  exact hok K' fun u => hK' u (Or.inl (hall u))

theorem vf_service_stop.does (hK : Ordered K) (hok : ∀ K', Settled false K' → Q .VF_SUCCESS K') :
    wp (Does false) vf_service_stop Q K := by
  have hall : ∀ u, u ∈ pipeline_units.reverse := by
    intro u
    cases u <;> decide
  unfold vf_service_stop vf_pipeline_stop
  simp only [wp_bind, wp_ite, wp_pure, wp_perform, Does]
  rw [if_neg (by decide), if_neg (by decide)]
  apply stop_units.does hK
  intro K' hK'
  rw [if_neg (by decide)]
  exact hok K' fun u => hK' u (Or.inl (hall u))

end

section
variable {K : UnitsView}

/-- A call leaves the service as the history of the requests says. -/
theorem Call.does (c : Call) {b : Bool} (hset : c.starts = false → Settled b K) :
    wp (Does c.asks_status) c.code (fun _ K' => Settled (next_started b (.call c)) K') K := by
  cases c with
  | service_start => exact vf_service_start.does fun _ h => h
  | service_stop => exact vf_service_stop.does (hset rfl).ordered fun _ h => h
  | request text =>
    simp only [Call.code]
    unfold vf_control_handle_request
    rw [wp_ite]
    split
    · rename_i hempty
      have hnone : command_of (read_request text) = none := by
        rw [hempty]
        decide
      simpa [next_started, Call.starts, Call.stops, hnone] using hset
    · rcases hcmd : command_of (read_request text) with _ | _ | _ | _ | _ <;>
        simp only [wp_bind, wp_pure, next_started, Call.starts, Call.stops, Call.asks_status,
          hcmd] at hset ⊢
      · exact ⟨by simp, hset (by simp)⟩
      · exact ⟨fun _ => rfl, hset (by simp)⟩
      · exact hset (by simp)
      · unfold handle_stop
        rw [wp_bind]
        apply vf_service_stop.does (hset (by simp)).ordered
        intro K' hK'
        rw [wp_ite, if_neg (by decide)]
        exact ⟨by simp, hK'⟩
      · unfold handle_start
        rw [wp_bind]
        apply vf_service_start.does
        intro K' hK'
        rw [wp_ite, if_neg (by decide)]
        exact ⟨by simp, hK'⟩

end

/-- A call that asks for the status neither starts nor stops the service. -/
theorem asks_only {c : Call} (h : c.asks_status = true) (b : Bool) :
    c.starts = false ∧ next_started b (.call c) = b := by
  cases c with
  | service_start => cases h
  | service_stop => cases h
  | request text =>
    simp only [Call.asks_status, decide_eq_true_eq] at h
    simp [next_started, Call.starts, Call.stops, h]

/-! ## Runs -/

/-- What the service knows about its units: outside of a call they are as the history of
the requests says, and a call will leave them so. -/
structure Known (s : St) (started : Bool) : Prop where
  initialized : ∀ o, s.mem.initialized o = true
  between : s.calling = none → Settled started s.units_view
  asked : ∀ c p, s.calling = some (c, p) → c.asks_status = true → Settled started s.units_view
  calling : ∀ c p, s.calling = some (c, p) →
    wp (Does c.asks_status) p (fun _ K' => Settled started K') s.units_view

section
variable {cfg : vf_service_cfg_t} {m : Mem} {s s' t : St} {acts : List Act} {b : Bool}

theorem Known.of_leaves (h : Known s b) (hinit : s'.mem.initialized = s.mem.initialized)
    (hcall : s'.calling = s.calling) (hview : s'.units_view = s.units_view) : Known s' b := by
  refine ⟨?_, ?_, ?_, ?_⟩
  · rw [hinit]
    exact h.initialized
  · rw [hcall, hview]
    exact h.between
  · rw [hcall, hview]
    exact h.asked
  · rw [hcall, hview]
    exact h.calling

/-- No command of a unit changes an `initialized` flag of the service. -/
theorem exec_initialized (u : UnitId) (o : Oracle) (m : Mem) (c : UnitCmd) :
    (exec u o m c).mem.initialized = m.initialized := by
  have hforget : ∀ (b : Prop) [Decidable b] (p : Field),
      (if b then m else m.forget u p).initialized = m.initialized := by
    intro b _ p
    split <;> rfl
  cases c with
  | acquire_blocking pool p =>
    unfold exec exec_acquire_blocking
    dsimp only
    split
    · exact hforget _ p
    · split <;> exact hforget _ p
  | pop_blocking q p =>
    unfold exec exec_pop_blocking
    dsimp only
    split
    · exact hforget _ p
    · split <;> exact hforget _ p
  | release pool p =>
    unfold exec exec_release
    dsimp only
    split <;> rfl
  | push q p =>
    unfold exec exec_push
    dsimp only
    split <;> rfl
  | fetch_add p =>
    simp only [exec, exec_fetch]
    split <;> rfl
  | fetch_sub p =>
    simp only [exec, exec_fetch]
    split <;> rfl
  | acquire_frame p =>
    simp only [exec, exec_acquire_frame]
    split
    · rfl
    · split <;> rfl
  | convert src dst =>
    simp only [exec, exec_convert]
    split <;> rfl
  | _ => rfl

theorem worker_initialized {u : UnitId} {th : Thread} {o : Oracle}
    (h : worker s u th o = some s') : s'.mem.initialized = s.mem.initialized := by
  obtain ⟨-, -, hmem | ⟨c, k, -, hmem⟩⟩ := worker_leaves h
  · rw [hmem]
  · rw [hmem, exec_initialized]

theorem worker_phase {u : UnitId} {th : Thread} {o : Oracle} (h : worker s u th o = some s') :
    s'.phase = s.phase := by
  have hsignal : ∀ (s s' : St) on wakes, s.signal on wakes = some s' → s'.phase = s.phase := by
    intro s s' on wakes hs
    unfold St.signal at hs
    split at hs
    · cases hs
      rfl
    · split at hs <;> cases hs
      rfl
  unfold worker at h
  split at h
  · cases h
  · rcases hpc : th.pc with _ | err | ⟨c, k⟩ <;> simp only [hpc] at h
    · split at h <;> cases h <;> rfl
    · split at h
      · cases h
        rfl
      · split at h <;> cases h <;> rfl
    · rcases hexec : exec u o s.mem c with ⟨r, m', on⟩ | ⟨m', on⟩ <;> simp only [hexec] at h
      · exact (hsignal _ _ _ _ h).trans rfl
      · cases h
        rfl

/-- The controlling thread does one command of its call. -/
theorem Known.control (h : Known s b) {c : Call} {op : CtlCmd UnitId QueueId}
    {k : op.Res → ServiceCode vf_err_t} (hcall : s.calling = some (c, .op op k))
    {r : op.Res × St} (hr : control s true op = some r) :
    Known { r.2 with calling := some (c, k r.1) } b := by
  have hwp := h.calling c _ hcall
  have hasked := h.asked c _ hcall
  simp only [wp_op] at hwp
  have main : r.2.mem.initialized = s.mem.initialized ∧
      (c.asks_status = true → r.2.units_view = s.units_view) ∧
      wp (Does c.asks_status) (k r.1) (fun _ K' => Settled b K') r.2.units_view := by
    cases op with
    | initialized o =>
      unfold service.control at hr
      cases hr
      refine ⟨rfl, fun _ => rfl, ?_⟩
      rw [h.initialized o]
      exact hwp
    | set_running u x =>
      unfold service.control at hr
      cases hr
      exact ⟨rfl, fun hc => absurd (hwp.1.symm.trans hc) (by decide), hwp.2⟩
    | pthread_create u =>
      unfold service.control at hr
      cases hr
      exact ⟨rfl, fun hc => absurd (hwp.1.symm.trans hc) (by decide), hwp.2⟩
    | pthread_join u =>
      simp only [service.control] at hr
      split at hr <;> cases hr
      exact ⟨rfl, fun hc => absurd (hwp.1.symm.trans hc) (by decide), hwp.2⟩
    | send_response response =>
      unfold service.control at hr
      cases hr
      exact ⟨rfl, fun _ => rfl, hwp.2⟩
    | _ =>
      unfold service.control at hr
      cases hr
      exact ⟨rfl, fun _ => rfl, hwp⟩
  obtain ⟨hinit, hview, hwp'⟩ := main
  refine ⟨fun o => ?_, fun hc => by simp at hc, ?_, ?_⟩
  · rw [show r.2.mem.initialized = s.mem.initialized from hinit]
    exact h.initialized o
  · intro c' p hc' hst
    cases hc'
    have := hview hst
    rw [← this] at hasked
    exact hasked hst
  · intro c' p hc'
    cases hc'
    exact hwp'

theorem Known.step (h : Known s b) {a : Act} (hok : a ≠ .control false)
    (hs : step s a = some s') :
    Known s' (next_started b a) := by
  cases a with
  | worker u tid o =>
    obtain ⟨th, -, hw⟩ := Option.bind_eq_some_iff.mp hs
    obtain ⟨hrun, hcall, -⟩ := worker_leaves hw
    apply h.of_leaves (worker_initialized hw) hcall
    unfold St.units_view
    rw [hrun, worker_phase hw]
  | wake_up u tid =>
    obtain ⟨th, -, rfl⟩ := Option.map_eq_some_iff.mp hs
    exact h.of_leaves rfl rfl rfl
  | call c =>
    rcases hcall : s.calling with _ | called
    · simp only [service.step, hcall, Option.some.injEq] at hs
      subst hs
      have hset := h.between hcall
      by_cases hc : c.starts = true
      · rw [if_pos hc]
        refine ⟨h.initialized, by simp, ?_, ?_⟩
        · intro c' p hc' hst
          cases hc'
          exact absurd ((asks_only hst b).1.symm.trans hc) (by decide)
        · intro c' p hc'
          cases hc'
          exact Call.does c fun hc' => absurd (hc.symm.trans hc') (by decide)
      · rw [if_neg hc]
        refine ⟨h.initialized, by simp, ?_, ?_⟩
        · intro c' p hc' hst
          cases hc'
          rw [(asks_only hst b).2]
          exact hset
        · intro c' p hc'
          cases hc'
          exact Call.does c fun _ => hset
    · simp [service.step, hcall] at hs
  | control ok =>
    obtain rfl : ok = true := by
      cases ok with
      | true => rfl
      | false => exact absurd rfl hok
    rcases hcall : s.calling with _ | ⟨c, err | ⟨op, k⟩⟩
    · simp [service.step, hcall] at hs
    · simp only [service.step, hcall, Option.some.injEq] at hs
      subst hs
      exact ⟨h.initialized, fun _ => h.calling c _ hcall, by simp, by simp⟩
    · simp only [service.step, hcall] at hs
      obtain ⟨r, hr, rfl⟩ := Option.map_eq_some_iff.mp hs
      exact h.control hcall hr

theorem Made.known (h : Made cfg m) : Known (St.init m) false :=
  ⟨h.initialized, fun _ _ => ⟨rfl, by simp [St.units_view, St.init]⟩,
    by simp [St.init], by simp [St.init]⟩

theorem settled_iff {started : Bool} (h : Settled started s.units_view) :
    Started s ↔ started = true := by
  cases started with
  | true => exact ⟨fun _ => rfl, fun _ u => (h u).2⟩
  | false => exact ⟨fun hs => absurd (hs .camera) (h .camera).2, fun hf => by cases hf⟩

theorem polls_ok {a : Act} (h : Polls a) : a ≠ .control false := by
  rintro rfl
  cases h

/-- A status that is told is the real one just when the last start or stop that was asked
for is a start. -/
theorem the_status_is_real_just_after_a_start (hinit : vf_service_init cfg = .ok m)
    (hpolls : ∀ a ∈ acts, Polls a)
    (hrun : run step (St.init m) (.call .service_start :: acts) = some t) {response : String}
    (htells : t.Tells response) :
    Real t response ↔ started (.call .service_start :: acts) = true := by
  have hok : ∀ a ∈ Act.call .service_start :: acts, a ≠ .control false := by
    intro a ha
    rcases List.mem_cons.mp ha with rfl | ha
    · simp
    · exact polls_ok (hpolls a ha)
  have h : Known t (started (.call .service_start :: acts)) :=
    run_follows (fun _ _ _ _ h hok hs => h.step hok hs) (vf_service_init.spec hinit).known hok
      hrun
  obtain ⟨horder, hasks⟩ := htells
  rcases hcall : t.calling with _ | ⟨c, err | ⟨op, k⟩⟩
  · simp [hcall] at hasks
  · simp [St.order, hcall] at horder
  · simp only [St.order, hcall, Option.some.injEq] at horder
    subst horder
    replace hasks : c.asks_status = true := by simpa [hcall] using hasks
    -- the handler only ever says that the service is running
    have hsays : response = status_response "running" := (h.calling c _ hcall).1 hasks
    rw [← settled_iff (h.asked c _ hcall hasks), hsays]
    refine ⟨fun hreal => hreal.running.mp rfl, fun hs => ⟨by simp [hs], ?_⟩⟩
    simpa [hs] using (by decide : status_response "running" ≠ status_response "stopped")

def get_status : Call := .request "\x7b\"cmd\":\"get_status\"\x7d\n".toList

/-- A client asks for the status of the started service. -/
def ask_when_started : List Act :=
  List.replicate 20 (.control true) ++ calls get_status 1

theorem a_started_service_tells_so : ∃ t,
    run step (St.init small_mem) (.call .service_start :: ask_when_started) = some t ∧
      Real t (status_response "running") := by
  have hstate : (run step (St.init small_mem) (.call .service_start :: ask_when_started)).map
      (fun t => decide (t.Tells (status_response "running"))) = some true := by
    decide
  obtain ⟨t, ht, htells⟩ := Option.map_eq_some_iff.mp hstate
  exact ⟨t, ht, (the_status_is_real_just_after_a_start small_init (by decide) ht
    (of_decide_eq_true htells)).mpr (by decide)⟩

/-- A client stops the service, and asks for the status when the threads are gone. -/
def ask_when_stopped : List Act := start_and_stop.tail ++ calls get_status 1

/-- A stopped service tells that it is running. -/
theorem a_stopped_service_tells_that_it_runs :
    ¬ ∀ cfg m acts t response, vf_service_init cfg = .ok m → (∀ a ∈ acts, Polls a) →
      run step (St.init m) (.call .service_start :: acts) = some t → t.Tells response →
        Real t response := by
  intro h
  have hstate : (run step (St.init small_mem) (.call .service_start :: ask_when_stopped)).map
      (fun t => decide (t.Tells (status_response "running") ∧
        ¬ Real t (status_response "running"))) = some true := by
    decide
  obtain ⟨t, ht, heq⟩ := Option.map_eq_some_iff.mp hstate
  obtain ⟨htells, hnot⟩ := of_decide_eq_true heq
  exact hnot (h small small_mem ask_when_stopped t _ small_init (by decide) ht htells)

end

end vision_flow.service
