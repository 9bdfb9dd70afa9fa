-- The life of the control server (vf-control-server.c): init, start, stop and deinit in any
-- order, whatever their system calls return. Both tests of a pthread call are written as
-- `if (EOK != 0)`, so a thread that could not be created counts as started. The server has
-- its one thread just if its starts and stops take turns and each start gets a thread.
import VisionFlow.Common
import VisionFlow.Lib.Runs

namespace vision_flow.control_server

open runs

/-! ## The code -/

def EOK : Nat := 0

/-- `T` are the handles of threads, and `none` is a handle of zeros, which is no thread. The
pointer to the service, which only the thread reads, is left out. -/
structure vf_control_server_t (T : Type) where
  server_fd : Int
  thread : Option T
  running : Bool
  initialized : Nat

variable {T : Type}

/-- The server after `= {0}`, or after the `memset` to 0. -/
def zeroed : vf_control_server_t T := ⟨0, none, false, 0⟩

/-- What `pthread_create` does. When it fails, it may leave any handle. -/
inductive Created (T : Type)
  | ok (t : T)
  | fails (left : Option T)

def Created.handle : Created T → Option T
  | .ok t => some t
  | .fails left => left

/-- The thread that there is after the call. -/
def Created.thread : Created T → Option T
  | .ok t => some t
  | .fails _ => none

/-- The calls that create or join a thread. -/
inductive Call (T : Type)
  | pthread_create (thread : Option T)
  | pthread_join (handle : Option T)

/-- The arguments are what the three calls return. -/
def vf_control_server_init (socket bind listen : Int) : vf_err_t × vf_control_server_t T :=
  let srv := { zeroed with server_fd := socket }
  if socket < 0 then
    (.VF_SYNC_ERROR, srv)
  else if bind < 0 then
    (.VF_SYNC_ERROR, { srv with server_fd := -1 })
  else if listen < 0 then
    (.VF_SYNC_ERROR, { srv with server_fd := -1 })
  else
    (.VF_SUCCESS, { srv with initialized := 1 })

def vf_control_server_start (srv : vf_control_server_t T) (created : Created T) :
    vf_err_t × vf_control_server_t T × List (Call T) :=
  if srv.initialized = 0 then
    (.VF_INIT_FAILED, srv, [])
  else
    let srv := { srv with running := true, thread := created.handle }
    -- the source compares the constant, not the return code
    if EOK ≠ 0 then
      (.VF_SYNC_ERROR, { srv with running := false }, [.pthread_create created.thread])
    else
      (.VF_SUCCESS, srv, [.pthread_create created.thread])

def vf_control_server_stop (srv : vf_control_server_t T) :
    vf_err_t × vf_control_server_t T × List (Call T) :=
  if srv.initialized = 0 then
    (.VF_INIT_FAILED, srv, [])
  else
    let srv := { srv with running := false }
    if EOK ≠ 0 then
      (.VF_SYNC_ERROR, srv, [.pthread_join srv.thread])
    else
      (.VF_SUCCESS, srv, [.pthread_join srv.thread])

def vf_control_server_deinit (srv : vf_control_server_t T) : vf_control_server_t T :=
  if srv.initialized = 0 then srv else zeroed

/-! ## Runs -/

inductive Act (T : Type)
  | init (socket bind listen : Int)
  | start (created : Created T)
  | stop
  | deinit

/-- `threads` are the server threads that were created and not joined. -/
structure St (T : Type) where
  srv : vf_control_server_t T
  threads : Finset T

def St.fresh : St T := ⟨zeroed, ∅⟩

/-- The return code of an act, the server after it, and its calls. -/
def perform (srv : vf_control_server_t T) :
    Act T → vf_err_t × vf_control_server_t T × List (Call T)
  | .init socket bind listen =>
    let (err, srv) := vf_control_server_init socket bind listen
    (err, srv, [])
  | .start created => vf_control_server_start srv created
  | .stop => vf_control_server_stop srv
  | .deinit => (.VF_SUCCESS, vf_control_server_deinit srv, [])

variable [DecidableEq T]

/-- What a call does to the threads. A join of no thread does nothing. -/
def call_threads (threads : Finset T) : Call T → Finset T
  | .pthread_create (some t) => insert t threads
  | .pthread_create none => threads
  | .pthread_join (some t) => threads.erase t
  | .pthread_join none => threads

def after (s : St T) (a : Act T) : St T :=
  let (_, srv, calls) := perform s.srv a
  ⟨srv, calls.foldl call_threads s.threads⟩

/-- A new thread has a handle of its own. -/
def Act.Possible (threads : Finset T) : Act T → Prop
  | .start (.ok t) => t ∉ threads
  | _ => True

instance (threads : Finset T) : (a : Act T) → Decidable (a.Possible threads)
  | .start (.ok t) => inferInstanceAs (Decidable (t ∉ threads))
  | .start (.fails _) => isTrue trivial
  | .init _ _ _ => isTrue trivial
  | .stop => isTrue trivial
  | .deinit => isTrue trivial

/-- `none`: the act does not happen in this state. -/
def step (s : St T) (a : Act T) : Option (St T) :=
  if a.Possible s.threads then some (after s a) else none

/-! ## What a caller may rely on -/

/-- While the server runs, it has one thread. -/
def OneThread (s : St T) : Prop := s.srv.running = true → s.threads.card = 1

/-- What the server owes to its caller at an act. -/
structure Orderly (s : St T) (a : Act T) : Prop where
  one_thread : OneThread (after s a)
  started : ∀ created, a = .start created → (perform s.srv a).1 = .VF_SUCCESS →
    ∃ t, .pthread_create (some t) ∈ (perform s.srv a).2.2
  joined : ∀ handle, .pthread_join handle ∈ (perform s.srv a).2.2 → ∃ t ∈ s.threads, handle = some t
  stopped : a = .stop → (perform s.srv a).1 = .VF_SUCCESS → (after s a).threads = ∅

/-- A start of a server finds no thread and gets one, and a stop finds the thread of the
server's handle and no other. -/
def InTurn (s : St T) : Act T → Prop
  | .start created => s.srv.initialized ≠ 0 → s.threads = ∅ ∧ created.thread ≠ none
  | .stop => s.srv.initialized ≠ 0 → ∃ t, s.srv.thread = some t ∧ s.threads = {t}
  | _ => True

/-! ## One act -/

section
variable {s : St T}

omit [DecidableEq T] in
theorem init_not_running (socket bind listen : Int) :
    (vf_control_server_init socket bind listen : vf_err_t × vf_control_server_t T).2.running =
      false := by
  unfold vf_control_server_init
  split
  · rfl
  · split
    · rfl
    · split <;> rfl

theorem orderly_init (socket bind listen : Int) : Orderly s (.init socket bind listen) := by
  refine ⟨fun hrun => ?_, fun created h => ?_, fun handle h => ?_, fun h => ?_⟩
  · have hrun' : (vf_control_server_init socket bind listen : _ × vf_control_server_t T).2.running =
        true := hrun
    rw [init_not_running] at hrun'
    cases hrun'
  · cases h
  · cases h
  · cases h

theorem orderly_deinit (hone : OneThread s) : Orderly s .deinit := by
  refine ⟨?_, fun created h => ?_, fun handle h => ?_, fun h => ?_⟩
  · intro hrun
    simp only [after, perform, vf_control_server_deinit, List.foldl_nil] at hrun ⊢
    by_cases hinit : s.srv.initialized = 0
    · rw [if_pos hinit] at hrun
      exact hone hrun
    · rw [if_neg hinit] at hrun
      cases hrun
  · cases h
  · cases h
  · cases h

theorem orderly_start (hone : OneThread s) (created : Created T)
    (hpossible : (Act.start created).Possible s.threads) :
    Orderly s (.start created) ↔ InTurn s (.start created) := by
  by_cases hinit : s.srv.initialized = 0
  · have hperform : perform s.srv (.start created) = (.VF_INIT_FAILED, s.srv, []) := by
      simp [perform, vf_control_server_start, hinit]
    refine iff_of_true ⟨?_, fun _ _ herr => ?_, fun handle h => ?_, fun h => ?_⟩ (absurd hinit)
    · unfold after
      rw [hperform]
      exact hone
    · rw [hperform] at herr
      cases herr
    · rw [hperform] at h
      cases h
    · cases h
  · have hperform : perform s.srv (.start created) = (.VF_SUCCESS,
        { s.srv with running := true, thread := created.handle },
        [.pthread_create created.thread]) := by
      simp [perform, vf_control_server_start, hinit, EOK]
    have hafter : after s (.start created) = ⟨{ s.srv with
        running := true, thread := created.handle },
        call_threads s.threads (.pthread_create created.thread)⟩ := by
      unfold after
      rw [hperform]
      rfl
    constructor
    · rintro ⟨hcard, hstarted, -, -⟩ -
      rw [hperform] at hstarted
      obtain ⟨t, ht⟩ := hstarted created rfl rfl
      have hthread : created.thread = some t :=
        (Call.pthread_create.inj (List.mem_singleton.mp ht)).symm
      cases created with
      | fails left => cases hthread
      | ok u =>
        rw [hafter] at hcard
        have hone' : (insert u s.threads).card = 1 := hcard rfl
        rw [Finset.card_insert_of_notMem hpossible, Nat.add_eq_right, Finset.card_eq_zero] at hone'
        exact ⟨hone', by simp [Created.thread]⟩
    · intro hturn
      obtain ⟨hnone, hsome⟩ := hturn hinit
      obtain ⟨t, ht⟩ := Option.ne_none_iff_exists'.mp hsome
      refine ⟨?_, fun _ _ _ => ⟨t, ?_⟩, fun handle h => ?_, fun h => ?_⟩
      · rw [hafter, ht, hnone]
        intro _
        rfl
      · rw [hperform, ht]
        exact List.mem_singleton_self _
      · rw [hperform] at h
        cases List.mem_singleton.mp h
      · cases h

theorem orderly_stop (hone : OneThread s) : Orderly s .stop ↔ InTurn s .stop := by
  by_cases hinit : s.srv.initialized = 0
  · have hperform : perform s.srv .stop = (.VF_INIT_FAILED, s.srv, []) := by
      simp [perform, vf_control_server_stop, hinit]
    refine iff_of_true ⟨?_, fun _ h => ?_, fun handle h => ?_, fun _ herr => ?_⟩ (absurd hinit)
    · unfold after
      rw [hperform]
      exact hone
    · cases h
    · rw [hperform] at h
      cases h
    · rw [hperform] at herr
      cases herr
  · have hperform : perform s.srv .stop = (.VF_SUCCESS, { s.srv with running := false },
        [.pthread_join s.srv.thread]) := by
      simp [perform, vf_control_server_stop, hinit, EOK]
    have hafter : after s .stop = ⟨{ s.srv with running := false },
        call_threads s.threads (.pthread_join s.srv.thread)⟩ := by
      unfold after
      rw [hperform]
      rfl
    constructor
    · rintro ⟨-, -, hjoined, hstopped⟩ -
      rw [hperform] at hjoined hstopped
      obtain ⟨t, ht, hthread⟩ := hjoined _ (List.mem_singleton_self _)
      have hleft := hstopped rfl rfl
      rw [hafter, hthread] at hleft
      have herase : s.threads.erase t = ∅ := hleft
      refine ⟨t, hthread, ?_⟩
      rw [← Finset.insert_erase ht, herase]
      rfl
    · intro hturn
      obtain ⟨t, hthread, hthreads⟩ := hturn hinit
      refine ⟨fun hrun => ?_, fun _ h => ?_, fun handle h => ?_, fun _ _ => ?_⟩
      · rw [hafter] at hrun
        cases hrun
      · cases h
      · rw [hperform] at h
        cases List.mem_singleton.mp h
        exact ⟨t, by rw [hthreads]; exact Finset.mem_singleton_self t, hthread⟩
      · rw [hafter, hthread, hthreads]
        exact Finset.erase_singleton t

/-- An act keeps what it owes just if it comes in turn. -/
theorem orderly_iff_in_turn (hone : OneThread s) {a : Act T} (hpossible : a.Possible s.threads) :
    Orderly s a ↔ InTurn s a := by
  cases a with
  | init socket bind listen => exact iff_of_true (orderly_init socket bind listen) trivial
  | start created => exact orderly_start hone created hpossible
  | stop => exact orderly_stop hone
  | deinit => exact iff_of_true (orderly_deinit hone) trivial

theorem step_possible {a : Act T} {s' : St T} (h : step s a = some s') :
    a.Possible s.threads ∧ s' = after s a := by
  unfold step at h
  split at h
  · exact ⟨‹_›, (Option.some.inj h).symm⟩
  · cases h

end

/-! ## The law -/

/-- Over any run, the server keeps what it owes at each act just if each start and each stop
comes in turn. -/
theorem the_server_has_one_thread_just_if_its_calls_take_turns {acts : List (Act T)} {t : St T}
    (hrun : run step St.fresh acts = some t) :
    Along step Orderly St.fresh acts ↔ Along step InTurn St.fresh acts := by
  refine along_iff (I := OneThread) (fun s a s' hone hstep => ?_) (fun s a s' _ hok hstep => ?_)
    (fun h => Bool.noConfusion h) hrun
  · exact orderly_iff_in_turn hone (step_possible hstep).1
  · obtain ⟨-, rfl⟩ := step_possible hstep
    exact hok.one_thread

/-- What `run_camera_scenario` does. -/
def scenario : List (Act Nat) := [.init 3 0 0, .start (.ok 1), .stop, .deinit]

theorem a_scenario_takes_turns : Along step Orderly (St.fresh : St Nat) scenario := by
  obtain ⟨t, hrun⟩ : ∃ t, run step (St.fresh : St Nat) scenario = some t := ⟨_, rfl⟩
  rw [the_server_has_one_thread_just_if_its_calls_take_turns hrun]
  refine ⟨trivial, ?_⟩
  rintro _ ⟨⟩
  refine ⟨fun _ => ⟨rfl, by simp [Created.thread]⟩, ?_⟩
  rintro _ ⟨⟩
  refine ⟨fun _ => ⟨1, rfl, rfl⟩, ?_⟩
  rintro _ ⟨⟩
  exact ⟨trivial, fun _ _ => trivial⟩

/-- The thread cannot be created. The start tells of a success, and the server runs without
a thread. -/
theorem a_server_without_a_thread_has_started :
    ¬ ∀ (acts : List (Act Nat)) (t : St Nat), run step St.fresh acts = some t →
      Along step Orderly St.fresh acts := by
  intro h
  have hall := h [.init 3 0 0, .start (.fails none)] _ rfl
  have hstart := (hall.2 _ rfl).1
  obtain ⟨t, ht⟩ := hstart.started _ rfl rfl
  cases Call.pthread_create.inj (List.mem_singleton.mp ht)

end vision_flow.control_server
