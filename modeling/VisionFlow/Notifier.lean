-- The notifiers (vf-notifier.c). A notifier keeps the subscribers of its events in an array
-- behind a mutex, and holds the mutex while it calls them. Each thread runs a program that
-- uses the notifiers, and so does each callback, so that a thread may be in many calls at once.
import VisionFlow.Common
import VisionFlow.Lib.Programs
import VisionFlow.Lib.Runs

namespace vision_flow.notifier

open programs

/-! ## The data -/

def VF_NOTIFIER_MAX_SUBSCRIBERS : Nat := 8

inductive vf_notifier_mode_t
  | VF_NOTIFIER_MODE_RECEIVER
  | VF_NOTIFIER_MODE_SENDER
  | VF_NOTIFIER_MODE_BIDIRECTIONAL
  deriving DecidableEq

inductive vf_notifier_event_t
  | VF_NOTIFIER_EVENT_FRAME_READY
  | VF_NOTIFIER_EVENT_FRAME_RECEIVED
  | VF_NOTIFIER_EVENT_UNKNOWN
  deriving DecidableEq

def vf_notifier_event2str : vf_notifier_event_t → String
  | .VF_NOTIFIER_EVENT_FRAME_READY => "VF_NOTIFIER_EVENT_FRAME_READY"
  | .VF_NOTIFIER_EVENT_FRAME_RECEIVED => "VF_NOTIFIER_EVENT_FRAME_RECEIVED"
  | .VF_NOTIFIER_EVENT_UNKNOWN => "VF_NOTIFIER_EVENT_UNKNOWN"

-- `N` are the notifiers and `T` the threads, `F` are the functions to call back, and `P` are
-- the pointers that they get.
variable {N T F P : Type}

structure vf_notifier_subscriber_t (F P : Type) where
  event : vf_notifier_event_t
  cb : F
  ctx : P

/-- `none` in the array is a subscriber that was not written since the init. -/
structure vf_notifier_t (F P : Type) where
  mode : vf_notifier_mode_t
  subscribers : Nat → Option (vf_notifier_subscriber_t F P)
  subscriber_count : Nat
  initialized : Bool

def vf_notifier_is_sender (mode : vf_notifier_mode_t) : Bool :=
  mode = .VF_NOTIFIER_MODE_SENDER ∨ mode = .VF_NOTIFIER_MODE_BIDIRECTIONAL

def vf_notifier_is_receiver (mode : vf_notifier_mode_t) : Bool :=
  mode = .VF_NOTIFIER_MODE_RECEIVER ∨ mode = .VF_NOTIFIER_MODE_BIDIRECTIONAL

/-- `mutex_ok` is the success of `pthread_mutex_init`. -/
def vf_notifier_init (mode : vf_notifier_mode_t) (mutex_ok : Bool) :
    vf_err_t × vf_notifier_t F P :=
  if mutex_ok then (.VF_SUCCESS, ⟨mode, fun _ => none, 0, true⟩)
  else (.VF_SYNC_ERROR, ⟨mode, fun _ => none, 0, false⟩)

/-! ## The code -/

/-- What the code does to a notifier. `call` is `subscribers[i].cb(event, data,
subscribers[i].ctx)`, and ends when the callback does. -/
inductive Cmd (N F P : Type)
  | initialized (n : N)
  | mode (n : N)
  | lock (n : N)
  | unlock (n : N)
  | subscriber_count (n : N)
  | set_subscriber (n : N) (i : Nat) (subscriber : vf_notifier_subscriber_t F P)
  | set_subscriber_count (n : N) (count : Nat)
  | event (n : N) (i : Nat)
  | call (n : N) (i : Nat) (event : vf_notifier_event_t) (data : P)

/-- `lock` and `unlock` answer if they succeed. -/
abbrev Cmd.Ans : Cmd N F P → Type
  | .initialized _ => Bool
  | .mode _ => vf_notifier_mode_t
  | .lock _ => Bool
  | .unlock _ => Bool
  | .subscriber_count _ => Nat
  | .event _ _ => vf_notifier_event_t
  | _ => Unit

abbrev Code (N F P : Type) := Prog (Cmd N F P) Cmd.Ans

abbrev act (c : Cmd N F P) : Code N F P c.Ans := perform c

/-- The part of `vf_notifier_subscribe` between lock and unlock. -/
def add_subscriber (n : N) (subscriber : vf_notifier_subscriber_t F P) :
    Code N F P vf_err_t := do
  let count ← act (.subscriber_count n)
  if count ≥ VF_NOTIFIER_MAX_SUBSCRIBERS then
    return .VF_OOM
  act (.set_subscriber n count subscriber)
  act (.set_subscriber_count n (count + 1))
  return .VF_SUCCESS

def vf_notifier_subscribe (n : N) (event : vf_notifier_event_t) (cb : F) (ctx : P) :
    Code N F P vf_err_t := do
  let initialized ← act (.initialized n)
  if initialized = false then
    return .VF_INIT_FAILED
  let mode ← act (.mode n)
  if vf_notifier_is_receiver mode = false then
    return .VF_INVALID_PARAMETER
  let locked ← act (.lock n)
  if locked = false then
    return .VF_SYNC_ERROR
  let err ← add_subscriber n ⟨event, cb, ctx⟩
  let unlocked ← act (.unlock n)
  if unlocked = false then
    return .VF_SYNC_ERROR
  return err

/-- The loop over the subscribers, from the index `i` on. `all` is the one of the broadcast,
which does not look at their events. Where the count goes on past the last element of the
array, the loop reads behind it. -/
def call_from (all : Bool) (n : N) (event : vf_notifier_event_t) (data : P) :
    Nat → Nat → Code N F P Unit
  | 0, i => do
    let count ← act (.subscriber_count n)
    if i < count then
      let _ ← act (.event n i)
      return ()
    else
      return ()
  | left + 1, i => do
    let count ← act (.subscriber_count n)
    if i < count then
      let subscribed ← if all then pure event else act (.event n i)
      if subscribed ≠ event then
        call_from all n event data left (i + 1)
      else
        act (.call n i event data)
        call_from all n event data left (i + 1)
    else
      return ()

/-- The part of `vf_notifier_publish` and of `vf_notifier_broadcast` between lock and unlock. -/
def call_subscribers (all : Bool) (n : N) (event : vf_notifier_event_t) (data : P) :
    Code N F P Unit := do
  let count ← act (.subscriber_count n)
  if count = 0 then
    return ()
  call_from all n event data VF_NOTIFIER_MAX_SUBSCRIBERS 0

/-- The two functions differ in their loops alone. -/
def send (all : Bool) (n : N) (event : vf_notifier_event_t) (data : P) :
    Code N F P vf_err_t := do
  let initialized ← act (.initialized n)
  if initialized = false then
    return .VF_INIT_FAILED
  let mode ← act (.mode n)
  if vf_notifier_is_sender mode = false then
    return .VF_INVALID_PARAMETER
  let locked ← act (.lock n)
  if locked = false then
    return .VF_SYNC_ERROR
  call_subscribers all n event data
  let unlocked ← act (.unlock n)
  if unlocked = false then
    return .VF_SYNC_ERROR
  return .VF_SUCCESS

def vf_notifier_publish (n : N) (event : vf_notifier_event_t) (data : P) :
    Code N F P vf_err_t := send false n event data

def vf_notifier_broadcast (n : N) (event : vf_notifier_event_t) (data : P) :
    Code N F P vf_err_t := send true n event data

/-! ## The users -/

/-- A call of the API that runs beside others. -/
inductive Api (N F P : Type)
  | subscribe (n : N) (event : vf_notifier_event_t) (cb : F) (ctx : P)
  | publish (n : N) (event : vf_notifier_event_t) (data : P)
  | broadcast (n : N) (event : vf_notifier_event_t) (data : P)

/-- The notifier of the call. -/
def Api.target : Api N F P → N
  | .subscribe n _ _ _ => n
  | .publish n _ _ => n
  | .broadcast n _ _ => n

def Api.code : Api N F P → Code N F P vf_err_t
  | .subscribe n event cb ctx => vf_notifier_subscribe n event cb ctx
  | .publish n event data => vf_notifier_publish n event data
  | .broadcast n event data => vf_notifier_broadcast n event data

/-- What a thread or a callback does outside the notifiers: it calls them, and it logs. -/
inductive Work (N F P : Type)
  | api (c : Api N F P)
  | log_info (text : String)

abbrev Work.Ans : Work N F P → Type
  | .api _ => vf_err_t
  | .log_info _ => Unit

abbrev User (N F P : Type) := Prog (Work N F P) Work.Ans Unit

/-- The callback of `run_scenario`. -/
def on_frame_ready (event : vf_notifier_event_t) (_data _ctx : P) : User N F P :=
  perform (Work.log_info ("Notifier: event received — '" ++ vf_notifier_event2str event ++ "'"))

/-! ## The threads -/

/-- Where a thread is: in its own program or in the one of a callback, or in a call of the API,
with what is left of it and what comes after it. -/
inductive Now (N F P : Type)
  | user (p : User N F P)
  | inside (c : Api N F P) (p : Code N F P vf_err_t) (k : vf_err_t → User N F P)

/-- A call of the API whose callback runs, with what is left of it when the callback is over. -/
structure Caller (N F P : Type) where
  api : Api N F P
  rest : Code N F P vf_err_t
  k : vf_err_t → User N F P

/-- The callers of the callback that runs, from the last one on. -/
structure Thread (N F P : Type) where
  now : Now N F P
  callers : List (Caller N F P)

/-- One callback: its subscriber, and what it gets. -/
structure Delivery (F P : Type) where
  subscriber : vf_notifier_subscriber_t F P
  event : vf_notifier_event_t
  data : P

/-- `holder` is the thread that has locked the mutex. The other fields after it are history:
the callbacks that have begun, and how many have ended, for each notifier; the calls of the API
that have given back the mutex, and those that have returned, each in its order; and the log.
`fault`: a thread read what was not written, or gave back a mutex that it did not have. -/
structure St (N T F P : Type) where
  notifiers : N → vf_notifier_t F P
  holder : N → Option T
  thread : T → Thread N F P
  fault : Bool
  begun : N → List (Delivery F P)
  ended : N → Nat
  history : List (T × Api N F P)
  returned : List (T × Api N F P × vf_err_t)
  logged : List String

/-- After the inits, where each thread is at the start of its program. -/
def St.start (mode : N → vf_notifier_mode_t) (mutex_ok : N → Bool) (main : T → User N F P) :
    St N T F P where
  notifiers := fun n => (vf_notifier_init (mode n) (mutex_ok n)).2
  holder := fun _ => none
  thread := fun t => ⟨.user (main t), []⟩
  fault := false
  begun := fun _ => []
  ended := fun _ => 0
  history := []
  returned := []
  logged := []

variable [DecidableEq N] [DecidableEq T]

def St.blame (s : St N T F P) : St N T F P := { s with fault := true }

def St.put (s : St N T F P) (t : T) (th : Thread N F P) : St N T F P :=
  { s with thread := Function.update s.thread t th }

def St.write (s : St N T F P) (n : N) (notifier : vf_notifier_t F P) : St N T F P :=
  { s with notifiers := Function.update s.notifiers n notifier }

/-- A callback begins. -/
def St.begins (s : St N T F P) (n : N) (d : Delivery F P) : St N T F P :=
  { s with begun := Function.update s.begun n (s.begun n ++ [d]) }

/-- A callback ends. -/
def St.ends (s : St N T F P) (n : N) : St N T F P :=
  { s with ended := Function.update s.ended n (s.ended n + 1) }

/-- The commands other than a call, which the thread `t` makes in the call `c` of the API.
`ok` says if a lock succeeds. `none`: the thread waits for the mutex, also where it has locked
it itself. -/
def command (s : St N T F P) (t : T) (ok : Bool) (c : Api N F P) :
    (cmd : Cmd N F P) → Option (cmd.Ans × St N T F P)
  | .initialized n => some ((s.notifiers n).initialized, s)
  | .mode n => some ((s.notifiers n).mode, s)
  | .lock n =>
    if ok = false then
      some (false, s)
    else if s.holder n = none then
      some (true, { s with holder := Function.update s.holder n (some t) })
    else
      none
  | .unlock n =>
    if s.holder n = some t then
      some (true, { s with
        holder := Function.update s.holder n none
        history := s.history ++ [(t, c)] })
    else
      some (false, s.blame)
  | .subscriber_count n => some ((s.notifiers n).subscriber_count, s)
  | .set_subscriber n i subscriber =>
    if i < VF_NOTIFIER_MAX_SUBSCRIBERS then
      some ((), s.write n { s.notifiers n with
        subscribers := Function.update (s.notifiers n).subscribers i (some subscriber) })
    else
      some ((), s.blame)
  | .set_subscriber_count n count =>
    some ((), s.write n { s.notifiers n with subscriber_count := count })
  | .event n i =>
    match (s.notifiers n).subscribers i with
    | some subscriber => some (subscriber.event, s)
    | none => some (.VF_NOTIFIER_EVENT_UNKNOWN, s.blame)
  | .call _ _ _ _ => none

/-- The thread `a.1` goes on by one command. `body` are the callbacks. -/
def step (body : F → vf_notifier_event_t → P → P → User N F P) (s : St N T F P) (a : T × Bool) :
    Option (St N T F P) :=
  let th := s.thread a.1
  match th.now with
  | .user (.ret ()) =>
    match th.callers with
    | [] => none
    | caller :: callers =>
      some ((s.ends caller.api.target).put a.1
        ⟨.inside caller.api caller.rest caller.k, callers⟩)
  | .user (.op (.api c) k) => some (s.put a.1 ⟨.inside c c.code k, th.callers⟩)
  | .user (.op (.log_info text) k) =>
    some ({ s with logged := s.logged ++ [text] }.put a.1 ⟨.user (k ()), th.callers⟩)
  | .inside c (.ret err) k =>
    some ({ s with returned := s.returned ++ [(a.1, c, err)] }.put a.1 ⟨.user (k err), th.callers⟩)
  | .inside c (.op (.call n i event data) p) k =>
    match (s.notifiers n).subscribers i with
    | none => some s.blame
    | some subscriber =>
      some ((s.begins n ⟨subscriber, event, data⟩).put a.1
        ⟨.user (body subscriber.cb event data subscriber.ctx), ⟨c, p (), k⟩ :: th.callers⟩)
  | .inside c (.op cmd p) k =>
    (command s a.1 a.2 c cmd).map fun r => r.2.put a.1 ⟨.inside c (p r.1) k, th.callers⟩

end vision_flow.notifier
