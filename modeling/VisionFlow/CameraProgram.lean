-- The program with a camera (vf-core.c, vf-control-server.c, main.c): the main thread, which
-- starts the service and the control server and stops them after a signal, the thread of the
-- server, which serves one client after the other, and the clients. The steps of the two
-- threads, of the units, of the clients and of the signal come in any order. The
-- `pthread_create` and the `pthread_join` of the server succeed.
import VisionFlow.ControlPieces
import VisionFlow.Service

namespace vision_flow.camera_program

open programs units lifecycle

/-! ## Commands -/

/-- One step of the main thread or of the server's thread. -/
inductive SysCmd
  | service_init
  | service_deinit
  /-- A call of the service, or what `vf_control_handle_request` does after its `read`. -/
  | call (c : Call)
  | socket
  | bind
  | listen
  | shutdown
  | close_listener
  /-- `srv->server_fd >= 0`. -/
  | has_fd
  | load_initialized
  | set_initialized (b : Bool)
  | load_running
  | set_running (b : Bool)
  /-- `memset(srv, 0, sizeof(*srv))`. -/
  | clear
  | pthread_create
  | pthread_join
  | accept
  /-- The `read` of the client's socket, at the start of `vf_control_handle_request`. -/
  | read
  | close

/-- The answers. `true` is a success of the system call, or the flag. -/
abbrev SysCmd.Res : SysCmd → Type
  | .service_init => vf_err_t
  | .call _ => vf_err_t
  | .socket => Bool
  | .bind => Bool
  | .listen => Bool
  | .has_fd => Bool
  | .load_initialized => Bool
  | .load_running => Bool
  | .accept => Bool
  | .read => List Char
  | _ => Unit

abbrev Code := Prog SysCmd SysCmd.Res

abbrev sys (c : SysCmd) : Code c.Res := perform c

def EOK : Nat := 0

/-! ## The control server -/

def vf_control_server_init : Code vf_err_t := do
  let ok ← sys .socket
  if !ok then
    return .VF_SYNC_ERROR
  let ok ← sys .bind
  if !ok then
    sys .close_listener
    return .VF_SYNC_ERROR
  let ok ← sys .listen
  if !ok then
    sys .close_listener
    return .VF_SYNC_ERROR
  sys (.set_initialized true)
  return .VF_SUCCESS

def vf_control_server_start : Code vf_err_t := do
  let initialized ← sys .load_initialized
  if !initialized then
    return .VF_INIT_FAILED
  sys (.set_running true)
  sys .pthread_create
  -- the source compares the constant, not the return code
  if EOK ≠ 0 then
    sys (.set_running false)
    return .VF_SYNC_ERROR
  return .VF_SUCCESS

def vf_control_server_stop : Code vf_err_t := do
  let initialized ← sys .load_initialized
  if !initialized then
    return .VF_INIT_FAILED
  sys (.set_running false)
  let fd ← sys .has_fd
  if fd then
    sys .shutdown
  sys .pthread_join
  if EOK ≠ 0 then
    return .VF_SYNC_ERROR
  return .VF_SUCCESS

def vf_control_server_deinit : Code Unit := do
  let initialized ← sys .load_initialized
  if !initialized then
    return ()
  let fd ← sys .has_fd
  if fd then
    sys .close_listener
  sys .clear

/-- The body of the loop of `vf_control_server_thread_fn`. `true` is its `break`. -/
def vf_control_server_thread_fn : Code Bool := do
  let ok ← sys .accept
  if !ok then
    let running ← sys .load_running
    return !running
  let text ← sys .read
  let _ ← sys (.call (.request text))
  sys .close
  return false

/-! ## The main thread -/

/-- `run_camera_scenario` up to its loop, which is `none`. -/
def setup : Code (Option vf_err_t) := do
  let err ← sys .service_init
  if err ≠ .VF_SUCCESS then
    return some err
  let err ← sys (.call .service_start)
  if err ≠ .VF_SUCCESS then
    sys .service_deinit
    return some err
  let err ← vf_control_server_init
  if err ≠ .VF_SUCCESS then
    let err ← sys (.call .service_stop)
    sys .service_deinit
    return some err
  let err ← vf_control_server_start
  if err ≠ .VF_SUCCESS then
    vf_control_server_deinit
    let err ← sys (.call .service_stop)
    sys .service_deinit
    return some err
  return none

/-- `run_camera_scenario` after its loop. -/
def wind_up : Code (Option vf_err_t) := do
  let _ ← vf_control_server_stop
  vf_control_server_deinit
  let err ← sys (.call .service_stop)
  sys .service_deinit
  return some err

/-! ## The state -/

/-- `VF_CAMERA_WIDTH` and the other constants of `run_camera_scenario`. -/
def camera_cfg : service.vf_service_cfg_t :=
  ⟨640, 480, .VF_PIXEL_FMT_YUYV, .VF_PIXEL_FMT_RGB888, 4⟩

/-- Where a thread is: at the test of its loop, in its own code, or inside a call of the
service, with what is left of the call and what comes after it. Or there is no thread. -/
inductive Pc (α : Type)
  | loop
  | code (p : Code α)
  | inside (c : Call) (q : ServiceCode vf_err_t) (k : vf_err_t → Code α)
  | gone

def Pc.is_gone {α : Type} : Pc α → Bool
  | .gone => true
  | _ => false

/-- The call that the thread is in, with what is left of it. -/
def Pc.calling {α : Type} : Pc α → Option (Call × ServiceCode vf_err_t)
  | .inside c q _ => some (c, q)
  | _ => none

inductive Listener
  | opened
  | listening
  | shut
  deriving DecidableEq

/-- What the first `read` of a client's socket finds. -/
structure Client where
  sent : Option (List Char)
  hung_up : Bool

/-- `svc` is the service, or `none` before its init and after its deinit, where it is zeros.
`listener` is the socket of `srv->server_fd`, and `joinable` says that there is a thread of
the server to join. `clients` come in the order of their numbers, and `open_fds` are those
whose socket is open here. `killed`: the process got SIGPIPE. `fault`: a thread used what it
had closed, freed or never had, or still goes on where this is freed. The last two fields are history: the calls of the service,
and the clients whose sockets were closed. -/
structure St where
  g_running : Bool
  svc : Option service.St
  initialized : Bool
  running : Bool
  listener : Option Listener
  joinable : Bool
  clients : Nat → Client
  arrived : Nat
  accepted : Nat
  open_fds : Finset Nat
  client_fd : Option Nat
  main : Pc (Option vf_err_t)
  server : Pc Bool
  exit_code : Option vf_err_t
  killed : Bool
  fault : Bool
  calls : List Call
  closed : List Nat

def St.start : St where
  g_running := true
  svc := none
  initialized := false
  running := false
  listener := none
  joinable := false
  clients := fun _ => ⟨none, false⟩
  arrived := 0
  accepted := 0
  open_fds := ∅
  client_fd := none
  main := .code setup
  server := .gone
  exit_code := none
  killed := false
  fault := false
  calls := []
  closed := []

/-- A fault, if `b` says so. -/
def St.blame (s : St) (b : Bool) : St := { s with fault := s.fault || b }

/-- There is a thread of the server. -/
def St.serves (s : St) : Bool := !s.server.is_gone

/-- A unit of the service has a thread. -/
def St.unit_threads (s : St) : Bool :=
  match s.svc with
  | none => false
  | some v => pipeline_units.any fun u => !(v.threads u).isEmpty

/-! ## What a command does -/

/-- What the world outside decides: if the service's init and the system calls succeed. -/
structure Oracle where
  err : vf_err_t
  ok : Bool

def do_accept (o : Oracle) (s : St) : Option (Bool × St) :=
  match s.listener with
  | none => some (false, { s.blame true with client_fd := none })
  | some .opened => some (false, { s.blame true with client_fd := none })
  | some l =>
    if !o.ok then
      some (false, { s with client_fd := none })
    else if s.accepted < s.arrived then
      some (true, { s with
        client_fd := some s.accepted
        accepted := s.accepted + 1
        open_fds := insert s.accepted s.open_fds })
    else if l = .shut then
      some (false, { s with client_fd := none })
    else
      none

/-- Nothing read, or an error of `read`, is `[]`. -/
def do_read (o : Oracle) (s : St) : Option (List Char × St) :=
  match s.client_fd with
  | none => some ([], s)
  | some n =>
    if n ∉ s.open_fds then
      some ([], s.blame true)
    else
      match (s.clients n).sent with
      | some text => some (text, s)
      | none => if (s.clients n).hung_up || !o.ok then some ([], s) else none

def do_close (s : St) : St :=
  match s.client_fd with
  | none => s
  | some n => { s.blame (n ∉ s.open_fds) with
      open_fds := s.open_fds.erase n
      closed := s.closed ++ [n] }

/-- `write`. A client that has hung up is the end of the process. -/
def do_write (s : St) : St :=
  match s.client_fd with
  | none => s
  | some n =>
    if n ∉ s.open_fds then s.blame true
    else if (s.clients n).hung_up then { s with killed := true }
    else s

/-- The commands other than a call. `none`: the thread waits. -/
def do_sys (o : Oracle) (s : St) : (c : SysCmd) → Option (c.Res × St)
  | .service_init =>
    if o.err ≠ .VF_SUCCESS then
      some (o.err, s)
    else
      match service.vf_service_init camera_cfg with
      | .error err => some (err, s)
      | .ok m => some (.VF_SUCCESS, { s with svc := some (.init m) })
  | .service_deinit =>
    some ((), { s.blame (s.svc.isNone || s.serves || s.unit_threads) with svc := none })
  | .call _ => none
  | .socket =>
    if o.ok then some (true, { s with listener := some .opened }) else some (false, s)
  | .bind => some (o.ok, s)
  | .listen =>
    if o.ok then some (true, { s with listener := some .listening }) else some (false, s)
  | .shutdown => some ((), { s with listener := s.listener.map fun _ => .shut })
  | .close_listener =>
    some ((), { s.blame (s.listener.isNone || s.serves) with listener := none })
  | .has_fd => some (s.listener.isSome, s)
  | .load_initialized => some (s.initialized, s)
  | .set_initialized b => some ((), { s with initialized := b })
  | .load_running => some (s.running, s)
  | .set_running b => some ((), { s with running := b })
  | .clear => some ((), { s.blame s.serves with initialized := false, running := false })
  | .pthread_create => some ((), { s.blame s.joinable with server := .loop, joinable := true })
  | .pthread_join =>
    if s.serves then none else some ((), { s.blame (!s.joinable) with joinable := false })
  | .accept => do_accept o s
  | .read => do_read o s
  | .close => some ((), do_close s)

/-- The command answers the client. -/
def writes : CtlCmd UnitId QueueId → Bool
  | .send_response _ => true
  | .send_stats => true
  | _ => false

/-- A command of the service's functions. A service of zeros refuses it. -/
def do_service (o : Oracle) (s : St) (c : CtlCmd UnitId QueueId) : Option (c.Res × St) :=
  let s := if writes c then do_write s else s
  match s.svc with
  | none => some (control_pieces.refuses c, s)
  | some v => (service.control v o.ok c).map fun r => (r.1, { s with svc := some r.2 })

/-- A call begins. What changes here is history. -/
def St.enter (s : St) (c : Call) : St :=
  { s with
    svc := s.svc.map fun v => { (if c.starts then v.begin else v) with response := none }
    calls := s.calls ++ [c] }

/-! ## Steps -/

/-- A thread goes on in its code, or inside a call. -/
def advance {α : Type} (o : Oracle) (s : St) : Pc α → Option (Pc α × St)
  | .code (.op (.call c) k) => some (.inside c c.code k, s.enter c)
  | .code (.op c k) => (do_sys o s c).map fun r => (.code (k r.1), r.2)
  | .inside c (.op cmd q) k => (do_service o s cmd).map fun r => (.inside c (q r.1) k, r.2)
  | .inside _ (.ret err) k => some (.code (k err), s)
  | _ => none

/-- The main thread. Its loop sleeps until the signal has come. -/
def main_step (o : Oracle) (s : St) : Option St :=
  match s.main with
  | .loop => some (if s.g_running then s else { s with main := .code wind_up })
  | .code (.ret none) => some { s with main := .loop }
  | .code (.ret (some err)) => some { s with main := .gone, exit_code := some err }
  | pc => (advance o s pc).map fun r => { r.2 with main := r.1 }

def server_step (o : Oracle) (s : St) : Option St :=
  match s.server with
  | .loop => some { s with
      server := if s.running then .code vf_control_server_thread_fn else .gone }
  | .code (.ret stop) => some { s with server := if stop then .gone else .loop }
  | pc => (advance o s pc).map fun r => { r.2 with server := r.1 }

inductive Act
  | main (o : Oracle)
  | server (o : Oracle)
  /-- The thread `tid` of a unit runs. -/
  | worker (u : UnitId) (tid : Nat) (o : service.Oracle)
  /-- It wakes up without a signal. -/
  | wake_up (u : UnitId) (tid : Nat)
  /-- `signal_handler`. -/
  | signal
  | connect
  | send (n : Nat) (text : List Char)
  | hang_up (n : Nat)

/-- `none`: the step does not happen in this state. -/
def step (s : St) (a : Act) : Option St :=
  if s.killed then
    none
  else
    match a with
    | .main o => main_step o s
    | .server o => server_step o s
    | .worker u tid o => s.svc.bind fun v =>
      (service.step v (.worker u tid o)).map fun v' => { s with svc := some v' }
    | .wake_up u tid => s.svc.bind fun v =>
      (service.step v (.wake_up u tid)).map fun v' => { s with svc := some v' }
    | .signal => some { s with g_running := false }
    | .connect =>
      if s.listener = some .listening then some { s with arrived := s.arrived + 1 } else none
    | .send n text =>
      if n < s.arrived ∧ (s.clients n).sent = none ∧ (s.clients n).hung_up = false ∧ text ≠ [] then
        some { s with clients := Function.update s.clients n ⟨some text, false⟩ }
      else none
    | .hang_up n =>
      if n < s.arrived then
        some { s with clients := Function.update s.clients n ⟨(s.clients n).sent, true⟩ }
      else none

/-- The call of the service that a thread is in. -/
def St.calling (s : St) : Option (Call × ServiceCode vf_err_t) :=
  match s.main.calling with
  | some c => some c
  | none => s.server.calling

end vision_flow.camera_program
