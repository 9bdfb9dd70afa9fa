-- Start and stop, from the unit (vf-processing-unit.c) over the pipeline
-- (vf-pipeline-mgr.c) and the service (vf-service.c) to the control requests
-- (vf-control-handler.c), as programs of the one thread that calls them. The pointers
-- are not NULL, and the logging is left out.
import VisionFlow.Units

namespace vision_flow.lifecycle

open programs units

/-! ## Commands -/

/-- What has an `initialized` flag. -/
inductive Object (U : Type)
  | service
  | pipeline
  | unit (u : U)
  deriving DecidableEq

/-- One step of the calling thread. `U` are the units, and `Q` the queues. -/
inductive CtlCmd (U Q : Type)
  | initialized (o : Object U)
  /-- `atomic_store(&unit->running, b)`. -/
  | set_running (u : U) (b : Bool)
  | load_running (u : U)
  | pthread_create (u : U)
  | pthread_join (u : U)
  | pool_reset (pool : PoolId)
  | pool_shutdown (pool : PoolId)
  | queue_reset (q : Q)
  | queue_shutdown (q : Q)
  | send_response (response : String)
  /-- The response with the statistics, whose text is left open. -/
  | send_stats
  deriving DecidableEq

/-- The answers to a command. `true` of a pthread call is `EOK`. -/
abbrev CtlCmd.Res {U Q : Type} : CtlCmd U Q → Type
  | .initialized _ => Bool
  | .load_running _ => Bool
  | .pthread_create _ => Bool
  | .pthread_join _ => Bool
  | _ => Unit

variable {U Q : Type}

abbrev CtlCode (U Q : Type) := Prog (CtlCmd U Q) CtlCmd.Res

/-- The program of one command. -/
abbrev ctl (c : CtlCmd U Q) : CtlCode U Q c.Res := perform c

/-! ## Units and pipelines -/

section
variable (in_queue : U → Option Q)

def vf_unit_start (u : U) : CtlCode U Q vf_err_t := do
  let init ← ctl (.initialized (.unit u))
  if !init then
    return .VF_INIT_FAILED
  ctl (.set_running u true)
  let ok ← ctl (.pthread_create u)
  if !ok then
    ctl (.set_running u false)
    return .VF_SYNC_ERROR
  return .VF_SUCCESS

/-- `in_queue u` is `unit->in_queue`, with `none` for NULL. -/
def vf_unit_stop (u : U) : CtlCode U Q vf_err_t := do
  let running ← ctl (.load_running u)
  if running = false then
    return .VF_SUCCESS
  ctl (.set_running u false)
  if let some q := in_queue u then
    ctl (.queue_shutdown q)
  let ok ← ctl (.pthread_join u)
  if !ok then
    return .VF_SYNC_ERROR
  return .VF_SUCCESS

/-- The loop that stops the started units, the last one first. It returns the code of
its last call. -/
def roll_back : vf_err_t → List U → CtlCode U Q vf_err_t
  | err, [] => return err
  | _, u :: started => do
    let err ← vf_unit_stop in_queue u
    roll_back err started

/-- The loop that starts the units. `started` are the units before, the last one first. -/
def start_units : List U → List U → CtlCode U Q vf_err_t
  | _, [] => return .VF_SUCCESS
  | started, u :: rest => do
    let err ← vf_unit_start u
    if err ≠ .VF_SUCCESS then
      roll_back in_queue err started
    else
      start_units (u :: started) rest

def vf_pipeline_start (units : List U) : CtlCode U Q vf_err_t := do
  let init ← ctl (.initialized .pipeline)
  if !init then
    return .VF_INIT_FAILED
  start_units in_queue [] units

/-- The loop that stops the units. It only logs an error. -/
def stop_units : List U → CtlCode U Q Unit
  | [] => return ()
  | u :: rest => do
    let _ ← vf_unit_stop in_queue u
    stop_units rest

def vf_pipeline_stop (units : List U) : CtlCode U Q vf_err_t := do
  let init ← ctl (.initialized .pipeline)
  if !init then
    return .VF_INIT_FAILED
  stop_units in_queue units.reverse
  return .VF_SUCCESS

end

/-! ## The service -/

/-- The units in the order of the calls of `vf_pipeline_add_unit`. -/
def pipeline_units : List UnitId := [.camera, .stream_provider, .conversion, .file_out]

abbrev ServiceCode := CtlCode UnitId QueueId

def vf_service_start : ServiceCode vf_err_t := do
  let init ← ctl (.initialized .service)
  if !init then
    return .VF_INIT_FAILED
  ctl (.pool_reset .pool_in)
  ctl (.pool_reset .pool_out)
  ctl (.queue_reset .queue0)
  ctl (.queue_reset .queue1)
  ctl (.queue_reset .queue2)
  let err ← vf_pipeline_start (fun u => u.unit.in_queue) pipeline_units
  if err ≠ .VF_SUCCESS then
    return err
  return .VF_SUCCESS

def vf_service_stop : ServiceCode vf_err_t := do
  let init ← ctl (.initialized .service)
  if !init then
    return .VF_INIT_FAILED
  ctl (.pool_shutdown .pool_in)
  ctl (.pool_shutdown .pool_out)
  let err ← vf_pipeline_stop (fun u => u.unit.in_queue) pipeline_units
  if err ≠ .VF_SUCCESS then
    return err
  return .VF_SUCCESS

/-! ## Control requests -/

def error_response (message : String) : String :=
  "\x7b\"status\":\"error\",\"message\":\"" ++ message ++ "\"\x7d\n"

def send_error (message : String) : ServiceCode Unit :=
  ctl (.send_response (error_response message))

def started_response : String := "\x7b\"status\":\"ok\",\"message\":\"service started\"\x7d\n"
def stopped_response : String := "\x7b\"status\":\"ok\",\"message\":\"service stopped\"\x7d\n"

def handle_get_status : ServiceCode Unit := do
  let init ← ctl (.initialized .service)
  let service := if init then "running" else "stopped"
  ctl (.send_response
    ("\x7b\"status\":\"ok\",\"data\":\x7b\"service\":\"" ++ service ++ "\"\x7d\x7d\n"))

def handle_get_stats : ServiceCode Unit := ctl .send_stats

def handle_stop : ServiceCode Unit := do
  let err ← vf_service_stop
  if err ≠ .VF_SUCCESS then
    send_error "failed to stop service"
  else
    ctl (.send_response stopped_response)

def handle_start : ServiceCode Unit := do
  let err ← vf_service_start
  if err ≠ .VF_SUCCESS then
    send_error "failed to start service"
  else
    ctl (.send_response started_response)

def VF_CONTROL_BUFFER_SIZE : Nat := 1024

/-- If `needle` occurs in `buf`, which ends at its first NUL. -/
def strstr (buf needle : List Char) : Bool := needle <:+: buf.takeWhile (· ≠ '\x00')

inductive Command
  | get_status
  | get_stats
  | stop
  | start
  deriving DecidableEq

/-- The tests of `vf_control_handle_request`, in its order. -/
def command_of (buf : List Char) : Option Command :=
  if strstr buf "\"cmd\":\"get_status\"".toList then some .get_status
  else if strstr buf "\"cmd\":\"get_stats\"".toList then some .get_stats
  else if strstr buf "\"cmd\":\"stop\"".toList then some .stop
  else if strstr buf "\"cmd\":\"start\"".toList then some .start
  else none

/-- The bytes that `read` stores in the buffer. -/
def read_request (request : List Char) : List Char := request.take (VF_CONTROL_BUFFER_SIZE - 1)

/-- `request` is what the client sent. Nothing read, or an error of `read`, is `[]`. -/
def vf_control_handle_request (request : List Char) : ServiceCode vf_err_t := do
  if read_request request = [] then
    return .VF_FILE_ERR
  match command_of (read_request request) with
  | some .get_status => handle_get_status
  | some .get_stats => handle_get_stats
  | some .stop => handle_stop
  | some .start => handle_start
  | none => send_error "unknown command"
  return .VF_SUCCESS

/-- The calls of the thread that controls the service. -/
inductive Call
  | service_start
  | service_stop
  | request (text : List Char)
  deriving DecidableEq

def Call.code : Call → ServiceCode vf_err_t
  | .service_start => vf_service_start
  | .service_stop => vf_service_stop
  | .request text => vf_control_handle_request text

/-- The call starts the service. -/
def Call.starts : Call → Bool
  | .service_start => true
  | .service_stop => false
  | .request text => command_of (read_request text) = some .start

/-- The call stops the service. -/
def Call.stops : Call → Bool
  | .service_start => false
  | .service_stop => true
  | .request text => command_of (read_request text) = some .stop

/-- The call asks for the status. -/
def Call.asks_status : Call → Bool
  | .service_start => false
  | .service_stop => false
  | .request text => command_of (read_request text) = some .get_status

end vision_flow.lifecycle
