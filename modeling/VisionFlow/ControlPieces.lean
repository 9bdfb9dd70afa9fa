-- A control request that comes in pieces (vf-control-handler.c, vf-control-server.c). The
-- server makes one read for each connection, so it answers the first piece alone. It does
-- what the client asks for just if the key of the command is in that piece.
import VisionFlow.Lifecycle

namespace vision_flow.control_pieces

open programs units lifecycle

/-! ## The pieces of a message -/

/-- A message that a client sends, and the pieces that the reads of its socket return. -/
structure Delivery where
  body : List Char
  pieces : List (List Char)
  nonempty : ∀ piece ∈ pieces, piece ≠ []
  whole : pieces.flatten = body ++ ['\n']

def Delivery.message (d : Delivery) : List Char := d.body ++ ['\n']

def Delivery.first (d : Delivery) : List Char := d.pieces.headD []

/-- What `vf_control_server_thread_fn` does with a connection: there is one read, and then
the socket is closed. -/
def serve_connection (pieces : List (List Char)) : ServiceCode vf_err_t :=
  vf_control_handle_request (pieces.headD [])

/-- The texts of vf_client. -/
def flag_to_cmd (flag : String) : Option String :=
  if flag = "--get_status" then some "\x7b\"cmd\":\"get_status\"\x7d\n"
  else if flag = "--get_stats" then some "\x7b\"cmd\":\"get_stats\"\x7d\n"
  else if flag = "--stop" then some "\x7b\"cmd\":\"stop\"\x7d\n"
  else if flag = "--start" then some "\x7b\"cmd\":\"start\"\x7d\n"
  else none

/-- The text that `vf_control_handle_request` looks for. -/
def key : Command → List Char
  | .get_status => "\"cmd\":\"get_status\"".toList
  | .get_stats => "\"cmd\":\"get_stats\"".toList
  | .stop => "\"cmd\":\"stop\"".toList
  | .start => "\"cmd\":\"start\"".toList

/-- On each service, from each state, the programs execute the same commands with the same
answers, send the same responses and return the same code. -/
def SameRuns (p q : ServiceCode vf_err_t) : Prop :=
  ∀ (σ : Type) (step : (c : CtlCmd UnitId QueueId) → σ → Option (c.Res × σ)) (s : σ),
    exec step p s = exec step q s

/-- If the message has a command, its key is in what the first read returns. -/
def Delivery.KeyInFirst (d : Delivery) : Prop :=
  ∀ c, command_of (read_request d.message) = some c →
    strstr (read_request d.first) (key c) = true

/-! ## Keys in a part of a message -/

section
variable {a b : List Char}

/-- A text that is found in a part is found in the whole. -/
theorem strstr_mono (h : a <+: b) {needle : List Char} (ha : strstr a needle = true) :
    strstr b needle = true := by
  unfold strstr at ha ⊢
  rw [decide_eq_true_iff] at ha ⊢
  obtain ⟨t, rfl⟩ := h
  refine ha.trans ?_
  rw [List.takeWhile_append]
  split
  · exact ((List.takeWhile_prefix _).trans (List.prefix_append a _)).isInfix
  · exact List.infix_rfl

theorem find_cons_eq_ite {α : Type} (p : α → Bool) (x : α) (l : List α) :
    (x :: l).find? p = if p x = true then some x else l.find? p := by
  split
  · rename_i hx
    exact List.find?_cons_of_pos hx
  · rename_i hx
    exact List.find?_cons_of_neg hx

/-- The tests are made in the order of this list, and the first one that holds decides. -/
theorem command_of_eq_find (buf : List Char) : command_of buf =
    [Command.get_status, .get_stats, .stop, .start].find? fun c => strstr buf (key c) := by
  simp only [find_cons_eq_ite, List.find?_nil]
  rfl

/-- If each test that holds on the left holds on the right, the two searches agree just if
the test that decides on the right holds on the left too. -/
theorem find_eq_find {α : Type} {p q : α → Bool} (hpq : ∀ x, p x = true → q x = true)
    (l : List α) : l.find? p = l.find? q ↔ ∀ x, l.find? q = some x → p x = true := by
  constructor
  · intro heq x hx
    exact List.find?_some (heq.trans hx)
  · intro h
    induction l with
    | nil => rfl
    | cons x rest ih =>
      by_cases hq : q x = true
      · have hp : p x = true := h x (by simp [hq])
        simp [hp, hq]
      · have hp : ¬ p x = true := fun hp => hq (hpq x hp)
        rw [List.find?_cons_of_neg hp, List.find?_cons_of_neg hq]
        exact ih fun y hy => h y (by rwa [List.find?_cons_of_neg hq])

/-- A part of a message has the same command just if it has the key of that command. -/
theorem command_of_part (h : a <+: b) : command_of a = command_of b ↔
    ∀ c, command_of b = some c → strstr a (key c) = true := by
  rw [command_of_eq_find a, command_of_eq_find b]
  exact find_eq_find (fun c => strstr_mono h) _

end

/-! ## What a request does -/

/-- A service that is not initialised: each command fails. -/
def refuses : (c : CtlCmd UnitId QueueId) → c.Res
  | .initialized _ => false
  | .load_running _ => false
  | .pthread_create _ => false
  | .pthread_join _ => false
  | .set_running _ _ => ()
  | .pool_reset _ => ()
  | .pool_shutdown _ => ()
  | .queue_reset _ => ()
  | .queue_shutdown _ => ()
  | .send_response _ => ()
  | .send_stats => ()

/-- It keeps a log of the commands. -/
def logged (c : CtlCmd UnitId QueueId) (log : List (CtlCmd UnitId QueueId)) :
    Option (c.Res × List (CtlCmd UnitId QueueId)) :=
  some (refuses c, log ++ [c])

/-- The log of a request with this command. -/
def log_of : Option Command → List (CtlCmd UnitId QueueId)
  | some .get_status => [.initialized .service,
    .send_response "\x7b\"status\":\"ok\",\"data\":\x7b\"service\":\"stopped\"\x7d\x7d\n"]
  | some .get_stats => [.send_stats]
  | some .stop =>
    [.initialized .service, .send_response (error_response "failed to stop service")]
  | some .start =>
    [.initialized .service, .send_response (error_response "failed to start service")]
  | none => [.send_response (error_response "unknown command")]

theorem log_of_injective : Function.Injective log_of := by
  intro c c' h
  rcases c with _ | _ | _ | _ | _ <;> rcases c' with _ | _ | _ | _ | _ <;>
    first | rfl | exact absurd h (by decide)

theorem vf_control_handle_request.logs {request : List Char} (h : read_request request ≠ []) :
    exec logged (vf_control_handle_request request) [] =
      some (.VF_SUCCESS, log_of (command_of (read_request request))) := by
  unfold vf_control_handle_request
  rw [if_neg h]
  rcases command_of (read_request request) with _ | _ | _ | _ | _ <;> rfl

/-- Two requests are handled alike just if they have the same command. -/
theorem same_runs_iff {request request' : List Char} (h : read_request request ≠ [])
    (h' : read_request request' ≠ []) :
    SameRuns (vf_control_handle_request request) (vf_control_handle_request request') ↔
      command_of (read_request request) = command_of (read_request request') := by
  constructor
  · intro hsame
    have hlog := hsame _ logged []
    rw [vf_control_handle_request.logs h, vf_control_handle_request.logs h'] at hlog
    exact log_of_injective (by simpa using hlog)
  · intro hcmd σ step s
    unfold vf_control_handle_request
    rw [if_neg h, if_neg h', hcmd]

/-! ## The first piece -/

section
variable (d : Delivery)

theorem Delivery.pieces_ne_nil : d.pieces ≠ [] := by
  intro h
  have hwhole := d.whole
  simp [h] at hwhole

theorem Delivery.first_mem : d.first ∈ d.pieces := by
  unfold Delivery.first
  rcases h : d.pieces with _ | ⟨piece, rest⟩
  · exact absurd h d.pieces_ne_nil
  · exact List.mem_cons_self

theorem Delivery.first_part : d.first <+: d.message := by
  unfold Delivery.first Delivery.message
  rw [← d.whole]
  rcases d.pieces with _ | ⟨piece, rest⟩
  · exact List.nil_prefix
  · exact List.prefix_append piece rest.flatten

theorem read_ne_nil {request : List Char} (h : request ≠ []) : read_request request ≠ [] := by
  rcases request with _ | ⟨c, rest⟩
  · exact absurd rfl h
  · simp [read_request, VF_CONTROL_BUFFER_SIZE]

theorem Delivery.same_runs_iff : SameRuns (serve_connection d.pieces)
    (serve_connection [d.message]) ↔
      command_of (read_request d.first) = command_of (read_request d.message) :=
  control_pieces.same_runs_iff (read_ne_nil (d.nonempty d.first d.first_mem))
    (read_ne_nil (by simp [Delivery.message]))

/-- However the socket cuts a message, the server does what it does for the whole message
just if the first read returns the key of the message's command. -/
theorem a_request_is_served_just_if_its_key_is_in_the_first_piece :
    SameRuns (serve_connection d.pieces) (serve_connection [d.message]) ↔ d.KeyInFirst := by
  rw [d.same_runs_iff]
  exact command_of_part (d.first_part.take _)

end

/-- A stop whose first piece ends within its key. -/
def cut_stop : Delivery where
  body := "\x7b\"cmd\":\"stop\"\x7d".toList
  pieces := ["\x7b\"cmd\":\"st".toList, "op\"\x7d\n".toList]
  nonempty := by decide
  whole := by decide

/-- The server answers that the command is unknown, and the service is not stopped. -/
theorem a_cut_stop_is_unknown :
    ¬ ∀ d : Delivery, SameRuns (serve_connection d.pieces) (serve_connection [d.message]) := by
  intro h
  have hcmd := cut_stop.same_runs_iff.mp (h cut_stop)
  exact absurd hcmd (by decide +kernel)

/-! ## The client -/

/-- A text in braces that begins with a quote is in a first part just if at most the closing
brace and the newline are missing. -/
theorem infix_of_part {text part : List Char}
    (h : part <+: '\x7b' :: '"' :: (text ++ ['\x7d', '\n'])) :
    '"' :: text <:+: part ↔ text.length + 2 ≤ part.length := by
  constructor
  · rintro ⟨before, after, rfl⟩
    cases before with
    | nil =>
      obtain ⟨t, ht⟩ := h
      simp at ht
    | cons x before =>
      simp only [List.length_append, List.length_cons]
      omega
  · intro hlen
    have hwhole : '\x7b' :: '"' :: text <+: part := by
      refine List.prefix_of_prefix_length_le ?_ h (by simp only [List.length_cons]; omega)
      exact ⟨['\x7d', '\n'], rfl⟩
    exact (List.infix_cons List.infix_rfl).trans hwhole.isInfix

theorem strstr_of_part {text part : List Char} (hnul : '\x00' ∉ text)
    (h : part <+: '\x7b' :: '"' :: (text ++ ['\x7d', '\n'])) :
    strstr part ('"' :: text) = true ↔ text.length + 2 ≤ part.length := by
  have hall : part.takeWhile (· ≠ '\x00') = part := by
    rw [List.takeWhile_eq_self_iff]
    intro c hc
    have hmem := h.subset hc
    simp only [List.mem_cons, List.mem_append, List.not_mem_nil, or_false] at hmem
    rcases hmem with rfl | rfl | hc | rfl | rfl
    · rfl
    · rfl
    · have hne : c ≠ '\x00' := fun heq => hnul (heq ▸ hc)
      simpa using hne
    · rfl
    · rfl
  unfold strstr
  rw [hall, decide_eq_true_iff]
  exact infix_of_part h

/-- Each text of the client is the key of its command in braces. -/
theorem flag_to_cmd.spec {flag cmd : String} (h : flag_to_cmd flag = some cmd) :
    ∃ c text, key c = '"' :: text ∧ '\x00' ∉ text ∧ text.length < 20 ∧
      cmd.toList = '\x7b' :: '"' :: (text ++ ['\x7d', '\n']) ∧
      command_of (read_request cmd.toList) = some c := by
  unfold flag_to_cmd at h
  split at h
  · cases h
    exact ⟨.get_status, _, rfl, by decide, by decide, rfl, by decide +kernel⟩
  · split at h
    · cases h
      exact ⟨.get_stats, _, rfl, by decide, by decide, rfl, by decide +kernel⟩
    · split at h
      · cases h
        exact ⟨.stop, _, rfl, by decide, by decide, rfl, by decide +kernel⟩
      · split at h
        · cases h
          exact ⟨.start, _, rfl, by decide, by decide, rfl, by decide +kernel⟩
        · cases h

/-- A command of the client is understood just if at most the closing brace and the newline
come after the first read. -/
theorem the_client_is_understood_just_if_two_bytes_are_late {flag cmd : String} (d : Delivery)
    (hflag : flag_to_cmd flag = some cmd) (hd : d.message = cmd.toList) :
    SameRuns (serve_connection d.pieces) (serve_connection [d.message]) ↔
      d.message.length ≤ d.first.length + 2 := by
  obtain ⟨c, text, hkey, hnul, hlen, htext, hcommand⟩ := flag_to_cmd.spec hflag
  have hpart : read_request d.first <+: read_request d.message := d.first_part.take _
  have hfirst : d.first <+: '\x7b' :: '"' :: (text ++ ['\x7d', '\n']) := by
    rw [← htext, ← hd]
    exact d.first_part
  have hfits : read_request d.first = d.first := by
    have := hfirst.length_le
    simp only [List.length_cons, List.length_append, List.length_nil] at this
    exact List.take_of_length_le (by unfold VF_CONTROL_BUFFER_SIZE; omega)
  rw [d.same_runs_iff, command_of_part hpart, hd, hcommand, htext, hfits]
  simp only [Option.some.injEq, forall_eq', hkey, strstr_of_part hnul hfirst,
    List.length_cons, List.length_append, List.length_nil]
  omega

/-- The stop of the client, whose last two bytes come late. -/
def late_stop : Delivery where
  body := "\x7b\"cmd\":\"stop\"\x7d".toList
  pieces := ["\x7b\"cmd\":\"stop\"".toList, "\x7d\n".toList]
  nonempty := by decide
  whole := by decide

theorem a_late_stop_is_understood :
    SameRuns (serve_connection late_stop.pieces) (serve_connection [late_stop.message]) :=
  (the_client_is_understood_just_if_two_bytes_are_late late_stop
    (show flag_to_cmd "--stop" = some _ from rfl) (by decide)).mpr (by decide)

end vision_flow.control_pieces
