-- The parser makes no access that is not allowed and keeps no block that it should free, for
-- each file, each pattern of failed allocations and each answer of `atoi`. Its run follows
-- the parser on texts (Parser.lean), so it also returns what that one returns.
import VisionFlow.ParserAccesses
import VisionFlow.ParserLayouts
import VisionFlow.ParserPlaces

namespace vision_flow.parser_memory

open c_memory search
open parser (Text Alloc Key vf_pixel_format_t VF_PARSER_MAX_NAME_LEN VF_PARSER_MAX_BASE_PATH_LEN
  VF_PARSER_MAX_FILE_NAME_LEN VF_PARSER_MAX_FULL_PATH_LEN MAX_FILE_SIZE vf_parser_str_to_format)

/-! ## The parser on texts, with any `atoi` -/

section
variable (env : Env)

def int_at (src : Text) : Option Int :=
  (parser.strchr src ':').map fun colon => (env.atoi (colon.drop 1)).toInt

def frame_of (base_path cursor : Text) : Except vf_err_t (parser.vf_frame_info_t × Text) := do
  let file ← parser.need (parser.strstr cursor Key.file.quoted)
  let file_name ←
    parser.need (parser.vf_parser_extract_string file VF_PARSER_MAX_FILE_NAME_LEN)
  let at_width ← parser.need (parser.strstr file Key.width.quoted)
  let width ← parser.need (int_at env at_width)
  parser.require (0 < width) .VF_FILE_ERR
  let at_height ← parser.need (parser.strstr at_width Key.height.quoted)
  let height ← parser.need (int_at env at_height)
  parser.require (0 < height) .VF_FILE_ERR
  return (⟨file_name, parser.full_path base_path file_name, width.toNat, height.toNat⟩, at_height)

def frames_of (base_path : Text) : Nat → Text →
    Except vf_err_t (List parser.vf_frame_info_t × Text)
  | 0, cursor => .ok ([], cursor)
  | n + 1, cursor => do
    let (frame, cursor) ← frame_of env base_path cursor
    let (rest, cursor) ← frames_of base_path n cursor
    return (frame :: rest, cursor)

def set_of (i : Nat) (cursor : Text) : Except vf_err_t (parser.vf_frame_set_t × Text) := do
  let at_name ← parser.need (parser.strstr cursor Key.name.quoted)
  let name ← parser.need (parser.vf_parser_extract_string at_name VF_PARSER_MAX_NAME_LEN)
  let at_base_path ← parser.need (parser.strstr at_name Key.base_path.quoted)
  let base_path ←
    parser.need (parser.vf_parser_extract_string at_base_path VF_PARSER_MAX_BASE_PATH_LEN)
  let at_format ← parser.need (parser.strstr at_base_path Key.format.quoted)
  let fmt_str ← parser.need (parser.vf_parser_extract_string at_format 32)
  parser.require (vf_parser_str_to_format fmt_str ≠ .VF_PIXEL_FORMAT_INVALID) .VF_FILE_ERR
  let frames_start ← parser.need (parser.strstr at_format Key.frames.quoted)
  let frames_end ← parser.need (parser.strchr frames_start ']')
  let frame_count := parser.count_keys .file frames_end frames_start
  parser.require (frame_count ≠ 0) .VF_FILE_ERR
  parser.require (env.alloc (.frames i)) .VF_OOM
  let (frames, cursor) ← frames_of env base_path frame_count at_format
  return (⟨name, base_path, vf_parser_str_to_format fmt_str, frames⟩, cursor)

def sets_of : Nat → Nat → Text → Except vf_err_t (List parser.vf_frame_set_t)
  | _, 0, _ => .ok []
  | i, n + 1, cursor => do
    let (set, cursor) ← set_of env i cursor
    let rest ← sets_of (i + 1) n cursor
    return set :: rest

def cfg_of : Except vf_err_t (List parser.vf_frame_set_t) := do
  let file_data ← parser.need (parser.vf_parser_read_file env.file env.alloc)
  parser.require (env.alloc .cfg) .VF_OOM
  let set_count := parser.count_keys .name [] file_data
  parser.require (set_count ≠ 0) .VF_FILE_ERR
  parser.require (env.alloc .frame_sets) .VF_OOM
  sets_of env 0 set_count file_data

end

/-- A frame of that parser, as it stands in memory. -/
def stored_frame (frame : parser.vf_frame_info_t) : vf_frame_info_t :=
  ⟨padded VF_PARSER_MAX_FILE_NAME_LEN frame.file_name,
    padded VF_PARSER_MAX_FULL_PATH_LEN frame.full_path, frame.width, frame.height⟩

def stored_set (set : parser.vf_frame_set_t) : vf_frame_set_t :=
  ⟨padded VF_PARSER_MAX_NAME_LEN set.name, padded VF_PARSER_MAX_BASE_PATH_LEN set.base_path,
    set.format, some (set.frames.map stored_frame), set.frames.length⟩

/-! ## The set in progress -/

/-- `cur` is the set in progress. The sets before it are done, and those after it are not
begun. -/
structure Building (data : Text) (before : List vf_frame_set_t) (cur : vf_frame_set_t)
    (after : List vf_frame_set_t) (m : Mem) : Prop where
  holds : Holds data m
  owned : Owned m
  sets : m.frame_sets = before ++ cur :: after

section
variable {env : Env} {data t base : Text} {before after : List vf_frame_set_t}
  {cur : vf_frame_set_t} {F G : List vf_frame_info_t} {first : vf_frame_info_t} {m : Mem}

theorem modify_middle {α : Type} (before after : List α) (a : α) (f : α → α) :
    (before ++ a :: after).modify before.length f = before ++ f a :: after := by
  induction before with
  | nil => rfl
  | cons b before ih => simp [ih]

theorem getElem?_other {α : Type} {before after : List α} {a b : α} {k : Nat}
    (hk : k ≠ before.length) : (before ++ a :: after)[k]? = (before ++ b :: after)[k]? := by
  simp only [List.getElem?_append, List.getElem?_cons]
  split
  · rfl
  · have hlater : k - before.length ≠ 0 := by omega
    simp only [if_neg hlater]

theorem Building.set (h : Building data before cur after m) : m.set before.length = some cur := by
  unfold Mem.set Mem.at_block
  rw [if_pos h.owned.sets_live, h.sets]
  simp

/-- The set is changed, but not whether it has frames. -/
theorem Building.update_set (h : Building data before cur after m)
    {f : vf_frame_set_t → vf_frame_set_t} (hf : (f cur).frames.isSome = cur.frames.isSome) :
    Building data before (f cur) after (m.update_set before.length f) := by
  have hsets : (m.update_set before.length f).frame_sets = before ++ f cur :: after := by
    unfold Mem.update_set
    rw [h.sets]
    exact modify_middle before after cur f
  refine ⟨⟨h.holds.1, h.holds.2, h.holds.3, h.holds.4⟩, ?_, hsets⟩
  refine ⟨h.owned.buffer, h.owned.cfg_live, h.owned.sets_live, fun k => ?_, ?_, h.owned.out⟩
  · refine (h.owned.frames k).trans ?_
    rw [hsets, h.sets]
    by_cases hk : k = before.length
    · subst hk
      simp [hf]
    · rw [getElem?_other hk]
  · refine h.owned.cfg.trans ?_
    rw [hsets, h.sets]
    simp

theorem Building.set_fmt_str (h : Building data before cur after m) (a : Text) :
    Building data before cur after { m with fmt_str := a } :=
  ⟨⟨h.holds.1, h.holds.2, h.holds.3, h.holds.4⟩,
    ⟨h.owned.1, h.owned.2, h.owned.3, h.owned.4, h.owned.5, h.owned.6⟩, h.sets⟩

theorem Building.frame (h : Building data before cur after m)
    (hcur : cur.frames = some (F ++ first :: G)) :
    m.frame before.length F.length = some first := by
  have hlive : m.block (.frames before.length) = .live := by
    rw [h.owned.frames, h.sets]
    simp [hcur]
  unfold Mem.frame
  rw [h.set, Option.bind_some, hcur, Option.bind_some]
  unfold Mem.at_block
  rw [if_pos hlive]
  simp

theorem Building.update_frame (h : Building data before cur after m)
    (hcur : cur.frames = some (F ++ first :: G)) (f : vf_frame_info_t → vf_frame_info_t) :
    Building data before { cur with frames := some (F ++ f first :: G) } after
      (m.update_frame before.length F.length f) := by
  have hset := h.update_set (f := fun set =>
    { set with frames := set.frames.map fun frames => frames.modify F.length f }) (by simp)
  simp only [hcur, Option.map_some, modify_middle] at hset
  exact hset

end

/-! ## The loops -/

/-- The run does what the parser on texts does: it gives up with the same code, or `K` holds of
its memory, and its cursor is at the same place. -/
def Follows {α : Type} (data : Text) (run : Option (Except vf_err_t Nat × Mem))
    (value : Except vf_err_t (α × Text)) (K : α → Mem → Prop) : Prop :=
  match value with
  | .error err => err ≠ .VF_SUCCESS ∧ ∃ m', run = some (.error err, m') ∧ Cleared m'
  | .ok (a, c) => c <:+ data ∧ ∃ m', run = some (.ok (place data c), m') ∧ K a m'

section
variable {env : Env} {data t base : Text} {before after : List vf_frame_set_t}
  {cur : vf_frame_set_t} {F G : List vf_frame_info_t} {first : vf_frame_info_t} {m : Mem}

theorem Owned.fails {α : Type} {K : α → Mem → Prop} (h : Owned m) {err : vf_err_t}
    (herr : err ≠ .VF_SUCCESS) : Follows data (fail err m) (.error err) K :=
  ⟨herr, fail.spec h err⟩

theorem need_some_bind {α β : Type} (a : α) (f : α → Except vf_err_t β) :
    (parser.need (some a) >>= f) = f a := rfl

theorem require_bind {β : Type} {b : Bool} {err : vf_err_t} (f : Unit → Except vf_err_t β) :
    (parser.require b err >>= f) = if b then f () else .error err := by
  cases b <;> rfl

/-- A string fits in its array, and it has only characters of the file. -/
theorem extracted {size : Nat} {s : Text} (h : parser.vf_parser_extract_string t size = some s) :
    s.length < size ∧ ∀ c ∈ s, c ∈ t := by
  obtain ⟨⟨v, quote⟩, hat, rfl⟩ := Option.map_eq_some_iff.mp h
  obtain ⟨colon, start, hcolon, hstart, hquote, hlen, rfl⟩ := parser.string_at_eq.mp hat
  have hsuf : start <:+ t := by
    have htail : '"' :: start <:+ t := by
      rw [← hstart]
      exact (List.dropWhile_suffix _).trans
        ((List.drop_suffix 1 colon).trans (find_suffix hcolon).1)
    exact suffix_tail htail
  refine ⟨by simp only [List.length_take]; omega, fun c hc => ?_⟩
  exact hsuf.subset (List.mem_of_mem_take hc)

theorem Holds.no_nul (h : Holds data m) (ht : t <:+ data) : '\x00' ∉ t := fun hnul =>
  no_nul_cstr m.file_data (h.string ▸ ht.subset hnul)

section
variable {α : Type} {K : α → Mem → Prop}

/-- A search, in the run and on texts. -/
theorem Follows.find {needle : Text} {k : Nat → Code (Except vf_err_t Nat)}
    {v : Text → Except vf_err_t (α × Text)} (h : Holds data m) (howned : Owned m) (ht : t <:+ data)
    (hk : ∀ s, parser.strstr t needle = some s → s <:+ data →
      Follows data (k (place data s) m) (v s) K) :
    Follows data
      ((do
        let some p ← strstr (place data t) needle | fail .VF_FILE_ERR
        k p) m)
      (parser.need (parser.strstr t needle) >>= v) K := by
  rw [run_bind_of (strstr.spec h ht needle)]
  rcases hfind : parser.strstr t needle with _ | s
  · exact howned.fails (by simp)
  · exact hk s hfind (strstr_suffix ht hfind)

theorem Follows.extract {d : Array} {max_len : Nat} {k : Code (Except vf_err_t Nat)}
    {v : Text → Except vf_err_t (α × Text)} (h : Holds data m) (howned : Owned m) (ht : t <:+ data)
    (harray : m.array d = some (padded max_len []))
    (hk : ∀ s, parser.vf_parser_extract_string t max_len = some s →
      Follows data (k (m.set_array (padded max_len s) d)) (v s) K) :
    Follows data
      ((do
        if !(← vf_parser_extract_string (place data t) d max_len) then
          return ← fail .VF_FILE_ERR
        k) m)
      (parser.need (parser.vf_parser_extract_string t max_len) >>= v) K := by
  have hextract := vf_parser_extract_string.spec h ht harray
  rcases hs : parser.vf_parser_extract_string t max_len with _ | s
  · rw [hs] at hextract
    rw [run_bind_of hextract]
    simp only [Bool.not_false, if_true]
    exact howned.fails (by simp)
  · rw [hs] at hextract
    rw [run_bind_of hextract]
    exact hk s hs

theorem Follows.positive {k : Int → Code (Except vf_err_t Nat)}
    {v : Int → Except vf_err_t (α × Text)} (h : Holds data m) (howned : Owned m) (ht : t <:+ data)
    (hk : ∀ n, int_at env t = some n → 0 < n → Follows data (k n m) (v n) K) :
    Follows data
      ((do
        let some n ← vf_parser_extract_int env (place data t) | fail .VF_FILE_ERR
        if n ≤ 0 then
          return ← fail .VF_FILE_ERR
        k n) m)
      (do
        let n ← parser.need (int_at env t)
        parser.require (0 < n) .VF_FILE_ERR
        v n) K := by
  rw [run_bind_of (vf_parser_extract_int.spec h ht)]
  change Follows data ((match int_at env t with
    | some n => _
    | _ => _ : Code (Except vf_err_t Nat)) m) _ K
  rcases hn : int_at env t with _ | n
  · exact howned.fails (by simp)
  · rw [need_some_bind, require_bind]
    by_cases hpos : 0 < n
    · rw [if_pos (by simpa using hpos)]
      simp only [if_neg (not_le.mpr hpos)]
      exact hk n hn hpos
    · rw [if_neg (by simpa using hpos)]
      simp only [if_pos (not_lt.mp hpos)]
      exact howned.fails (by simp)

end

theorem string_in_array {d : Array} {size : Nat} {s : Text} (h : m.array d = some (padded size s))
    (hlen : s.length < size) (hnul : '\x00' ∉ s) : m.string_in d = some s := by
  unfold Mem.string_in
  rw [h, Option.bind_some, if_pos (nul_mem_padded hlen), cstr_padded hnul hlen]

theorem put_frame.spec {i j : Nat} {f : vf_frame_info_t → vf_frame_info_t}
    (h : m.frame i j = some first) : put_frame i j f m = some ((), m.update_frame i j f) :=
  writes_of (by rw [h, Option.map_some])

theorem Building.array_name (h : Building data before cur after m) {a : Text}
    (hcur : cur.name = a) : m.array (.name before.length) = some a := by
  simp [Mem.array, h.set, hcur]

theorem Building.array_base_path (h : Building data before cur after m) {a : Text}
    (hcur : cur.base_path = a) : m.array (.base_path before.length) = some a := by
  simp [Mem.array, h.set, hcur]

theorem reads_fmt_str {s : Text} (h : m.fmt_str = padded 32 s) (hlen : s.length < 32)
    (hnul : '\x00' ∉ s) : reads (·.string_in .fmt_str) m = some (s, m) :=
  reads_of (string_in_array (by rw [← h]; rfl) hlen hnul)

theorem Building.reads_base_path (h : Building data before cur after m)
    (hbase : cur.base_path = padded VF_PARSER_MAX_BASE_PATH_LEN base)
    (hlen : base.length < VF_PARSER_MAX_BASE_PATH_LEN) (hnul : '\x00' ∉ base) :
    reads (·.string_in (.base_path before.length)) m = some (base, m) :=
  reads_of (string_in_array (h.array_base_path hbase) hlen hnul)

theorem Building.reads_file_name (h : Building data before cur after m)
    (hcur : cur.frames = some (F ++ first :: G))
    (hname : first.file_name = padded VF_PARSER_MAX_FILE_NAME_LEN base)
    (hlen : base.length < VF_PARSER_MAX_FILE_NAME_LEN) (hnul : '\x00' ∉ base) :
    reads (·.string_in (.file_name before.length F.length)) m = some (base, m) :=
  reads_of (string_in_array (by simp [Mem.array, h.frame hcur, hname]) hlen hnul)

theorem Building.puts_full_path (h : Building data before cur after m)
    (hcur : cur.frames = some (F ++ first :: G))
    (hzero : first.full_path = padded VF_PARSER_MAX_FULL_PATH_LEN [])
    (hlen : base.length < VF_PARSER_MAX_FULL_PATH_LEN) :
    put (.full_path before.length F.length) 0 (base ++ ['\x00']) m = some ((),
      m.update_frame before.length F.length fun frame =>
        { frame with full_path := padded VF_PARSER_MAX_FULL_PATH_LEN base }) :=
  put.spec (by simp [Mem.array, h.frame hcur, hzero]) (store_terminated hlen)

theorem full_path_short (base_path file_name : Text) :
    (parser.full_path base_path file_name).length < VF_PARSER_MAX_FULL_PATH_LEN := by
  unfold parser.full_path
  have := List.length_take_le (VF_PARSER_MAX_FULL_PATH_LEN - 1) (base_path ++ '/' :: file_name)
  simp only [VF_PARSER_MAX_FULL_PATH_LEN, VF_PARSER_MAX_BASE_PATH_LEN,
    VF_PARSER_MAX_FILE_NAME_LEN] at this ⊢
  omega

theorem load_frame.follows (h : Building data before cur after m)
    (hcur : cur.frames = some (F ++ zero_frame :: G))
    (hbase : cur.base_path = padded VF_PARSER_MAX_BASE_PATH_LEN base)
    (hlen : base.length < VF_PARSER_MAX_BASE_PATH_LEN) (hnul : '\x00' ∉ base) (ht : t <:+ data) :
    Follows data (load_frame env before.length F.length (place data t) m) (frame_of env base t)
      fun frame m' => Building data before
        { cur with frames := some (F ++ stored_frame frame :: G) } after m' := by
  unfold load_frame frame_of
  refine Follows.find h.holds h.owned ht fun file hfile hfile' => ?_
  have harray : m.array (.file_name before.length F.length) =
      some (padded VF_PARSER_MAX_FILE_NAME_LEN []) := by
    simp [Mem.array, h.frame hcur, zero_frame]
  refine Follows.extract h.holds h.owned hfile' harray fun file_name hname => ?_
  have hnamed := h.update_frame hcur fun frame =>
    { frame with file_name := padded VF_PARSER_MAX_FILE_NAME_LEN file_name }
  refine Follows.find hnamed.holds hnamed.owned hfile' fun at_width hwidth hwidth' => ?_
  refine Follows.positive hnamed.holds hnamed.owned hwidth' fun width _ hwpos => ?_
  refine Follows.find hnamed.holds hnamed.owned hwidth' fun at_height hheight hheight' => ?_
  refine Follows.positive hnamed.holds hnamed.owned hheight' fun height _ hhpos => ?_
  -- nothing can fail from here on
  have hsized := hnamed.update_frame rfl fun frame =>
    { frame with width := width.toNat, height := height.toNat }
  have hfits := extracted hname
  have hname_nul : '\x00' ∉ file_name := fun hc => h.holds.no_nul hfile' (hfits.2 _ hc)
  refine ⟨hheight', _, ?_, hsized.update_frame rfl fun frame => { frame with full_path := _ }⟩
  refine (run_bind_of (put_frame.spec (hnamed.frame rfl))).trans ?_
  refine (run_bind_of (hsized.reads_base_path hbase hlen hnul)).trans ?_
  refine (run_bind_of (hsized.reads_file_name rfl rfl hfits.1 hname_nul)).trans ?_
  exact run_bind_of (hsized.puts_full_path rfl rfl (full_path_short base file_name))

section
variable {α β : Type} {K : α → Mem → Prop} {L : β → Mem → Prop}

/-- What comes next runs only if the first part did not give up. -/
theorem Follows.bind {p : Code (Except vf_err_t Nat)} {k : Nat → Code (Except vf_err_t Nat)}
    {v : Except vf_err_t (α × Text)} {w : α × Text → Except vf_err_t (β × Text)}
    (hp : Follows data (p m) v K)
    (hk : ∀ a c m', c <:+ data → K a m' → Follows data (k (place data c) m') (w (a, c)) L) :
    Follows data
      ((do
        match ← p with
        | .error err => return .error err
        | .ok cursor => k cursor : Code (Except vf_err_t Nat)) m)
      (v >>= w) L := by
  rcases v with err | ⟨a, c⟩
  · obtain ⟨herr, m', hrun, hclear⟩ := hp
    rw [run_bind_of hrun]
    exact ⟨herr, m', rfl, hclear⟩
  · obtain ⟨hc, m', hrun, hm'⟩ := hp
    rw [run_bind_of hrun]
    exact hk a c m' hc hm'

theorem Follows.mono {K' : α → Mem → Prop} {run : Option (Except vf_err_t Nat × Mem)}
    {v : Except vf_err_t (α × Text)} (h : Follows data run v K) (hK : ∀ a m, K a m → K' a m) :
    Follows data run v K' := by
  rcases v with err | ⟨a, c⟩
  · exact h
  · obtain ⟨hc, m', hrun, hm'⟩ := h
    exact ⟨hc, m', hrun, hK a m' hm'⟩

theorem Follows.map {run : Option (Except vf_err_t Nat × Mem)} {v : Except vf_err_t (α × Text)}
    {g : α → β} (h : Follows data run v fun a => L (g a)) :
    Follows data run (v >>= fun r => .ok (g r.1, r.2)) L := by
  rcases v with err | ⟨a, c⟩
  · exact h
  · exact h

end

variable (env) in
theorem load_frames.follows (n : Nat) (h : Building data before cur after m)
    (hcur : cur.frames = some (F ++ List.replicate n zero_frame))
    (hbase : cur.base_path = padded VF_PARSER_MAX_BASE_PATH_LEN base)
    (hlen : base.length < VF_PARSER_MAX_BASE_PATH_LEN) (hnul : '\x00' ∉ base) (ht : t <:+ data) :
    Follows data (load_frames env before.length F.length n (place data t) m)
      (frames_of env base n t) fun frames m' => frames.length = n ∧ Building data before
        { cur with frames := some (F ++ frames.map stored_frame) } after m' := by
  induction n generalizing F cur t m with
  | zero =>
    refine ⟨ht, m, rfl, rfl, ?_⟩
    have hsame : { cur with frames := some (F ++ List.replicate 0 zero_frame) } = cur := by
      rw [← hcur]
    exact hsame.symm ▸ h
  | succ n ih =>
    rw [List.replicate_succ] at hcur
    unfold load_frames frames_of
    refine Follows.bind (load_frame.follows h hcur hbase hlen hnul ht) fun frame c m' hc hm' => ?_
    have hrest := ih (F := F ++ [stored_frame frame]) hm' (by simp) hbase hc
    rw [List.length_append, List.length_singleton] at hrest
    refine Follows.map (g := fun frames => frame :: frames) ?_
    simpa using hrest

/-- A part of the run that has no counterpart on texts. -/
theorem Follows.then_run {α β : Type} {K : α → Mem → Prop} {p : Code β}
    {k : β → Code (Except vf_err_t Nat)} {v : Except vf_err_t (α × Text)} {b : β} {m' : Mem}
    (hp : p m = some (b, m')) (hk : Follows data (k b m') v K) :
    Follows data ((p >>= k) m) v K := by
  rwa [run_bind_of hp]

/-- A test of the run that fails just if the value's test fails. -/
theorem Follows.require {α : Type} {K : α → Mem → Prop} {b : Bool} {cond : Prop} [Decidable cond]
    {err : vf_err_t} {k : Code (Except vf_err_t Nat)} {v : Except vf_err_t (α × Text)}
    (howned : Owned m) (herr : err ≠ .VF_SUCCESS) (hcond : cond ↔ b = false)
    (hk : b = true → Follows data (k m) v K) :
    Follows data
      ((do
        if cond then
          return ← fail err
        k) m)
      (parser.require b err >>= fun _ => v) K := by
  rw [require_bind]
  cases b with
  | false =>
    simp only [if_pos (hcond.mpr rfl)]
    exact howned.fails herr
  | true =>
    have hno : ¬ cond := fun hc => by cases hcond.mp hc
    simp only [if_neg hno]
    exact hk rfl

theorem put_set.spec (h : Building data before cur after m) (f : vf_frame_set_t → vf_frame_set_t) :
    put_set before.length f m = some ((), m.update_set before.length f) :=
  writes_of (by rw [h.set, Option.map_some])

theorem allocate.fails {a : Alloc} {init : Mem → Mem} (hunused : m.block a = .unused)
    (halloc : env.alloc a = false) : allocate env a init m = some (false, m) := by
  simp [allocate, hunused, halloc]

theorem allocate.works {a : Alloc} {init : Mem → Mem} (hunused : m.block a = .unused)
    (halloc : env.alloc a = true) : allocate env a init m =
      some (true, { init m with block := Function.update m.block a .live }) := by
  simp [allocate, hunused, halloc]

theorem Building.no_frames_yet (h : Building data before cur after m) (hcur : cur.frames = none) :
    m.block (.frames before.length) = .unused := by
  rw [h.owned.frames, h.sets]
  simp [hcur]

/-- The set has its block of frames. -/
theorem Building.allocates (h : Building data before cur after m)
    (frames : List vf_frame_info_t) :
    Building data before { cur with frames := some frames } after
      { m.update_set before.length fun set => { set with frames := some frames } with
        block := Function.update m.block (.frames before.length) .live } := by
  have hsets : (m.update_set before.length fun set =>
      { set with frames := some frames }).frame_sets =
      before ++ { cur with frames := some frames } :: after := by
    unfold Mem.update_set
    rw [h.sets]
    exact modify_middle before after cur _
  have hother : ∀ a, a ≠ .frames before.length →
      Function.update m.block (.frames before.length) .live a = m.block a :=
    fun a ha => Function.update_of_ne ha _ _
  refine ⟨⟨(hother _ (by simp)).trans h.holds.live, h.holds.2, h.holds.3, h.holds.4⟩, ?_, hsets⟩
  refine ⟨(hother _ (by simp)).trans h.owned.buffer, (hother _ (by simp)).trans h.owned.cfg_live,
    (hother _ (by simp)).trans h.owned.sets_live, fun k => ?_, ?_, h.owned.out⟩
  · rw [hsets]
    by_cases hk : k = before.length
    · subst hk
      simp
    · refine (hother _ (by simpa using hk)).trans ((h.owned.frames k).trans ?_)
      rw [h.sets, getElem?_other hk]
  · refine h.owned.cfg.trans ?_
    rw [hsets, h.sets]
    simp

variable (env) in
theorem load_set.follows (h : Building data before zero_set after m) (ht : t <:+ data) :
    Follows data (load_set env before.length (place data t) m) (set_of env before.length t)
      fun set m' => Building data before (stored_set set) after m' := by
  have h₀ := h.set_fmt_str (padded 32 [])
  unfold load_set set_of
  refine Follows.find h₀.holds h₀.owned ht fun at_name _ hat_name => ?_
  refine Follows.extract h₀.holds h₀.owned hat_name (h₀.array_name rfl)
    fun name _ => ?_
  have h₁ := h₀.update_set (f := fun set => { set with name := padded VF_PARSER_MAX_NAME_LEN name })
    rfl
  refine Follows.find h₁.holds h₁.owned hat_name fun at_base _ hat_base => ?_
  refine Follows.extract h₁.holds h₁.owned hat_base (h₁.array_base_path rfl)
    fun base_path hbase => ?_
  have h₂ := h₁.update_set
    (f := fun set => { set with base_path := padded VF_PARSER_MAX_BASE_PATH_LEN base_path }) rfl
  refine Follows.find h₂.holds h₂.owned hat_base fun at_format _ hat_format => ?_
  refine Follows.extract h₂.holds h₂.owned hat_format rfl fun fmt_str hfmt => ?_
  have h₃ := h₂.set_fmt_str (padded 32 fmt_str)
  have hfmt_nul : '\x00' ∉ fmt_str := fun hc => h.holds.no_nul hat_format ((extracted hfmt).2 _ hc)
  refine Follows.then_run (reads_fmt_str rfl (extracted hfmt).1 hfmt_nul) ?_
  refine Follows.then_run (put_set.spec h₃ _) ?_
  have h₄ := h₃.update_set
    (f := fun set => { set with format := vf_parser_str_to_format fmt_str }) rfl
  refine Follows.require h₄.owned (by simp) (by simp) fun hvalid => ?_
  refine Follows.find h₄.holds h₄.owned hat_format fun frames_start _ hstart => ?_
  refine Follows.find h₄.holds h₄.owned hstart fun frames_end _ hend => ?_
  refine Follows.then_run ((count_keys.spec h₄.holds .file (some frames_end)
    (fun s hs => Option.some.inj hs ▸ hend) MAX_FILE_SIZE 0 hstart
    (lt_of_le_of_lt hstart.length_le h.holds.fits)).trans (by rw [Nat.zero_add])) ?_
  refine Follows.require h₄.owned (by simp) (by simp) fun _ => ?_
  rw [require_bind]
  have hunused := h₄.no_frames_yet rfl
  by_cases halloc : env.alloc (.frames before.length) = true
  · rw [if_pos halloc]
    refine Follows.then_run (allocate.works hunused halloc) ?_
    have h₅ := h₄.allocates
      (List.replicate (parser.count_keys .file frames_end frames_start) zero_frame)
    refine Follows.then_run (put_set.spec h₅ _) ?_
    have h₆ := h₅.update_set (f := fun set =>
      { set with frame_count := parser.count_keys .file frames_end frames_start }) rfl
    have hbase_nul : '\x00' ∉ base_path :=
      fun hc => h.holds.no_nul hat_base ((extracted hbase).2 _ hc)
    have hframes := load_frames.follows env (F := [])
      (parser.count_keys .file frames_end frames_start) h₆ rfl rfl (extracted hbase).1 hbase_nul
      hat_format
    refine Follows.map (g := fun frames => (⟨name, base_path, vf_parser_str_to_format fmt_str,
      frames⟩ : parser.vf_frame_set_t)) (hframes.mono ?_)
    rintro frames m' ⟨hcount, hm'⟩
    unfold stored_set
    rw [hcount]
    exact hm'
  · rw [if_neg halloc]
    refine Follows.then_run (allocate.fails hunused (by simpa using halloc)) ?_
    exact h₄.owned.fails (by simp)

variable (env) in
theorem load_sets.follows (n : Nat) (hholds : Holds data m) (howned : Owned m)
    (hsets : m.frame_sets = before ++ List.replicate n zero_set) (ht : t <:+ data) :
    match sets_of env before.length n t with
    | .error err => err ≠ .VF_SUCCESS ∧
      ∃ m', load_sets env before.length n (place data t) m = some (.error err, m') ∧ Cleared m'
    | .ok sets => sets.length = n ∧
      ∃ m', load_sets env before.length n (place data t) m = some (.ok (), m') ∧ Owned m' ∧
        m'.frame_sets = before ++ sets.map stored_set := by
  induction n generalizing before t m with
  | zero => exact ⟨rfl, m, rfl, howned, hsets⟩
  | succ n ih =>
    rw [List.replicate_succ] at hsets
    have hset := load_set.follows env ⟨hholds, howned, hsets⟩ ht
    unfold load_sets sets_of
    rcases hv : set_of env before.length t with err | ⟨set, c⟩
    · rw [hv] at hset
      obtain ⟨herr, m', hrun, hclear⟩ := hset
      rw [run_bind_of hrun]
      exact ⟨herr, m', rfl, hclear⟩
    · rw [hv] at hset
      obtain ⟨hc, m', hrun, hm'⟩ := hset
      have hnext : m'.frame_sets = (before ++ [stored_set set]) ++ List.replicate n zero_set := by
        rw [hm'.sets]
        simp
      have hrest := ih hm'.holds hm'.owned hnext hc
      rw [List.length_append, List.length_singleton] at hrest
      rw [run_bind_of hrun]
      rcases hsets' : sets_of env (before.length + 1) n c with err | sets
      · rw [hsets'] at hrest
        simpa [hsets', bind, Except.bind] using hrest
      · rw [hsets'] at hrest
        simpa [hsets', bind, Except.bind, pure, Except.pure] using hrest

end

/-! ## A load -/

/-- After a load that succeeds the caller has the sets, and the file data is freed. -/
structure Kept (sets : List parser.vf_frame_set_t) (m : Mem) : Prop where
  out : m.out_cfg = some .cfg
  cfg : m.cfg = (some .frame_sets, sets.length)
  frame_sets : m.frame_sets = sets.map stored_set
  buffer : m.block .buffer = .freed
  live : ∀ a, a ≠ .buffer → (m.block a = .live ↔
    a = .cfg ∨ a = .frame_sets ∨ ∃ k, k < sets.length ∧ a = .frames k)

section
variable {env : Env} {m : Mem}

variable (env) in
theorem vf_parser_read_file.spec (hunused : m.block .buffer = .unused) :
    match parser.vf_parser_read_file env.file env.alloc with
    | none => vf_parser_read_file env m = some (false, m)
    | some data => ∃ m', vf_parser_read_file env m = some (true, m') ∧ Holds data m' ∧
        (∀ a, a ≠ .buffer → m'.block a = m.block a) ∧ m'.out_cfg = m.out_cfg := by
  unfold vf_parser_read_file parser.vf_parser_read_file
  rcases env.file with _ | content
  · rfl
  · rw [Option.bind_some]
    by_cases halloc : env.alloc .buffer = true
    · have hread : (content.take (MAX_FILE_SIZE - 1)).length < env.junk.length := by
        rw [List.length_take, env.junk_size]
        unfold MAX_FILE_SIZE
        omega
      obtain ⟨a, rest, hstore, hnul, hsize⟩ := store_ended hread
      rw [env.junk_size] at hread hsize
      rw [if_pos halloc]
      have hfits := lt_of_le_of_lt
        (List.takeWhile_sublist (· ≠ '\x00')).length_le hread
      refine ⟨{ m with
        file_data := content.take (MAX_FILE_SIZE - 1) ++ '\x00' :: rest
        block := Function.update m.block .buffer .live }, ?_,
        ⟨by simp, cstr_terminated _ _, ?_, hfits⟩, fun b hb => Function.update_of_ne hb _ _, rfl⟩
      · refine (run_bind_of (allocate.works hunused halloc)).trans ?_
        refine (run_bind_of (put.spec (d := .file_data) (by simp [Mem.array, Mem.at_block])
          hstore)).trans ?_
        exact run_bind_of (put.spec (d := .file_data)
          (by simp [Mem.array, Mem.at_block, Mem.set_array]) hnul)
      · simp only [List.length_append, List.length_cons]
        omega
    · rw [if_neg halloc]
      exact run_bind_of (allocate.fails hunused (by simpa using halloc))

/-- The file data is freed, and the caller gets the rest. -/
theorem Owned.kept (h : Owned m) {sets : List parser.vf_frame_set_t}
    (hsets : m.frame_sets = sets.map stored_set) :
    Kept sets { m with
      block := Function.update m.block .buffer .freed, out_cfg := some .cfg } := by
  have hcfg := h.cfg
  rw [hsets, List.length_map] at hcfg
  refine ⟨rfl, hcfg, hsets, by simp, fun a ha => ?_⟩
  simp only [Function.update_of_ne ha]
  cases a with
  | buffer => exact absurd rfl ha
  | cfg => simp [h.cfg_live]
  | frame_sets => simp [h.sets_live]
  | frames k =>
    have hframes := h.frames k
    rw [hsets, List.getElem?_map] at hframes
    rw [hframes]
    rcases Nat.lt_or_ge k sets.length with hk | hk
    · simp [stored_set, hk]
    · simp [hk]

theorem place_start (data : Text) : place data data = 0 := by
  simp [place]

/-- How the load gives up before there are sets. -/
theorem frees_file_and_cfg (hbuffer : m.block .buffer = .live) (hcfg : m.block .cfg = .live)
    (hothers : ∀ a, a ≠ .buffer → a ≠ .cfg → m.block a ≠ .live) (hout : m.out_cfg = none)
    (err : vf_err_t) :
    ∃ m', (do free (some .buffer); free (some .cfg); return err : Code vf_err_t) m =
      some (err, m') ∧ Cleared m' := by
  have hcfg' : Function.update m.block .buffer .freed .cfg = .live := by simpa using hcfg
  refine ⟨{ m with
    block := Function.update (Function.update m.block .buffer .freed) .cfg .freed },
    ?_, fun a => ?_, hout⟩
  · rw [run_bind_of (free.spec hbuffer)]
    exact run_bind_of (free.spec hcfg')
  · by_cases ha : a = .cfg
    · simp [ha]
    · by_cases hb : a = .buffer
      · simp [hb]
      · simpa [ha, hb] using hothers a hb ha

/-- The load does what the parser on texts does. -/
def Loads (run : Option (vf_err_t × Mem)) (value : Except vf_err_t (List parser.vf_frame_set_t)) :
    Prop :=
  match value with
  | .error err => err ≠ .VF_SUCCESS ∧ ∃ m', run = some (err, m') ∧ Cleared m'
  | .ok sets => sets ≠ [] ∧ ∃ m', run = some (.VF_SUCCESS, m') ∧ Kept sets m'

theorem Loads.then_run {α : Type} {p : Code α} {k : α → Code vf_err_t} {a : α} {m' : Mem}
    {value : Except vf_err_t (List parser.vf_frame_set_t)} (hp : p m = some (a, m'))
    (hk : Loads (k a m') value) : Loads ((p >>= k) m) value := by
  rwa [run_bind_of hp]

variable (env) in
theorem vf_parser_load_frames_cfg.spec (out_cfg : Option Alloc) :
    Loads (vf_parser_load_frames_cfg env (.start out_cfg)) (cfg_of env) := by
  have hread := vf_parser_read_file.spec env (m := { Mem.start out_cfg with out_cfg := none }) rfl
  have hout : put_out none (Mem.start out_cfg) =
    some ((), { Mem.start out_cfg with out_cfg := none }) := rfl
  unfold vf_parser_load_frames_cfg cfg_of
  refine Loads.then_run hout ?_
  rcases hdata : parser.vf_parser_read_file env.file env.alloc with _ | data
  · rw [hdata] at hread
    refine Loads.then_run hread ⟨by simp, _, rfl, fun a => ?_, rfl⟩
    simp [Mem.start]
  rw [hdata] at hread
  obtain ⟨m₁, hread, h₁, hunused₁, hout₁⟩ := hread
  rw [need_some_bind, require_bind]
  refine Loads.then_run hread ?_
  by_cases hcfg : env.alloc .cfg = true
  · rw [if_pos hcfg]
    obtain ⟨m₂, hrun₂, h₂, hcfg₂, hunused₂, hout₂⟩ : ∃ m₂,
        allocate env .cfg (fun m => { m with cfg := (none, 0) }) m₁ = some (true, m₂) ∧
        Holds data m₂ ∧ m₂.block .cfg = .live ∧
        (∀ a, a ≠ .buffer → a ≠ .cfg → m₂.block a = .unused) ∧ m₂.out_cfg = none := by
      refine ⟨_, allocate.works (hunused₁ _ (by simp)) hcfg,
        ⟨by simp [h₁.live], h₁.string, h₁.size, h₁.fits⟩, by simp, fun b hb hc => ?_, hout₁⟩
      simp [hc, hunused₁ b hb, Mem.start]
    refine Loads.then_run hrun₂ ?_
    have hgive_up := frees_file_and_cfg h₂.live hcfg₂
      (fun a hb hc => by simp [hunused₂ a hb hc]) hout₂
    have hcount := count_keys.spec h₂ .name none (by simp) MAX_FILE_SIZE 0 (List.suffix_refl data)
      h₂.fits
    rw [place_start, Nat.zero_add] at hcount
    simp only [Option.getD_none] at hcount
    refine Loads.then_run hcount ?_
    rw [require_bind, require_bind]
    generalize parser.count_keys .name [] data = n
    by_cases hn : n = 0
    · rw [if_pos hn, if_neg (by simp [hn])]
      exact ⟨by simp, hgive_up _⟩
    rw [if_neg hn, if_pos (by simpa using hn)]
    have hunused_sets := hunused₂ .frame_sets (by simp) (by simp)
    by_cases hsets : env.alloc .frame_sets = true
    · rw [if_pos hsets]
      refine Loads.then_run (allocate.works hunused_sets hsets) ?_
      obtain ⟨m₃, hrun₃, h₃, howned₃, hsets₃⟩ : ∃ m₃,
          put_cfg (some .frame_sets) n { m₂ with
            frame_sets := List.replicate n zero_set
            block := Function.update m₂.block .frame_sets .live } = some ((), m₃) ∧
          Holds data m₃ ∧ Owned m₃ ∧ m₃.frame_sets = List.replicate n zero_set := by
        refine ⟨{ m₂ with
          frame_sets := List.replicate n zero_set
          cfg := (some .frame_sets, n)
          block := Function.update m₂.block .frame_sets .live },
          writes_of (by simp [Mem.at_block, hcfg₂]),
          ⟨by simp [h₂.live], h₂.string, h₂.size, h₂.fits⟩,
          ⟨by simp [h₂.live], by simp [hcfg₂], by simp, fun k => ?_, by simp, hout₂⟩, rfl⟩
        have hno : (List.replicate n zero_set)[k]?.bind (·.frames) = none := by
          rw [List.getElem?_replicate]
          split <;> rfl
        simp [hno, hunused₂]
      refine Loads.then_run hrun₃ ?_
      have hstart : m₃.frame_sets = [] ++ List.replicate n zero_set := hsets₃
      have hloop := load_sets.follows env n h₃ howned₃ hstart (List.suffix_refl data)
      rw [place_start, List.length_nil] at hloop
      rcases hv : sets_of env 0 n data with err | sets
      · rw [hv] at hloop
        obtain ⟨herr, m', hrun, hclear⟩ := hloop
        exact Loads.then_run hrun ⟨herr, m', rfl, hclear⟩
      · rw [hv] at hloop
        obtain ⟨hlen, m', hrun, howned, hsets'⟩ := hloop
        refine Loads.then_run hrun (Loads.then_run (free.spec howned.buffer) ⟨?_, _, rfl, ?_⟩)
        · rintro rfl
          exact hn hlen.symm
        · exact howned.kept hsets'
    · rw [if_neg hsets]
      refine Loads.then_run (allocate.fails hunused_sets (by simpa using hsets)) ?_
      exact ⟨by simp, hgive_up _⟩
  · rw [if_neg hcfg]
    refine Loads.then_run (allocate.fails (hunused₁ _ (by simp)) (by simpa using hcfg)) ?_
    refine Loads.then_run (free.spec h₁.live) ⟨by simp, _, rfl, fun a => ?_, hout₁⟩
    by_cases ha : a = .buffer
    · simp [ha]
    · simp [ha, hunused₁ a ha, Mem.start]

end

/-! ## What is loaded -/

/-- A string lies within its array. -/
def Terminated (size : Nat) (a : Text) : Prop := a.length = size ∧ '\x00' ∈ a

structure GoodFrame (base_path : Text) (frame : vf_frame_info_t) : Prop where
  file_name : Terminated VF_PARSER_MAX_FILE_NAME_LEN frame.file_name
  full_path : Terminated VF_PARSER_MAX_FULL_PATH_LEN frame.full_path
  path : cstr frame.full_path = cstr base_path ++ '/' :: cstr frame.file_name
  width : 1 ≤ frame.width ∧ frame.width ≤ 2 ^ 31 - 1
  height : 1 ≤ frame.height ∧ frame.height ≤ 2 ^ 31 - 1

structure GoodSet (set : vf_frame_set_t) : Prop where
  name : Terminated VF_PARSER_MAX_NAME_LEN set.name
  base_path : Terminated VF_PARSER_MAX_BASE_PATH_LEN set.base_path
  format : set.format ≠ .VF_PIXEL_FORMAT_INVALID
  frames : ∃ frames, set.frames = some frames ∧ frames ≠ [] ∧ frames.length = set.frame_count ∧
    ∀ frame ∈ frames, GoodFrame set.base_path frame

/-- The caller has the sets, their blocks are live, and the file data is freed. -/
structure Loaded (m : Mem) : Prop where
  out : m.out_cfg = some .cfg
  cfg : m.cfg = (some .frame_sets, m.frame_sets.length)
  some_set : m.frame_sets ≠ []
  sets : ∀ set ∈ m.frame_sets, GoodSet set
  buffer : m.block .buffer = .freed
  live : ∀ a, a ≠ .buffer → (m.block a = .live ↔
    a = .cfg ∨ a = .frame_sets ∨ ∃ k, k < m.frame_sets.length ∧ a = .frames k)

section
variable {env : Env} {t c base : Text}

theorem padded_terminated {size : Nat} {s : Text} (h : s.length < size) :
    Terminated size (padded size s) :=
  ⟨length_padded h.le, nul_mem_padded h⟩

/-- A positive answer of `atoi` is at most the largest `int`. -/
theorem int_at_range {n : Int} (h : int_at env t = some n) (hpos : 0 < n) :
    1 ≤ n.toNat ∧ n.toNat ≤ 2 ^ 31 - 1 := by
  obtain ⟨colon, -, rfl⟩ := Option.map_eq_some_iff.mp h
  have hlt : (env.atoi (colon.drop 1)).toInt < 2 ^ 31 := BitVec.toInt_lt
  omega

theorem frame_of.good {frame : parser.vf_frame_info_t}
    (hlen : base.length < VF_PARSER_MAX_BASE_PATH_LEN) (hbase : '\x00' ∉ base) (ht : '\x00' ∉ t)
    (h : frame_of env base t = .ok (frame, c)) :
    c <:+ t ∧ GoodFrame (padded VF_PARSER_MAX_BASE_PATH_LEN base) (stored_frame frame) := by
  unfold frame_of at h
  simp only [parser.bind_ok, parser.need_ok, parser.require_ok, decide_eq_true_eq] at h
  obtain ⟨file, hfile, name, hname, at_width, hat_width, width, hwidth, -, hwpos, at_height,
    hat_height, height, hheight, -, hhpos, hframe⟩ := h
  cases hframe
  obtain ⟨hshort, hchars⟩ := extracted hname
  have hname_nul : '\x00' ∉ name := fun hc => ht ((find_suffix hfile).1.subset (hchars _ hc))
  have hpath := parser.full_path_eq hlen hshort
  have hpath_nul : '\x00' ∉ parser.full_path base name := by
    rw [hpath]
    simp [hbase, hname_nul]
  refine ⟨(find_suffix hat_height).1.trans ((find_suffix hat_width).1.trans (find_suffix hfile).1),
    padded_terminated hshort, padded_terminated (full_path_short base name), ?_,
    int_at_range hwidth hwpos, int_at_range hheight hhpos⟩
  simp only [stored_frame]
  rw [cstr_padded hpath_nul (full_path_short base name), cstr_padded hbase hlen,
    cstr_padded hname_nul hshort, hpath]

theorem frames_of.good {n : Nat} {frames : List parser.vf_frame_info_t}
    (hlen : base.length < VF_PARSER_MAX_BASE_PATH_LEN) (hbase : '\x00' ∉ base) (ht : '\x00' ∉ t)
    (h : frames_of env base n t = .ok (frames, c)) :
    c <:+ t ∧ frames.length = n ∧ ∀ frame ∈ frames,
      GoodFrame (padded VF_PARSER_MAX_BASE_PATH_LEN base) (stored_frame frame) := by
  induction n generalizing t frames with
  | zero =>
    cases h
    exact ⟨List.suffix_rfl, rfl, by simp⟩
  | succ n ih =>
    unfold frames_of at h
    simp only [parser.bind_ok] at h
    obtain ⟨⟨frame, c₁⟩, hframe, ⟨rest, c₂⟩, hrest, h⟩ := h
    cases h
    obtain ⟨hc₁, hgood⟩ := frame_of.good hlen hbase ht hframe
    obtain ⟨hc₂, hcount, hall⟩ := ih (fun hc => ht (hc₁.subset hc)) hrest
    exact ⟨hc₂.trans hc₁, by rw [List.length_cons, hcount], List.forall_mem_cons.mpr ⟨hgood, hall⟩⟩

theorem set_of.good {i : Nat} {set : parser.vf_frame_set_t} (ht : '\x00' ∉ t)
    (h : set_of env i t = .ok (set, c)) : c <:+ t ∧ GoodSet (stored_set set) := by
  unfold set_of at h
  simp only [parser.bind_ok, parser.need_ok, parser.require_ok, decide_eq_true_eq] at h
  obtain ⟨at_name, hat_name, name, hname, at_base, hat_base, base_path, hbase, at_format,
    hat_format, fmt_str, hfmt, -, hvalid, frames_start, hstart, frames_end, hend, -, hcount, -, -,
    ⟨frames, c⟩, hframes, hset⟩ := h
  cases hset
  have hat_base' := (find_suffix hat_base).1.trans (find_suffix hat_name).1
  have hat_format' := (find_suffix hat_format).1.trans hat_base'
  obtain ⟨hshort, hchars⟩ := extracted hbase
  have hbase_nul : '\x00' ∉ base_path := fun hc => ht (hat_base'.subset (hchars _ hc))
  obtain ⟨hc, hlen, hgood⟩ := frames_of.good hshort hbase_nul
    (fun hc => ht (hat_format'.subset hc)) hframes
  refine ⟨hc.trans hat_format', padded_terminated (extracted hname).1, padded_terminated hshort,
    hvalid, frames.map stored_frame, rfl, ?_, by simp [stored_set], ?_⟩
  · intro hnil
    rw [List.map_eq_nil_iff] at hnil
    rw [hnil] at hlen
    exact hcount hlen.symm
  · intro frame hframe
    obtain ⟨value, hvalue, rfl⟩ := List.mem_map.mp hframe
    exact hgood value hvalue

theorem sets_of.good {i n : Nat} {sets : List parser.vf_frame_set_t} (ht : '\x00' ∉ t)
    (h : sets_of env i n t = .ok sets) : ∀ set ∈ sets, GoodSet (stored_set set) := by
  induction n generalizing i t sets with
  | zero =>
    cases h
    simp
  | succ n ih =>
    unfold sets_of at h
    simp only [parser.bind_ok] at h
    obtain ⟨⟨set, c⟩, hset, rest, hrest, h⟩ := h
    cases h
    obtain ⟨hc, hgood⟩ := set_of.good ht hset
    exact List.forall_mem_cons.mpr ⟨hgood, ih (fun hn => ht (hc.subset hn)) hrest⟩

theorem cfg_of.good {sets : List parser.vf_frame_set_t} (h : cfg_of env = .ok sets) :
    ∀ set ∈ sets, GoodSet (stored_set set) := by
  unfold cfg_of at h
  simp only [parser.bind_ok, parser.need_ok, parser.require_ok] at h
  obtain ⟨data, hdata, -, -, -, -, -, -, hsets⟩ := h
  refine sets_of.good ?_ hsets
  obtain ⟨content, -, hcontent⟩ := Option.bind_eq_some_iff.mp hdata
  split at hcontent
  · cases hcontent
    exact no_nul_cstr _
  · cases hcontent

/-- For each file, each pattern of failed allocations and all answers of `atoi`, the load ends,
and makes no access that is not allowed. It loads good sets, or it keeps no block. -/
theorem a_load_is_safe (env : Env) (out_cfg : Option Alloc) :
    ∃ err m', vf_parser_load_frames_cfg env (.start out_cfg) = some (err, m') ∧
      (err = .VF_SUCCESS ∧ Loaded m' ∨ err ≠ .VF_SUCCESS ∧ Cleared m') := by
  have hloads := vf_parser_load_frames_cfg.spec env out_cfg
  rcases hv : cfg_of env with err | sets
  · rw [hv] at hloads
    obtain ⟨herr, m', hrun, hclear⟩ := hloads
    exact ⟨err, m', hrun, Or.inr ⟨herr, hclear⟩⟩
  · rw [hv] at hloads
    obtain ⟨hsome, m', hrun, hkept⟩ := hloads
    refine ⟨.VF_SUCCESS, m', hrun, Or.inl ⟨rfl, hkept.out, ?_, ?_, ?_, hkept.buffer, ?_⟩⟩
    · rw [hkept.cfg, hkept.frame_sets, List.length_map]
    · rw [hkept.frame_sets]
      simpa using hsome
    · intro set hset
      rw [hkept.frame_sets] at hset
      obtain ⟨value, hvalue, rfl⟩ := List.mem_map.mp hset
      exact cfg_of.good hv value hvalue
    · rw [hkept.frame_sets, List.length_map]
      exact hkept.live

end

/-! ## The answers of the library -/

/-- The `atoi` of the C library. -/
def library_atoi (s : Text) : BitVec 32 := BitVec.ofInt 32 (parser.atoi s)

theorem library_atoi_toInt (s : Text) : (library_atoi s).toInt = parser.atoi s := by
  unfold library_atoi parser.atoi
  rw [BitVec.toInt_ofInt]
  exact Int.bmod_bmod

theorem map_bind_except {α β γ : Type} (x : Except vf_err_t α) (f : α → Except vf_err_t β)
    (g : β → γ) : (x >>= f).map g = x >>= fun a => (f a).map g := by
  rcases x with err | a <;> rfl

section
variable {env : Env}

theorem int_at_eq (hatoi : env.atoi = library_atoi) :
    int_at env = parser.vf_parser_extract_int := by
  funext src
  unfold int_at parser.vf_parser_extract_int
  simp only [hatoi, library_atoi_toInt]

theorem frame_of_eq (hatoi : env.atoi = library_atoi) (base_path cursor : Text) :
    frame_of env base_path cursor =
      (parser.load_frame base_path cursor).map fun frame => (frame.1, frame.2.height) := by
  unfold frame_of parser.load_frame
  rw [int_at_eq hatoi]
  simp only [map_bind_except]
  rfl

theorem frames_of_eq (hatoi : env.atoi = library_atoi) (base_path : Text) (n : Nat)
    (cursor : Text) : frames_of env base_path n cursor =
      (parser.load_frames base_path n cursor).map fun frames => (frames.1.map (·.1), frames.2) := by
  induction n generalizing cursor with
  | zero => rfl
  | succ n ih =>
    unfold frames_of parser.load_frames
    rw [frame_of_eq hatoi, map_bind_except]
    rcases parser.load_frame base_path cursor with err | frame
    · rfl
    · change (frames_of env base_path n frame.2.height >>= _) =
        Except.map _ (parser.load_frames base_path n frame.2.height >>= _)
      rw [ih, map_bind_except]
      rcases parser.load_frames base_path n frame.2.height with err | frames <;> rfl

theorem set_of_eq (hatoi : env.atoi = library_atoi) (i : Nat) (cursor : Text) :
    set_of env i cursor =
      (parser.load_set env.alloc i cursor).map fun set => (set.1.1, set.2) := by
  unfold set_of parser.load_set
  simp only [frames_of_eq hatoi, map_bind_except]
  -- the two read the same until they come to the frames
  repeat refine bind_congr fun _ => ?_
  generalize parser.load_frames _ _ _ = frames
  rcases frames with err | frames <;> rfl

theorem sets_of_eq (hatoi : env.atoi = library_atoi) (i n : Nat) (cursor : Text) :
    sets_of env i n cursor =
      (parser.load_sets env.alloc i n cursor).map fun sets => sets.map (·.1) := by
  induction n generalizing i cursor with
  | zero => rfl
  | succ n ih =>
    unfold sets_of parser.load_sets
    rw [set_of_eq hatoi, map_bind_except]
    rcases parser.load_set env.alloc i cursor with err | ⟨set, c⟩
    · rfl
    · change (sets_of env (i + 1) n c >>= _) =
        Except.map _ (parser.load_sets env.alloc (i + 1) n c >>= _)
      rw [ih, map_bind_except]
      rcases parser.load_sets env.alloc (i + 1) n c with err | sets <;> rfl

theorem cfg_of_eq (hatoi : env.atoi = library_atoi) :
    cfg_of env = (parser.vf_parser_load_frames_cfg env.file env.alloc).map (·.frame_sets) := by
  unfold cfg_of parser.vf_parser_load_frames_cfg parser.load_places
  simp only [sets_of_eq hatoi, map_bind_except, bind_assoc]
  repeat refine bind_congr fun _ => ?_
  generalize parser.load_sets _ _ _ _ = sets
  rcases sets with err | sets <;> rfl

/-- With the `atoi` of the library, the load in memory fails with the code of the load on
texts, or it leaves in memory what that one returns. -/
theorem a_load_follows_the_texts (hatoi : env.atoi = library_atoi) (out_cfg : Option Alloc) :
    Loads (vf_parser_load_frames_cfg env (.start out_cfg))
      ((parser.vf_parser_load_frames_cfg env.file env.alloc).map (·.frame_sets)) := by
  rw [← cfg_of_eq hatoi]
  exact vf_parser_load_frames_cfg.spec env out_cfg

/-- A config of one small set. -/
def one_set_text : Text :=
  "\x7b\"frame_sets\":[\x7b\"name\":\"raw\",\"base_path\":\"in\",\"format\":\"RAW8\",".toList ++
    "\"frames\":[\x7b\"file\":\"a.raw\",\"width\":2,\"height\":3\x7d]\x7d]\x7d".toList

theorem one_set_is_left_in_memory : ∃ (env : Env) (m' : Mem), env.file = some one_set_text ∧
    vf_parser_load_frames_cfg env (.start none) = some (.VF_SUCCESS, m') ∧
      Kept [⟨"raw".toList, "in".toList, .VF_PIXEL_FORMAT_RAW8,
        [⟨"a.raw".toList, "in/a.raw".toList, 2, 3⟩]⟩] m' := by
  obtain ⟨env, hfile, halloc, hatoi⟩ : ∃ env : Env, env.file = some one_set_text ∧
      env.alloc = (fun _ => true) ∧ env.atoi = library_atoi :=
    ⟨⟨some one_set_text, fun _ => true, library_atoi, List.replicate MAX_FILE_SIZE ' ',
      List.length_replicate⟩, rfl, rfl, rfl⟩
  have hload := a_load_follows_the_texts hatoi none
  have htexts : parser.vf_parser_load_frames_cfg (some one_set_text) (fun _ => true) =
      .ok ⟨[⟨"raw".toList, "in".toList, .VF_PIXEL_FORMAT_RAW8,
        [⟨"a.raw".toList, "in/a.raw".toList, 2, 3⟩]⟩]⟩ := by
    decide +kernel
  rw [hfile, halloc, htexts] at hload
  obtain ⟨-, m', hrun, hkept⟩ := hload
  exact ⟨env, m', hfile, hrun, hkept⟩

end

end vision_flow.parser_memory
