-- Where the values of a loaded config come from. The loop that counts the frames of a set
-- stops at the end of its array, but the searches that read them do not: a frame without a
-- width gets the next width in the file. What a frame reads is its own exactly if the text
-- of the frame can be read alone.
import VisionFlow.ParserCuts

namespace vision_flow.parser

open search

/-! ## The end of an array -/

inductive Scan
  | outside
  | inside
  | escape
  deriving DecidableEq

/-- The bracket that closes an array, outside the strings and at its own depth. It is empty
if the array is not closed. -/
def closing : Nat → Scan → Text → Text
  | _, _, [] => []
  | depth, .outside, c :: rest =>
    if c = '"' then closing depth .inside rest
    else if c = '[' then closing (depth + 1) .outside rest
    else if c = ']' then if depth ≤ 1 then c :: rest else closing (depth - 1) .outside rest
    else closing depth .outside rest
  | depth, .inside, c :: rest =>
    closing depth (if c = '"' then .outside else if c = '\\' then .escape else .inside) rest
  | depth, .escape, _ :: rest => closing depth .inside rest

/-- The file keys of the array that follows a frames key. -/
def array_files (frames_start : Text) : List Text :=
  (places Key.file.quoted frames_start).filter (before · (closing 0 .outside frames_start))

/-- Where the frame `j` of the array ends: at the next file key, or at the closing bracket. -/
def frame_end (frames_start : Text) (j : Nat) : Text :=
  (array_files frames_start)[j + 1]?.getD (closing 0 .outside frames_start)

/-- Where the set ends: at the next name key, or at the end of the text. -/
def next_name (name : Text) : Text := (strstr (name.drop 1) Key.name.quoted).getD []

/-! ## Values of their own object -/

/-- The frame `j` has its values from the text between its file key and the next one. -/
structure FrameOwn (frames_start : Text) (j : Nat) (frame : vf_frame_info_t)
    (at_frame : FramePlaces) : Prop where
  file : (array_files frames_start)[j]? = some at_frame.file
  file_name :
    StringIn (frame_end frames_start j) at_frame.file VF_PARSER_MAX_FILE_NAME_LEN frame.file_name
  keys : before at_frame.file at_frame.width = true ∧ before at_frame.file at_frame.height = true
  width : IntIn (frame_end frames_start j) at_frame.width frame.width
  height : IntIn (frame_end frames_start j) at_frame.height frame.height

/-- The set has its values from the text before the next name key, and each of its frames
has its own. -/
structure SetOwn (set : vf_frame_set_t) (at_set : SetPlaces) : Prop where
  keys : before at_set.base_path (next_name at_set.name) = true ∧
    before at_set.format (next_name at_set.name) = true ∧
    before at_set.frames_start (next_name at_set.name) = true
  name : StringIn (next_name at_set.name) at_set.name VF_PARSER_MAX_NAME_LEN set.name
  base_path :
    StringIn (next_name at_set.name) at_set.base_path VF_PARSER_MAX_BASE_PATH_LEN set.base_path
  format : ∃ fmt_str, StringIn (next_name at_set.name) at_set.format 32 fmt_str ∧
    vf_parser_str_to_format fmt_str = set.format
  frames : ∀ j frame at_frame, set.frames[j]? = some frame → at_set.frames[j]? = some at_frame →
    FrameOwn at_set.frames_start j frame at_frame

/-! ## Texts that can be read alone -/

def positive_int (src : Text) : Bool := (vf_parser_extract_int src).any (0 < ·)

/-- The text has the three values of a frame, with the keys in their order. -/
def frame_readable (text : Text) : Bool :=
  (vf_parser_extract_string text VF_PARSER_MAX_FILE_NAME_LEN).isSome &&
    (strstr text Key.width.quoted).any fun at_width => positive_int at_width &&
      (strstr at_width Key.height.quoted).any positive_int

/-- The text has the three strings of a set, with the keys in their order. -/
def set_readable (text : Text) : Bool :=
  (vf_parser_extract_string text VF_PARSER_MAX_NAME_LEN).isSome &&
    (strstr text Key.base_path.quoted).any fun at_base_path =>
      (vf_parser_extract_string at_base_path VF_PARSER_MAX_BASE_PATH_LEN).isSome &&
        (strstr at_base_path Key.format.quoted).any fun at_format =>
          (vf_parser_extract_string at_format 32).isSome

/-- The first format key after the next base path key, and the next frames key. -/
def frames_keys (name : Text) : Option (Text × Text) :=
  (strstr name Key.base_path.quoted).bind fun at_base_path =>
    (strstr at_base_path Key.format.quoted).bind fun at_format =>
      (strstr at_format Key.frames.quoted).map (at_format, ·)

/-- The frames that the loop counts. -/
def counted (frames_start : Text) : Nat :=
  ((strchr frames_start ']').map fun stop => count_keys .file stop frames_start).getD 0

/-- The strings of the set and its frames key stand before the next name key, no file key
stands before the array, and each frame that is counted can be read alone. -/
def orderly (name : Text) : Bool :=
  set_readable (cut name (next_name name)) &&
    (frames_keys name).any fun (at_format, frames_start) =>
      before frames_start (next_name name) &&
        (strstr at_format Key.file.quoted).all (!before · frames_start) &&
        (List.range (counted frames_start)).all fun j =>
          (array_files frames_start)[j]?.any fun file =>
            frame_readable (cut file (frame_end frames_start j))

section
variable {s t p q src limit v quote : Text} {c : Char} {size : Nat} {key : Key} {n : Int}

/-! ## What a load finds -/

/-- One turn of the loop over the frames found this. -/
structure FrameFound (cursor : Text) (frame : vf_frame_info_t × FramePlaces) : Prop where
  at_file : strstr cursor Key.file.quoted = some frame.2.file
  file_name :
    vf_parser_extract_string frame.2.file VF_PARSER_MAX_FILE_NAME_LEN = some frame.1.file_name
  at_width : strstr frame.2.file Key.width.quoted = some frame.2.width
  width : vf_parser_extract_int frame.2.width = some (frame.1.width : Int)
  width_pos : 0 < frame.1.width
  at_height : strstr frame.2.width Key.height.quoted = some frame.2.height
  height : vf_parser_extract_int frame.2.height = some (frame.1.height : Int)
  height_pos : 0 < frame.1.height

/-- The loop over the frames went from one cursor to the other. -/
inductive FramesFound : Text → List (vf_frame_info_t × FramePlaces) → Text → Prop
  | nil {cursor : Text} : FramesFound cursor [] cursor
  | cons {cursor cursor' : Text} {frame : vf_frame_info_t × FramePlaces}
      {rest : List (vf_frame_info_t × FramePlaces)} : FrameFound cursor frame →
      FramesFound frame.2.height rest cursor' → FramesFound cursor (frame :: rest) cursor'

/-- One turn of the loop over the sets found this. -/
structure SetFound (cursor : Text) (set : vf_frame_set_t × SetPlaces) (cursor' : Text) : Prop where
  at_name : strstr cursor Key.name.quoted = some set.2.name
  name : vf_parser_extract_string set.2.name VF_PARSER_MAX_NAME_LEN = some set.1.name
  at_base_path : strstr set.2.name Key.base_path.quoted = some set.2.base_path
  base_path :
    vf_parser_extract_string set.2.base_path VF_PARSER_MAX_BASE_PATH_LEN = some set.1.base_path
  at_format : strstr set.2.base_path Key.format.quoted = some set.2.format
  format : ∃ fmt_str, vf_parser_extract_string set.2.format 32 = some fmt_str ∧
    vf_parser_str_to_format fmt_str = set.1.format
  frames_start : strstr set.2.format Key.frames.quoted = some set.2.frames_start
  frames_end : strchr set.2.frames_start ']' = some set.2.frames_end
  some_frame : set.1.frames ≠ []
  frames : ∃ frames, set.1.frames = frames.map (·.1) ∧ set.2.frames = frames.map (·.2) ∧
    frames.length = count_keys .file set.2.frames_end set.2.frames_start ∧
    FramesFound set.2.format frames cursor'

/-- The loop over the sets found these. -/
inductive SetsFound : Text → List (vf_frame_set_t × SetPlaces) → Prop
  | nil {cursor : Text} : SetsFound cursor []
  | cons {cursor cursor' : Text} {set : vf_frame_set_t × SetPlaces}
      {rest : List (vf_frame_set_t × SetPlaces)} : SetFound cursor set cursor' →
      SetsFound cursor' rest → SetsFound cursor (set :: rest)

section
variable {ε α β : Type} {x : Except ε α} {f : α → Except ε β} {a : α} {b : β} {o : Option α}
  {err : vf_err_t} {u : Unit} {cond : Bool}

theorem bind_ok : (x >>= f) = .ok b ↔ ∃ a, x = .ok a ∧ f a = .ok b := by
  rcases x with e | a
  · constructor
    · intro h
      cases h
    · rintro ⟨_, h, _⟩
      cases h
  · constructor
    · intro h
      exact ⟨a, rfl, h⟩
    · rintro ⟨_, h, hf⟩
      cases h
      exact hf

theorem need_ok : need o = .ok a ↔ o = some a := by
  unfold need
  split <;> simp [eq_comm]

theorem require_ok : require cond err = .ok u ↔ cond = true := by
  unfold require
  split <;> simp_all

end

section
variable {cursor cursor' base_path : Text} {alloc : Alloc → Bool} {k : Nat}

theorem load_frame.found {frame : vf_frame_info_t × FramePlaces}
    (h : load_frame base_path cursor = .ok frame) : FrameFound cursor frame := by
  unfold load_frame at h
  simp only [bind_ok, need_ok, require_ok, decide_eq_true_eq] at h
  obtain ⟨file, hfile, name, hname, at_width, hat_width, width, hwidth, -, hwpos, at_height,
    hat_height, height, hheight, -, hhpos, hframe⟩ := h
  cases hframe
  have hw : (width.toNat : Int) = width := Int.toNat_of_nonneg hwpos.le
  have hh : (height.toNat : Int) = height := Int.toNat_of_nonneg hhpos.le
  exact ⟨hfile, hname, hat_width, by simpa [hw] using hwidth, by simpa using hwpos, hat_height,
    by simpa [hh] using hheight, by simpa using hhpos⟩

theorem load_frames.found {frames : List (vf_frame_info_t × FramePlaces)}
    (h : load_frames base_path k cursor = .ok (frames, cursor')) :
    frames.length = k ∧ FramesFound cursor frames cursor' := by
  induction k generalizing cursor frames with
  | zero =>
    cases h
    exact ⟨rfl, .nil⟩
  | succ k ih =>
    unfold load_frames at h
    simp only [bind_ok] at h
    obtain ⟨frame, hframe, ⟨rest, _⟩, hrest, h⟩ := h
    cases h
    obtain ⟨hlen, hfound⟩ := ih hrest
    exact ⟨by rw [List.length_cons, hlen], .cons (load_frame.found hframe) hfound⟩

theorem load_set.found {set : vf_frame_set_t × SetPlaces}
    (h : load_set alloc k cursor = .ok (set, cursor')) : SetFound cursor set cursor' := by
  unfold load_set at h
  simp only [bind_ok, need_ok, require_ok, decide_eq_true_eq] at h
  obtain ⟨at_name, hat_name, name, hname, at_base_path, hat_base_path, base_path, hbase_path,
    at_format, hat_format, fmt_str, hfmt_str, -, -, frames_start, hstart, frames_end, hend, -,
    hcount, -, -, ⟨frames, _⟩, hframes, h⟩ := h
  cases h
  obtain ⟨hlen, hfound⟩ := load_frames.found hframes
  have hne : frames.map (·.1) ≠ [] := by
    intro hnil
    rw [List.map_eq_nil_iff] at hnil
    rw [hnil, List.length_nil] at hlen
    exact hcount hlen.symm
  exact ⟨hat_name, hname, hat_base_path, hbase_path, hat_format, ⟨fmt_str, hfmt_str, rfl⟩, hstart,
    hend, hne, frames, rfl, rfl, hlen, hfound⟩

theorem load_sets.found {i : Nat} {sets : List (vf_frame_set_t × SetPlaces)}
    (h : load_sets alloc i k cursor = .ok sets) : sets.length = k ∧ SetsFound cursor sets := by
  induction k generalizing i cursor sets with
  | zero =>
    cases h
    exact ⟨rfl, .nil⟩
  | succ k ih =>
    unfold load_sets at h
    simp only [bind_ok] at h
    obtain ⟨⟨set, _⟩, hset, rest, hrest, h⟩ := h
    cases h
    obtain ⟨hlen, hfound⟩ := ih hrest
    exact ⟨by rw [List.length_cons, hlen], .cons (load_set.found hset) hfound⟩

end

/-! ## Own frames -/

section
variable {cursor cursor' frames_start file : Text} {frame : vf_frame_info_t × FramePlaces} {j : Nat}

theorem positive_int_eq :
    positive_int src = true ↔ ∃ n, vf_parser_extract_int src = some n ∧ 0 < n := by
  unfold positive_int
  simp only [Option.any_eq_true, decide_eq_true_eq]

theorem frame_readable_eq : frame_readable p = true ↔
    (vf_parser_extract_string p VF_PARSER_MAX_FILE_NAME_LEN).isSome = true ∧
    ∃ at_width, strstr p Key.width.quoted = some at_width ∧ positive_int at_width = true ∧
    ∃ at_height, strstr at_width Key.height.quoted = some at_height ∧
      positive_int at_height = true := by
  unfold frame_readable
  simp only [Bool.and_eq_true, Option.any_eq_true]

/-- A key in the first part of a text is the one that is found. -/
theorem found_alone (h : strstr src key.quoted = some t) (hsrc : src = p ++ q)
    (halone : strstr p key.quoted = some s) : t = s ++ q := by
  rw [hsrc] at h
  exact Option.some.inj (h.symm.trans (find_append halone))

theorem found_before (h : strstr src key.quoted = some t) (hsrc : src = p ++ q)
    (hfits : q.length + key.quoted.length < t.length) :
    ∃ s, t = s ++ q ∧ strstr p key.quoted = some s := by
  rw [hsrc] at h
  exact find_of_append h hfits.le

/-- The first part of a text has a string exactly if the string that is read ends there. -/
theorem string_alone (h : vf_parser_extract_string src size = some v) (hsrc : src = p ++ q) :
    (vf_parser_extract_string p size).isSome = true ↔ StringIn q src size v := by
  subst hsrc
  rw [string_in_append, Option.isSome_iff_exists]
  refine ⟨?_, fun halone => ⟨v, halone⟩⟩
  rintro ⟨w, halone⟩
  have hread := (string_in_append (q := q).mpr halone).read
  rw [h, Option.some.injEq] at hread
  rwa [hread]

theorem int_alone (h : vf_parser_extract_int src = some n) (hpos : 0 < n) (hsrc : src = p ++ q)
    (hq : Stops q) : positive_int p = true ↔ IntIn q src n := by
  subst hsrc
  rw [int_in_append hq, positive_int_eq]
  refine ⟨?_, fun halone => ⟨n, halone, hpos⟩⟩
  rintro ⟨k, halone, -⟩
  have hread := ((int_in_append hq).mpr halone).read
  rw [h, Option.some.injEq] at hread
  rwa [hread]

/-- What a frame reads lies before the limit exactly if the text up to there can be read
alone. -/
theorem FrameFound.in_append (h : FrameFound cursor frame) (hfile : frame.2.file = p ++ q)
    (hq : Stops q) : frame_readable p = true ↔
    StringIn q frame.2.file VF_PARSER_MAX_FILE_NAME_LEN frame.1.file_name ∧
    IntIn q frame.2.width frame.1.width ∧ IntIn q frame.2.height frame.1.height := by
  have hwpos : (0 : Int) < frame.1.width := Int.natCast_pos.mpr h.width_pos
  have hhpos : (0 : Int) < frame.1.height := Int.natCast_pos.mpr h.height_pos
  rw [frame_readable_eq, string_alone h.file_name hfile]
  constructor
  · rintro ⟨hname, at_width, hat_width, hwidth, at_height, hat_height, hheight⟩
    have hw := found_alone h.at_width hfile hat_width
    have hk := found_alone h.at_height hw hat_height
    exact ⟨hname, (int_alone h.width hwpos hw hq).mp hwidth,
      (int_alone h.height hhpos hk hq).mp hheight⟩
  · rintro ⟨hname, hwidth, hheight⟩
    obtain ⟨at_width, hw, hat_width⟩ :=
      found_before h.at_width hfile (hwidth.key_fits (find_suffix h.at_width).2)
    obtain ⟨at_height, hk, hat_height⟩ :=
      found_before h.at_height hw (hheight.key_fits (find_suffix h.at_height).2)
    exact ⟨hname, at_width, hat_width, (int_alone h.width hwpos hw hq).mpr hwidth, at_height,
      hat_height, (int_alone h.height hhpos hk hq).mpr hheight⟩

theorem closing_suffix (depth : Nat) (m : Scan) (l : Text) : closing depth m l <:+ l := by
  fun_induction closing depth m l with
  | case1 => exact List.suffix_rfl
  | case4 => exact List.suffix_rfl
  | _ =>
    rename_i ih
    exact ih.trans (List.suffix_cons _ _)

theorem closing_head (depth : Nat) (m : Scan) (l : Text) :
    ∀ c ∈ (closing depth m l).head?, c = ']' := by
  fun_induction closing depth m l with
  | case1 => simp
  | case4 => simp
  | _ =>
    rename_i ih
    exact ih

theorem quoted_ne_nil (key : Key) : key.quoted ≠ [] := List.cons_ne_nil _ _

theorem array_file (h : (array_files frames_start)[j]? = some file) :
    (places Key.file.quoted frames_start)[j]? = some file ∧
      file <:+ frames_start ∧ Key.file.quoted <+: file ∧
      (closing 0 .outside frames_start).length < file.length := by
  have hmem := List.mem_of_getElem? h
  unfold array_files at h hmem
  obtain ⟨hplace, hbefore⟩ := List.mem_filter.mp hmem
  obtain ⟨hsuf, hkey⟩ := mem_places.mp hplace
  have hfirst : (places Key.file.quoted frames_start).filter
      (before · (closing 0 .outside frames_start)) <+: places Key.file.quoted frames_start :=
    filter_places_prefix _ _ _
  obtain ⟨rest, hrest⟩ := hfirst
  refine ⟨?_, hsuf, hkey, by simpa [before] using hbefore⟩
  obtain ⟨hlt, -⟩ := List.getElem?_eq_some_iff.mp h
  rw [← hrest, List.getElem?_append_left hlt]
  exact h

/-- The next file key of the array is the next one in the text. -/
theorem array_next {next : Text} (h : (array_files frames_start)[j]? = some file)
    (hnext : (array_files frames_start)[j + 1]? = some next) :
    strstr (file.drop 1) Key.file.quoted = some next := by
  obtain ⟨hplace, -, ⟨rest, rfl⟩, -⟩ := array_file h
  have hfind := places_next (quoted_ne_nil .file) hplace
  rw [(array_file hnext).1] at hfind
  exact hfind.symm

theorem frame_end_suffix (h : (array_files frames_start)[j]? = some file) :
    frame_end frames_start j <:+ file := by
  unfold frame_end
  rcases hnext : (array_files frames_start)[j + 1]? with _ | next
  · obtain ⟨-, hsuf, -, hlen⟩ := array_file h
    exact List.suffix_of_suffix_length_le (closing_suffix _ _ _) hsuf hlen.le
  · exact (find_suffix (array_next h hnext)).1.trans (List.drop_suffix _ _)

theorem frame_end_stops (frames_start : Text) (j : Nat) : Stops (frame_end frames_start j) := by
  have hhead : ∀ c ∈ (frame_end frames_start j).head?, c = ']' ∨ c = '"' := by
    unfold frame_end
    rcases hnext : (array_files frames_start)[j + 1]? with _ | next
    · intro c hc
      exact Or.inl (closing_head _ _ _ c hc)
    · obtain ⟨-, -, ⟨rest, rfl⟩, -⟩ := array_file hnext
      intro c hc
      exact Or.inr (by simpa [Key.quoted, eq_comm] using hc)
  intro c hc
  rcases hhead c hc with rfl | rfl
  · decide
  · decide

theorem quoted_inj {k : Key} (h : key.quoted <+: k.quoted) : key = k := by
  revert h
  cases key <;> cases k <;> first | exact fun _ => rfl | decide

theorem FramesFound.turn {cursor cursor' : Text} {frames : List (vf_frame_info_t × FramePlaces)}
    {frame : vf_frame_info_t × FramePlaces} (h : FramesFound cursor frames cursor')
    (hmem : frame ∈ frames) : ∃ c, FrameFound c frame := by
  induction h with
  | nil => cases hmem
  | cons hfound _ ih =>
    rcases List.mem_cons.mp hmem with rfl | hmem
    · exact ⟨_, hfound⟩
    · exact ih hmem

/-- A search for another key finds it later. -/
theorem key_later {k : Key} (hne : key ≠ k) (hkey : key.quoted <+: s)
    (h : strstr s k.quoted = some t) : before s t = true := by
  obtain ⟨hsuf, hk⟩ := find_suffix h
  have hlt : t.length ≠ s.length := by
    intro heq
    obtain rfl := hsuf.eq_of_length heq
    rcases List.prefix_or_prefix_of_prefix hkey hk with hp | hp
    · exact hne (quoted_inj hp)
    · exact hne (quoted_inj hp).symm
  have := hsuf.length_le
  unfold before
  rw [decide_eq_true_eq]
  omega

/-- A frame has its own values exactly if its text can be read alone. -/
theorem FrameFound.own_iff (h : FrameFound cursor frame) :
    FrameOwn frames_start j frame.1 frame.2 ↔
      (array_files frames_start)[j]? = some frame.2.file ∧
      frame_readable (cut frame.2.file (frame_end frames_start j)) = true := by
  have hin (hfile : (array_files frames_start)[j]? = some frame.2.file) :=
    h.in_append (cut_append (frame_end_suffix hfile)).symm (frame_end_stops frames_start j)
  constructor
  · intro hown
    exact ⟨hown.file, (hin hown.file).mpr ⟨hown.file_name, hown.width, hown.height⟩⟩
  · rintro ⟨hfile, hread⟩
    obtain ⟨hname, hwidth, hheight⟩ := (hin hfile).mp hread
    obtain ⟨hat_width, hwkey⟩ := find_suffix h.at_width
    have hw := key_later (by decide) (find_suffix h.at_file).2 h.at_width
    have hh := key_later (by decide) hwkey h.at_height
    refine ⟨hfile, hname, ⟨hw, ?_⟩, hwidth, hheight⟩
    unfold before at hw hh ⊢
    rw [decide_eq_true_eq] at hw hh ⊢
    omega

/-- The turns of the loop stay with the array, as long as each frame can be read alone. -/
theorem FramesFound.own {frames : List (vf_frame_info_t × FramePlaces)}
    (h : FramesFound cursor frames cursor')
    (hfirst : frames ≠ [] → strstr cursor Key.file.quoted = (array_files frames_start)[j]?)
    (hread : ∀ i < frames.length, ∃ file, (array_files frames_start)[j + i]? = some file ∧
      frame_readable (cut file (frame_end frames_start (j + i))) = true) :
    ∀ i frame, frames[i]? = some frame → FrameOwn frames_start (j + i) frame.1 frame.2 := by
  induction h generalizing j with
  | nil =>
    intro i frame hi
    simp at hi
  | @cons cursor cursor' first rest hfound _ ih =>
    obtain ⟨file, hfile, hreadable⟩ := hread 0 (by simp)
    have hsame := hfirst (List.cons_ne_nil _ _)
    rw [Nat.add_zero] at hfile hreadable
    rw [hfound.at_file, hfile, Option.some.injEq] at hsame
    rw [← hsame] at hfile hreadable
    have hown := hfound.own_iff.mpr ⟨hfile, hreadable⟩
    intro i frame hi
    cases i with
    | zero =>
      obtain rfl : first = frame := by simpa using hi
      exact hown
    | succ i =>
      rw [List.getElem?_cons_succ] at hi
      have hnext : rest ≠ [] →
          strstr first.2.height Key.file.quoted = (array_files frames_start)[j + 1]? := by
        intro hne
        have hlen := List.length_pos_iff.mpr hne
        obtain ⟨next, hnext, -⟩ := hread 1 (by simpa using hlen)
        -- the height key stands between this file key and the next one
        have hend := hown.height.key_fits (find_suffix hfound.at_height).2
        have hkeys := hown.keys.2
        have hsuf := (find_suffix hfound.at_height).1.trans (find_suffix hfound.at_width).1
        unfold frame_end at hend
        rw [hnext, Option.getD_some] at hend
        unfold before at hkeys
        rw [decide_eq_true_eq] at hkeys
        rw [hnext]
        refine find_later (array_next hfile hnext) ?_ (by omega)
        refine List.suffix_of_suffix_length_le hsuf (List.drop_suffix _ _) ?_
        rw [List.length_drop]
        omega
      have := ih hnext (fun i hi => ?_) i frame hi
      · rw [Nat.add_assoc, Nat.add_comm 1 i] at this
        exact this
      · have := hread (i + 1) (by simpa using hi)
        rw [Nat.add_assoc, Nat.add_comm 1 i]
        exact this

end

/-! ## Own sets -/

section
variable {cursor cursor' : Text} {set : vf_frame_set_t × SetPlaces}

theorem set_readable_eq : set_readable p = true ↔
    (vf_parser_extract_string p VF_PARSER_MAX_NAME_LEN).isSome = true ∧
    ∃ at_base_path, strstr p Key.base_path.quoted = some at_base_path ∧
      (vf_parser_extract_string at_base_path VF_PARSER_MAX_BASE_PATH_LEN).isSome = true ∧
    ∃ at_format, strstr at_base_path Key.format.quoted = some at_format ∧
      (vf_parser_extract_string at_format 32).isSome = true := by
  unfold set_readable
  simp only [Bool.and_eq_true, Option.any_eq_true]

/-- The strings of a set lie before the limit exactly if the text up to there can be read
alone. -/
theorem SetFound.in_append (h : SetFound cursor set cursor') (hname : set.2.name = p ++ q) :
    set_readable p = true ↔
    StringIn q set.2.name VF_PARSER_MAX_NAME_LEN set.1.name ∧
    StringIn q set.2.base_path VF_PARSER_MAX_BASE_PATH_LEN set.1.base_path ∧
    ∃ fmt_str, StringIn q set.2.format 32 fmt_str ∧
      vf_parser_str_to_format fmt_str = set.1.format := by
  obtain ⟨fmt_str, hfmt, hformat⟩ := h.format
  rw [set_readable_eq, string_alone h.name hname]
  constructor
  · rintro ⟨hn, at_base_path, hat_base_path, hbase, at_format, hat_format, hfmt_str⟩
    have hb := found_alone h.at_base_path hname hat_base_path
    have hf := found_alone h.at_format hb hat_format
    exact ⟨hn, (string_alone h.base_path hb).mp hbase, fmt_str,
      (string_alone hfmt hf).mp hfmt_str, hformat⟩
  · rintro ⟨hn, hbase, f, hfmt_str, -⟩
    obtain ⟨at_base_path, hb, hat_base_path⟩ :=
      found_before h.at_base_path hname (hbase.key_fits (find_suffix h.at_base_path).2)
    obtain ⟨at_format, hf, hat_format⟩ :=
      found_before h.at_format hb (hfmt_str.key_fits (find_suffix h.at_format).2)
    exact ⟨hn, at_base_path, hat_base_path, (string_alone h.base_path hb).mpr hbase, at_format,
      hat_format, (string_alone hfmt_str.read hf).mpr hfmt_str⟩

theorem next_name_suffix (name : Text) : next_name name <:+ name := by
  unfold next_name
  rcases h : strstr (name.drop 1) Key.name.quoted with _ | next
  · exact List.nil_suffix
  · exact (find_suffix h).1.trans (List.drop_suffix _ _)

theorem SetFound.frames_keys_eq (h : SetFound cursor set cursor') :
    frames_keys set.2.name = some (set.2.format, set.2.frames_start) := by
  unfold frames_keys
  rw [h.at_base_path, Option.bind_some, h.at_format, Option.bind_some, h.frames_start,
    Option.map_some]

theorem SetFound.counted_eq (h : SetFound cursor set cursor') :
    counted set.2.frames_start = count_keys .file set.2.frames_end set.2.frames_start := by
  unfold counted
  rw [h.frames_end, Option.map_some, Option.getD_some]

/-- What makes the text of a set that a turn found orderly. -/
theorem SetFound.orderly_eq (h : SetFound cursor set cursor') : orderly set.2.name = true ↔
    set_readable (cut set.2.name (next_name set.2.name)) = true ∧
    before set.2.frames_start (next_name set.2.name) = true ∧
    (∀ file, strstr set.2.format Key.file.quoted = some file →
      before file set.2.frames_start = false) ∧
    ∀ j < count_keys .file set.2.frames_end set.2.frames_start, ∃ file,
      (array_files set.2.frames_start)[j]? = some file ∧
      frame_readable (cut file (frame_end set.2.frames_start j)) = true := by
  unfold orderly
  rw [h.frames_keys_eq, Option.any_some]
  simp only [h.counted_eq, Bool.and_eq_true, Option.all_eq_true, Bool.not_eq_true',
    List.all_eq_true, List.mem_range, Option.any_eq_true, and_assoc]

/-- The frames of a set are the ones that its turn found. -/
theorem SetFound.frame_own (h : SetFound cursor set cursor') :
    (∀ j frame at_frame, set.1.frames[j]? = some frame → set.2.frames[j]? = some at_frame →
      FrameOwn set.2.frames_start j frame at_frame) ↔
    (∀ file, strstr set.2.format Key.file.quoted = some file →
      before file set.2.frames_start = false) ∧
    ∀ j < count_keys .file set.2.frames_end set.2.frames_start, ∃ file,
      (array_files set.2.frames_start)[j]? = some file ∧
      frame_readable (cut file (frame_end set.2.frames_start j)) = true := by
  obtain ⟨frames, hframes, hplaces, hlen, hfound⟩ := h.frames
  rw [hframes, hplaces, ← hlen]
  have hne : frames ≠ [] := by
    rintro rfl
    exact h.some_frame hframes
  constructor
  · intro hown
    have hown' : ∀ j frame, frames[j]? = some frame →
        FrameOwn set.2.frames_start j frame.1 frame.2 := by
      intro j frame hj
      apply hown
      · rw [List.getElem?_map, hj, Option.map_some]
      · rw [List.getElem?_map, hj, Option.map_some]
    constructor
    · intro file hfile
      obtain ⟨first, rest, rfl⟩ := List.exists_cons_of_ne_nil hne
      have hfirst := hown' 0 first rfl
      cases hfound with
      | cons hturn =>
        have hat_file := hturn.at_file
        rw [hfile, Option.some.injEq] at hat_file
        have hle := (array_file hfirst.file).2.1.length_le
        unfold before
        rw [hat_file, decide_eq_false_iff_not]
        omega
    · intro j hj
      have hown := hown' j frames[j] (List.getElem?_eq_getElem hj)
      obtain ⟨c, hturn⟩ := hfound.turn (List.getElem_mem hj)
      exact ⟨_, (hturn.own_iff.mp hown)⟩
  · rintro ⟨hfirst, hread⟩ j frame at_frame hj hat
    rw [List.getElem?_map, Option.map_eq_some_iff] at hj hat
    obtain ⟨x, hx, rfl⟩ := hj
    obtain ⟨y, hy, rfl⟩ := hat
    rw [hx, Option.some.injEq] at hy
    subst hy
    have hstart : frames ≠ [] → strstr set.2.format Key.file.quoted =
        (array_files set.2.frames_start)[0]? := by
      intro _
      obtain ⟨file, hfile, -⟩ := hread 0 (List.length_pos_iff.mpr hne)
      obtain ⟨first, rest, rfl⟩ := List.exists_cons_of_ne_nil hne
      cases hfound with
      | cons hturn =>
        -- no file key stands between the format key and the array
        have hat_file := hturn.at_file
        have hnot := hfirst _ hat_file
        unfold before at hnot
        rw [decide_eq_false_iff_not, not_lt] at hnot
        have hin := find_later hat_file (find_suffix h.frames_start).1 hnot
        rw [find_eq_head, List.head?_eq_getElem?, (array_file hfile).1] at hin
        rw [hat_file, hfile, hin]
    have := hfound.own hstart (fun i hi => ?_) j x hx
    · rw [Nat.zero_add] at this
      exact this
    · rw [Nat.zero_add]
      exact hread i hi

/-- A set has its own values exactly if its text is orderly. -/
theorem SetFound.own_iff (h : SetFound cursor set cursor') :
    SetOwn set.1 set.2 ↔ orderly set.2.name = true := by
  have hin := h.in_append (cut_append (next_name_suffix set.2.name)).symm
  rw [h.orderly_eq, hin, ← h.frame_own]
  constructor
  · intro hown
    exact ⟨⟨hown.name, hown.base_path, hown.format⟩, hown.keys.2.2, hown.frames⟩
  · rintro ⟨⟨hname, hbase_path, hformat⟩, hstart, hframes⟩
    refine ⟨⟨?_, ?_, hstart⟩, hname, hbase_path, hformat, hframes⟩
    · have := hbase_path.key_fits (find_suffix h.at_base_path).2
      unfold before
      rw [decide_eq_true_eq]
      omega
    · obtain ⟨_, hfmt, -⟩ := hformat
      have := hfmt.key_fits (find_suffix h.at_format).2
      unfold before
      rw [decide_eq_true_eq]
      omega

/-- The cursor ends after the name of the set. -/
theorem SetFound.later (h : SetFound cursor set cursor') : cursor' <:+ set.2.name.drop 1 := by
  have hfound : ∀ {c c' frames}, FramesFound c frames c' → c' <:+ c := by
    intro c c' frames h
    induction h with
    | nil => exact List.suffix_rfl
    | cons hturn _ ih =>
      exact ((ih.trans (find_suffix hturn.at_height).1).trans (find_suffix hturn.at_width).1).trans
        (find_suffix hturn.at_file).1
  obtain ⟨frames, -, -, -, hframes⟩ := h.frames
  have hname := (find_suffix h.at_name).2
  obtain ⟨hbase_path, -⟩ := find_suffix h.at_base_path
  have hlater := key_later (by decide) hname h.at_base_path
  unfold before at hlater
  rw [decide_eq_true_eq] at hlater
  have hrest : set.2.base_path <:+ set.2.name.drop 1 := by
    refine List.suffix_of_suffix_length_le hbase_path (List.drop_suffix _ _) ?_
    rw [List.length_drop]
    omega
  exact ((hfound hframes).trans (find_suffix h.at_format).1).trans hrest

/-- A load that finds as many sets as there are name keys leaves none out. -/
theorem SetsFound.names {sets : List (vf_frame_set_t × SetPlaces)} (h : SetsFound cursor sets)
    (hall : (places Key.name.quoted cursor).length ≤ sets.length) :
    sets.map (·.2.name) = places Key.name.quoted cursor := by
  induction h with
  | nil => exact (List.length_eq_zero_iff.mp (Nat.le_zero.mp hall)).symm
  | @cons cursor cursor' set rest hset _ ih =>
    obtain ⟨c, t, hname⟩ := List.exists_cons_of_ne_nil (l := set.2.name) (by
      intro hnil
      have hkey := (find_suffix hset.at_name).2
      rw [hnil] at hkey
      exact quoted_ne_nil .name (List.prefix_nil.mp hkey))
    have hfirst := hset.at_name
    have hlater := hset.later
    rw [hname] at hfirst hlater
    rw [places_of_find hfirst] at hall ⊢
    simp only [List.length_cons, Nat.add_le_add_iff_right] at hall
    have hsub : places Key.name.quoted cursor' = places Key.name.quoted t := by
      rw [places_suffix hlater]
      have hmap := ih ?_
      · have hlen := congrArg List.length hmap
        rw [List.length_map, places_suffix hlater] at hlen
        refine List.Sublist.eq_of_length_le List.filter_sublist ?_
        rw [← hlen]
        exact hall
      · rw [places_suffix hlater]
        exact (List.length_filter_le _ _).trans hall
    rw [List.map_cons, ih (by rw [hsub]; exact hall), hname, hsub]

theorem SetsFound.turn {sets : List (vf_frame_set_t × SetPlaces)} (h : SetsFound cursor sets)
    (hmem : set ∈ sets) : ∃ c c', SetFound c set c' := by
  induction h with
  | nil => cases hmem
  | cons hset _ ih =>
    rcases List.mem_cons.mp hmem with rfl | hmem
    · exact ⟨_, _, hset⟩
    · exact ih hmem

end

end

/-! ## The laws -/

section
variable {file : Option Text} {alloc : Alloc → Bool}

theorem load_places.spec {sets : List (vf_frame_set_t × SetPlaces)}
    (h : load_places file alloc = .ok sets) : ∃ text, vf_parser_read_file file alloc = some text ∧
      SetsFound text sets ∧ sets.map (·.2.name) = places Key.name.quoted text := by
  unfold load_places at h
  simp only [bind_ok, need_ok, require_ok] at h
  obtain ⟨text, htext, -, -, -, -, -, -, hsets⟩ := h
  obtain ⟨hlen, hfound⟩ := load_sets.found hsets
  refine ⟨text, htext, hfound, hfound.names ?_⟩
  rw [hlen, count_keys_eq]
  have hall : (places Key.name.quoted text).filter (before · []) = places Key.name.quoted text := by
    rw [List.filter_eq_self]
    intro s hs
    have := List.length_pos_iff.mpr (places_ne_nil (quoted_ne_nil .name) hs)
    simpa [before] using this
  rw [hall]

theorem SetsFound.own_iff {text : Text} {sets : List (vf_frame_set_t × SetPlaces)}
    (h : SetsFound text sets) :
    (∀ set ∈ sets, SetOwn set.1 set.2) ↔ ∀ name ∈ sets.map (·.2.name), orderly name = true := by
  simp only [List.mem_map, forall_exists_index, and_imp, forall_apply_eq_imp_iff₂]
  refine forall₂_congr fun set hset => ?_
  obtain ⟨c, c', hturn⟩ := h.turn hset
  exact hturn.own_iff

/-- In a config that loads, each set and each frame has the values of its own object exactly
if the text of each set is orderly. -/
theorem values_are_of_their_own_object {cfg : vf_frames_cfg_t}
    (h : vf_parser_load_frames_cfg file alloc = .ok cfg) : ∃ text sets,
      vf_parser_read_file file alloc = some text ∧ load_places file alloc = .ok sets ∧
      cfg.frame_sets = sets.map (·.1) ∧
      ((∀ set ∈ sets, SetOwn set.1 set.2) ↔
        ∀ name ∈ places Key.name.quoted text, orderly name = true) := by
  unfold vf_parser_load_frames_cfg at h
  rw [bind_ok] at h
  obtain ⟨sets, hload, hcfg⟩ := h
  cases hcfg
  obtain ⟨text, htext, hfound, hnames⟩ := load_places.spec hload
  refine ⟨text, sets, htext, hload, rfl, ?_⟩
  rw [← hnames]
  exact hfound.own_iff

/-- A set of two frames. -/
def two_frames : Text :=
  ("\x7b\"name\":\"s\",\"base_path\":\"b\",\"format\":\"RAW8\",\"frames\":[" ++
    "\x7b\"file\":\"a\",\"width\":1,\"height\":2\x7d," ++
    "\x7b\"file\":\"b\",\"width\":3,\"height\":4\x7d]\x7d").toList

theorem two_frames_are_their_own : ∃ sets,
    load_places (some two_frames) (fun _ => true) = .ok sets ∧
    sets.map (·.1) = [⟨['s'], ['b'], .VF_PIXEL_FORMAT_RAW8,
      [⟨['a'], ['b', '/', 'a'], 1, 2⟩, ⟨['b'], ['b', '/', 'b'], 3, 4⟩]⟩] ∧
    ∀ set ∈ sets, SetOwn set.1 set.2 := by
  have hload : vf_parser_load_frames_cfg (some two_frames) (fun _ => true) =
      .ok ⟨[⟨['s'], ['b'], .VF_PIXEL_FORMAT_RAW8,
        [⟨['a'], ['b', '/', 'a'], 1, 2⟩, ⟨['b'], ['b', '/', 'b'], 3, 4⟩]⟩]⟩ := by
    decide +kernel
  obtain ⟨text, sets, htext, hsets, hcfg, hiff⟩ := values_are_of_their_own_object hload
  have hread : vf_parser_read_file (some two_frames) (fun _ => true) = some two_frames := by
    decide +kernel
  rw [hread, Option.some.injEq] at htext
  subst htext
  refine ⟨sets, hsets, hcfg.symm, hiff.mpr ?_⟩
  decide +kernel

/-- A set of two frames, of which the first has no size. A preview follows. -/
def one_without_size : Text :=
  ("\x7b\"name\":\"s\",\"base_path\":\"b\",\"format\":\"RAW8\",\"frames\":[" ++
    "\x7b\"file\":\"a\"\x7d,\x7b\"file\":\"b\",\"width\":1,\"height\":2\x7d]," ++
    "\"preview\":\x7b\"file\":\"c\",\"width\":3,\"height\":4\x7d\x7d").toList

/-- The frame without a size gets that of the next frame, which is left out for the preview. -/
theorem a_frame_gets_the_next_size :
    vf_parser_load_frames_cfg (some one_without_size) (fun _ => true) =
      .ok ⟨[⟨['s'], ['b'], .VF_PIXEL_FORMAT_RAW8,
        [⟨['a'], ['b', '/', 'a'], 1, 2⟩, ⟨['c'], ['b', '/', 'c'], 3, 4⟩]⟩]⟩ ∧
    ¬ ∀ file alloc sets, load_places file alloc = .ok sets → ∀ set ∈ sets, SetOwn set.1 set.2 := by
  have hload : vf_parser_load_frames_cfg (some one_without_size) (fun _ => true) =
      .ok ⟨[⟨['s'], ['b'], .VF_PIXEL_FORMAT_RAW8,
        [⟨['a'], ['b', '/', 'a'], 1, 2⟩, ⟨['c'], ['b', '/', 'c'], 3, 4⟩]⟩]⟩ := by
    decide +kernel
  refine ⟨hload, fun h => ?_⟩
  unfold vf_parser_load_frames_cfg at hload
  obtain ⟨sets, hsets, -⟩ := bind_ok.mp hload
  obtain ⟨text, htext, hfound, hnames⟩ := load_places.spec hsets
  have hread : vf_parser_read_file (some one_without_size) (fun _ => true) =
      some one_without_size := by
    decide +kernel
  rw [hread, Option.some.injEq] at htext
  subst htext
  have hall := hfound.own_iff.mp (h _ _ _ hsets)
  rw [hnames] at hall
  revert hall
  decide +kernel

end

end vision_flow.parser
