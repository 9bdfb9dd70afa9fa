-- Config files of any length. The parser reads the part that fits its buffer and does not say
-- so: it loses each set whose name key lies behind that part. A set also loses the frames
-- behind the first bracket of its array, which may stand in a file name.
import VisionFlow.ParserLayouts
import VisionFlow.ParserPlaces

namespace vision_flow.parser

open search

/-- The config accounts for the whole file: it has a set for each name key, and the set has a
frame for each file key before the bracket that closes its array. A file that does not fit
the read buffer has no such config. -/
structure NotCut (content : Text) (cfg : vf_frames_cfg_t) : Prop where
  sets : cfg.frame_sets.length = (places Key.name.quoted content).length
  frames : ∀ (i : Nat) (set : vf_frame_set_t), cfg.frame_sets[i]? = some set →
    ∃ name at_format frames_start, (places Key.name.quoted content)[i]? = some name ∧
    frames_keys name = some (at_format, frames_start) ∧
    set.frames.length = (array_files frames_start).length
  fits : content.length ≤ MAX_FILE_SIZE - 1

/-- No file key of the array stands behind the first bracket after the frames key. -/
def first_bracket_closes (frames_start : Text) : Bool :=
  (array_files frames_start).all fun file => (strchr frames_start ']').any (before file ·)

section
variable {text rest t q stop content : Text} {key : Key} {cfg : vf_frames_cfg_t}
  {alloc : Alloc → Bool}

/-! ## Keys of a longer text -/

/-- A key that begins before a bracket of the first part lies in that part. -/
theorem key_before_bracket {s r : Text} (hs : s <:+ t ++ q) (hkey : key.quoted <+: s)
    (hstop : ']' :: r <:+ t) (hbefore : before s (']' :: r ++ q) = true) :
    q.length + key.quoted.length ≤ s.length := by
  have hstop' : ']' :: r ++ q <:+ s := by
    refine List.suffix_of_suffix_length_le ?_ hs ?_
    · obtain ⟨p, rfl⟩ := hstop
      exact ⟨p, by simp⟩
    · unfold before at hbefore
      rw [decide_eq_true_eq] at hbefore
      exact hbefore.le
  obtain ⟨p, rfl⟩ := hstop'
  by_contra hshort
  rw [not_le] at hshort
  simp only [List.length_append, List.length_cons] at hshort
  -- the key would go over the bracket
  have hover : p ++ [']'] <+: key.quoted := by
    refine List.prefix_of_prefix_length_le ⟨r ++ q, by simp⟩ hkey ?_
    simp only [List.length_append, List.length_singleton]
    omega
  have hmem : ']' ∈ key.quoted :=
    hover.subset (List.mem_append_right p (List.mem_singleton.mpr rfl))
  exact key_no_bracket key (by simpa [Key.quoted] using hmem)

/-- More text behind the bracket changes nothing in the count up to it. -/
theorem count_keys_append {r : Text} (hstop : ']' :: r <:+ t) :
    count_keys key (']' :: r ++ q) (t ++ q) = count_keys key (']' :: r) t := by
  have hsame : (places key.quoted (t ++ q)).filter (before · (']' :: r ++ q)) =
      ((places key.quoted (t ++ q)).filter (q.length + key.quoted.length ≤ ·.length)).filter
        (before · (']' :: r ++ q)) := by
    rw [List.filter_filter]
    refine List.filter_congr fun s hs => ?_
    obtain ⟨hsuf, hkey⟩ := mem_places.mp hs
    cases hbefore : before s (']' :: r ++ q) with
    | true =>
      have hfit := key_before_bracket hsuf hkey hstop hbefore
      simp [hfit]
    | false => rfl
  rw [count_keys_eq, count_keys_eq, hsame, places_append (quoted_ne_nil key), List.filter_map,
    List.length_map]
  congr 1
  refine List.filter_congr fun s _ => ?_
  unfold before
  simp only [Function.comp, List.length_append, Nat.add_lt_add_iff_right]

theorem counted_append {r : Text} (h : strchr t ']' = some (']' :: r)) :
    counted (t ++ q) = counted t := by
  have hwhole : strchr (t ++ q) ']' = some (']' :: r ++ q) := find_append h
  unfold counted
  rw [h, hwhole, Option.map_some, Option.map_some, count_keys_append (find_suffix h).1]

/-- A set that is loaded from the first part of a text has the same keys in the text. -/
theorem SetFound.in_longer {cursor cursor' : Text} {set : vf_frame_set_t × SetPlaces}
    (h : SetFound cursor set cursor') (q : Text) : ∃ at_format frames_start,
      frames_keys (set.2.name ++ q) = some (at_format, frames_start) ∧
      set.1.frames.length = counted frames_start := by
  refine ⟨set.2.format ++ q, set.2.frames_start ++ q, ?_, ?_⟩
  · have hbase : strstr (set.2.name ++ q) Key.base_path.quoted = some (set.2.base_path ++ q) :=
      find_append h.at_base_path
    have hformat : strstr (set.2.base_path ++ q) Key.format.quoted = some (set.2.format ++ q) :=
      find_append h.at_format
    have hframes : strstr (set.2.format ++ q) Key.frames.quoted =
        some (set.2.frames_start ++ q) := find_append h.frames_start
    unfold frames_keys
    rw [hbase, Option.bind_some, hformat, Option.bind_some, hframes, Option.map_some]
  · obtain ⟨r, hr, -⟩ := char_place h.frames_end
    have hend : strchr set.2.frames_start ']' = some (']' :: r) := hr ▸ h.frames_end
    rw [counted_append hend, h.counted_eq]
    obtain ⟨frames, hframes, -, hlen, -⟩ := h.frames
    rw [hframes, List.length_map, hlen]

/-! ## Files of any length -/

theorem vf_parser_load_frames_cfg.found
    (h : vf_parser_load_frames_cfg (some content) alloc = .ok cfg) (hnul : '\x00' ∉ content) :
    ∃ sets, SetsFound (content.take (MAX_FILE_SIZE - 1)) sets ∧
      sets.map (·.2.name) = places Key.name.quoted (content.take (MAX_FILE_SIZE - 1)) ∧
      cfg.frame_sets = sets.map (·.1) := by
  unfold vf_parser_load_frames_cfg at h
  obtain ⟨sets, hload, hcfg⟩ := bind_ok.mp h
  cases hcfg
  obtain ⟨text, hread, hfound, hnames⟩ := load_places.spec hload
  have halloc : alloc .buffer = true := by
    unfold vf_parser_read_file at hread
    by_contra hno
    simp [hno] at hread
  rw [read_whole halloc hnul, Option.some.injEq] at hread
  subst hread
  exact ⟨sets, hfound, hnames, rfl⟩

/-- The frames of each set that is loaded are those that the loop would count in the whole
file: a set is loaded with its array or not at all. -/
theorem frames_are_counted (hnul : '\x00' ∉ content)
    (h : vf_parser_load_frames_cfg (some content) alloc = .ok cfg) (i : Nat)
    (set : vf_frame_set_t) (hset : cfg.frame_sets[i]? = some set) :
    ∃ name at_format frames_start, (places Key.name.quoted content)[i]? = some name ∧
      frames_keys name = some (at_format, frames_start) ∧
      set.frames.length = counted frames_start := by
  obtain ⟨sets, hfound, hnames, hcfg⟩ := vf_parser_load_frames_cfg.found h hnul
  rw [hcfg, List.getElem?_map, Option.map_eq_some_iff] at hset
  obtain ⟨found, hi, rfl⟩ := hset
  obtain ⟨c, c', hturn⟩ := hfound.turn (List.mem_of_getElem? hi)
  obtain ⟨at_format, frames_start, hkeys, hcount⟩ :=
    hturn.in_longer (content.drop (MAX_FILE_SIZE - 1))
  refine ⟨_, at_format, frames_start, ?_, hkeys, hcount⟩
  have hname : (places Key.name.quoted (content.take (MAX_FILE_SIZE - 1)))[i]? =
      some found.2.name := by
    rw [← hnames, List.getElem?_map, hi, Option.map_some]
  obtain ⟨later, hlater⟩ := places_append_prefix (p := content.take (MAX_FILE_SIZE - 1))
    (q := content.drop (MAX_FILE_SIZE - 1)) (quoted_ne_nil .name)
  rw [List.take_append_drop] at hlater
  obtain ⟨hlt, -⟩ := List.getElem?_eq_some_iff.mp hname
  rw [← hlater, List.getElem?_append_left (by simpa using hlt), List.getElem?_map, hname,
    Option.map_some]

/-- The number of sets is that of the name keys in the file just if each of these keys lies in
the part that is read. -/
theorem sets_are_counted_just_if_each_key_is_read (hnul : '\x00' ∉ content)
    (h : vf_parser_load_frames_cfg (some content) alloc = .ok cfg) :
    cfg.frame_sets.length = (places Key.name.quoted content).length ↔
      ∀ name ∈ places Key.name.quoted content,
        content.length - name.length + Key.name.quoted.length ≤ MAX_FILE_SIZE - 1 := by
  obtain ⟨sets, hfound, hnames, hcfg⟩ := vf_parser_load_frames_cfg.found h hnul
  have hread := places_append (p := content.take (MAX_FILE_SIZE - 1))
    (q := content.drop (MAX_FILE_SIZE - 1)) (quoted_ne_nil .name)
  rw [List.take_append_drop] at hread
  have hlen : cfg.frame_sets.length = ((places Key.name.quoted content).filter
      ((content.drop (MAX_FILE_SIZE - 1)).length + Key.name.quoted.length ≤ ·.length)).length := by
    rw [hread, ← hnames, hcfg, List.length_map, List.length_map, List.length_map]
  rw [hlen, List.length_filter_eq_length_iff]
  refine forall₂_congr fun name hname => ?_
  obtain ⟨hsuf, hkey⟩ := mem_places.mp hname
  have h1 := hsuf.length_le
  have h2 := hkey.length_le
  rw [decide_eq_true_eq, List.length_drop]
  omega

/-- The bracket that closes the array is the first one or comes behind it. -/
theorem closing_le {stop : Text} (h : strchr t ']' = some stop) :
    (closing 0 .outside t).length ≤ stop.length := by
  rcases hclose : closing 0 .outside t with _ | ⟨c, r⟩
  · exact Nat.zero_le _
  · have hsuf : c :: r <:+ t := hclose ▸ closing_suffix 0 .outside t
    have hc : c = ']' := closing_head 0 .outside t c (by rw [hclose, List.head?_cons]; rfl)
    subst hc
    exact find_first h hsuf (List.prefix_append [']'] r)

/-- The loop counts the frames of the array just if none stands behind the first bracket. -/
theorem counted_eq_just_if :
    counted t = (array_files t).length ↔ first_bracket_closes t = true := by
  unfold counted first_bracket_closes
  rcases hstop : strchr t ']' with _ | stop
  · rw [Option.map_none, Option.getD_none, List.all_eq_true, eq_comm, List.length_eq_zero_iff]
    constructor
    · intro hnil file hfile
      rw [hnil] at hfile
      cases hfile
    · intro hall
      refine List.eq_nil_iff_forall_not_mem.mpr fun file hfile => ?_
      exact absurd (hall file hfile) (by simp)
  · have hle := closing_le hstop
    -- what the loop counts are the files of the array before the first bracket
    have hsame : (places Key.file.quoted t).filter (before · stop) =
        (array_files t).filter (before · stop) := by
      unfold array_files
      rw [List.filter_filter]
      refine List.filter_congr fun file _ => ?_
      unfold before
      rw [Bool.eq_iff_iff, Bool.and_eq_true, decide_eq_true_eq, decide_eq_true_eq]
      omega
    rw [Option.map_some, Option.getD_some, count_keys_eq, hsame,
      List.length_filter_eq_length_iff, List.all_eq_true]
    rfl

/-- A config that is loaded accounts for its whole file just if the file fits the read buffer
and no set has a file key behind the first bracket of its array. -/
theorem a_config_is_not_cut_just_if_it_fits (hnul : '\x00' ∉ content)
    (h : vf_parser_load_frames_cfg (some content) alloc = .ok cfg) :
    NotCut content cfg ↔ content.length ≤ MAX_FILE_SIZE - 1 ∧
      ∀ name ∈ places Key.name.quoted content, ∀ at_format frames_start,
        frames_keys name = some (at_format, frames_start) →
        first_bracket_closes frames_start = true := by
  have hcount := frames_are_counted hnul h
  constructor
  · intro hcut
    refine ⟨hcut.fits, fun name hname at_format frames_start hkeys => ?_⟩
    obtain ⟨i, hi, hplace⟩ := List.mem_iff_getElem.mp hname
    rw [← hcut.sets] at hi
    have hset := List.getElem?_eq_getElem hi
    obtain ⟨name', at_format', start', hname', hkeys', hloop⟩ := hcount i _ hset
    obtain ⟨name'', at_format'', start'', hname'', hkeys'', hfiles⟩ := hcut.frames i _ hset
    have hplace' : (places Key.name.quoted content)[i]? = some name := by
      rw [List.getElem?_eq_some_iff]
      exact ⟨_, hplace⟩
    -- the three are the places of one set
    rw [hplace', Option.some.injEq] at hname' hname''
    subst hname' hname''
    rw [hkeys, Option.some.injEq, Prod.mk.injEq] at hkeys' hkeys''
    rw [← hkeys'.2] at hloop
    rw [← hkeys''.2] at hfiles
    exact counted_eq_just_if.mp (hloop.symm.trans hfiles)
  · rintro ⟨hfits, hclose⟩
    refine ⟨?_, fun i set hset => ?_, hfits⟩
    · rw [sets_are_counted_just_if_each_key_is_read hnul h]
      intro name hname
      obtain ⟨hsuf, hkey⟩ := mem_places.mp hname
      have h1 := hsuf.length_le
      have h2 := hkey.length_le
      omega
    · obtain ⟨name, at_format, frames_start, hname, hkeys, hloop⟩ := hcount i set hset
      have hclosed := hclose name (List.mem_of_getElem? hname) at_format frames_start hkeys
      exact ⟨name, at_format, frames_start, hname, hkeys,
        hloop.trans (counted_eq_just_if.mpr hclosed)⟩

end

/-! ## A set that is lost -/

/-- A config with one set of this name. -/
def one_set (name : Char) : Text := compact id (config_tokens [a_set name])

theorem one_set_fits {name : Char} (hquote : '"' ≠ name) (hnul : '\x00' ≠ name) :
    ∀ s ∈ [a_set name], s.Fits := by
  intro s hs
  rw [List.mem_singleton.mp hs]
  exact a_set_fits hquote hnul

theorem one_set_renders {name : Char} (hquote : '"' ≠ name) (hnul : '\x00' ≠ name) :
    Renders Bare (config_tokens [a_set name]) (one_set name) :=
  renders_compact (fun _ hc => config_token hc) fun _ hs =>
    ⟨rfl, (config_strings (one_set_fits hquote hnul) hs).1⟩

theorem one_set_no_nul {name : Char} (hquote : '"' ≠ name) (hnul : '\x00' ≠ name) :
    '\x00' ∉ one_set name :=
  (one_set_renders hquote hnul).config_no_nul (one_set_fits hquote hnul)

theorem a_short_config_is_not_cut : NotCut (one_set 's') ⟨[a_set 's'].map SetCfg.loaded⟩ := by
  have hnul : '\x00' ∉ one_set 's' := one_set_no_nul (by decide) (by decide)
  have hshort : (one_set 's').length ≤ MAX_FILE_SIZE - 1 := by decide
  have hclose : (places Key.name.quoted (one_set 's')).all (fun name =>
      (frames_keys name).all fun keys => first_bracket_closes keys.2) = true := by decide +kernel
  refine (a_config_is_not_cut_just_if_it_fits hnul (rendered_loads (by simp)
    (one_set_fits (by decide) (by decide)) (one_set_renders (by decide) (by decide)) ?_)).mpr
    ⟨hshort, fun name hname at_format frames_start hkeys => ?_⟩
  · rw [read_whole rfl hnul, List.take_of_length_le hshort]
  · have hall := List.all_eq_true.mp hclose name hname
    rw [hkeys, Option.all_some] at hall
    exact hall

/-- A config, and blanks that fill the read buffer. The next set comes behind them. -/
def long_file : Text := one_set 's' ++ (List.replicate MAX_FILE_SIZE ' ' ++ one_set 't')

theorem long_file_read : long_file.take (MAX_FILE_SIZE - 1) =
    one_set 's' ++ List.replicate (MAX_FILE_SIZE - 1 - (one_set 's').length) ' ' := by
  have hshort : (one_set 's').length ≤ MAX_FILE_SIZE - 1 := by decide
  unfold long_file
  rw [List.take_append, List.take_of_length_le hshort, List.take_append_of_le_length,
    List.take_replicate, Nat.min_eq_left (by omega)]
  rw [List.length_replicate]
  omega

theorem long_file_no_nul : '\x00' ∉ long_file := by
  unfold long_file
  simp only [List.mem_append, List.mem_replicate, not_or]
  exact ⟨one_set_no_nul (by decide) (by decide), by simp, one_set_no_nul (by decide) (by decide)⟩

/-- The load succeeds with the first set. -/
theorem long_file_loads : vf_parser_load_frames_cfg (some long_file) (fun _ => true) =
    .ok ⟨[a_set 's'].map SetCfg.loaded⟩ := by
  have hblank : Blank (List.replicate (MAX_FILE_SIZE - 1 - (one_set 's').length) ' ') := by
    intro c hc
    rw [List.eq_of_mem_replicate hc]
    decide
  refine rendered_loads (by simp) (one_set_fits (by decide) (by decide))
    ((one_set_renders (by decide) (by decide)).then_blanks hblank) ?_
  rw [read_whole rfl long_file_no_nul, long_file_read]

theorem a_long_file_loses_a_set :
    ¬ ∀ content alloc cfg, '\x00' ∉ content →
      vf_parser_load_frames_cfg (some content) alloc = .ok cfg → NotCut content cfg := by
  intro h
  have hcut := h _ _ _ long_file_no_nul long_file_loads
  have hread := (sets_are_counted_just_if_each_key_is_read long_file_no_nul long_file_loads).mp
    hcut.sets
  obtain ⟨name, hname⟩ : ∃ name, strstr (one_set 't') Key.name.quoted = some name :=
    Option.isSome_iff_exists.mp (by decide)
  obtain ⟨hsuf, hkey⟩ := find_suffix hname
  have hplace : name ∈ places Key.name.quoted long_file := by
    refine mem_places.mpr ⟨hsuf.trans ?_, hkey⟩
    exact (List.suffix_append _ _).trans (List.suffix_append _ _)
  have hlen := hsuf.length_le
  have hfar := hread name hplace
  unfold long_file MAX_FILE_SIZE at hfar
  simp only [List.length_append, List.length_replicate] at hfar
  omega

end vision_flow.parser
