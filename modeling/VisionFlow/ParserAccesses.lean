-- What each access of the parser does: the searches in the file data find what those on texts
-- (Parser.lean) find, a string comes whole into its array, and when the parser gives up each
-- block that is live is freed once.
import VisionFlow.ParserMemory

namespace vision_flow.parser_memory

open c_memory search
open parser (Text Alloc Key vf_pixel_format_t VF_PARSER_MAX_NAME_LEN VF_PARSER_MAX_BASE_PATH_LEN
  VF_PARSER_MAX_FILE_NAME_LEN VF_PARSER_MAX_FULL_PATH_LEN MAX_FILE_SIZE vf_parser_str_to_format
  is_blank)

/-! ## Reads of the file data -/

/-- The buffer holds this string. -/
structure Holds (data : Text) (m : Mem) : Prop where
  live : m.block .buffer = .live
  string : cstr m.file_data = data
  size : m.file_data.length = MAX_FILE_SIZE
  fits : data.length < MAX_FILE_SIZE

/-- The offset of a part of the string, from which it goes on to the end. -/
def place (data t : Text) : Nat := data.length - t.length

section
variable {env : Env} {data t : Text} {m : Mem}

theorem place_tail {c : Char} (h : c :: t <:+ data) : place data (c :: t) + 1 = place data t := by
  have := h.length_le
  simp only [place, List.length_cons] at this ⊢
  omega

theorem suffix_tail {c : Char} (h : c :: t <:+ data) : t <:+ data :=
  (List.suffix_cons c t).trans h

theorem Holds.string_at (h : Holds data m) (ht : t <:+ data) :
    m.string (place data t) = some t := by
  have hle := ht.length_le
  have hdrop : data.drop (place data t) = t := (List.suffix_iff_eq_drop.mp ht).symm
  unfold Mem.string Mem.at_block
  rw [if_pos h.live, h.string, h.size, if_pos ⟨by unfold place; omega, h.fits⟩, hdrop]

theorem Holds.reads_string (h : Holds data m) (ht : t <:+ data) :
    reads (·.string (place data t)) m = some (t, m) :=
  reads_of (h.string_at ht)

theorem strstr.spec (h : Holds data m) (ht : t <:+ data) (needle : Text) :
    strstr (place data t) needle m = some ((parser.strstr t needle).map (place data), m) := by
  unfold strstr
  rw [run_bind_of (h.reads_string ht), run_pure]
  rcases hfind : parser.strstr t needle with _ | s
  · rfl
  · have hst := (find_suffix hfind).1.length_le
    have htd := ht.length_le
    have hplace : place data t + (t.length - s.length) = place data s := by
      unfold place
      omega
    rw [Option.map_some, Option.map_some, hplace]

theorem strchr.spec (h : Holds data m) (ht : t <:+ data) (c : Char) :
    strchr (place data t) c m = some ((parser.strchr t c).map (place data), m) :=
  strstr.spec h ht [c]

theorem strstr_suffix {needle s : Text} (ht : t <:+ data) (h : parser.strstr t needle = some s) :
    s <:+ data :=
  (find_suffix h).1.trans ht

/-- What `strchr` finds begins with the character. -/
theorem strchr_cons {c : Char} {s : Text} (h : parser.strchr t c = some s) :
    ∃ rest, s = c :: rest := by
  obtain ⟨rest, hrest⟩ := (find_suffix h).2
  exact ⟨rest, hrest.symm⟩

theorem char_at.spec (h : Holds data m) (ht : t <:+ data) :
    char_at (place data t) m = some (t.headD '\x00', m) := by
  unfold char_at
  rw [run_bind_of (h.reads_string ht), run_pure]

theorem atoi.spec (h : Holds data m) (ht : t <:+ data) :
    atoi env (place data t) m = some ((env.atoi t).toInt, m) := by
  unfold atoi
  rw [run_bind_of (h.reads_string ht), run_pure]

theorem skip_blanks.spec (h : Holds data m) (fuel : Nat) (ht : t <:+ data)
    (hfuel : t.length < fuel) :
    skip_blanks fuel (place data t) m = some (place data (t.dropWhile is_blank), m) := by
  induction fuel generalizing t with
  | zero => omega
  | succ fuel ih =>
    unfold skip_blanks
    rw [run_bind_of (char_at.spec h ht)]
    cases t with
    | nil => rfl
    | cons c rest =>
      rw [List.headD_cons]
      by_cases hc : is_blank c = true
      · rw [if_pos hc, place_tail ht, List.dropWhile_cons_of_pos hc]
        rw [List.length_cons] at hfuel
        exact ih (suffix_tail ht) (by omega)
      · rw [if_neg hc, List.dropWhile_cons_of_neg hc]
        rfl

theorem vf_parser_extract_int.spec (h : Holds data m) (ht : t <:+ data) :
    vf_parser_extract_int env (place data t) m =
      some ((parser.strchr t ':').map fun colon => (env.atoi (colon.drop 1)).toInt, m) := by
  unfold vf_parser_extract_int
  rw [run_bind_of (strchr.spec h ht ':')]
  rcases hcolon : parser.strchr t ':' with _ | colon
  · rfl
  · obtain ⟨rest, rfl⟩ := strchr_cons hcolon
    have hsuf := strstr_suffix ht hcolon
    simp only [Option.map_some, place_tail hsuf]
    rw [run_bind_of (atoi.spec h (suffix_tail hsuf))]
    rfl

/-! ## Counting -/

/-- A turn of the loop that counts, in the parser on texts. -/
theorem count_keys_find (key : Key) (stop t : Text) : parser.count_keys key stop t =
    match parser.strstr t key.quoted with
    | none => 0
    | some p => if parser.before p stop then parser.count_keys key stop (p.drop 1) + 1 else 0 := by
  induction t with
  | nil => rfl
  | cons c rest ih =>
    conv_lhs => unfold parser.count_keys
    by_cases hc : key.quoted <+: c :: rest
    · rw [if_pos hc, parser.strstr, find_at_start hc]
      rfl
    · rw [if_neg hc, ih, parser.strstr, parser.strstr, find_cons hc]

theorem count_keys.spec (h : Holds data m) (key : Key) (stop : Option Text)
    (hstop : ∀ s, stop = some s → s <:+ data) (fuel count : Nat) (ht : t <:+ data)
    (hfuel : t.length < fuel) :
    count_keys key (stop.map (place data)) fuel (place data t) count m =
      some (count + parser.count_keys key (stop.getD []) t, m) := by
  induction fuel generalizing t count with
  | zero => omega
  | succ fuel ih =>
    unfold count_keys
    rw [run_bind_of (strstr.spec h ht key.quoted), count_keys_find]
    rcases hfind : parser.strstr t key.quoted with _ | p
    · rfl
    · have hp := strstr_suffix ht hfind
      have hpt := (find_suffix hfind).1.length_le
      obtain ⟨c, rest, rfl⟩ : ∃ c rest, p = c :: rest := by
        obtain ⟨rest, hrest⟩ := (find_suffix hfind).2
        exact ⟨_, _, hrest.symm⟩
      -- an offset is smaller where more of the string is left
      have hbefore : (stop.map (place data)).all (place data (c :: rest) < ·) =
          parser.before (c :: rest) (stop.getD []) := by
        have hple := hp.length_le
        rcases stop with _ | s
        · simp [parser.before]
        · have hsle := (hstop s rfl).length_le
          refine decide_eq_decide.mpr ?_
          rw [List.length_cons] at hple
          simp only [place, Option.getD_some, List.length_cons]
          omega
      simp only [Option.map_some, hbefore]
      by_cases hb : parser.before (c :: rest) (stop.getD []) = true
      · rw [if_pos hb, if_pos hb, place_tail hp]
        rw [List.length_cons] at hpt
        rw [ih (count + 1) (suffix_tail hp) (by omega)]
        simp only [List.drop_succ_cons, List.drop_zero, Option.some.injEq, Prod.mk.injEq, and_true]
        omega
      · rw [if_neg hb, if_neg hb]
        rfl

end

/-! ## Writes -/

section
variable {data t : Text} {m : Mem} {i j : Nat}

theorem at_block_isSome {α : Type} {a : Alloc} {value : Option α} {x : α}
    (h : m.at_block a value = some x) : m.block a = .live ∧ value = some x := by
  unfold Mem.at_block at h
  split at h
  · exact ⟨by assumption, h⟩
  · cases h

theorem set_update_set (f : vf_frame_set_t → vf_frame_set_t) :
    (m.update_set i f).set i = (m.set i).map f := by
  unfold Mem.set Mem.at_block Mem.update_set
  split
  · exact List.getElem?_modify_eq f i m.frame_sets
  · rfl

theorem frame_update_frame (f : vf_frame_info_t → vf_frame_info_t) :
    (m.update_frame i j f).frame i j = (m.frame i j).map f := by
  unfold Mem.update_frame Mem.frame
  rw [set_update_set]
  rcases m.set i with _ | set
  · rfl
  · rcases hframes : set.frames with _ | frames
    · simp [hframes]
    · simp only [Option.map_some, Option.bind_some, hframes, List.getElem?_modify_eq]
      unfold Mem.at_block Mem.update_set
      split <;> rfl

theorem update_set_twice (f g : vf_frame_set_t → vf_frame_set_t) :
    (m.update_set i f).update_set i g = m.update_set i (g ∘ f) := by
  simp only [Mem.update_set, List.modify_modify_eq]

theorem update_frame_twice (f g : vf_frame_info_t → vf_frame_info_t) :
    (m.update_frame i j f).update_frame i j g = m.update_frame i j (g ∘ f) := by
  unfold Mem.update_frame
  rw [update_set_twice]
  congr 1
  funext set
  rcases h : set.frames with _ | frames
  · simp [h]
  · simp [h, List.modify_modify_eq]

theorem array_set_array {d : Array} {a b : Text} (h : m.array d = some a) :
    (m.set_array b d).array d = some b := by
  cases d with
  | file_data =>
    obtain ⟨hlive, -⟩ := at_block_isSome h
    exact if_pos hlive
  | fmt_str => rfl
  | name i =>
    obtain ⟨set, hset, -⟩ := Option.map_eq_some_iff.mp h
    simp [Mem.set_array, Mem.array, set_update_set, hset]
  | base_path i =>
    obtain ⟨set, hset, -⟩ := Option.map_eq_some_iff.mp h
    simp [Mem.set_array, Mem.array, set_update_set, hset]
  | file_name i j =>
    obtain ⟨frame, hframe, -⟩ := Option.map_eq_some_iff.mp h
    simp [Mem.set_array, Mem.array, frame_update_frame, hframe]
  | full_path i j =>
    obtain ⟨frame, hframe, -⟩ := Option.map_eq_some_iff.mp h
    simp [Mem.set_array, Mem.array, frame_update_frame, hframe]

theorem set_array_twice (d : Array) (a b : Text) :
    (m.set_array a d).set_array b d = m.set_array b d := by
  cases d with
  | file_data => rfl
  | fmt_str => rfl
  | name i => exact update_set_twice _ _
  | base_path i => exact update_set_twice _ _
  | file_name i j => exact update_frame_twice _ _
  | full_path i j => exact update_frame_twice _ _

theorem put.spec {d : Array} {a b s : Text} (h : m.array d = some a) (hs : store a i s = some b) :
    put d i s m = some ((), m.set_array b d) := by
  refine writes_of ?_
  simp [h, hs]

/-- A string is written to an array that holds NULs alone. -/
theorem strncpy.spec (h : Holds data m) (ht : t <:+ data) {d : Array} {size n : Nat}
    (harray : m.array d = some (padded size [])) (hn : n ≤ t.length) (hsize : n < size) :
    (do strncpy d (place data t) n; put d n ['\x00']) m =
      some ((), m.set_array (padded size (t.take n)) d) := by
  have hlen : (t.take n).length = n := List.length_take_of_le hn
  have hexact : padded n (t.take n) = t.take n := by
    simp [padded, hlen]
  have hstring : store (padded size []) 0 (padded n (t.take n)) =
      some (padded size (t.take n)) := by
    rw [hexact]
    exact store_string (by omega)
  have hnul : store (padded size (t.take n)) n ['\x00'] = some (padded size (t.take n)) := by
    have hend : (t.take n).length < size := by omega
    have hput := store_nul hend
    rwa [hlen] at hput
  unfold strncpy
  simp only [bind_assoc]
  rw [run_bind_of (h.reads_string ht), run_bind_of (put.spec harray hstring),
    put.spec (array_set_array harray) hnul, set_array_twice]

/-- The string is copied to the array, or nothing is written. -/
theorem vf_parser_extract_string.spec (h : Holds data m) (ht : t <:+ data) {d : Array}
    {max_len : Nat} (harray : m.array d = some (padded max_len [])) :
    vf_parser_extract_string (place data t) d max_len m =
      match parser.vf_parser_extract_string t max_len with
      | none => some (false, m)
      | some s => some (true, m.set_array (padded max_len s) d) := by
  unfold vf_parser_extract_string parser.vf_parser_extract_string parser.string_at
  rw [run_bind_of (strchr.spec h ht ':')]
  rcases hcolon : parser.strchr t ':' with _ | colon
  · rfl
  · obtain ⟨rest, rfl⟩ := strchr_cons hcolon
    have hsuf := strstr_suffix ht hcolon
    have hrest := suffix_tail hsuf
    have hstart : rest.dropWhile is_blank <:+ data := (List.dropWhile_suffix _).trans hrest
    have hfuel : rest.length < MAX_FILE_SIZE := lt_of_le_of_lt hrest.length_le h.fits
    simp only [Option.map_some, Option.bind_some, place_tail hsuf, List.drop_succ_cons,
      List.drop_zero]
    rw [run_bind_of (skip_blanks.spec h _ hrest hfuel), run_bind_of (char_at.spec h hstart)]
    generalize rest.dropWhile is_blank = start at hstart
    rcases start with _ | ⟨c, start⟩
    · rfl
    · rw [List.headD_cons]
      by_cases hc : c = '"'
      · subst hc
        have hstart' := suffix_tail hstart
        rw [if_neg (by simp), place_tail hstart, run_bind_of (strchr.spec h hstart' '"')]
        rcases hquote : parser.strchr start '"' with _ | quote
        · simp only [hquote, Option.map_none, Option.bind_none]
          rfl
        · have hq := (find_suffix hquote).1.length_le
          have hlen : place data quote - place data start = start.length - quote.length := by
            have := hstart'.length_le
            unfold place
            omega
          simp only [hquote, Option.map_some, Option.bind_some, hlen]
          by_cases hlong : start.length - quote.length ≥ max_len
          · rw [if_pos hlong, if_pos hlong]
            rfl
          · rw [if_neg hlong, if_neg hlong]
            have hcopy := strncpy.spec h hstart' (n := start.length - quote.length) harray
              (Nat.sub_le _ _) (by omega)
            rw [← bind_assoc, run_bind_of hcopy]
            rfl
      · simp [hc]

end

/-! ## Giving up -/

/-- Between the allocation of the sets and the end of the load: the blocks that are live, and
the pointers to them. -/
structure Owned (m : Mem) : Prop where
  buffer : m.block .buffer = .live
  cfg_live : m.block .cfg = .live
  sets_live : m.block .frame_sets = .live
  frames : ∀ k, m.block (.frames k) =
    if (m.frame_sets[k]?.bind (·.frames)).isSome then .live else .unused
  cfg : m.cfg = (some .frame_sets, m.frame_sets.length)
  out : m.out_cfg = none

/-- No block is kept, and the caller gets NULL. As a block is freed once at most, each block
that was allocated was freed exactly once. -/
structure Cleared (m : Mem) : Prop where
  freed : ∀ a, m.block a ≠ .live
  out : m.out_cfg = none

section
variable {m : Mem}

theorem free.spec {a : Alloc} (h : m.block a = .live) :
    free (some a) m = some ((), { m with block := Function.update m.block a .freed }) :=
  writes_of (by simp [release_live h])

/-- The loop frees the frames of the sets that have some. -/
theorem free_frames.spec (n i : Nat) (m : Mem) (hlive : m.block .frame_sets = .live)
    (hlen : i + n = m.frame_sets.length)
    (hframes : ∀ k, i ≤ k → m.block (.frames k) =
      if (m.frame_sets[k]?.bind (·.frames)).isSome then .live else .unused) :
    ∃ block, free_frames i n m = some ((), { m with block := block }) ∧
      (∀ a, (∀ k, a ≠ .frames k) → block a = m.block a) ∧
      (∀ k, i ≤ k → block (.frames k) ≠ .live) ∧
      ∀ k, k < i → block (.frames k) = m.block (.frames k) := by
  induction n generalizing i m with
  | zero =>
    refine ⟨m.block, rfl, fun _ _ => rfl, fun k hk => ?_, fun _ _ => rfl⟩
    rw [hframes k hk, List.getElem?_eq_none (by omega)]
    simp
  | succ n ih =>
    obtain ⟨set, hset⟩ : ∃ set, m.frame_sets[i]? = some set :=
      ⟨_, List.getElem?_eq_getElem (by omega)⟩
    have hread : m.set i = some set := by
      unfold Mem.set Mem.at_block
      rw [if_pos hlive, hset]
    -- what the free of this turn leaves
    obtain ⟨block, hfree, hothers, hfreed⟩ : ∃ block,
        free (set.frames.map fun _ => .frames i) m = some ((), { m with block := block }) ∧
        (∀ a, a ≠ .frames i → block a = m.block a) ∧ block (.frames i) ≠ .live := by
      have hi := hframes i (Nat.le_refl i)
      rcases hptr : set.frames with _ | frames
      · refine ⟨m.block, rfl, fun _ _ => rfl, ?_⟩
        rw [hi, hset]
        simp [hptr]
      · rw [hset, Option.bind_some, hptr, Option.isSome_some, if_pos rfl] at hi
        refine ⟨_, free.spec hi, fun a ha => Function.update_of_ne ha _ _, ?_⟩
        simp
    obtain ⟨block', hrest, hothers', hfreed', hbefore'⟩ := ih (i + 1) { m with block := block }
      ((hothers _ (by simp)).trans hlive) (by simp only; omega)
      (fun k hk => (hothers _ (by simp; omega)).trans (hframes k (by omega)))
    refine ⟨block', ?_, fun a ha => (hothers' a ha).trans (hothers a (ha i)), fun k hk => ?_,
      fun k hk => (hbefore' k (by omega)).trans (hothers _ (by simp; omega))⟩
    · have hreads : reads (·.set i) m = some (set, m) := reads_of hread
      unfold free_frames
      rw [run_bind_of hreads, run_bind_of hfree, hrest]
    · rcases Nat.lt_or_ge i k with hlt | hge
      · exact hfreed' k hlt
      · obtain rfl : i = k := by omega
        rw [hbefore' i (by omega)]
        exact hfreed

theorem vf_parser_free_frames_cfg.spec (h : Owned m) :
    ∃ block, vf_parser_free_frames_cfg m = some ((), { m with block := block }) ∧
      block .buffer = .live ∧ ∀ a, a ≠ .buffer → block a ≠ .live := by
  obtain ⟨block, hfree, hothers, hfreed, -⟩ := free_frames.spec m.frame_sets.length 0 m h.sets_live
    (Nat.zero_add _) (fun k _ => h.frames k)
  have hcfg : reads (fun m => m.at_block .cfg (some m.cfg)) m =
      some ((some .frame_sets, m.frame_sets.length), m) :=
    reads_of (by unfold Mem.at_block; rw [if_pos h.cfg_live, h.cfg])
  have hsets : block .frame_sets = .live := (hothers _ (by simp)).trans h.sets_live
  have hcfg_live : Function.update block .frame_sets .freed .cfg = .live := by
    rw [Function.update_of_ne (by simp), hothers _ (by simp), h.cfg_live]
  refine ⟨Function.update (Function.update block .frame_sets .freed) .cfg .freed, ?_, ?_, ?_⟩
  · unfold vf_parser_free_frames_cfg
    rw [run_bind_of hcfg, run_bind_of hfree, run_bind_of (free.spec hsets), free.spec hcfg_live]
  · simp [hothers, h.buffer]
  · intro a ha
    cases a with
    | buffer => exact absurd rfl ha
    | cfg => simp
    | frame_sets => simp
    | frames k => simpa using hfreed k (Nat.zero_le k)

theorem fail.spec {α : Type} (h : Owned m) (err : vf_err_t) :
    ∃ m', (fail err : Code (Except vf_err_t α)) m = some (.error err, m') ∧ Cleared m' := by
  obtain ⟨block, hfree, hbuffer, hfreed⟩ := vf_parser_free_frames_cfg.spec h
  refine ⟨{ m with block := Function.update block .buffer .freed }, ?_, fun a => ?_, h.out⟩
  · unfold fail
    have hfinal : free (some .buffer) { m with block := block } =
      some ((), { m with block := Function.update block .buffer .freed }) := free.spec hbuffer
    rw [run_bind_of hfree, run_bind_of hfinal]
    rfl
  · by_cases ha : a = .buffer
    · simp [ha]
    · simpa [ha] using hfreed a ha

end

end vision_flow.parser_memory
