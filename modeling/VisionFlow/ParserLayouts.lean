-- Configs in the layout of vf_frames_cfg.json: JSON with the keys in that order, and any
-- blanks between the tokens. The parser gives back what was written, if each string is
-- written as it is. It does not undo an escape sequence.
import VisionFlow.Parser

namespace vision_flow.parser

open search

/-! ## JSON -/

inductive Token
  | punct (c : Char)
  | str (s : Text)
  | num (n : Nat)
  deriving DecidableEq

/-- The items with commas between them. -/
def listed : List (List Token) → List Token
  | [] => []
  | [item] => item
  | item :: next :: rest => item ++ .punct ',' :: listed (next :: rest)

def array (items : List (List Token)) : List Token := .punct '[' :: listed items ++ [.punct ']']

def member (key : Text) (value : List Token) : List Token := .str key :: .punct ':' :: value

def object (members : List (List Token)) : List Token :=
  .punct '{' :: listed members ++ [.punct '}']

/-- The digits of a number that is not 0. -/
def decimal (n : Nat) : Text := (Nat.digits 10 n).reverse.map Nat.digitChar

def Blank (ws : Text) : Prop := ∀ c ∈ ws, is_blank c = true

def structural : List Char := ['{', '}', '[', ']', ':', ',']

/-- How a token is written. `lit s t` says that `t` may stand between the quotes for the
string `s`. -/
inductive Written (lit : Text → Text → Prop) : Token → Text → Prop
  | punct {c : Char} : c ∈ structural → Written lit (.punct c) [c]
  | str {s t : Text} : lit s t → Written lit (.str s) ('"' :: t ++ ['"'])
  | num {n : Nat} : Written lit (.num n) (decimal n)

/-- The text has these tokens, with blanks between them. -/
inductive Renders (lit : Text → Text → Prop) : List Token → Text → Prop
  | nil {ws : Text} : Blank ws → Renders lit [] ws
  | cons {ws t text : Text} {tok : Token} {toks : List Token} : Blank ws → Written lit tok t →
      Renders lit toks text → Renders lit (tok :: toks) (ws ++ t ++ text)

/-- A string stands for itself. -/
def Verbatim (s t : Text) : Prop := t = s

/-! ## Configs -/

structure FrameCfg where
  file : Text
  width : Nat
  height : Nat

structure SetCfg where
  name : Text
  base_path : Text
  format : vf_pixel_format_t
  frames : List FrameCfg

def format_name : vf_pixel_format_t → Text
  | .VF_PIXEL_FORMAT_INVALID => []
  | .VF_PIXEL_FORMAT_RAW8 => "RAW8".toList
  | .VF_PIXEL_FORMAT_RGB888 => "RGB888".toList
  | .VF_PIXEL_FORMAT_YUV420 => "YUV420".toList

def FrameCfg.tokens (f : FrameCfg) : List Token :=
  object [member Key.file.text [.str f.file], member Key.width.text [.num f.width],
    member Key.height.text [.num f.height]]

def SetCfg.tokens (s : SetCfg) : List Token :=
  object [member Key.name.text [.str s.name], member Key.base_path.text [.str s.base_path],
    member Key.format.text [.str (format_name s.format)],
    member Key.frames.text (array (s.frames.map FrameCfg.tokens))]

/-- The key of the whole list, which the parser does not look for. -/
def root_key : Text := "frame_sets".toList

def config_tokens (sets : List SetCfg) : List Token :=
  object [member root_key (array (sets.map SetCfg.tokens))]

/-- A string that its buffer can hold, with no quote and no NUL in it, and not a key. -/
structure Plain (size : Nat) (s : Text) : Prop where
  short : s.length < size
  no_quote : '"' ∉ s
  no_nul : '\x00' ∉ s
  no_key : ∀ key : Key, s ≠ key.text

structure FrameCfg.Fits (f : FrameCfg) : Prop where
  file : Plain VF_PARSER_MAX_FILE_NAME_LEN f.file
  no_bracket : ']' ∉ f.file
  width : 1 ≤ f.width ∧ f.width ≤ 2 ^ 31 - 1
  height : 1 ≤ f.height ∧ f.height ≤ 2 ^ 31 - 1

structure SetCfg.Fits (s : SetCfg) : Prop where
  name : Plain VF_PARSER_MAX_NAME_LEN s.name
  base_path : Plain VF_PARSER_MAX_BASE_PATH_LEN s.base_path
  format : s.format ≠ .VF_PIXEL_FORMAT_INVALID
  some_frame : s.frames ≠ []
  frames : ∀ f ∈ s.frames, f.Fits

def keys : List Key := [.name, .base_path, .format, .frames, .file, .width, .height]

theorem mem_keys (key : Key) : key ∈ keys := by
  cases key <;> decide

instance (size : Nat) (s : Text) : Decidable (Plain size s) :=
  decidable_of_iff (s.length < size ∧ '"' ∉ s ∧ '\x00' ∉ s ∧ ∀ key ∈ keys, s ≠ key.text)
    ⟨fun h => ⟨h.1, h.2.1, h.2.2.1, fun key => h.2.2.2 key (mem_keys key)⟩,
      fun h => ⟨h.short, h.no_quote, h.no_nul, fun key _ => h.no_key key⟩⟩

instance (f : FrameCfg) : Decidable f.Fits :=
  decidable_of_iff (Plain VF_PARSER_MAX_FILE_NAME_LEN f.file ∧ ']' ∉ f.file ∧
      (1 ≤ f.width ∧ f.width ≤ 2 ^ 31 - 1) ∧ 1 ≤ f.height ∧ f.height ≤ 2 ^ 31 - 1)
    ⟨fun h => ⟨h.1, h.2.1, h.2.2.1, h.2.2.2⟩,
      fun h => ⟨h.file, h.no_bracket, h.width, h.height⟩⟩

instance (s : SetCfg) : Decidable s.Fits :=
  decidable_of_iff (Plain VF_PARSER_MAX_NAME_LEN s.name ∧
      Plain VF_PARSER_MAX_BASE_PATH_LEN s.base_path ∧ s.format ≠ .VF_PIXEL_FORMAT_INVALID ∧
      s.frames ≠ [] ∧ ∀ f ∈ s.frames, f.Fits)
    ⟨fun h => ⟨h.1, h.2.1, h.2.2.1, h.2.2.2.1, h.2.2.2.2⟩,
      fun h => ⟨h.name, h.base_path, h.format, h.some_frame, h.frames⟩⟩

/-- What a load should give for a frame. -/
def FrameCfg.loaded (base_path : Text) (f : FrameCfg) : vf_frame_info_t :=
  ⟨f.file, base_path ++ '/' :: f.file, f.width, f.height⟩

def SetCfg.loaded (s : SetCfg) : vf_frame_set_t :=
  ⟨s.name, s.base_path, s.format, s.frames.map (FrameCfg.loaded s.base_path)⟩

/-! ## Keys in a text of tokens -/

/-- A string that stands for itself, and that a search for a quote cannot enter. -/
def Bare (s t : Text) : Prop := t = s ∧ '"' ∉ s

theorem Renders.mono {lit lit' : Text → Text → Prop} {toks : List Token} {text : Text}
    (h : Renders lit toks text) (himp : ∀ s t, .str s ∈ toks → lit s t → lit' s t) :
    Renders lit' toks text := by
  induction h with
  | nil hws => exact .nil hws
  | cons hws ht _ ih =>
    have hrest := ih fun s t hs => himp s t (List.mem_cons_of_mem _ hs)
    cases ht with
    | punct hc => exact .cons hws (.punct hc) hrest
    | str hlit => exact .cons hws (.str (himp _ _ List.mem_cons_self hlit)) hrest
    | num => exact .cons hws .num hrest

section
variable {key k : Key} {s t x y U : Text} {tok : Token} {toks pre : List Token}

@[simp] theorem key_text_eq : key.text = k.text ↔ key = k := ⟨key_text_inj, congrArg _⟩

theorem quoted_prefix {k : Text} (hk : '"' ∉ k) (hs : '"' ∉ s) :
    k ++ ['"'] <+: s ++ '"' :: U ↔ s = k := by
  induction k generalizing s with
  | nil =>
    cases s with
    | nil => simp
    | cons c s =>
      have hc : '"' ≠ c := fun he => hs (he ▸ List.mem_cons_self)
      simp [hc]
  | cons c k ih =>
    obtain ⟨hc, hk⟩ := not_or.mp (List.mem_cons.not.mp hk)
    cases s with
    | nil =>
      have hc' : c ≠ '"' := fun he => hc he.symm
      simp [hc']
    | cons d s =>
      obtain ⟨-, hs⟩ := not_or.mp (List.mem_cons.not.mp hs)
      have := ih hk hs
      simp only [List.cons_append, List.cons_prefix_cons, this, List.cons.injEq]
      exact and_congr_left fun _ => eq_comm

theorem places_skip (h : '"' ∉ x) : places key.quoted (x ++ y) = places key.quoted y := by
  induction x with
  | nil => rfl
  | cons c x ih =>
    obtain ⟨hc, hx⟩ := not_or.mp (List.mem_cons.not.mp h)
    have hno : ¬ key.quoted <+: c :: (x ++ y) := by
      unfold Key.quoted
      rw [List.cons_append, List.cons_prefix_cons]
      exact fun hp => hc hp.1
    rw [List.cons_append, places, if_neg hno, ih hx]

theorem places_string (hs : '"' ∉ s) (hU : ¬ key.text ++ ['"'] <+: U) :
    places key.quoted ('"' :: s ++ '"' :: U) =
      (if s = key.text then [key.quoted ++ U] else []) ++ places key.quoted U := by
  have hopen : key.quoted <+: '"' :: (s ++ '"' :: U) ↔ s = key.text := by
    unfold Key.quoted
    rw [List.cons_append, List.cons_prefix_cons, quoted_prefix (key_no_quote key) hs]
    simp
  have hclose : ¬ key.quoted <+: '"' :: U := by
    unfold Key.quoted
    rw [List.cons_append, List.cons_prefix_cons]
    exact fun hp => hU hp.2
  rw [List.cons_append, places, places_skip hs, places, if_neg hclose]
  by_cases heq : s = key.text
  · rw [if_pos (hopen.mpr heq), if_pos heq, heq]
    simp [Key.quoted]
  · rw [if_neg (hopen.not.mpr heq), if_neg heq, List.nil_append]

/-! ## Tokens -/

theorem digit_char {d : Nat} (hd : d < 10) :
    isdigit (Nat.digitChar d) = true ∧ (Nat.digitChar d).toNat - '0'.toNat = d := by
  interval_cases d <;> decide

theorem decimal_digits {n : Nat} {c : Char} (h : c ∈ decimal n) :
    ∃ d < 10, c = Nat.digitChar d := by
  obtain ⟨d, hd, rfl⟩ := List.mem_map.mp h
  exact ⟨d, Nat.digits_lt_base (by decide) (List.mem_reverse.mp hd), rfl⟩

/-- What a text may begin with: never a letter. -/
def Starts (c : Char) : Prop := is_blank c = true ∨ c ∈ structural ∨ c = '"' ∨ isdigit c = true

theorem Renders.starts {c : Char} (h : Renders Bare toks (c :: U)) : Starts c := by
  generalize htext : c :: U = text at h
  induction h generalizing c U with
  | nil hws => exact Or.inl (hws c (htext ▸ List.mem_cons_self))
  | @cons ws t _ _ _ hws ht _ ih =>
    cases ws with
    | cons b ws =>
      obtain rfl : c = b := by simpa using congrArg List.head? htext
      exact Or.inl (hws c List.mem_cons_self)
    | nil =>
      cases ht with
      | @punct d hd =>
        obtain rfl : c = d := by simpa using congrArg List.head? htext
        exact Or.inr (Or.inl hd)
      | str => exact Or.inr (Or.inr (Or.inl (by simpa using congrArg List.head? htext)))
      | @num n =>
        rcases hdec : decimal n with _ | ⟨d, ds⟩
        · rw [hdec] at htext
          exact ih htext
        · rw [hdec] at htext
          obtain rfl : c = d := by simpa using congrArg List.head? htext
          obtain ⟨e, he, rfl⟩ := decimal_digits (hdec ▸ List.mem_cons_self)
          exact Or.inr (Or.inr (Or.inr (digit_char he).1))

theorem key_head (key : Key) : ∃ c rest, key.text = c :: rest ∧ ¬ Starts c := by
  unfold Starts
  cases key
  · exact ⟨'n', "ame".toList, by decide, by decide⟩
  · exact ⟨'b', "ase_path".toList, by decide, by decide⟩
  · exact ⟨'f', "ormat".toList, by decide, by decide⟩
  · exact ⟨'f', "rames".toList, by decide, by decide⟩
  · exact ⟨'f', "ile".toList, by decide, by decide⟩
  · exact ⟨'w', "idth".toList, by decide, by decide⟩
  · exact ⟨'h', "eight".toList, by decide, by decide⟩

theorem Renders.no_key (h : Renders Bare toks U) : ¬ key.text ++ ['"'] <+: U := by
  obtain ⟨c, rest, htext, hc⟩ := key_head key
  rw [htext]
  rintro ⟨r, rfl⟩
  exact hc h.starts

theorem blank_char {d : Char} {ws : Text} (hws : Blank ws) (hd : is_blank d = false) :
    d ∉ ws := by
  intro hmem
  rw [hws d hmem] at hd
  cases hd

theorem decimal_char {n : Nat} {d : Char} (hd : isdigit d = false) : d ∉ decimal n := by
  intro hmem
  obtain ⟨e, he, rfl⟩ := decimal_digits hmem
  rw [(digit_char he).1] at hd
  cases hd

/-- The places of a key in a text: its first token, if it is that key, and those in the
rest. -/
theorem places_token {ws : Text} (hws : Blank ws) (ht : Written Bare tok t)
    (hU : Renders Bare toks U) :
    places key.quoted (ws ++ t ++ U) =
      (if tok = .str key.text then [key.quoted ++ U] else []) ++ places key.quoted U := by
  have hblank : '"' ∉ ws := blank_char hws (by decide)
  rw [List.append_assoc, places_skip hblank]
  cases ht with
  | @punct c hc =>
    have hquote : '"' ∉ [c] := by
      intro hmem
      obtain rfl : '"' = c := by simpa using hmem
      exact absurd hc (by decide)
    rw [places_skip hquote]
    simp
  | @str s t hst =>
    obtain ⟨rfl, hs⟩ := hst
    rw [List.append_assoc, List.singleton_append, places_string hs hU.no_key]
    simp
  | @num n =>
    have hdecimal : '"' ∉ decimal n := decimal_char (by decide)
    rw [places_skip hdecimal]
    simp

/-- A search for the key sees these tokens from the cursor on. -/
def Sees (key : Key) (cursor : Text) (toks : List Token) : Prop :=
  ∃ U, Renders Bare toks U ∧ places key.quoted cursor = places key.quoted U

/-- The cursor is at a key, before these tokens. -/
def At (key : Key) (cursor : Text) (toks : List Token) : Prop :=
  ∃ U, Renders Bare toks U ∧ cursor = key.quoted ++ U

theorem Sees.skip (pre : List Token) {cursor : Text} (h : Sees key cursor (pre ++ toks))
    (hpre : .str key.text ∉ pre) : Sees key cursor toks := by
  obtain ⟨U, hU, hplaces⟩ := h
  induction pre generalizing U with
  | nil => exact ⟨U, hU, hplaces⟩
  | cons tok pre ih =>
    obtain ⟨hne, hpre⟩ := not_or.mp (List.mem_cons.not.mp hpre)
    cases hU with
    | cons hws ht hrest =>
      apply ih hpre _ hrest
      rw [hplaces, places_token hws ht hrest, if_neg (fun he => hne he.symm), List.nil_append]

theorem Sees.find {cursor : Text} (h : Sees key cursor (.str key.text :: toks)) :
    ∃ c, strstr cursor key.quoted = some c ∧ At key c toks := by
  obtain ⟨U, hU, hplaces⟩ := h
  cases hU with
  | @cons ws t V _ _ hws ht hrest =>
    refine ⟨key.quoted ++ V, ?_, V, hrest, rfl⟩
    unfold strstr
    rw [find_eq_head, hplaces, places_token hws ht hrest, if_pos rfl]
    rfl

/-- A search for another key goes on after the key. -/
theorem At.sees {cursor : Text} (h : At key cursor toks) (hne : key ≠ k) : Sees k cursor toks := by
  obtain ⟨U, hU, rfl⟩ := h
  refine ⟨U, hU, ?_⟩
  have hq : key.quoted ++ U = '"' :: key.text ++ '"' :: U := by simp [Key.quoted]
  rw [hq, places_string (key_no_quote key) hU.no_key, if_neg fun he => hne (key_text_inj he)]
  rfl

/-- A search from one key to the next. -/
theorem At.next {cursor : Text} (k : Key) (pre : List Token)
    (h : At key cursor (pre ++ .str k.text :: toks)) (hne : key ≠ k)
    (hpre : .str k.text ∉ pre) : ∃ c, strstr cursor k.quoted = some c ∧ At k c toks :=
  ((h.sees hne).skip pre hpre).find

/-! ## Values -/

theorem find_char {c : Char} (h : c ∉ x) : find [c] (x ++ c :: y) = some (c :: y) := by
  rw [find_skip h]
  exact find_at_start (by simp)

theorem blanks_skipped {ws : Text} {c : Char} (hws : Blank ws) (hc : is_blank c = false) :
    (ws ++ c :: y).dropWhile is_blank = c :: y := by
  rw [List.dropWhile_append_of_pos hws, List.dropWhile_cons_of_neg (by simp [hc])]

/-- The value that stands after a key and its colon. -/
theorem At.colon {cursor : Text} (h : At key cursor (.punct ':' :: toks)) :
    ∃ V, Renders Bare toks V ∧ strchr cursor ':' = some (':' :: V) := by
  obtain ⟨U, hU, rfl⟩ := h
  cases hU with
  | @cons ws t V _ _ hws ht hV =>
    cases ht with
    | punct =>
      refine ⟨V, hV, ?_⟩
      have hno : ':' ∉ key.quoted ++ ws := by
        rw [List.mem_append, not_or]
        exact ⟨key_no_colon key, blank_char hws (by decide)⟩
      have hsplit : key.quoted ++ (ws ++ [':'] ++ V) = (key.quoted ++ ws) ++ ':' :: V := by simp
      rw [hsplit]
      exact find_char hno

theorem At.string {cursor v : Text} {size : Nat}
    (h : At key cursor (.punct ':' :: .str v :: toks)) (hv : v.length < size) :
    vf_parser_extract_string cursor size = some v := by
  obtain ⟨V, hV, hcolon⟩ := h.colon
  cases hV with
  | @cons ws t W _ _ hws ht hW =>
    cases ht with
    | str hst =>
      obtain ⟨heq, hquote⟩ := hst
      rw [heq] at hcolon
      have hblank : (ws ++ ('"' :: v ++ ['"']) ++ W).dropWhile is_blank =
          '"' :: (v ++ '"' :: W) := by
        have hsplit : ws ++ ('"' :: v ++ ['"']) ++ W = ws ++ '"' :: (v ++ '"' :: W) := by simp
        rw [hsplit, blanks_skipped hws (by decide)]
      have hlen : (v ++ '"' :: W).length - ('"' :: W).length = v.length := by simp
      unfold vf_parser_extract_string string_at
      rw [hcolon, Option.bind_some, List.drop_one, List.tail_cons, hblank]
      simp only [strchr, find_char hquote, Option.bind_some, hlen]
      rw [if_neg (by omega)]
      simp

theorem number_decimal (n : Nat) : number (decimal n) = n := by
  have hfold : ∀ l : List Nat, (∀ d ∈ l, d < 10) →
      number (l.reverse.map Nat.digitChar) = Nat.ofDigits 10 l := by
    intro l hl
    unfold number
    rw [List.foldl_map, List.foldl_reverse]
    induction l with
    | nil => rfl
    | cons d l ih =>
      rw [List.foldr_cons, ih fun e he => hl e (List.mem_cons_of_mem _ he),
        (digit_char (hl d List.mem_cons_self)).2, Nat.ofDigits_cons]
      omega
  unfold decimal
  rw [hfold _ fun d hd => Nat.digits_lt_base (by decide) hd, Nat.ofDigits_digits]

/-- A number in decimal is what `atoi` reads, up to a character that is no digit. -/
theorem atoi_decimal {ws : Text} {n : Nat} {c : Char} (hws : Blank ws) (h1 : 1 ≤ n)
    (hn : n ≤ 2 ^ 31 - 1) (hc : isdigit c = false) :
    atoi (ws ++ (decimal n ++ c :: y)) = n := by
  obtain ⟨d, ds, hdec⟩ : ∃ d ds, decimal n = d :: ds := by
    rcases hdec : decimal n with _ | ⟨d, ds⟩
    · have := number_decimal n
      rw [hdec] at this
      change 0 = n at this
      omega
    · exact ⟨d, ds, rfl⟩
  obtain ⟨e, he, hd⟩ : ∃ e < 10, d = Nat.digitChar e :=
    decimal_digits (hdec ▸ List.mem_cons_self)
  have hspace : isspace d = false ∧ d ≠ '-' ∧ d ≠ '+' := by
    rw [hd]
    interval_cases e <;> decide
  have hskip : (ws ++ (decimal n ++ c :: y)).dropWhile isspace = decimal n ++ c :: y := by
    have hall : ∀ b ∈ ws, isspace b = true := by
      intro b hb
      have := hws b hb
      unfold is_blank at this
      unfold isspace
      grind
    rw [List.dropWhile_append_of_pos hall, hdec, List.cons_append,
      List.dropWhile_cons_of_neg (by simp [hspace.1])]
  have hsign : sign (decimal n ++ c :: y) = (1, decimal n ++ c :: y) := by
    rw [hdec]
    unfold sign
    split
    · rename_i heq
      exact absurd (List.cons.inj heq).1 hspace.2.1
    · rename_i heq
      exact absurd (List.cons.inj heq).1 hspace.2.2
    · rfl
  have hdigits : (decimal n ++ c :: y).takeWhile isdigit = decimal n := by
    have hall : ∀ b ∈ decimal n, isdigit b = true := by
      intro b hb
      obtain ⟨e, he, rfl⟩ := decimal_digits hb
      exact (digit_char he).1
    rw [List.takeWhile_append_of_pos hall, List.takeWhile_cons_of_neg (by simp [hc]),
      List.append_nil]
  unfold atoi
  rw [hskip, hsign]
  simp only [hdigits, number_decimal, one_mul]
  rw [min_eq_right (by omega), max_eq_right (by omega), Int.bmod_eq_of_le (by omega) (by omega)]

theorem blank_no_digit {b : Char} (h : is_blank b = true) : isdigit b = false := by
  unfold is_blank at h
  simp only [Bool.or_eq_true, decide_eq_true_eq] at h
  rcases h with ((rfl | rfl) | rfl) | rfl <;> decide

theorem structural_no_digit {c : Char} (h : c ∈ structural) : isdigit c = false := by
  simp only [structural, List.mem_cons, List.not_mem_nil, or_false] at h
  rcases h with rfl | rfl | rfl | rfl | rfl | rfl <;> decide

theorem At.int {cursor : Text} {n : Nat} {c : Char}
    (h : At key cursor (.punct ':' :: .num n :: .punct c :: toks)) (h1 : 1 ≤ n)
    (hn : n ≤ 2 ^ 31 - 1) : vf_parser_extract_int cursor = some (n : Int) := by
  obtain ⟨V, hV, hcolon⟩ := h.colon
  unfold vf_parser_extract_int
  rw [hcolon, Option.map_some, List.drop_one, List.tail_cons]
  cases hV with
  | @cons ws t W _ _ hws ht hW =>
    cases ht with
    | num =>
      cases hW with
      | @cons ws' t' X _ _ hws' ht' hX =>
        cases ht' with
        | punct hc =>
          -- what stands after the digits is a blank or the next token
          obtain ⟨b, r, hb, hrest⟩ : ∃ b r, isdigit b = false ∧ ws' ++ [c] ++ X = b :: r := by
            cases ws' with
            | nil =>
              exact ⟨c, X, structural_no_digit hc, rfl⟩
            | cons b ws' =>
              exact ⟨b, ws' ++ [c] ++ X, blank_no_digit (hws' b List.mem_cons_self), by simp⟩
          rw [hrest, List.append_assoc, atoi_decimal hws h1 hn hb]

/-! ## Counting keys -/

theorem Renders.count (h : Renders Bare toks U) :
    (places key.quoted U).length = toks.count (.str key.text) := by
  induction h with
  | nil hws =>
    rename_i ws
    have hblank : '"' ∉ ws := blank_char hws (by decide)
    rw [← List.append_nil ws, places_skip hblank]
    cases key <;> rfl
  | cons hws ht hrest ih =>
    rw [places_token hws ht hrest, List.length_append, ih, List.count_cons]
    split <;> simp_all [Nat.add_comm]

/-- The keys that the loop counts before the first closing bracket. -/
theorem Renders.counted (key : Key) (h : Renders Bare (pre ++ .punct ']' :: toks) U)
    (hpunct : .punct ']' ∉ pre) (hstr : ∀ s, .str s ∈ pre → ']' ∉ s) :
    ∃ stop, strchr U ']' = some stop ∧ stop <:+ U ∧
      ((places key.quoted U).filter (before · stop)).length = pre.count (.str key.text) := by
  induction pre generalizing U with
  | nil =>
    cases h with
    | @cons ws t V _ _ hws ht hV =>
      cases ht with
      | punct =>
        have hblank : ']' ∉ ws := blank_char hws (by decide)
        refine ⟨']' :: V, ?_, ⟨ws, by simp⟩, ?_⟩
        · rw [List.append_assoc]
          exact find_char hblank
        · rw [places_token hws (.punct (by decide)) hV, if_neg (by simp), List.nil_append,
            List.count_nil, List.length_eq_zero_iff, List.filter_eq_nil_iff]
          intro s hs
          have hle := (mem_places.mp hs).1.length_le
          unfold before
          simp only [List.length_cons, decide_eq_true_eq]
          omega
  | cons tok pre ih =>
    obtain ⟨hne, hpunct⟩ := not_or.mp (List.mem_cons.not.mp hpunct)
    cases h with
    | @cons ws t V _ _ hws ht hV =>
      obtain ⟨stop, hstop, hsuf, hcount⟩ :=
        ih hV hpunct fun s hs => hstr s (List.mem_cons_of_mem _ hs)
      have hno : ']' ∉ ws ++ t := by
        rw [List.mem_append, not_or]
        refine ⟨blank_char hws (by decide), ?_⟩
        cases ht with
        | punct => simpa using hne
        | str hst =>
          have := hstr _ List.mem_cons_self
          rw [← hst.1] at this
          simpa using this
        | num => exact decimal_char (by decide)
      refine ⟨stop, ?_, hsuf.trans (List.suffix_append _ _), ?_⟩
      · unfold strchr at hstop ⊢
        rw [find_skip hno, hstop]
      · rw [places_token hws ht hV, List.filter_append, List.length_append, hcount, List.count_cons]
        have hle := hsuf.length_le
        have hbefore : before (key.quoted ++ V) stop = true := by
          unfold before Key.quoted
          simp only [List.length_append, List.length_cons, decide_eq_true_eq]
          omega
        split <;> simp_all [Nat.add_comm]

theorem key_no_bracket (key : Key) : ']' ∉ key.text := by
  cases key <;> decide

theorem At.counted {cursor : Text} (k : Key) (pre : List Token)
    (h : At key cursor (pre ++ .punct ']' :: toks)) (hne : key ≠ k)
    (hpunct : .punct ']' ∉ pre) (hstr : ∀ s, .str s ∈ pre → ']' ∉ s) :
    ∃ stop, strchr cursor ']' = some stop ∧ count_keys k stop cursor = pre.count (.str k.text) := by
  obtain ⟨U, hU, rfl⟩ := h
  obtain ⟨stop, hstop, -, hcount⟩ := hU.counted k hpunct hstr
  have hno : ']' ∉ key.quoted := by
    simpa [Key.quoted] using key_no_bracket key
  have hq : key.quoted ++ U = '"' :: key.text ++ '"' :: U := by simp [Key.quoted]
  refine ⟨stop, ?_, ?_⟩
  · unfold strchr at hstop ⊢
    rw [find_skip hno, hstop]
  · rw [count_keys_eq, ← hcount, hq, places_string (key_no_quote key) hU.no_key,
      if_neg fun he => hne (key_text_inj he), List.nil_append]

theorem mem_listed {items : List (List Token)} (h : tok ∈ listed items) :
    tok = .punct ',' ∨ ∃ item ∈ items, tok ∈ item := by
  induction items with
  | nil => cases h
  | cons item rest ih =>
    cases rest with
    | nil => exact Or.inr ⟨item, List.mem_cons_self, h⟩
    | cons next rest =>
      rcases List.mem_append.mp h with hmem | hmem
      · exact Or.inr ⟨item, List.mem_cons_self, hmem⟩
      · rcases List.mem_cons.mp hmem with rfl | hmem
        · exact Or.inl rfl
        · rcases ih hmem with heq | ⟨item', hitem, hin⟩
          · exact Or.inl heq
          · exact Or.inr ⟨item', List.mem_cons_of_mem _ hitem, hin⟩

theorem count_listed {items : List (List Token)} (hcomma : tok ≠ .punct ',') :
    (listed items).count tok = (items.map (·.count tok)).sum := by
  induction items with
  | nil => rfl
  | cons item rest ih =>
    cases rest with
    | nil => simp [listed]
    | cons next rest =>
      have hne : (Token.punct ',' == tok) = false := by simpa using fun he => hcomma he.symm
      rw [listed, List.count_append, List.count_cons, hne, ih]
      simp

end

/-! ## Frames -/

section
variable {base_path cursor : Text} {pre toks : List Token}

theorem FrameCfg.tokens_eq (f : FrameCfg) : f.tokens =
    [.punct '{', .str Key.file.text, .punct ':', .str f.file, .punct ',', .str Key.width.text,
      .punct ':', .num f.width, .punct ',', .str Key.height.text, .punct ':', .num f.height,
      .punct '}'] := rfl

theorem full_path_eq {file_name : Text} (hbase : base_path.length < VF_PARSER_MAX_BASE_PATH_LEN)
    (hfile : file_name.length < VF_PARSER_MAX_FILE_NAME_LEN) :
    full_path base_path file_name = base_path ++ '/' :: file_name := by
  unfold full_path
  apply List.take_of_length_le
  simp only [VF_PARSER_MAX_FULL_PATH_LEN, VF_PARSER_MAX_BASE_PATH_LEN,
    VF_PARSER_MAX_FILE_NAME_LEN, List.length_append, List.length_cons] at *
  omega

theorem load_frame.spec {f : FrameCfg} (hf : f.Fits)
    (hbase : base_path.length < VF_PARSER_MAX_BASE_PATH_LEN)
    (h : Sees .file cursor (pre ++ (f.tokens ++ toks))) (hpre : .str Key.file.text ∉ pre) :
    ∃ places, load_frame base_path cursor = .ok (f.loaded base_path, places) ∧
      At .height places.height (.punct ':' :: .num f.height :: .punct '}' :: toks) := by
  have hskip := h.skip pre hpre
  rw [f.tokens_eq] at hskip
  obtain ⟨file, hfile, hat⟩ := (hskip.skip [.punct '{'] (by simp)).find
  have hname := hat.string hf.file.short
  obtain ⟨at_width, hwidth, hat⟩ := hat.next .width [.punct ':', .str f.file, .punct ',']
    (by decide) (by simpa using (hf.file.no_key .width).symm)
  have hw := hat.int hf.width.1 hf.width.2
  obtain ⟨at_height, hheight, hat⟩ := hat.next .height [.punct ':', .num f.width, .punct ',']
    (by decide) (by simp)
  have hh := hat.int hf.height.1 hf.height.2
  refine ⟨⟨file, at_width, at_height⟩, ?_, hat⟩
  have hw0 : (0 : Int) < f.width := by have := hf.width.1; omega
  have hh0 : (0 : Int) < f.height := by have := hf.height.1; omega
  unfold load_frame
  simp only [hfile, hname, hwidth, hw, hheight, hh, need, require, hw0, hh0, decide_true, if_true,
    bind, Except.bind, pure, Except.pure, Int.toNat_natCast, FrameCfg.loaded]
  rw [full_path_eq hbase hf.file.short]

theorem load_frames.spec {frames : List FrameCfg} (hsome : frames ≠ [])
    (hfits : ∀ f ∈ frames, f.Fits) (hbase : base_path.length < VF_PARSER_MAX_BASE_PATH_LEN)
    (h : Sees .file cursor (pre ++ (listed (frames.map FrameCfg.tokens) ++ toks)))
    (hpre : .str Key.file.text ∉ pre) :
    ∃ infos cursor', load_frames base_path frames.length cursor = .ok (infos, cursor') ∧
      infos.map (·.1) = frames.map (FrameCfg.loaded base_path) ∧
      ∃ mid, At .height cursor' (mid ++ toks) ∧ .str Key.name.text ∉ mid := by
  induction frames generalizing cursor pre with
  | nil => exact absurd rfl hsome
  | cons f rest ih =>
    have hf := hfits f List.mem_cons_self
    cases rest with
    | nil =>
      obtain ⟨places, hload, hat⟩ := load_frame.spec hf hbase h hpre
      refine ⟨[(f.loaded base_path, places)], places.height, ?_, rfl,
        [.punct ':', .num f.height, .punct '}'], hat, by simp⟩
      simp only [List.length_cons, List.length_nil, load_frames, hload, bind, Except.bind, pure,
        Except.pure]
    | cons next rest =>
      have hsplit : listed ((f :: next :: rest).map FrameCfg.tokens) ++ toks = f.tokens ++
          (.punct ',' :: listed ((next :: rest).map FrameCfg.tokens) ++ toks) := by
        simp [listed]
      rw [hsplit] at h
      obtain ⟨places, hload, hat⟩ := load_frame.spec hf hbase h hpre
      have hsees : Sees .file places.height
          (([.punct ':', .num f.height, .punct '}', .punct ','] : List Token) ++
            (listed ((next :: rest).map FrameCfg.tokens) ++ toks)) := hat.sees (by decide)
      obtain ⟨infos, cursor', hloads, hinfos, hmid⟩ :=
        ih (by simp) (fun g hg => hfits g (List.mem_cons_of_mem _ hg)) hsees (by simp)
      refine ⟨(f.loaded base_path, places) :: infos, cursor', ?_, by simpa using hinfos, hmid⟩
      rw [List.length_cons]
      simp only [load_frames, hload, bind, Except.bind, pure, Except.pure] at hloads ⊢
      rw [hloads]

/-! ## Sets -/

theorem SetCfg.tokens_eq (s : SetCfg) : s.tokens =
    ([.punct '{', .str Key.name.text, .punct ':', .str s.name, .punct ',', .str Key.base_path.text,
      .punct ':', .str s.base_path, .punct ',', .str Key.format.text, .punct ':',
      .str (format_name s.format), .punct ',', .str Key.frames.text] : List Token) ++
    (Token.punct ':' :: Token.punct '[' :: listed (s.frames.map FrameCfg.tokens) ++
      ([.punct ']', .punct '}'] : List Token)) := by
  simp [SetCfg.tokens, object, member, array, listed]

/-- The tokens of a frame, but for its file name. -/
theorem frame_token {f : FrameCfg} {tok : Token} (h : tok ∈ f.tokens) :
    tok = .str f.file ∨ tok ∈ [.punct '{', .punct ':', .punct ',', .punct '}'] ∨
      tok ∈ [.str Key.file.text, .str Key.width.text, .str Key.height.text] ∨
      ∃ n, tok = .num n := by
  rw [f.tokens_eq] at h
  simp only [List.mem_cons, List.not_mem_nil, or_false] at h ⊢
  grind

theorem format_name_short (format : vf_pixel_format_t) : (format_name format).length < 32 := by
  cases format <;> decide

theorem format_name_read {format : vf_pixel_format_t} (h : format ≠ .VF_PIXEL_FORMAT_INVALID) :
    vf_parser_str_to_format (format_name format) = format := by
  cases format <;> first | exact absurd rfl h | decide

theorem format_name_no_key (format : vf_pixel_format_t) (key : Key) :
    format_name format ≠ key.text := by
  cases format <;> cases key <;> decide

theorem count_files {frames : List FrameCfg} (hfits : ∀ f ∈ frames, f.Fits) :
    (listed (frames.map FrameCfg.tokens)).count (.str Key.file.text) = frames.length := by
  rw [count_listed (by simp)]
  induction frames with
  | nil => rfl
  | cons f rest ih =>
    have hne : f.file ≠ Key.file.text := (hfits f List.mem_cons_self).file.no_key .file
    have hone : f.tokens.count (.str Key.file.text) = 1 := by
      rw [f.tokens_eq]
      simp [hne]
    have hrest := ih fun g hg => hfits g (List.mem_cons_of_mem _ hg)
    simp only [List.map_cons, List.sum_cons, hone, hrest, List.length_cons]
    omega

theorem load_set.spec (alloc : Alloc → Bool) (i : Nat) {s : SetCfg} (hs : s.Fits)
    (halloc : alloc (.frames i) = true) (h : Sees .name cursor (pre ++ (s.tokens ++ toks)))
    (hpre : .str Key.name.text ∉ pre) :
    ∃ places cursor', load_set alloc i cursor = .ok ((s.loaded, places), cursor') ∧
      ∃ mid, At .height cursor' (mid ++ toks) ∧ .str Key.name.text ∉ mid := by
  have hskip := h.skip pre hpre
  rw [s.tokens_eq] at hskip
  simp only [List.append_assoc, List.cons_append] at hskip
  obtain ⟨at_name, hname, hat⟩ := (hskip.skip [.punct '{'] (by simp)).find
  have hname' := hat.string hs.name.short
  obtain ⟨at_base, hbase, hat⟩ := hat.next .base_path [.punct ':', .str s.name, .punct ',']
    (by decide) (by simpa using (hs.name.no_key .base_path).symm)
  have hbase' := hat.string hs.base_path.short
  obtain ⟨at_format, hformat, hat⟩ := hat.next .format [.punct ':', .str s.base_path, .punct ',']
    (by decide) (by simpa using (hs.base_path.no_key .format).symm)
  have hformat' := hat.string (format_name_short s.format)
  have hfile : Sees .file at_format _ := hat.sees (by decide)
  obtain ⟨at_frames, hframes, hat⟩ := hat.next .frames
    [.punct ':', .str (format_name s.format), .punct ','] (by decide)
    (by simpa using (format_name_no_key s.format .frames).symm)
  -- the array ends at its closing bracket, and the loop counts its frames
  have hclosing : ∃ stop, strchr at_frames ']' = some stop ∧
      count_keys .file stop at_frames = s.frames.length := by
    have hpre : ∀ tok ∈ listed (s.frames.map FrameCfg.tokens), tok ≠ .punct ']' ∧
        ∀ t, tok = .str t → ']' ∉ t := by
      intro tok htok
      rcases mem_listed htok with rfl | ⟨item, hitem, hin⟩
      · simp
      · obtain ⟨f, hf, rfl⟩ := List.mem_map.mp hitem
        have hfile := (hs.frames f hf).no_bracket
        rcases frame_token hin with rfl | hpunct | hkey | ⟨n, rfl⟩
        · simpa using hfile
        · simp only [List.mem_cons, List.not_mem_nil, or_false] at hpunct
          rcases hpunct with rfl | rfl | rfl | rfl <;> simp
        · simp only [List.mem_cons, List.not_mem_nil, or_false] at hkey
          rcases hkey with rfl | rfl | rfl <;> simp [key_no_bracket]
        · simp
    have hcounted := hat.counted .file (.punct ':' :: .punct '[' ::
      listed (s.frames.map FrameCfg.tokens)) (by decide)
      (by simpa using fun hmem => (hpre _ hmem).1 rfl)
      (fun t ht => (hpre _ (by simpa using ht)).2 t rfl)
    simpa [count_files hs.frames] using hcounted
  obtain ⟨stop, hstop, hcount⟩ := hclosing
  have hsees : Sees .file at_format (([.punct ':', .str (format_name s.format), .punct ',',
      .str Key.frames.text, .punct ':', .punct '['] : List Token) ++
      (listed (s.frames.map FrameCfg.tokens) ++ (Token.punct ']' :: Token.punct '}' :: toks))) := by
    simpa using hfile
  obtain ⟨infos, cursor', hloads, hinfos, mid, hmid, hno⟩ :=
    load_frames.spec hs.some_frame hs.frames hs.base_path.short hsees
      (by simpa using (format_name_no_key s.format .file).symm)
  have hcount0 : s.frames.length ≠ 0 := by simpa using hs.some_frame
  refine ⟨⟨at_name, at_base, at_format, at_frames, stop, infos.map (·.2)⟩, cursor', ?_,
    mid ++ [.punct ']', .punct '}'], by simpa using hmid, by simp [hno]⟩
  unfold load_set
  simp only [hname, hname', hbase, hbase', hformat, hformat', hframes, hstop, hcount, hloads,
    halloc, need, require, format_name_read hs.format, hs.format, hcount0, ne_eq,
    not_false_eq_true, decide_true, if_true, bind, Except.bind, pure, Except.pure, hinfos,
    SetCfg.loaded]

theorem load_sets.spec (alloc : Alloc → Bool) (i : Nat) {sets : List SetCfg}
    (hfits : ∀ s ∈ sets, s.Fits) (halloc : ∀ i, alloc (.frames i) = true)
    (h : Sees .name cursor (pre ++ (listed (sets.map SetCfg.tokens) ++ toks)))
    (hpre : .str Key.name.text ∉ pre) :
    ∃ loaded, load_sets alloc i sets.length cursor = .ok loaded ∧
      loaded.map (·.1) = sets.map SetCfg.loaded := by
  induction sets generalizing cursor pre i with
  | nil => exact ⟨[], rfl, rfl⟩
  | cons s rest ih =>
    have hs := hfits s List.mem_cons_self
    have hrest := fun t ht => hfits t (List.mem_cons_of_mem _ ht)
    cases rest with
    | nil =>
      obtain ⟨places, cursor', hload, -⟩ := load_set.spec alloc i hs (halloc i) h hpre
      refine ⟨[(s.loaded, places)], ?_, rfl⟩
      simp only [List.length_cons, List.length_nil, load_sets, hload, bind, Except.bind, pure,
        Except.pure]
    | cons next rest =>
      have hsplit : listed ((s :: next :: rest).map SetCfg.tokens) ++ toks = s.tokens ++
          (.punct ',' :: listed ((next :: rest).map SetCfg.tokens) ++ toks) := by
        simp [listed]
      rw [hsplit] at h
      obtain ⟨places, cursor', hload, mid, hat, hmid⟩ := load_set.spec alloc i hs (halloc i) h hpre
      have hsees : Sees .name cursor' ((mid ++ [Token.punct ',']) ++
          (listed ((next :: rest).map SetCfg.tokens) ++ toks)) := by
        have := hat.sees (k := .name) (by decide)
        simpa using this
      obtain ⟨loaded, hloads, hloaded⟩ := ih (i + 1) hrest hsees (by simp [hmid])
      refine ⟨(s.loaded, places) :: loaded, ?_, by simpa using hloaded⟩
      rw [List.length_cons]
      simp only [load_sets, hload, bind, Except.bind, pure, Except.pure] at hloads ⊢
      rw [hloads]

theorem config_tokens_eq (sets : List SetCfg) : config_tokens sets =
    ([.punct '{', .str root_key, .punct ':', .punct '['] : List Token) ++
      (listed (sets.map SetCfg.tokens) ++ ([.punct ']', .punct '}'] : List Token)) := by
  simp [config_tokens, object, member, array, listed]

theorem root_key_other (key : Key) : root_key ≠ key.text := by
  cases key <;> decide

theorem count_names {sets : List SetCfg} (hfits : ∀ s ∈ sets, s.Fits) :
    (config_tokens sets).count (.str Key.name.text) = sets.length := by
  have hone : ∀ s ∈ sets, s.tokens.count (.str Key.name.text) = 1 := by
    intro s hs
    have h := hfits s hs
    have hframes : (listed (s.frames.map FrameCfg.tokens)).count (.str Key.name.text) = 0 := by
      rw [List.count_eq_zero]
      intro hmem
      rcases mem_listed hmem with heq | ⟨item, hitem, hin⟩
      · cases heq
      · obtain ⟨f, hf, rfl⟩ := List.mem_map.mp hitem
        have hfile := ((h.frames f hf).file.no_key .name).symm
        rcases frame_token hin with heq | hpunct | hkey | ⟨n, heq⟩
        · exact hfile (Token.str.inj heq)
        · simp at hpunct
        · simp at hkey
        · cases heq
    rw [s.tokens_eq]
    simp [hframes, h.name.no_key .name, h.base_path.no_key .name, format_name_no_key]
  have hsum : (sets.map fun s => s.tokens.count (.str Key.name.text)).sum = sets.length := by
    rw [List.map_congr_left hone]
    simp
  rw [config_tokens_eq, List.count_append, List.count_append, count_listed (by simp),
    List.map_map, Function.comp_def, hsum]
  simp [root_key_other]

/-- The strings of a config: its keys and its values. -/
def ConfigString (sets : List SetCfg) (t : Text) : Prop :=
  t = root_key ∨ (∃ key : Key, t = key.text) ∨ ∃ s ∈ sets, t = s.name ∨ t = s.base_path ∨
    t = format_name s.format ∨ ∃ f ∈ s.frames, t = f.file

/-- The tokens of a config. -/
def ConfigToken (sets : List SetCfg) : Token → Prop
  | .punct c => c ∈ structural
  | .str t => ConfigString sets t
  | .num _ => True

theorem frame_config_token {sets : List SetCfg} {s : SetCfg} {f : FrameCfg} {tok : Token}
    (hs : s ∈ sets) (hf : f ∈ s.frames) (h : tok ∈ f.tokens) : ConfigToken sets tok := by
  rcases frame_token h with rfl | hpunct | hkeys | ⟨n, rfl⟩
  · exact Or.inr (Or.inr ⟨s, hs, Or.inr (Or.inr (Or.inr ⟨f, hf, rfl⟩))⟩)
  · simp only [List.mem_cons, List.not_mem_nil, or_false] at hpunct
    rcases hpunct with rfl | rfl | rfl | rfl <;> simp [ConfigToken, structural]
  · simp only [List.mem_cons, List.not_mem_nil, or_false] at hkeys
    rcases hkeys with rfl | rfl | rfl <;> exact Or.inr (Or.inl ⟨_, rfl⟩)
  · trivial

theorem set_config_token {sets : List SetCfg} {s : SetCfg} {tok : Token} (hs : s ∈ sets)
    (h : tok ∈ s.tokens) : ConfigToken sets tok := by
  have hpunct : ∀ c ∈ structural, ConfigToken sets (.punct c) := fun _ hc => hc
  have hkey : ∀ key : Key, ConfigToken sets (.str key.text) :=
    fun key => Or.inr (Or.inl ⟨key, rfl⟩)
  rw [s.tokens_eq] at h
  simp only [List.cons_append, List.nil_append, List.mem_cons, List.mem_append, List.not_mem_nil,
    or_false] at h
  rcases h with rfl | rfl | rfl | rfl | rfl | rfl | rfl | rfl | rfl | rfl | rfl | rfl | rfl | rfl |
    rfl | rfl | hin | rfl | rfl
  case inr.inr.inr.inl => exact Or.inr (Or.inr ⟨s, hs, Or.inl rfl⟩)
  case inr.inr.inr.inr.inr.inr.inr.inl => exact Or.inr (Or.inr ⟨s, hs, Or.inr (Or.inl rfl)⟩)
  case inr.inr.inr.inr.inr.inr.inr.inr.inr.inr.inr.inl =>
    exact Or.inr (Or.inr ⟨s, hs, Or.inr (Or.inr (Or.inl rfl))⟩)
  case inr.inr.inr.inr.inr.inr.inr.inr.inr.inr.inr.inr.inr.inr.inr.inr.inl =>
    rcases mem_listed hin with rfl | ⟨item, hitem, hin⟩
    · exact hpunct _ (by decide)
    · obtain ⟨f, hf, rfl⟩ := List.mem_map.mp hitem
      exact frame_config_token hs hf hin
  all_goals first | exact hkey _ | exact hpunct _ (by decide)

theorem config_token {sets : List SetCfg} {tok : Token} (h : tok ∈ config_tokens sets) :
    ConfigToken sets tok := by
  have hpunct : ∀ c ∈ structural, ConfigToken sets (.punct c) := fun _ hc => hc
  rw [config_tokens_eq] at h
  simp only [List.cons_append, List.nil_append, List.mem_cons, List.mem_append, List.not_mem_nil,
    or_false] at h
  rcases h with rfl | rfl | rfl | rfl | hin | rfl | rfl
  · exact hpunct _ (by decide)
  · exact Or.inl rfl
  · exact hpunct _ (by decide)
  · exact hpunct _ (by decide)
  · rcases mem_listed hin with rfl | ⟨item, hitem, hin⟩
    · exact hpunct _ (by decide)
    · obtain ⟨s, hs, rfl⟩ := List.mem_map.mp hitem
      exact set_config_token hs hin
  · exact hpunct _ (by decide)
  · exact hpunct _ (by decide)

/-- No string of the config has a quote or a NUL in it. -/
theorem config_strings {sets : List SetCfg} (hfits : ∀ s ∈ sets, s.Fits) {t : Text}
    (h : .str t ∈ config_tokens sets) : '"' ∉ t ∧ '\x00' ∉ t := by
  have hstring : ConfigString sets t := config_token h
  rcases hstring with rfl | ⟨key, rfl⟩ | ⟨s, hs, rfl | rfl | rfl | ⟨f, hf, rfl⟩⟩
  · decide
  · cases key <;> decide
  · exact ⟨(hfits s hs).name.no_quote, (hfits s hs).name.no_nul⟩
  · exact ⟨(hfits s hs).base_path.no_quote, (hfits s hs).base_path.no_nul⟩
  · cases s.format <;> decide
  · exact ⟨((hfits s hs).frames f hf).file.no_quote, ((hfits s hs).frames f hf).file.no_nul⟩

end

/-! ## The law -/

theorem Renders.no_nul {toks : List Token} {text : Text} (h : Renders Bare toks text)
    (hstr : ∀ s, .str s ∈ toks → '\x00' ∉ s) : '\x00' ∉ text := by
  induction h with
  | nil hws => exact blank_char hws (by decide)
  | cons hws ht _ ih =>
    rw [List.mem_append, List.mem_append, not_or, not_or]
    refine ⟨⟨blank_char hws (by decide), ?_⟩, ih fun s hs => hstr s (List.mem_cons_of_mem _ hs)⟩
    cases ht with
    | punct hc =>
      intro hmem
      rw [← List.mem_singleton.mp hmem] at hc
      revert hc
      decide
    | str hst =>
      have := hstr _ List.mem_cons_self
      rw [← hst.1] at this
      simpa using this
    | num => exact decimal_char (by decide)

theorem Renders.config_no_nul {sets : List SetCfg} {text : Text} (hfits : ∀ s ∈ sets, s.Fits)
    (h : Renders Bare (config_tokens sets) text) : '\x00' ∉ text :=
  h.no_nul fun _ hs => (config_strings hfits hs).2

/-- A config is loaded as it was written, if it is what the parser reads of a file. -/
theorem rendered_loads {sets : List SetCfg} {text : Text} {file : Option Text} (hsome : sets ≠ [])
    (hfits : ∀ s ∈ sets, s.Fits) (hbare : Renders Bare (config_tokens sets) text)
    (hread : vf_parser_read_file file (fun _ => true) = some text) :
    vf_parser_load_frames_cfg file (fun _ => true) = .ok ⟨sets.map SetCfg.loaded⟩ := by
  have hcount : count_keys .name [] text = sets.length := by
    rw [count_keys_eq, ← count_names hfits, ← hbare.count, List.filter_eq_self.mpr]
    intro place hplace
    have hle := (mem_places.mp hplace).2.length_le
    unfold before
    simp only [Key.quoted, List.length_append, List.length_cons, List.length_nil,
      decide_eq_true_eq] at hle ⊢
    omega
  have hsees : Sees .name text
      (([.punct '{', .str root_key, .punct ':', .punct '['] : List Token) ++
        (listed (sets.map SetCfg.tokens) ++ ([.punct ']', .punct '}'] : List Token))) := by
    rw [← config_tokens_eq]
    exact ⟨text, hbare, rfl⟩
  obtain ⟨loaded, hloads, hloaded⟩ := load_sets.spec (fun _ => true) 0 hfits (fun _ => rfl) hsees
    (by simpa using (root_key_other .name).symm)
  have hcount0 : sets.length ≠ 0 := by simpa using hsome
  unfold vf_parser_load_frames_cfg load_places
  simp only [hread, hcount, hcount0, need, require, ne_eq, not_false_eq_true, decide_true,
    if_true, bind, Except.bind, pure, Except.pure, hloads, hloaded]

/-- A config in the layout of the shipped one, with each string written as it is, is loaded
as it was written. -/
theorem a_plain_config_comes_back {sets : List SetCfg} {text : Text} (hsome : sets ≠ [])
    (hfits : ∀ s ∈ sets, s.Fits) (htext : Renders Verbatim (config_tokens sets) text)
    (hsize : text.length ≤ MAX_FILE_SIZE - 1) :
    vf_parser_load_frames_cfg (some text) (fun _ => true) = .ok ⟨sets.map SetCfg.loaded⟩ := by
  have hbare : Renders Bare (config_tokens sets) text :=
    htext.mono fun s t hs hst => ⟨hst, (config_strings hfits hs).1⟩
  refine rendered_loads hsome hfits hbare ?_
  rw [read_whole rfl (hbare.config_no_nul hfits), List.take_of_length_le hsize]

/-! ## Strings that need an escape sequence -/

/-- The text without blanks. -/
def compact (lit : Text → Text) : List Token → Text
  | [] => []
  | .punct c :: toks => c :: compact lit toks
  | .str s :: toks => '"' :: lit s ++ ['"'] ++ compact lit toks
  | .num n :: toks => decimal n ++ compact lit toks

theorem renders_compact {lit : Text → Text} {ok : Text → Text → Prop} {toks : List Token}
    (hpunct : ∀ c, .punct c ∈ toks → c ∈ structural) (hstr : ∀ s, .str s ∈ toks → ok s (lit s)) :
    Renders ok toks (compact lit toks) := by
  have hblank : Blank [] := by simp [Blank]
  induction toks with
  | nil => exact .nil hblank
  | cons tok toks ih =>
    have hrest := ih (fun c hc => hpunct c (List.mem_cons_of_mem _ hc)) fun s hs =>
      hstr s (List.mem_cons_of_mem _ hs)
    cases tok with
    | punct c => exact .cons hblank (.punct (hpunct c List.mem_cons_self)) hrest
    | str s =>
      change Renders ok (.str s :: toks) ([] ++ ('"' :: lit s ++ ['"']) ++ compact lit toks)
      exact .cons hblank (.str (hstr s List.mem_cons_self)) hrest
    | num n => exact .cons hblank .num hrest

/-- A config without blanks is loaded as it was written. -/
theorem compact_loads {sets : List SetCfg} (hsome : sets ≠ []) (hfits : ∀ s ∈ sets, s.Fits)
    (hsize : (compact id (config_tokens sets)).length ≤ MAX_FILE_SIZE - 1) :
    vf_parser_load_frames_cfg (some (compact id (config_tokens sets))) (fun _ => true) =
      .ok ⟨sets.map SetCfg.loaded⟩ := by
  have hbare : Renders Bare (config_tokens sets) (compact id (config_tokens sets)) :=
    renders_compact (fun _ hc => config_token hc) fun _ hs => ⟨rfl, (config_strings hfits hs).1⟩
  refine rendered_loads hsome hfits hbare ?_
  rw [read_whole rfl (hbare.config_no_nul hfits), List.take_of_length_le hsize]

theorem Renders.then_blanks {lit : Text → Text → Prop} {toks : List Token} {text ws : Text}
    (h : Renders lit toks text) (hws : Blank ws) : Renders lit toks (text ++ ws) := by
  induction h with
  | nil hblank =>
    refine .nil fun c hc => ?_
    rcases List.mem_append.mp hc with hc | hc
    · exact hblank c hc
    · exact hws c hc
  | cons hblank ht _ ih =>
    rw [List.append_assoc]
    exact .cons hblank ht ih

/-- What may stand after a backslash for a character. -/
inductive Escape : Char → Text → Prop
  | quote : Escape '"' ['"']
  | backslash : Escape '\\' ['\\']
  | slash : Escape '/' ['/']
  | backspace : Escape '\x08' ['b']
  | form_feed : Escape '\x0c' ['f']
  | newline : Escape '\n' ['n']
  | carriage_return : Escape '\r' ['r']
  | tab : Escape '\t' ['t']
  | code {c : Char} : c.toNat < 128 →
      Escape c ['u', '0', '0', Nat.digitChar (c.toNat / 16), Nat.digitChar (c.toNat % 16)]

/-- What may stand between the quotes for a string, in JSON. -/
inductive JsonString : Text → Text → Prop
  | nil : JsonString [] []
  | plain {c : Char} {s t : Text} : c ≠ '"' → c ≠ '\\' → 32 ≤ c.toNat → JsonString s t →
      JsonString (c :: s) (c :: t)
  | escape {c : Char} {e s t : Text} : Escape c e → JsonString s t →
      JsonString (c :: s) ('\\' :: e ++ t)

/-- A set with one frame of one pixel. -/
def a_set (name : Char) : SetCfg := ⟨[name], ['b'], .VF_PIXEL_FORMAT_RAW8, [⟨['f'], 1, 1⟩]⟩

theorem plain_letter {size : Nat} {c : Char} (hsize : 1 < size) (hquote : '"' ≠ c)
    (hnul : '\x00' ≠ c) : Plain size [c] := by
  refine ⟨hsize, by simpa using hquote, by simpa using hnul, fun key he => ?_⟩
  have hlen : 1 < key.text.length := by
    cases key <;> decide
  rw [← he] at hlen
  exact absurd hlen (by simp)

theorem a_set_fits {name : Char} (hquote : '"' ≠ name) (hnul : '\x00' ≠ name) :
    (a_set name).Fits := by
  refine ⟨plain_letter (by decide) hquote hnul,
    plain_letter (by decide) (by decide) (by decide), by simp [a_set], by simp [a_set], ?_⟩
  intro f hf
  obtain rfl : f = ⟨['f'], 1, 1⟩ := by simpa [a_set] using hf
  exact ⟨plain_letter (by decide) (by decide) (by decide), by decide, by decide, by decide⟩

/-- Two sets of two frames each. -/
def two_sets : List SetCfg :=
  [⟨['s'], ['b'], .VF_PIXEL_FORMAT_RGB888, [⟨['f'], 640, 480⟩, ⟨['g'], 2, 31⟩]⟩,
    ⟨['t'], ['d'], .VF_PIXEL_FORMAT_YUV420, [⟨['g'], 16, 8⟩, ⟨['h'], 1920, 1080⟩]⟩]

theorem two_sets_come_back : vf_parser_load_frames_cfg
    (some (compact id (config_tokens two_sets))) (fun _ => true) =
      .ok ⟨[⟨['s'], ['b'], .VF_PIXEL_FORMAT_RGB888,
          [⟨['f'], ['b', '/', 'f'], 640, 480⟩, ⟨['g'], ['b', '/', 'g'], 2, 31⟩]⟩,
        ⟨['t'], ['d'], .VF_PIXEL_FORMAT_YUV420,
          [⟨['g'], ['d', '/', 'g'], 16, 8⟩, ⟨['h'], ['d', '/', 'h'], 1920, 1080⟩]⟩]⟩ := by
  have hrender : Renders Verbatim (config_tokens two_sets) (compact id (config_tokens two_sets)) :=
    renders_compact (fun _ hc => config_token hc) fun _ _ => rfl
  exact a_plain_config_comes_back (by simp [two_sets]) (by decide +kernel) hrender
    (by decide +kernel)

/-- A backslash is written as two. -/
def escaped (s : Text) : Text := s.flatMap fun c => if c = '\\' then ['\\', '\\'] else [c]

theorem json_string_escaped {s : Text} (h : s.all (fun c => c ≠ '"' && 32 ≤ c.toNat) = true) :
    JsonString s (escaped s) := by
  induction s with
  | nil => exact .nil
  | cons c s ih =>
    simp only [List.all_cons, Bool.and_eq_true, decide_eq_true_eq] at h
    obtain ⟨⟨hquote, hcode⟩, hall⟩ := h
    have hrest := ih (by simpa using hall)
    by_cases hc : c = '\\'
    · subst hc
      exact .escape .backslash hrest
    · have hhead : escaped (c :: s) = c :: escaped s := by simp [escaped, hc]
      rw [hhead]
      exact .plain hquote hc hcode hrest

/-- A name with a backslash in it comes back with two of them. -/
theorem a_backslash_comes_back_twice :
    ¬ ∀ sets text, sets ≠ [] → (∀ s ∈ sets, SetCfg.Fits s) →
      Renders JsonString (config_tokens sets) text → text.length ≤ MAX_FILE_SIZE - 1 →
      vf_parser_load_frames_cfg (some text) (fun _ => true) = .ok ⟨sets.map SetCfg.loaded⟩ := by
  intro h
  have hfits : ∀ s ∈ [a_set '\\'], SetCfg.Fits s := by
    intro s hs
    rw [List.mem_singleton.mp hs]
    exact a_set_fits (by decide) (by decide)
  have hrender : Renders JsonString (config_tokens [a_set '\\'])
      (compact escaped (config_tokens [a_set '\\'])) := by
    apply renders_compact fun _ hc => config_token hc
    intro t ht
    apply json_string_escaped
    have hstring : ConfigString [a_set '\\'] t := config_token ht
    rcases hstring with rfl | ⟨key, rfl⟩ | ⟨s, hs, hvalue⟩
    · decide
    · cases key <;> decide
    · obtain rfl := List.mem_singleton.mp hs
      rcases hvalue with rfl | rfl | rfl | ⟨f, hf, rfl⟩
      · decide
      · decide
      · decide
      · obtain rfl := List.mem_singleton.mp hf
        decide
  have hload := h _ _ (by simp) hfits hrender (by decide)
  revert hload
  decide

end vision_flow.parser
