-- Reads in a text that is cut at a limit. What the parser reads before the limit, it reads in
-- the cut text too, and the other way round: a string needs its closing quote, and a number
-- ends at a bracket or a quote.
import VisionFlow.Parser

namespace vision_flow.parser

open search

/-! ## Text before a limit -/

/-- What follows the number that `atoi` reads. -/
def number_end (s : Text) : Text := (sign (s.dropWhile isspace)).2.dropWhile isdigit

/-- The text that lies before the limit. -/
def cut (text limit : Text) : Text := text.take (text.length - limit.length)

/-- The string at the key is `v`, and it ends before the limit. -/
def StringIn (limit src : Text) (size : Nat) (v : Text) : Prop :=
  ∃ quote, string_at src size = some (v, quote) ∧ before quote limit = true

/-- The number at the key is `n`, and it ends before the limit. -/
def IntIn (limit src : Text) (n : Int) : Prop :=
  ∃ colon, strchr src ':' = some colon ∧ atoi (colon.drop 1) = n ∧
    limit.length ≤ (number_end (colon.drop 1)).length

/-- A number that stands before this text ends there. -/
def Stops (q : Text) : Prop :=
  ∀ c ∈ q.head?, isspace c = false ∧ isdigit c = false ∧ c ≠ '-' ∧ c ≠ '+'

/-! ## Strings in a cut text -/

section
variable {s t p q src limit v quote : Text} {c : Char} {size : Nat} {key : Key} {n : Int}

theorem cut_append (h : limit <:+ src) : cut src limit ++ limit = src := by
  obtain ⟨p, rfl⟩ := h
  unfold cut
  simp

theorem char_place (h : strchr s c = some t) : ∃ r, t = c :: r ∧ t <:+ s := by
  obtain ⟨hsuf, r, hr⟩ := find_suffix h
  exact ⟨r, hr.symm, hsuf⟩

/-- The steps of a successful read of a string. -/
theorem string_at_eq : string_at src size = some (v, quote) ↔ ∃ colon start,
    strchr src ':' = some colon ∧ (colon.drop 1).dropWhile is_blank = '"' :: start ∧
    strchr start '"' = some quote ∧ start.length - quote.length < size ∧
    v = start.take (start.length - quote.length) := by
  unfold string_at
  rw [Option.bind_eq_some_iff]
  refine exists_congr fun colon => ?_
  split
  · rename_i start hstart
    simp only [hstart, Option.bind_eq_some_iff, List.cons.injEq, true_and]
    constructor
    · rintro ⟨hcolon, quote', hquote, h⟩
      split at h
      · cases h
      · cases h
        exact ⟨start, hcolon, rfl, hquote, by omega, rfl⟩
    · rintro ⟨_, hcolon, rfl, hquote, hlen, rfl⟩
      refine ⟨hcolon, quote, hquote, ?_⟩
      rw [if_neg (by omega)]
  · rename_i hno
    simp only [reduceCtorEq, and_false, false_iff, not_exists, not_and]
    intro start _ hstart
    exact absurd hstart (hno start)

theorem drop_append_of_cons (c : Char) (s q : Text) :
    ((c :: s) ++ q).drop 1 = (c :: s).drop 1 ++ q := rfl

/-- What is read in the first part of a text is read in the text. -/
theorem string_at_append (h : string_at p size = some (v, quote)) :
    string_at (p ++ q) size = some (v, quote ++ q) := by
  obtain ⟨colon, start, hcolon, hstart, hquote, hlen, rfl⟩ := string_at_eq.mp h
  obtain ⟨r, rfl, -⟩ := char_place hcolon
  obtain ⟨-, -, hsuf⟩ := char_place hquote
  have hle := hsuf.length_le
  have hsame : (start ++ q).length - (quote ++ q).length = start.length - quote.length := by
    simp only [List.length_append]
    omega
  refine string_at_eq.mpr ⟨_, start ++ q, find_append hcolon, ?_, find_append hquote, ?_, ?_⟩
  · rw [drop_append_of_cons, List.dropWhile_append, hstart]
    rfl
  · rw [hsame]
    exact hlen
  · rw [hsame, List.take_append_of_le_length (by omega)]

/-- What is read in a text before its last part is read in the first part. -/
theorem string_at_of_append (h : string_at (p ++ q) size = some (v, quote))
    (hbefore : q.length < quote.length) :
    ∃ quote', quote = quote' ++ q ∧ string_at p size = some (v, quote') := by
  obtain ⟨colon, start, hcolon, hstart, hquote, hlen, rfl⟩ := string_at_eq.mp h
  obtain ⟨r, rfl, -⟩ := char_place hcolon
  obtain ⟨quoted, -, hsuf⟩ := char_place hquote
  have hle := hsuf.length_le
  have hshort := (List.dropWhile_suffix is_blank (l := (':' :: r).drop 1)).length_le
  rw [hstart] at hshort
  simp only [List.drop_one, List.tail_cons, List.length_cons] at hshort
  obtain ⟨colon', heq, hcolon'⟩ := find_of_append hcolon (by simp; omega)
  obtain ⟨r', rfl, -⟩ := char_place hcolon'
  rw [heq, drop_append_of_cons, List.dropWhile_append] at hstart
  split at hstart
  · -- the rest would have nothing but the last part
    have := (List.dropWhile_suffix is_blank (l := q)).length_le
    rw [hstart, List.length_cons] at this
    omega
  · rename_i hne
    rw [List.isEmpty_iff] at hne
    obtain ⟨d, start', hd⟩ := List.exists_cons_of_ne_nil hne
    rw [hd, List.cons_append, List.cons.injEq] at hstart
    obtain ⟨rfl, rfl⟩ := hstart
    obtain ⟨quote', rfl, hquote'⟩ := find_of_append hquote (by simp; omega)
    have hsame : (start' ++ q).length - (quote' ++ q).length = start'.length - quote'.length := by
      simp only [List.length_append]
      omega
    rw [hsame] at hlen
    refine ⟨quote', rfl, string_at_eq.mpr ⟨_, start', hcolon', hd, hquote', hlen, ?_⟩⟩
    rw [hsame, List.take_append_of_le_length (by omega)]

/-- A string ends before the last part exactly if the first part has it. -/
theorem string_in_append :
    StringIn q (p ++ q) size v ↔ vf_parser_extract_string p size = some v := by
  unfold StringIn vf_parser_extract_string before
  simp only [decide_eq_true_eq, Option.map_eq_some_iff, Prod.exists, exists_and_right,
    exists_eq_right]
  constructor
  · rintro ⟨quote, hread, hbefore⟩
    obtain ⟨quote', -, hread'⟩ := string_at_of_append hread hbefore
    exact ⟨quote', hread'⟩
  · rintro ⟨quote, hread⟩
    refine ⟨quote ++ q, string_at_append hread, ?_⟩
    obtain ⟨_, _, -, -, hquote, -⟩ := string_at_eq.mp hread
    obtain ⟨r, rfl, -⟩ := char_place hquote
    simp only [List.length_append, List.length_cons]
    omega

/-! ## Numbers in a cut text -/

theorem dropWhile_stop {f : Char → Bool} (h : ∀ c ∈ q.head?, f c = false) :
    (p ++ q).dropWhile f = p.dropWhile f ++ q := by
  rw [List.dropWhile_append]
  split
  · rename_i hnil
    rw [List.isEmpty_iff.mp hnil, List.nil_append]
    cases q with
    | nil => rfl
    | cons c q => rw [List.dropWhile_cons_of_neg (by simpa using h c)]
  · rfl

theorem takeWhile_stop {f : Char → Bool} (h : ∀ c ∈ q.head?, f c = false) :
    (p ++ q).takeWhile f = p.takeWhile f := by
  induction p with
  | nil =>
    cases q with
    | nil => rfl
    | cons c q =>
      rw [List.nil_append, List.takeWhile_cons_of_neg (by simpa using h c), List.takeWhile_nil]
  | cons c p ih => simp only [List.cons_append, List.takeWhile_cons, ih]

theorem sign_stop (h : Stops q) : sign (p ++ q) = ((sign p).1, (sign p).2 ++ q) := by
  cases p with
  | nil =>
    cases q with
    | nil => rfl
    | cons c q =>
      obtain ⟨-, -, hminus, hplus⟩ := h c (by simp)
      unfold sign
      simp [hminus, hplus]
  | cons c p =>
    unfold sign
    simp only [List.cons_append]
    split <;> simp_all

theorem atoi_stop (h : Stops q) : atoi (p ++ q) = atoi p := by
  have hspace : ∀ c ∈ q.head?, isspace c = false := fun c hc => (h c hc).1
  have hdigit : ∀ c ∈ q.head?, isdigit c = false := fun c hc => (h c hc).2.1
  unfold atoi
  rw [dropWhile_stop hspace, sign_stop h]
  simp only [takeWhile_stop hdigit]

theorem number_end_stop (h : Stops q) : number_end (p ++ q) = number_end p ++ q := by
  have hspace : ∀ c ∈ q.head?, isspace c = false := fun c hc => (h c hc).1
  have hdigit : ∀ c ∈ q.head?, isdigit c = false := fun c hc => (h c hc).2.1
  unfold number_end
  rw [dropWhile_stop hspace, sign_stop h]
  simp only [dropWhile_stop hdigit]

theorem number_end_suffix (s : Text) : number_end s <:+ s := by
  have hsign : ∀ t : Text, (sign t).2 <:+ t := by
    intro t
    unfold sign
    split
    · exact List.suffix_cons _ _
    · exact List.suffix_cons _ _
    · exact List.suffix_rfl
  exact (List.dropWhile_suffix _).trans ((hsign _).trans (List.dropWhile_suffix _))

/-- A number ends before the last part exactly if the first part has it. -/
theorem int_in_append (hq : Stops q) :
    IntIn q (p ++ q) n ↔ vf_parser_extract_int p = some n := by
  unfold IntIn vf_parser_extract_int
  rw [Option.map_eq_some_iff]
  constructor
  · rintro ⟨colon, hcolon, rfl, hend⟩
    obtain ⟨r, rfl, -⟩ := char_place hcolon
    have hle := (number_end_suffix ((':' :: r).drop 1)).length_le
    simp only [List.drop_one, List.tail_cons] at hle hend
    obtain ⟨colon', heq, hcolon'⟩ := find_of_append hcolon (by simp; omega)
    obtain ⟨r', rfl, -⟩ := char_place hcolon'
    refine ⟨_, hcolon', ?_⟩
    rw [heq, drop_append_of_cons, atoi_stop hq]
  · rintro ⟨colon, hcolon, rfl⟩
    obtain ⟨r, rfl, -⟩ := char_place hcolon
    refine ⟨_, find_append hcolon, ?_, ?_⟩
    · rw [drop_append_of_cons, atoi_stop hq]
    · rw [drop_append_of_cons, number_end_stop hq, List.length_append]
      omega

/-! ## Keys in a cut text -/

theorem StringIn.read (h : StringIn limit src size v) :
    vf_parser_extract_string src size = some v := by
  obtain ⟨quote, hread, -⟩ := h
  unfold vf_parser_extract_string
  rw [hread, Option.map_some]

theorem IntIn.read (h : IntIn limit src n) : vf_parser_extract_int src = some n := by
  obtain ⟨colon, hcolon, rfl, -⟩ := h
  unfold vf_parser_extract_int
  rw [hcolon, Option.map_some]

theorem colon_after_key (hkey : key.quoted <+: src) (h : strchr src ':' = some t) :
    t.length + key.quoted.length ≤ src.length := by
  obtain ⟨rest, rfl⟩ := hkey
  unfold strchr at h
  rw [find_skip (key_no_colon key)] at h
  have := (find_suffix h).1.length_le
  rw [List.length_append]
  omega

/-- The key of a string that ends before a limit stands before it. -/
theorem StringIn.key_fits (h : StringIn limit src size v) (hkey : key.quoted <+: src) :
    limit.length + key.quoted.length < src.length := by
  obtain ⟨quote, hread, hbefore⟩ := h
  obtain ⟨colon, start, hcolon, hstart, hquote, -⟩ := string_at_eq.mp hread
  have h1 := colon_after_key hkey hcolon
  have h2 := (find_suffix hquote).1.length_le
  have h3 := (List.dropWhile_suffix is_blank (l := colon.drop 1)).length_le
  have h4 := (List.drop_suffix 1 colon).length_le
  rw [hstart, List.length_cons] at h3
  unfold before at hbefore
  rw [decide_eq_true_eq] at hbefore
  omega

theorem IntIn.key_fits (h : IntIn limit src n) (hkey : key.quoted <+: src) :
    limit.length + key.quoted.length < src.length := by
  obtain ⟨colon, hcolon, -, hend⟩ := h
  have h1 := colon_after_key hkey hcolon
  obtain ⟨r, rfl, -⟩ := char_place hcolon
  have h2 := (number_end_suffix ((':' :: r).drop 1)).length_le
  simp only [List.drop_one, List.tail_cons, List.length_cons] at h1 h2 hend
  omega

end

end vision_flow.parser
