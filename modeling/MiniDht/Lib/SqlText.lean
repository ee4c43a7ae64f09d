import Mathlib.Algebra.Order.BigOperators.Group.List
import Mathlib.Algebra.Order.Ring.Int
import Mathlib.Algebra.Order.Ring.Nat
import Mathlib.Data.List.TakeWhile
import Mathlib.Tactic.Common

/-!
# Statement texts with string literals

A program that builds a statement by writing strings between single quotes fixes a
`Template` and fills it with values. A reader of the text splits it at its literals;
a literal ends at a single quote that is not doubled. `reads_iff`: the reader finds the
template filled with exactly those values if and only if no value holds a quote or the
character that ends a C string.
-/

namespace MiniDht.Lib

/-- What a reader of a statement sees: a character of code, or a whole literal. -/
inductive Token where
  | code (c : Char)
  | lit (value : List Char)
  deriving DecidableEq, Repr

/-- Where the reader stands: outside a literal, inside one, or after a quote that may
close it or be the first of a doubled pair. -/
inductive Mode where
  | outside
  | inside (acc : List Char)
  | closing (acc : List Char)

def lexFrom : Mode → List Char → Option (List Token)
  | .outside, [] => some []
  | .outside, c :: rest =>
    if c = '\'' then lexFrom (.inside []) rest
    else (lexFrom .outside rest).map (.code c :: ·)
  | .inside _, [] => none
  | .inside acc, c :: rest =>
    if c = '\'' then lexFrom (.closing acc) rest
    else lexFrom (.inside (acc ++ [c])) rest
  | .closing acc, [] => some [.lit acc]
  | .closing acc, c :: rest =>
    if c = '\'' then lexFrom (.inside (acc ++ [c])) rest
    else (lexFrom .outside rest).map (fun ts => .lit acc :: .code c :: ts)

/-- The tokens of a statement text, if every literal in it ends. -/
def lex (text : List Char) : Option (List Token) :=
  lexFrom .outside text

/-- What a reader of a C string sees of `text`. -/
def cstr (text : List Char) : List Char :=
  text.takeWhile (· ≠ '\x00')

/-- A value that reads as itself between quotes. -/
def Clean (value : String) : Prop :=
  '\'' ∉ value.toList ∧ '\x00' ∉ value.toList

instance (value : String) : Decidable (Clean value) :=
  inferInstanceAs (Decidable (_ ∧ _))

/-- A text is clean as spelled out. -/
theorem Clean.ofList {value : String} {spelled : List Char} (same : value = String.ofList spelled)
    (plain : spelled.all (fun c => c != '\'' && c != '\x00') = true) : Clean value := by
  subst same
  simp only [List.all_eq_true, Bool.and_eq_true, bne_iff_ne, ne_eq] at plain
  simp only [Clean, String.toList_ofList]
  exact ⟨fun quote => (plain _ quote).1 rfl, fun nul => (plain _ nul).2 rfl⟩

theorem Clean.append {a b : String} (ha : Clean a) (hb : Clean b) : Clean (a ++ b) := by
  constructor
  · simpa using ⟨ha.1, hb.1⟩
  · simpa using ⟨ha.2, hb.2⟩

/-- A number reads as itself between quotes. -/
theorem clean_nat (n : Nat) : Clean (toString n) := by
  have digits : ∀ c ∈ (toString n).toList, c.isDigit := by
    intro c member
    have spelled : (toString n).toList = Nat.toDigits 10 n := String.toList_ofList
    rw [spelled] at member
    exact Nat.isDigit_of_mem_toDigits (by decide) (by decide) member
  exact ⟨fun quote => absurd (digits _ quote) (by decide),
    fun nul => absurd (digits _ nul) (by decide)⟩

theorem clean_int (i : Int) : Clean (toString i) := by
  cases i with
  | ofNat n => exact clean_nat n
  | negSucc n => exact Clean.append (by decide) (clean_nat (n + 1))

/-- Code with holes for literals: `head`, then each hole with the code after it. The
code has no quotes or NULs of its own, and two holes never touch. -/
structure Template where
  head : String
  tail : List String
  plain : ∀ piece ∈ head :: tail, Clean piece := by
    repeat' first
      | exact List.forall_mem_nil _
      | refine List.forall_mem_cons.mpr ⟨Clean.ofList rfl rfl, ?_⟩
  apart : ∀ piece ∈ tail.dropLast, piece ≠ "" := by decide

namespace Template

/-- Each value between quotes, followed by the code after its hole. -/
def fill : List String → List String → List Char
  | value :: values, piece :: pieces =>
    '\'' :: value.toList ++ '\'' :: piece.toList ++ fill values pieces
  | _, _ => []

/-- The text built by writing `values` into the holes as they are. -/
def text (t : Template) (values : List String) : List Char :=
  t.head.toList ++ fill values t.tail

def fillTokens : List String → List String → List Token
  | value :: values, piece :: pieces =>
    .lit value.toList :: piece.toList.map .code ++ fillTokens values pieces
  | _, _ => []

/-- The template with `values` as its literals. -/
def tokens (t : Template) (values : List String) : List Token :=
  t.head.toList.map .code ++ fillTokens values t.tail

/-- The text, as handed to a reader of C strings, is one statement of the shape of the
template whose literals are precisely `values`. -/
def Reads (t : Template) (values : List String) : Prop :=
  lex (cstr (t.text values)) = some (t.tokens values)

instance (t : Template) (values : List String) : Decidable (t.Reads values) :=
  inferInstanceAs (Decidable (_ = _))

end Template

/-! ## Reading loses nothing -/

/-- A literal's content as it must be written: every quote doubled. -/
def escape (value : List Char) : List Char :=
  value.flatMap fun c => if c = '\'' then [c, c] else [c]

def Token.render : Token → List Char
  | .code c => [c]
  | .lit value => '\'' :: escape value ++ ['\'']

/-- What the reader has taken in but not yet given out. -/
def Mode.pending : Mode → List Char
  | .outside => []
  | .inside acc => '\'' :: escape acc
  | .closing acc => '\'' :: escape acc ++ ['\'']

theorem escape_snoc (value : List Char) (c : Char) :
    escape (value ++ [c]) = escape value ++ if c = '\'' then [c, c] else [c] := by
  simp [escape]

theorem lexFrom_render {text : List Char} {mode : Mode} {ts : List Token}
    (read : lexFrom mode text = some ts) :
    ts.flatMap Token.render = mode.pending ++ text := by
  induction text generalizing mode ts with
  | nil =>
    cases mode with
    | outside => cases read; rfl
    | inside acc => cases read
    | closing acc => cases read; simp [Token.render, Mode.pending]
  | cons c rest ih =>
    cases mode with
    | outside =>
      rw [lexFrom] at read
      split at read
      · rename_i quote
        rw [ih read, quote]
        rfl
      · obtain ⟨tail, found, rfl⟩ := Option.map_eq_some_iff.mp read
        simp [Token.render, ih found, Mode.pending]
    | inside acc =>
      rw [lexFrom] at read
      split at read
      · rename_i quote
        rw [ih read, quote]
        simp [Mode.pending]
      · rename_i plain
        rw [ih read]
        simp [Mode.pending, escape_snoc, plain]
    | closing acc =>
      rw [lexFrom] at read
      split at read
      · rename_i quote
        rw [ih read, quote]
        simp [Mode.pending, escape_snoc]
      · obtain ⟨tail, found, rfl⟩ := Option.map_eq_some_iff.mp read
        simp [Token.render, ih found, Mode.pending]

/-- Writing the tokens back, with doubled quotes, gives the text that was read. -/
theorem lex_render {text : List Char} {ts : List Token} (read : lex text = some ts) :
    ts.flatMap Token.render = text :=
  lexFrom_render read

/-! ## Plain values read as themselves -/

theorem lexFrom_code {piece : List Char} (plain : '\'' ∉ piece) (rest : List Char) :
    lexFrom .outside (piece ++ rest) = (lexFrom .outside rest).map (piece.map Token.code ++ ·) := by
  induction piece with
  | nil => simp
  | cons c piece ih =>
    obtain ⟨first, others⟩ := List.ne_and_not_mem_of_not_mem_cons plain
    rw [List.cons_append, lexFrom, if_neg (Ne.symm first), ih others, Option.map_map]
    rfl

theorem lexFrom_inside {value : List Char} (plain : '\'' ∉ value) (acc rest : List Char) :
    lexFrom (.inside acc) (value ++ '\'' :: rest) = lexFrom (.closing (acc ++ value)) rest := by
  induction value generalizing acc with
  | nil => simp [lexFrom]
  | cons c value ih =>
    obtain ⟨first, others⟩ := List.ne_and_not_mem_of_not_mem_cons plain
    rw [List.cons_append, lexFrom, if_neg (Ne.symm first), ih others]
    simp

/-- A quote that ends a literal is followed by something else than a quote. -/
theorem lexFrom_closing {rest : List Char} (after : rest.head? ≠ some '\'') (acc : List Char) :
    lexFrom (.closing acc) rest = (lexFrom .outside rest).map (Token.lit acc :: ·) := by
  cases rest with
  | nil => rfl
  | cons c rest =>
    have other : c ≠ '\'' := by simpa using after
    rw [lexFrom, if_neg other, lexFrom, if_neg other, Option.map_map]
    rfl

namespace Template

/-- Code between two holes keeps the quotes of their literals apart. -/
theorem fill_head {pieces values : List String} {piece : String} (clean : Clean piece)
    (between : pieces ≠ [] → piece ≠ "") :
    (piece.toList ++ fill values pieces).head? ≠ some '\'' := by
  cases h : piece.toList with
  | nil =>
    have empty : pieces = [] := by
      by_contra more
      exact between more (String.toList_eq_nil_iff.mp h)
    subst empty
    cases values <;> simp [fill]
  | cons c cs =>
    have plain := clean.1
    rw [h, List.mem_cons, not_or] at plain
    simpa using Ne.symm plain.1

theorem lexFrom_fill {values pieces : List String} (plain : ∀ piece ∈ pieces, Clean piece)
    (apart : ∀ piece ∈ pieces.dropLast, piece ≠ "") (clean : ∀ value ∈ values, Clean value) :
    lexFrom .outside (fill values pieces) = some (fillTokens values pieces) := by
  induction values generalizing pieces with
  | nil => simp [fill, fillTokens, lexFrom]
  | cons value values ih =>
    cases pieces with
    | nil => simp [fill, fillTokens, lexFrom]
    | cons piece pieces =>
      have first := plain piece (by simp)
      have between : pieces ≠ [] → piece ≠ "" := by
        intro more
        apply apart
        rw [List.dropLast_cons_of_ne_nil more]
        exact List.mem_cons_self
      have rest : lexFrom .outside (fill values pieces) = some (fillTokens values pieces) := by
        apply ih (fun p hp => plain p (by simp [hp])) _ (fun v hv => clean v (by simp [hv]))
        intro p hp
        apply apart
        cases pieces with
        | nil => simp at hp
        | cons q qs => rw [List.dropLast_cons_of_ne_nil (by simp)]; exact List.mem_cons_of_mem _ hp
      have shape : fill (value :: values) (piece :: pieces) =
          '\'' :: (value.toList ++ '\'' :: (piece.toList ++ fill values pieces)) := by
        simp [fill]
      rw [shape, lexFrom, if_pos rfl, lexFrom_inside (clean value (by simp)).1,
        lexFrom_closing (fill_head first between), lexFrom_code first.1, rest]
      simp [fillTokens]

/-- Every statement filled with clean values is read as intended. -/
theorem lex_text (t : Template) {values : List String} (clean : ∀ value ∈ values, Clean value) :
    lex (t.text values) = some (t.tokens values) := by
  rw [lex, text, lexFrom_code (t.plain t.head (by simp)).1,
    lexFrom_fill (fun p hp => t.plain p (by simp [hp])) t.apart clean]
  rfl

/-! ## What a reading costs -/

theorem length_escape (value : List Char) :
    (escape value).length = value.length + value.count '\'' := by
  induction value with
  | nil => rfl
  | cons c value ih =>
    by_cases quote : c = '\''
    · simp [escape, quote] at ih ⊢
      omega
    · simp [escape, quote] at ih ⊢
      omega

theorem length_render_code (piece : List Char) :
    ((piece.map Token.code).flatMap Token.render).length = piece.length := by
  induction piece with
  | nil => rfl
  | cons c piece ih =>
    rw [List.map_cons, List.flatMap_cons, List.length_append, ih]
    exact Nat.add_comm _ _

/-- Written back, a statement is longer than its text by the quotes in its values. -/
theorem length_fillTokens {values pieces : List String} (fits : values.length = pieces.length) :
    ((fillTokens values pieces).flatMap Token.render).length =
      (fill values pieces).length + (values.map fun value => value.toList.count '\'').sum := by
  induction values generalizing pieces with
  | nil => simp [fill, fillTokens]
  | cons value values ih =>
    cases pieces with
    | nil => simp at fits
    | cons piece pieces =>
      have rest := ih (by simpa using fits)
      have code := length_render_code piece.toList
      simp only [fillTokens, fill, List.flatMap_append, List.flatMap_cons, List.cons_append,
        List.length_append, List.length_cons, Token.render, List.map_cons, List.sum_cons,
        length_escape, List.length_nil] at *
      omega

theorem length_tokens (t : Template) {values : List String} (fits : values.length = t.tail.length) :
    ((t.tokens values).flatMap Token.render).length =
      (t.text values).length + (values.map fun value => value.toList.count '\'').sum := by
  rw [tokens, text, List.flatMap_append, List.length_append, List.length_append,
    length_render_code, length_fillTokens fits, Nat.add_assoc]

theorem mem_fill {values pieces : List String} (fits : values.length = pieces.length)
    {value : String} (member : value ∈ values) {c : Char} (inside : c ∈ value.toList) :
    c ∈ fill values pieces := by
  induction values generalizing pieces with
  | nil => cases member
  | cons first values ih =>
    cases pieces with
    | nil => simp at fits
    | cons piece pieces =>
      rcases List.mem_cons.mp member with rfl | later
      · simp [fill, inside]
      · simp [fill, ih (by simpa using fits) later]

theorem nul_of_mem_fill {values pieces : List String} (plain : ∀ piece ∈ pieces, Clean piece)
    (clean : ∀ value ∈ values, Clean value) : '\x00' ∉ fill values pieces := by
  induction values generalizing pieces with
  | nil => simp [fill]
  | cons value values ih =>
    cases pieces with
    | nil => simp [fill]
    | cons piece pieces =>
      have here := (plain piece (by simp)).2
      have there := (clean value (by simp)).2
      have rest := ih (fun p hp => plain p (List.mem_cons_of_mem _ hp))
        (fun v hv => clean v (List.mem_cons_of_mem _ hv))
      simp [fill, here, there, rest]

/-- **Reading a filled template.** A C-string reader finds the template with exactly the
written values as its literals iff the values are clean. -/
theorem reads_iff (t : Template) {values : List String} (fits : values.length = t.tail.length) :
    t.Reads values ↔ ∀ value ∈ values, Clean value := by
  constructor
  · intro reads
    have back := congrArg List.length (lex_render reads)
    rw [length_tokens t fits] at back
    have short : (cstr (t.text values)).length ≤ (t.text values).length :=
      (List.takeWhile_prefix _).length_le
    intro value member
    constructor
    · intro quote
      have counted : 0 < value.toList.count '\'' := List.count_pos_iff.mpr quote
      have part : value.toList.count '\'' ≤ (values.map fun v => v.toList.count '\'').sum :=
        List.le_sum_of_mem (List.mem_map.mpr ⟨value, member, rfl⟩)
      omega
    · intro nul
      have whole : cstr (t.text values) = t.text values := by
        apply (List.takeWhile_prefix _).eq_of_length
        rw [cstr] at back short
        omega
      have inside : '\x00' ∈ cstr (t.text values) := by
        rw [whole, text]
        exact List.mem_append_right _ (mem_fill fits member nul)
      simpa using List.mem_takeWhile_imp inside
  · intro clean
    have noNul : '\x00' ∉ t.text values := by
      rw [text, List.mem_append, not_or]
      exact ⟨(t.plain t.head (by simp)).2,
        nul_of_mem_fill (fun p hp => t.plain p (by simp [hp])) clean⟩
    have whole : cstr (t.text values) = t.text values := by
      rw [cstr, List.takeWhile_eq_self_iff]
      intro c inside
      simp only [ne_eq, decide_eq_true_eq]
      rintro rfl
      exact noNul inside
    rw [Reads, whole]
    exact lex_text t clean

end Template

end MiniDht.Lib
