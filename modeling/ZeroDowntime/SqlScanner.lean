import Mathlib.Data.List.Induction
/-!
# SqlScanner — the tokens of a text of SQL

PostgreSQL's scanner, with standard strings and a database in UTF-8: white space and both kinds of comments, words, names
between double quotes, strings, which white space with a line break in it continues, decimal numbers, and operators of
several characters.  What it knows beyond that is not read here: strings with a prefix, dollar quotes and parameters, and
numbers with an exponent, a radix or underscores.  Which identifier a word or a name is, is a matter of its own (`ident?`).
-/
namespace SqlText

inductive Token
  | word (w : List Char)
  | number (w : List Char)
  /-- Between double quotes. -/
  | name (v : List Char)
  /-- Between single quotes. -/
  | string (v : List Char)
  | symbol (c : Char)
  | operator (w : List Char)
  deriving DecidableEq, Repr

/-- Where the scanner is. -/
inductive Mode
  | start
  | word (w : List Char)
  | number (w : List Char)
  | name (v : List Char)
  /-- Past a double quote, which the next character may double. -/
  | nameEnd (v : List Char)
  | string (v : List Char)
  | stringEnd (v : List Char)
  /-- In the white space behind a string.  `line` if it has a line break: then another quote goes on with the string. -/
  | gap (v : List Char) (line : Bool)
  | gapDash (v : List Char) (line : Bool)
  | gapComment (v : List Char) (line : Bool)
  | operator (w : List Char)
  | dot
  | colon
  | comment
  /-- In a comment with `depth` others around it; `last` is the character before. -/
  | block (depth : Nat) (last : Char)
  | unknown
  deriving DecidableEq, Repr

structure Scan where
  tokens : List Token
  mode : Mode
  deriving DecidableEq, Repr

/-! ## Characters -/

def newlines : List Char := ['\n', '\r']

/-- With the vertical tab and the form feed. -/
def spaces : List Char := newlines ++ [' ', '\t', '\x0b', '\x0c']

def isNewline (c : Char) : Bool := newlines.contains c

def isSpace (c : Char) : Bool := spaces.contains c

/-- Every character beyond ASCII is one of words. -/
def isWordStart (c : Char) : Bool := c.isAlpha || c = '_' || decide (128 ≤ c.toNat)

def isWordChar (c : Char) : Bool := isWordStart c || c.isDigit || c = '$'

/-- The characters that are tokens by themselves. -/
def isSymbol (c : Char) : Bool := [',', '(', ')', '[', ']', ';'].contains c

def signs : List Char := ['+', '-']

/-- The characters of operators that no operator of standard SQL has. -/
def foreign : List Char := ['~', '!', '@', '#', '^', '&', '|', '`', '?', '%']

def operatorChars : List Char := signs ++ foreign ++ ['*', '/', '<', '>', '=']

def isOperator (c : Char) : Bool := operatorChars.contains c

/-- `c` behind the word `w` makes it the prefix of a string. -/
def isPrefix (w : List Char) (c : Char) : Bool :=
  (c = '\'' && [['b'], ['B'], ['e'], ['E'], ['n'], ['N'], ['x'], ['X']].contains w) ||
    (c = '&' && [['u'], ['U']].contains w)

/-! ## The scanner -/

/-- The operators of a run of their characters: the signs at its end are operators of their own, unless a foreign character
is in it. -/
def operators (w : List Char) : List Token :=
  if w.any foreign.contains then [.operator w]
  else
    match (w.reverse.dropWhile signs.contains).reverse with
    | [] => w.map (fun c => .operator [c])
    | body => .operator body :: (w.drop body.length).map (fun c => .operator [c])

/-- A character that begins something. -/
def opened (tokens : List Token) (c : Char) : Scan :=
  if isSpace c then ⟨tokens, .start⟩
  else if c = '\'' then ⟨tokens, .string []⟩
  else if c = '"' then ⟨tokens, .name []⟩
  else if isWordStart c then ⟨tokens, .word [c]⟩
  else if c.isDigit then ⟨tokens, .number [c]⟩
  else if c = '.' then ⟨tokens, .dot⟩
  else if c = ':' then ⟨tokens, .colon⟩
  else if isSymbol c then ⟨tokens ++ [.symbol c], .start⟩
  else if isOperator c then ⟨tokens, .operator [c]⟩
  else ⟨tokens, .unknown⟩

/-- A character behind a run of operator characters, which ends where a comment begins. -/
def behindOperator (tokens : List Token) (w : List Char) (c : Char) : Scan :=
  if c = '-' ∧ w.getLast? = some '-' then ⟨tokens ++ operators w.dropLast, .comment⟩
  else if c = '*' ∧ w.getLast? = some '/' then ⟨tokens ++ operators w.dropLast, .block 0 ' '⟩
  else if isOperator c then ⟨tokens, .operator (w ++ [c])⟩
  else opened (tokens ++ operators w) c

/-- A character behind a string, or behind the white space behind one. -/
def behindString (tokens : List Token) (v : List Char) (line : Bool) (c : Char) : Scan :=
  if isSpace c then ⟨tokens, .gap v (line || isNewline c)⟩
  else if c = '-' then ⟨tokens, .gapDash v line⟩
  else opened (tokens ++ [.string v]) c

/-- The next character, which is not zero. -/
def advance (s : Scan) (c : Char) : Scan :=
  match s.mode with
  | .start => opened s.tokens c
  | .word w =>
    if isWordChar c then ⟨s.tokens, .word (w ++ [c])⟩
    else if isPrefix w c then ⟨s.tokens, .unknown⟩
    else opened (s.tokens ++ [.word w]) c
  | .number w =>
    if c.isDigit then ⟨s.tokens, .number (w ++ [c])⟩
    else if isWordChar c then ⟨s.tokens, .unknown⟩
    else if c = '.' then if '.' ∈ w then ⟨s.tokens, .unknown⟩ else ⟨s.tokens, .number (w ++ [c])⟩
    else opened (s.tokens ++ [.number w]) c
  | .name v => if c = '"' then ⟨s.tokens, .nameEnd v⟩ else ⟨s.tokens, .name (v ++ [c])⟩
  | .nameEnd v =>
    if c = '"' then ⟨s.tokens, .name (v ++ [c])⟩
    else if v = [] then ⟨s.tokens, .unknown⟩
    else opened (s.tokens ++ [.name v]) c
  | .string v => if c = '\'' then ⟨s.tokens, .stringEnd v⟩ else ⟨s.tokens, .string (v ++ [c])⟩
  | .stringEnd v => if c = '\'' then ⟨s.tokens, .string (v ++ [c])⟩ else behindString s.tokens v false c
  | .gap v line => if c = '\'' ∧ line then ⟨s.tokens, .string v⟩ else behindString s.tokens v line c
  | .gapDash v line =>
    if c = '-' then ⟨s.tokens, .gapComment v line⟩ else behindOperator (s.tokens ++ [.string v]) ['-'] c
  | .gapComment v line => if isNewline c then ⟨s.tokens, .gap v true⟩ else ⟨s.tokens, .gapComment v line⟩
  | .operator w => behindOperator s.tokens w c
  | .dot =>
    if c = '.' then ⟨s.tokens ++ [.operator ['.', '.']], .start⟩
    else if c.isDigit then ⟨s.tokens, .number ['.', c]⟩
    else opened (s.tokens ++ [.symbol '.']) c
  | .colon =>
    if c = ':' ∨ c = '=' then ⟨s.tokens ++ [.operator [':', c]], .start⟩ else opened (s.tokens ++ [.symbol ':']) c
  | .comment => if isNewline c then ⟨s.tokens, .start⟩ else s
  | .block depth last =>
    if last = '*' ∧ c = '/' then ⟨s.tokens, if depth = 0 then .start else .block (depth - 1) ' '⟩
    else if last = '/' ∧ c = '*' then ⟨s.tokens, .block (depth + 1) ' '⟩
    else ⟨s.tokens, .block depth c⟩
  | .unknown => s

/-- SQL has no character zero. -/
def step (s : Scan) (c : Char) : Scan := if c.toNat = 0 then ⟨s.tokens, .unknown⟩ else advance s c

def scan (s : Scan) (cs : List Char) : Scan := cs.foldl step s

def finish (s : Scan) : Option (List Token) :=
  match s.mode with
  | .start | .comment => some s.tokens
  | .word w => some (s.tokens ++ [.word w])
  | .number w => some (s.tokens ++ [.number w])
  | .nameEnd v => if v = [] then none else some (s.tokens ++ [.name v])
  | .stringEnd v | .gap v _ | .gapComment v _ => some (s.tokens ++ [.string v])
  | .gapDash v _ => some (s.tokens ++ [.string v, .operator ['-']])
  | .operator w => some (s.tokens ++ operators w)
  | .dot => some (s.tokens ++ [.symbol '.'])
  | .colon => some (s.tokens ++ [.symbol ':'])
  | .name _ | .string _ | .block _ _ | .unknown => none

def lex (cs : List Char) : Option (List Token) := finish (scan ⟨[], .start⟩ cs)

/-! ## Identifiers -/

def bytes : List Char → Nat
  | [] => 0
  | c :: cs => c.utf8Size + bytes cs

/-- As many characters as fit into `n` bytes. -/
def clip (n : Nat) : List Char → List Char
  | [] => []
  | c :: cs => if c.utf8Size ≤ n then c :: clip (n - c.utf8Size) cs else []

/-- A database in UTF-8 folds the letters of ASCII. -/
def fold (w : List Char) : List Char := w.map Char.toLower

/-- `NAMEDATALEN - 1` -/
def maxIdentBytes : Nat := 63

/-- The identifier that a token is where one may stand.  A word is folded and must not be one of the reserved ones; a word or
a name that is too long is cut. -/
def Token.ident? (reserved : List Char → Bool) : Token → Option (List Char)
  | .word w => if reserved (fold w) then none else some (clip maxIdentBytes (fold w))
  | .name v => some (clip maxIdentBytes v)
  | .number _ | .string _ | .symbol _ | .operator _ => none

theorem clip_isPrefix : ∀ (n : Nat) (v : List Char), clip n v <+: v
  | _, [] => List.prefix_refl _
  | n, c :: v => by
    rw [clip]
    split
    · exact (List.prefix_cons_inj c).2 (clip_isPrefix (n - c.utf8Size) v)
    · exact List.nil_prefix

theorem clip_eq_self_iff : ∀ (n : Nat) (v : List Char), clip n v = v ↔ bytes v ≤ n
  | n, [] => iff_of_true rfl (Nat.zero_le n)
  | n, c :: v => by
    have ih := clip_eq_self_iff (n - c.utf8Size) v
    rw [clip, bytes]
    split
    · rw [List.cons_inj_right, ih]
      omega
    · exact iff_of_false (fun h => by cases h) (by omega)

theorem ident?_name_iff (reserved : List Char → Bool) (v : List Char) :
    (Token.name v).ident? reserved = some v ↔ bytes v ≤ maxIdentBytes := by
  rw [Token.ident?, Option.some_inj, clip_eq_self_iff]

/-- **A word is itself as an identifier exactly if it is in lower case, not reserved and not too long.** -/
theorem ident?_word_iff (reserved : List Char → Bool) (w : List Char) :
    (Token.word w).ident? reserved = some w ↔ fold w = w ∧ reserved w = false ∧ bytes w ≤ maxIdentBytes := by
  rw [Token.ident?]
  constructor
  · intro h
    split at h
    · cases h
    · rename_i hres
      have hclip : clip maxIdentBytes (fold w) = w := Option.some.inj h
      have hlen : (clip maxIdentBytes (fold w)).length = (fold w).length := by rw [hclip, fold, List.length_map]
      have hwhole := (clip_isPrefix maxIdentBytes (fold w)).eq_of_length hlen
      have hfold : fold w = w := hwhole.symm.trans hclip
      rw [hfold] at hres hwhole
      exact ⟨hfold, Bool.eq_false_iff.2 hres, (clip_eq_self_iff ..).1 hwhole⟩
  · rintro ⟨hfold, hres, hbytes⟩
    rw [hfold, if_neg (Bool.eq_false_iff.1 hres), (clip_eq_self_iff ..).2 hbytes]

/-! ## How texts compose -/

theorem scan_append (s : Scan) (as bs : List Char) : scan s (as ++ bs) = scan (scan s as) bs := List.foldl_append

theorem scan_cons (s : Scan) (c : Char) (cs : List Char) : scan s (c :: cs) = scan (step s c) cs := rfl

theorem step_eq (ts : List Token) (m : Mode) {c : Char} (hc : c.toNat ≠ 0) : step ⟨ts, m⟩ c = advance ⟨ts, m⟩ c := if_neg hc

/-- What `f` does behind these tokens is what it does behind none. -/
def Local (f : List Token → Scan) : Prop := ∀ ts tokens, f (ts ++ tokens) = ⟨ts ++ (f tokens).tokens, (f tokens).mode⟩

theorem local_opened (c : Char) : Local (fun tokens => opened tokens c) := fun ts tokens => by
  simp only [opened]
  split_ifs <;> simp

theorem local_behindOperator (w : List Char) (c : Char) : Local (fun tokens => behindOperator tokens w c) :=
  fun ts tokens => by
    simp only [behindOperator, List.append_assoc]
    split_ifs <;> first | rfl | exact local_opened c ts _

theorem local_behindString (v : List Char) (line : Bool) (c : Char) : Local (fun tokens => behindString tokens v line c) :=
  fun ts tokens => by
    simp only [behindString, List.append_assoc]
    split_ifs <;> first | rfl | exact local_opened c ts _

theorem local_step (m : Mode) (c : Char) : Local (fun tokens => step ⟨tokens, m⟩ c) := fun ts tokens => by
  simp only [step]
  split
  · rfl
  cases m with
  | start => exact local_opened c ts tokens
  | operator w => exact local_behindOperator w c ts tokens
  | unknown => rfl
  | block =>
    simp only [advance]
    split_ifs <;> rfl
  | word | number | name | nameEnd | string | stringEnd | gap | gapDash | gapComment | dot | colon | comment =>
    simp only [advance, List.append_assoc]
    split_ifs <;> first
      | rfl
      | exact local_opened c ts _
      | exact local_behindOperator _ c ts _
      | exact local_behindString _ _ c ts _

/-- What has been read stays, and has no influence. -/
theorem scan_tokens : ∀ (cs : List Char) (ts tokens : List Token) (m : Mode),
    scan ⟨ts ++ tokens, m⟩ cs = ⟨ts ++ (scan ⟨tokens, m⟩ cs).tokens, (scan ⟨tokens, m⟩ cs).mode⟩
  | [], _, _, _ => rfl
  | c :: cs, ts, tokens, m => by
    have hstep : step ⟨ts ++ tokens, m⟩ c = _ := local_step m c ts tokens
    rw [scan_cons, hstep, scan_tokens cs, scan_cons]

theorem scan_from (cs : List Char) (ts : List Token) (m : Mode) :
    scan ⟨ts, m⟩ cs = ⟨ts ++ (scan ⟨[], m⟩ cs).tokens, (scan ⟨[], m⟩ cs).mode⟩ := by
  have h := scan_tokens cs ts [] m
  rwa [List.append_nil] at h

theorem finish_from (ts tokens : List Token) (m : Mode) :
    finish ⟨ts ++ tokens, m⟩ = (finish ⟨tokens, m⟩).map (ts ++ ·) := by
  cases m with
  | nameEnd v =>
    simp only [finish]
    split <;> simp
  | start | word | number | name | string | stringEnd | gap | gapDash | gapComment | operator | dot | colon | comment
  | block | unknown => simp [finish]

theorem step_unknown (ts : List Token) (c : Char) : step ⟨ts, .unknown⟩ c = ⟨ts, .unknown⟩ := by
  rw [step]
  split <;> rfl

theorem scan_unknown (ts : List Token) : ∀ cs : List Char, scan ⟨ts, .unknown⟩ cs = ⟨ts, .unknown⟩
  | [] => rfl
  | c :: cs => by rw [scan_cons, step_unknown, scan_unknown ts cs]

theorem scan_start (cs : List Char) (ts : List Token) : finish (scan ⟨ts, .start⟩ cs) = (lex cs).map (ts ++ ·) := by
  rw [scan_from, finish_from]
  rfl

/-- A text that leaves the scanner between two tokens. -/
theorem scan_between {t : List Char} (ht : (scan ⟨[], .start⟩ t).mode = .start) (ts : List Token) :
    scan ⟨ts, .start⟩ t = ⟨ts ++ (scan ⟨[], .start⟩ t).tokens, .start⟩ := by
  rw [scan_from t, ht]

/-! ## Characters of words -/

theorem isDigit_bounds {c : Char} (h : c.isDigit = true) : 48 ≤ c.toNat ∧ c.toNat ≤ 57 := by
  obtain ⟨hlow, hhigh⟩ := Bool.and_eq_true_iff.1 h
  exact ⟨UInt32.le_iff_toNat_le.1 (of_decide_eq_true hlow), UInt32.le_iff_toNat_le.1 (of_decide_eq_true hhigh)⟩

theorem isAlpha_bounds {c : Char} (h : c.isAlpha = true) : 65 ≤ c.toNat ∧ c.toNat ≤ 122 := by
  rcases Bool.or_eq_true_iff.1 h with h | h
  · obtain ⟨hlow, hhigh⟩ := of_decide_eq_true h
    have hlow : 65 ≤ c.toNat := UInt32.le_iff_toNat_le.1 hlow
    have hhigh : c.toNat ≤ 90 := UInt32.le_iff_toNat_le.1 hhigh
    omega
  · obtain ⟨hlow, hhigh⟩ := Bool.and_eq_true_iff.1 h
    have hlow : 97 ≤ c.toNat := UInt32.le_iff_toNat_le.1 (of_decide_eq_true hlow)
    have hhigh : c.toNat ≤ 122 := UInt32.le_iff_toNat_le.1 (of_decide_eq_true hhigh)
    omega

theorem isWordStart_bounds {c : Char} (h : isWordStart c = true) : 65 ≤ c.toNat := by
  rcases Bool.or_eq_true_iff.1 h with h | h
  · rcases Bool.or_eq_true_iff.1 h with h | h
    · exact (isAlpha_bounds h).1
    · rw [of_decide_eq_true h]
      decide
  · have := of_decide_eq_true h
    omega

theorem not_wordStart_of_digit {c : Char} (hc : c.isDigit = true) : isWordStart c = false := by
  refine Bool.eq_false_iff.2 (fun h => ?_)
  have hdigit := isDigit_bounds hc
  have hstart := isWordStart_bounds h
  omega

/-! ## Values between quotes -/

/-- No character zero. -/
def NoNul (v : List Char) : Prop := ∀ c ∈ v, c.toNat ≠ 0

instance (v : List Char) : Decidable (NoNul v) := List.decidableBAll _ _

/-- The value with its quotes doubled. -/
def escape (quote : Char) : List Char → List Char
  | [] => []
  | c :: cs => if c = quote then c :: c :: escape quote cs else c :: escape quote cs

theorem escape_append (q : Char) : ∀ v w : List Char, escape q (v ++ w) = escape q v ++ escape q w
  | [], _ => rfl
  | c :: v, w => by
    simp only [List.cons_append, escape, escape_append q v w]
    split <;> rfl

theorem escape_of_not_mem {q : Char} : ∀ {v : List Char}, q ∉ v → escape q v = v
  | [], _ => rfl
  | c :: v, h => by
    have hc : c ≠ q := fun hc => h (hc ▸ List.mem_cons_self)
    rw [escape, if_neg hc, escape_of_not_mem (fun hv => h (List.mem_cons_of_mem c hv))]

theorem step_string (ts : List Token) (v : List Char) (c : Char) : step ⟨ts, .string v⟩ c =
    if c.toNat = 0 then ⟨ts, .unknown⟩ else if c = '\'' then ⟨ts, .stringEnd v⟩ else ⟨ts, .string (v ++ [c])⟩ := rfl

theorem step_name (ts : List Token) (v : List Char) (c : Char) : step ⟨ts, .name v⟩ c =
    if c.toNat = 0 then ⟨ts, .unknown⟩ else if c = '"' then ⟨ts, .nameEnd v⟩ else ⟨ts, .name (v ++ [c])⟩ := rfl

theorem step_nameEnd (ts : List Token) (v : List Char) (c : Char) : step ⟨ts, .nameEnd v⟩ c =
    if c.toNat = 0 then ⟨ts, .unknown⟩ else if c = '"' then ⟨ts, .name (v ++ [c])⟩
    else if v = [] then ⟨ts, .unknown⟩ else opened (ts ++ [.name v]) c := rfl

/-- **An escaped value is read as the value.** -/
theorem scan_escape (ts : List Token) : ∀ (v u : List Char), NoNul v →
    scan ⟨ts, .string u⟩ (escape '\'' v) = ⟨ts, .string (u ++ v)⟩
  | [], u, _ => by rw [List.append_nil]; rfl
  | c :: v, u, hv => by
    have hnul : c.toNat ≠ 0 := hv c List.mem_cons_self
    have ih := scan_escape ts v (u ++ [c]) (fun d hd => hv d (List.mem_cons_of_mem c hd))
    rw [List.append_assoc] at ih
    rw [escape]
    split
    · rename_i hc
      subst hc
      exact ih
    · rename_i hc
      rw [scan_cons, step_string, if_neg hnul, if_neg hc]
      exact ih

/-- A value with a character zero in it is not read. -/
theorem scan_escape_nul (ts : List Token) : ∀ (v u : List Char), ¬ NoNul v →
    scan ⟨ts, .string u⟩ (escape '\'' v) = ⟨ts, .unknown⟩
  | [], _, hv => absurd (fun c hc => absurd hc List.not_mem_nil) hv
  | c :: v, u, hv => by
    rw [escape]
    by_cases hnul : c.toNat = 0
    · have hc : c ≠ '\'' := by
        rintro rfl
        exact absurd hnul (by decide)
      rw [if_neg hc, scan_cons, step_string, if_pos hnul, scan_unknown]
    · have hrest : ¬ NoNul v := fun h => hv (List.forall_mem_cons.2 ⟨hnul, h⟩)
      have ih := scan_escape_nul ts v (u ++ [c]) hrest
      split
      · rename_i hc
        subst hc
        exact ih
      · rename_i hc
        rw [scan_cons, step_string, if_neg hnul, if_neg hc]
        exact ih

/-- What a text is read as that follows an opening double quote: the text determines the name, and the other way round. -/
inductive Reads : List Char → Scan → Prop
  | inside (v : List Char) (hv : NoNul v) : Reads (escape '"' v) ⟨[], .name v⟩
  | closing (v : List Char) (hv : NoNul v) : Reads (escape '"' v ++ ['"']) ⟨[], .nameEnd v⟩
  | closed (v rest : List Char) (ts : List Token) (m : Mode) (hv : NoNul v) (hne : v ≠ []) :
      Reads (escape '"' v ++ '"' :: rest) ⟨.name v :: ts, m⟩
  | unknown (text : List Char) (ts : List Token) : Reads text ⟨ts, .unknown⟩

theorem noNul_concat {v : List Char} {c : Char} (hv : NoNul v) (hc : c.toNat ≠ 0) : NoNul (v ++ [c]) :=
  List.forall_mem_append.2 ⟨hv, List.forall_mem_singleton.2 hc⟩

theorem Reads.step {text : List Char} {s : Scan} (h : Reads text s) (c : Char) : Reads (text ++ [c]) (step s c) := by
  cases h with
  | inside v hv =>
    rw [step_name]
    split_ifs with hnul hc
    · exact .unknown _ _
    · subst hc
      exact .closing v hv
    · have hesc : escape '"' v ++ [c] = escape '"' (v ++ [c]) := by rw [escape_append, escape, if_neg hc, escape]
      exact hesc ▸ .inside (v ++ [c]) (noNul_concat hv hnul)
  | closing v hv =>
    rw [step_nameEnd]
    split_ifs with hnul hc hne
    · exact .unknown _ _
    · subst hc
      have hesc : escape '"' v ++ ['"'] ++ ['"'] = escape '"' (v ++ ['"']) := by
        rw [escape_append, escape, if_pos rfl, escape, List.append_assoc]
        rfl
      exact hesc ▸ .inside (v ++ ['"']) (noNul_concat hv hnul)
    · exact .unknown _ _
    · rw [List.append_assoc]
      have h : opened ([Token.name v] ++ []) c = _ := local_opened c [.name v] []
      rw [List.append_nil] at h
      rw [List.nil_append, h]
      exact .closed v [c] _ _ hv hne
  | closed v rest ts m hv hne =>
    have h : SqlText.step ⟨[.name v] ++ ts, m⟩ c = _ := local_step m c [.name v] ts
    rw [List.append_assoc]
    exact h ▸ .closed v (rest ++ [c]) _ _ hv hne
  | unknown text ts =>
    rw [step_unknown]
    exact .unknown _ _

theorem reads_scan (text : List Char) : Reads text (scan ⟨[], .name []⟩ text) := by
  induction text using List.reverseRecOn with
  | nil => exact .inside [] (fun c hc => absurd hc List.not_mem_nil)
  | append_singleton text c ih =>
    rw [scan_append]
    exact ih.step c

/-- **A text that is read as a name starts with the name, escaped, and a quote.** -/
theorem escaped_isPrefix {text v : List Char} {tokens : List Token}
    (h : finish (scan ⟨[], .name []⟩ text) = some (.name v :: tokens)) :
    NoNul v ∧ v ≠ [] ∧ escape '"' v ++ ['"'] <+: text := by
  have hr := reads_scan text
  generalize scan ⟨[], .name []⟩ text = s at h hr
  cases hr with
  | inside w hw => cases h
  | unknown => cases h
  | closing w hw =>
    simp only [finish] at h
    split at h
    · cases h
    · rename_i hne
      obtain rfl := Token.name.inj (List.cons.inj (Option.some.inj h)).1
      exact ⟨hw, hne, List.prefix_refl _⟩
  | closed w rest ts m hw hne =>
    have hf := finish_from [.name w] ts m
    rw [List.singleton_append, h] at hf
    obtain ⟨ts', -, heq⟩ := Option.map_eq_some_iff.1 hf.symm
    obtain rfl := Token.name.inj (List.cons.inj heq).1
    exact ⟨hw, hne, rest, by rw [List.append_assoc]; rfl⟩

theorem not_padded {q : Char} {rest : List Char} (hrest : rest.head? ≠ some q) : ∀ (v : List Char) (k : Nat),
    ¬ List.replicate (k + 1) q ++ (escape q v ++ [q]) <+: v ++ q :: rest
  | [], k => by
    intro h
    rw [List.replicate_succ, List.nil_append, List.cons_append] at h
    have h := (List.cons_prefix_cons.1 h).2
    cases k with
    | zero =>
      obtain ⟨t, rfl⟩ := h
      exact hrest rfl
    | succ k =>
      obtain ⟨t, rfl⟩ := h
      exact hrest rfl
  | c :: v, k => by
    intro h
    rw [List.replicate_succ, List.cons_append, List.cons_append] at h
    obtain ⟨rfl, h⟩ := List.cons_prefix_cons.1 h
    refine not_padded hrest v (k + 1) ?_
    rw [escape, if_pos rfl] at h
    have hshift : ∀ l : List Char, List.replicate k q ++ (q :: q :: l) = List.replicate (k + 1 + 1) q ++ l := by
      intro l
      rw [List.replicate_succ', List.replicate_succ', List.append_assoc, List.append_assoc]
      rfl
    rw [List.cons_append, List.cons_append, hshift] at h
    exact h

/-- **A text that would be its own value has no quote in it.** -/
theorem not_mem_of_isPrefix {q : Char} {rest : List Char} (hrest : rest.head? ≠ some q) : ∀ v : List Char,
    escape q v ++ [q] <+: v ++ q :: rest → q ∉ v
  | [], _ => List.not_mem_nil
  | c :: v, h => by
    rw [escape] at h
    split at h
    · rename_i hc
      subst hc
      exact absurd (List.cons_prefix_cons.1 h).2 (not_padded hrest v 0)
    · rename_i hc
      have hv := not_mem_of_isPrefix hrest v (List.cons_prefix_cons.1 h).2
      exact fun hm => (List.mem_cons.1 hm).elim (fun hcq => hc hcq.symm) hv

/-- A name without quotes is read as it is. -/
theorem scan_plain (ts : List Token) : ∀ (v u : List Char), '"' ∉ v → NoNul v →
    scan ⟨ts, .name u⟩ v = ⟨ts, .name (u ++ v)⟩
  | [], u, _, _ => by rw [List.append_nil]; rfl
  | c :: v, u, hq, hv => by
    obtain ⟨hnul, hv⟩ := List.forall_mem_cons.1 hv
    have hc : c ≠ '"' := fun hc => hq (hc ▸ List.mem_cons_self)
    have ih := scan_plain ts v (u ++ [c]) (fun h => hq (List.mem_cons_of_mem c h)) hv
    rw [scan_cons, step_name, if_neg hnul, if_neg hc, ih, List.append_assoc]
    rfl

end SqlText
